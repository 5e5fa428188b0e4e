import ShardMesh.Toml.Quoted
import ShardMesh.Toml.Scalar

/-!
# Reading a TOML document

A document is read line by line: a key with its value, the header of a table, or the header of
another row of an array of tables. Every reader takes the text from where it stands and gives what
it read with the text that is left; a text that no reader accepts is no document.
-/

namespace ShardMesh.Toml.Reader

open Quoted (isBlank isPlain)

/-- How deep brackets and braces may be nested, and how many parts a dotted key may have. -/
def maxDepth : Nat := 80

/-- Skips blanks. -/
def skipBlanks (text : List Char) : List Char := text.dropWhile isBlank

/-- Skips a comment. -/
def skipComment : List Char → List Char
  | '#' :: rest => rest.dropWhile isPlain
  | text => text

/-- What is left after the end of a line: blanks, perhaps a comment, and a line break or the end of
the document. -/
def lineEnd? (text : List Char) : Option (List Char) :=
  match skipComment (skipBlanks text) with
  | [] => some []
  | text => Quoted.lineBreak? text

/-- Skips blanks, comments and line breaks. Enough fuel is the length of the text. -/
def skipSpace : (fuel : Nat) → List Char → List Char
  | 0, text => text
  | fuel + 1, text =>
    match skipComment (skipBlanks text) with
    | [] => []
    | text =>
      match Quoted.lineBreak? text with
      | some rest => skipSpace fuel rest
      | none => text

/-- Whether a character may stand in a key without quotes. -/
def isBare (c : Char) : Bool := c.isAlphanum || c = '_' || c = '-'

/-- One part of a key. -/
def keyPart? (text : List Char) : Option (String × List Char) :=
  match text.takeWhile isBare with
  | [] => (Quoted.key? text).map fun (part, rest) => (String.ofList part, rest)
  | part => some (String.ofList part, text.dropWhile isBare)

/-- The parts of a key, with blanks around them. The fuel bounds their number. -/
def keyParts? : (fuel : Nat) → List Char → Option (List String × List Char)
  | 0, _ => none
  | fuel + 1, text => do
    let (part, rest) ← keyPart? (skipBlanks text)
    match skipBlanks rest with
    | '.' :: rest => do
      let (parts, rest) ← keyParts? fuel rest
      return (part :: parts, rest)
    | rest => return ([part], rest)

/-- A key: the parts before the last dot, and the last part. -/
def key? (text : List Char) : Option ((List String × String) × List Char) := do
  let (parts, rest) ← keyParts? (maxDepth - 1) text
  let last ← parts.getLast?
  return ((parts.dropLast, last), rest)

/-- Adds a value under a key to the table in braces that is being read. -/
def addInline (key : List String × String) (v : Value) (items : Items) : Option Items :=
  Items.update true (Items.insertNew key.1.isEmpty key.2 v) key.1 .inline items

mutual

/-- A value. The fuel is spent on its length and the depth bounds its nesting. -/
def value? : (fuel depth : Nat) → List Char → Option (Value × List Char)
  | 0, _, _ => none
  | fuel + 1, depth, text =>
    match text with
    | '[' :: rest =>
      match depth with
      | 0 => none
      | depth + 1 => items? fuel depth (skipSpace rest.length rest)
    | '\x7b' :: rest =>
      match depth with
      | 0 => none
      | depth + 1 =>
        match skipBlanks rest with
        | '\x7d' :: rest => some (.table .inline [], rest)
        | rest => do
          let (items, rest) ← pairs? fuel depth [] rest
          return (.table .inline items, rest)
    | '"' :: _ | '\'' :: _ =>
      (Quoted.text? text).map fun (s, rest) => (.string (String.ofList s), rest)
    | text => do
      let (token, rest) := Scalar.cut text
      return (← Scalar.ofText? token, rest)

/-- What follows an opening bracket. -/
def items? : (fuel depth : Nat) → List Char → Option (Value × List Char)
  | 0, _, _ => none
  | fuel + 1, depth, text =>
    match text with
    | ']' :: rest => some (.array false [], rest)
    | text => do
      let (v, rest) ← value? fuel depth text
      match skipSpace rest.length rest with
      | ',' :: rest => do
        match ← items? fuel depth (skipSpace rest.length rest) with
        | (.array _ vs, rest) => return (.array false (v :: vs), rest)
        | _ => none
      | ']' :: rest => return (.array false [v], rest)
      | _ => none

/-- What follows an opening brace that is not closed at once, or a comma in braces. -/
def pairs? : (fuel depth : Nat) → Items → List Char → Option (Items × List Char)
  | 0, _, _, _ => none
  | fuel + 1, depth, items, text => do
    let (key, rest) ← key? text
    match rest with
    | '=' :: rest => do
      let (v, rest) ← value? fuel depth (skipBlanks rest)
      let items ← addInline key v items
      match skipBlanks rest with
      | ',' :: rest => pairs? fuel depth items rest
      | '\x7d' :: rest => return (items, rest)
      | _ => none
    | _ => none

end

/-- What has been read, and under which header the next keys stand. -/
structure State where
  items : Items := []
  section_ : List String := []

/-- A line with a key and its value. -/
def keyLine? (s : State) (text : List Char) : Option (State × List Char) := do
  let (key, rest) ← key? text
  match rest with
  | '=' :: rest => do
    let rest := skipBlanks rest
    let (v, rest) ← value? (2 * rest.length + 2) (maxDepth - 1) rest
    let items ← Items.insertAt s.section_ key.1 key.2 v s.items
    return ({ s with items }, ← lineEnd? rest)
  | _ => none

/-- A header line, given what follows its brackets. -/
def headerLine? (s : State) (row : Bool) (text : List Char) : Option (State × List Char) := do
  let (key, rest) ← key? text
  let rest ← match row, rest with
    | true, ']' :: ']' :: rest => some rest
    | false, ']' :: rest => some rest
    | _, _ => none
  let items ← if row then Items.openRow key.1 key.2 s.items else Items.openTable key.1 key.2 s.items
  return (⟨items, key.1 ++ [key.2]⟩, ← lineEnd? rest)

/-- A line that starts with neither blank, comment nor line break. -/
def line? (s : State) (text : List Char) : Option (State × List Char) :=
  match text with
  | '[' :: '[' :: rest => headerLine? s true rest
  | '[' :: rest => headerLine? s false rest
  | text => keyLine? s text

/-- All lines. Enough fuel is one more than the length of the text. -/
def lines? : (fuel : Nat) → State → List Char → Option Items
  | 0, _, _ => none
  | fuel + 1, s, text =>
    match skipBlanks text with
    | [] => some s.items
    | text => do
      match lineEnd? text with
      | some rest => lines? fuel s rest
      | none => do
        let (s, rest) ← line? s text
        lines? fuel s rest

/-- The keys and values of a document. A byte order mark at its beginning does not count. -/
def document? (text : String) : Option Items :=
  let text := match text.toList with
    | '\ufeff' :: rest => rest
    | text => text
  lines? (text.length + 1) {} text

end ShardMesh.Toml.Reader
