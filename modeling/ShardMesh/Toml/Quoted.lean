import ShardMesh.Bytes

/-!
# Quoted text in a TOML document

A text stands between double quotes, with escapes, or between single quotes, without; between
three quotes it may run over several lines. Each reader gets what follows the opening quotes and
gives the text and what follows the closing ones.
-/

namespace ShardMesh.Toml.Quoted

/-- Whether a character may stand in a text or comment as it is. -/
def isPlain (c : Char) : Bool := c = '\t' || (0x20 ≤ c.toNat && c.toNat ≠ 0x7f)

/-- Whether a character is a blank. -/
def isBlank (c : Char) : Bool := c = ' ' || c = '\t'

/-- The character with a code point, if there is one. -/
def charOf? (n : Nat) : Option Char := if n.isValidChar then some (Char.ofNat n) else none

/-- The character that so many hexadecimal digits denote. -/
def codePoint? (count : Nat) (text : List Char) : Option Char :=
  let digits := text.take count
  if digits.length = count ∧ digits.all (fun c => (Bytes.hexValue? c).isSome) then
    charOf? (digits.foldl (fun n c => 16 * n + (Bytes.hexValue? c).getD 0) 0)
  else none

/-- What an escape stands for, given what follows the backslash, and how many characters that
takes. -/
def escape? : List Char → Option (Char × Nat)
  | 'b' :: _ => some ('\x08', 1)
  | 'f' :: _ => some ('\x0c', 1)
  | 'n' :: _ => some ('\n', 1)
  | 'r' :: _ => some ('\r', 1)
  | 't' :: _ => some ('\t', 1)
  | '\\' :: _ => some ('\\', 1)
  | '"' :: _ => some ('"', 1)
  | 'u' :: rest => (codePoint? 4 rest).map (·, 5)
  | 'U' :: rest => (codePoint? 8 rest).map (·, 9)
  | _ => none

/-- A line break at the beginning, and what follows it. -/
def lineBreak? : List Char → Option (List Char)
  | '\n' :: rest => some rest
  | '\r' :: '\n' :: rest => some rest
  | _ => none

/-- What is left after a line break, if there is one. -/
def skipLineBreak (text : List Char) : List Char := (lineBreak? text).getD text

/-- The rest of a text between single quotes. -/
def literal? : List Char → Option (List Char × List Char)
  | [] => none
  | c :: rest =>
    if c = '\'' then some ([], rest)
    else if isPlain c then (literal? rest).map fun (text, after) => (c :: text, after)
    else none

/-- The rest of a text between double quotes. Enough fuel is one more than its length. -/
def basic? : (fuel : Nat) → List Char → Option (List Char × List Char)
  | 0, _ | _, [] => none
  | fuel + 1, c :: rest =>
    if c = '"' then some ([], rest)
    else if c = '\\' then do
      let (c, count) ← escape? rest
      let (text, after) ← basic? fuel (rest.drop count)
      return (c :: text, after)
    else if isPlain c then (basic? fuel rest).map fun (text, after) => (c :: text, after)
    else none

/-- How three quotes and more end a text: up to two more belong to the text. -/
def closing? (quote : Char) (text : List Char) : Option (List Char × List Char) :=
  let run := (text.takeWhile (· = quote)).length
  if 3 ≤ run ∧ run ≤ 5 then some (List.replicate (run - 3) quote, text.drop run) else none

/-- Skips blanks and line breaks. -/
def skipSpace : List Char → List Char
  | [] => []
  | '\r' :: '\n' :: rest => skipSpace rest
  | c :: rest => if isBlank c ∨ c = '\n' then skipSpace rest else c :: rest

/-- The rest of a text over several lines. Where escapes count, a backslash at the end of a line
takes the space that follows away. Enough fuel is one more than its length. -/
def lines? (quote : Char) (escapes : Bool) :
    (fuel : Nat) → List Char → Option (List Char × List Char)
  | 0, _ | _, [] => none
  | fuel + 1, c :: rest =>
    if c = quote then
      let run := ((c :: rest).takeWhile (· = quote)).length
      if run < 3 then
        (lines? quote escapes fuel (rest.drop (run - 1))).map fun (text, after) =>
          (List.replicate run quote ++ text, after)
      else closing? quote (c :: rest)
    else if c = '\\' ∧ escapes then
      match lineBreak? (rest.dropWhile isBlank) with
      | some after => lines? quote escapes fuel (skipSpace after)
      | none => do
        let (c, count) ← escape? rest
        let (text, after) ← lines? quote escapes fuel (rest.drop count)
        return (c :: text, after)
    else
      match lineBreak? (c :: rest) with
      | some after =>
        (lines? quote escapes fuel after).map fun (text, after) => ('\n' :: text, after)
      | none =>
        if isPlain c then
          (lines? quote escapes fuel rest).map fun (text, after) => (c :: text, after)
        else none

/-- A quoted text at the beginning: the text and what follows. -/
def text? (source : List Char) : Option (List Char × List Char) :=
  match source with
  | '"' :: '"' :: '"' :: rest => lines? '"' true (rest.length + 1) (skipLineBreak rest)
  | '"' :: rest => basic? (rest.length + 1) rest
  | '\'' :: '\'' :: '\'' :: rest => lines? '\'' false (rest.length + 1) (skipLineBreak rest)
  | '\'' :: rest => literal? rest
  | _ => none

/-- A quoted key at the beginning, which has to end on its line. -/
def key? (source : List Char) : Option (List Char × List Char) :=
  match source with
  | '"' :: rest => basic? (rest.length + 1) rest
  | '\'' :: rest => literal? rest
  | _ => none

end ShardMesh.Toml.Quoted
