import ShardMesh.Toml.Value
import ShardMesh.Toml.Reader

/-!
# Writing a TOML document

A table is written as its simple values, one a line, and then its tables, each under a header with
a blank line before it. A table that holds tables only needs no header. Texts are quoted in the
first of several styles that needs no escapes.
-/

namespace ShardMesh.Toml.Writer

/-! ## Quoting -/

/-- Whether a character cannot stand in a text as it is; line breaks and tabs are looked at
apart. -/
def isControl (c : Char) : Bool := (c.toNat < 0x20 && c ≠ '\t' && c ≠ '\n') || c.toNat = 0x7f

/-- The length of the longest run of a character. -/
def longestRun (quote : Char) (text : List Char) : Nat :=
  (text.foldl (fun (longest, run) c =>
    if c = quote then (max longest (run + 1), run + 1) else (longest, 0)) (0, 0)).1

/-- The hexadecimal digits of a code point, at least four. -/
def codePoint (n : Nat) : List Char :=
  let digits := (Nat.toDigits 16 n).map Char.toUpper
  List.replicate (4 - digits.length) '0' ++ digits

/-- A text between double quotes, without the quotes. Over several lines up to two double quotes
in a row need no escape; the run counts how many there have been. -/
def escaped (severalLines : Bool) : (run : Nat) → List Char → List Char
  | _, [] => []
  | run, c :: rest =>
    if c = '"' then
      if severalLines ∧ run < 2 then '"' :: escaped severalLines (run + 1) rest
      else '\\' :: '"' :: escaped severalLines 0 rest
    else
      let written :=
        if c = '\x08' then ['\\', 'b']
        else if c = '\t' then ['\\', 't']
        else if c = '\n' ∧ !severalLines then ['\\', 'n']
        else if c = '\x0c' then ['\\', 'f']
        else if c = '\r' then ['\\', 'r']
        else if c = '\\' then ['\\', '\\']
        else if isControl c then '\\' :: 'u' :: codePoint c.toNat
        else [c]
      written ++ escaped severalLines 0 rest

/-- A text between double quotes. -/
def basic (text : List Char) : List Char := '"' :: escaped false 0 text ++ ['"']

/-- A text between single quotes. -/
def literal (text : List Char) : List Char := '\'' :: text ++ ['\'']

/-- A text between three quotes; one of several lines starts on a line of its own. -/
def fenced (quote : Char) (text written : List Char) : List Char :=
  List.replicate 3 quote ++ (if text.contains '\n' then ['\n'] else []) ++ written ++
    List.replicate 3 quote

/-- A text as a value. -/
def quoted (text : List Char) : List Char :=
  let control := text.any isControl
  let broken := text.contains '\n'
  let backslash := text.contains '\\'
  if !control && !backslash && !broken && !text.contains '"' then basic text
  else if !control && !broken && !text.contains '\'' then literal text
  else if !control && !backslash && longestRun '"' text ≤ 2 then
    fenced '"' text (escaped true 0 text)
  else if !control && longestRun '\'' text ≤ 2 then fenced '\'' text text
  else if broken then fenced '"' text (escaped true 0 text)
  else basic text

/-- A text as a key. -/
def key (text : String) : List Char :=
  let text := text.toList
  let control := text.any fun c => isControl c || c = '\n'
  if !text.isEmpty && text.all Reader.isBare then text
  else if !control && !text.contains '\\' && !text.contains '"' then basic text
  else if !control && !text.contains '\'' then literal text
  else basic text

/-! ## Documents -/

/-- Whether a value has lines of its own under a header. -/
def hasHeader : Value → Bool
  | .table .. => true
  | .array true _ => true
  | _ => false

/-- A simple value. -/
def scalar : Value → List Char
  | .string s => quoted s.toList
  | .integer n => (toString n).toList
  | .float x => x.text.toList
  | .boolean b => (if b then "true" else "false").toList
  | .datetime text => text.toList
  | .array .. => ['[', ']']
  | .table .. => ['\x7b', '\x7d']

/-- The lines of the simple values of a table. -/
def valueLines (items : Items) : List (List Char) :=
  (items.filter fun e => !hasHeader e.2).map fun (name, v) => key name ++ " = ".toList ++ scalar v

/-- A path in a header line. -/
def dottedKey (path : List String) : List Char := List.intercalate ['.'] (path.map key)

mutual

/-- The blocks of lines under the headers of a table, each with its header. -/
def blocks (path : List String) : Items → List (List (List Char))
  | [] => []
  | (name, v) :: rest =>
    (match v with
      | .table _ sub =>
        let path := path ++ [name]
        let own := valueLines sub
        (if own.isEmpty ∧ !sub.isEmpty then []
          else [('[' :: dottedKey path ++ [']']) :: own]) ++ blocks path sub
      | .array true rows => rowBlocks (path ++ [name]) rows
      | _ => []) ++ blocks path rest

/-- The blocks of the rows of an array, each under a header of its own. -/
def rowBlocks (path : List String) : List Value → List (List (List Char))
  | [] => []
  | .table _ sub :: rest =>
    ((['[', '['] ++ dottedKey path ++ [']', ']']) :: valueLines sub) ::
      (blocks path sub ++ rowBlocks path rest)
  | _ :: rest => rowBlocks path rest

end

/-- The text of a document: blocks of lines with a blank line between them. -/
def document (items : Items) : String :=
  let own := valueLines items
  let all := (if own.isEmpty then [] else [own]) ++ blocks [] items
  String.ofList (List.intercalate ['\n'] (all.map fun lines => lines.flatMap (· ++ ['\n'])))

end ShardMesh.Toml.Writer
