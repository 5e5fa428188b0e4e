/-!
# The names of servers

A peer is known by a domain name or by an address. A domain name is made of labels of letters,
digits, hyphens and underscores; a label neither begins nor ends with a hyphen, and the last label
is not a number. One dot may stand at the end.
-/

namespace ShardMesh.Tls

/-- What a server name can be. -/
inductive ServerName where
  | domain
  | address
  deriving DecidableEq, Repr, Inhabited

namespace ServerName

/-- The longest label. -/
def maxLabel : Nat := 63

/-- The longest name, in bytes. -/
def maxName : Nat := 253

/-- Whether a character may occur in a label. -/
def isLabelChar (c : Char) : Bool := c.isAlphanum || c = '-' || c = '_'

/-- Whether a text is a label. -/
def isLabel (label : List Char) : Bool :=
  !label.isEmpty && label.length ≤ maxLabel && label.all isLabelChar &&
    label.head? ≠ some '-' && label.getLast? ≠ some '-'

/-- Whether labels make up a name. -/
def areLabels (labels : List (List Char)) : Bool :=
  !labels.isEmpty && labels.all isLabel && !(labels.getLast?.getD []).all Char.isDigit

/-- The parts of a text between the occurrences of a separator. -/
def partsBetween (separator : Char) : List Char → List (List Char)
  | [] => [[]]
  | c :: rest =>
    if c = separator then [] :: partsBetween separator rest
    else
      match partsBetween separator rest with
      | [] => [[c]]
      | part :: more => (c :: part) :: more

/-- Whether a text is a domain name. -/
def isDomain (name : List Char) : Bool :=
  let labels := partsBetween '.' name
  name.length ≤ maxName &&
    areLabels (if labels.getLast? = some [] then labels.dropLast else labels)

/-! ## Addresses -/

/-- Whether a text is a number from 0 to 255 without leading zeros. -/
def isOctet (digits : List Char) : Bool :=
  !digits.isEmpty && digits.length ≤ 3 && digits.all Char.isDigit &&
    (digits.length = 1 || digits.head? ≠ some '0') &&
    digits.foldl (fun n c => 10 * n + (c.toNat - '0'.toNat)) 0 ≤ 255

/-- Whether a text is an address of four numbers. -/
def isAddress4 (text : List Char) : Bool :=
  let parts := partsBetween '.' text
  parts.length = 4 && parts.all isOctet

/-- Whether a text is a group of an address of eight groups. -/
def isGroup (text : List Char) : Bool :=
  !text.isEmpty && text.length ≤ 4 &&
    text.all fun c => c.isDigit || ('a' ≤ c && c ≤ 'f') || ('A' ≤ c && c ≤ 'F')

/-- How many groups a row of parts makes. Four numbers can stand for the last two groups. -/
def groupCount? : List (List Char) → Option Nat
  | [] => some 0
  | [part] => if isGroup part then some 1 else if isAddress4 part then some 2 else none
  | part :: rest => if isGroup part then (groupCount? rest).map (· + 1) else none

/-- How many groups a row of parts makes of which none is an address of four numbers. -/
def plainCount? (parts : List (List Char)) : Option Nat :=
  if parts.all isGroup then some parts.length else none

/-- The text before and after the first two colons in a row. -/
def aroundGap? : List Char → Option (List Char × List Char)
  | ':' :: ':' :: rest => some ([], rest)
  | c :: rest => (aroundGap? rest).map fun (before, after) => (c :: before, after)
  | [] => none

/-- The groups of a text that may be empty. -/
def groups (text : List Char) : List (List Char) :=
  if text.isEmpty then [] else partsBetween ':' text

/-- Whether a text is an address of eight groups, of which a run of zeros can be left out once. -/
def isAddress6 (text : List Char) : Bool :=
  match aroundGap? text with
  | none => groupCount? (groups text) = some 8
  | some (before, after) =>
    match plainCount? (groups before), groupCount? (groups after) with
    | some a, some b => a + b ≤ 7
    | _, _ => false

/-- What a text is the name of, if it is a server name. -/
def ofText? (text : String) : Option ServerName :=
  let chars := text.toList
  if isDomain chars then some .domain
  else if isAddress4 chars || isAddress6 chars then some .address
  else none

end ServerName
end ShardMesh.Tls
