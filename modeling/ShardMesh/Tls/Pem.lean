import ShardMesh.Text.Base64

/-!
# Armoured text

Certificates and keys are kept in text files as sections of Base64 between a line that says what
begins and a line that says that it ends. Whatever stands outside sections is skipped. A line ends
at a line feed or at a carriage return, and blanks at its end do not count.

A beginning inside a section replaces the label of the section and keeps what was collected.
-/

namespace ShardMesh.Tls.Pem

/-- What a section holds, as far as that is of interest. -/
inductive Label where
  | certificate
  | privateKey
  /-- Something else that stands by itself: other forms of keys, and lists of what was revoked. -/
  | other
  deriving DecidableEq, Repr, Inhabited

/-- The label of a section whose kind is known. -/
def Label.ofText? (text : Bytes) : Option Label :=
  if text = Bytes.ofText "CERTIFICATE" then some .certificate
  else if text = Bytes.ofText "PRIVATE KEY" then some .privateKey
  else if text ∈ ["RSA PRIVATE KEY", "EC PRIVATE KEY", "X509 CRL"].map Bytes.ofText then some .other
  else none

/-- A section with its contents. -/
structure Section where
  label : Label
  contents : Bytes
  deriving DecidableEq, Repr, Inhabited

/-! ## Lines -/

/-- Whether a byte ends a line. -/
def isLineEnd (b : UInt8) : Bool := b = 10 || b = 13

/-- Whether a byte does not count at the end of a line. -/
def isBlank (b : UInt8) : Bool := isLineEnd b || b = 32

/-- The lines of a file, without what ends them. What follows the last line end is a line, too. -/
def lines : Bytes → List Bytes
  | [] => [[]]
  | b :: rest =>
    if isLineEnd b then [] :: lines rest
    else
      match lines rest with
      | [] => [[b]]
      | line :: more => (b :: line) :: more

/-- A line without the blanks at its end. -/
def trimmed (line : Bytes) : Bytes := (line.reverse.dropWhile isBlank).reverse

/-- What comes after a beginning, if a line has it. -/
def after? (start line : Bytes) : Option Bytes :=
  if start.isPrefixOf line then some (line.drop start.length) else none

/-- The number of dashes at the end of reversed bytes, blanks aside, and the bytes before them. -/
def dashes : Bytes → Nat × Bytes
  | [] => (0, [])
  | b :: rest =>
    if b = 45 then
      let (n, before) := dashes rest
      (n + 1, if n = 0 then rest else before)
    else if isBlank b then
      match dashes rest with
      | (0, _) => (0, b :: rest)
      | found => found
    else (0, b :: rest)

/-- The label text of a line that begins a section: five dashes have to follow it. -/
def labelText? (rest : Bytes) : Option Bytes :=
  match dashes rest.reverse with
  | (5, before) => some before.reverse
  | _ => none

/-! ## Contents -/

/-- A byte of the body as a character of the alphabet without padding. -/
def symbol? (b : UInt8) : Option Char :=
  match Char.ofNat b.toNat with
  | '+' => some '-'
  | '/' => some '_'
  | '-' | '_' => none
  | c => if (Text.Base64.value? c).isSome then some c else none

/-- The bytes that a body stands for. Padding at the end may be left out, but there is never more of
it than fills the last group. -/
def decode? (body : Bytes) : Option Bytes := do
  let data := body.takeWhile (· ≠ 61)
  let padding := body.drop data.length
  if padding.all (· = 61) && (padding.isEmpty || 2 ≤ data.length % 4 && body.length % 4 ≠ 1
      && padding.length ≤ 2) then
    Text.Base64.decode? (← data.mapM symbol?)
  else none

/-! ## Sections -/

/-- The line that begins a section, up to the label. -/
def beginning : Bytes := Bytes.ofText "-----BEGIN "

/-- The line that ends a section of a label. -/
def ending (label : Bytes) : Bytes := Bytes.ofText "-----END " ++ label ++ Bytes.ofText "-----"

/-- Reads lines, in a section with a label text and a collected body or outside of any. -/
def readLines : List Bytes → Option (Bytes × Bytes) → Option (List Section)
  | [], none => some []
  | [], some _ => none
  | line :: rest, state =>
    match after? beginning line, state with
    | some begun, _ => do
      let label ← labelText? begun
      readLines rest (some (label, (state.map Prod.snd).getD []))
    | none, none => readLines rest none
    | none, some (label, body) =>
      if (ending label).isPrefixOf line then do
        let contents ← decode? body
        let sections ← readLines rest none
        return ((Label.ofText? label).map fun label => ⟨label, contents⟩).toList ++ sections
      else readLines rest (some (label, body ++ trimmed line))

/-- All sections of a file, unless one of them is damaged. -/
def sections? (file : Bytes) : Option (List Section) := readLines (lines file) none

/-- The contents of all sections with a label. -/
def contentsOf (label : Label) (sections : List Section) : List Bytes :=
  (sections.filter (·.label = label)).map (·.contents)

end ShardMesh.Tls.Pem
