import ShardMesh.Decimal.Shortest

/-!
# The values of a TOML document

A document is a table of keys and values. How a table came to be decides what may still be added
to it: a table written in braces is complete, one that has its own header line accepts no dotted
keys from elsewhere, and one that exists only because something below it was written may still get
its header.
-/

namespace ShardMesh.Toml

/-- A floating-point number. -/
inductive Number where
  | finite (negative : Bool) (magnitude : Binary64)
  | infinite (negative : Bool)
  | undefined
  deriving DecidableEq, Repr, Inhabited

/-- The number in words. -/
def Number.text : Number → String
  | .finite negative magnitude => (if negative then "-" else "") ++ Decimal.text magnitude
  | .infinite negative => if negative then "-inf" else "inf"
  | .undefined => "NaN"

/-- How a table came to be. -/
inductive Origin where
  /-- Written in braces. -/
  | inline
  /-- It has a header line of its own. -/
  | header
  /-- A header line below it was written. -/
  | implied
  /-- A dotted key below it was written. -/
  | dotted
  deriving DecidableEq, Repr, Inhabited

/-- A value of a document. -/
inductive Value where
  | string (text : String)
  | integer (n : Int)
  | float (x : Number)
  | boolean (b : Bool)
  /-- A date, a time or both, in normal form. -/
  | datetime (text : String)
  /-- Values in brackets, or tables with a header line each. -/
  | array (fromHeaders : Bool) (items : List Value)
  | table (origin : Origin) (items : List (String × Value))
  deriving Inhabited

/-- The keys and values of a table in the order of the document. -/
abbrev Items := List (String × Value)

namespace Items

/-- The value of a key. -/
def get? (items : Items) (key : String) : Option Value :=
  (items.find? (·.1 = key)).map Prod.snd

/-- Gives a key another value, in its place. -/
def replace (items : Items) (key : String) (v : Value) : Items :=
  items.map fun e => if e.1 = key then (key, v) else e

/-- Removes a key. -/
def erase (items : Items) (key : String) : Items := items.filter fun e => e.1 ≠ key

/-- Changes the table at the end of a path of keys. A missing table is made on the way; whatever
else is not open for changes ends the attempt. A path of dotted keys may not pass through a table
that has its own header; a path of header lines may, and enters the last table of an array. -/
def update (viaDots : Bool) (change : Origin → Items → Option Items) :
    (path : List String) → Origin → Items → Option Items
  | [], origin, items => change origin items
  | key :: path, _, items =>
    match get? items key with
    | none => do
      let origin := if viaDots then .dotted else .implied
      let sub ← update viaDots change path origin []
      return items ++ [(key, .table origin sub)]
    | some (.table origin sub) =>
      if origin = .inline ∨ (viaDots ∧ origin = .header) then none
      else do
        let sub ← update viaDots change path origin sub
        return replace items key (.table origin sub)
    | some (.array true rows) =>
      match rows.reverse with
      | .table origin sub :: before => do
        let sub ← update viaDots change path origin sub
        return replace items key (.array true (before.reverse ++ [.table origin sub]))
      | _ => none
    | some _ => none

/-- Adds a key that is not there yet. Keys that are written with dots and such that are not may
not meet in one table. -/
def insertNew (plain : Bool) (key : String) (v : Value) (origin : Origin) (items : Items) :
    Option Items :=
  if (origin = .dotted) = plain ∨ (get? items key).isSome then none
  else some (items ++ [(key, v)])

/-- Adds a value under a dotted key, seen from the table at the end of a header path. -/
def insertAt (section_ path : List String) (key : String) (v : Value) (items : Items) :
    Option Items :=
  update false (fun origin items =>
    update true (insertNew path.isEmpty key v) path origin items) section_ .header items

/-- Opens the table of a header line: it may be there already if only something below it was
written, and moves to the end then. -/
def openTable (path : List String) (key : String) (items : Items) : Option Items :=
  update false (fun _ items =>
    match get? items key with
    | none => some (items ++ [(key, .table .header [])])
    | some (.table .implied sub) => some (erase items key ++ [(key, .table .header sub)])
    | some _ => none) path .header items

/-- Opens another table of the array that a header line names. -/
def openRow (path : List String) (key : String) (items : Items) : Option Items :=
  update false (fun _ items =>
    match get? items key with
    | none => some (items ++ [(key, .array true [.table .header []])])
    | some (.array true rows) =>
      some (replace items key (.array true (rows ++ [.table .header []])))
    | some _ => none) path .header items

end Items
end ShardMesh.Toml
