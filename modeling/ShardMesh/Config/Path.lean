/-!
# Paths of files

A path is a row of names between slashes. All names but the last have to be directories, and the
last one names the file. Whether a path is a directory is known from outside; a path of nothing but
slashes and dots always is one.
-/

namespace ShardMesh

/-- Why a file cannot be used. -/
inductive FileFault where
  /-- There is no such file, or no directory for it. -/
  | missing
  /-- It is a directory. -/
  | directory
  /-- Its bytes are no text. -/
  | notText
  /-- The path or a name in it is too long. -/
  | tooLong
  /-- The path holds the character that ends a path. -/
  | brokenName
  deriving DecidableEq, Repr, Inhabited

/-- The fault in words. -/
def FileFault.text : FileFault → String
  | .missing => "No such file or directory (os error 2)"
  | .directory => "Is a directory (os error 21)"
  | .notText => "stream did not contain valid UTF-8"
  | .tooLong => "File name too long (os error 36)"
  | .brokenName => "file name contained an unexpected NUL byte"

/-- The most bytes of a path. -/
def maxPath : Nat := 4095

/-- The most bytes of a name in a path. -/
def maxName : Nat := 255

/-- The names of a path. -/
def namesOf (path : String) : List String := (path.splitOn "/").filter (· ≠ "")

/-- Whether a name stands for a directory by itself: this one, or the one above. -/
def isDots (name : String) : Bool := name = "." || name = ".."

/-- Whether a path is a directory in every tree: it is nothing but slashes and dots. -/
def isPlainDirectory (path : String) : Bool :=
  !path.isEmpty && path.utf8ByteSize ≤ maxPath && (namesOf path).all isDots

/-- The directory that a path names its last part in; none if the path has no last part or no
directory before it. Empty parts and dots at the end do not count. -/
def directoryOf? (path : String) : Option String :=
  -- the path from its end, without slashes and lone dots there
  let rec trim : (fuel : Nat) → List Char → List Char
    | 0, path => path
    | fuel + 1, path =>
      match path with
      | '/' :: rest => trim fuel rest
      | ['.'] => ['.']
      | '.' :: '/' :: rest => trim fuel ('/' :: rest)
      | path => path
  let absolute := path.toList.head? = some '/'
  let trimmed := trim path.length path.toList.reverse
  let before := trimmed.dropWhile (· ≠ '/')
  if trimmed.isEmpty then none
  else
    let directory := (trim path.length before).reverse
    if directory.isEmpty then (if absolute then some "/" else none)
    else some (String.ofList directory)

/-! ## Opening a file -/

/-- Why no file can be opened at the end of a row of names, of which those before lead to a
directory. A slash at the end asks for a directory. -/
def openFaultAt? (isDirectory : String → Bool) (slashed : Bool) : (reached : String) →
    List String → Option FileFault
  | _, [] => some .directory
  | reached, [name] =>
    if isDots name || slashed then some .directory
    else if maxName < name.utf8ByteSize then some .tooLong
    else if isDirectory (reached ++ name) then some .directory
    else none
  | reached, name :: rest =>
    if maxName < name.utf8ByteSize then some .tooLong
    else
      let reached := reached ++ name ++ "/"
      if isDirectory reached then openFaultAt? isDirectory slashed reached rest
      else some .missing

/-- Why no file can be opened at a path, or made there, given which paths are directories. -/
def openFault? (isDirectory : String → Bool) (path : String) : Option FileFault :=
  if path.toList.contains '\x00' then some .brokenName
  else if path.isEmpty then some .missing
  else if maxPath < path.utf8ByteSize then some .tooLong
  else
    openFaultAt? isDirectory (path.endsWith "/") (if path.startsWith "/" then "/" else "")
      (namesOf path)

end ShardMesh
