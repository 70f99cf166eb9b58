import TokenForge.Text.Quoted
import TokenForge.Text.Utf8

/-!
# File trees

The files below a working directory, each under the list of names that leads to
it.  A directory is there if it is listed or if something lies below it.

`FileTree.locate` follows a path as a file system does: every name on the way has
to be a directory, `.` stays and `..` goes up.  Nothing is known of what lies
outside the working directory but that the directories above it are there.  A
path is refused as a whole if it is too long, and a name that is too long where
it is looked up.
`read` and `write` open a file, or say why they cannot; `write` changes the tree
at the place of the path and nowhere else.
-/

namespace TokenForge

/-- What lies at a place of a file tree. -/
inductive Entry where
  | file (bytes : Bytes)
  | directory
  deriving DecidableEq, Repr

/-- The names that lead to a place below the working directory. -/
abbrev Place := List Text

/-- The files and directories below a working directory. -/
structure FileTree where
  /-- The entries and their places.  No place stands twice. -/
  entries : List (Place × Entry)
  deriving Repr

/-- Why a file cannot be opened. -/
inductive OpenFault where
  | noSuchFile
  /-- A file stands where a directory is needed. -/
  | notDirectory
  | isDirectory
  | nullCharacter
  | nameTooLong
  deriving DecidableEq, Repr

namespace FileTree

/-- The tree without files. -/
def empty : FileTree := ⟨[]⟩

/-- What lies at a place. -/
def entryAt (t : FileTree) (place : Place) : Option Entry :=
  match place with
  | [] => some .directory
  | place =>
    match t.entries.find? fun e => e.1 == place with
    | some e => some e.2
    | none => if t.entries.any fun e => place.isPrefixOf e.1 then some .directory else none

/-- The tree with an entry at a place. -/
def put (t : FileTree) (place : Place) (entry : Entry) : FileTree :=
  if t.entries.any fun e => e.1 == place then
    ⟨t.entries.map fun e => if e.1 == place then (place, entry) else e⟩
  else ⟨t.entries ++ [(place, entry)]⟩

/-! ## Following paths -/

/-- Where a path leads. -/
inductive Location where
  | file (place : Place) (bytes : Bytes)
  | directory
  /-- To no entry of a directory. -/
  | absent (place : Place)
  deriving DecidableEq, Repr

/-- The number of bytes that a name may have. -/
def nameLimit : Nat := 255

/-- The number of bytes that a path may have. -/
def pathLimit : Nat := 4095

/-- Whether a text has more bytes than a limit. -/
def exceeds (limit : Nat) (s : Text) : Bool := limit < (Utf8.encode s).length

/-- Follows names from a directory, given with its last name first, or from outside the tree. -/
def follow (t : FileTree) : Option Place → List Text → Except OpenFault Location
  | _, [] => .ok .directory
  | current, name :: names =>
    if name = ['.'] then follow t current names
    else
      match current with
      | none =>
        if name = ['.', '.'] then follow t none names
        else .error (if exceeds nameLimit name then .nameTooLong else .noSuchFile)
      | some above =>
        if name = ['.', '.'] then
          match above with
          | [] => follow t none names
          | _ :: above => follow t (some above) names
        else if exceeds nameLimit name then .error .nameTooLong
        else
          let place := (name :: above).reverse
          match t.entryAt place with
          | some .directory => follow t (some (name :: above)) names
          | some (.file bytes) =>
            if names = [] then .ok (.file place bytes) else .error .notDirectory
          | none => if names = [] then .ok (.absent place) else .error .noSuchFile

/-- The names of a path. -/
def namesOf (path : Text) : List Text := (Text.splitOn '/' path).filter (· ≠ [])

/-- Whether a path ends with a slash, which asks for a directory. -/
def asksForDirectory (path : Text) : Bool := path.getLast? == some '/'

/-- The directory from which a path is followed; none, if it lies outside. -/
def startOf (path : Text) : Option Place := if path.head? = some '/' then none else some []

/-- Why a path is not followed at all, if it is not. -/
def refusal? (path : Text) : Option OpenFault :=
  if path = [] then some .noSuchFile
  else if '\x00' ∈ path then some .nullCharacter
  else if exceeds pathLimit path then some .nameTooLong
  else none

/-- Follows a path from the working directory. -/
def locate (t : FileTree) (path : Text) : Except OpenFault Location :=
  match refusal? path with
  | some fault => .error fault
  | none =>
    t.follow (startOf path) (namesOf path ++ if asksForDirectory path then [['.']] else [])

/-! ## Files -/

/-- The bytes of the file that a path leads to. -/
def read (t : FileTree) (path : Text) : Except OpenFault Bytes :=
  match t.locate path with
  | .ok (.file _ bytes) => .ok bytes
  | .ok .directory => .error .isDirectory
  | .ok (.absent _) => .error .noSuchFile
  | .error fault => .error fault

/-- Whether a path leads to a file. -/
def isFile (t : FileTree) (path : Text) : Bool := (t.read path).toOption.isSome

/-- The place at which a path can be written.  Of a path that ends with a slash only the
directory is followed: such a path names a directory, whatever lies there. -/
def placeToWrite (t : FileTree) (path : Text) : Except OpenFault Place := do
  if let some fault := refusal? path then throw fault
  if asksForDirectory path then
    let _ ← t.follow (startOf path) ((namesOf path).dropLast ++ [['.']])
    throw .isDirectory
  match ← t.follow (startOf path) (namesOf path) with
  | .file place _ | .absent place => return place
  | .directory => throw .isDirectory

/-- Puts a text in the place of the file that a path leads to, or into a new file. -/
def write (t : FileTree) (path text : Text) : Except OpenFault FileTree :=
  (t.placeToWrite path).map fun place => t.put place (.file (Utf8.encode text))

/-- A text with every line ending, `\r\n` and `\r`, as a line feed. -/
def unifyLines : Text → Text
  | [] => []
  | '\r' :: '\n' :: s => '\n' :: unifyLines s
  | c :: s => (if c = '\r' then '\n' else c) :: unifyLines s

/-- Bytes as a text with unified line endings. -/
def decodeLines (bytes : Bytes) : Except Utf8.Fault Text := (Utf8.decode bytes).map unifyLines

end FileTree

/-- Why a file cannot be opened, in words. -/
def OpenFault.message (path : Text) : OpenFault → Text
  | .noSuchFile => "[Errno 2] No such file or directory: " ++ path.quoted
  | .notDirectory => "[Errno 20] Not a directory: " ++ path.quoted
  | .isDirectory => "[Errno 21] Is a directory: " ++ path.quoted
  | .nullCharacter => "embedded null byte"
  | .nameTooLong => "[Errno 36] File name too long: " ++ path.quoted

end TokenForge
