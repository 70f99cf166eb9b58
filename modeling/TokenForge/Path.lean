import TokenForge.Text.Basic

/-!
# Paths

Paths are texts with `/` between their components.  `Path.normalize` drops empty
components and `.` and lets `..` cancel the component before it; at the root of
an absolute path `..` has nothing to cancel and is dropped, at the start of a
relative path it stays.  Two slashes at the beginning stay two, three or more
become one.
-/

namespace TokenForge

namespace Path

/-- The component that stands for the directory itself. -/
def here : Text := ['.']

/-- The component that stands for the directory above. -/
def up : Text := ['.', '.']

/-- The slashes that a normalized path starts with. -/
def root (path : Text) : Text :=
  match path with
  | '/' :: '/' :: '/' :: _ => ['/']
  | '/' :: '/' :: _ => ['/', '/']
  | '/' :: _ => ['/']
  | _ => []

/-- Takes one more component after the components so far, of which the last one comes first. -/
def push (absolute : Bool) (above : List Text) (component : Text) : List Text :=
  if component = [] ∨ component = here then above
  else if component = up then
    match above with
    | [] => if absolute then [] else [up]
    | c :: cs => if c = up then up :: c :: cs else cs
  else component :: above

/-- A path without superfluous components. -/
def normalize (path : Text) : Text :=
  let slashes := root path
  let components := ((Text.splitOn '/' path).foldl (push !slashes.isEmpty) []).reverse
  match slashes ++ List.intercalate ['/'] components with
  | [] => here
  | path => path

/-- A path below a directory.  An absolute path stays as it is. -/
def join (directory path : Text) : Text :=
  if path.head? = some '/' then path
  else if directory = [] ∨ directory.getLast? = some '/' then directory ++ path
  else directory ++ ['/'] ++ path

/-- What stands before the last slash of a path. -/
def directory (path : Text) : Text :=
  let head := Text.stripEndWith (· != '/') path
  match Text.stripEndWith (· == '/') head with
  | [] => head
  | directory => directory

/-- What stands after the last slash of a path. -/
def fileName (path : Text) : Text := (path.reverse.takeWhile (· != '/')).reverse

end Path

end TokenForge
