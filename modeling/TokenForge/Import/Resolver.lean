import TokenForge.Assoc
import TokenForge.FileTree
import TokenForge.Path

/-!
# Finding imported files

A resolver knows packages, each a prefix of import paths with the directory that
holds its files, and directories to search.  The `candidates` for a path under a
package prefix are the one file of the package; for any other path they are the
path itself and the path below each search directory, in order.

`look` opens the first candidate that is a file.  When that file is not UTF-8 the
search ends there.
-/

namespace TokenForge

namespace Import

/-- Where imported files are looked for. -/
structure Resolver where
  /-- The package prefixes and their directories. -/
  packages : Assoc Text
  /-- The directories to search. -/
  directories : List Text
  deriving Repr

/-- The prefix of the shared contract library. -/
def libraryPrefix : Text := "@openzeppelin/contracts"

/-- The directory in which the shared contract library is installed. -/
def libraryDirectory : Text := "./node_modules/@openzeppelin/contracts"

namespace Resolver

/-- A resolver for packages and search directories.  Slashes at the end of a search directory
are dropped. -/
def ofPaths (packages : Assoc Text) (directories : List Text) : Resolver :=
  ⟨packages, directories.map (Text.stripEndWith (· == '/'))⟩

/-- The packages that are known without being named: the shared contract library. -/
def defaultPackages : Assoc Text := [(libraryPrefix, libraryDirectory)]

/-- The file of a package that a path under its prefix names. -/
def inPackage? (packages : Assoc Text) (path : Text) : Option Text :=
  packages.findSome? fun (start, directory) =>
    (Text.after? start path).map fun rest => Path.join directory (rest.dropWhile (· == '/'))

/-- The files that a path may mean, in the order in which they are tried. -/
def candidates (r : Resolver) (path : Text) : List Text :=
  match inPackage? r.packages path with
  | some file => [file]
  | none => path :: r.directories.map fun directory => Path.join directory path

/-- What a search for a file finds. -/
inductive Finding where
  | text (content : Text)
  /-- A file that is not UTF-8. -/
  | unreadable (file : Text) (fault : Utf8.Fault)
  | nothing
  deriving DecidableEq, Repr

/-- The text found, if there is one. -/
def Finding.text? : Finding → Option Text
  | .text content => some content
  | _ => none

/-- Looks for the file that a path means. -/
def look (r : Resolver) (tree : FileTree) (path : Text) : Finding :=
  match (r.candidates path).findSome? fun file => ((tree.read file).toOption.map (file, ·)) with
  | none => .nothing
  | some (file, bytes) =>
    match FileTree.decodeLines bytes with
    | .ok content => .text content
    | .error fault => .unreadable file fault

end Resolver

end Import

end TokenForge
