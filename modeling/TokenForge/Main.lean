import TokenForge.CommandLine.Run
import TokenForge.CommandLine.Usage

/-!
# The program

Reads the files that a command line may need, runs it, and writes what it leaves
behind.  The files are those below the working directory that the arguments name
or whose names end in `.sol`.  There are no compilers at hand.
-/

namespace TokenForge

namespace CommandLine

/-- Whether a command line may need the file at a place. -/
def mayNeed (line : List Text) (place : Place) : Bool :=
  let path := List.intercalate ['/'] place
  Text.endsWith ".sol" path || line.any fun argument => Path.normalize argument == path

/-- The files of a directory, at most `depth` directories deep. -/
def filesOf (line : List Text) :
    Nat → Place → List IO.FS.DirEntry → IO (List (Place × Entry))
  | _, _, [] => return []
  | 0, _, _ => return []
  | depth + 1, place, entries => do
    let found ← entries.mapM fun entry => do
      let place := place ++ [entry.fileName.toList]
      if ← entry.path.isDir then
        let below ← filesOf line depth place (← entry.path.readDir).toList
        return (place, Entry.directory) :: below
      if mayNeed line place then
        return [(place, .file (← IO.FS.readBinFile entry.path).toList)]
      return []
    return found.flatten

/-- The files below the working directory that a command line may need. -/
def filesHere (line : List Text) : IO FileTree := do
  let here ← IO.FS.realPath "."
  return ⟨← filesOf line 64 [] (← here.readDir).toList⟩

/-- Writes the files in which a tree differs from another. -/
def writeFiles (before after : FileTree) : IO PUnit :=
  after.entries.forM fun (place, entry) =>
    match entry with
    | .file bytes =>
      if before.entryAt place == some entry then pure ⟨⟩
      else
        IO.FS.writeBinFile (Text.toString (List.intercalate ['/'] place)) ⟨bytes.toArray⟩
    | .directory => pure ⟨⟩

/-- Shows what a run leaves behind. -/
def present (before : FileTree) (report : Report) : IO UInt32 := do
  writeFiles before report.tree
  match report.ending with
  | .wrongUse => IO.eprint usage.toString
  | .help | .noCommand => IO.print usage.toString
  | .escaped _ => IO.eprintln "the configuration or a source cannot be read"
  | .done | .failed _ => IO.print report.stdout.toString
  IO.eprint (Text.toString (report.log.flatMap LogLine.render))
  return UInt32.ofNat (report.ending.code?.getD 1)

/-- Runs a command line on the files of the working directory. -/
def runHere (line : List Text) : IO UInt32 := do
  let tree ← filesHere line
  present tree (run ⟨tree, Compile.Toolchain.none⟩ line)

end CommandLine

end TokenForge

/-- Runs the arguments of the program. -/
def main (arguments : List String) : IO UInt32 :=
  TokenForge.CommandLine.runHere (arguments.map String.toList)
