/-
The program.

The files that a command line names are copied into a `Disk`, the command is run on
that, and what it wrote is copied back.  No compiler can be started from here, so
a run of one ends as if it had not been found, unless it could not be carried out anyway.
-/
import IncludeTrace.Browser.Session
import IncludeTrace.CommandLine.Report

namespace IncludeTrace.Program

/-- The disk with everything on the way to a path, as far as it exists. -/
def copyIn (disk : Disk) (path : Location) : IO Disk := do
  let folder ← IO.currentDir
  let start := if path.anchor = "" then disk.here else []
  let mut disk := disk
  for length in List.range (path.segments.length + 1) do
    let part : Location := { path with segments := path.segments.take length }
    let place := Segments.resolve true (start ++ part.segments)
    let file := folder / part.text
    if ← file.isDir then
      disk := disk.withDirectory place
    else if ← file.pathExists then
      disk := disk.withFile place (← IO.FS.readBinFile file).toList
  return disk

/-- Writes the file that a path names, if a command gave it other bytes. -/
def copyOut (before after : Disk) (path : Location) : IO Unit := do
  match after.read path with
  | .ok bytes =>
    if (before.read path).toOption ≠ some bytes then
      IO.FS.writeBinFile ((← IO.currentDir) / path.text) ⟨bytes.toArray⟩
  | .error _ => return ()

/-- Everything on the input channel. -/
partial def readInput (input : IO.FS.Stream) (start : ByteArray) : IO ByteArray := do
  let more ← input.read 65536
  if more.isEmpty then return start else readInput input (start ++ more)

/-- The bytes of an input as a text, if they are one. -/
def inputOf (bytes : List UInt8) : Input :=
  let text := Text.Utf8.decode bytes
  if Text.Utf8.encode text = bytes then .text (String.ofList text)
  else .undecodable "the input is not in UTF-8"

/-- The disk that a command line can see. -/
def diskFor (folder home : String) (files : List Location) : IO Disk := do
  let here := (Location.posix folder).segments
  files.foldlM copyIn (Disk.blank here [("", home)])

/-- Prints the label and the rows of a tree that is to be browsed. -/
def printRows (disk : Disk) (b : Browsing) : IO Unit := do
  let start : Browser.Session := { title := b.title, disk := disk }
  let session := start.after [.refresh, .complete (.succeeded b.tree), .openAll]
  IO.println (Markup.firstLine .absent (session.fileLabel.getD ""))
  for (depth, row) in session.rows.preorder do
    IO.println (String.ofList (List.replicate (2 * depth + 2) ' ') ++ row.item.label)

end IncludeTrace.Program

open IncludeTrace IncludeTrace.Program in
/-- Runs a command line and gives the exit code. -/
def main (args : List String) : IO UInt32 := do
  let (files, readsInput) :=
    match readCommandLine args with
    | .ok (_, x) => (x.files, x.trace == some "-")
    | .error _ => ([], false)
  let folder := (← IO.currentDir).toString
  let disk ← diskFor folder ((← IO.getEnv "HOME").getD "/") files
  let input ← if readsInput then readInput (← IO.getStdin) ByteArray.empty else pure ByteArray.empty
  let surroundings : Surroundings :=
    { folder := folder
      searchPath := (← IO.getEnv "INCLUDE").getD ""
      disk := disk
      input := inputOf input.toList
      compiler := fun run => run.launched .notFound }
  let report := respond surroundings args
  files.forM (copyOut disk report.disk)
  IO.print report.output
  IO.eprint report.errors
  match report.browsing with
  | some b => printRows report.disk b
  | none => pure ()
  match report.outcome with
  | .finished code | .stopped code => return code.toUInt32
  | .broken fault =>
    IO.eprintln fault.message
    return 1
