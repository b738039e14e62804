import CodeGraph.CommandLine.Run
import CodeGraph.Files.Snapshot
import CodeGraph.Json.Parser

/-!
# The program

The program reads a snapshot of a project from standard input, runs the command line on it, and
writes the files that the run makes into the directory in which it was started.
-/

open CodeGraph

/-- Runs the program. -/
def main (arguments : List String) : IO UInt32 := do
  let input ← (← IO.getStdin).readToEnd
  let here ← IO.currentDir
  let root := Path.ofText here.toString
  let home ← IO.getEnv "HOME"
  let tree :=
    { Snapshot.treeAt root ((Json.parse? input).getD (.object [])) with
      homes := (home.map fun home => ("", Path.ofText home)).toList }
  let now ← IO.monoMsNow
  let (_, result) := CommandLine.run tree arguments ⟨toString now, toString now⟩
  IO.print result.output
  for line in result.lines do
    IO.eprintln line
  for (place, content) in result.tree.top.files [] do
    let old := (tree.top.at? place).bind fun
      | .file content => some content.bytes
      | _ => none
    if old != some content.bytes then
      IO.FS.createDirAll (Path.absolute place.dropLast).text
      IO.FS.writeBinFile (Path.absolute place).text content.bytes
  return UInt32.ofNat result.exitCode
