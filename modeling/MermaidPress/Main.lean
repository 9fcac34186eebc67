/-
The program on a real machine. What it may look at is read from the disk beforehand, and
what it changed is written to the disk when it is done. Browsers cannot be started from
here, so a conversion that needs one ends with the failure of its launch.
-/
import MermaidPress.Backend.Absent
import MermaidPress.Backend.DevTools
import MermaidPress.CommandLine.Help
import MermaidPress.CommandLine.Program

namespace MermaidPress.Disk

/-- What is at a path on the disk. -/
def nodeAt (path : Path) : IO (Option FileSystem.Node) := do
  let place := (← IO.currentDir) / String.ofList path
  if ← place.isDir then return some .directory
  else if ← place.pathExists then
    try
      return some (.file (← IO.FS.readBinFile place))
    catch _ => return none
  else return none

/-- The files at paths, and the directories that they are in. -/
def snapshot (current : Path) (paths : List Path) : IO FileSystem := do
  let mut files : FileSystem := { current, nodes := [] }
  for path in paths do
    for place in (Path.ancestors (Path.absolute current path)).reverse do
      if let some node ← nodeAt place then
        files := files.put (FileSystem.nominal (Path.normalize place)) node
  return files

/-- Writes what differs between two states of the files. -/
def commit (before after : FileSystem) : IO Unit := do
  for (location, node) in after.nodes do
    if before.find? location ≠ some node then
      let place := String.ofList ('/' :: Path.joinWith '/' location)
      match node with
      | .directory => IO.FS.createDir place
      | .file bytes => IO.FS.writeBinFile place bytes

/-- The environment of the process. -/
def environment : IO Environment := do
  let bytes ← IO.FS.readBinFile "/proc/self/environ"
  let text := ((String.fromUTF8? bytes).getD "").toList
  return .ofEntries (text.splitOn '\x00')

end MermaidPress.Disk

open MermaidPress

/-- The text that every launch from here fails with. -/
def launchRefusal (fs : FileSystem) (browser : Option Path) : Text :=
  ((Chromium.Executable.ofPath fs (fun _ => false) browser).refusal?).getD []

/-- The paths that a conversion looks at or writes, other than images. -/
def pathsOf (current input : Path) (env : Environment) (a : CommandLine.Arguments)
    (job : Option CommandLine.Job) : List Path :=
  [input, Document.convertedPath input, Document.repairedPath input] ++
    a.config.toList ++ a.browser.toList ++ (env CommandLine.commonBrowserVariable).toList ++
    (Path.ancestors current).map (Path.join · Config.fileName) ++
    (job.map fun job => job.options.outputDirectory).toList

/-- Runs the program. The result is 0 for success, 1 for a failure and 2 for arguments that
make no conversion. -/
def main (arguments : List String) : IO UInt32 := do
  let env ← Disk.environment
  let current := (← IO.currentDir).toString.toList
  let isTerminal ← (← IO.getStdout).isTty
  match CommandLine.parse env (arguments.map String.toList) with
  | .error .helpWanted =>
    IO.print (String.ofList (CommandLine.helpText (CommandLine.colorsHelp env isTerminal) env))
    return 0
  | .error .versionWanted =>
    IO.print (String.ofList CommandLine.versionText)
    return 0
  | .error refusal =>
    IO.eprintln ("error: " ++ refusal.message)
    return 2
  | .ok (input, a) =>
    let first ← Disk.snapshot current (pathsOf current input env a none)
    let job := (CommandLine.prepare first env input a).toOption
    let files ← Disk.snapshot current (pathsOf current input env a job)
    let finish := CommandLine.run (b := Absent.backend) (launchRefusal files) files env input a
    Disk.commit files finish.files
    let isColored := CommandLine.colorsLines env isTerminal
    for line in finish.lines do
      IO.eprintln (String.ofList (line.render isColored))
    return if finish.failed then 1 else 0
