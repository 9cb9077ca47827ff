import DelayInjection.CommandLine.Execution
import DelayInjection.JavaScript.Layout
import DelayInjection.Python.Layout
import DelayInjection.Text.Timestamp
import Std.Time.DateTime.Timestamp

/-! The program: reads the folders that a command names, runs the command on them, and writes back what it changed. -/

namespace DelayInjection.Program

open Disk (Node Path)

def registry : Registry :=
  ⟨[JavaScript.adapter, Python.adapter].map fun a => (a.id, a)⟩

def usage : String :=
  "usage: flakemonster [-h] [--version] \x7binject,restore,scan\x7d [--root ROOT] [globs ...]"

def surroundings : IO Surroundings := do
  let folder := Path.ofText (← IO.currentDir).toString
  let now ← Std.Time.Timestamp.now
  let microseconds := now.toNanosecondsSinceUnixEpoch.val.toNat / 1000
  let picked ← IO.rand 0 2147483647
  return ⟨registry, folder, Text.timestamp microseconds, picked⟩

/-- The folders whose files a command may read or write. -/
def foldersOf : Command → List String
  | .inject a => [a.root]
  | .restore a => [a.root, if a.folder.isEmpty then a.root else a.folder]
  | .scan a => [a.root]

/-- A folder with all that it holds. Links are passed over, and files that cannot be read. -/
partial def load (folder : String) : IO Node := do
  let mut entries := []
  for e in ← ((← IO.currentDir) / folder).readDir do
    let path := e.path.toString
    try
      match (← e.path.symlinkMetadata).type with
      | .dir => entries := (e.fileName, ← load path) :: entries
      | .file => entries := (e.fileName, .file (← IO.FS.readBinFile path).toList) :: entries
      | _ => pure ()
    catch _ => pure ()
  return .folder entries.reverse

def snapshot (folders : List Path) : IO Disk := do
  let mut root := Node.folder []
  for folder in folders do
    if (root.at? folder.names).isNone && (← ((← IO.currentDir) / folder.text).isDir) then
      root := Node.put (← load folder.text) folder.names root
  return { root := root }

def childText (folder name : String) : String := folder ++ "/" ++ name

/-- Writes what changed in a folder. -/
partial def store (folder : String) (before after : List (String × Node)) : IO Unit := do
  for (name, node) in before do
    if (after.lookup name).isNone then
      match node with
      | .file _ => IO.FS.removeFile (childText folder name)
      | .folder _ => IO.FS.removeDirAll (childText folder name)
  for (name, node) in after do
    match before.lookup name, node with
    | some (.file old), .file new =>
      if old ≠ new then IO.FS.writeBinFile (childText folder name) ⟨new.toArray⟩
    | _, .file new => IO.FS.writeBinFile (childText folder name) ⟨new.toArray⟩
    | some (.folder old), .folder new => store (childText folder name) old new
    | _, .folder new => do
      IO.FS.createDirAll (childText folder name)
      store (childText folder name) [] new

def storeAll (folders : List Path) (before after : Disk) : IO Unit := do
  for folder in folders.eraseDups do
    store folder.text (before.entriesAt folder) (after.entriesAt folder)

def commonLength : List Char → List Char → Nat
  | a :: s, b :: t => if a = b then commonLength s t + 1 else 0
  | _, _ => 0

def worldOf : EStateM.Result Failure World Nat → World
  | .ok _ w => w
  | .error _ w => w

/-- A command asks one question at most. What it prints with the answer yes and with none is the same
up to there; that much is shown before the answer is read. -/
def converse (command : Run Nat) (disk : Disk) : IO (EStateM.Result Failure World Nat) := do
  let start (typed : List Char) : World := { disk := disk, typed := typed }
  let silent := command (start [])
  let printed := (worldOf silent).printed
  let agreed := (worldOf (command (start ['y']))).printed
  let output ← IO.getStdout
  if printed = agreed then
    output.putStr (String.ofList printed)
    return silent
  let n := commonLength printed agreed
  output.putStr (String.ofList (printed.take n))
  output.flush
  let line ← (← IO.getStdin).getLine
  let result := command (start line.toList)
  output.putStr (String.ofList ((worldOf result).printed.drop n))
  return result

def runCommand (command : Command) : IO UInt32 := do
  let s ← surroundings
  let folders := (foldersOf command).map fun f => (s.folder.join (Path.ofText f)).resolved
  let before ← snapshot folders
  let result ← converse (s.run command) before
  let w := worldOf result
  storeAll folders before w.disk
  IO.eprint (String.ofList w.warned)
  match result with
  | .ok status _ => return UInt32.ofNat status
  | .error failure _ =>
    IO.eprintln ("Error: " ++ failure.message.getD "unusable value")
    return 1

end DelayInjection.Program

open DelayInjection in
def main (arguments : List String) : IO UInt32 := do
  match Command.ofArguments arguments with
  | .run command => Program.runCommand command
  | .version =>
    IO.println (Command.programName ++ " " ++ Command.programVersion)
    return 0
  | .help =>
    IO.println Program.usage
    return 0
  | .refused message =>
    IO.eprintln message
    return 2
