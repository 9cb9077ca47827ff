import DelayInjection.Config
import DelayInjection.Project.Discovery

/-! The ledger of a project on disk. -/

namespace DelayInjection

open Disk (Path)

namespace Ledger

def fileName : String := "manifest.json"

/-- The name under which the ledger is written before it takes the place of the one before. -/
def temporaryName : String := fileName ++ ".tmp.00000000"

def folder (root : Path) : Path := root.child stateFolder

/-- Writes the ledger beside the one before and moves it there. If the move fails, nothing of it
is left. -/
def save (root : Path) (m : Manifest) : Run Path := do
  let path := (folder root).child fileName
  let temporary := (folder root).child temporaryName
  Run.change (some "mkdir") (folder root) (·.makeFolder (folder root))
  let text := Text.Utf8.encode m.toJson.indented
  try
    Run.change none temporary (·.write temporary text)
    Run.change none path (·.move temporary path)
  catch failure =>
    Run.remove temporary
    throw failure
  return path

def ignoring (path : Path) (detail : String) : Run (Option Manifest) := do
  Run.warn ("[!] Warning: Ignoring malformed manifest " ++ path.text ++ detail)
  return none

/-- The text of a failure to read a value as a ledger. -/
def detail (failure : Failure) : String := ": " ++ failure.message.getD "<detail>"

/-- The ledger of a project, if there is one that can be read. -/
def load (now : String) (root : Path) : Run (Option Manifest) := do
  let path := (folder root).child fileName
  if !(← get).disk.isFile path then return none
  match ← Run.look (Run.textAt path) with
  | .error failure => throw failure
  | .ok text =>
    let text := Run.unifyNewlines text
    match Json.parse text with
    | .error (.number digits) => throw (.longNumber digits)
    | .error e =>
      Run.warn ("[!] Warning: Could not read manifest " ++ path.text ++ ": " ++ e.message text)
      return none
    | .ok (.obj members) =>
      match Manifest.ofJson now (.obj members) with
      | .ok m => return some m
      | .error failure => ignoring path (detail failure)
    | .ok _ => ignoring path ""

def delete (root : Path) : Run Unit := Run.remove ((folder root).child fileName)

end Ledger
end DelayInjection
