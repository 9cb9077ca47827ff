import DelayInjection.Config
import DelayInjection.Project.World

/-! The settings of a project, read from its folder. -/

namespace DelayInjection

open Disk (Path)

namespace Settings

def ignoring (why : String) : Run (Option (List (String × Json))) := do
  Run.warn ("[!] Warning: Ignoring " ++ why)
  return none

/-- The members of the object in a file. A file that is missing is passed over; one that holds
something else, or no JSON, is passed over with a warning. -/
def membersOf (path : Path) : Run (Option (List (String × Json))) := do
  match ← Run.look (Run.textAt path) with
  | .error (.disk e) =>
    if e.fault = .missing then return none
    else ignoring ("invalid config file " ++ path.text ++ ": " ++ e.message)
  | .error failure => throw failure
  | .ok text =>
    let text := Run.unifyNewlines text
    match Json.parse text with
    | .error (.number digits) => throw (.longNumber digits)
    | .error e => ignoring ("invalid config file " ++ path.text ++ ": " ++ e.message text)
    | .ok (.obj members) => return some members
    | .ok _ => ignoring ("config file " ++ path.text ++ ": expected a JSON object")

/-- The built-in settings with those of the first file that holds an object laid over them. -/
def loadFrom (root : Path) : List String → Run Config
  | [] => return Config.defaults
  | name :: rest => do
    let path := root.child name
    match ← membersOf path with
    | none => loadFrom root rest
    | some members =>
      let (known, unknown) := Config.normalize members
      for key in unknown do
        Run.warn ("[~] Ignoring unknown key \"" ++ key ++ "\" in " ++ path.text)
      return Config.defaults.overlay known

def load (root : Path) : Run Config := loadFrom root Config.fileNames

end Settings
end DelayInjection
