import DelayInjection.CommandLine.Command
import DelayInjection.Project.Ledger
import DelayInjection.Project.Restoring
import DelayInjection.Project.Settings

/-! What the commands do, and what they print. -/

namespace DelayInjection

open Disk (Path)
open Restoring (FileScan Summary)

/-- What commands depend on beside their arguments and the world. -/
structure Surroundings where
  registry : Registry
  /-- The folder that relative paths start from. -/
  folder : Path
  now : String
  /-- The seed to take if none is given. -/
  picked : Int

namespace Surroundings

variable (s : Surroundings)

/-- The folder that an argument names. -/
def resolve (text : String) : Run Path :=
  if text.toList.contains '\x00' then throw (.zeroInPath (some "lstat"))
  else return (s.folder.join (Path.ofText text)).resolved

def tag : Reason → String
  | .stamp => "stamp"
  | .identifier => "ident"
  | .supportImport => "import"

def printMatches : List RecoveryMatch → Run Unit
  | [] => return ()
  | m :: rest => do
    Run.print ("    L" ++ toString m.line ++ " [" ++ tag m.reason ++ "] " ++
      String.ofList (Text.strip m.content))
    printMatches rest

def printScans : List FileScan → Run Unit
  | [] => return ()
  | f :: rest => do
    let count := f.matched.length
    Run.print ("\n  " ++ f.file ++ " (" ++ toString count ++ " match" ++
      (if count = 1 then "" else "es") ++ "):")
    printMatches f.matched
    printScans rest

/-- The injected lines by file, and how many they are. -/
def preview (scans : List FileScan) : Run Unit := do
  printScans scans
  let total := scans.foldr (fun f n => f.matched.length + n) 0
  Run.print ("\n  Total: " ++ toString total ++ " line(s) across " ++ toString scans.length ++
    " file(s)")

/-- The patterns that were given, or else those of the settings. -/
def included (globs : List String) (config : Config) : Json :=
  if globs.isEmpty then (config.lookup "include").getD .null else Config.texts globs

def excluded (config : Config) : Json := (config.lookup "exclude").getD .null

def isYes (given : Bool) (question : String) : Run Bool :=
  if given then return true else Run.confirm question

def textOrNull : Option String → Json
  | some t => .str t
  | none => .null

def intOrNull : Option Int → Json
  | some n => .int n
  | none => .null

def overrides (a : InjectArguments) : Config.Overrides where
  mode := textOrNull a.mode
  minDelay := intOrNull a.minDelay
  maxDelay := intOrNull a.maxDelay
  exclude := (a.exclude.map Config.texts).getD .null
  includeGenerators := .bool a.includeGenerators

/-- Takes an earlier injection back, if the user agrees. -/
def clear (root : Path) (existing : Manifest) (yes : Bool) : Run Bool := do
  Run.print ("[~] Active injection detected (seed: " ++ existing.seed.plainText ++ ", mode: " ++
    existing.mode.plainText ++ ", injected at: " ++ existing.createdAt.plainText ++ ").")
  if !(← isYes yes "Restore source files before re-injecting? (y/N) ") then
    Run.warn "Aborted. Run \x60flakemonster restore\x60 manually to clean up."
    return false
  let _ ← Restoring.restoreAll s.registry root existing
  Ledger.delete root
  Run.print "[+] Previous injections removed. Proceeding with fresh injection.\n"
  return true

def injectInto (root : Path) (profile : Profile) (seed : Int) (included excluded : Json) :
    Run Nat := do
  Run.warn ("[*] Injecting into " ++ root.text ++ " ...")
  let p ← Injecting.injectAll s.registry profile s.now root included excluded seed
  if p.manifest.files.isEmpty then
    Run.print "[~] No injection points found. Nothing was modified."
    return 0
  let _ ← Ledger.save root p.manifest
  Run.print ("[+] Injected " ++ toString p.manifest.totalPoints ++ " delays into " ++
    toString p.manifest.files.length ++ " file(s)")
  Run.print ("Mode: " ++ profile.mode ++ " | Seed: " ++ toString seed)
  if !p.skipped.isEmpty then
    Run.warn ("[!] " ++ toString p.skipped.length ++ " file(s) skipped, see warnings above.")
  return 0

def inject (a : InjectArguments) : Run Nat := do
  let root ← s.resolve a.root
  let config ← Run.ofExcept (Config.merge (← Settings.load root) (overrides a))
  let seed ← Run.ofExcept (Seed.parse s.picked (.str a.seed))
  let profile ← Run.ofExcept (Profile.ofConfig config)
  let goesOn ← match ← Ledger.load s.now root with
    | some existing => s.clear root existing a.yes
    | none => pure true
  if goesOn then s.injectInto root profile seed (included a.globs config) (excluded config)
  else return 1

def nothingFound : Run Nat := do
  Run.print "No injected lines found. Files appear clean."
  return 0

/-- Shows what was found, and goes on if the user agrees. -/
def afterPreview (scans : List FileScan) (yes : Bool) (goOn : Run Nat) : Run Nat := do
  if scans.isEmpty then nothingFound
  else
    preview scans
    if ← isYes yes "\n  Remove these lines? (y/N) " then goOn
    else
      Run.print "  Aborted. No files were modified."
      return 0

/-- Without a ledger, injected lines are found by patterns. -/
def recoverByGlobs (a : RestoreArguments) (config : Config) (folder : Path) : Run Nat := do
  let _ ← Run.ofExcept (Profile.ofConfig config)
  let globs := included a.globs config
  Run.print "[*] No manifest found, scanning by glob for injected lines..."
  let scans ← Restoring.scanByGlobs s.registry folder globs (excluded config)
  afterPreview scans a.yes do
    let summary ← Restoring.restoreByGlobs s.registry folder globs (excluded config)
    Run.print ("\n[+] Recovered " ++ toString summary.files ++ " file(s), removed " ++
      toString summary.lines ++ " line(s)")
    return 0

def restoreListed (folder : Path) (m : Manifest) : Run Nat := do
  let summary ← Restoring.restoreAll s.registry folder m
  Ledger.delete folder
  Run.print ("[+] Restored " ++ toString summary.files ++ " file(s), removed " ++
    toString summary.lines ++ " line(s)")
  if !summary.tampered.isEmpty then
    Run.warn ("[!] " ++ toString summary.tampered.length ++
      " file(s) were modified after injection; review them.")
  return 0

def restore (a : RestoreArguments) : Run Nat := do
  let root ← s.resolve a.root
  let config ← Settings.load root
  let folder ← if a.folder.isEmpty then pure root else s.resolve a.folder
  match ← Ledger.load s.now folder with
  | none =>
    if a.recover then s.recoverByGlobs a config folder
    else
      Run.print "No manifest found. Nothing to restore."
      Run.print ("Looked in: " ++ (Ledger.folder folder).text)
      return 0
  | some m =>
    let _ ← Run.ofExcept (Profile.ofConfig (config.overlay [("mode", m.mode)]))
    if a.recover then
      Run.print "[*] Recovery mode: scanning for injected lines..."
      let scans ← Restoring.scanAll s.registry folder m
      afterPreview scans a.yes (s.restoreListed folder m)
    else s.restoreListed folder m

def scan (a : ScanArguments) : Run Nat := do
  let root ← s.resolve a.root
  let config ← Settings.load root
  let _ ← Run.ofExcept (Profile.ofConfig config)
  let scans ← Restoring.scanByGlobs s.registry root (included a.globs config) (excluded config)
  if scans.isEmpty then nothingFound
  else
    preview scans
    return 0

def execute : Command → Run Nat
  | .inject a => s.inject a
  | .restore a => s.restore a
  | .scan a => s.scan a

/-- Runs a command and gives its exit status. Failures that are reported end it with a message. -/
def run (command : Command) : Run Nat :=
  try s.execute command
  catch failure =>
    if failure.isReported then do
      Run.warn ("Error: " ++ failure.message.getD "")
      return 1
    else throw failure

end Surroundings
end DelayInjection
