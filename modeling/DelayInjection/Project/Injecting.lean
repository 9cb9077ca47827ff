import DelayInjection.Adapter
import DelayInjection.Project.Discovery

/-! A run that injects delays into the files of a project. -/

namespace DelayInjection

open Disk (Path)

namespace Injecting

/-- What a run has done so far: its ledger, the files that it passed over with the reasons, and the
adapters of the files that it wrote. -/
structure Progress where
  manifest : Manifest
  skipped : List (String × String) := []
  used : List Adapter := []

namespace Progress

def skip (p : Progress) (file reason : String) : Run Progress := do
  Run.warn ("  [!] Skipping " ++ file ++ ": " ++ reason)
  return { p with skipped := p.skipped ++ [(file, reason)] }

/-- Each adapter is listed once, in the order of first use. -/
def use (p : Progress) (a : Adapter) : Progress :=
  if p.used.any (·.id = a.id) then p else { p with used := p.used ++ [a] }

def record (p : Progress) (a : Adapter) (file : String) (source : List Char)
    (result : InjectionResult) : Progress :=
  let record : FileRecord := ⟨.str a.id, .str (hashContent source), .str (hashContent result.source),
    result.points.map PointEntry.ofPoint, result.referenceAdded⟩
  { p with manifest := p.manifest.addFile file record }.use a

end Progress

/-- A file that cannot be read as text, or written, is passed over. -/
def isPassedOver : Failure → Bool
  | .disk _ => true
  | .undecodable _ => true
  | _ => false

/-- Injects into one file. The paths that cannot be read are refused with the faults met there. -/
def injectFile (refusal : Path → Option Disk.Error) (registry : Registry)
    (profile : Profile) (seed : Int) (root : Path) (p : Progress) (file : String) :
    Run Progress := do
  let some a := registry.forFile file | return p
  let path := root.join (Path.ofText file)
  match ← Run.look (Run.textUnless refusal path) with
  | .error failure =>
    if isPassedOver failure then p.skip file (failure.message.getD "") else throw failure
  | .ok source =>
    let result ← Run.ofExcept (a.inject source (profile.options file seed))
    match result.fault with
    | some fault => p.skip file fault.message
    | none =>
      if result.points.isEmpty then return p
      try
        Run.rewrite path result.source
        return p.record a file source result
      catch failure =>
        if isPassedOver failure then p.skip file (failure.message.getD "") else throw failure

def injectFiles (refusal : Path → Option Disk.Error) (registry : Registry) (profile : Profile)
    (seed : Int) (root : Path) : Progress → List String → Run Progress
  | p, [] => return p
  | p, file :: rest => do
    let p ← injectFile refusal registry profile seed root p file
    injectFiles refusal registry profile seed root p rest

/-- Puts the support modules of the adapters at the top of the project. -/
def copySupport (root : Path) (m : Manifest) : List Adapter → Run Manifest
  | [] => return m
  | a :: rest => do
    let path := root.child a.moduleName
    Run.change none path (·.write path (Text.Utf8.encode a.moduleText))
    copySupport root (m.addSupportFile a.moduleName) rest

/-- Injects into all selected files. The ledger of the run is not saved here. -/
def injectAllUnless (refusal : Path → Option Disk.Error) (registry : Registry) (profile : Profile)
    (now : String) (root : Path) (included excluded : Json) (seed : Int) : Run Progress := do
  let files ← Run.ofExcept (Discovery.discover (← get).disk root included excluded)
  let start : Progress := { manifest := Manifest.start now (.int seed) (.str profile.mode) }
  let p ← injectFiles refusal registry profile seed root start files
  return { p with manifest := ← copySupport root p.manifest p.used }

/-- Injection where every path of the disk can be read. -/
abbrev injectAll (registry : Registry) (profile : Profile) (now : String) (root : Path)
    (included excluded : Json) (seed : Int) : Run Progress :=
  injectAllUnless (fun _ => none) registry profile now root included excluded seed

end Injecting
end DelayInjection
