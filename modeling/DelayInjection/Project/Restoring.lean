import DelayInjection.Adapter
import DelayInjection.Project.Injecting

/-! Injected lines of a whole project: what would be removed, and their removal, by the ledger or by patterns. -/

namespace DelayInjection

open Disk (Path)

namespace Restoring

/-- The injected lines of one file. -/
structure FileScan where
  file : String
  matched : List RecoveryMatch

structure Summary where
  files : Nat := 0
  lines : Nat := 0
  /-- Files that were changed since they were injected. -/
  tampered : List String := []

/-- The adapter with an id; no list and no object can be asked for. -/
def adapterOf (registry : Registry) (id : Json) : Except Failure (Option Adapter) :=
  match id with
  | .str s => .ok (registry.get s)
  | .arr _ => .error .wrongType
  | .obj _ => .error .wrongType
  | _ => .ok none

/-- The text of a file; `none` if there is no text to be had. The paths that cannot be read are refused
with the faults met there. -/
def textUnless? (refusal : Path → Option Disk.Error) (root : Path) (file : String) :
    Run (Option (List Char)) := do
  match ← Run.look (Run.textUnless refusal (root.join (Path.ofText file))) with
  | .ok text => return some text
  | .error failure => if Injecting.isPassedOver failure then return none else throw failure

/-- The text of a file where every path of the disk can be read. -/
abbrev textOf? (root : Path) (file : String) : Run (Option (List Char)) :=
  textUnless? (fun _ => none) root file

def scanFileUnless (refusal : Path → Option Disk.Error) (a : Adapter) (root : Path) (file : String) :
    Run (List FileScan) := do
  let some text ← textUnless? refusal root file | return []
  let matched := a.scan text
  return if matched.isEmpty then [] else [⟨file, matched⟩]

/-- The adapter to scan a listed file with. A record without an id leaves the choice to the file's
name. -/
def scannerOf (registry : Registry) (file : String) (record : FileRecord) :
    Except Failure (Option Adapter) :=
  match record.adapterId with
  | .null => .ok (registry.forFile file)
  | id => adapterOf registry id

def scanListedUnless (refusal : Path → Option Disk.Error) (registry : Registry) (root : Path) :
    List (String × FileRecord) → Run (List FileScan)
  | [] => return []
  | (file, record) :: rest => do
    let first ← match ← Run.ofExcept (scannerOf registry file record) with
      | some a => scanFileUnless refusal a root file
      | none => pure []
    return first ++ (← scanListedUnless refusal registry root rest)

/-- The injected lines of the files that a ledger lists. -/
def scanAllUnless (refusal : Path → Option Disk.Error) (registry : Registry) (root : Path)
    (m : Manifest) : Run (List FileScan) :=
  scanListedUnless refusal registry root m.files

def scanFoundUnless (refusal : Path → Option Disk.Error) (registry : Registry) (root : Path) :
    List String → Run (List FileScan)
  | [] => return []
  | file :: rest => do
    let first ← match registry.forFile file with
      | some a => scanFileUnless refusal a root file
      | none => pure []
    return first ++ (← scanFoundUnless refusal registry root rest)

/-- The injected lines of the files that patterns select. -/
def scanByGlobsUnless (refusal : Path → Option Disk.Error) (registry : Registry) (root : Path)
    (included excluded : Json) : Run (List FileScan) := do
  scanFoundUnless refusal registry root
    (← Run.ofExcept (Discovery.discover (← get).disk root included excluded))

/-! Scans where every path of the disk can be read. -/

abbrev scanFile (a : Adapter) (root : Path) (file : String) : Run (List FileScan) :=
  scanFileUnless (fun _ => none) a root file

abbrev scanListed (registry : Registry) (root : Path) (files : List (String × FileRecord)) :
    Run (List FileScan) :=
  scanListedUnless (fun _ => none) registry root files

abbrev scanAll (registry : Registry) (root : Path) (m : Manifest) : Run (List FileScan) :=
  scanAllUnless (fun _ => none) registry root m

abbrev scanFound (registry : Registry) (root : Path) (files : List String) : Run (List FileScan) :=
  scanFoundUnless (fun _ => none) registry root files

abbrev scanByGlobs (registry : Registry) (root : Path) (included excluded : Json) :
    Run (List FileScan) :=
  scanByGlobsUnless (fun _ => none) registry root included excluded

/-- Rewrites a file without its injected lines. -/
def restore (root : Path) (file : String) (removal : Removal) (s : Summary) : Run Summary := do
  Run.rewrite (root.join (Path.ofText file)) removal.source
  return { s with files := s.files + 1, lines := s.lines + removal.removed }

/-- Restores a file of the ledger. One that was changed is restored all the same. -/
def restoreRecord (registry : Registry) (root : Path) (m : Manifest) (s : Summary) (file : String)
    (record : FileRecord) : Run Summary := do
  match ← Run.ofExcept (adapterOf registry record.adapterId) with
  | none =>
    Run.warn ("  [!] No adapter found for \"" ++ record.adapterId.plainText ++ "\", skipping " ++ file)
    return s
  | some a =>
    match ← textOf? root file with
    | none =>
      Run.warn ("  [!] File not found: " ++ file ++ ", skipping")
      return s
    | some text =>
      let s ← if m.isUnmodified file (hashContent text) then pure s
        else do
          Run.warn ("  [!] Warning: " ++ file ++ " was modified after injection. Restoring anyway.")
          pure { s with tampered := s.tampered ++ [file] }
      restore root file (a.remove text) s

def restoreListed (registry : Registry) (root : Path) (m : Manifest) :
    Summary → List (String × FileRecord) → Run Summary
  | s, [] => return s
  | s, (file, record) :: rest => do
    let s ← restoreRecord registry root m s file record
    restoreListed registry root m s rest

def removeSupport (root : Path) : List Json → Run Unit
  | [] => return ()
  | .str file :: rest => do
    Run.remove (root.join (Path.ofText file))
    removeSupport root rest
  | _ :: _ => throw .wrongType

/-- Restores all files of a ledger, and removes the support modules that it lists. -/
def restoreAll (registry : Registry) (root : Path) (m : Manifest) : Run Summary := do
  let s ← restoreListed registry root m {} m.files
  removeSupport root m.supportFiles
  return s

def restoreFound (registry : Registry) (root : Path) : Summary → List String → Run Summary
  | s, [] => return s
  | s, file :: rest => do
    let s ← match registry.forFile file with
      | none => pure s
      | some a => do
        match ← textOf? root file with
        | none => pure s
        | some text =>
          let removal := a.remove text
          if removal.removed = 0 then pure s else restore root file removal s
    restoreFound registry root s rest

/-- Restores the files that patterns select, and removes the support modules of all adapters. -/
def restoreByGlobs (registry : Registry) (root : Path) (included excluded : Json) :
    Run Summary := do
  let files ← Run.ofExcept (Discovery.discover (← get).disk root included excluded)
  let s ← restoreFound registry root {} files
  removeSupport root (registry.adapters.map fun a => .str a.2.moduleName)
  return s

end Restoring
end DelayInjection
