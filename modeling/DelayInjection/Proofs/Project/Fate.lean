import DelayInjection.Project.Injecting
import DelayInjection.Proofs.Project.World
import DelayInjection.Proofs.Text.Utf8

/-! What becomes of one file in a run of injection. It is decided by the file alone: by its path and
bytes, and by what the disk refuses at its path. -/

namespace DelayInjection

open Disk (Node Path)
open Disk.Node (replaced)
open Discovery (fileOf)
open Text.Utf8 (Bytes encode)

namespace Injecting

/-- A file is left alone, passed over for a reason, or written. -/
inductive Fate where
  | kept
  | skipped (reason : String)
  | written (adapter : Adapter) (source : List Char) (result : InjectionResult)

def fateOf (registry : Registry) (profile : Profile) (seed : Int) (file : String) (bytes : Bytes)
    (refused : Option Disk.Error) (locked : Bool) : Except Failure Fate :=
  match registry.forFile file with
  | none => .ok .kept
  | some a =>
    match refused with
    | some e => .ok (.skipped e.message)
    | none =>
      match Text.Utf8.decode bytes with
      | .error e => .ok (.skipped e.message)
      | .ok source =>
        match a.inject source (profile.options file seed) with
        | .error failure => .error failure
        | .ok result =>
          match result.fault with
          | some fault => .ok (.skipped fault.message)
          | none =>
            if result.points.isEmpty then .ok .kept
            else if locked then .ok (.skipped Disk.Fault.readOnly.text)
            else .ok (.written a source result)

/-- The fate of a file below a folder of the disk. -/
def fateAt (refusal : Path → Option Disk.Error) (registry : Registry) (profile : Profile)
    (seed : Int) (d : Disk) (root : Path) (file : String) : Except Failure Fate :=
  let path := root.join (Path.ofText file)
  match d.read path with
  | .ok bytes => fateOf registry profile seed file bytes (refusal path) (d.isLocked path)
  | .error _ => .ok .kept

namespace Fate

/-- The bytes of all files after one of them met its fate. -/
def content (names : List String) (old : List String → Bytes → Bytes) :
    Fate → List String → Bytes → Bytes
  | written _ _ result => replaced old names (encode result.source)
  | _ => old

end Fate

/-- The progress of a run after a file met its fate. -/
def Progress.after (p : Progress) (file : String) : Fate → Progress
  | .kept => p
  | .skipped reason => { p with skipped := p.skipped ++ [(file, reason)] }
  | .written a source result => p.record a file source result

variable {refusal : Path → Option Disk.Error} {registry : Registry} {profile : Profile} {seed : Int}

/-- A file that is written was read, and something was injected into its text. -/
theorem of_fateOf_eq_written {file : String} {bytes : Bytes} {refused : Option Disk.Error}
    {locked : Bool} {a : Adapter} {source : List Char} {result : InjectionResult}
    (hfate : fateOf registry profile seed file bytes refused locked =
      .ok (.written a source result)) :
    registry.forFile file = some a ∧ Text.Utf8.decode bytes = .ok source ∧
      a.inject source (profile.options file seed) = .ok result ∧ result.points ≠ [] ∧
      refused = none ∧ locked = false := by
  unfold fateOf at hfate
  split at hfate
  next => cases hfate
  next b hadapter =>
    split at hfate
    next => cases hfate
    next =>
      split at hfate
      next => cases hfate
      next text hdecode =>
        split at hfate
        next => cases hfate
        next output hinject =>
          split at hfate
          next => cases hfate
          next =>
            split at hfate
            next => cases hfate
            next hpoints =>
              split at hfate
              next => cases hfate
              next hlocked =>
                cases hfate
                exact ⟨hadapter, hdecode, hinject, by simpa using hpoints, rfl, by simpa using hlocked⟩

/-- A file that nothing speaks against is written. -/
theorem fateOf_eq_written {file : String} {bytes : Bytes} {a : Adapter} {source : List Char}
    {result : InjectionResult} (hadapter : registry.forFile file = some a)
    (hdecode : Text.Utf8.decode bytes = .ok source)
    (hinject : a.inject source (profile.options file seed) = .ok result)
    (hfault : result.fault = none) (hpoints : result.points ≠ []) :
    fateOf registry profile seed file bytes none false = .ok (.written a source result) := by
  have hempty : result.points.isEmpty = false := by simpa using hpoints
  unfold fateOf
  rw [hadapter, hdecode]
  simp only [hinject, hfault, hempty]
  rfl

/-- Only a failure of injection leaves a file without a fate. -/
theorem exists_fateOf_eq_ok {file : String} {bytes : Bytes}
    (hinject : ∀ a source, registry.forFile file = some a → Text.Utf8.decode bytes = .ok source →
      ∃ result, a.inject source (profile.options file seed) = .ok result)
    (refused : Option Disk.Error) (locked : Bool) :
    ∃ fate, fateOf registry profile seed file bytes refused locked = .ok fate := by
  unfold fateOf
  split
  next => exact ⟨_, rfl⟩
  next a hadapter =>
    split
    next => exact ⟨_, rfl⟩
    next =>
      split
      next => exact ⟨_, rfl⟩
      next source hdecode =>
        obtain ⟨result, hresult⟩ := hinject a source hadapter hdecode
        rw [hresult]
        simp only
        split
        · exact ⟨_, rfl⟩
        · split
          · exact ⟨_, rfl⟩
          · split <;> exact ⟨_, rfl⟩

/-! ## The file in a run -/

section File

variable {d : Disk} {root : Path} {above : List String} {entries others : List (String × Node)}
  (h : IsProject d root above entries) {content : List String → Bytes → Bytes}
  {names : List String} {bytes : Bytes}
  (hat : (Node.folder entries).at? names = some (.file bytes)) (hcontent : content names bytes = bytes)
  {p : Progress} {w : World} (hw : w.disk = d.overlaid above content entries others)

include h hat in
theorem fateAt_fileOf : fateAt refusal registry profile seed d root (fileOf names) =
    fateOf registry profile seed (fileOf names) bytes
      (refusal (root.join (Path.ofText (fileOf names)))) (d.locked.contains (above ++ names)) := by
  rw [fateAt, h.read_self hat, h.isLocked hat]

include h hat hcontent hw

/-- What becomes of a file that was not written yet. -/
theorem injectFile_eq : injectFile refusal registry profile seed root p (fileOf names) w =
    match fateAt refusal registry profile seed d root (fileOf names) with
    | .error failure => .error failure w
    | .ok .kept => .ok p w
    | .ok (.skipped reason) => p.skip (fileOf names) reason w
    | .ok (.written a source result) => .ok (p.record a (fileOf names) source result) { w with
        disk := d.overlaid above (replaced content names (encode result.source)) entries
          others } := by
  rw [fateAt_fileOf h hat]
  unfold fateOf
  cases hadapter : registry.forFile (fileOf names) with
  | none =>
    simp only [injectFile, hadapter]
    rfl
  | some a =>
    have hlook : Run.look (Run.textUnless refusal (root.join (Path.ofText (fileOf names)))) w =
        .ok (Run.textUnless refusal (root.join (Path.ofText (fileOf names))) w.disk) w := rfl
    simp only [injectFile, hadapter]
    rw [Run.bind_of_eq_ok hlook, Run.textUnless]
    cases refusal (root.join (Path.ofText (fileOf names))) with
    | some e => rfl
    | none =>
      have htext : Run.textAt (root.join (Path.ofText (fileOf names))) w.disk =
          (Text.Utf8.decode bytes).mapError .undecodable := by
        rw [hw, h.textAt hat, hcontent]
      simp only [htext]
      cases Text.Utf8.decode bytes with
      | error e => rfl
      | ok source =>
        have hok : (Except.ok source).mapError Failure.undecodable = .ok source := rfl
        simp only [hok]
        cases hinject : a.inject source (profile.options (fileOf names) seed) with
        | error failure => rfl
        | ok result =>
          refine (Run.bind_of_eq_ok (Run.ofExcept_eq_ok.mpr ⟨rfl, rfl⟩)).trans ?_
          cases hfault : result.fault with
          | some fault => simp only [hfault]
          | none =>
            simp only [hfault]
            split
            next => rfl
            next =>
              have hrewrite := h.rewrite hat result.source hw
              split at hrewrite
              next hlocked =>
                rw [if_pos hlocked]
                exact (Run.bind_congr (Run.tryCatch_of_eq_error
                  (Run.bind_of_eq_error hrewrite)) _).trans rfl
              next hlocked =>
                rw [if_neg hlocked]
                exact (Run.bind_congr (Run.tryCatch_bind hrewrite) _).trans rfl

/-- A run that goes on after a file has met it with its fate. -/
theorem of_injectFile_eq_ok {p' : Progress} {w' : World}
    (hrun : injectFile refusal registry profile seed root p (fileOf names) w = .ok p' w') :
    ∃ fate, fateAt refusal registry profile seed d root (fileOf names) = .ok fate ∧
      p' = p.after (fileOf names) fate ∧
      w'.disk = d.overlaid above (fate.content names content) entries others := by
  rw [injectFile_eq h hat hcontent hw] at hrun
  split at hrun
  next => cases hrun
  next hfate =>
    cases hrun
    exact ⟨_, hfate, rfl, hw⟩
  next hfate =>
    cases hrun
    exact ⟨_, hfate, rfl, hw⟩
  next hfate =>
    cases hrun
    exact ⟨_, hfate, rfl, rfl⟩

/-- A file with a fate does not end the run. -/
theorem exists_injectFile_eq_ok {fate : Fate}
    (hfate : fateAt refusal registry profile seed d root (fileOf names) = .ok fate) :
    ∃ p' w', injectFile refusal registry profile seed root p (fileOf names) w = .ok p' w' := by
  rw [injectFile_eq h hat hcontent hw, hfate]
  cases fate with
  | kept => exact ⟨_, _, rfl⟩
  | skipped reason => exact ⟨_, _, rfl⟩
  | written a source result => exact ⟨_, _, rfl⟩

end File
end Injecting
end DelayInjection
