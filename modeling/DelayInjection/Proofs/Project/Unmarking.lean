import DelayInjection.Proofs.Disk.Narrowing
import DelayInjection.Proofs.Project.Injecting
import DelayInjection.Proofs.Project.Restoring

/-! Restoration by a ledger, whatever became of the files that it lists: no stamp is left in a text
that can still be read. -/

namespace DelayInjection

open Disk (Node Path)
open Text.Utf8 (Bytes decode encode)

namespace Run

variable {α : Type} {w w' : World} {path : Path}

theorem tryCatch_eq_ok {x : Run α} {f : Failure → Run α} {a : α} (h : (tryCatch x f) w = .ok a w') :
    x w = .ok a w' ∨ ∃ e w₁, x w = .error e w₁ ∧ f e w₁ = .ok a w' := by
  cases hx : x w with
  | ok b w₁ =>
    rw [tryCatch_of_eq_ok hx] at h
    exact .inl h
  | error e w₁ =>
    rw [tryCatch_of_eq_error hx] at h
    exact .inr ⟨e, w₁, rfl, h⟩

theorem of_change_eq_ok {operation : Option String} {f : Disk → Except Disk.Error Disk}
    (h : change operation path f w = .ok () w') : f w.disk = .ok w'.disk := by
  have hget : (get : Run World) w = .ok w w := rfl
  rw [change, bind_of_eq_ok hget] at h
  obtain ⟨disk, w₁, hchecked, hend⟩ := bind_eq_ok.mp h
  obtain ⟨hchecked, rfl⟩ := ofExcept_eq_ok.mp hchecked
  cases hend
  unfold checked at hchecked
  split at hchecked
  · cases hchecked
  · cases hf : f w₁.disk with
    | error e =>
      rw [hf] at hchecked
      cases hchecked
    | ok disk' =>
      rw [hf] at hchecked
      cases hchecked
      rfl

theorem of_textAt_eq_ok {d : Disk} {text : List Char} (h : textAt path d = .ok text) :
    ∃ bytes, d.read path = .ok bytes ∧ decode bytes = .ok text := by
  unfold textAt bytesAt checked at h
  split at h
  · cases h
  · cases hread : d.read path with
    | error e =>
      rw [hread] at h
      cases h
    | ok bytes =>
      rw [hread] at h
      change (decode bytes).mapError _ = _ at h
      cases hdecode : decode bytes with
      | error e =>
        rw [hdecode] at h
        cases h
      | ok text' =>
        rw [hdecode] at h
        cases h
        exact ⟨bytes, rfl, hdecode⟩

end Run

namespace Restoring

variable {registry : Registry} {root path : Path} {d d' : Disk} {w w' : World} {m : Manifest}

/-- Bytes that are no text, or a text without the stamp. -/
def Bare (bytes : Bytes) : Prop :=
  ∀ text, decode bytes = .ok text → Text.contains text stamp.toList = false

/-- If a text can be read at the path, it is one without the stamp. -/
def Unmarked (d : Disk) (path : Path) : Prop :=
  ∀ text, Run.textAt path d = .ok text → Text.contains text stamp.toList = false

theorem bare_encode {text : List Char} (h : Text.contains text stamp.toList = false) :
    Bare (encode text) := by
  intro other hother
  rw [Text.Utf8.decode_encode] at hother
  cases hother
  exact h

theorem unmarked_of_read (h : ∀ bytes, d.read path = .ok bytes → Bare bytes) : Unmarked d path := by
  intro text htext
  obtain ⟨bytes, hread, hdecode⟩ := Run.of_textAt_eq_ok htext
  exact h bytes hread text hdecode

/-- What is unmarked stays so while nothing but bare files come to the disk. -/
theorem Unmarked.of_narrows (h : Unmarked d path) (hnarrows : d.root.Narrows Bare d'.root) :
    Unmarked d' path := by
  intro text htext
  obtain ⟨bytes, hread', hdecode⟩ := Run.of_textAt_eq_ok htext
  rcases Disk.read_of_narrows hnarrows hread' with hread | hbare
  · apply h text
    -- the path was not refused for a zero afterwards, so it was not refused before
    unfold Run.textAt Run.bytesAt Run.checked at htext ⊢
    split at htext
    · cases htext
    · rw [if_neg ‹_›, hread]
      change (decode bytes).mapError _ = _
      rw [hdecode]
      rfl
  · exact hbare text hdecode

theorem narrows_of_rewrite {text new : List Char} (htext : Run.textAt path w.disk = .ok text)
    (hnew : Text.contains new stamp.toList = false) (h : Run.rewrite path new w = .ok () w') :
    w.disk.root.Narrows Bare w'.disk.root ∧ Unmarked w'.disk path := by
  obtain ⟨bytes, hread, -⟩ := Run.of_textAt_eq_ok htext
  obtain ⟨hnarrows, hall⟩ := Disk.narrows_of_rewrite hread (bare_encode hnew) (Run.of_change_eq_ok h)
  refine ⟨hnarrows, unmarked_of_read fun others hothers => ?_⟩
  rw [hall others hothers]
  exact bare_encode hnew

/-- The text that was read, or the reason for which there is none to be had. -/
theorem of_textOf?_eq_ok {file : String} {text? : Option (List Char)}
    (h : textOf? root file w = .ok text? w') : w' = w ∧
      (∀ text, text? = some text → Run.textAt (root.join (Path.ofText file)) w.disk = .ok text) ∧
      (text? = none → Unmarked w.disk (root.join (Path.ofText file))) := by
  have hlook : Run.look (Run.textAt (root.join (Path.ofText file))) w =
      .ok (Run.textAt (root.join (Path.ofText file)) w.disk) w := rfl
  replace h := (Run.bind_of_eq_ok hlook).symm.trans h
  cases htext : Run.textAt (root.join (Path.ofText file)) w.disk with
  | ok text =>
    rw [htext] at h
    cases h
    refine ⟨rfl, ?_, by simp⟩
    rintro _ ⟨⟩
    rfl
  | error failure =>
    rw [htext] at h
    simp only at h
    split at h
    · cases h
      refine ⟨rfl, by simp, fun _ text htext' => ?_⟩
      rw [htext] at htext'
      cases htext'
    · cases h

/-! ## Records -/

/-- The record says which adapter wrote it. -/
def NamesAdapter (registry : Registry) (record : FileRecord) : Prop :=
  ∃ a, adapterOf registry record.adapterId = .ok (some a)

theorem of_restoreRecord_eq_ok {s s' : Summary} {file : String} {record : FileRecord}
    (hnames : NamesAdapter registry record)
    (h : restoreRecord registry root m s file record w = .ok s' w') :
    w.disk.root.Narrows Bare w'.disk.root ∧ Unmarked w'.disk (root.join (Path.ofText file)) := by
  obtain ⟨a, ha⟩ := hnames
  rw [restoreRecord, Run.bind_of_eq_ok (Run.ofExcept_eq_ok.mpr ⟨ha, rfl⟩)] at h
  obtain ⟨text?, w₁, htext, h⟩ := Run.bind_eq_ok.mp h
  obtain ⟨rfl, hsome, hnone⟩ := of_textOf?_eq_ok htext
  cases text? with
  | none =>
    obtain ⟨_, w₂, hwarned, hend⟩ := Run.bind_eq_ok.mp h
    cases hwarned
    cases hend
    exact ⟨Node.Narrows.refl, hnone rfl⟩
  | some text =>
    have htext := hsome text rfl
    -- with a warning or without one, the run ends with the rewriting of the file
    obtain ⟨s₁, w₂, hdisk, hrewritten⟩ : ∃ s₁ w₂, w₂.disk = w₁.disk ∧
        restore root file (a.remove text) s₁ w₂ = .ok s' w' := by
      simp only at h
      split at h
      · exact ⟨_, w₁, rfl, h⟩
      · obtain ⟨_, w₂, hwarned, h⟩ := Run.bind_eq_ok.mp h
        cases hwarned
        refine ⟨{ s with tampered := s.tampered ++ [file] }, _, ?_, h⟩
        rfl
    obtain ⟨_, w₃, hrewritten, hend⟩ := Run.bind_eq_ok.mp hrewritten
    cases hend
    rw [← hdisk] at htext ⊢
    exact narrows_of_rewrite htext (Recovery.not_contains_stamp_remove a.classifier text) hrewritten

theorem of_restoreListed_eq_ok {files : List (String × FileRecord)} {s s' : Summary}
    (hnames : ∀ f ∈ files, NamesAdapter registry f.2)
    (h : restoreListed registry root m s files w = .ok s' w') :
    w.disk.root.Narrows Bare w'.disk.root ∧
      ∀ f ∈ files, Unmarked w'.disk (root.join (Path.ofText f.1)) := by
  induction files generalizing s w with
  | nil =>
    cases h
    exact ⟨Node.Narrows.refl, by simp⟩
  | cons f files ih =>
    obtain ⟨file, record⟩ := f
    obtain ⟨s₁, w₁, hrecord, hrest⟩ := Run.bind_eq_ok.mp h
    obtain ⟨hnarrows, hunmarked⟩ := of_restoreRecord_eq_ok (hnames _ List.mem_cons_self) hrecord
    obtain ⟨hnarrows', hunmarked'⟩ := ih (fun f hf => hnames f (List.mem_cons_of_mem _ hf)) hrest
    refine ⟨hnarrows.trans hnarrows', fun f hf => ?_⟩
    rcases List.mem_cons.mp hf with rfl | hf
    · exact hunmarked.of_narrows hnarrows'
    · exact hunmarked' f hf

theorem narrows_of_remove (h : Run.remove path w = .ok () w') :
    w.disk.root.Narrows Bare w'.disk.root :=
  Disk.narrows_of_remove (Run.of_change_eq_ok h)

theorem narrows_of_removeSupport {files : List Json} (h : removeSupport root files w = .ok () w') :
    w.disk.root.Narrows Bare w'.disk.root := by
  induction files generalizing w with
  | nil =>
    cases h
    exact Node.Narrows.refl
  | cons file files ih =>
    cases file with
    | str name =>
      obtain ⟨_, w₁, hremoved, hrest⟩ := Run.bind_eq_ok.mp h
      exact (narrows_of_remove hremoved).trans (ih hrest)
    | _ => cases h

/-- Restoration by the ledger leaves no stamp in what it lists. -/
theorem unmarked_of_restoreAll {s : Summary} (hnames : ∀ f ∈ m.files, NamesAdapter registry f.2)
    (h : restoreAll registry root m w = .ok s w') :
    ∀ f ∈ m.files, Unmarked w'.disk (root.join (Path.ofText f.1)) := by
  obtain ⟨s₁, w₁, hlisted, hrest⟩ := Run.bind_eq_ok.mp h
  obtain ⟨_, w₂, hremoved, hend⟩ := Run.bind_eq_ok.mp hrest
  cases hend
  intro f hf
  exact ((of_restoreListed_eq_ok hnames hlisted).2 f hf).of_narrows (narrows_of_removeSupport hremoved)

end Restoring

/-! ## Records that injection writes -/

namespace Injecting

open Restoring (NamesAdapter)

variable {refusal : Path → Option Disk.Error} {registry : Registry} {profile : Profile} {seed : Int}
  {root : Path} {p p' : Progress} {w w' : World}

theorem of_skip_eq_ok {file reason : String} (h : p.skip file reason w = .ok p' w') :
    p'.manifest = p.manifest := by
  obtain ⟨_, w₁, -, hend⟩ := Run.bind_eq_ok.mp h
  cases hend
  rfl

theorem manifest_of_injectFile {file : String}
    (h : injectFile refusal registry profile seed root p file w = .ok p' w') :
    p'.manifest = p.manifest ∨ ∃ a source result, registry.forFile file = some a ∧
      p' = p.record a file source result := by
  rw [injectFile] at h
  cases hadapter : registry.forFile file with
  | none =>
    rw [hadapter] at h
    cases h
    exact .inl rfl
  | some a =>
    rw [hadapter] at h
    have hlook : Run.look (Run.textUnless refusal (root.join (Path.ofText file))) w =
        .ok (Run.textUnless refusal (root.join (Path.ofText file)) w.disk) w := rfl
    simp only [Run.bind_of_eq_ok hlook] at h
    cases htext : Run.textUnless refusal (root.join (Path.ofText file)) w.disk with
    | error failure =>
      rw [htext] at h
      simp only at h
      split at h
      · exact .inl (of_skip_eq_ok h)
      · cases h
    | ok source =>
      rw [htext] at h
      obtain ⟨result, w₁, -, h⟩ := Run.bind_eq_ok.mp h
      cases hfault : result.fault with
      | some fault =>
        simp only [hfault] at h
        exact .inl (of_skip_eq_ok h)
      | none =>
        simp only [hfault] at h
        split at h
        · cases h
          exact .inl rfl
        · obtain ⟨e, w₂, htry, hend⟩ := Run.bind_eq_ok.mp h
          rcases Run.tryCatch_eq_ok htry with htry | ⟨failure, w₃, -, htry⟩
          · obtain ⟨_, w₃, -, hrecord⟩ := Run.bind_eq_ok.mp htry
            cases hrecord
            cases hend
            exact .inr ⟨a, source, result, rfl, rfl⟩
          · split at htry
            · obtain ⟨p₁, w₄, hskip, hreturn⟩ := Run.bind_eq_ok.mp htry
              cases hreturn
              cases hend
              exact .inl (of_skip_eq_ok hskip)
            · cases htry

theorem namesAdapter_of_injectFiles (hregistry : registry.IsConsistent) {files : List String}
    (hp : ∀ f ∈ p.manifest.files, NamesAdapter registry f.2)
    (h : injectFiles refusal registry profile seed root p files w = .ok p' w') :
    ∀ f ∈ p'.manifest.files, NamesAdapter registry f.2 := by
  induction files generalizing p w with
  | nil =>
    cases h
    exact hp
  | cons file files ih =>
    obtain ⟨p₁, w₁, hfile, hrest⟩ := Run.bind_eq_ok.mp h
    refine ih (fun f hf => ?_) hrest
    rcases manifest_of_injectFile hfile with hsame | ⟨a, source, result, hadapter, rfl⟩
    · exact hp f (hsame ▸ hf)
    · rw [Progress.record, manifest_use] at hf
      rcases Json.mem_put hf with rfl | hf
      · exact ⟨a, congrArg Except.ok (hregistry.get a (List.mem_of_find?_eq_some hadapter))⟩
      · exact hp f hf

/-- Every record of a run can be restored. -/
theorem namesAdapter_of_injectAll (hregistry : registry.IsConsistent) {now : String}
    {included excluded : Json}
    (h : injectAllUnless refusal registry profile now root included excluded seed w = .ok p w') :
    ∀ f ∈ p.manifest.files, NamesAdapter registry f.2 := by
  have hget : (get : Run World) w = .ok w w := rfl
  rw [injectAllUnless, Run.bind_of_eq_ok hget] at h
  obtain ⟨files, w₁, -, h⟩ := Run.bind_eq_ok.mp h
  obtain ⟨p₁, w₂, hinjected, h⟩ := Run.bind_eq_ok.mp h
  obtain ⟨m, w₃, hcopied, hend⟩ := Run.bind_eq_ok.mp h
  cases hend
  intro f hf
  rw [files_copySupport hcopied] at hf
  exact namesAdapter_of_injectFiles hregistry (fun f hf => by cases hf) hinjected f hf

end Injecting
end DelayInjection
