import DelayInjection.CommandLine.Execution
import DelayInjection.Proofs.Project.Ledger
import DelayInjection.Proofs.Project.RoundTrip
import DelayInjection.Proofs.Project.Settings
import DelayInjection.Proofs.Project.Unmarking

/-! The parts of commands: most of them print or read, and leave the disk as it is. -/

namespace DelayInjection

open Disk (Path)
open Restoring (FileScan Summary)

namespace Run

variable {α : Type} {w w' : World}

theorem keeps_of_yields {x : Run α} {a : α} (h : Yields x a) : Keeps x := by
  intro w
  obtain ⟨w', hrun, hdisk⟩ := h w
  rw [left_of_eq_ok hrun, hdisk]

theorem Keeps.disk_eq {x : Run α} {a : α} (h : Keeps x) (hrun : x w = .ok a w') : w'.disk = w.disk := by
  rw [← left_of_eq_ok hrun, h w]

end Run

/-! ## Ledgers and files that are read -/

/-- What is read from the ledger depends on the disk alone. -/
theorem Ledger.of_load_eq_some {now : String} {root : Path} {m : Manifest} {w w₁ : World}
    (h : load now root w = .ok (some m) w₁) :
    w.disk.isFile ((folder root).child fileName) = true ∧
      ∀ w' : World, w'.disk = w.disk → load now root w' = .ok (some m) w' := by
  have hget : ∀ w : World, (get : Run World) w = .ok w w := fun _ => rfl
  have hlook : ∀ w, Run.look (Run.textAt ((folder root).child fileName)) w =
      .ok (Run.textAt ((folder root).child fileName) w.disk) w := fun _ => rfl
  rw [load, Run.bind_of_eq_ok (hget w)] at h
  cases hfile : w.disk.isFile ((folder root).child fileName) with
  | false =>
    simp only [hfile] at h
    cases h
  | true =>
    refine ⟨rfl, fun w' hdisk => ?_⟩
    rw [load, Run.bind_of_eq_ok (hget w'), hdisk]
    simp only [hfile, Bool.not_true, Bool.false_eq_true, if_false] at h ⊢
    rw [Run.bind_of_eq_ok (hlook w)] at h
    rw [Run.bind_of_eq_ok (hlook w'), hdisk]
    cases htext : Run.textAt ((folder root).child fileName) w.disk with
    | error failure =>
      rw [htext] at h
      cases h
    | ok text =>
      rw [htext] at h
      simp only at h ⊢
      cases hparse : Json.parse (Run.unifyNewlines text) with
      | error e =>
        rw [hparse] at h
        cases e <;> cases h
      | ok value =>
        rw [hparse] at h
        cases value with
        | obj members =>
          simp only at h ⊢
          cases hread : Manifest.ofJson now (.obj members) with
          | error failure =>
            rw [hread] at h
            cases h
          | ok m' =>
            rw [hread] at h
            cases h
            rfl
        | _ => cases h

namespace Restoring

theorem keeps_textOf? (root : Path) (file : String) : Run.Keeps (textOf? root file) := by
  refine Run.keeps_bind (Run.keeps_look _) fun text? => ?_
  split
  · exact Run.keeps_pure _
  · split
    · exact Run.keeps_pure _
    · exact Run.keeps_throw _

theorem keeps_scanFile (a : Adapter) (root : Path) (file : String) :
    Run.Keeps (scanFile a root file) := by
  refine Run.keeps_bind (keeps_textOf? root file) fun text? => ?_
  split <;> exact Run.keeps_pure _

theorem keeps_scanListed (registry : Registry) (root : Path) (files : List (String × FileRecord)) :
    Run.Keeps (scanListed registry root files) := by
  induction files with
  | nil => exact Run.keeps_pure _
  | cons f files ih =>
    have hrest : ∀ first, Run.Keeps (do return first ++ (← scanListed registry root files)) :=
      fun first => Run.keeps_bind ih fun rest => Run.keeps_pure (first ++ rest)
    refine Run.keeps_bind (Run.keeps_ofExcept _) fun adapter? => ?_
    cases adapter? with
    | none => exact Run.keeps_bind (Run.keeps_pure []) hrest
    | some a => exact Run.keeps_bind (keeps_scanFile a root f.1) hrest

theorem keeps_scanFound (registry : Registry) (root : Path) (files : List String) :
    Run.Keeps (scanFound registry root files) := by
  induction files with
  | nil => exact Run.keeps_pure _
  | cons file files ih =>
    have hrest : ∀ first, Run.Keeps (do return first ++ (← scanFound registry root files)) :=
      fun first => Run.keeps_bind ih fun rest => Run.keeps_pure (first ++ rest)
    unfold scanFound scanFoundUnless
    cases registry.forFile file with
    | none => exact Run.keeps_bind (Run.keeps_pure []) hrest
    | some a => exact Run.keeps_bind (keeps_scanFile a root file) hrest

theorem keeps_scanByGlobs (registry : Registry) (root : Path) (included excluded : Json) :
    Run.Keeps (scanByGlobs registry root included excluded) :=
  Run.keeps_bind Run.keeps_get fun _ => Run.keeps_bind (Run.keeps_ofExcept _) fun files =>
    keeps_scanFound registry root files

end Restoring

theorem Settings.keeps_load {root : Path} {config : Config} {w w' : World}
    (h : Settings.load root w = .ok config w') : w'.disk = w.disk :=
  (@Settings.loadFrom_congr root Config.fileNames w w (fun _ _ => rfl) config w' h).1

/-- Only the disk matters to settings. -/
theorem Settings.exists_load_eq_ok {root : Path} {config : Config} {w w₁ : World}
    (h : Settings.load root w = .ok config w₁) :
    ∃ w₂, Settings.load root { disk := w.disk } = .ok config w₂ := by
  have hsame : ∀ name ∈ Config.fileNames, Run.textAt (root.child name) w.disk =
      Run.textAt (root.child name) ({ disk := w.disk } : World).disk := fun _ _ => rfl
  obtain ⟨-, w₂, hsettings, -⟩ := Settings.loadFrom_congr hsame h
  exact ⟨w₂, hsettings⟩

namespace Surroundings

variable (s : Surroundings)

/-- The argument names the folder. -/
structure Names (text : String) (root : Path) : Prop where
  noZero : text.toList.contains '\x00' = false
  resolved : (s.folder.join (Path.ofText text)).resolved = root

variable {s} {w w' : World}

theorem resolve_eq_ok {text : String} {root : Path} (h : s.Names text root) :
    s.resolve text w = .ok root w := by
  rw [resolve, h.noZero, h.resolved]
  rfl

theorem of_resolve_eq_ok {text : String} {root root' : Path} (h : s.Names text root)
    (hrun : s.resolve text w = .ok root' w') : root' = root ∧ w' = w := by
  rw [resolve_eq_ok h] at hrun
  cases hrun
  exact ⟨rfl, rfl⟩

/-! ## What is printed -/

theorem yields_printMatches (matched : List RecoveryMatch) : Run.Yields (printMatches matched) () := by
  induction matched with
  | nil => exact Run.yields_pure ()
  | cons m matched ih => exact Run.yields_bind (Run.yields_print _) ih

theorem yields_printScans (scans : List FileScan) : Run.Yields (printScans scans) () := by
  induction scans with
  | nil => exact Run.yields_pure ()
  | cons f scans ih =>
    exact Run.yields_bind (Run.yields_print _) (Run.yields_bind (yields_printMatches f.matched) ih)

theorem yields_preview (scans : List FileScan) : Run.Yields (preview scans) () :=
  Run.yields_bind (yields_printScans scans) (Run.yields_print _)

theorem yields_nothingFound : Run.Yields nothingFound 0 :=
  Run.yields_bind (Run.yields_print _) (Run.yields_pure 0)

theorem yields_restored (summary : Summary) : Run.Yields (do
    Run.print ("[+] Restored " ++ toString summary.files ++ " file(s), removed " ++
      toString summary.lines ++ " line(s)")
    if !summary.tampered.isEmpty then
      Run.warn ("[!] " ++ toString summary.tampered.length ++
        " file(s) were modified after injection; review them.")
    return 0) 0 := by
  refine Run.yields_bind (Run.yields_print _) ?_
  split
  · exact Run.yields_bind (Run.yields_warn _) (Run.yields_pure 0)
  · exact Run.yields_pure 0

theorem keeps_isYes (given : Bool) (question : String) : Run.Keeps (isYes given question) := by
  unfold isYes
  split
  · exact Run.keeps_pure _
  · refine Run.keeps_bind (Run.keeps_printText _) fun _ => Run.keeps_bind Run.keeps_get fun _ =>
      Run.keeps_bind ?_ fun _ => Run.keeps_pure _
    exact fun _ => rfl

/-! ## Commands that end well -/

/-- A failure either ends a command with a message and the status one, or is passed on. -/
theorem run_eq (command : Command) (w : World) : s.run command w =
    match s.execute command w with
    | .ok n w' => .ok n w'
    | .error failure w' =>
      if failure.isReported then
        .ok 1 { w' with warned := w'.warned ++ ("Error: " ++ failure.message.getD "").toList ++ ['\n'] }
      else .error failure w' := by
  unfold run
  cases hrun : s.execute command w with
  | ok n w' =>
    have htried := Run.bind_of_eq_ok (f := fun n => (pure (Except.ok n) : Run (Except Nat Nat))) hrun
    exact (Run.bind_of_eq_ok (Run.tryCatch_of_eq_ok htried)).trans rfl
  | error failure w' =>
    have htried := Run.bind_of_eq_error (f := fun n => (pure (Except.ok n) : Run (Except Nat Nat))) hrun
    refine (Run.bind_congr (Run.tryCatch_of_eq_error htried) _).trans ?_
    dsimp only
    split
    · rfl
    · rfl

theorem of_run_eq_zero {command : Command} (h : s.run command w = .ok 0 w') :
    s.execute command w = .ok 0 w' := by
  rw [run_eq] at h
  split at h
  · rename_i n w₁ hrun
    rw [hrun, h]
  · split at h <;> cases h

theorem of_restoreListed_eq_ok {folder : Path} {m : Manifest} {n : Nat}
    (h : s.restoreListed folder m w = .ok n w') :
    ∃ summary w₁ w₂, Restoring.restoreAll s.registry folder m w = .ok summary w₁ ∧
      Ledger.delete folder w₁ = .ok () w₂ ∧ w'.disk = w₂.disk := by
  obtain ⟨summary, w₁, hrestored, h⟩ := Run.bind_eq_ok.mp h
  obtain ⟨_, w₂, hdeleted, h⟩ := Run.bind_eq_ok.mp h
  exact ⟨summary, w₁, w₂, hrestored, hdeleted, (Run.keeps_of_yields (yields_restored summary)).disk_eq h⟩

theorem restoreListed_eq_ok {folder : Path} {m : Manifest} {summary : Summary} {w₁ w₂ : World}
    (hrestored : Restoring.restoreAll s.registry folder m w = .ok summary w₁)
    (hdeleted : Ledger.delete folder w₁ = .ok () w₂) :
    ∃ w', s.restoreListed folder m w = .ok 0 w' ∧ w'.disk = w₂.disk := by
  obtain ⟨w', hend, hdisk⟩ := yields_restored summary w₂
  refine ⟨w', ?_, hdisk⟩
  exact (Run.bind_of_eq_ok hrestored).trans ((Run.bind_of_eq_ok hdeleted).trans hend)

/-- What was found is shown, and then the command either goes on or changes nothing. -/
theorem of_afterPreview_eq_ok {scans : List FileScan} {yes : Bool} {goOn : Run Nat} {n : Nat}
    (h : afterPreview scans yes goOn w = .ok n w') :
    w'.disk = w.disk ∨ ∃ w₁ : World, w₁.disk = w.disk ∧ goOn w₁ = .ok n w' := by
  unfold afterPreview at h
  split at h
  · exact .inl ((Run.keeps_of_yields yields_nothingFound).disk_eq h)
  · obtain ⟨_, w₁, hshown, h⟩ := Run.bind_eq_ok.mp h
    obtain ⟨agreed, w₂, hasked, h⟩ := Run.bind_eq_ok.mp h
    have hdisk : w₂.disk = w.disk := ((keeps_isYes _ _).disk_eq hasked).trans
      ((Run.keeps_of_yields (yields_preview scans)).disk_eq hshown)
    split at h
    · exact .inr ⟨w₂, hdisk, h⟩
    · obtain ⟨_, w₃, hprinted, hend⟩ := Run.bind_eq_ok.mp h
      cases hend
      exact .inl (((Run.keeps_print _).disk_eq hprinted).trans hdisk)

/-- Who agrees beforehand is not asked. -/
theorem afterPreview_eq_ok {scans : List FileScan} {goOn : Run Nat} {P : Disk → Prop} (hsame : P w.disk)
    (hgoOn : ∀ w₁ : World, w₁.disk = w.disk → ∃ w', goOn w₁ = .ok 0 w' ∧ P w'.disk) :
    ∃ w', afterPreview scans true goOn w = .ok 0 w' ∧ P w'.disk := by
  unfold afterPreview
  split
  · obtain ⟨w', hrun, hdisk⟩ := yields_nothingFound w
    exact ⟨w', hrun, hdisk ▸ hsame⟩
  · obtain ⟨w₁, hshown, hdisk⟩ := yields_preview scans w
    obtain ⟨w', hrun, hw'⟩ := hgoOn w₁ hdisk
    exact ⟨w', (Run.bind_of_eq_ok hshown).trans hrun, hw'⟩

/-- The folder whose ledger a restoration reads. -/
def ledgerRoot (a : RestoreArguments) : String := if a.folder.isEmpty then a.root else a.folder

theorem restore_eq {a : RestoreArguments} {root : Path} {config : Config} (hroot : s.Names a.root root)
    (hfolder : a.folder.isEmpty = true) (hconfig : Settings.load root w = .ok config w') :
    s.restore a w = (do
      match ← Ledger.load s.now root with
      | none =>
        if a.recover then s.recoverByGlobs a config root
        else
          Run.print "No manifest found. Nothing to restore."
          Run.print ("Looked in: " ++ (Ledger.folder root).text)
          return 0
      | some m =>
        let _ ← Run.ofExcept (Profile.ofConfig (config.overlay [("mode", m.mode)]))
        if a.recover then
          Run.print "[*] Recovery mode: scanning for injected lines..."
          let scans ← Restoring.scanAll s.registry root m
          afterPreview scans a.yes (s.restoreListed root m)
        else s.restoreListed root m) w' := by
  rw [restore, Run.bind_of_eq_ok (resolve_eq_ok hroot), Run.bind_of_eq_ok hconfig]
  simp only [hfolder]
  rfl

/-- With a ledger it depends on the settings alone whether a restoration is refused. -/
theorem restore_of_ledger {a : RestoreArguments} {root : Path} {config : Config} {m : Manifest}
    (hroot : s.Names a.root root) (hfolder : a.folder.isEmpty = true) (hplain : a.recover = false)
    (hconfig : Settings.load root w = .ok config w')
    (hload : Ledger.load s.now root w' = .ok (some m) w') :
    s.restore a w = match Profile.ofConfig (config.overlay [("mode", m.mode)]) with
      | .ok _ => s.restoreListed root m w'
      | .error e => .error e w' := by
  rw [restore_eq hroot hfolder hconfig, Run.bind_of_eq_ok hload]
  simp only [hplain, Bool.false_eq_true, if_false, Run.ofExcept_bind]
  cases Profile.ofConfig (config.overlay [("mode", m.mode)]) <;> rfl

/-- A restoration of a project with a ledger changes nothing, or it takes the injection back and
removes the ledger. -/
theorem of_restore_eq_ok {a : RestoreArguments} {folder : Path} {m : Manifest} {n : Nat}
    (hfolder : s.Names (ledgerRoot a) folder) (hload : Ledger.load s.now folder w = .ok (some m) w)
    (h : s.restore a w = .ok n w') :
    w'.disk = w.disk ∨ ∃ w₀ : World, w₀.disk = w.disk ∧ s.restoreListed folder m w₀ = .ok n w' := by
  obtain ⟨root, w₁, hroot, hrest⟩ := Run.bind_eq_ok.mp h
  obtain rfl : w₁ = w := by
    unfold resolve at hroot
    split at hroot <;> cases hroot
    rfl
  obtain ⟨config, w₂, hconfig, hnext⟩ := Run.bind_eq_ok.mp hrest
  have hdisk := Settings.keeps_load hconfig
  -- both ways to name the folder lead to the ledger
  have hnamed : ∀ {goOn : Path → Run Nat}, (if a.folder.isEmpty = true then goOn root else
      s.resolve a.folder >>= goOn) w₂ = .ok n w' → goOn folder w₂ = .ok n w' := by
    intro goOn hgoOn
    unfold ledgerRoot at hfolder
    split at hgoOn
    next hempty =>
      rw [if_pos hempty] at hfolder
      rwa [← (of_resolve_eq_ok hfolder hroot).1]
    next hempty =>
      rw [if_neg hempty] at hfolder
      rwa [Run.bind_of_eq_ok (resolve_eq_ok hfolder)] at hgoOn
  replace h := hnamed hnext
  beta_reduce at h
  rw [Run.bind_of_eq_ok ((Ledger.of_load_eq_some hload).2 w₂ hdisk)] at h
  obtain ⟨profile, w₄, hprofile, hgo⟩ := Run.bind_eq_ok.mp h
  obtain ⟨-, rfl⟩ := Run.ofExcept_eq_ok.mp hprofile
  by_cases hrecover : a.recover = true
  · simp only [hrecover, if_true] at hgo
    obtain ⟨_, w₅, hprinted, hgo⟩ := Run.bind_eq_ok.mp hgo
    obtain ⟨scans, w₆, hscanned, hgo⟩ := Run.bind_eq_ok.mp hgo
    have hdisk' : w₆.disk = w₁.disk := ((Restoring.keeps_scanListed _ _ _).disk_eq hscanned).trans
      (((Run.keeps_print _).disk_eq hprinted).trans hdisk)
    rcases of_afterPreview_eq_ok hgo with hsame | ⟨w₇, hsame, hrestored⟩
    · exact .inl (hsame.trans hdisk')
    · exact .inr ⟨w₇, hsame.trans hdisk', hrestored⟩
  · simp only [hrecover, Bool.false_eq_true, if_false] at hgo
    exact .inr ⟨w₄, hdisk, hgo⟩

end Surroundings
end DelayInjection
