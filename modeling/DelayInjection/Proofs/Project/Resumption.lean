import DelayInjection.Main
import DelayInjection.Proofs.Project.Removal

/-! Restoration that was cut short and is started again. The files that it came to are clean by then, and to
restore a clean file changes nothing, so that the new run ends where one run would have ended that nothing
had stopped. -/

namespace DelayInjection

open Disk (Path)
open Recovery (InkedOpenings)
open Text.Utf8 (encode)

/-- The comments of all languages open without blanks and marks. -/
def Registry.IsInked (registry : Registry) : Prop :=
  ∀ e ∈ registry.adapters, InkedOpenings e.2.classifier

theorem Program.isInked_registry : Program.registry.IsInked := by
  have hall : (Program.registry.adapters.all fun e => e.2.classifier.commentOpenings.all fun o =>
      o.toList.all fun c => !Text.isBlank c && c != Text.mark) = true := by
    decide +kernel
  intro e he o ho c hc
  simpa using List.all_eq_true.mp
    (List.all_eq_true.mp (List.all_eq_true.mp hall e he) o ho) c hc

namespace Restoring

variable {registry : Registry} {root : Path} {m : Manifest} {v v₁ w w' : World} {s s' : Summary}

/-- A run on the world stopped and left the other one: it failed, or it was cut off behind some of the
records. -/
def Stopped (registry : Registry) (root : Path) (m : Manifest) (w w' : World) : Prop :=
  (∃ e, restoreAll registry root m w = .error e w') ∨
    ∃ done rest s, m.files = done ++ rest ∧ restoreListed registry root m {} done w = .ok s w'

theorem inkedOpenings_of_mem (hinked : registry.IsInked) {files : List (String × FileRecord)} {q : Aim}
    (hq : q ∈ listedAims registry files) : InkedOpenings q.adapter.classifier := by
  obtain ⟨record, -, hadapter⟩ := mem_listedAims_iff.mp hq
  cases hid : record.adapterId with
  | str id =>
    rw [hid] at hadapter
    obtain ⟨before, behind, hadapters, -⟩ := List.lookup_eq_some_iff.mp (Except.ok.inj hadapter)
    refine hinked (id, q.adapter) ?_
    rw [hadapters]
    simp
  | _ =>
    rw [hid] at hadapter
    cases hadapter

/-- All removals behind a first part of them end as all removals do. -/
theorem restored_again (hinked : registry.IsInked) {d : Disk} (hformed : d.root.isFormed = true)
    {done rest : List (String × FileRecord)}
    (hadmits : ∀ f ∈ done ++ rest, Admits registry root d f) :
    Aim.restored root (Aim.restored root d (listedAims registry done)) (listedAims registry (done ++ rest)) =
      Aim.restored root d (listedAims registry (done ++ rest)) := by
  have hself : Aim.restored root (Aim.restored root d (listedAims registry done)) (listedAims registry done) =
      Aim.restored root d (listedAims registry done) :=
    Aim.restored_eq_self (Aim.isFormed_restored hformed _)
      (plain_of_admits fun f hf => hadmits f (List.mem_append_left _ hf))
      fun q hq => Aim.scan_restored (inkedOpenings_of_mem hinked hq) hq
  rw [listedAims_append, Aim.restored_append, hself, Aim.restored_append]

/-- Whatever stopped a run, it left the removals for a first part of the records. -/
theorem exists_restored_of_stopped (hformed : v.disk.root.isFormed = true)
    (h : restoreAll registry root m v = .ok s v₁) (hroot : w.disk.root = v.disk.root)
    (hstopped : Stopped registry root m w w') :
    ∃ done rest, m.files = done ++ rest ∧
      w'.disk.root = (Aim.restored root v.disk (listedAims registry done)).root := by
  have hformed' : w.disk.root.isFormed = true := hroot ▸ hformed
  have hsame : ∀ aims, (Aim.restored root w.disk aims).root = (Aim.restored root v.disk aims).root :=
    fun aims => by rw [Aim.restored_of_root_eq hroot aims]
  rcases hstopped with ⟨e, hfailed⟩ | ⟨done, rest, s', hfiles, hdone⟩
  · cases hlisted : restoreListed registry root m {} m.files w with
    | error e' w₁ =>
      obtain ⟨done, rest, hfiles, hleft⟩ :=
        @exists_left_restoreListed registry root m w m.files hformed' {}
      rw [Run.left, hlisted] at hleft
      cases (Run.bind_of_eq_error hlisted).symm.trans hfailed
      exact ⟨done, rest, hfiles, (congrArg Disk.root hleft).trans (hsame _)⟩
    | ok s₁ w₁ =>
      -- the support modules can be removed in both worlds, so it was not there that the run failed
      obtain ⟨v₂, hlisted', hremoved⟩ := restoreAll_eq_ok_iff.mp h
      have hroot₁ : w₁.disk.root = v₂.disk.root := by
        rw [(of_restoreListed hformed' hlisted).1, (of_restoreListed hformed hlisted').1, hsame]
      obtain ⟨w₂, hremoved', -⟩ := removeSupport_of_root_eq hremoved hroot₁
      cases (restoreAll_eq_ok_iff.mpr ⟨w₁, hlisted, hremoved'⟩).symm.trans hfailed
  · exact ⟨done, rest, hfiles, (congrArg Disk.root (of_restoreListed hformed' hdone).1).trans (hsame _)⟩

/-- A run on what another one left behind a first part of the records ends where one run ends. -/
theorem restoreAll_of_left (hinked : registry.IsInked) (hformed : v.disk.root.isFormed = true)
    (h : restoreAll registry root m v = .ok s v₁) {done rest : List (String × FileRecord)}
    (hfiles : m.files = done ++ rest)
    (hw : w.disk = Aim.restored root v.disk (listedAims registry done)) :
    ∃ s' w', restoreAll registry root m w = .ok s' w' ∧ w'.disk = v₁.disk := by
  obtain ⟨v₂, hlisted, hremoved⟩ := restoreAll_eq_ok_iff.mp h
  have hadmits := admits_of_restoreListed hformed hlisted
  have hdisk := (of_restoreListed hformed hlisted).1
  have hformed' : w.disk.root.isFormed = true := hw ▸ Aim.isFormed_restored hformed _
  obtain ⟨s₃, w₃, hlisted', hdisk', -⟩ := restoreListed_of_admits (m := m) hformed'
    (fun f hf => hw ▸ (hadmits f hf).restored _) {}
  have hsame : w₃.disk = v₂.disk := by
    rw [hfiles] at hadmits hdisk hdisk'
    rw [hdisk', hw, restored_again hinked hformed hadmits, hdisk]
  obtain ⟨w', hremoved', hend⟩ := removeSupport_of_root_eq hremoved (congrArg Disk.root hsame)
  refine ⟨s₃, w', restoreAll_eq_ok_iff.mpr ⟨w₃, hlisted', hremoved'⟩, ?_⟩
  dsimp only at hend
  rw [hend, hsame, ← (of_removeSupport hremoved).1]

/-- A run that came to its end left nothing to be found, whether the files are still there or not. -/
theorem restoreAll_again (hinked : registry.IsInked) (hformed : v.disk.root.isFormed = true)
    (h : restoreAll registry root m v = .ok s v₁) (hw : w.disk = v₁.disk) :
    ∃ s' w', restoreAll registry root m w = .ok s' w' ∧ w'.disk = v₁.disk ∧ s'.lines = 0 := by
  obtain ⟨v₂, hlisted, hremoved⟩ := restoreAll_eq_ok_iff.mp h
  have hadmits := admits_of_restoreListed hformed hlisted
  have hdisk := (of_restoreListed hformed hlisted).1
  obtain ⟨hlocked, hsheds, -⟩ := of_removeSupport hremoved
  have hformed₂ : v₂.disk.root.isFormed = true := hdisk ▸ Aim.isFormed_restored hformed _
  have hformed' : w.disk.root.isFormed = true := hw ▸ isFormed_removeSupport hformed₂ hremoved
  have hadmits' : ∀ f ∈ m.files, Admits registry root w.disk f := fun f hf =>
    ⟨(hadmits f hf).adapter, fun a ha => hw ▸
      (hdisk ▸ ((hadmits f hf).isOpen a ha).restored _).of_sheds hsheds hlocked⟩
  have hplain := plain_of_admits hadmits'
  have hclean : ∀ q ∈ listedAims registry m.files, q.scan root w.disk = [] := by
    intro q hq
    refine Aim.scan_eq_nil_iff.mpr fun text htext => ?_
    rw [hw] at htext
    have hscan := @Aim.scan_restored root v.disk q _ (inkedOpenings_of_mem hinked hq) hq
    rw [← hdisk] at hscan
    exact Aim.scan_eq_nil_iff.mp hscan text (Run.textAt_of_sheds hsheds htext)
  obtain ⟨s₃, w₃, hlisted', hdisk', hlines⟩ := restoreListed_of_admits (m := m) hformed' hadmits' {}
  rw [Aim.restored_eq_self hformed' hplain hclean] at hdisk'
  rw [Aim.scansOnWay_eq_nil hformed' hplain hclean] at hlines
  obtain ⟨w', hremoved', hend⟩ := removeSupport_again hremoved (hdisk'.trans hw)
  exact ⟨s₃, w', restoreAll_eq_ok_iff.mpr ⟨w₃, hlisted', hremoved'⟩, hend.trans (hdisk'.trans hw), hlines⟩

/-- A run that is started again where another one stopped ends on the disk on which one run ends that
nothing stops. A run that is started again behind such a run changes nothing and takes out no line. -/
theorem restoreAll_of_stopped (hinked : registry.IsInked) (hformed : v.disk.root.isFormed = true)
    (h : restoreAll registry root m v = .ok s v₁) :
    (∀ w w', w.disk.root = v.disk.root → Stopped registry root m w w' →
      ∀ v' : World, v'.disk = { v.disk with root := w'.disk.root } →
        ∃ s' v'', restoreAll registry root m v' = .ok s' v'' ∧ v''.disk = v₁.disk) ∧
    ∀ v' : World, v'.disk = v₁.disk →
      ∃ s' v'', restoreAll registry root m v' = .ok s' v'' ∧ v''.disk = v₁.disk ∧ s'.lines = 0 := by
  refine ⟨fun w w' hroot hstopped v' hv' => ?_, fun v' hv' => restoreAll_again hinked hformed h hv'⟩
  obtain ⟨done, rest, hfiles, hleft⟩ := exists_restored_of_stopped hformed h hroot hstopped
  refine restoreAll_of_left hinked hformed h hfiles ?_
  rw [hv', hleft]
  rfl

/-- Two marked scripts, and a support module beside them. -/
def twoScripts (locked : List (List String)) : Disk where
  root := .folder [("a.py", .file (encode "f()\n# jt92-se2j!\n".toList)),
    ("b.py", .file (encode "# jt92-se2j!\ng()\n".toList)), ("flake_monster_runtime.py", .file [])]
  locked := locked

/-- A ledger that lists one of the scripts twice, under two names and for two languages. -/
def threeRecords : Manifest :=
  let record (id : String) : FileRecord := ⟨.str id, .null, .null, [], false⟩
  { Manifest.start "" .null .null with
    files := [("a.py", record "python"), ("./a.py", record "javascript"), ("b.py", record "python")]
    supportFiles := [.str "flake_monster_runtime.py"] }

/-- The run that is stopped by the locked script is taken up where it stopped. -/
theorem restoreAll_of_stopped_of_locked :
    Program.registry.IsInked ∧ (twoScripts []).root.isFormed = true ∧ ∃ s v₁ e w',
      restoreAll Program.registry ⟨true, []⟩ threeRecords { disk := twoScripts [] } = .ok s v₁ ∧
      s.lines = 2 ∧
      restoreAll Program.registry ⟨true, []⟩ threeRecords { disk := twoScripts [["b.py"]] } =
        .error e w' ∧
      (∃ s' v'', restoreAll Program.registry ⟨true, []⟩ threeRecords
        { disk := { root := w'.disk.root } } = .ok s' v'' ∧ v''.disk = v₁.disk) ∧
      ∃ s' v'', restoreAll Program.registry ⟨true, []⟩ threeRecords { disk := v₁.disk } = .ok s' v'' ∧
        v''.disk = v₁.disk ∧ s'.lines = 0 := by
  have hformed : (twoScripts []).root.isFormed = true := by decide +kernel
  have hlines : (Run.value? (restoreAll Program.registry ⟨true, []⟩ threeRecords
      { disk := twoScripts [] })).map (·.lines) = some 2 := by decide +kernel
  have hnone : (Run.value? (restoreAll Program.registry ⟨true, []⟩ threeRecords
      { disk := twoScripts [["b.py"]] })).isNone = true := by decide +kernel
  obtain ⟨s, v₁, hrun, hcount⟩ := Run.exists_of_value? hlines
  obtain ⟨e, w', hfailed⟩ := Run.exists_of_value?_eq_none hnone
  obtain ⟨hstopped, hagain⟩ := restoreAll_of_stopped Program.isInked_registry hformed hrun
  have hresumed := hstopped { disk := twoScripts [["b.py"]] } w' rfl (.inl ⟨e, hfailed⟩)
    { disk := { root := w'.disk.root } } rfl
  have hrepeated := hagain { disk := v₁.disk } rfl
  exact ⟨Program.isInked_registry, hformed, s, v₁, e, w', hrun, hcount, hfailed, hresumed, hrepeated⟩

end Restoring
end DelayInjection
