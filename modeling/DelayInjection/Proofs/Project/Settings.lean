import DelayInjection.Project.Settings
import DelayInjection.Proofs.Json.Members
import DelayInjection.Proofs.Project.World

/-! Settings depend on the texts of two files of the project and on nothing else. -/

namespace DelayInjection

open Disk (Node Path)
open Text.Utf8 (Bytes)

namespace Settings

theorem membersOf_congr {path : Path} {w w' : World}
    (htext : Run.textAt path w.disk = Run.textAt path w'.disk) {members : Option (List (String × Json))}
    {w₁ : World} (hrun : membersOf path w = .ok members w₁) :
    w₁.disk = w.disk ∧ ∃ w₁', membersOf path w' = .ok members w₁' ∧ w₁'.disk = w'.disk := by
  have hlook : ∀ w, Run.look (Run.textAt path) w = .ok (Run.textAt path w.disk) w := fun _ => rfl
  rw [membersOf, Run.bind_of_eq_ok (hlook w), htext] at hrun
  rw [membersOf, Run.bind_of_eq_ok (hlook w')]
  cases htext' : Run.textAt path w'.disk with
  | error failure =>
    rw [htext'] at hrun
    cases failure with
    | disk e =>
      simp only at hrun ⊢
      split at hrun <;> cases hrun
      · rw [if_pos ‹_›]
        exact ⟨rfl, _, rfl, rfl⟩
      · rw [if_neg ‹_›]
        exact ⟨rfl, _, rfl, rfl⟩
    | _ => cases hrun
  | ok text =>
    rw [htext'] at hrun
    simp only at hrun ⊢
    cases hparse : Json.parse (Run.unifyNewlines text) with
    | error e =>
      rw [hparse] at hrun
      cases e with
      | number digits => cases hrun
      | syntaxAt fault position =>
        cases hrun
        exact ⟨rfl, _, rfl, rfl⟩
    | ok value =>
      rw [hparse] at hrun
      cases value <;> cases hrun <;> exact ⟨rfl, _, rfl, rfl⟩

theorem forIn_warn_eq_ok (text : String → String) (keys : List String) (w : World) :
    ∃ w', (forIn keys PUnit.unit fun key _ => do
        Run.warn (text key)
        pure (ForInStep.yield PUnit.unit) : Run PUnit) w = .ok PUnit.unit w' ∧ w'.disk = w.disk := by
  induction keys generalizing w with
  | nil => exact ⟨w, rfl, rfl⟩
  | cons key keys ih =>
    have hwarn : Run.warn (text key) w = .ok () _ := rfl
    obtain ⟨w', hrest, hdisk⟩ := ih { w with warned := w.warned ++ (text key).toList ++ ['\n'] }
    refine ⟨w', ?_, hdisk⟩
    rw [List.forIn_cons]
    exact (Run.bind_congr (Run.bind_of_eq_ok hwarn) _).trans hrest

theorem loadFrom_congr {root : Path} {names : List String} {w w' : World}
    (htext : ∀ name ∈ names, Run.textAt (root.child name) w.disk =
      Run.textAt (root.child name) w'.disk) {config : Config} {w₁ : World}
    (hrun : loadFrom root names w = .ok config w₁) :
    w₁.disk = w.disk ∧ ∃ w₁', loadFrom root names w' = .ok config w₁' ∧ w₁'.disk = w'.disk := by
  induction names generalizing w w' with
  | nil =>
    cases hrun
    exact ⟨rfl, w', rfl, rfl⟩
  | cons name names ih =>
    obtain ⟨members, w₂, hmembers, hrest⟩ := Run.bind_eq_ok.mp hrun
    obtain ⟨hdisk, w₂', hmembers', hdisk'⟩ := membersOf_congr (htext name (by simp)) hmembers
    rw [loadFrom, Run.bind_of_eq_ok hmembers']
    cases members with
    | none =>
      obtain ⟨hend, w₁', hend', hdisk₁⟩ := @ih w₂ w₂'
        (fun n hn => by rw [hdisk, hdisk', htext n (by simp [hn])]) hrest
      exact ⟨hend.trans hdisk, w₁', hend', hdisk₁.trans hdisk'⟩
    | some members =>
      simp only at hrest ⊢
      obtain ⟨w₃, hwarned, hdisk₃⟩ := forIn_warn_eq_ok
        (fun key => "[~] Ignoring unknown key \"" ++ key ++ "\" in " ++ (root.child name).text)
        (Config.normalize members).2 w₂
      obtain ⟨w₃', hwarned', hdisk₃'⟩ := forIn_warn_eq_ok
        (fun key => "[~] Ignoring unknown key \"" ++ key ++ "\" in " ++ (root.child name).text)
        (Config.normalize members).2 w₂'
      rw [Run.bind_of_eq_ok hwarned] at hrest
      cases hrest
      exact ⟨hdisk₃.trans hdisk, w₃', Run.bind_of_eq_ok hwarned', hdisk₃'.trans hdisk'⟩

/-- Settings name each key once. -/
theorem nodup_of_loadFrom {root : Path} {names : List String} {w w₁ : World} {config : Config}
    (hrun : loadFrom root names w = .ok config w₁) : (config.map (·.1)).Nodup := by
  induction names generalizing w with
  | nil =>
    cases hrun
    decide
  | cons name names ih =>
    obtain ⟨members, w₂, -, hrest⟩ := Run.bind_eq_ok.mp hrun
    cases members with
    | none => exact ih hrest
    | some members =>
      obtain ⟨_, w₃, -, hend⟩ := Run.bind_eq_ok.mp hrest
      cases hend
      exact Json.nodup_ofPairs _

/-- Files that are not settings, and entries behind those of the project, do not count. -/
theorem load_overlaid {d : Disk} {root : Path} {above : List String}
    {entries others : List (String × Node)} {content : List String → Bytes → Bytes}
    (h : IsProject d root above entries)
    (hcontent : ∀ name ∈ Config.fileNames, ∀ bytes, entries.lookup name = some (.file bytes) →
      content [name] bytes = bytes)
    (hothers : ∀ name ∈ Config.fileNames, others.lookup name = none) {config : Config} {w w₁ w' : World}
    (hw : w.disk = d) (hrun : load root w = .ok config w₁)
    (hw' : w'.disk = d.overlaid above content entries others) :
    ∃ w₁', load root w' = .ok config w₁' ∧ w₁'.disk = w'.disk := by
  refine (loadFrom_congr (fun name hname => ?_) hrun).2
  have hproper : name ≠ ".." := by
    have hall : ∀ n ∈ Config.fileNames, n ≠ ".." := by decide
    exact hall name hname
  rw [Run.textAt, Run.textAt, Run.bytesAt, Run.bytesAt, hw, hw',
    h.leads.read_child_overlaid hproper (hcontent name hname) (hothers name hname)]

end Settings
end DelayInjection
