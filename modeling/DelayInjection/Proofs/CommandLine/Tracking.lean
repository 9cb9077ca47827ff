import DelayInjection.Proofs.CommandLine.Invariant

/-! Whether what an injection changed is listed when the command ends, however it ends. -/

namespace DelayInjection

open Disk (Node Path)
open Discovery (fileOf found)
open Restoring (oneFile oneFileRoot)
open Text.Utf8 (Bytes encode)

namespace Surroundings

variable {s : Surroundings} {w w₁ : World}

/-- If nothing stands where an injection puts its ledger and its support modules, then a file that it
changed is listed, and a command that fails has changed none. -/
theorem listed_of_changed (hregistry : s.registry = Program.registry) (hpicked : IsShort s.picked)
    {root : Path} {above : List String} {entries : List (String × Node)}
    (h : IsFresh w.disk root above entries) {config : Config}
    (hconfig : Settings.load root w = .ok config w₁) {a : InjectArguments}
    (hroot : s.Names a.root root)
    (hsuits : ∀ plan, s.planOf config a = .ok plan → plan.Suits w.disk root) :
    ∃ m?, (∀ now, Ledger.load now root (Run.left (s.run (.inject a)) w) =
        .ok m? (Run.left (s.run (.inject a)) w)) ∧
      ((∀ w', s.run (.inject a) w ≠ .ok 0 w') → m? = none) ∧
      ∀ names bytes, (Node.folder entries).at? names = some (.file bytes) →
        (Run.left (s.run (.inject a)) w).disk.read (root.join ⟨false, names⟩) ≠ .ok bytes →
        fileOf names ∈ Manifest.listed m? := by
  have hconfig' := Settings.exists_load_eq_ok hconfig
  rcases inject_of_isClean h hregistry hpicked hconfig' hroot hsuits h.isClean with
    ⟨e, w', hrun, hclean⟩ | ⟨plan, w', hplan, hrun, hholds⟩
  · have hleft : (Run.left (s.run (.inject a)) w).disk = w'.disk := by
      rw [left_run, Run.left, show s.execute (.inject a) = s.inject a from rfl, hrun]
    rw [← hleft] at hclean
    refine ⟨none, fun now => hclean.load h now, fun _ => rfl, fun names bytes hat hchanged => ?_⟩
    have haccounts : Accounts root entries none none _ := hclean.accounts h
    rcases haccounts.files names bytes hat with ⟨-, hread⟩ | ⟨hlisted, -⟩
    · exact absurd hread hchanged
    · exact hlisted
  · have hrun' : s.run (.inject a) w = .ok 0 w' := by
      rw [run_eq, show s.execute (.inject a) = s.inject a from rfl, hrun]
    rw [Run.left_of_eq_ok hrun']
    obtain ⟨m?, hload, haccounts⟩ := hholds.accounts h
    refine ⟨m?, hload, fun hfailed => absurd hrun' (hfailed w'), fun names bytes hat hchanged => ?_⟩
    rcases haccounts.files names bytes hat with ⟨-, hread⟩ | ⟨hlisted, -⟩
    · exact absurd hread hchanged
    · exact hlisted

theorem inject_oneFile : ∃ w w' m, w.disk = oneFile oneSource ∧
    atRoot.run (.inject injectOneFile) w = .ok 0 w' ∧
    Ledger.load "" oneFileRoot w' = .ok (some m) w' := by
  let w : World := { disk := oneFile oneSource }
  obtain ⟨w₀, hwarned, hw₀⟩ := Run.yields_warn ("[*] Injecting into " ++ oneFileRoot.text ++ " ...") w
  obtain ⟨p, w₁, path, w₂, is, modules, hinjected, hsaved, hone, hmarked⟩ :=
    @exists_marked_oneFile "" w₀ hw₀
  have hfiles : p.manifest.files.isEmpty = false := by
    cases hnil : p.manifest.files with
    | nil => rw [hnil] at hone; cases hone
    | cons f files => rfl
  obtain ⟨w', hrun, hw'⟩ := @injectInto_of_saved oneFileRoot w atRoot rfl onePlan p path w₀ w₁ w₂ hwarned
    hinjected hfiles hsaved
  have hclean : IsClean (oneFile oneSource) ["p"] oneEntries w.disk := isFresh_oneFile.isClean
  rw [← hw'] at hmarked
  refine ⟨w, w', p.manifest, rfl, ?_, hmarked.load isFresh_oneFile ""⟩
  have hinject : atRoot.inject injectOneFile w = .ok 0 w' := by
    rw [inject_eq names_atRoot (settings_oneFile rfl), planOf_oneFile]
    dsimp only
    rw [Run.bind_of_eq_ok (hclean.load isFresh_oneFile atRoot.now)]
    exact hrun
  rw [run_eq, show atRoot.execute (.inject injectOneFile) = atRoot.inject injectOneFile from rfl, hinject]

theorem listed_of_changed_of_async_def : ∃ w m?, w.disk = oneFile oneSource ∧
    Ledger.load "" oneFileRoot (Run.left (atRoot.run (.inject injectOneFile)) w) =
      .ok m? (Run.left (atRoot.run (.inject injectOneFile)) w) ∧
    ((Run.left (atRoot.run (.inject injectOneFile)) w).disk.read (oneFileRoot.child "a.py") ≠
      .ok (encode oneSource) → "a.py" ∈ Manifest.listed m?) := by
  let w : World := { disk := oneFile oneSource }
  have hsuits : ∀ plan, atRoot.planOf Config.defaults injectOneFile = .ok plan →
      plan.Suits w.disk oneFileRoot := by
    intro plan hplan
    cases planOf_oneFile.symm.trans hplan
    exact suits_oneFile _ _
  obtain ⟨m?, hload, -, hlisted⟩ := @listed_of_changed atRoot w _ rfl picked_atRoot _ _ _
    isFresh_oneFile _ (settings_oneFile rfl) _ names_atRoot hsuits
  refine ⟨w, m?, rfl, hload "", fun hchanged => ?_⟩
  have hmem := hlisted ["a.py"] _ rfl hchanged
  rwa [Restoring.fileOf_oneFile] at hmem

end Surroundings
end DelayInjection
