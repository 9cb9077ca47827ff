import DelayInjection.Proofs.Idempotence
import DelayInjection.Proofs.Project.Independence
import DelayInjection.Proofs.Project.Removal
import DelayInjection.Proofs.Project.Selection
import Mathlib.Data.List.Sort

/-! Two scans behind a run of injection, one of the files in its ledger and one of the files that its own
patterns find. The search goes over a changed tree, but nothing came that an adapter handles, so it finds
the same files in the same order. A file that the run wrote holds something to be found, and a file that it
passed over holds what it held before, which was nothing. -/

namespace DelayInjection

open Disk (Node Path)
open Disk.Node (isFormedIn overlayIn)
open Discovery (fileOf found)
open Restoring (FileScan foundAims listedAims)
open Text.Utf8 (Bytes encode)

namespace Discovery

variable {f : Filter} {entries entries' : List (String × Node)} {touched : List String → Prop}

/-- Whether a file is found does not depend on what happens at other paths. -/
theorem mem_found_of_agreesOff (hformed : isFormedIn entries = true) (hformed' : isFormedIn entries' = true)
    (h : (Node.folder entries).AgreesOff touched (.folder entries')) {file : String}
    (hnot : ∀ names, file = fileOf names → ¬touched names) :
    file ∈ found f entries' ↔ file ∈ found f entries := by
  rw [mem_found_iff hformed, mem_found_iff hformed']
  constructor
  · rintro ⟨first, names, bytes, hat, hfile, henters⟩
    exact ⟨first, names, bytes, (h.files _ bytes (hnot _ hfile)).mp hat, hfile, henters⟩
  · rintro ⟨first, names, bytes, hat, hfile, henters⟩
    exact ⟨first, names, bytes, (h.files _ bytes (hnot _ hfile)).mpr hat, hfile, henters⟩

end Discovery

namespace Restoring

variable {registry : Registry} {files files' : List String}

/-- Files in order that differ only in such as no adapter handles have the same aims. -/
theorem foundAims_eq (hfiles : files.Pairwise (· < ·)) (hfiles' : files'.Pairwise (· < ·))
    (hsame : ∀ file a, registry.forFile file = some a → (file ∈ files' ↔ file ∈ files)) :
    foundAims registry files' = foundAims registry files := by
  let before (q q' : Aim) : Prop := q.file < q'.file
  have hirrefl : Std.Irrefl before := ⟨fun q => String.lt_irrefl q.file⟩
  have hantisymm : Std.Antisymm before := ⟨fun _ _ hlt hgt => absurd hgt (String.lt_asymm hlt)⟩
  have hordered : ∀ {files : List String}, files.Pairwise (· < ·) →
      (foundAims registry files).Pairwise before := by
    intro files hfiles
    rw [foundAims, List.pairwise_filterMap]
    refine hfiles.imp fun hlt q hq q' hq' => ?_
    obtain ⟨a, -, rfl⟩ := Option.map_eq_some_iff.mp hq
    obtain ⟨a', -, rfl⟩ := Option.map_eq_some_iff.mp hq'
    exact hlt
  refine (hordered hfiles').eq_of_mem_iff (hordered hfiles) fun q => ?_
  rw [mem_foundAims_iff, mem_foundAims_iff]
  exact and_congr_left fun hadapter => hsame q.file q.adapter hadapter

/-- One listing after the other, if each file has at most one. -/
theorem flatMap_foundAims {scan : Aim → List FileScan} {listed : String → Option FileScan}
    (hsome : ∀ file ∈ files, ∀ a, registry.forFile file = some a → scan ⟨file, a⟩ = (listed file).toList)
    (hnone : ∀ file ∈ files, registry.forFile file = none → listed file = none) :
    (foundAims registry files).flatMap scan = files.filterMap listed := by
  induction files with
  | nil => rfl
  | cons file files ih =>
    have hrest := ih (fun f hf => hsome f (List.mem_cons_of_mem _ hf))
      fun f hf => hnone f (List.mem_cons_of_mem _ hf)
    cases hadapter : registry.forFile file with
    | none =>
      rw [foundAims_cons_of_none hadapter, hrest, List.filterMap_cons, hnone file List.mem_cons_self hadapter]
    | some a =>
      rw [foundAims_cons_of_some hadapter, List.flatMap_cons, hrest,
        hsome file List.mem_cons_self a hadapter, List.filterMap_cons]
      cases listed file with
      | none => rfl
      | some listing => rfl

end Restoring

namespace Injected

/-- What is found in a file into which delays were injected. -/
def listing (i : Injected) : FileScan := ⟨i.file, i.adapter.scan i.result.source⟩

def aim (i : Injected) : Aim := ⟨i.file, i.adapter⟩

end Injected

namespace Injecting.Finished

variable {profile : Profile} {seed : Int} {r : Finished profile seed} {files : List String}
  {file : String} {a : Adapter}

namespace Leaves

variable (h : r.Leaves files)

include h

/-- The same patterns find the same files again, but for some that no adapter handles. -/
theorem exists_discovered_after : ∃ files',
    Discovery.discover r.after.disk r.root r.included r.excluded = .ok files' ∧
      foundAims Program.registry files' = foundAims Program.registry files := by
  obtain ⟨entries', hdisk, hformed, hagrees⟩ := h.disk
  have hkeeps := @Node.keeps_overlayIn (Injected.contentOf (files.filterMap r.injected)) r.entries []
  rw [List.append_nil] at hkeeps
  have hentries : r.after.disk.entriesAt r.root = entries' := by
    rw [hdisk]
    exact r.isProject.leads.entriesAt_holding (hkeeps.trans hagrees.folders)
  obtain ⟨f, hfilter, hfiles⟩ := Discovery.of_discover_eq_ok h.discovered
  rw [r.isProject.entriesAt] at hfiles
  subst hfiles
  refine ⟨Discovery.found f entries', ?_, Restoring.foundAims_eq (Discovery.pairwise_found r.isProject.formed)
    (Discovery.pairwise_found hformed) fun file a hadapter => ?_⟩
  · rw [Discovery.discover_eq, hfilter, hentries]
    rfl
  · have hwritten : isFormedIn (overlayIn (Injected.contentOf
        ((Discovery.found f r.entries).filterMap r.injected)) r.entries) = true := by
      rw [Node.isFormedIn_overlayIn, r.isProject.formed]
    rw [Discovery.mem_found_of_agreesOff hwritten hformed hagrees]
    · rw [Discovery.found, Discovery.found, Discovery.selectedIn_overlayIn]
    · -- what was touched is a support module, and those are handled by no adapter
      rintro names rfl ⟨name, hname, rfl⟩
      rw [fileOf, Disk.slashed_singleton, String.ofList_toList, h.forFile_supportFile hname] at hadapter
      cases hadapter

theorem isPlain_path (hfile : file ∈ files) : (r.pathOf file).IsPlain := by
  obtain ⟨names, bytes, hat, rfl⟩ := h.names file hfile
  rw [pathOf, r.isProject.ofText_fileOf hat]
  exact r.isProject.noZero_join (r.isProject.isProper_names hat).2

theorem isPlain_of_mem_foundAims {q : Aim} (hq : q ∈ foundAims Program.registry files) :
    (q.path r.root).IsPlain :=
  h.isPlain_path (Restoring.mem_foundAims_iff.mp hq).1

/-- What was injected into a found file bears its name, and was done by the adapter that handles it. -/
theorem of_injected_eq_some (hfile : file ∈ files) {i : Injected} (hi : r.injected file = some i) :
    i ∈ files.filterMap r.injected ∧ i.file = file ∧ Program.registry.forFile file = some i.adapter := by
  have hmem : i ∈ files.filterMap r.injected := List.mem_filterMap.mpr ⟨file, hfile, hi⟩
  obtain ⟨names, bytes, hat, rfl⟩ := h.names file hfile
  have hname : i.file = fileOf names := congrArg fileOf (names_of_injectedAt r.isProject hat hi)
  exact ⟨hmem, hname, hname ▸ (h.arises i hmem).forFile⟩

theorem adapterOf_record {i : Injected} (hi : i ∈ files.filterMap r.injected) :
    Restoring.adapterOf Program.registry i.record.adapterId = .ok (some i.adapter) :=
  congrArg Except.ok (Program.consistent_registry.get i.adapter
    (List.mem_of_find?_eq_some (h.arises i hi).forFile))

/-- The records aim at the files that were injected into. -/
theorem listedAims_eq : listedAims Program.registry r.progress.manifest.files =
    (files.filterMap r.injected).map Injected.aim := by
  rw [h.manifest, listedAims, List.filterMap_map, ← List.filterMap_eq_map]
  refine List.filterMap_congr fun i hi => ?_
  rw [Function.comp_apply, h.adapterOf_record hi]
  rfl

section Scanned

variable {refused : Path → Option Disk.Error}
  (hrefused : ∀ path, refused path ≠ none → r.refusal path ≠ none)
  (hclean : ∀ q ∈ foundAims Program.registry files, q.scanUnless refused r.root r.before.disk = [])

include hrefused hclean

/-- Behind the run something is found in a file just if something was injected into it. -/
theorem scan_after (hfile : file ∈ files) (hadapter : Program.registry.forFile file = some a) :
    (⟨file, a⟩ : Aim).scanUnless refused r.root r.after.disk =
      ((r.injected file).map Injected.listing).toList := by
  obtain ⟨bytes, hread, hafter, -⟩ := h.outcome hfile hadapter
  cases hi : r.injected file with
  | none =>
    rw [hi] at hafter
    -- the file is as it was, and nothing was found in it
    have hsame : r.after.disk.read ((⟨file, a⟩ : Aim).path r.root) =
        r.before.disk.read ((⟨file, a⟩ : Aim).path r.root) := hafter.trans hread.symm
    rw [Aim.scanUnless_of_read_eq hsame,
      hclean ⟨file, a⟩ (Restoring.mem_foundAims_iff.mpr ⟨hfile, hadapter⟩)]
    rfl
  | some i =>
    obtain ⟨hmem, hname, hhandled⟩ := h.of_injected_eq_some hfile hi
    cases hadapter.symm.trans hhandled
    -- the run read the file, so it is not refused to the scan
    have hreadable : refused (r.pathOf file) = none := by
      obtain ⟨names, bytes, hat, rfl⟩ := h.names file hfile
      exact Decidable.byContradiction fun hne =>
        hrefused _ hne (refusal_of_injectedAt r.isProject hat hi)
    have htext : Run.textAt (r.pathOf file) r.after.disk = .ok i.result.source := by
      rw [hi] at hafter
      obtain ⟨names, hlocate, hat⟩ := Disk.read_eq_ok.mp hafter
      exact Run.textAt_eq_ok_iff.mpr
        ⟨h.isPlain_path hfile, names, _, hlocate, hat, Text.Utf8.decode_encode _⟩
    have hfound := Adapter.scan_ne_nil_of_inject (h.arises i hmem).inject (h.arises i hmem).points
    have hscan := @Aim.scan_of_text r.root r.after.disk ⟨file, i.adapter⟩ _ htext
    rw [if_neg (by simpa using hfound)] at hscan
    rw [Aim.scanUnless, Aim.path, ← pathOf, hreadable, hscan, ← hname]
    rfl

/-- The patterns list what was injected. -/
theorem scanByGlobsUnless_after :
    Restoring.scanByGlobsUnless refused Program.registry r.root r.included r.excluded r.after =
      .ok ((files.filterMap r.injected).map Injected.listing) r.after := by
  obtain ⟨files', hdiscovered, haims⟩ := h.exists_discovered_after
  have hlisted := Restoring.flatMap_foundAims
    (fun file hfile a hadapter => h.scan_after hrefused hclean hfile hadapter) fun file hfile hnone => by
      cases hi : r.injected file with
      | none => rfl
      | some i =>
        rw [(h.of_injected_eq_some hfile hi).2.2] at hnone
        cases hnone
  rw [Restoring.scanByGlobsUnless_of_discover hdiscovered, Restoring.scanFoundUnless_of_plain, haims,
    hlisted, List.map_filterMap]
  exact fun q hq => h.isPlain_of_mem_foundAims (haims ▸ hq)

/-- The ledger lists what was injected. -/
theorem scanAllUnless_after :
    Restoring.scanAllUnless refused Program.registry r.root r.progress.manifest r.after =
      .ok ((files.filterMap r.injected).map Injected.listing) r.after := by
  have hrecords : ∀ f ∈ r.progress.manifest.files, ∃ i ∈ files.filterMap r.injected,
      (i.file, i.record) = f := fun f hf => List.mem_map.mp (h.manifest ▸ hf)
  have hlisted : ((files.filterMap r.injected).map Injected.aim).flatMap
      (Aim.scanUnless refused r.root r.after.disk) =
        (files.filterMap r.injected).map Injected.listing := by
    rw [← List.flatMap_singleton' ((files.filterMap r.injected).map Injected.listing), List.flatMap_map,
      List.flatMap_map]
    refine List.flatMap_congr fun i hi => ?_
    obtain ⟨hfile, hinjected⟩ := of_mem_injected r.isProject h.names hi
    have hscan := h.scan_after hrefused hclean hfile (h.arises i hi).forFile
    rwa [show r.injected i.file = some i from hinjected] at hscan
  rw [Restoring.scanAllUnless, Restoring.scanListedUnless_of_plain, h.listedAims_eq, hlisted]
  · intro f hf hnull
    obtain ⟨i, -, rfl⟩ := hrecords f hf
    cases hnull
  · intro f hf
    obtain ⟨i, hi, rfl⟩ := hrecords f hf
    exact ⟨_, h.adapterOf_record hi⟩
  · intro q hq
    rw [h.listedAims_eq] at hq
    obtain ⟨i, hi, rfl⟩ := List.mem_map.mp hq
    exact h.isPlain_path (of_mem_injected r.isProject h.names hi).1

end Scanned

end Leaves

/-- Behind a run of injection that began with nothing to be found, the ledger and the patterns list the
same lines of the same files in the same order, and these are the files of the ledger. Paths may be refused
to the scans if they were refused to the run as well. -/
theorem scans_agree (r : Finished profile seed) {refused : Path → Option Disk.Error}
    (hrefused : ∀ path, refused path ≠ none → r.refusal path ≠ none) {w : World}
    (hclean : Restoring.scanByGlobsUnless refused Program.registry r.root r.included r.excluded r.before =
      .ok [] w) :
    ∃ scans,
      Restoring.scanAllUnless refused Program.registry r.root r.progress.manifest r.after =
        .ok scans r.after ∧
      Restoring.scanByGlobsUnless refused Program.registry r.root r.included r.excluded r.after =
        .ok scans r.after ∧
      scans.map (·.file) = r.progress.manifest.files.map (·.1) := by
  obtain ⟨files, h⟩ := r.exists_leaves
  have hnothing : ∀ q ∈ foundAims Program.registry files,
      q.scanUnless refused r.root r.before.disk = [] := by
    have hscanned := (Restoring.scanByGlobsUnless_of_discover h.discovered).symm.trans hclean
    rw [Restoring.scanFoundUnless_of_plain fun q hq => h.isPlain_of_mem_foundAims hq] at hscanned
    exact List.flatMap_eq_nil_iff.mp (EStateM.Result.ok.inj hscanned).1
  refine ⟨(files.filterMap r.injected).map Injected.listing, h.scanAllUnless_after hrefused hnothing,
    h.scanByGlobsUnless_after hrefused hnothing, ?_⟩
  rw [h.manifest, List.map_map, List.map_map]
  rfl

open Restoring (oneFile oneFileRoot) in
/-- A script that is marked, with a path beside it that is refused to the run and to the scans. -/
theorem scans_agree_of_async_def : ∃ r : Finished {} 0, ∃ w scans,
    r.refusal (r.pathOf "b.py") ≠ none ∧
      Restoring.scanByGlobsUnless r.refusal Program.registry r.root r.included r.excluded r.before =
        .ok [] w ∧
      Restoring.scanAllUnless r.refusal Program.registry r.root r.progress.manifest r.after =
        .ok scans r.after ∧
      Restoring.scanByGlobsUnless r.refusal Program.registry r.root r.included r.excluded r.after =
        .ok scans r.after ∧
      scans.map (·.file) = ["a.py"] := by
  obtain ⟨hclean, layout, placed, output, -, -, hlength, hinject⟩ := Adapter.exists_inject_of_async_def rfl
  have hpoints : placed.map (·.2) ≠ [] := fun h => by
    rw [List.map_eq_nil_iff.mp h] at hlength
    cases hlength
  let w : World := { disk := oneFile "async def f():\n  g()\n".toList }
  let refusal (path : Path) : Option Disk.Error :=
    if path.name = "b.py" then some ⟨.missing, path.text, none⟩ else none
  have hread : refusal (oneFileRoot.join (Path.ofText "a.py")) = none := if_neg (by decide +kernel)
  have hdiscovered := Restoring.discover_oneFile "async def f():\n  g()\n".toList
  obtain ⟨p, w', hrun⟩ := Restoring.exists_injectAll_of_discovered hdiscovered hinject refusal ""
    (w := w) rfl
  have hfiles := Restoring.files_of_discovered hdiscovered hinject hread rfl hpoints (w := w) rfl hrun
  have hproject := Restoring.isProject_oneFile "async def f():\n  g()\n".toList
  let r : Finished {} 0 := ⟨_, _, _, _, _, _, _, _, _, _, hproject, hrun⟩
  have htext := Restoring.textAt_oneFile "async def f():\n  g()\n".toList
  have haims : foundAims Program.registry ["a.py"] = [⟨"a.py", Python.adapter⟩] :=
    Restoring.foundAims_cons_of_some Restoring.forFile_oneFile []
  have hbefore : Restoring.scanByGlobsUnless refusal Program.registry oneFileRoot
      (Config.texts ["**/*.py"]) (.arr []) w = .ok [] w := by
    rw [Restoring.scanByGlobsUnless_of_discover hdiscovered, Restoring.scanFoundUnless_of_plain, haims]
    · have hscan := @Aim.scan_of_text oneFileRoot w.disk ⟨"a.py", Python.adapter⟩ _ htext
      rw [hclean] at hscan
      rw [List.flatMap_singleton, Aim.scanUnless, Aim.path, hread]
      exact congrArg (EStateM.Result.ok · w) hscan
    · rw [haims]
      intro q hq
      rw [List.mem_singleton.mp hq]
      exact (Run.textAt_eq_ok_iff.mp htext).1
  obtain ⟨scans, hlisted, hfound, hnames⟩ := r.scans_agree (fun _ hne => hne) hbefore
  refine ⟨r, w, scans, ?_, hbefore, hlisted, hfound, hnames.trans (congrArg (List.map (·.1)) hfiles)⟩
  have hrefused : refusal (oneFileRoot.join (Path.ofText "b.py")) = some _ := if_pos (by decide +kernel)
  exact fun hnone => by cases hrefused.symm.trans hnone

end Injecting.Finished
end DelayInjection
