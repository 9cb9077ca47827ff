import DelayInjection.Proofs.Project.RoundTrip

/-! Files are injected independently. What a run makes of a file is decided by the file alone: by its
path and bytes, and by what the disk refuses at its path. -/

namespace DelayInjection.Injecting

open Disk (Node Path)
open Disk.Node (overlayIn)
open Discovery (fileOf found)
open Text.Utf8 (Bytes encode)

section Project

variable {refusal : Path → Option Disk.Error} {registry : Registry} {profile : Profile} {seed : Int}
  {d : Disk} {root : Path} {above : List String} {entries kept : List (String × Node)}

theorem fateAt_congr {refusal' : Path → Option Disk.Error} {d' : Disk} {root' : Path} {file : String}
    (hread : d.read (root.join (Path.ofText file)) = d'.read (root'.join (Path.ofText file)))
    (hrefused : refusal (root.join (Path.ofText file)) = refusal' (root'.join (Path.ofText file)))
    (hlocked : d.isLocked (root.join (Path.ofText file)) =
      d'.isLocked (root'.join (Path.ofText file))) :
    fateAt refusal registry profile seed d root file =
      fateAt refusal' registry profile seed d' root' file := by
  rw [fateAt, fateAt, hread, hrefused, hlocked]

/-- The adapters that were used are those of the written files, in the order of first use. -/
theorem Progress.Traces.modules_eq (hregistry : registry.IsConsistent) {start : Manifest}
    {is : List Injected} {skips : List (String × String)} {p : Progress} {w : World}
    (htraces : p.Traces registry profile seed d above entries kept start is skips w) :
    (p.used.map Adapter.moduleName).eraseDups = (is.map (·.adapter.moduleName)).eraseDups := by
  -- an id gives the name of the module
  let nameOf (id : String) : String := ((registry.get id).map Adapter.moduleName).getD ""
  have hnameOf : ∀ a ∈ registry.adapters.map (·.2), nameOf a.id = a.moduleName := by
    intro a ha
    simp only [nameOf, hregistry.get a ha]
    rfl
  have hused : p.used.map Adapter.moduleName = (p.used.map (·.id)).map nameOf := by
    rw [List.map_map]
    exact List.map_congr_left fun a ha =>
      (hnameOf a (mem_of_used htraces.arises htraces.used a ha)).symm
  have hwritten : is.map (·.adapter.moduleName) = (is.map (·.adapter.id)).map nameOf := by
    rw [List.map_map]
    exact List.map_congr_left fun i hi =>
      (hnameOf i.adapter (List.mem_of_find?_eq_some (htraces.arises i hi).forFile)).symm
  rw [hused, htraces.ids, eraseDups_map_eraseDups, hwritten]

variable (h : IsProject d root above entries)

include h

theorem files_eq_filterMap {files : List String}
    (hfiles : ∀ file ∈ files, ∃ names bytes,
      (Node.folder entries).at? names = some (.file bytes) ∧ file = fileOf names) :
    ((files.filterMap (injectedAt refusal registry profile seed d root)).map
        fun i => (i.file, i.record)) =
      files.filterMap fun file =>
        ((injectedAt refusal registry profile seed d root file).map Injected.record).map
          (file, ·) := by
  rw [List.map_filterMap]
  refine List.filterMap_congr fun file hfile => ?_
  rw [Option.map_map]
  cases hi : injectedAt refusal registry profile seed d root file with
  | none => rfl
  | some i =>
    obtain ⟨names, bytes, hat, rfl⟩ := hfiles file hfile
    rw [Option.map_some, Option.map_some, Injected.file, names_of_injectedAt h hat hi]
    rfl

/-- What a written file holds, and any other. -/
theorem contentOf_injected {files : List String}
    (hfiles : ∀ file ∈ files, ∃ names bytes,
      (Node.folder entries).at? names = some (.file bytes) ∧ file = fileOf names)
    (hnodup : ((files.filterMap (injectedAt refusal registry profile seed d root)).map
      Injected.file).Nodup) {names : List String} {bytes : Bytes}
    (hat : (Node.folder entries).at? names = some (.file bytes)) (hfile : fileOf names ∈ files) :
    Injected.contentOf (files.filterMap (injectedAt refusal registry profile seed d root)) names
      bytes = (injectedAt refusal registry profile seed d root (fileOf names)).elim bytes
        fun i => encode i.result.source := by
  cases hi : injectedAt refusal registry profile seed d root (fileOf names) with
  | none =>
    refine Injected.contentOf_of_not_mem (fun hmem => ?_) bytes
    obtain ⟨j, hj, rfl⟩ := List.mem_map.mp hmem
    cases hi.symm.trans (of_mem_injected h hfiles hj).2
  | some i =>
    have hmem := List.mem_filterMap.mpr ⟨_, hfile, hi⟩
    have hcontent := Injected.contentOf_of_mem (Injected.nodup_names hnodup) hmem bytes
    rwa [names_of_injectedAt h hat hi] at hcontent

end Project

/-! ## Runs that came to their end -/

/-- A run in a project of the disk, with all that it started from and all that it left. Files at the
locked paths of the disk cannot be written, and files at the refused paths cannot be read. -/
structure Finished (profile : Profile) (seed : Int) where
  refusal : Path → Option Disk.Error
  now : String
  root : Path
  above : List String
  entries : List (String × Node)
  included : Json
  excluded : Json
  before : World
  after : World
  progress : Progress
  isProject : IsProject before.disk root above entries
  run : injectAllUnless refusal Program.registry profile now root included excluded seed before =
    .ok progress after

namespace Finished

variable {profile : Profile} {seed : Int} (r s : Finished profile seed)

def pathOf (file : String) : Path := r.root.join (Path.ofText file)

def Finds (file : String) : Prop :=
  ∃ files, Discovery.discover r.before.disk r.root r.included r.excluded = .ok files ∧ file ∈ files

/-- Two runs read the same bytes from a file, and the same is refused for it. -/
structure AgreesOn (file : String) : Prop where
  read : r.before.disk.read (r.pathOf file) = s.before.disk.read (s.pathOf file)
  refused : r.refusal (r.pathOf file) = s.refusal (s.pathOf file)
  locked : r.before.disk.isLocked (r.pathOf file) = s.before.disk.isLocked (s.pathOf file)

/-- What the run injects into a file. -/
def injected (file : String) : Option Injected :=
  injectedAt r.refusal Program.registry profile seed r.before.disk r.root file

/-- Why the run passes over a file. -/
def reason (file : String) : Option String :=
  reasonAt r.refusal Program.registry profile seed r.before.disk r.root file

/-- What a finished run left behind, by the files that it found. -/
structure Leaves (files : List String) : Prop where
  discovered : Discovery.discover r.before.disk r.root r.included r.excluded = .ok files
  names : ∀ file ∈ files, ∃ names bytes,
    (Node.folder r.entries).at? names = some (.file bytes) ∧ file = fileOf names
  arises : ∀ i ∈ files.filterMap r.injected,
    i.Arises Program.registry profile seed r.before.disk r.above r.entries
  nodup : ((files.filterMap r.injected).map Injected.file).Nodup
  manifest : r.progress.manifest.files =
    (files.filterMap r.injected).map fun i => (i.file, i.record)
  skipped : r.progress.skipped = files.filterMap fun file => (r.reason file).map (file, ·)
  supportFiles : r.progress.manifest.supportFiles =
    ((files.filterMap r.injected).map (·.adapter.moduleName)).eraseDups.map .str
  disk : ∃ entries', r.after.disk = r.before.disk.holding r.above entries' ∧
    Node.isFormedIn entries' = true ∧
    (Node.folder (overlayIn (Injected.contentOf (files.filterMap r.injected)) r.entries)).AgreesOff
      (fun names => ∃ name, .str name ∈ r.progress.manifest.supportFiles ∧ names = [name])
      (.folder entries')

theorem exists_leaves : ∃ files, r.Leaves files := by
  have h := r.isProject
  obtain ⟨f, p, w, hfilter, htraces, hcopy, hskipped⟩ := @exists_traces_of_injectAll_eq_ok
    _ _ _ _ _ _ _ _ [] h _ _ _ _ _ _ h.leads.overlaid_id.symm (fun _ => rfl) r.run
  have hmodules : r.progress.manifest.supportFiles =
      (p.used.map Adapter.moduleName).eraseDups.map .str := by
    rw [manifest_copySupport hcopy, supportFiles_foldl (by rw [htraces.manifest]; rfl)]
  refine ⟨found f r.entries, ?_, h.exists_names_of_found, htraces.arises, htraces.nodup, ?_, ?_, ?_, ?_⟩
  · rw [Discovery.discover_eq, hfilter, h.entriesAt]
    rfl
  · rw [files_copySupport hcopy, htraces.manifest]
    rfl
  · rw [hskipped, htraces.skipped]
    rfl
  · rw [hmodules, htraces.modules_eq Program.consistent_registry]
    rfl
  · have hproper : ∀ a ∈ p.used, Node.isProper a.moduleName = true := fun a ha =>
      Program.consistent_registry.isProper a (mem_of_used htraces.arises htraces.used a ha)
    have hwritten : Node.isFormedIn (overlayIn (Injected.contentOf
        ((found f r.entries).filterMap r.injected)) r.entries ++ []) = true := by
      rw [List.append_nil, Node.isFormedIn_overlayIn, h.formed]
    obtain ⟨entries', hdisk, hformed, hagrees⟩ := agreesOff_copySupport h hproper
      Node.keeps_overlayIn hwritten htraces.disk hcopy
    rw [List.append_nil] at hagrees
    refine ⟨entries', hdisk, hformed, hagrees.mono ?_⟩
    rintro names ⟨a, ha, rfl⟩
    refine ⟨a.moduleName, ?_, rfl⟩
    rw [hmodules]
    exact List.mem_map_of_mem (List.mem_eraseDups.mpr (List.mem_map_of_mem ha))

namespace Leaves

variable {r} {files : List String} (h : r.Leaves files)

include h

theorem found (file : String) : r.Finds file ↔ file ∈ files := by
  refine ⟨fun ⟨files', hfiles, hmem⟩ => ?_, fun hmem => ⟨_, h.discovered, hmem⟩⟩
  cases h.discovered.symm.trans hfiles
  exact hmem

theorem exists_of_mem_supportFiles {name : String}
    (hname : Json.str name ∈ r.progress.manifest.supportFiles) :
    ∃ i ∈ files.filterMap r.injected, i.adapter.moduleName = name := by
  rw [h.supportFiles] at hname
  obtain ⟨name', hmem, hstr⟩ := List.mem_map.mp hname
  cases hstr
  exact List.mem_map.mp (List.mem_eraseDups.mp hmem)

/-- The support modules are no files that an adapter handles. -/
theorem forFile_supportFile {name : String}
    (hname : Json.str name ∈ r.progress.manifest.supportFiles) :
    Program.registry.forFile name = none := by
  obtain ⟨i, hi, rfl⟩ := h.exists_of_mem_supportFiles hname
  exact Program.consistent_registry.unhandled _
    (List.mem_of_find?_eq_some (h.arises i hi).forFile)

/-- The bytes of a file that an adapter handles, when the run has ended. -/
theorem read_after {names : List String} {bytes : Bytes}
    (hat : (Node.folder r.entries).at? names = some (.file bytes)) {a : Adapter}
    (hadapter : Program.registry.forFile (fileOf names) = some a) :
    r.after.disk.read (r.pathOf (fileOf names)) =
      .ok (Injected.contentOf (files.filterMap r.injected) names bytes) := by
  obtain ⟨entries', hdisk, -, hagrees⟩ := h.disk
  have hoverlaid := @Node.at?_overlayIn (Injected.contentOf (files.filterMap r.injected)) r.entries []
    names bytes hat
  have hkeeps := @Node.keeps_overlayIn (Injected.contentOf (files.filterMap r.injected)) r.entries []
  rw [List.append_nil] at hoverlaid hkeeps
  have huntouched : ¬ ∃ name, .str name ∈ r.progress.manifest.supportFiles ∧ names = [name] := by
    rintro ⟨name, hname, rfl⟩
    rw [fileOf, Disk.slashed_singleton, String.ofList_toList, h.forFile_supportFile hname] at hadapter
    cases hadapter
  rw [hdisk, pathOf, r.isProject.ofText_fileOf hat]
  exact r.isProject.leads.read_holding (hkeeps.trans hagrees.folders)
    (r.isProject.isProper_names hat).2 ((hagrees.files names _ huntouched).mpr hoverlaid)

/-- What is left of a file is said by what was injected into it, or why it was passed over. -/
theorem outcome {file : String} (hfile : file ∈ files) {a : Adapter}
    (hadapter : Program.registry.forFile file = some a) :
    ∃ bytes, r.before.disk.read (r.pathOf file) = .ok bytes ∧
      r.after.disk.read (r.pathOf file) =
        .ok ((r.injected file).elim bytes fun i => encode i.result.source) ∧
      r.progress.manifest.files.lookup file = (r.injected file).map Injected.record ∧
      r.progress.skipped.lookup file = r.reason file := by
  obtain ⟨names, bytes, hat, rfl⟩ := h.names file hfile
  refine ⟨bytes, r.isProject.read_self hat, ?_, ?_, ?_⟩
  · rw [h.read_after hat hadapter]
    exact congrArg Except.ok (contentOf_injected r.isProject h.names h.nodup hat hfile)
  · have hlookup := Json.lookup_filterMap (fun file => (r.injected file).map Injected.record) files
      (fileOf names)
    rw [if_pos hfile] at hlookup
    rw [← hlookup, h.manifest]
    exact congrArg _ (files_eq_filterMap r.isProject h.names)
  · rw [h.skipped, Json.lookup_filterMap, if_pos hfile]

end Leaves

theorem injected_eq_of_agreesOn {file : String} (h : r.AgreesOn s file) :
    r.injected file = s.injected file ∧ r.reason file = s.reason file := by
  have hfate : fateAt r.refusal Program.registry profile seed r.before.disk r.root file =
      fateAt s.refusal Program.registry profile seed s.before.disk s.root file :=
    fateAt_congr h.read h.refused h.locked
  exact ⟨congrArg (·.toOption.bind (Fate.injected? (Path.ofText file).names)) hfate,
    congrArg (·.toOption.bind Fate.reason?) hfate⟩

/-- A file ends the same way in all runs that agree on it. -/
theorem outcome_of_agreesOn {file : String} {a : Adapter}
    (hadapter : Program.registry.forFile file = some a) (hr : r.Finds file) (hs : s.Finds file)
    (h : r.AgreesOn s file) :
    (∃ bytes, r.after.disk.read (r.pathOf file) = .ok bytes ∧
      s.after.disk.read (s.pathOf file) = .ok bytes) ∧
    r.progress.manifest.files.lookup file = s.progress.manifest.files.lookup file ∧
    r.progress.skipped.lookup file = s.progress.skipped.lookup file := by
  obtain ⟨files, hleaves⟩ := r.exists_leaves
  obtain ⟨files', hleaves'⟩ := s.exists_leaves
  obtain ⟨bytes, hread, hafter, hrecord, hskipped⟩ :=
    hleaves.outcome ((hleaves.found file).mp hr) hadapter
  obtain ⟨bytes', hread', hafter', hrecord', hskipped'⟩ :=
    hleaves'.outcome ((hleaves'.found file).mp hs) hadapter
  obtain ⟨hinjected, hreason⟩ := injected_eq_of_agreesOn r s h
  cases hread.symm.trans (h.read.trans hread')
  refine ⟨⟨_, hafter, ?_⟩, ?_, ?_⟩
  · rw [hafter', hinjected]
  · rw [hrecord, hrecord', hinjected]
  · rw [hskipped, hskipped', hreason]

/-- A recorded file was found, and holds what injection made of its text. -/
theorem of_mem_files {file : String} {record : FileRecord}
    (hmem : (file, record) ∈ r.progress.manifest.files) :
    r.Finds file ∧ ∃ a source result, Program.registry.forFile file = some a ∧
      r.before.disk.read (r.pathOf file) = .ok (encode source) ∧
      a.inject source (profile.options file seed) = .ok result ∧
      r.after.disk.read (r.pathOf file) = .ok (encode result.source) ∧
      record = ⟨.str a.id, .str (hashContent source), .str (hashContent result.source),
        result.points.map PointEntry.ofPoint, result.referenceAdded⟩ := by
  obtain ⟨files, h⟩ := r.exists_leaves
  rw [h.manifest] at hmem
  obtain ⟨i, hi, heq⟩ := List.mem_map.mp hmem
  cases heq
  have harises := h.arises i hi
  refine ⟨(h.found _).mpr (of_mem_injected r.isProject h.names hi).1, i.adapter, i.source, i.result,
    harises.forFile, r.isProject.read_self harises.at_eq, harises.inject, ?_, rfl⟩
  rw [Injected.file, h.read_after harises.at_eq harises.forFile,
    Injected.contentOf_of_mem (Injected.nodup_names h.nodup) hi]

/-- All files but the recorded ones and the support modules are as they were. -/
theorem at?_after {names : List String} {bytes : Bytes}
    (hfiles : ∀ f ∈ r.progress.manifest.files, names ≠ r.above ++ (Path.ofText f.1).names)
    (hmodules : ∀ name, .str name ∈ r.progress.manifest.supportFiles → names ≠ r.above ++ [name]) :
    r.after.disk.root.at? names = some (.file bytes) ↔
      r.before.disk.root.at? names = some (.file bytes) := by
  obtain ⟨files, h⟩ := r.exists_leaves
  obtain ⟨entries', hdisk, -, hagrees⟩ := h.disk
  let touched (below : List String) : Prop :=
    below ∈ (files.filterMap r.injected).map Injected.names ∨
      ∃ name, .str name ∈ r.progress.manifest.supportFiles ∧ below = [name]
  have hwritten : (Node.folder r.entries).AgreesOff touched
      (.folder (overlayIn (Injected.contentOf (files.filterMap r.injected)) r.entries)) :=
    .overlayIn fun below old _ hnot =>
      Injected.contentOf_of_not_mem (fun hmem => hnot (.inl hmem)) old
  have hinside := hwritten.trans (hagrees.mono fun below hbelow => .inr hbelow)
  rw [hdisk]
  refine (hinside.put r.isProject.leads.folder).files names bytes ?_
  rintro ⟨below, rfl, hmem | ⟨name, hname, rfl⟩⟩
  · obtain ⟨i, hi, rfl⟩ := List.mem_map.mp hmem
    refine hfiles (i.file, i.record) (h.manifest ▸ List.mem_map_of_mem hi) ?_
    rw [Injected.file, r.isProject.ofText_fileOf (h.arises i hi).at_eq]
  · exact hmodules name hname rfl

/-- The ledger lists the support modules for the recorded files. -/
theorem supportFiles_eq : r.progress.manifest.supportFiles =
    (((r.progress.manifest.files.filterMap fun f => Program.registry.forFile f.1).map
      Adapter.moduleName).eraseDups).map .str := by
  obtain ⟨files, h⟩ := r.exists_leaves
  have hadapters : (r.progress.manifest.files.filterMap fun f => Program.registry.forFile f.1) =
      (files.filterMap r.injected).map Injected.adapter := by
    rw [h.manifest, List.filterMap_map, ← List.filterMap_eq_map]
    refine List.filterMap_congr fun i hi => ?_
    rw [Function.comp_apply, Function.comp_apply, (h.arises i hi).forFile]
  rw [hadapters, h.supportFiles, List.map_map]
  rfl

/-- Whatever run it is that came to its end: a file that an adapter handles ends the same way in all
runs that agree on it; a recorded file holds what injection made of its text, and the record has the
digests of both; no other file is changed but the support modules; and those are listed once each,
in the order of first use. -/
theorem files_independent :
    (∀ s : Finished profile seed, ∀ file a, Program.registry.forFile file = some a →
      r.Finds file → s.Finds file → r.AgreesOn s file →
      (∃ bytes, r.after.disk.read (r.pathOf file) = .ok bytes ∧
        s.after.disk.read (s.pathOf file) = .ok bytes) ∧
      r.progress.manifest.files.lookup file = s.progress.manifest.files.lookup file ∧
      r.progress.skipped.lookup file = s.progress.skipped.lookup file) ∧
    (∀ file record, (file, record) ∈ r.progress.manifest.files →
      r.Finds file ∧ ∃ a source result, Program.registry.forFile file = some a ∧
        r.before.disk.read (r.pathOf file) = .ok (encode source) ∧
        a.inject source (profile.options file seed) = .ok result ∧
        r.after.disk.read (r.pathOf file) = .ok (encode result.source) ∧
        record = ⟨.str a.id, .str (hashContent source), .str (hashContent result.source),
          result.points.map PointEntry.ofPoint, result.referenceAdded⟩) ∧
    (∀ names bytes,
      (∀ f ∈ r.progress.manifest.files, names ≠ r.above ++ (Path.ofText f.1).names) →
      (∀ name, .str name ∈ r.progress.manifest.supportFiles → names ≠ r.above ++ [name]) →
      (r.after.disk.root.at? names = some (.file bytes) ↔
        r.before.disk.root.at? names = some (.file bytes))) ∧
    r.progress.manifest.supportFiles =
      (((r.progress.manifest.files.filterMap fun f => Program.registry.forFile f.1).map
        Adapter.moduleName).eraseDups).map .str :=
  ⟨fun s _ _ hadapter hr hs h => r.outcome_of_agreesOn s hadapter hr hs h,
    fun _ _ hmem => r.of_mem_files hmem,
    fun _ _ hfiles hmodules => r.at?_after hfiles hmodules, r.supportFiles_eq⟩

open Restoring (oneFile oneFileRoot) in
theorem files_independent_of_async_def : ∃ r s : Finished {} 0,
    r.excluded ≠ s.excluded ∧ r.refusal ≠ s.refusal ∧
    (r.progress.manifest.files.lookup "a.py" = s.progress.manifest.files.lookup "a.py" ∧
      r.progress.skipped.lookup "a.py" = s.progress.skipped.lookup "a.py") ∧
    (∃ record, ("a.py", record) ∈ r.progress.manifest.files ∧ ∃ a : Adapter, ∃ source result,
      a.inject source { filePath := "a.py" } = .ok result ∧
      r.after.disk.read (r.pathOf "a.py") = .ok (encode result.source)) ∧
    (r.after.disk.root.at? ["q"] = some (.file []) ↔ r.before.disk.root.at? ["q"] = some (.file [])) ∧
    r.progress.manifest.supportFiles = [.str Python.adapter.moduleName] := by
  obtain ⟨-, layout, placed, output, -, -, hlength, hinject⟩ := Adapter.exists_inject_of_async_def rfl
  have hpoints : placed.map (·.2) ≠ [] := fun h => by
    rw [List.map_eq_nil_iff.mp h] at hlength
    cases hlength
  let w : World := { disk := oneFile "async def f():\n  g()\n".toList }
  let refusal (path : Path) : Option Disk.Error :=
    if path.name = "b.py" then some ⟨.missing, path.text, none⟩ else none
  have hproject := Restoring.isProject_oneFile "async def f():\n  g()\n".toList
  have hdiscovered := Restoring.discover_oneFile "async def f():\n  g()\n".toList
  have hdefaults := Restoring.discover_oneFile_of_defaults "async def f():\n  g()\n".toList
  obtain ⟨p, w₁, hrun⟩ := Restoring.exists_injectAll_of_discovered hdiscovered hinject
    (fun _ => none) "" (w := w) rfl
  obtain ⟨q, w₂, hrun'⟩ := Restoring.exists_injectAll_of_discovered hdefaults hinject refusal ""
    (w := w) rfl
  have hfiles := Restoring.files_of_discovered hdiscovered hinject rfl rfl hpoints (w := w) rfl hrun
  let r : Finished {} 0 := ⟨_, _, _, _, _, _, _, _, _, _, hproject, hrun⟩
  let s : Finished {} 0 := ⟨_, _, _, _, _, _, _, _, _, _, hproject, hrun'⟩
  obtain ⟨hagree, hrecorded, hother, hsupport⟩ := r.files_independent
  have hmem : ("a.py", _) ∈ r.progress.manifest.files := hfiles ▸ List.mem_singleton_self _
  have hsupported : r.progress.manifest.supportFiles = [.str Python.adapter.moduleName] := by
    have hfiles' : r.progress.manifest.files = [("a.py", _)] := hfiles
    rw [hsupport, hfiles', List.filterMap_cons, Restoring.forFile_oneFile]
    rfl
  have hrefused : none = refusal (oneFileRoot.join (Path.ofText "a.py")) :=
    (if_neg (by decide +kernel)).symm
  refine ⟨r, s, ?_, ?_, ?_, ?_, ?_, hsupported⟩
  · intro hexcluded
    cases (Json.arr.inj hexcluded : [] = _)
  · intro hrefusal
    have hsame : none = refusal (oneFileRoot.join (Path.ofText "b.py")) :=
      congrFun hrefusal (oneFileRoot.join (Path.ofText "b.py"))
    cases hsame.trans (if_pos (by decide +kernel))
  · exact (hagree s "a.py" Python.adapter Restoring.forFile_oneFile ⟨_, hdiscovered, by simp⟩
      ⟨_, hdefaults, by simp⟩ ⟨rfl, hrefused, rfl⟩).2
  · obtain ⟨-, a, source, result, -, -, hresult, hafter, -⟩ := hrecorded _ _ hmem
    exact ⟨_, hmem, a, source, result, hresult, hafter⟩
  · refine hother ["q"] [] (fun f _ hnames => ?_) fun name _ hnames => ?_
    · exact absurd (List.cons.inj hnames).1 (by decide)
    · exact absurd (List.cons.inj hnames).1 (by decide)

end Finished
end DelayInjection.Injecting
