import DelayInjection.Main
import DelayInjection.Proofs.Project.Restoring
import DelayInjection.Proofs.RoundTrip

/-! Injection into a whole project followed by its restoration. -/

namespace DelayInjection

open Disk (Node Path)
open Disk.Node (isFormedIn isProper overlayIn)
open Discovery (fileOf found)
open Text.Utf8 (Bytes encode)

theorem Program.mem_registry {e : String × Adapter} (he : e ∈ Program.registry.adapters) :
    e.2 = JavaScript.adapter ∨ e.2 = Python.adapter := by
  simp only [registry, List.map_cons, List.map_nil, List.mem_cons, List.not_mem_nil, or_false] at he
  rcases he with rfl | rfl <;> simp

theorem Program.consistent_registry : Program.registry.IsConsistent := by
  have hadapters : ∀ a ∈ Program.registry.adapters.map (·.2),
      a = JavaScript.adapter ∨ a = Python.adapter := by
    intro a ha
    obtain ⟨e, he, rfl⟩ := List.mem_map.mp ha
    exact mem_registry he
  refine ⟨?_, ?_, ?_, ?_⟩
  · intro a ha
    rcases hadapters a ha with rfl | rfl <;> rfl
  · intro a ha
    rcases hadapters a ha with rfl | rfl <;> decide
  · intro a ha b hb hname
    rcases hadapters a ha with rfl | rfl <;> rcases hadapters b hb with rfl | rfl
    · rfl
    · exact absurd hname (by decide)
    · exact absurd hname (by decide)
    · rfl
  · intro a ha
    rcases hadapters a ha with rfl | rfl <;> decide +kernel

/-- Every selected file that gets points meets the conditions of the exact round trip. -/
def Injecting.AllApart (registry : Registry) (profile : Profile) (seed : Int) (d : Disk) (root : Path)
    (included excluded : Json) : Prop :=
  ∀ files file a source result layout,
    Discovery.discover d root included excluded = .ok files → file ∈ files →
    registry.forFile file = some a →
    Run.textAt (root.join (Path.ofText file)) d = .ok source →
    a.inject source (profile.options file seed) = .ok result → result.points ≠ [] →
    a.locate (encode source) (profile.options file seed) = .ok layout →
    Adapter.Apart (encode source) (profile.options file seed) a.spelling layout

/-- Removal takes back what injection did to a clean file that meets the conditions. -/
theorem Injected.undone_of_apart {profile : Profile} {seed : Int} {d : Disk} {above : List String}
    {entries : List (String × Node)} {i : Injected}
    (hi : i.Arises Program.registry profile seed d above entries)
    (hclean : i.adapter.scan i.source = [])
    (hapart : ∀ layout, i.adapter.locate (encode i.source) (profile.options i.file seed) = .ok layout →
      Adapter.Apart (encode i.source) (profile.options i.file seed) i.adapter.spelling layout) :
    i.Undone := by
  obtain ⟨e, he, hmem⟩ := List.mem_map.mp (List.mem_of_find?_eq_some hi.forFile)
  have hlegible : i.adapter.Legible := Adapter.legible_of_mem (hmem ▸ he : (e.1, i.adapter) ∈ Program.registry.adapters)
  rcases Adapter.of_inject_eq_ok hi.inject with ⟨hnil, -, -⟩ |
    ⟨layout, placed, hlayout, hplaced, -, hpoints, -, hadded, houtput⟩
  · exact absurd hnil hi.points
  · obtain ⟨hremove, -⟩ := Adapter.undo_of_apart hplaced (hapart layout hlayout) hlegible hclean houtput
    rw [Injected.Undone, hremove, Injected.lines, hpoints, hadded, List.length_map]
    cases layout.hasSupportImport <;> rfl

namespace Restoring

open Injecting (AllApart Records injectAll)

/-! ## After a run of injection -/

theorem lookup_files {is : List Injected} (hnodup : (is.map Injected.file).Nodup) {i : Injected}
    (hi : i ∈ is) : (is.map fun i => (i.file, i.record)).lookup i.file = some i.record := by
  induction is with
  | nil => cases hi
  | cons j is ih =>
    rw [List.map_cons, List.nodup_cons] at hnodup
    rw [List.map_cons]
    rcases List.mem_cons.mp hi with rfl | hi
    · exact List.lookup_cons_self
    · have hne : i.file ≠ j.file := fun h => hnodup.1 (h ▸ List.mem_map_of_mem hi)
      rw [List.lookup_cons, beq_eq_false_iff_ne.mpr hne]
      exact ih hnodup.2 hi

theorem sum_lines (is : List Injected) : (is.map (·.lines)).sum =
    2 * (is.map fun i => (i.file, i.record)).foldr (fun f n => f.2.points.length + n) 0 +
      (is.map fun i => (i.file, i.record)).countP (·.2.referenceAdded) := by
  induction is with
  | nil => rfl
  | cons i is ih =>
    rw [List.map_cons, List.sum_cons, ih, List.map_cons, List.foldr_cons, List.countP_cons]
    have hpoints : i.record.points.length = i.result.points.length := List.length_map _
    have hadded : i.record.referenceAdded = i.result.referenceAdded := rfl
    rw [hpoints, hadded, Injected.lines]
    omega

section Records

variable {registry : Registry} {profile : Profile} {seed : Int} {d : Disk} {root : Path}
  {above : List String} {entries others : List (String × Node)} (h : IsProject d root above entries)
  (hregistry : registry.IsConsistent)
  (hnone : ∀ a ∈ registry.adapters.map (·.2), entries.lookup a.moduleName = none)
  {now : String} {m : Manifest} {f : Discovery.Filter} {is : List Injected} {modules : List Adapter}
  {w : World}
  (hrecords : Records registry profile seed d above entries now (found f entries) is modules m)
  (hundone : ∀ i ∈ is, i.Undone)

include h hregistry hnone hrecords hundone

/-- The ledger leads back to the project, whatever else lies behind its entries. -/
theorem restoreAll_of_records
    (hfile : ∀ e ∈ others, e.1 ∈ modules.map Adapter.moduleName → ∃ bytes, e.2 = .file bytes)
    (hw : w.disk = d.overlaid above (Injected.contentOf is) entries others) :
    ∃ w', restoreAll registry root m w = .ok ⟨m.files.length,
        2 * m.totalPoints + m.files.countP (·.2.referenceAdded), []⟩ w' ∧
      w'.disk = d.overlaid above (fun _ bytes => bytes) entries
        (others.filter fun e => e.1 ∉ modules.map Adapter.moduleName) := by
  have hfiles : m.files = is.map fun i => (i.file, i.record) := by rw [hrecords.manifest]
  have hsupport : m.supportFiles = (modules.map Adapter.moduleName).map .str := by
    rw [hrecords.manifest, List.map_map]
    rfl
  obtain ⟨w₁, hlisted, hw₁⟩ := restoreListed_eq_ok h
    (fun i hi => by rw [hfiles]; exact lookup_files hrecords.nodup hi) hrecords.arises
    (fun i hi => hregistry.get i.adapter (List.mem_of_find?_eq_some (hrecords.arises i hi).forFile))
    hundone hrecords.nodup {} hw
  have hmem : ∀ n ∈ modules.map Adapter.moduleName, ∃ a ∈ registry.adapters.map (·.2),
      a.moduleName = n := by
    intro n hn
    obtain ⟨a, ha, rfl⟩ := List.mem_map.mp hn
    exact ⟨a, Injecting.mem_of_used hrecords.arises hrecords.used a ha, rfl⟩
  obtain ⟨w₂, hremoved, hw₂⟩ := removeSupport_eq_ok h _
    (fun n hn => by
      obtain ⟨a, ha, rfl⟩ := hmem n hn
      exact hregistry.isProper a ha)
    (fun n hn => by
      obtain ⟨a, ha, rfl⟩ := hmem n hn
      exact hnone a ha)
    hfile hw₁
  refine ⟨w₂, ?_, hw₂⟩
  rw [restoreAll, hfiles, hsupport, Run.bind_of_eq_ok hlisted]
  refine (Run.bind_of_eq_ok hremoved).trans ?_
  rw [sum_lines, Manifest.totalPoints, hfiles, List.length_map, Nat.zero_add, Nat.zero_add]
  rfl

theorem restoreByGlobs_of_records {included excluded : Json}
    (hw : w.disk = d.overlaid above (Injected.contentOf is) entries
      (modules.map Adapter.supportEntry))
    (hfilter : Discovery.filterOf included excluded = .ok f)
    (hclean : ∀ file ∈ found f entries, ∀ a source, registry.forFile file = some a →
      Run.textAt (root.join (Path.ofText file)) d = .ok source → a.scan source = []) :
    ∃ w', restoreByGlobs registry root included excluded w = .ok ⟨m.files.length,
        2 * m.totalPoints + m.files.countP (·.2.referenceAdded), []⟩ w' ∧ w'.disk = d := by
  have hused := Injecting.mem_of_used hrecords.arises hrecords.used
  have hfiles : m.files = is.map fun i => (i.file, i.record) := by rw [hrecords.manifest]
  have hdiscover : Discovery.discover w.disk root included excluded = .ok
      (found f (overlayIn (Injected.contentOf is) entries ++ modules.map Adapter.supportEntry)) := by
    rw [Discovery.discover_eq, hfilter, hw, Disk.overlaid,
      h.leads.entriesAt_holding Disk.Node.keeps_overlayIn]
    rfl
  have hmodules : isFormedIn (modules.map Adapter.supportEntry) = true :=
    Adapter.isFormedIn_supportEntry (fun a ha => hregistry.isProper a (hused a ha))
      hrecords.nodupUsed
  have hformed : isFormedIn (overlayIn (Injected.contentOf is) entries ++
      modules.map Adapter.supportEntry) = true := by
    refine Disk.Node.isFormedIn_append ?_ hmodules fun e he => ?_
    · rw [Disk.Node.isFormedIn_overlayIn, h.formed]
    · obtain ⟨a, ha, rfl⟩ := List.mem_map.mp he
      rw [Disk.Node.lookup_overlayIn, Adapter.supportEntry, hnone a (hused a ha)]
      rfl
  have hnames : ∀ file ∈ found f (modules.map Adapter.supportEntry),
      registry.forFile file = none := by
    intro file hfile
    obtain ⟨first, names, bytes, hat, rfl⟩ := Discovery.exists_names_of_mem_found hmodules hfile
    rw [Node.at?] at hat
    obtain ⟨node, hnode, hat⟩ := Option.bind_eq_some_iff.mp hat
    obtain ⟨before, behind, hsplit, -⟩ := List.lookup_eq_some_iff.mp hnode
    obtain ⟨a, ha, hentry⟩ := List.mem_map.mp
      (show (first, node) ∈ modules.map Adapter.supportEntry by rw [hsplit]; simp)
    cases hentry
    cases names with
    | nil =>
      rw [fileOf, Disk.slashed_singleton, String.ofList_toList]
      exact hregistry.unhandled a (hused a ha)
    | cons next names => cases hat
  obtain ⟨w₁, hrestored, hw₁⟩ := restoreFound_eq_ok h
    (found f (overlayIn (Injected.contentOf is) entries ++ modules.map Adapter.supportEntry))
    (fun file hfile => by
      rcases Discovery.mem_found_append.mp hfile with hfile | hfile
      · exact .inr (h.exists_names_of_found file hfile)
      · exact .inl (hnames file hfile))
    (fun file hfile a names source hadapter hname hat => by
      rcases Discovery.mem_found_append.mp hfile with hfile | hfile
      · have hscan := hclean file hfile a source hadapter
          (by rw [hname, h.textAt_self hat, Text.Utf8.decode_encode]; rfl)
        rw [Adapter.remove, Recovery.remove_of_scan_eq_nil hscan]
      · rw [hnames file hfile] at hadapter
        cases hadapter)
    hrecords.arises hundone hrecords.nodup (Discovery.nodup_found hformed)
    (fun i hi => Discovery.mem_found_append.mpr (.inl (hrecords.found i hi))) {} hw
  have hall : registry.adapters.map (fun a => Json.str a.2.moduleName) =
      ((registry.adapters.map (·.2)).map Adapter.moduleName).map .str := by
    rw [List.map_map, List.map_map]
    rfl
  obtain ⟨w₂, hremoved, hw₂⟩ := removeSupport_eq_ok h
    ((registry.adapters.map (·.2)).map Adapter.moduleName)
    (fun n hn => by
      obtain ⟨a, ha, rfl⟩ := List.mem_map.mp hn
      exact hregistry.isProper a ha)
    (fun n hn => by
      obtain ⟨a, ha, rfl⟩ := List.mem_map.mp hn
      exact hnone a ha)
    (fun e he _ => by
      obtain ⟨a, -, rfl⟩ := List.mem_map.mp he
      exact ⟨_, rfl⟩) hw₁
  refine ⟨w₂, ?_, ?_⟩
  · have hrun : Run.ofExcept (Discovery.discover w.disk root included excluded) w = .ok _ w :=
      Run.ofExcept_eq_ok.mpr ⟨hdiscover, rfl⟩
    have hget : (get : Run World) w = .ok w w := rfl
    rw [restoreByGlobs, Run.bind_of_eq_ok hget, Run.bind_of_eq_ok hrun, Run.bind_of_eq_ok hrestored,
      hall]
    refine (Run.bind_of_eq_ok hremoved).trans ?_
    rw [sum_lines, Manifest.totalPoints, hfiles, List.length_map, Nat.zero_add, Nat.zero_add]
    rfl
  · rw [hw₂, filter_supportEntry fun a ha => List.mem_map_of_mem (hused a ha),
      h.leads.overlaid_id]

end Records

/-- Restoration by the ledger, and restoration by the same patterns, both give back the disk as it was
before the injection, and count the same. -/
theorem restore_injectAll {profile : Profile} {seed : Int} {now : String} {root : Path}
    {above : List String} {entries : List (String × Node)} {included excluded : Json}
    {w w₁ w' : World} {p : Injecting.Progress} (h : IsProject w.disk root above entries)
    (hnone : ∀ a ∈ Program.registry.adapters, entries.lookup a.2.moduleName = none)
    (hscan : scanByGlobs Program.registry root included excluded w = .ok [] w₁)
    (hapart : AllApart Program.registry profile seed w.disk root included excluded)
    (hrun : injectAll Program.registry profile now root included excluded seed w = .ok p w') :
    (∃ w'', restoreAll Program.registry root p.manifest w' = .ok ⟨p.manifest.files.length,
        2 * p.manifest.totalPoints + p.manifest.files.countP (·.2.referenceAdded), []⟩ w'' ∧
      w''.disk = w.disk) ∧
    ∃ w'', restoreByGlobs Program.registry root included excluded w' = .ok ⟨p.manifest.files.length,
        2 * p.manifest.totalPoints + p.manifest.files.countP (·.2.referenceAdded), []⟩ w'' ∧
      w''.disk = w.disk := by
  have hnone' : ∀ a ∈ Program.registry.adapters.map (·.2), entries.lookup a.moduleName = none := by
    intro a ha
    obtain ⟨e, he, rfl⟩ := List.mem_map.mp ha
    exact hnone e he
  obtain ⟨f, is, modules, hfilter, hrecords, hw⟩ := @Injecting.of_injectAll_eq_ok _ _ _ _ _ _ _ []
    h Program.consistent_registry hnone' (fun _ _ => rfl) _ _ _ _ _ _ h.leads.overlaid_id.symm
    (fun _ => rfl) hrun
  have hdiscover : Discovery.discover w.disk root included excluded = .ok (found f entries) := by
    rw [Discovery.discover_eq, hfilter, h.entriesAt]
    rfl
  have hclean : ∀ file ∈ found f entries, ∀ a source, Program.registry.forFile file = some a →
      Run.textAt (root.join (Path.ofText file)) w.disk = .ok source → a.scan source = [] := by
    have hfound := @scanFound_eq_ok Program.registry _ _ _ _ [] h _ (found f entries)
      (fun file hfile => .inr (h.exists_names_of_found file hfile)) w h.leads.overlaid_id.symm
    replace hscan := hfound.symm.trans ((scanByGlobsUnless_of_discover hdiscover).symm.trans hscan)
    intro file hfile a source hadapter htext
    exact scan_eq_nil_of_scanOf
      (List.flatMap_eq_nil_iff.mp (EStateM.Result.ok.inj hscan).1 file hfile) hadapter htext
  have hundone : ∀ i ∈ is, i.Undone := by
    intro i hi
    have harises := hrecords.arises i hi
    have htext : Run.textAt (root.join (Path.ofText i.file)) w.disk = .ok i.source := by
      rw [Injected.file, h.textAt_self harises.at_eq, Text.Utf8.decode_encode]
      rfl
    exact Injected.undone_of_apart harises
      (hclean i.file (hrecords.found i hi) i.adapter i.source harises.forFile htext)
      fun layout hlayout => hapart _ i.file i.adapter i.source i.result layout hdiscover
        (hrecords.found i hi) harises.forFile htext harises.inject harises.points hlayout
  obtain ⟨w'', hrestored, hw''⟩ := restoreAll_of_records h Program.consistent_registry hnone' hrecords
    hundone (fun e he _ => by
      obtain ⟨a, -, rfl⟩ := List.mem_map.mp he
      exact ⟨_, rfl⟩) hw
  refine ⟨⟨w'', hrestored, ?_⟩, restoreByGlobs_of_records h Program.consistent_registry hnone'
    hrecords hundone hw hfilter hclean⟩
  rw [hw'', List.nil_append, filter_supportEntry fun a ha => List.mem_map_of_mem ha,
    h.leads.overlaid_id]

/-! ## A project of one file -/

section OneFile

/-- One Python file in a folder of the disk. -/
def oneFile (source : List Char) : Disk :=
  { root := .folder [("p", .folder [("a.py", .file (encode source))])] }

def oneFileRoot : Path := ⟨true, ["p"]⟩

variable (source : List Char)

theorem isProject_oneFile : IsProject (oneFile source) oneFileRoot ["p"]
    [("a.py", .file (encode source))] := by
  refine ⟨⟨rfl, rfl⟩, ?_, by decide⟩
  exact Disk.Node.isFormedIn_cons.mpr ⟨by decide, rfl, rfl, rfl⟩

theorem fileOf_oneFile : fileOf ["a.py"] = "a.py" := by
  rw [fileOf, Disk.slashed_singleton, String.ofList_toList]

theorem textAt_oneFile : Run.textAt (oneFileRoot.join (Path.ofText "a.py")) (oneFile source) =
    .ok source := by
  have htext := @IsProject.textAt_self _ _ _ _ ["a.py"] _ (isProject_oneFile source) rfl
  rw [fileOf_oneFile, Text.Utf8.decode_encode] at htext
  exact htext

theorem found_oneFile {f : Discovery.Filter} (hf : f.selects "a.py".toList = true) :
    found f [("a.py", .file (encode source))] = ["a.py"] := by
  have hselected : Discovery.selectedIn f [] [("a.py", .file (encode source))] = ["a.py".toList] := by
    rw [Discovery.selectedIn, Discovery.selectedAt, List.nil_append, if_pos hf]
    rfl
  rw [found, hselected, Discovery.sorted, List.map_singleton, List.mergeSort_singleton]
  rfl

theorem discover_oneFile : Discovery.discover (oneFile source) oneFileRoot (Config.texts ["**/*.py"])
    (.arr []) = .ok ["a.py"] := by
  rw [Discovery.discover_eq, (isProject_oneFile source).entriesAt]
  exact congrArg Except.ok (found_oneFile source (by decide))

theorem discover_oneFile_of_defaults : Discovery.discover (oneFile source) oneFileRoot
    (Config.texts ["**/*.py"]) ((Config.defaults.lookup "exclude").getD .null) = .ok ["a.py"] := by
  rw [Discovery.discover_eq, (isProject_oneFile source).entriesAt]
  exact congrArg Except.ok (found_oneFile source (by decide))

theorem forFile_oneFile : Program.registry.forFile "a.py" = some Python.adapter := by
  have hjavascript : JavaScript.adapter.handles "a.py" = false := by decide +kernel
  have hpython : Python.adapter.handles "a.py" = true := by decide +kernel
  simp [Registry.forFile, Program.registry, hjavascript, hpython]

theorem lookup_oneFile : ∀ a ∈ Program.registry.adapters,
    [("a.py", Node.file (encode source))].lookup a.2.moduleName = none := by
  intro a ha
  rcases Program.mem_registry ha with hname | hname <;> rw [hname] <;> rfl

variable {source}

theorem scanByGlobs_oneFile (hclean : Python.adapter.scan source = []) {w : World}
    (hw : w.disk = oneFile source) :
    scanByGlobs Program.registry oneFileRoot (Config.texts ["**/*.py"]) (.arr []) w = .ok [] w := by
  have h := isProject_oneFile source
  have hfound := @scanFound_eq_ok Program.registry _ _ _ _ [] h _ ["a.py"]
    (fun file hmem => .inr ⟨["a.py"], _, rfl, by rw [fileOf_oneFile, List.mem_singleton.mp hmem]⟩) w
    (hw.trans h.leads.overlaid_id.symm)
  have hnothing : scanOf Program.registry oneFileRoot w.disk "a.py" = [] := by
    rw [scanOf, forFile_oneFile, hw, textAt_oneFile]
    simp [hclean]
  rw [List.flatMap_cons, List.flatMap_nil, hnothing] at hfound
  exact (scanByGlobsUnless_of_discover (hw ▸ discover_oneFile source)).trans hfound

theorem allApart_oneFile {layout : Layout}
    (hlocate : Python.locate (encode source) { filePath := "a.py" } = .ok layout)
    (hapart : Adapter.Apart (encode source) { filePath := "a.py" } Python.adapter.spelling layout) :
    AllApart Program.registry {} 0 (oneFile source) oneFileRoot (Config.texts ["**/*.py"])
      (.arr []) := by
  intro files file a source' result layout' hfiles hmem hadapter htext _ _ hlayout
  cases (discover_oneFile source).symm.trans hfiles
  cases List.mem_singleton.mp hmem
  cases forFile_oneFile.symm.trans hadapter
  cases (textAt_oneFile source).symm.trans htext
  cases hlocate.symm.trans hlayout
  exact hapart

section Discovered

variable {included excluded : Json} {result : InjectionResult}
  (hdiscovered : Discovery.discover (oneFile source) oneFileRoot included excluded = .ok ["a.py"])
  (hinject : Python.adapter.inject source { filePath := "a.py" } = .ok result)

include hdiscovered hinject

theorem exists_injectAll_of_discovered (refusal : Path → Option Disk.Error) (now : String) {w : World}
    (hw : w.disk = oneFile source) :
    ∃ p w', Injecting.injectAllUnless refusal Program.registry {} now oneFileRoot included excluded 0
      w = .ok p w' := by
  have h := isProject_oneFile source
  refine @Injecting.exists_injectAll_eq_ok _ _ _ _ _ _ _ _ [] h Program.consistent_registry
    (fun a ha => ?_) (fun _ _ => rfl) _ _ _ _ _ (hw.trans h.leads.overlaid_id.symm) (fun _ => rfl)
    hdiscovered fun file hmem a source' hadapter htext => ?_
  · obtain ⟨e, he, rfl⟩ := List.mem_map.mp ha
    exact lookup_oneFile source e he
  · cases List.mem_singleton.mp hmem
    cases forFile_oneFile.symm.trans hadapter
    cases (textAt_oneFile source).symm.trans htext
    exact ⟨_, hinject⟩

/-- If the file is not refused, it is recorded. -/
theorem files_of_discovered {refusal : Path → Option Disk.Error}
    (hread : refusal (oneFileRoot.join (Path.ofText "a.py")) = none) {now : String}
    (hfault : result.fault = none) (hpoints : result.points ≠ []) {w w' : World}
    {p : Injecting.Progress} (hw : w.disk = oneFile source)
    (hrun : Injecting.injectAllUnless refusal Program.registry {} now oneFileRoot included excluded 0
      w = .ok p w') :
    p.manifest.files = [("a.py", Injected.record ⟨["a.py"], Python.adapter, source, result⟩)] := by
  have h := isProject_oneFile source
  have hat : (Node.folder [("a.py", .file (encode source))]).at? ["a.py"] =
      some (.file (encode source)) := rfl
  have hfate : Injecting.fateAt refusal Program.registry {} 0 (oneFile source) oneFileRoot
      (fileOf ["a.py"]) = .ok (.written Python.adapter source result) := by
    rw [Injecting.fateAt_fileOf h hat, fileOf_oneFile, hread]
    exact Injecting.fateOf_eq_written forFile_oneFile (Text.Utf8.decode_encode source) hinject hfault
      hpoints
  obtain ⟨f, p₁, w₁, hfilter, htraces, hcopied, -⟩ :=
    @Injecting.exists_traces_of_injectAll_eq_ok _ _ _ _ _ _ _ _ [] h _ _ _ _ _ _
      (hw.trans h.leads.overlaid_id.symm) (fun _ => rfl) hrun
  have hfound : found f [("a.py", .file (encode source))] = [fileOf ["a.py"]] := by
    rw [Discovery.discover_eq, hfilter, h.entriesAt] at hdiscovered
    exact fileOf_oneFile ▸ Except.ok.inj hdiscovered
  rw [Injecting.files_copySupport hcopied, htraces.manifest, hfound, List.filterMap_cons,
    Injecting.injectedAt_eq h hat hfate, ← fileOf_oneFile]
  rfl

end Discovered

theorem exists_injectAll_oneFile {result : InjectionResult} (now : String)
    (hinject : Python.adapter.inject source { filePath := "a.py" } = .ok result) {w : World}
    (hw : w.disk = oneFile source) : ∃ p w', injectAll Program.registry {} now oneFileRoot
      (Config.texts ["**/*.py"]) (.arr []) 0 w = .ok p w' :=
  exists_injectAll_of_discovered (discover_oneFile source) hinject _ now hw

end OneFile

theorem restore_injectAll_of_async_def : ∃ w p w' w'',
    injectAll Program.registry {} "" oneFileRoot (Config.texts ["**/*.py"]) (.arr []) 0 w = .ok p w' ∧
      p.manifest.files.length = 1 ∧
      restoreAll Program.registry oneFileRoot p.manifest w' = .ok ⟨1,
        2 * p.manifest.totalPoints + p.manifest.files.countP (·.2.referenceAdded), []⟩ w'' ∧
      w''.disk = w.disk := by
  obtain ⟨hclean, layout, placed, output, hlocate, hapart, hlength, hinject⟩ :=
    Adapter.exists_inject_of_async_def rfl
  have hpoints : placed.map (·.2) ≠ [] := fun h => by
    rw [List.map_eq_nil_iff.mp h] at hlength
    cases hlength
  let w : World := { disk := oneFile "async def f():\n  g()\n".toList }
  obtain ⟨p, w', hrun⟩ := exists_injectAll_oneFile (w := w) "" hinject rfl
  obtain ⟨⟨w'', hrestored, hdisk⟩, -⟩ := restore_injectAll (w := w) (isProject_oneFile _)
    (lookup_oneFile _) (scanByGlobs_oneFile hclean rfl) (allApart_oneFile hlocate hapart) hrun
  have hfiles := files_of_discovered (discover_oneFile _) hinject rfl rfl hpoints (w := w) rfl hrun
  have hcount : p.manifest.files.length = 1 := congrArg List.length hfiles
  exact ⟨w, p, w', w'', hrun, hcount, hcount ▸ hrestored, hdisk⟩

end Restoring
end DelayInjection
