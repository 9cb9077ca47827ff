import DelayInjection.Proofs.Injection.Bounds
import DelayInjection.Proofs.Profile
import DelayInjection.Proofs.Project.Ledger
import DelayInjection.Proofs.Project.RoundTrip

/-! The two states of a project: clean, or marked by the injection that its ledger records. Injection
leads from the first to the second, and restoration back. -/

namespace DelayInjection

open Disk (Node Path)
open Disk.Node (isProper overlayIn putEntry)
open Discovery (fileOf found)
open Injecting (Records)
open Injection (choices)
open Text.Utf8 (Bytes encode)

/-- A clean file that meets the conditions of the exact round trip, with numbers that can be
written. -/
structure Adapter.Suits (a : Adapter) (source : List Char) (options : Options) : Prop where
  clean : a.scan source = []
  written : ∀ layout, a.locate (encode source) options = .ok layout →
    ∀ c ∈ choices (encode source) options a.spelling layout.bodies, c.IsWritten
  apart : ∀ layout, a.locate (encode source) options = .ok layout →
    choices (encode source) options a.spelling layout.bodies ≠ [] →
    Adapter.Apart (encode source) options a.spelling layout

/-- Injection into such a file succeeds, and the ledger can keep its points. -/
theorem Adapter.Suits.exists_inject_eq_ok {a : Adapter} {source : List Char} {options : Options}
    (h : a.Suits source options) (ha : a.Legible) (hbounded : options.IsBounded) :
    ∃ result, a.inject source options = .ok result ∧
      ∀ p ∈ result.points, (PointEntry.ofPoint p).IsPlain := by
  cases hstamp : Text.contains source stamp.toList with
  | true => exact ⟨⟨source, [], false, none⟩, by simp only [inject, hstamp, if_true], by simp⟩
  | false =>
    cases hlocate : a.locate (encode source) options with
    | error fault =>
      exact ⟨⟨source, [], false, some fault⟩, by simp [inject, hstamp, hlocate], by simp⟩
    | ok layout =>
      obtain ⟨placed, hplaced, hplain⟩ :=
        Injection.placements_eq_ok hbounded (h.written layout hlocate)
      by_cases hne : placed = []
      · refine ⟨⟨source, [], false, none⟩, ?_, by simp⟩
        rw [hne] at hplaced
        simp only [inject, hstamp, hlocate, hplaced]
        rfl
      · have hchoices : choices (encode source) options a.spelling layout.bodies ≠ [] := by
          intro hnil
          have hlength := Injection.length_of_placements hplaced
          rw [hnil] at hlength
          exact hne (List.eq_nil_of_length_eq_zero hlength)
        obtain ⟨output, houtput⟩ :=
          Adapter.exists_output_of_apart hplaced (h.apart layout hlocate hchoices) ha
        refine ⟨_, Adapter.inject_eq_ok hstamp hlocate hplaced hne houtput, ?_⟩
        intro p hp
        obtain ⟨q, hq, rfl⟩ := List.mem_map.mp hp
        exact hplain q hq

/-- What an injection into a project depends on. -/
structure Plan where
  profile : Profile
  seed : Int
  included : Json
  excluded : Json

namespace Plan

/-- What every plan of a command fulfils. -/
structure IsValid (plan : Plan) : Prop where
  mode : plan.profile.mode ∈ Mode.all
  low : 0 ≤ plan.profile.minDelay
  le : plan.profile.minDelay ≤ plan.profile.maxDelay
  seed : IsShort plan.seed

/-- Delays are exact in floating point, and all files that the plan selects are suitable. -/
structure Suits (plan : Plan) (d : Disk) (root : Path) : Prop where
  high : plan.profile.maxDelay < 2 ^ 53
  files : ∀ files, Discovery.discover d root plan.included plan.excluded = .ok files →
    ∀ file ∈ files, ∀ a source, Program.registry.forFile file = some a →
    Run.textAt (root.join (Path.ofText file)) d = .ok source →
    a.Suits source (plan.profile.options file plan.seed)

theorem isBounded {plan : Plan} {d : Disk} {root : Path} (hvalid : plan.IsValid)
    (hsuits : plan.Suits d root) (file : String) :
    (plan.profile.options file plan.seed).IsBounded :=
  ⟨hvalid.low, hvalid.le, hsuits.high, hvalid.seed⟩

end Plan

/-- A project that holds nothing of what injection leaves behind. -/
structure IsFresh (d : Disk) (root : Path) (above : List String) (entries : List (String × Node)) :
    Prop extends IsProject d root above entries where
  modules : ∀ a ∈ Program.registry.adapters, entries.lookup a.2.moduleName = none
  state : entries.lookup stateFolder = none

/-- The project is as it was, but for an empty folder for the ledger that may be there. -/
def IsClean (d : Disk) (above : List String) (entries : List (String × Node)) (disk : Disk) : Prop :=
  ∃ kept, (kept = [] ∨ kept = [Ledger.stateEntry []]) ∧
    disk = d.overlaid above (fun _ bytes => bytes) entries kept

/-- The project holds what an injection made of it, and a ledger that records it. -/
structure IsMarked (plan : Plan) (d : Disk) (above : List String) (entries : List (String × Node))
    (disk : Disk) (is : List Injected) (modules : List Adapter) (m : Manifest) : Prop where
  mode : plan.profile.mode ∈ Mode.all
  records : ∃ now f, Records Program.registry plan.profile plan.seed d above entries now
    (found f entries) is modules m
  undone : ∀ i ∈ is, i.Undone
  plain : m.IsPlain
  disk : ∃ before behind, modules = before ++ behind ∧
    disk = d.overlaid above (Injected.contentOf is) entries (before.map Adapter.supportEntry ++
      Ledger.stateEntry [Ledger.fileEntry m] :: behind.map Adapter.supportEntry)

theorem Adapter.legible_of_forFile {file : String} {a : Adapter}
    (h : Program.registry.forFile file = some a) : a.Legible := by
  obtain ⟨e, he, hmem⟩ := List.mem_map.mp (List.mem_of_find?_eq_some h)
  exact legible_of_mem (hmem ▸ he : (e.1, a) ∈ Program.registry.adapters)

theorem Program.moduleName_ne {a : Adapter} (ha : a ∈ Program.registry.adapters.map (·.2)) :
    a.moduleName ≠ stateFolder := by
  obtain ⟨e, he, rfl⟩ := List.mem_map.mp ha
  rcases Program.mem_registry he with h | h <;> rw [h] <;> decide

theorem selectedIn_stateEntry (f : Discovery.Filter) (inner : List (String × Node)) :
    Discovery.selectedIn f [] [Ledger.stateEntry inner] = [] := by
  rw [Ledger.stateEntry, Discovery.selectedIn, Discovery.selectedAt, if_neg, Discovery.selectedIn,
    List.append_nil]
  simp [Discovery.Filter.enters]

theorem unselected_kept {kept : List (String × Node)} (h : kept = [] ∨ kept = [Ledger.stateEntry []]) :
    ∀ f, Discovery.selectedIn f [] kept = [] := by
  intro f
  rcases h with rfl | rfl
  · rfl
  · exact selectedIn_stateEntry f []

section Project

variable {d : Disk} {root : Path} {above : List String} {entries : List (String × Node)}
  (h : IsFresh d root above entries)

include h

theorem IsFresh.lookup_moduleName :
    ∀ a ∈ Program.registry.adapters.map (·.2), entries.lookup a.moduleName = none := by
  intro a ha
  obtain ⟨e, he, rfl⟩ := List.mem_map.mp ha
  exact h.modules e he

theorem IsFresh.isClean : IsClean d above entries d := ⟨[], .inl rfl, h.leads.overlaid_id.symm⟩

/-! ## Ledgers -/

theorem IsClean.isFile_eq_false {disk : Disk} (hclean : IsClean d above entries disk) :
    disk.isFile ((Ledger.folder root).child Ledger.fileName) = false := by
  obtain ⟨kept, hkept, hdisk⟩ := hclean
  let w : World := { disk := disk }
  have hw : w.disk = d.overlaid above (fun _ bytes => bytes) entries kept := hdisk
  refine Ledger.isFile_eq_false h.toIsProject h.state hw ?_
  rcases hkept with rfl | rfl
  · exact .inl rfl
  · exact .inr List.lookup_cons_self

/-- A clean project has no ledger. -/
theorem IsClean.load {w : World} (hclean : IsClean d above entries w.disk) (now : String) :
    Ledger.load now root w = .ok none w :=
  Ledger.load_of_not_isFile now (hclean.isFile_eq_false h)

namespace IsMarked

variable {plan : Plan} {is : List Injected} {modules : List Adapter} {m : Manifest}

omit h

theorem mem_registry {disk : Disk} (hmarked : IsMarked plan d above entries disk is modules m) :
    ∀ a ∈ modules, a ∈ Program.registry.adapters.map (·.2) := by
  obtain ⟨now, f, hrecords⟩ := hmarked.records
  exact Injecting.mem_of_used hrecords.arises hrecords.used

/-- What lies behind the entries of a marked project: support modules that were copied there, and the
folder of the ledger. -/
structure Behind (modules : List Adapter) (m : Manifest) (kept : List (String × Node)) : Prop where
  ledger : kept.lookup stateFolder = some (.folder [Ledger.fileEntry m])
  module : ∀ e ∈ kept, e = Ledger.stateEntry [Ledger.fileEntry m] ∨ ∃ a ∈ modules, e = Adapter.supportEntry a
  copied : ∀ a ∈ modules, Adapter.supportEntry a ∈ kept
  rest : kept.filter (fun e => e.1 ∉ modules.map Adapter.moduleName) =
    [Ledger.stateEntry [Ledger.fileEntry m]]

theorem Behind.lookup_module {kept : List (String × Node)} (hbehind : Behind modules m kept)
    (hmodules : ∀ a ∈ modules, a ∈ Program.registry.adapters.map (·.2)) {a : Adapter} (ha : a ∈ modules) :
    kept.lookup a.moduleName = some (.file (encode a.moduleText)) := by
  cases hlookup : kept.lookup a.moduleName with
  | none =>
    rw [List.lookup_eq_none_iff] at hlookup
    simpa [Adapter.supportEntry] using hlookup _ (hbehind.copied a ha)
  | some node =>
    obtain ⟨before, behind, rfl, -⟩ := List.lookup_eq_some_iff.mp hlookup
    rcases hbehind.module (a.moduleName, node) (by simp) with hentry | ⟨b, hb, hentry⟩
    · exact absurd (Prod.ext_iff.mp hentry).1 (Program.moduleName_ne (hmodules a ha))
    · cases Program.consistent_registry.moduleName a (hmodules a ha) b (hmodules b hb)
        (Prod.ext_iff.mp hentry).1
      cases (Prod.ext_iff.mp hentry).2
      rfl

theorem exists_behind {disk : Disk} (hmarked : IsMarked plan d above entries disk is modules m) :
    ∃ kept, Behind modules m kept ∧ disk = d.overlaid above (Injected.contentOf is) entries kept := by
  obtain ⟨before, behind, hmodules, hdisk⟩ := hmarked.disk
  have hstate : stateFolder ∉ modules.map Adapter.moduleName := by
    intro hmem
    obtain ⟨a, ha, hname⟩ := List.mem_map.mp hmem
    exact Program.moduleName_ne (hmarked.mem_registry a ha) hname
  refine ⟨_, ⟨?_, fun e he => ?_, fun a ha => ?_, ?_⟩, hdisk⟩
  · rw [List.lookup_append, Adapter.lookup_supportEntry.mpr, Option.none_or]
    · exact List.lookup_cons_self
    · rw [hmodules, List.map_append] at hstate
      exact fun hmem => hstate (List.mem_append_left _ hmem)
  · simp only [List.mem_append, List.mem_cons, List.mem_map] at he
    rw [hmodules]
    rcases he with ⟨a, ha, rfl⟩ | rfl | ⟨a, ha, rfl⟩
    · exact .inr ⟨a, List.mem_append_left _ ha, rfl⟩
    · exact .inl rfl
    · exact .inr ⟨a, List.mem_append_right _ ha, rfl⟩
  · rw [hmodules, List.mem_append] at ha
    rcases ha with ha | ha
    · exact List.mem_append_left _ (List.mem_map_of_mem ha)
    · exact List.mem_append_right _ (List.mem_cons_of_mem _ (List.mem_map_of_mem ha))
  · rw [List.filter_append, List.filter_cons_of_pos (by simpa [Ledger.stateEntry] using hstate),
      Restoring.filter_supportEntry fun a ha => List.mem_map_of_mem (by rw [hmodules]; simp [ha]),
      Restoring.filter_supportEntry fun a ha => List.mem_map_of_mem (by rw [hmodules]; simp [ha])]
    rfl

include h

/-- The ledger of a marked project is the one that records the injection. -/
theorem load {w : World} (hmarked : IsMarked plan d above entries w.disk is modules m) (now : String) :
    Ledger.load now root w = .ok (some m) w := by
  obtain ⟨kept, hbehind, hw⟩ := hmarked.exists_behind
  exact Ledger.load_eq_some h.toIsProject h.state hw now hmarked.plain hbehind.ledger

/-- The support modules and the ledger can be removed, whatever the files of the project hold. -/
theorem clear {disk : Disk} (hmarked : IsMarked plan d above entries disk is modules m)
    {content : List String → Bytes → Bytes} {kept : List (String × Node)}
    (hbehind : Behind modules m kept) {w : World} (hw : w.disk = d.overlaid above content entries kept) :
    ∃ w₁ w₂, Restoring.removeSupport root m.supportFiles w = .ok () w₁ ∧
      Ledger.delete root w₁ = .ok () w₂ ∧
      w₂.disk = d.overlaid above content entries [Ledger.stateEntry []] := by
  obtain ⟨now, f, hrecords⟩ := hmarked.records
  have hsupport : m.supportFiles = (modules.map Adapter.moduleName).map .str := by
    rw [hrecords.manifest, List.map_map]
    rfl
  have hmem : ∀ n ∈ modules.map Adapter.moduleName, ∃ a ∈ Program.registry.adapters.map (·.2),
      a.moduleName = n := by
    intro n hn
    obtain ⟨a, ha, rfl⟩ := List.mem_map.mp hn
    exact ⟨a, hmarked.mem_registry a ha, rfl⟩
  have hproper : ∀ n ∈ modules.map Adapter.moduleName, isProper n = true := by
    intro n hn
    obtain ⟨a, ha, rfl⟩ := hmem n hn
    exact Program.consistent_registry.isProper a ha
  have hnone : ∀ n ∈ modules.map Adapter.moduleName, entries.lookup n = none := by
    intro n hn
    obtain ⟨a, ha, rfl⟩ := hmem n hn
    exact h.lookup_moduleName a ha
  have hfile : ∀ e ∈ kept, e.1 ∈ modules.map Adapter.moduleName → ∃ bytes, e.2 = .file bytes := by
    intro e he hname
    rcases hbehind.module e he with rfl | ⟨a, -, rfl⟩
    · obtain ⟨a, ha, hstate⟩ := hmem _ hname
      exact absurd hstate (Program.moduleName_ne ha)
    · exact ⟨_, rfl⟩
  obtain ⟨w₁, hremoved, hw₁⟩ := Restoring.removeSupport_eq_ok h.toIsProject _ hproper hnone hfile hw
  rw [hbehind.rest] at hw₁
  obtain ⟨w₂, hdeleted, hw₂⟩ := Ledger.delete_eq_ok h.toIsProject h.state hw₁ List.lookup_cons_self
  refine ⟨w₁, w₂, hsupport ▸ hremoved, hdeleted, hw₂.trans ?_⟩
  rw [Ledger.stateEntry, putEntry, if_pos rfl]
  rfl

/-- Restoration by the ledger, and the removal of the ledger, make a marked project clean. -/
theorem restore {w : World} (hmarked : IsMarked plan d above entries w.disk is modules m) :
    ∃ summary w₁ w₂, Restoring.restoreAll Program.registry root m w = .ok summary w₁ ∧
      Ledger.delete root w₁ = .ok () w₂ ∧ IsClean d above entries w₂.disk := by
  obtain ⟨now, f, hrecords⟩ := hmarked.records
  obtain ⟨kept, hbehind, hw⟩ := hmarked.exists_behind
  have hfiles : m.files = is.map fun i => (i.file, i.record) := by rw [hrecords.manifest]
  have hget : ∀ i ∈ is, Program.registry.get i.adapter.id = some i.adapter := fun i hi =>
    Program.consistent_registry.get i.adapter (List.mem_of_find?_eq_some (hrecords.arises i hi).forFile)
  obtain ⟨w₁, hlisted, hw₁⟩ := Restoring.restoreListed_eq_ok h.toIsProject
    (fun i hi => by rw [hfiles]; exact Restoring.lookup_files hrecords.nodup hi) hrecords.arises hget
    hmarked.undone hrecords.nodup {} hw
  obtain ⟨w₂, w₃, hremoved, hdeleted, hw₃⟩ := clear h hmarked hbehind hw₁
  obtain ⟨summary, hrestored⟩ : ∃ summary,
      Restoring.restoreAll Program.registry root m w = .ok summary w₂ := by
    rw [Restoring.restoreAll, hfiles, Run.bind_of_eq_ok hlisted]
    exact ⟨_, Run.bind_of_eq_ok hremoved⟩
  exact ⟨summary, w₂, w₃, hrestored, hdeleted, _, .inr rfl, hw₃⟩

end IsMarked

/-! ## Injection into a clean project -/

section Clean

variable {plan : Plan} (hvalid : plan.IsValid) (hsuits : plan.Suits d root) {w w' : World}

include hvalid hsuits

/-- The records of a run can be written into the ledger. -/
theorem isPlain_of_records {now : String} {f : Discovery.Filter} {is : List Injected}
    {modules : List Adapter} {m : Manifest}
    (hfilter : Discovery.filterOf plan.included plan.excluded = .ok f)
    (hrecords : Records Program.registry plan.profile plan.seed d above entries now
      (found f entries) is modules m) : m.IsPlain ∧ ∀ i ∈ is, i.Undone := by
  have hsuit : ∀ i ∈ is, i.adapter.Suits i.source (plan.profile.options i.file plan.seed) := by
    intro i hi
    have harises := hrecords.arises i hi
    refine hsuits.files _ ?_ i.file (hrecords.found i hi) i.adapter i.source harises.forFile ?_
    · rw [Discovery.discover_eq, hfilter, h.entriesAt]
      rfl
    · rw [Injected.file, h.textAt_self harises.at_eq, Text.Utf8.decode_encode]
      rfl
  refine ⟨?_, fun i hi => ?_⟩
  · rw [hrecords.manifest]
    have hversion : IsShort Manifest.currentVersion := isShort_of_lt (k := 1) (by decide) (by decide)
    refine ⟨hversion.lt, trivial, hvalid.seed.lt, trivial, ?_, ?_, ?_⟩
    · rw [List.map_map]
      exact hrecords.nodup
    · intro e he
      obtain ⟨i, hi, rfl⟩ := List.mem_map.mp he
      have harises := hrecords.arises i hi
      obtain ⟨result, hresult, hplain⟩ := (hsuit i hi).exists_inject_eq_ok
        (Adapter.legible_of_forFile harises.forFile) (Plan.isBounded hvalid hsuits i.file)
      rw [harises.inject] at hresult
      cases hresult
      refine ⟨trivial, trivial, trivial, fun p hp => ?_⟩
      obtain ⟨q, hq, rfl⟩ := List.mem_map.mp hp
      exact hplain q hq
    · intro v hv
      obtain ⟨a, -, rfl⟩ := List.mem_map.mp hv
      trivial
  · have harises := hrecords.arises i hi
    refine Injected.undone_of_apart harises (hsuit i hi).clean fun layout hlayout =>
      (hsuit i hi).apart layout hlayout fun hnil => ?_
    rcases Adapter.of_inject_eq_ok harises.inject with ⟨hpoints, -, -⟩ |
      ⟨layout', placed, hlayout', hplaced, hne, -⟩
    · exact harises.points hpoints
    · cases hlayout.symm.trans hlayout'
      have hlength := Injection.length_of_placements hplaced
      rw [hnil] at hlength
      exact hne (List.eq_nil_of_length_eq_zero hlength)

/-- A run either finds no files and changes nothing, or it ends with a ledger that is empty in a clean
project, or that marks the project once it is saved. -/
theorem injectAll_of_isClean (hclean : IsClean d above entries w.disk) (now : String) :
    (∃ e, Injecting.injectAll Program.registry plan.profile now root plan.included plan.excluded
      plan.seed w = .error e w) ∨
    ∃ p w', Injecting.injectAll Program.registry plan.profile now root plan.included plan.excluded
        plan.seed w = .ok p w' ∧
      (p.manifest.files.isEmpty = true → IsClean d above entries w'.disk) ∧
      (p.manifest.files.isEmpty = false → ∃ path w'' is modules,
        Ledger.save root p.manifest w' = .ok path w'' ∧
        IsMarked plan d above entries w''.disk is modules p.manifest) := by
  obtain ⟨kept, hkept, hw⟩ := hclean
  have hunselected := unselected_kept hkept
  have hlookup : ∀ a ∈ Program.registry.adapters.map (·.2), kept.lookup a.moduleName = none := by
    intro a ha
    rcases hkept with rfl | rfl
    · rfl
    · exact Node.lookup_cons_of_ne (Program.moduleName_ne ha) _ _
  have hdiscover := h.discover_kept hw hunselected plan.included plan.excluded
  have hget : (get : Run World) w = .ok w w := rfl
  cases hfilter : Discovery.filterOf plan.included plan.excluded with
  | error e =>
    refine .inl ⟨e, ?_⟩
    rw [Injecting.injectAll, Injecting.injectAllUnless, Run.bind_of_eq_ok hget, hdiscover, hfilter]
    rfl
  | ok f =>
    have hfiles : Discovery.discover d root plan.included plan.excluded = .ok (found f entries) := by
      rw [Discovery.discover_eq, hfilter, h.entriesAt]
      rfl
    obtain ⟨p, w', hrun⟩ : ∃ p w', Injecting.injectAll Program.registry plan.profile now root
        plan.included plan.excluded plan.seed w = .ok p w' := by
      refine Injecting.exists_injectAll_eq_ok h.toIsProject Program.consistent_registry
        h.lookup_moduleName hlookup hw hunselected hfiles fun file hfile a source hadapter htext => ?_
      obtain ⟨result, hresult, -⟩ := (hsuits.files _ hfiles file hfile a source hadapter
        htext).exists_inject_eq_ok (Adapter.legible_of_forFile hadapter)
          (Plan.isBounded hvalid hsuits file)
      exact ⟨result, hresult⟩
    obtain ⟨f', is, modules, hfilter', hrecords, hw'⟩ := Injecting.of_injectAll_eq_ok h.toIsProject
      Program.consistent_registry h.lookup_moduleName hlookup hw hunselected hrun
    cases hfilter.symm.trans hfilter'
    have hall : p.manifest.files = is.map fun i => (i.file, i.record) := by rw [hrecords.manifest]
    refine .inr ⟨p, w', hrun, fun hempty => ?_, fun hempty => ?_⟩
    · have hnil : is = [] := by simpa [hall] using hempty
      have hmodules : modules = [] := by
        refine List.eq_nil_iff_forall_not_mem.mpr fun a ha => ?_
        obtain ⟨i, hi, -⟩ := hrecords.used a ha
        rw [hnil] at hi
        cases hi
      rw [hnil, hmodules, List.map_nil, List.append_nil, Injected.contentOf_nil] at hw'
      exact ⟨kept, hkept, hw'⟩
    · obtain ⟨hplain, hundone⟩ := isPlain_of_records h hvalid hsuits hfilter hrecords
      have hmem := Injecting.mem_of_used hrecords.arises hrecords.used
      have hstate : (modules.map Adapter.supportEntry).lookup stateFolder = none := by
        refine Adapter.lookup_supportEntry.mpr fun hmem' => ?_
        obtain ⟨a, ha, hname⟩ := List.mem_map.mp hmem'
        exact Program.moduleName_ne (hmem a ha) hname
      have hbefore : (kept ++ modules.map Adapter.supportEntry).lookup stateFolder = none ∨
          (kept ++ modules.map Adapter.supportEntry).lookup stateFolder = some (.folder []) := by
        rcases hkept with rfl | rfl
        · exact .inl hstate
        · exact .inr List.lookup_cons_self
      obtain ⟨path, w'', hsaved, hw''⟩ :=
        Ledger.save_eq_ok h.toIsProject h.state hw' p.manifest hbefore
      refine ⟨path, w'', is, modules, hsaved, hvalid.mode, ⟨now, f, hrecords⟩, hundone, hplain, ?_⟩
      rcases hkept with rfl | rfl
      · rw [List.nil_append, Node.putEntry_of_lookup_eq_none hstate] at hw''
        exact ⟨modules, [], by rw [List.append_nil], hw''⟩
      · exact ⟨[], modules, rfl, hw''.trans rfl⟩

end Clean

end Project

/-! ## A project of one file -/

section OneFile

open Restoring (oneFile oneFileRoot)

/-- What the built-in settings make of an injection into Python files. -/
def onePlan : Plan := ⟨{}, 0, Config.texts ["**/*.py"], (Config.defaults.lookup "exclude").getD .null⟩

def oneSource : List Char := "async def f():\n  g()\n".toList

def oneEntries : List (String × Node) := [("a.py", .file (encode oneSource))]

theorem isFresh_oneFile : IsFresh (oneFile oneSource) oneFileRoot ["p"] oneEntries where
  toIsProject := Restoring.isProject_oneFile oneSource
  modules := Restoring.lookup_oneFile oneSource
  state := rfl

theorem isValid_onePlan : onePlan.IsValid :=
  ⟨by decide, by decide, by decide, isShort_of_lt (k := 1) (by decide) (by decide)⟩

theorem suits_oneSource : Python.adapter.Suits oneSource { filePath := "a.py" } := by
  -- the text stays a variable until there is something to compute
  obtain ⟨source, hsource⟩ : ∃ t, t = oneSource := ⟨_, rfl⟩
  obtain ⟨options, hoptions⟩ : ∃ o : Options, o = { filePath := "a.py" } := ⟨_, rfl⟩
  obtain ⟨layout, hlayout⟩ : ∃ l : Layout, l = ⟨[⟨"f", [⟨.plain, 17, 2, 2⟩]⟩], 0, false⟩ := ⟨_, rfl⟩
  obtain ⟨hclean, layout', placed, output, hlocate', hapart, -, -⟩ :=
    Adapter.exists_inject_of_async_def (hsource.trans rfl)
  rw [← hoptions] at hlocate' hapart
  have hlocate : Python.adapter.locate (encode source) options = .ok layout := by
    subst hsource hoptions hlayout
    decide +kernel
  have hsame : layout' = layout := by
    rw [show Python.locate = Python.adapter.locate from rfl, hlocate] at hlocate'
    exact (Except.ok.inj hlocate').symm
  have hsmall : ∀ c ∈ choices (encode source) options Python.adapter.spelling layout.bodies,
      c.index < 2 ^ 8 ∧ c.site.line.natAbs < 2 ^ 8 ∧ c.site.column.natAbs < 2 ^ 8 := by
    subst hsource hoptions hlayout
    decide +kernel
  rw [← hsource, ← hoptions]
  refine ⟨hclean, fun layout'' hlayout'' c hc => ?_, fun layout'' hlayout'' _ => ?_⟩
  · rw [hlocate] at hlayout''
    cases hlayout''
    obtain ⟨hindex, hline, hcolumn⟩ := hsmall c hc
    exact ⟨isShort_of_lt (k := 8) (by omega) (by decide), isShort_of_lt hline (by decide),
      isShort_of_lt hcolumn (by decide)⟩
  · rw [hlocate] at hlayout''
    cases hlayout''
    exact hsame ▸ hapart

theorem names_of_oneEntries {names : List String} {bytes : Bytes}
    (hat : (Node.folder oneEntries).at? names = some (.file bytes)) : names = ["a.py"] := by
  cases names with
  | nil => cases hat
  | cons first names =>
    rw [Node.at?] at hat
    obtain ⟨node, hnode, hat⟩ := Option.bind_eq_some_iff.mp hat
    by_cases hfirst : first = "a.py"
    · subst hfirst
      cases (List.lookup_cons_self : oneEntries.lookup "a.py" = _).symm.trans hnode
      cases names with
      | nil => rfl
      | cons next names => cases hat
    · rw [oneEntries, Node.lookup_cons_of_ne hfirst] at hnode
      cases hnode

/-- Whatever patterns are given, no other file can be reached. -/
theorem suits_oneFile (included excluded : Json) :
    (Plan.mk {} 0 included excluded).Suits (oneFile oneSource) oneFileRoot := by
  refine ⟨by norm_num, fun files hfiles file hfile a source hadapter htext => ?_⟩
  have hfile' : file = "a.py" := by
    rw [Discovery.discover_eq, isFresh_oneFile.entriesAt] at hfiles
    cases hfilter : Discovery.filterOf included excluded with
    | error e =>
      rw [hfilter] at hfiles
      cases hfiles
    | ok f =>
      rw [hfilter] at hfiles
      cases hfiles
      obtain ⟨names, bytes, hat, rfl⟩ := isFresh_oneFile.exists_names_of_found file hfile
      rw [names_of_oneEntries hat, Restoring.fileOf_oneFile]
  subst hfile'
  cases Restoring.forFile_oneFile.symm.trans hadapter
  cases (Restoring.textAt_oneFile oneSource).symm.trans htext
  exact suits_oneSource

/-- Injection marks the file. -/
theorem exists_marked_oneFile (now : String) {w : World} (hw : w.disk = oneFile oneSource) :
    ∃ p w₁ path w₂ is modules,
      Injecting.injectAll Program.registry {} now oneFileRoot onePlan.included onePlan.excluded 0 w =
        .ok p w₁ ∧
      Ledger.save oneFileRoot p.manifest w₁ = .ok path w₂ ∧ p.manifest.files.length = 1 ∧
      IsMarked onePlan (oneFile oneSource) ["p"] oneEntries w₂.disk is modules p.manifest := by
  obtain ⟨-, layout, placed, output, -, -, hlength, hinject⟩ :=
    Adapter.exists_inject_of_async_def (rfl : oneSource = _)
  have hpoints : placed.map (·.2) ≠ [] := fun h => by
    rw [List.map_eq_nil_iff.mp h] at hlength
    cases hlength
  have hclean : IsClean (oneFile oneSource) ["p"] oneEntries w.disk := by
    rw [hw]
    exact isFresh_oneFile.isClean
  have hdiscovered := Restoring.discover_oneFile_of_defaults oneSource
  obtain ⟨p, w₁, hrun⟩ := Restoring.exists_injectAll_of_discovered hdiscovered hinject _ now hw
  rcases injectAll_of_isClean isFresh_oneFile isValid_onePlan (suits_oneFile _ _) hclean now with
    ⟨e, herror⟩ | ⟨p', w₁', hrun', -, hsome⟩
  · cases hrun.symm.trans herror
  · cases hrun.symm.trans hrun'
    have hone : p.manifest.files.length = 1 := congrArg List.length
      (Restoring.files_of_discovered hdiscovered hinject rfl rfl hpoints hw hrun)
    have hfiles : p.manifest.files.isEmpty = false := by
      cases hnil : p.manifest.files with
      | nil => rw [hnil] at hone; cases hone
      | cons f files => rfl
    obtain ⟨path, w₂, is, modules, hsaved, hmarked⟩ := hsome hfiles
    exact ⟨p, w₁, path, w₂, is, modules, hrun, hsaved, hone, hmarked⟩

end OneFile
end DelayInjection
