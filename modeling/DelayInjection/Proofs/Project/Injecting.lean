import DelayInjection.Proofs.Disk.Frame
import DelayInjection.Proofs.Json.Members
import DelayInjection.Proofs.Project.Fate
import Mathlib.Data.List.Induction
import Mathlib.Data.List.Nodup

/-! What a run of injection did when it ends: the files that it wrote with what they hold, its ledger,
and the support modules behind the entries of the project. -/

namespace DelayInjection

open Disk (Node Path)
open Disk.Node (isFormedIn isProper overlayIn replaced)
open Discovery (fileOf)
open Text.Utf8 (Bytes encode)

/-- A file into which delays were injected. -/
structure Injected where
  names : List String
  adapter : Adapter
  source : List Char
  result : InjectionResult

namespace Injected

def file (i : Injected) : String := fileOf i.names

def record (i : Injected) : FileRecord :=
  ⟨.str i.adapter.id, .str (hashContent i.source), .str (hashContent i.result.source),
    i.result.points.map PointEntry.ofPoint, i.result.referenceAdded⟩

/-- The bytes of all files after injection. -/
def contentOf (is : List Injected) (names : List String) (bytes : Bytes) : Bytes :=
  match is.find? fun i => i.names = names with
  | some i => encode i.result.source
  | none => bytes

theorem contentOf_nil : contentOf [] = fun _ bytes => bytes := rfl

theorem contentOf_of_not_mem {is : List Injected} {names : List String}
    (h : names ∉ is.map Injected.names) (bytes : Bytes) : contentOf is names bytes = bytes := by
  have hfind : (is.find? fun i => i.names = names) = none := by
    rw [List.find?_eq_none]
    intro i hi hnames
    exact h (List.mem_map.mpr ⟨i, hi, by simpa using hnames⟩)
  rw [contentOf, hfind]

theorem contentOf_of_new {is : List Injected} {names : List String}
    (hnew : fileOf names ∉ is.map file) (bytes : Bytes) : contentOf is names bytes = bytes := by
  refine contentOf_of_not_mem (fun hmem => hnew ?_) bytes
  obtain ⟨j, hj, rfl⟩ := List.mem_map.mp hmem
  exact List.mem_map_of_mem hj

theorem not_mem_append {is first : List Injected} {files : List String} {name : String}
    (hnew : ∀ f ∈ files, f ∉ is.map file) (hfirst : ∀ i ∈ first, i.file = name)
    (hname : name ∉ files) : ∀ f ∈ files, f ∉ (is ++ first).map file := by
  intro f hf hmem
  rw [List.map_append, List.mem_append] at hmem
  rcases hmem with hmem | hmem
  · exact hnew f hf hmem
  · obtain ⟨i, hi, rfl⟩ := List.mem_map.mp hmem
    exact hname (hfirst i hi ▸ hf)

theorem contentOf_of_mem {is : List Injected} (hnodup : (is.map Injected.names).Nodup)
    {i : Injected} (hi : i ∈ is) (bytes : Bytes) :
    contentOf is i.names bytes = encode i.result.source := by
  induction is with
  | nil => cases hi
  | cons j is ih =>
    rw [List.map_cons, List.nodup_cons] at hnodup
    rw [contentOf, List.find?_cons]
    rcases List.mem_cons.mp hi with rfl | hi
    · simp
    · have hne : j.names ≠ i.names := fun h => hnodup.1 (h ▸ List.mem_map_of_mem hi)
      simp only [hne, decide_false]
      exact ih hnodup.2 hi

theorem contentOf_append {is : List Injected} {i : Injected} (h : i.names ∉ is.map Injected.names) :
    contentOf (is ++ [i]) = replaced (contentOf is) i.names (encode i.result.source) := by
  funext names bytes
  rw [replaced, contentOf, List.find?_append]
  by_cases hnames : names = i.names
  · subst hnames
    have hfind : (is.find? fun j => j.names = i.names) = none := by
      rw [List.find?_eq_none]
      intro j hj hnames
      exact h (List.mem_map.mpr ⟨j, hj, by simpa using hnames⟩)
    rw [hfind, if_pos rfl, Option.none_or, List.find?_cons_of_pos (by simp)]
  · rw [if_neg hnames, contentOf, List.find?_cons_of_neg (by simpa using Ne.symm hnames),
      List.find?_nil, Option.or_none]

/-- What injection made of a file of the project that may be written. -/
structure Arises (registry : Registry) (profile : Profile) (seed : Int) (d : Disk)
    (above : List String) (entries : List (String × Node)) (i : Injected) : Prop where
  at_eq : (Node.folder entries).at? i.names = some (.file (encode i.source))
  forFile : registry.forFile i.file = some i.adapter
  inject : i.adapter.inject i.source (profile.options i.file seed) = .ok i.result
  points : i.result.points ≠ []
  unlocked : d.locked.contains (above ++ i.names) = false

theorem nodup_names {is : List Injected} (h : (is.map file).Nodup) : (is.map names).Nodup := by
  rw [show file = fileOf ∘ names from rfl, ← List.map_map] at h
  exact List.Nodup.of_map _ h

end Injected

/-- The support module of an adapter as an entry of a folder. -/
def Adapter.supportEntry (a : Adapter) : String × Node := (a.moduleName, .file (encode a.moduleText))

/-- Adapters can be told apart by their ids and by the names of their support modules, and a support
module is handled by none of them. -/
structure Registry.IsConsistent (registry : Registry) : Prop where
  get : ∀ a ∈ registry.adapters.map (·.2), registry.get a.id = some a
  isProper : ∀ a ∈ registry.adapters.map (·.2), isProper a.moduleName = true
  moduleName : ∀ a ∈ registry.adapters.map (·.2), ∀ b ∈ registry.adapters.map (·.2),
    a.moduleName = b.moduleName → a = b
  unhandled : ∀ a ∈ registry.adapters.map (·.2), registry.forFile a.moduleName = none

namespace Adapter

theorem isFormedIn_supportEntry {as : List Adapter} (hproper : ∀ a ∈ as, isProper a.moduleName = true)
    (hnodup : (as.map moduleName).Nodup) : isFormedIn (as.map supportEntry) = true := by
  induction as with
  | nil => rfl
  | cons a as ih =>
    rw [List.map_cons, List.nodup_cons] at hnodup
    refine Node.isFormedIn_cons.mpr ⟨hproper a (by simp), ?_, rfl,
      ih (fun b hb => hproper b (by simp [hb])) hnodup.2⟩
    rw [List.lookup_eq_none_iff]
    intro e he
    obtain ⟨b, hb, rfl⟩ := List.mem_map.mp he
    simpa [supportEntry] using fun hname : a.moduleName = b.moduleName =>
      hnodup.1 (hname ▸ List.mem_map_of_mem hb)

theorem lookup_supportEntry {as : List Adapter} {name : String} :
    (as.map supportEntry).lookup name = none ↔ name ∉ as.map Adapter.moduleName := by
  rw [List.lookup_eq_none_iff]
  constructor
  · intro hall hmem
    obtain ⟨a, ha, rfl⟩ := List.mem_map.mp hmem
    simpa [supportEntry] using hall _ (List.mem_map_of_mem ha)
  · intro hname e he
    obtain ⟨a, ha, rfl⟩ := List.mem_map.mp he
    simpa [supportEntry] using fun hn : name = a.moduleName =>
      hname (hn ▸ List.mem_map_of_mem ha)

end Adapter

namespace Injecting

namespace Fate

/-- What was injected into the file with the given names. -/
def injected? (names : List String) : Fate → Option Injected
  | written a source result => some ⟨names, a, source, result⟩
  | _ => none

def reason? : Fate → Option String
  | skipped reason => some reason
  | _ => none

end Fate

section Fates

variable (refusal : Path → Option Disk.Error) (registry : Registry) (profile : Profile) (seed : Int)
  (d : Disk) (root : Path)

/-- What a run injects into a file. -/
def injectedAt (file : String) : Option Injected :=
  (fateAt refusal registry profile seed d root file).toOption.bind
    (Fate.injected? (Path.ofText file).names)

/-- Why a run passes over a file. -/
def reasonAt (file : String) : Option String :=
  (fateAt refusal registry profile seed d root file).toOption.bind Fate.reason?

/-- The files that a run passes over, with the reasons. -/
def skipsOf (files : List String) : List (String × String) :=
  files.filterMap fun file =>
    (reasonAt refusal registry profile seed d root file).map (file, ·)

end Fates

/-- How far a run has come that started with an empty ledger: the files that it wrote stand in the
ledger, and all other files are as they were. -/
structure Progress.Traces (registry : Registry) (profile : Profile) (seed : Int) (d : Disk)
    (above : List String) (entries kept : List (String × Node)) (start : Manifest)
    (is : List Injected) (skips : List (String × String)) (p : Progress) (w : World) : Prop where
  disk : w.disk = d.overlaid above (Injected.contentOf is) entries kept
  manifest : p.manifest = { start with files := is.map fun i => (i.file, i.record) }
  skipped : p.skipped = skips
  arises : ∀ i ∈ is, i.Arises registry profile seed d above entries
  nodup : (is.map Injected.file).Nodup
  used : ∀ a ∈ p.used, ∃ i ∈ is, i.adapter = a
  ids : p.used.map (·.id) = (is.map (·.adapter.id)).eraseDups

/-- What the ledger of a whole run records: the files that were written, and the modules that were
copied for them. -/
structure Records (registry : Registry) (profile : Profile) (seed : Int) (d : Disk) (above : List String)
    (entries : List (String × Node)) (now : String) (files : List String) (is : List Injected)
    (modules : List Adapter) (m : Manifest) : Prop where
  manifest : m = { Manifest.start now (.int seed) (.str profile.mode) with
    files := is.map fun i => (i.file, i.record)
    supportFiles := modules.map fun a => .str a.moduleName }
  arises : ∀ i ∈ is, i.Arises registry profile seed d above entries
  found : ∀ i ∈ is, i.file ∈ files
  nodup : (is.map Injected.file).Nodup
  used : ∀ a ∈ modules, ∃ i ∈ is, i.adapter = a
  nodupUsed : (modules.map Adapter.moduleName).Nodup

variable {refusal : Path → Option Disk.Error} {registry : Registry} {profile : Profile} {seed : Int}
  {d : Disk} {root : Path} {above : List String} {entries others kept : List (String × Node)}
  (h : IsProject d root above entries)

/-! ## Lists without repetitions -/

section EraseDups

variable {α β : Type} [DecidableEq α] [DecidableEq β]

theorem eraseDups_concat (l : List α) (a : α) :
    (l ++ [a]).eraseDups = if a ∈ l then l.eraseDups else l.eraseDups ++ [a] := by
  rw [List.eraseDups_append, List.removeAll]
  by_cases ha : a ∈ l <;> simp [ha, List.eraseDups_cons]

theorem nodup_eraseDups (l : List α) : l.eraseDups.Nodup := by
  induction l using List.reverseRecOn with
  | nil => exact List.nodup_nil
  | append_singleton l a ih =>
    rw [eraseDups_concat]
    split
    next => exact ih
    next ha =>
      rw [← List.concat_eq_append, List.nodup_concat]
      exact ⟨fun hmem => ha (List.mem_eraseDups.mp hmem), ih⟩

theorem eraseDups_map_eraseDups (f : α → β) (l : List α) :
    (l.eraseDups.map f).eraseDups = (l.map f).eraseDups := by
  induction l using List.reverseRecOn with
  | nil => rfl
  | append_singleton l a ih =>
    rw [eraseDups_concat, List.map_append, List.map_cons, List.map_nil, eraseDups_concat]
    split
    next ha => rw [if_pos (List.mem_map_of_mem ha), ih]
    next ha =>
      rw [List.map_append, List.map_cons, List.map_nil, eraseDups_concat, ih]
      simp only [List.mem_map, List.mem_eraseDups]

end EraseDups

/-! ## One file after the other -/

theorem manifest_use (p : Progress) (a : Adapter) : (p.use a).manifest = p.manifest := by
  unfold Progress.use
  split <;> rfl

theorem skipped_use (p : Progress) (a : Adapter) : (p.use a).skipped = p.skipped := by
  unfold Progress.use
  split <;> rfl

theorem mem_used_use {p : Progress} {a b : Adapter} (hb : b ∈ (p.use a).used) :
    b ∈ p.used ∨ b = a := by
  unfold Progress.use at hb
  split at hb
  · exact .inl hb
  · exact (List.mem_append.mp hb).imp_right List.mem_singleton.mp

theorem ids_use {p : Progress} {ids : List String} (hp : p.used.map (·.id) = ids.eraseDups)
    (a : Adapter) : (p.use a).used.map (·.id) = (ids ++ [a.id]).eraseDups := by
  have hany : p.used.any (·.id = a.id) = true ↔ a.id ∈ ids := by
    rw [← List.mem_eraseDups, ← hp]
    simp
  rw [eraseDups_concat, Progress.use]
  split
  next hmem => rw [if_pos (hany.mp hmem), hp]
  next hmem =>
    rw [if_neg fun ha => hmem (hany.mpr ha), List.map_append, hp]
    rfl

theorem Progress.Traces.record {start : Manifest} {is : List Injected}
    {skips : List (String × String)} {p : Progress} {w w' : World}
    (htraces : p.Traces registry profile seed d above entries kept start is skips w) {i : Injected}
    (hi : i.Arises registry profile seed d above entries) (hnew : i.file ∉ is.map Injected.file)
    (hw : w'.disk = d.overlaid above
      (replaced (Injected.contentOf is) i.names (encode i.result.source)) entries kept) :
    (p.record i.adapter i.file i.source i.result).Traces registry profile seed d above entries kept
      start (is ++ [i]) skips w' := by
  obtain ⟨hdisk, hmanifest, hskipped, harises, hnodup, hused, hids⟩ := htraces
  have hnames : i.names ∉ is.map Injected.names := by
    intro hmem
    obtain ⟨j, hj, hij⟩ := List.mem_map.mp hmem
    exact hnew (List.mem_map.mpr ⟨j, hj, by rw [Injected.file, hij]; rfl⟩)
  have hadded : p.manifest.addFile i.file i.record =
      { start with files := (is ++ [i]).map fun i => (i.file, i.record) } := by
    rw [Manifest.addFile, hmanifest, Json.put_of_not_mem, List.map_append]
    · rfl
    · rw [List.map_map]
      exact hnew
  have hrecord : p.record i.adapter i.file i.source i.result =
      Progress.use { p with manifest := p.manifest.addFile i.file i.record } i.adapter := rfl
  refine ⟨?_, ?_, ?_, ?_, ?_, ?_, ?_⟩
  · rw [hw, Injected.contentOf_append hnames]
  · rw [hrecord, manifest_use]
    exact hadded
  · rw [hrecord, skipped_use]
    exact hskipped
  · intro j hj
    rcases List.mem_append.mp hj with hj | hj
    · exact harises j hj
    · rw [List.mem_singleton.mp hj]
      exact hi
  · rw [List.map_append, List.nodup_append]
    refine ⟨hnodup, List.nodup_singleton _, ?_⟩
    rintro a ha b hb rfl
    exact hnew (List.mem_singleton.mp hb ▸ ha)
  · intro a ha
    rw [hrecord] at ha
    rcases mem_used_use ha with ha | rfl
    · obtain ⟨j, hj, hja⟩ := hused a ha
      exact ⟨j, by simp [hj], hja⟩
    · exact ⟨i, by simp, rfl⟩
  · rw [hrecord, List.map_append]
    exact @ids_use { p with manifest := p.manifest.addFile i.file i.record } _ hids _

theorem Progress.Traces.nodup_ids {start : Manifest} {is : List Injected}
    {skips : List (String × String)} {p : Progress} {w : World}
    (htraces : p.Traces registry profile seed d above entries kept start is skips w) :
    (p.used.map (·.id)).Nodup := by
  rw [htraces.ids]
  exact nodup_eraseDups _

include h

theorem injectedAt_eq {names : List String} {bytes : Bytes}
    (hat : (Node.folder entries).at? names = some (.file bytes)) {fate : Fate}
    (hfate : fateAt refusal registry profile seed d root (fileOf names) = .ok fate) :
    injectedAt refusal registry profile seed d root (fileOf names) = fate.injected? names := by
  rw [injectedAt, hfate, h.ofText_fileOf hat]
  rfl

theorem arises_of_fateAt {names : List String} {bytes : Bytes}
    (hat : (Node.folder entries).at? names = some (.file bytes)) {a : Adapter} {source : List Char}
    {result : InjectionResult}
    (hfate : fateAt refusal registry profile seed d root (fileOf names) =
      .ok (.written a source result)) :
    Injected.Arises registry profile seed d above entries ⟨names, a, source, result⟩ := by
  rw [fateAt_fileOf h hat] at hfate
  obtain ⟨hadapter, hdecode, hinject, hpoints, -, hlocked⟩ := of_fateOf_eq_written hfate
  exact ⟨by rw [hat, Text.Utf8.encode_of_decode hdecode], hadapter, hinject, hpoints, hlocked⟩

/-- One file more, that met its fate. -/
theorem Progress.Traces.step {start : Manifest} {is : List Injected}
    {skips : List (String × String)} {p p' : Progress} {w w' : World}
    (htraces : p.Traces registry profile seed d above entries kept start is skips w)
    {names : List String} {bytes : Bytes}
    (hat : (Node.folder entries).at? names = some (.file bytes))
    (hnew : fileOf names ∉ is.map Injected.file)
    (hrun : injectFile refusal registry profile seed root p (fileOf names) w = .ok p' w') :
    p'.Traces registry profile seed d above entries kept start
      (is ++ [fileOf names].filterMap (injectedAt refusal registry profile seed d root))
      (skips ++ skipsOf refusal registry profile seed d root [fileOf names]) w' := by
  have hcontent := Injected.contentOf_of_new hnew bytes
  obtain ⟨fate, hfate, rfl, hdisk⟩ := of_injectFile_eq_ok h hat hcontent htraces.disk hrun
  have hinjected := injectedAt_eq h hat hfate
  have hreason : reasonAt refusal registry profile seed d root (fileOf names) = fate.reason? := by
    rw [reasonAt, hfate]
    rfl
  rw [skipsOf, List.filterMap_cons, hinjected, List.filterMap_cons, hreason]
  cases fate with
  | kept =>
    simp only [Fate.injected?, Fate.reason?, List.filterMap_nil, List.append_nil, Option.map_none]
    exact { htraces with disk := hdisk }
  | skipped reason =>
    simp only [Fate.injected?, Fate.reason?, List.filterMap_nil, List.append_nil, Option.map_some]
    exact { htraces with
      disk := hdisk
      skipped := congrArg (· ++ [(fileOf names, reason)]) htraces.skipped }
  | written a source result =>
    simp only [Fate.injected?, Fate.reason?, List.filterMap_nil, List.append_nil, Option.map_none]
    exact htraces.record (arises_of_fateAt h hat hfate) hnew hdisk

theorem names_of_injectedAt {names : List String} {bytes : Bytes}
    (hat : (Node.folder entries).at? names = some (.file bytes)) {i : Injected}
    (hi : injectedAt refusal registry profile seed d root (fileOf names) = some i) :
    i.names = names := by
  obtain ⟨fate, -, hfate⟩ := Option.bind_eq_some_iff.mp hi
  rw [h.ofText_fileOf hat] at hfate
  cases fate with
  | kept => cases hfate
  | skipped reason => cases hfate
  | written a source result =>
    cases hfate
    rfl

/-- A file that was injected into could be read. -/
theorem refusal_of_injectedAt {names : List String} {bytes : Bytes}
    (hat : (Node.folder entries).at? names = some (.file bytes)) {i : Injected}
    (hi : injectedAt refusal registry profile seed d root (fileOf names) = some i) :
    refusal (root.join (Path.ofText (fileOf names))) = none := by
  rw [injectedAt, fateAt_fileOf h hat] at hi
  cases hfate : fateOf registry profile seed (fileOf names) bytes
      (refusal (root.join (Path.ofText (fileOf names)))) (d.locked.contains (above ++ names)) with
  | error e =>
    rw [hfate] at hi
    cases hi
  | ok fate =>
    rw [hfate] at hi
    cases fate with
    | kept => cases hi
    | skipped reason => cases hi
    | written a source result =>
      obtain ⟨-, -, -, -, hrefused, -⟩ := of_fateOf_eq_written hfate
      exact hrefused

theorem of_mem_injected {files : List String}
    (hfiles : ∀ file ∈ files, ∃ names bytes,
      (Node.folder entries).at? names = some (.file bytes) ∧ file = fileOf names) {i : Injected}
    (hi : i ∈ files.filterMap (injectedAt refusal registry profile seed d root)) :
    i.file ∈ files ∧ injectedAt refusal registry profile seed d root i.file = some i := by
  obtain ⟨file, hfile, hi⟩ := List.mem_filterMap.mp hi
  obtain ⟨names, bytes, hat, rfl⟩ := hfiles file hfile
  rw [Injected.file, names_of_injectedAt h hat hi]
  exact ⟨hfile, hi⟩

theorem file_of_mem_injected {names : List String} {bytes : Bytes}
    (hat : (Node.folder entries).at? names = some (.file bytes)) :
    ∀ i ∈ [fileOf names].filterMap (injectedAt refusal registry profile seed d root),
      i.file = fileOf names := by
  intro i hi
  obtain ⟨file, hfile, hi⟩ := List.mem_filterMap.mp hi
  cases List.mem_singleton.mp hfile
  rw [Injected.file, names_of_injectedAt h hat hi]

theorem of_injectFiles_eq_ok {start : Manifest} {files : List String} {is : List Injected}
    {skips : List (String × String)} {p p' : Progress} {w w' : World}
    (htraces : p.Traces registry profile seed d above entries kept start is skips w)
    (hfiles : ∀ file ∈ files, ∃ names bytes,
      (Node.folder entries).at? names = some (.file bytes) ∧ file = fileOf names)
    (hnodup : files.Nodup) (hnew : ∀ file ∈ files, file ∉ is.map Injected.file)
    (hrun : injectFiles refusal registry profile seed root p files w = .ok p' w') :
    p'.Traces registry profile seed d above entries kept start
      (is ++ files.filterMap (injectedAt refusal registry profile seed d root))
      (skips ++ skipsOf refusal registry profile seed d root files) w' := by
  induction files generalizing is skips p w with
  | nil =>
    cases hrun
    simpa [skipsOf] using htraces
  | cons file files ih =>
    obtain ⟨p₁, w₁, hfile, hrest⟩ := Run.bind_eq_ok.mp hrun
    obtain ⟨names, bytes, hat, rfl⟩ := hfiles file (by simp)
    rw [List.nodup_cons] at hnodup
    have hfirst := htraces.step h hat (hnew _ (by simp)) hfile
    have hlast := ih hfirst (fun f hf => hfiles f (by simp [hf])) hnodup.2
      (Injected.not_mem_append (fun f hf => hnew f (by simp [hf])) (file_of_mem_injected h hat)
        hnodup.1) hrest
    rwa [List.append_assoc, ← List.filterMap_append, List.append_assoc, skipsOf, skipsOf,
      ← List.filterMap_append] at hlast

/-- The run does not end early if injection succeeds for all files. -/
theorem exists_injectFiles_eq_ok {start : Manifest} {files : List String} {is : List Injected}
    {skips : List (String × String)} {p : Progress} {w : World}
    (htraces : p.Traces registry profile seed d above entries kept start is skips w)
    (hfiles : ∀ file ∈ files, ∃ names bytes,
      (Node.folder entries).at? names = some (.file bytes) ∧ file = fileOf names)
    (hnodup : files.Nodup) (hnew : ∀ file ∈ files, file ∉ is.map Injected.file)
    (hinject : ∀ file ∈ files, ∀ a source, registry.forFile file = some a →
      Run.textAt (root.join (Path.ofText file)) d = .ok source →
      ∃ result, a.inject source (profile.options file seed) = .ok result) :
    ∃ p' w', injectFiles refusal registry profile seed root p files w = .ok p' w' := by
  induction files generalizing is skips p w with
  | nil => exact ⟨p, w, rfl⟩
  | cons file files ih =>
    obtain ⟨names, bytes, hat, rfl⟩ := hfiles file (by simp)
    rw [List.nodup_cons] at hnodup
    have hcontent := Injected.contentOf_of_new (hnew (fileOf names) (by simp)) bytes
    obtain ⟨fate, hfate⟩ : ∃ fate,
        fateAt refusal registry profile seed d root (fileOf names) = .ok fate := by
      rw [fateAt_fileOf h hat]
      refine exists_fateOf_eq_ok (fun a source hadapter hdecode => ?_) _ _
      refine hinject _ (by simp) a source hadapter ?_
      rw [h.textAt_self hat, hdecode]
      rfl
    obtain ⟨p₁, w₁, hfile⟩ := exists_injectFile_eq_ok h hat hcontent htraces.disk hfate
    have hfirst := htraces.step h hat (hnew _ (by simp)) hfile
    obtain ⟨p', w', hrest⟩ := ih hfirst (fun f hf => hfiles f (by simp [hf])) hnodup.2
      (Injected.not_mem_append (fun f hf => hnew f (by simp [hf])) (file_of_mem_injected h hat)
        hnodup.1) (fun f hf => hinject f (by simp [hf]))
    exact ⟨p', w', (Run.bind_of_eq_ok hfile).trans hrest⟩

/-! ## Support modules -/

omit h in
theorem manifest_copySupport {as : List Adapter} {m m' : Manifest} {w w' : World}
    (hrun : copySupport root m as w = .ok m' w') :
    m' = as.foldl (fun m a => m.addSupportFile a.moduleName) m := by
  induction as generalizing m w with
  | nil =>
    cases hrun
    rfl
  | cons a as ih =>
    obtain ⟨_, _, -, hrest⟩ := Run.bind_eq_ok.mp hrun
    exact ih hrest

omit h in
theorem files_copySupport {as : List Adapter} {m m' : Manifest} {w w' : World}
    (hrun : copySupport root m as w = .ok m' w') : m'.files = m.files := by
  rw [manifest_copySupport hrun]
  clear hrun
  induction as generalizing m with
  | nil => rfl
  | cons a as ih =>
    rw [List.foldl_cons, ih, Manifest.addSupportFile]
    split <;> rfl

omit h in
/-- Modules are listed once, in the order in which they are copied. -/
theorem supportFiles_foldl {m : Manifest} (hm : m.supportFiles = []) (as : List Adapter) :
    (as.foldl (fun m a => m.addSupportFile a.moduleName) m).supportFiles =
      (as.map Adapter.moduleName).eraseDups.map .str := by
  induction as using List.reverseRecOn with
  | nil => exact hm
  | append_singleton as a ih =>
    have hany : (as.foldl (fun m a => m.addSupportFile a.moduleName) m).supportFiles.any
        (·.isStr a.moduleName) = true ↔ a.moduleName ∈ as.map Adapter.moduleName := by
      rw [ih, List.any_map, List.any_eq_true, ← List.mem_eraseDups]
      simp [Json.isStr]
    rw [List.foldl_append, List.foldl_cons, List.foldl_nil, Manifest.addSupportFile, List.map_append,
      List.map_cons, List.map_nil, eraseDups_concat]
    split
    next hmem => rw [if_pos (hany.mp hmem), ih]
    next hmem =>
      rw [if_neg fun ha => hmem (hany.mpr ha), List.map_append, ← ih]
      rfl

/-- Copying changes nothing but the files with the names of the modules. -/
theorem agreesOff_copySupport {as : List Adapter}
    (hproper : ∀ a ∈ as, isProper a.moduleName = true) {entries' : List (String × Node)}
    (hkeeps : (Node.folder entries).Keeps (.folder entries')) (hformed : isFormedIn entries' = true)
    {m m' : Manifest} {w w' : World} (hw : w.disk = d.holding above entries')
    (hrun : copySupport root m as w = .ok m' w') :
    ∃ entries'', w'.disk = d.holding above entries'' ∧ isFormedIn entries'' = true ∧
      (Node.folder entries').AgreesOff (fun names => ∃ a ∈ as, names = [a.moduleName])
        (.folder entries'') := by
  induction as generalizing entries' m w with
  | nil =>
    cases hrun
    exact ⟨entries', hw, hformed, .refl⟩
  | cons a as ih =>
    obtain ⟨_, w₁, hwrite, hrest⟩ := Run.bind_eq_ok.mp hrun
    obtain ⟨hfile, hdisk⟩ := h.of_write_eq_ok (hproper a (by simp)) hkeeps hw hwrite
    have hfirst := Node.AgreesOff.putEntry hfile (encode a.moduleText)
    obtain ⟨entries'', hdisk', hformed', hagrees⟩ := ih (fun b hb => hproper b (by simp [hb]))
      (hkeeps.trans hfirst.folders) (Node.isFormedIn_putEntry (hproper a (by simp)) rfl hformed) hdisk hrest
    refine ⟨entries'', hdisk', hformed', .trans (hfirst.mono ?_) (hagrees.mono ?_)⟩
    · rintro names rfl
      exact ⟨a, by simp, rfl⟩
    · rintro names ⟨b, hb, rfl⟩
      exact ⟨b, by simp [hb], rfl⟩

/-- Support modules come behind the entries of the project one after the other. -/
theorem copySupport_eq_ok {content : List String → Bytes → Bytes} (finished : List Adapter)
    {rest : List Adapter}
    (hproper : ∀ a ∈ rest, isProper a.moduleName = true)
    (hnone : ∀ a ∈ rest, entries.lookup a.moduleName = none)
    (hkept : ∀ a ∈ rest, kept.lookup a.moduleName = none)
    (hnodup : ((finished ++ rest).map Adapter.moduleName).Nodup) {m : Manifest} {w : World}
    (hm : m.supportFiles = finished.map fun a => .str a.moduleName)
    (hw : w.disk = d.overlaid above content entries
      (kept ++ finished.map Adapter.supportEntry)) :
    copySupport root m rest w =
      .ok { m with supportFiles := (finished ++ rest).map fun a => .str a.moduleName }
        { w with disk := d.overlaid above content entries
                  (kept ++ (finished ++ rest).map Adapter.supportEntry) } := by
  induction rest generalizing finished m w with
  | nil =>
    rw [List.append_nil, ← hm, ← hw]
    rfl
  | cons a rest ih =>
    have hnew : a.moduleName ∉ finished.map Adapter.moduleName := by
      rw [List.map_append, List.nodup_append] at hnodup
      exact fun hmem => hnodup.2.2 _ hmem _ (by simp) rfl
    have hbehind : (kept ++ finished.map Adapter.supportEntry).lookup a.moduleName = none := by
      rw [List.lookup_append, hkept a (by simp), Adapter.lookup_supportEntry.mpr hnew]
      rfl
    have hwrite := h.write (hproper a (by simp)) (hnone a (by simp)) hbehind (encode a.moduleText) hw
    have hadd : (m.addSupportFile a.moduleName).supportFiles =
        (finished ++ [a]).map fun a => .str a.moduleName := by
      have hany : m.supportFiles.any (·.isStr a.moduleName) = false := by
        rw [hm, List.any_eq_false]
        intro j hj hstr
        obtain ⟨b, hb, rfl⟩ := List.mem_map.mp hj
        exact hnew (List.mem_map.mpr ⟨b, hb, by simpa [Json.isStr] using hstr⟩)
      rw [Manifest.addSupportFile, hany, List.map_append, ← hm]
      rfl
    have hentries : kept ++ finished.map Adapter.supportEntry ++
        [(a.moduleName, .file (encode a.moduleText))] =
        kept ++ (finished ++ [a]).map Adapter.supportEntry := by
      rw [List.map_append, List.append_assoc]
      rfl
    rw [hentries] at hwrite
    have hcons : finished ++ a :: rest = (finished ++ [a]) ++ rest := by simp
    rw [hcons] at hnodup ⊢
    let disk := d.overlaid above content entries
      (kept ++ (finished ++ [a]).map Adapter.supportEntry)
    have hrest := ih (finished ++ [a]) (fun b hb => hproper b (List.mem_cons_of_mem _ hb))
      (fun b hb => hnone b (List.mem_cons_of_mem _ hb))
      (fun b hb => hkept b (List.mem_cons_of_mem _ hb)) hnodup hadd (w := { w with disk := disk }) rfl
    rw [copySupport]
    refine (Run.bind_of_eq_ok hwrite).trans (hrest.trans ?_)
    rw [Manifest.addSupportFile]
    split <;> rfl

omit h in
/-- The run of an empty ledger before the first file. -/
theorem traces_start (start : Manifest) (hstart : start.files = []) {w : World}
    (hw : w.disk = d.overlaid above (fun _ bytes => bytes) entries kept) :
    Progress.Traces registry profile seed d above entries kept start [] [] { manifest := start } w := by
  refine ⟨?_, ?_, rfl, by simp, by simp, by simp, rfl⟩
  · rw [Injected.contentOf_nil, hw]
  · rw [List.map_nil, ← hstart]

omit h in
theorem mem_of_used {is : List Injected} {modules : List Adapter}
    (harises : ∀ i ∈ is, i.Arises registry profile seed d above entries)
    (hused : ∀ a ∈ modules, ∃ i ∈ is, i.adapter = a) :
    ∀ a ∈ modules, a ∈ registry.adapters.map (·.2) := by
  intro a ha
  obtain ⟨i, hi, rfl⟩ := hused a ha
  exact List.mem_of_find?_eq_some (harises i hi).forFile

omit h in
theorem nodup_moduleName (hregistry : registry.IsConsistent) {modules : List Adapter}
    (hmodules : ∀ a ∈ modules, a ∈ registry.adapters.map (·.2))
    (hnodup : (modules.map (·.id)).Nodup) : (modules.map Adapter.moduleName).Nodup := by
  rw [List.nodup_map_iff_inj_on (List.Nodup.of_map _ hnodup)]
  exact fun a ha b hb => hregistry.moduleName a (hmodules a ha) b (hmodules b hb)

/-- What a run that ends did before it copied the support modules. -/
theorem exists_traces_of_injectAll_eq_ok {now : String} {included excluded : Json} {w w' : World}
    {p : Progress} (hw : w.disk = d.overlaid above (fun _ bytes => bytes) entries kept)
    (hunselected : ∀ f, Discovery.selectedIn f [] kept = [])
    (hrun : injectAllUnless refusal registry profile now root included excluded seed w = .ok p w') :
    ∃ f, ∃ p₁ : Progress, ∃ w₁, Discovery.filterOf included excluded = .ok f ∧
      p₁.Traces registry profile seed d above entries kept
        (Manifest.start now (.int seed) (.str profile.mode))
        ((Discovery.found f entries).filterMap (injectedAt refusal registry profile seed d root))
        (skipsOf refusal registry profile seed d root (Discovery.found f entries)) w₁ ∧
      copySupport root p₁.manifest p₁.used w₁ = .ok p.manifest w' ∧ p.skipped = p₁.skipped := by
  have hdiscover := h.discover_kept hw hunselected included excluded
  obtain ⟨_, _, hget, hrest⟩ := Run.bind_eq_ok.mp hrun
  cases hget
  obtain ⟨files, w₁, hdiscovered, hrest₁⟩ := Run.bind_eq_ok.mp hrest
  obtain ⟨hfiles, rfl⟩ := Run.ofExcept_eq_ok.mp hdiscovered
  rw [hdiscover] at hfiles
  obtain ⟨p₁, w₂, hinject, hrest₂⟩ := Run.bind_eq_ok.mp hrest₁
  obtain ⟨m, w₃, hcopy, hend⟩ := Run.bind_eq_ok.mp hrest₂
  cases hend
  cases hfilter : Discovery.filterOf included excluded with
  | error e =>
    rw [hfilter] at hfiles
    cases hfiles
  | ok f =>
    rw [hfilter] at hfiles
    cases hfiles
    have htraces := of_injectFiles_eq_ok h (traces_start _ rfl hw) h.exists_names_of_found
      (Discovery.nodup_found h.formed) (by simp) hinject
    exact ⟨f, p₁, w₂, rfl, htraces, hcopy, rfl⟩

section All

variable (hregistry : registry.IsConsistent)
  (hnone : ∀ a ∈ registry.adapters.map (·.2), entries.lookup a.moduleName = none)
  (hkept : ∀ a ∈ registry.adapters.map (·.2), kept.lookup a.moduleName = none)

include hregistry hnone hkept

/-- Copying follows the files, and ends the run. -/
theorem copySupport_of_traces {start : Manifest} (hstart : start.supportFiles = [])
    {is : List Injected} {skips : List (String × String)} {p : Progress} {w : World}
    (htraces : p.Traces registry profile seed d above entries kept start is skips w) :
    copySupport root p.manifest p.used w =
      .ok { start with
        files := is.map fun i => (i.file, i.record)
        supportFiles := p.used.map fun a => .str a.moduleName }
        { w with disk := d.overlaid above (Injected.contentOf is) entries
                  (kept ++ p.used.map Adapter.supportEntry) } := by
  have hmem := mem_of_used htraces.arises htraces.used
  have hempty : p.manifest.supportFiles = [] := by rw [htraces.manifest, hstart]
  have hcopied := copySupport_eq_ok h [] (fun a ha => hregistry.isProper a (hmem a ha))
    (fun a ha => hnone a (hmem a ha)) (fun a ha => hkept a (hmem a ha))
    (nodup_moduleName hregistry hmem htraces.nodup_ids) hempty
    (htraces.disk.trans (by rw [List.map_nil, List.append_nil]))
  rw [hcopied, htraces.manifest]
  rfl

theorem of_injectAll_eq_ok {now : String} {included excluded : Json} {w w' : World} {p : Progress}
    (hw : w.disk = d.overlaid above (fun _ bytes => bytes) entries kept)
    (hunselected : ∀ f, Discovery.selectedIn f [] kept = [])
    (hrun : injectAll registry profile now root included excluded seed w = .ok p w') :
    ∃ f is modules, Discovery.filterOf included excluded = .ok f ∧
      Records registry profile seed d above entries now (Discovery.found f entries) is modules
        p.manifest ∧
      w'.disk = d.overlaid above (Injected.contentOf is) entries
        (kept ++ modules.map Adapter.supportEntry) := by
  obtain ⟨f, p₁, w₁, hfilter, htraces, hcopy, -⟩ :=
    exists_traces_of_injectAll_eq_ok h hw hunselected hrun
  obtain ⟨hmanifest, hdisk⟩ := EStateM.Result.ok.inj
    (hcopy.symm.trans (copySupport_of_traces h hregistry hnone hkept rfl htraces))
  have hused := nodup_moduleName hregistry (mem_of_used htraces.arises htraces.used)
    htraces.nodup_ids
  exact ⟨f, _, p₁.used, hfilter, ⟨hmanifest, htraces.arises,
    fun i hi => (of_mem_injected h h.exists_names_of_found hi).1, htraces.nodup, htraces.used, hused⟩,
    hdisk ▸ rfl⟩

theorem exists_injectAll_eq_ok {now : String} {included excluded : Json} {files : List String}
    {w : World} (hw : w.disk = d.overlaid above (fun _ bytes => bytes) entries kept)
    (hunselected : ∀ f, Discovery.selectedIn f [] kept = [])
    (hfiles : Discovery.discover d root included excluded = .ok files)
    (hinject : ∀ file ∈ files, ∀ a source, registry.forFile file = some a →
      Run.textAt (root.join (Path.ofText file)) d = .ok source →
      ∃ result, a.inject source (profile.options file seed) = .ok result) :
    ∃ p w', injectAllUnless refusal registry profile now root included excluded seed w =
      .ok p w' := by
  obtain ⟨f, hfilter, rfl⟩ := Discovery.of_discover_eq_ok hfiles
  rw [h.entriesAt] at hinject
  have hdiscovered := h.discover_kept hw hunselected included excluded
  have htraces : Progress.Traces registry profile seed d above entries kept _ [] [] _ w :=
    traces_start (Manifest.start now (.int seed) (.str profile.mode)) rfl hw
  obtain ⟨p₁, w₁, hrun⟩ : ∃ p₁ w₁, injectFiles refusal registry profile seed root _
      (Discovery.found f entries) w = .ok p₁ w₁ :=
    exists_injectFiles_eq_ok h htraces h.exists_names_of_found (Discovery.nodup_found h.formed)
      (by simp) hinject
  have htraces₁ := of_injectFiles_eq_ok h htraces h.exists_names_of_found
    (Discovery.nodup_found h.formed) (by simp) hrun
  have hget : (get : Run World) w = .ok w w := rfl
  have hdiscover : Run.ofExcept (Discovery.discover w.disk root included excluded) w =
      .ok (Discovery.found f entries) w := Run.ofExcept_eq_ok.mpr ⟨by rw [hdiscovered, hfilter]; rfl, rfl⟩
  obtain ⟨m, w₂, hcopied⟩ : ∃ m w₂, copySupport root p₁.manifest p₁.used w₁ = .ok m w₂ :=
    ⟨_, _, copySupport_of_traces h hregistry hnone hkept rfl htraces₁⟩
  refine ⟨{ p₁ with manifest := m }, w₂, ?_⟩
  rw [injectAllUnless, Run.bind_of_eq_ok hget, Run.bind_of_eq_ok hdiscover]
  refine (Run.bind_of_eq_ok hrun).trans ?_
  exact (Run.bind_of_eq_ok hcopied).trans rfl

end All
end Injecting
end DelayInjection
