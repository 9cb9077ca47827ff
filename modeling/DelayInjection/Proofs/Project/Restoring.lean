import DelayInjection.Project.Restoring
import DelayInjection.Proofs.Project.Injecting
import DelayInjection.Proofs.Recovery.Line
import Mathlib.Algebra.Ring.Nat

/-! Restoration, by the ledger or by patterns, takes back what injection did to the files of a
project. -/

namespace DelayInjection

open Disk (Node Path)
open Disk.Node (isFormedIn isProper overlayIn replaced)
open Discovery (fileOf)
open Text.Utf8 (Bytes encode)

namespace Injected

/-- How many lines injection wrote. -/
def lines (i : Injected) : Nat :=
  2 * i.result.points.length + if i.result.referenceAdded then 1 else 0

/-- Removal takes back what injection did. -/
def Undone (i : Injected) : Prop := i.adapter.remove i.result.source = ⟨i.source, i.lines⟩

theorem lines_ne_zero {i : Injected} (h : i.result.points ≠ []) : i.lines ≠ 0 := by
  have hpos := List.length_pos_iff.mpr h
  rw [lines]
  omega

variable {registry : Registry} {profile : Profile} {seed : Int} {d : Disk} {above : List String}
  {entries others : List (String × Node)} {before behind : List Injected} {i : Injected}

/-- A file with its old bytes is as good as one that was never written. -/
theorem overlaid_undone (hformed : isFormedIn entries = true)
    (hi : i.Arises registry profile seed d above entries)
    (hnodup : ((before ++ i :: behind).map names).Nodup) :
    d.overlaid above (replaced (contentOf (before ++ i :: behind)) i.names (encode i.source))
        entries others =
      d.overlaid above (contentOf (before ++ behind)) entries others := by
  rw [Disk.overlaid, Disk.overlaid]
  congr 2
  refine Node.overlayIn_congr hformed fun first rest bytes hat => ?_
  rw [replaced]
  split
  next hnames =>
    have hbytes : bytes = encode i.source := by
      have hfile := hi.at_eq
      rw [← hnames, Node.at?, hat] at hfile
      simpa using hfile
    have hnew : i.names ∉ (before ++ behind).map names := by
      rw [List.map_append, List.map_cons] at hnodup
      rw [List.map_append]
      exact (List.nodup_middle.mp hnodup |> List.nodup_cons.mp).1
    rw [hnames, contentOf_of_not_mem hnew, hbytes]
  next hnames =>
    have hne : i.names ≠ first :: rest := Ne.symm hnames
    rw [contentOf, contentOf, List.find?_append, List.find?_append,
      List.find?_cons_of_neg (by simpa using hne)]

end Injected

namespace Restoring

variable {registry : Registry} {profile : Profile} {seed : Int} {d : Disk} {root : Path}
  {above : List String} {entries others : List (String × Node)} (h : IsProject d root above entries)

include h

theorem textOf?_eq_ok {content : List String → Bytes → Bytes} {names : List String} {bytes : Bytes}
    (hat : (Node.folder entries).at? names = some (.file bytes)) {w : World}
    (hw : w.disk = d.overlaid above content entries others) :
    textOf? root (fileOf names) w =
      .ok (Text.Utf8.decode (content names bytes)).toOption w := by
  have htext : Run.textAt (root.join (Path.ofText (fileOf names))) w.disk =
      (Text.Utf8.decode (content names bytes)).mapError .undecodable := by
    rw [hw, h.textAt hat]
  have hlook : Run.look (Run.textAt (root.join (Path.ofText (fileOf names)))) w =
      .ok (Run.textAt (root.join (Path.ofText (fileOf names))) w.disk) w := rfl
  refine (Run.bind_of_eq_ok hlook).trans ?_
  rw [htext]
  cases Text.Utf8.decode (content names bytes) <;> rfl

section Undone

variable (before : List Injected) {behind : List Injected} {i : Injected}
  (hi : i.Arises registry profile seed d above entries)
  (hnodup : ((before ++ i :: behind).map Injected.file).Nodup)

include hi hnodup

theorem textOf?_injected {w : World}
    (hw : w.disk = d.overlaid above (Injected.contentOf (before ++ i :: behind)) entries others) :
    textOf? root i.file w = .ok (some i.result.source) w := by
  have htext := textOf?_eq_ok h hi.at_eq hw
  rw [Injected.contentOf_of_mem (Injected.nodup_names hnodup) (by simp),
    Text.Utf8.decode_encode] at htext
  exact htext

theorem restore_injected (hundone : i.Undone) (s : Summary) {w : World}
    (hw : w.disk = d.overlaid above (Injected.contentOf (before ++ i :: behind)) entries others) :
    ∃ w', restore root i.file (i.adapter.remove i.result.source) s w =
        .ok { s with files := s.files + 1, lines := s.lines + i.lines } w' ∧
      w'.disk = d.overlaid above (Injected.contentOf (before ++ behind)) entries others := by
  have hrewrite := h.rewrite hi.at_eq i.source hw
  rw [hi.unlocked, if_neg (by simp), Injected.overlaid_undone h.formed hi
    (Injected.nodup_names hnodup)] at hrewrite
  refine ⟨{ w with disk := _ }, ?_, rfl⟩
  rw [restore, hundone]
  exact Run.bind_of_eq_ok hrewrite

end Undone

/-- The ledger leads back to the project as it was. -/
theorem restoreListed_eq_ok {m : Manifest} {todo : List Injected}
    (hlookup : ∀ i ∈ todo, m.files.lookup i.file = some i.record)
    (harises : ∀ i ∈ todo, i.Arises registry profile seed d above entries)
    (hget : ∀ i ∈ todo, registry.get i.adapter.id = some i.adapter)
    (hundone : ∀ i ∈ todo, i.Undone) (hnodup : (todo.map Injected.file).Nodup) (s : Summary)
    {w : World} (hw : w.disk = d.overlaid above (Injected.contentOf todo) entries others) :
    ∃ w', restoreListed registry root m s (todo.map fun i => (i.file, i.record)) w =
        .ok { s with files := s.files + todo.length, lines := s.lines + (todo.map (·.lines)).sum }
          w' ∧
      w'.disk = d.overlaid above (fun _ bytes => bytes) entries others := by
  induction todo generalizing s w with
  | nil => exact ⟨w, rfl, hw⟩
  | cons i todo ih =>
    have hi := harises i (by simp)
    have hrest := hnodup
    rw [List.map_cons, List.nodup_cons] at hrest
    obtain ⟨w₁, hrestore, hw₁⟩ := restore_injected h [] hi hnodup (hundone i (by simp)) s hw
    have hrecord : restoreRecord registry root m s i.file i.record w =
        .ok { s with files := s.files + 1, lines := s.lines + i.lines } w₁ := by
      have hadapter : Run.ofExcept (adapterOf registry i.record.adapterId) w =
          .ok (some i.adapter) w := by
        rw [Run.ofExcept_eq_ok]
        exact ⟨congrArg Except.ok (hget i (by simp)), rfl⟩
      have hsame : m.isUnmodified i.file (hashContent i.result.source) = true := by
        rw [Manifest.isUnmodified, hlookup i (by simp)]
        simp [Injected.record, Json.isStr]
      rw [restoreRecord, Run.bind_of_eq_ok hadapter]
      refine (Run.bind_of_eq_ok (textOf?_injected h [] hi hnodup hw)).trans ?_
      simp only [hsame, if_true]
      exact hrestore
    obtain ⟨w', hlisted, hw'⟩ := ih (fun j hj => hlookup j (by simp [hj]))
      (fun j hj => harises j (by simp [hj])) (fun j hj => hget j (by simp [hj]))
      (fun j hj => hundone j (by simp [hj])) hrest.2
      { s with files := s.files + 1, lines := s.lines + i.lines } hw₁
    refine ⟨w', ?_, hw'⟩
    rw [List.map_cons, restoreListed, Run.bind_of_eq_ok hrecord, hlisted, List.length_cons,
      List.map_cons, List.sum_cons, Nat.add_right_comm s.files, Nat.add_assoc s.files,
      Nat.add_assoc s.lines]

/-- Patterns lead back there as well, if they select all files that injection wrote, and the others
are clean. -/
theorem restoreFound_eq_ok (files : List String) {todo : List Injected}
    (hfiles : ∀ file ∈ files, registry.forFile file = none ∨ ∃ names bytes,
      (Node.folder entries).at? names = some (.file bytes) ∧ file = fileOf names)
    (hclean : ∀ file ∈ files, ∀ a names source, registry.forFile file = some a →
      file = fileOf names → (Node.folder entries).at? names = some (.file (encode source)) →
      (a.remove source).removed = 0)
    (harises : ∀ i ∈ todo, i.Arises registry profile seed d above entries)
    (hundone : ∀ i ∈ todo, i.Undone) (hnodup : (todo.map Injected.file).Nodup)
    (hnodupFiles : files.Nodup) (hmem : ∀ i ∈ todo, i.file ∈ files) (s : Summary)
    {w : World} (hw : w.disk = d.overlaid above (Injected.contentOf todo) entries others) :
    ∃ w', restoreFound registry root s files w =
        .ok { s with files := s.files + todo.length, lines := s.lines + (todo.map (·.lines)).sum }
          w' ∧
      w'.disk = d.overlaid above (fun _ bytes => bytes) entries others := by
  induction files generalizing todo s w with
  | nil =>
    cases todo with
    | nil => exact ⟨w, rfl, hw⟩
    | cons i todo => exact absurd (hmem i (by simp)) (by simp)
  | cons file files ih =>
    rw [List.nodup_cons] at hnodupFiles
    have hfiles' := fun f hf => hfiles f (List.mem_cons_of_mem _ hf)
    have hclean' := fun f hf => hclean f (List.mem_cons_of_mem _ hf)
    by_cases hwritten : file ∈ todo.map Injected.file
    · obtain ⟨i, hitodo, rfl⟩ := List.mem_map.mp hwritten
      obtain ⟨before, behind, rfl⟩ := List.append_of_mem hitodo
      have hi := harises i hitodo
      have htext := textOf?_injected h before hi hnodup hw
      obtain ⟨w₁, hrestore, hw₁⟩ := restore_injected h before hi hnodup (hundone i hitodo) s hw
      have hsplit : ∀ j ∈ before ++ behind, j ∈ before ++ i :: behind := by
        intro j hj
        rcases List.mem_append.mp hj with hj | hj <;> simp [hj]
      rw [List.map_append, List.map_cons, List.nodup_middle, List.nodup_cons, ← List.map_append]
        at hnodup
      have hmem' : ∀ j ∈ before ++ behind, j.file ∈ files := by
        intro j hj
        rcases List.mem_cons.mp (hmem j (hsplit j hj)) with heq | hin
        · exact absurd (heq ▸ List.mem_map_of_mem hj) hnodup.1
        · exact hin
      obtain ⟨w', hrest, hw'⟩ := ih hfiles' hclean' (fun j hj => harises j (hsplit j hj))
        (fun j hj => hundone j (hsplit j hj)) hnodup.2 hnodupFiles.2 hmem'
        { s with files := s.files + 1, lines := s.lines + i.lines } hw₁
      refine ⟨w', ?_, hw'⟩
      have hremoved : (i.adapter.remove i.result.source).removed ≠ 0 := by
        rw [hundone i hitodo]
        exact Injected.lines_ne_zero hi.points
      rw [restoreFound, hi.forFile]
      refine (Run.bind_of_eq_ok htext).trans ?_
      simp only [if_neg hremoved]
      refine (Run.bind_of_eq_ok hrestore).trans (hrest.trans ?_)
      have hperm : (before ++ i :: behind).Perm (i :: (before ++ behind)) := List.perm_middle
      rw [hperm.length_eq, (hperm.map _).sum_nat, List.length_cons, List.map_cons, List.sum_cons,
        Nat.add_right_comm s.files, Nat.add_assoc s.files, Nat.add_assoc s.lines]
    · have hmem' : ∀ i ∈ todo, i.file ∈ files := by
        intro i hi
        rcases List.mem_cons.mp (hmem i hi) with heq | hin
        · exact absurd (heq ▸ List.mem_map_of_mem hi) hwritten
        · exact hin
      obtain ⟨w', hrest, hw'⟩ := ih hfiles' hclean' harises hundone hnodup hnodupFiles.2 hmem' s hw
      refine ⟨w', ?_, hw'⟩
      rw [restoreFound]
      cases hadapter : registry.forFile file with
      | none => exact hrest
      | some a =>
        rcases hfiles file (by simp) with hnone | ⟨names, bytes, hat, hname⟩
        · rw [hnone] at hadapter
          cases hadapter
        have hcontent : Injected.contentOf todo names bytes = bytes := by
          refine Injected.contentOf_of_not_mem (fun hin => hwritten ?_) bytes
          obtain ⟨j, hj, rfl⟩ := List.mem_map.mp hin
          exact hname ▸ List.mem_map_of_mem hj
        have htext := textOf?_eq_ok h hat hw
        rw [hcontent, ← hname] at htext
        refine (Run.bind_of_eq_ok htext).trans ?_
        cases hdecode : Text.Utf8.decode bytes with
        | error e => exact hrest
        | ok source =>
          have hremoved := hclean file (by simp) a names source hadapter hname
            (by rw [hat, Text.Utf8.encode_of_decode hdecode])
          simp only [Except.toOption, hremoved, if_true]
          exact hrest

/-! ## Whole projects -/

omit h in
theorem scannerOf_of_ne_null {record : FileRecord} (hnull : record.adapterId ≠ .null) (file : String) :
    scannerOf registry file record = adapterOf registry record.adapterId := by
  unfold scannerOf
  split
  next h => exact absurd h hnull
  next => rfl

omit h in
theorem scannerOf_of_adapterOf {record : FileRecord} {a : Adapter} (file : String)
    (ha : adapterOf registry record.adapterId = .ok (some a)) :
    scannerOf registry file record = .ok (some a) := by
  rw [scannerOf_of_ne_null (fun hnull => ?_) file, ha]
  rw [hnull] at ha
  cases ha

theorem removeSupport_eq_ok {content : List String → Bytes → Bytes} (names : List String)
    (hproper : ∀ n ∈ names, isProper n = true) (hnone : ∀ n ∈ names, entries.lookup n = none)
    (hfiles : ∀ e ∈ others, e.1 ∈ names → ∃ bytes, e.2 = .file bytes) {w : World}
    (hw : w.disk = d.overlaid above content entries others) :
    ∃ w', removeSupport root (names.map .str) w = .ok () w' ∧
      w'.disk = d.overlaid above content entries (others.filter fun e => e.1 ∉ names) := by
  induction names generalizing others w with
  | nil => exact ⟨w, rfl, by simpa using hw⟩
  | cons name names ih =>
    have hfile : ∀ node, others.lookup name = some node → ∃ bytes, node = .file bytes := by
      intro node hnode
      obtain ⟨before, behind, rfl, -⟩ := List.lookup_eq_some_iff.mp hnode
      exact hfiles (name, node) (by simp) (by simp)
    have hremove := h.remove (hproper name (by simp)) (hnone name (by simp)) hfile hw
    obtain ⟨w', hrest, hw'⟩ := ih (fun n hn => hproper n (by simp [hn]))
      (fun n hn => hnone n (by simp [hn]))
      (fun e he hn => hfiles e (List.mem_of_mem_filter he) (List.mem_cons_of_mem _ hn)) (w := { w with disk := _ }) rfl
    refine ⟨w', (Run.bind_of_eq_ok hremove).trans hrest, ?_⟩
    rw [hw', List.filter_filter]
    congr 1
    refine List.filter_congr fun e _ => ?_
    simp [Bool.and_comm]

omit h in
theorem filter_supportEntry {modules : List Adapter} {names : List String}
    (hall : ∀ a ∈ modules, a.moduleName ∈ names) :
    (modules.map Adapter.supportEntry).filter (fun e => e.1 ∉ names) = [] := by
  rw [List.filter_eq_nil_iff]
  intro e he
  obtain ⟨a, ha, rfl⟩ := List.mem_map.mp he
  simp [Adapter.supportEntry, hall a ha]

omit h in
/-- What is found in one file. -/
def scanOf (registry : Registry) (root : Path) (d : Disk) (file : String) : List FileScan :=
  match registry.forFile file, Run.textAt (root.join (Path.ofText file)) d with
  | some a, .ok text => if (a.scan text).isEmpty then [] else [⟨file, a.scan text⟩]
  | _, _ => []

omit h in
/-- A scan by patterns looks at the files that they select. -/
theorem scanByGlobsUnless_of_discover {refusal : Path → Option Disk.Error} {included excluded : Json}
    {files : List String} {w : World}
    (hfiles : Discovery.discover w.disk root included excluded = .ok files) :
    scanByGlobsUnless refusal registry root included excluded w =
      scanFoundUnless refusal registry root files w := by
  have hget : (get : Run World) w = .ok w w := rfl
  rw [scanByGlobsUnless, Run.bind_of_eq_ok hget]
  exact Run.bind_of_eq_ok (Run.ofExcept_eq_ok.mpr ⟨hfiles, rfl⟩)

/-- A scan changes nothing and does not fail. -/
theorem scanFound_eq_ok {content : List String → Bytes → Bytes} {files : List String}
    (hfiles : ∀ file ∈ files, registry.forFile file = none ∨ ∃ names bytes,
      (Node.folder entries).at? names = some (.file bytes) ∧ file = fileOf names)
    {w : World} (hw : w.disk = d.overlaid above content entries others) :
    scanFound registry root files w = .ok (files.flatMap (scanOf registry root w.disk)) w := by
  induction files with
  | nil => rfl
  | cons file files ih =>
    have hrest := ih fun f hf => hfiles f (List.mem_cons_of_mem _ hf)
    rw [scanFound, scanFoundUnless, List.flatMap_cons]
    cases hadapter : registry.forFile file with
    | none =>
      rw [scanOf, hadapter]
      exact (Run.bind_of_eq_ok hrest).trans rfl
    | some a =>
      rcases hfiles file (by simp) with hnone | ⟨names, bytes, hat, rfl⟩
      · rw [hnone] at hadapter
        cases hadapter
      have htext := textOf?_eq_ok h hat hw
      have hscan : scanFile a root (fileOf names) w =
          .ok (scanOf registry root w.disk (fileOf names)) w := by
        rw [scanOf, hadapter, hw, h.textAt hat]
        refine (Run.bind_of_eq_ok htext).trans ?_
        cases Text.Utf8.decode (content names bytes) <;> rfl
      exact (Run.bind_of_eq_ok hscan).trans ((Run.bind_of_eq_ok hrest).trans rfl)

omit h in
theorem scan_eq_nil_of_scanOf {d : Disk} {file : String} (hscan : scanOf registry root d file = [])
    {a : Adapter} {source : List Char} (hadapter : registry.forFile file = some a)
    (htext : Run.textAt (root.join (Path.ofText file)) d = .ok source) : a.scan source = [] := by
  rw [scanOf, hadapter, htext] at hscan
  simpa using hscan

end Restoring
end DelayInjection
