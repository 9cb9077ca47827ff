import DelayInjection.Proofs.Project.Removal
import DelayInjection.Proofs.Project.RoundTrip

/-! A preview beside the restoration that it announces. The preview reads all files before the restoration
writes the first one, so they can only agree because no two files that are restored are the same one, and
because a support module that goes is none of them. -/

namespace DelayInjection

open Disk (Node Path)
open Disk.Node (isFormedIn)
open Discovery (fileOf found)
open Recovery (withoutLines)
open Text.Utf8 (Bytes encode)

namespace Discovery

variable {d : Disk} {root : Path} {f : Filter} {file : String}

/-- Where something is found the path leads to a folder. -/
theorem exists_leads_of_mem_found (hfile : file ∈ found f (d.entriesAt root)) :
    ∃ above, d.Leads root above (d.entriesAt root) := by
  have hne : d.entriesAt root ≠ [] := by
    intro hnil
    rw [hnil] at hfile
    obtain ⟨path, hpath, -⟩ := mem_found.mp hfile
    cases hpath
  unfold Disk.entriesAt at hne ⊢
  cases hlocate : d.locate root with
  | error e =>
    rw [hlocate] at hne
    exact absurd rfl hne
  | ok above =>
    rw [hlocate] at hne
    dsimp only at hne ⊢
    split at hne
    next entries hat =>
      refine ⟨above, Disk.locate_eq_ok.mp hlocate, ?_⟩
      rw [hat]
    next => exact absurd rfl hne

/-- A found file lies where its names lead to. -/
theorem locate_of_mem_found {above : List String} {entries : List (String × Node)}
    (hleads : d.Leads root above entries) (hformed : isFormedIn entries = true)
    (hfile : file ∈ found f entries) :
    ∃ names, file = fileOf names ∧ d.locate (root.join (Path.ofText file)) = .ok (above ++ names) := by
  obtain ⟨first, names, bytes, hat, rfl⟩ := exists_names_of_mem_found hformed hfile
  have hproper : (first :: names).all Node.isProper = true :=
    @Node.isProper_of_at? (.folder entries) _ hformed _ hat
  have hlocate := hleads.locate_below (fun _ inner hinner => ⟨inner, hinner⟩) (by simp) hproper hat
  rw [hleads.holding_self] at hlocate
  exact ⟨first :: names, rfl, by rw [ofText_fileOf (by simp) hproper, hlocate]⟩

end Discovery

namespace Restoring

variable {registry : Registry} {root : Path} {m : Manifest} {q : Aim} {d : Disk} {w w' : World}
  {s : Summary} {text : List Char}

/-- What a preview lists for a file. -/
def listedFor (scans : List FileScan) (file : String) : List RecoveryMatch :=
  ((scans.find? (·.file = file)).map (·.matched)).getD []

/-- All scans of the file list the same. -/
theorem listedFor_eq {scans : List FileScan} {file : String} {matched : List RecoveryMatch}
    (hsame : ∀ g ∈ scans, g.file = file → g.matched = matched)
    (hlisted : matched ≠ [] → ∃ g ∈ scans, g.file = file) : listedFor scans file = matched := by
  unfold listedFor
  cases hfind : scans.find? (·.file = file) with
  | some g =>
    exact hsame g (List.mem_of_find?_eq_some hfind) (by simpa using List.find?_some hfind)
  | none =>
    refine (Decidable.byContradiction fun hne => ?_ : matched = []).symm
    obtain ⟨g, hg, hfile⟩ := hlisted hne
    simpa [hfile] using List.find?_eq_none.mp hfind g hg

/-- A file that no other aim leads to is listed with the lines found in it. -/
theorem listedFor_of_apart {aims : List Aim} (hapart : d.Apart (Aim.path root) aims) (hmem : q ∈ aims)
    (htext : Run.textAt (q.path root) d = .ok text) :
    listedFor (aims.flatMap (Aim.scan root d)) q.file = q.adapter.scan text := by
  obtain ⟨-, names, -, hlocate, -⟩ := Run.textAt_eq_ok_iff.mp htext
  refine listedFor_eq (fun g hg hfile => ?_) fun hne => ?_
  · obtain ⟨other, hother, hg⟩ := List.mem_flatMap.mp hg
    obtain ⟨old, hold, -, rfl⟩ := Aim.mem_scan_iff.mp hg
    have hpath : other.path root = q.path root := congrArg (fun file => root.join (Path.ofText file)) hfile
    cases hapart.eq_of_locate hmem hother hlocate (hpath ▸ hlocate)
    cases htext.symm.trans hold
    rfl
  · exact ⟨_, List.mem_flatMap.mpr ⟨q, hmem, Aim.mem_scan_iff.mpr ⟨text, htext, hne, rfl⟩⟩, rfl⟩

/-! ## Files that patterns select -/

/-- Found files are different files. -/
theorem apart_foundAims {f : Discovery.Filter} (hformed : d.root.isFormed = true) :
    d.Apart (Aim.path root) (foundAims registry (found f (d.entriesAt root))) := by
  cases hfound : found f (d.entriesAt root) with
  | nil => exact List.Pairwise.nil
  | cons first rest =>
    rw [← hfound]
    obtain ⟨above, hleads⟩ := Discovery.exists_leads_of_mem_found (hfound ▸ List.mem_cons_self)
    have hentries : isFormedIn (d.entriesAt root) = true := Node.isFormed_of_at? hformed hleads.folder
    rw [Disk.Apart, foundAims, List.pairwise_filterMap]
    refine List.Pairwise.imp_of_mem ?_ (Discovery.nodup_found hentries)
    intro file other hfile hother hne q hq q' hq' names hlocate hlocate'
    obtain ⟨a, -, rfl⟩ := Option.map_eq_some_iff.mp hq
    obtain ⟨a', -, rfl⟩ := Option.map_eq_some_iff.mp hq'
    obtain ⟨below, rfl, hbelow⟩ := Discovery.locate_of_mem_found hleads hentries hfile
    obtain ⟨below', rfl, hbelow'⟩ := Discovery.locate_of_mem_found hleads hentries hother
    have heq := (hbelow.symm.trans hlocate).trans (hlocate'.symm.trans hbelow')
    exact hne (congrArg fileOf (List.append_cancel_left (Except.ok.inj heq)))

/-- None of them is a support module. -/
theorem not_module_of_mem_foundAims (hregistry : registry.IsConsistent) {f : Discovery.Filter}
    (hformed : d.root.isFormed = true) (hmem : q ∈ foundAims registry (found f (d.entriesAt root)))
    {names : List String} (hlocate : d.locate (q.path root) = .ok names) {a : Adapter}
    (ha : a ∈ registry.adapters.map (·.2)) :
    d.locate (root.join (Path.ofText a.moduleName)) ≠ .ok names := by
  intro hmodule
  obtain ⟨hfile, hhandled⟩ := mem_foundAims_iff.mp hmem
  obtain ⟨above, hleads⟩ := Discovery.exists_leads_of_mem_found hfile
  have hentries : isFormedIn (d.entriesAt root) = true := Node.isFormed_of_at? hformed hleads.folder
  obtain ⟨below, hbelow, hlocate'⟩ := Discovery.locate_of_mem_found hleads hentries hfile
  have hproper : [a.moduleName].all Node.isProper = true := by simp [hregistry.isProper a ha]
  have hchild := hleads.locate_child (fun _ inner hinner => ⟨inner, hinner⟩)
    (Disk.isProper_iff.mp (hregistry.isProper a ha)).2.2.1
  have hname : fileOf [a.moduleName] = a.moduleName := by
    rw [fileOf, Disk.slashed_singleton, String.ofList_toList]
  have hpath : Path.ofText a.moduleName = ⟨false, [a.moduleName]⟩ := by
    have hpath := Discovery.ofText_fileOf (by simp) hproper
    rwa [hname] at hpath
  rw [hleads.holding_self, ← hpath, hmodule] at hchild
  cases hchild
  have hsame : below = [a.moduleName] :=
    List.append_cancel_left (Except.ok.inj (hlocate'.symm.trans hlocate))
  rw [hbelow, hsame, hname, hregistry.unhandled a ha] at hhandled
  cases hhandled

/-- Restoration by patterns takes out what the preview by the same patterns lists, and touches nothing else
but support modules. -/
theorem of_restoreByGlobs (hregistry : registry.IsConsistent) (hformed : w.disk.root.isFormed = true)
    {included excluded : Json} (h : restoreByGlobs registry root included excluded w = .ok s w') :
    ∃ scans, scanByGlobs registry root included excluded w = .ok scans w ∧
      s.files = scans.length ∧ s.lines = lineCount scans ∧
      (∀ f ∈ scans, ∃ text, Run.textAt (root.join (Path.ofText f.file)) w.disk = .ok text ∧
        Run.textAt (root.join (Path.ofText f.file)) w'.disk = .ok (withoutLines f.matched text)) ∧
      w.disk.root.AgreesOff (fun names =>
        (∃ f ∈ scans, w.disk.locate (root.join (Path.ofText f.file)) = .ok names) ∨
        ∃ a ∈ registry.adapters.map (·.2),
          w.disk.locate (root.join (Path.ofText a.moduleName)) = .ok names) w'.disk.root := by
  have hget : (get : Run World) w = .ok w w := rfl
  rw [restoreByGlobs, Run.bind_of_eq_ok hget] at h
  obtain ⟨files, w₁, hfiles, hrun⟩ := Run.bind_eq_ok.mp h
  obtain ⟨hdiscover, rfl⟩ := Run.ofExcept_eq_ok.mp hfiles
  obtain ⟨s₁, w₂, hrestored, hrest⟩ := Run.bind_eq_ok.mp hrun
  obtain ⟨_, w₃, hremoved, hend⟩ := Run.bind_eq_ok.mp hrest
  cases hend
  obtain ⟨hplain, hdisk, hcount, hlines⟩ := of_restoreFound hformed hrestored
  obtain ⟨f, -, rfl⟩ := Discovery.of_discover_eq_ok hdiscover
  have hapart := @apart_foundAims registry root _ f hformed
  rw [Aim.scansOnWay_of_apart hapart] at hcount hlines
  have hagrees := (of_removeSupport hremoved).2.2
  -- a place that a support module leads to is named by an adapter, before the removals as after them
  have hmodule : ∀ names, (∃ file, Json.str file ∈ registry.adapters.map (fun a => Json.str a.2.moduleName) ∧
      w₂.disk.locate (root.join (Path.ofText file)) = .ok names) →
      ∃ a ∈ registry.adapters.map (·.2),
        w₁.disk.locate (root.join (Path.ofText a.moduleName)) = .ok names := by
    rintro names ⟨file, hfile, hlocate⟩
    obtain ⟨e, he, hname⟩ := List.mem_map.mp hfile
    cases hname
    rw [hdisk, Aim.locate_restored] at hlocate
    exact ⟨e.2, List.mem_map_of_mem he, hlocate⟩
  refine ⟨_, ?_, hcount.trans (Nat.zero_add _), hlines.trans (Nat.zero_add _),
    fun g hg => ?_, ?_⟩
  · exact (scanByGlobsUnless_of_discover hdiscover).trans (scanFoundUnless_of_plain hplain)
  · obtain ⟨q, hq, hg⟩ := List.mem_flatMap.mp hg
    obtain ⟨text, htext, -, rfl⟩ := Aim.mem_scan_iff.mp hg
    have hrestored := Aim.textAt_restored_of_apart hapart hq htext
    rw [← hdisk] at hrestored
    refine ⟨text, htext, Run.textAt_of_agreesOff hagrees hrestored fun names hlocate hsome => ?_⟩
    obtain ⟨a, ha, hmodule⟩ := hmodule names hsome
    rw [hdisk, Aim.locate_restored] at hlocate
    exact not_module_of_mem_foundAims hregistry hformed hq hlocate ha hmodule
  · rw [hdisk] at hagrees
    refine ((Aim.agreesOff_restored hplain).mono ?_).trans
      (hagrees.mono fun names hsome => .inr (hmodule names (hdisk ▸ hsome)))
    rintro names ⟨q, hq, hscan, hlocate⟩
    obtain ⟨g, hg⟩ := List.exists_mem_of_ne_nil _ hscan
    obtain ⟨text, -, -, rfl⟩ := Aim.mem_scan_iff.mp hg
    exact .inl ⟨_, List.mem_flatMap.mpr ⟨q, hq, hg⟩, hlocate⟩

/-! ## Files that a ledger lists -/

/-- The records of the ledger lead to different files, and none of them to a support module. -/
structure IsDistinct (root : Path) (d : Disk) (m : Manifest) : Prop where
  apart : d.Apart (fun f : String × FileRecord => root.join (Path.ofText f.1)) m.files
  support : ∀ f ∈ m.files, ∀ file, .str file ∈ m.supportFiles → ∀ names,
    d.locate (root.join (Path.ofText f.1)) = .ok names → d.locate (root.join (Path.ofText file)) ≠ .ok names

theorem apart_listedAims {files : List (String × FileRecord)}
    (h : d.Apart (fun f : String × FileRecord => root.join (Path.ofText f.1)) files) :
    d.Apart (Aim.path root) (listedAims registry files) := by
  rw [Disk.Apart, listedAims, List.pairwise_filterMap]
  refine List.Pairwise.imp (fun {f g} hapart q hq q' hq' => ?_) h
  obtain ⟨a, -, rfl⟩ := Option.map_eq_some_iff.mp hq
  obtain ⟨a', -, rfl⟩ := Option.map_eq_some_iff.mp hq'
  exact hapart

/-- A listed file ends without what the preview lists for it. -/
theorem textAt_restored_of_mem {files : List (String × FileRecord)} {f : String × FileRecord}
    (hapart : d.Apart (fun f : String × FileRecord => root.join (Path.ofText f.1)) files)
    (hadmits : ∀ f ∈ files, Admits registry root d f) (hf : f ∈ files)
    (htext : Run.textAt (root.join (Path.ofText f.1)) d = .ok text) :
    Run.textAt (root.join (Path.ofText f.1)) (Aim.restored root d (listedAims registry files)) =
      .ok (withoutLines (listedFor ((listedAims registry files).flatMap (Aim.scan root d)) f.1) text) := by
  have haims := @apart_listedAims registry _ _ _ hapart
  obtain ⟨a?, ha⟩ := (hadmits f hf).adapter
  cases a? with
  | some a =>
    have hmem : ⟨f.1, a⟩ ∈ listedAims registry files := mem_listedAims_iff.mpr ⟨f.2, hf, ha⟩
    have hread : Run.textAt ((⟨f.1, a⟩ : Aim).path root) d = .ok text := htext
    have hlisted : listedFor ((listedAims registry files).flatMap (Aim.scan root d)) f.1 = a.scan text :=
      listedFor_of_apart (q := ⟨f.1, a⟩) haims hmem hread
    have hrestored := Aim.textAt_restored_of_apart (q := ⟨f.1, a⟩) haims hmem hread
    rw [hlisted]
    exact hrestored
  | none =>
    -- no record leads to the file but this one, which has no adapter
    obtain ⟨-, place, -, hplace, -⟩ := Run.textAt_eq_ok_iff.mp htext
    have hnone : ∀ q ∈ listedAims registry files, d.locate (q.path root) ≠ .ok place := by
      intro q hq hlocate
      obtain ⟨record, hmem, hadapter⟩ := mem_listedAims_iff.mp hq
      have heq := hapart.eq_of_locate hf hmem hplace hlocate
      rw [← heq] at ha
      rw [ha] at hadapter
      cases hadapter
    have hlisted : listedFor ((listedAims registry files).flatMap (Aim.scan root d)) f.1 = [] := by
      refine listedFor_eq (fun g hg hfile => ?_) fun hne => absurd rfl hne
      obtain ⟨q, hq, hg⟩ := List.mem_flatMap.mp hg
      obtain ⟨old, -, -, rfl⟩ := Aim.mem_scan_iff.mp hg
      have hpath : q.path root = root.join (Path.ofText f.1) :=
        congrArg (fun file => root.join (Path.ofText file)) hfile
      exact absurd (hpath ▸ hplace) (hnone q hq)
    rw [hlisted, Recovery.withoutLines_nil]
    refine (Aim.textAt_restored_of_none fun q hq names hlocate => ?_).mpr htext
    cases hplace.symm.trans hlocate
    exact hnone q hq

/-- Restoration by a ledger takes out what the preview of the ledger lists. -/
theorem of_restoreAll (hformed : w.disk.root.isFormed = true) (hdistinct : IsDistinct root w.disk m)
    (hnull : ∀ f ∈ m.files, f.2.adapterId ≠ .null) (h : restoreAll registry root m w = .ok s w') :
    ∃ scans, scanAll registry root m w = .ok scans w ∧ s.lines = lineCount scans ∧
      ∀ f ∈ m.files, ∀ text, Run.textAt (root.join (Path.ofText f.1)) w.disk = .ok text →
        Run.textAt (root.join (Path.ofText f.1)) w'.disk =
          .ok (withoutLines (listedFor scans f.1) text) := by
  obtain ⟨w₁, hlisted, hremoved⟩ := restoreAll_eq_ok_iff.mp h
  have hadmits := admits_of_restoreListed hformed hlisted
  obtain ⟨hdisk, hlines⟩ := of_restoreListed hformed hlisted
  rw [Aim.scansOnWay_of_apart (apart_listedAims hdistinct.apart)] at hlines
  have hscans : scanAll registry root m w =
      .ok ((listedAims registry m.files).flatMap (Aim.scan root w.disk)) w :=
    scanListedUnless_of_plain hnull (fun f hf => (hadmits f hf).adapter) (plain_of_admits hadmits)
  refine ⟨_, hscans, hlines.trans (Nat.zero_add _), fun f hf text htext => ?_⟩
  have hrestored := textAt_restored_of_mem hdistinct.apart hadmits hf htext
  rw [← hdisk] at hrestored
  refine Run.textAt_of_agreesOff (of_removeSupport hremoved).2.2 hrestored ?_
  rintro names hlocate ⟨file, hfile, hsupport⟩
  rw [hdisk, Aim.locate_restored] at hlocate hsupport
  exact hdistinct.support f hf file hfile names hlocate hsupport

/-- Whatever is on the disk, a restoration that comes back has taken out what its preview listed: as many
lines, and from each file the ones that were shown for it. By patterns it touches no other files but
support modules; by a ledger this holds if the records lead to different files and say which adapter they
were written by. -/
theorem restore_eq_preview (hformed : w.disk.root.isFormed = true) :
    (∀ included excluded s w', restoreByGlobs Program.registry root included excluded w = .ok s w' →
      ∃ scans, scanByGlobs Program.registry root included excluded w = .ok scans w ∧
        s.files = scans.length ∧ s.lines = lineCount scans ∧
        (∀ f ∈ scans, ∃ text, Run.textAt (root.join (Path.ofText f.file)) w.disk = .ok text ∧
          Run.textAt (root.join (Path.ofText f.file)) w'.disk = .ok (withoutLines f.matched text)) ∧
        w.disk.root.AgreesOff (fun names =>
          (∃ f ∈ scans, w.disk.locate (root.join (Path.ofText f.file)) = .ok names) ∨
          ∃ a ∈ Program.registry.adapters.map (·.2),
            w.disk.locate (root.join (Path.ofText a.moduleName)) = .ok names) w'.disk.root) ∧
    ∀ m s w', IsDistinct root w.disk m → (∀ f ∈ m.files, f.2.adapterId ≠ .null) →
      restoreAll Program.registry root m w = .ok s w' →
      ∃ scans, scanAll Program.registry root m w = .ok scans w ∧ s.lines = lineCount scans ∧
        ∀ f ∈ m.files, ∀ text, Run.textAt (root.join (Path.ofText f.1)) w.disk = .ok text →
          Run.textAt (root.join (Path.ofText f.1)) w'.disk =
            .ok (withoutLines (listedFor scans f.1) text) :=
  ⟨fun _ _ _ _ h => of_restoreByGlobs Program.consistent_registry hformed h,
    fun _ _ _ hdistinct hnull h => of_restoreAll hformed hdistinct hnull h⟩

/-- A marked script, one that cannot be read as text, and a support module beside them. -/
def markedScripts : Disk where
  root := .folder [("a.py", .file (encode "f()\n# jt92-se2j!\n".toList)), ("b.py", .file [0xFF]),
    ("flake_monster_runtime.py", .file [])]

/-- A ledger that lists the scripts and the support module, with the id of the adapter. -/
def scriptsLedger (id : Json) : Manifest :=
  { Manifest.start "" .null .null with
    files := [("a.py", ⟨id, .null, .null, [], false⟩), ("b.py", ⟨id, .null, .null, [], false⟩)]
    supportFiles := [.str "flake_monster_runtime.py"] }

theorem isDistinct_scriptsLedger (id : Json) : IsDistinct ⟨true, []⟩ markedScripts (scriptsLedger id) := by
  have hapart : [Path.ofText "a.py", Path.ofText "b.py", Path.ofText "flake_monster_runtime.py"].Pairwise
      fun p p' => markedScripts.locate (Path.join ⟨true, []⟩ p) ≠
        markedScripts.locate (Path.join ⟨true, []⟩ p') := by
    decide
  simp only [List.pairwise_cons, List.mem_cons, List.not_mem_nil, or_false, forall_eq_or_imp,
    forall_eq] at hapart
  obtain ⟨⟨hab, has⟩, hbs, -⟩ := hapart
  refine ⟨?_, ?_⟩
  · refine List.pairwise_cons.mpr ⟨fun g hg names hlocate hlocate' => ?_, List.pairwise_singleton _ _⟩
    cases List.mem_singleton.mp hg
    exact hab (hlocate.trans hlocate'.symm)
  · intro f hf file hfile names hlocate hlocate'
    cases List.mem_singleton.mp hfile
    rcases List.mem_pair.mp hf with rfl | rfl
    · exact has (hlocate.trans hlocate'.symm)
    · exact hbs (hlocate.trans hlocate'.symm)

theorem discover_markedScripts :
    Discovery.discover markedScripts ⟨true, []⟩ (.arr [.str "**/*.py"]) (.arr []) =
      .ok ["a.py", "b.py", "flake_monster_runtime.py"] := by
  have hentries : markedScripts.entriesAt ⟨true, []⟩ = [("a.py", .file (encode "f()\n# jt92-se2j!\n".toList)),
      ("b.py", .file [0xFF]), ("flake_monster_runtime.py", .file [])] := rfl
  have hselected : Discovery.selectedIn ⟨[Discovery.pattern "**/*.py".toList], []⟩ []
      (markedScripts.entriesAt ⟨true, []⟩) =
        ["a.py".toList, "b.py".toList, "flake_monster_runtime.py".toList] := by
    rw [hentries]
    decide +kernel
  have hsorted : ["a.py", "b.py", "flake_monster_runtime.py"].Pairwise fun a b => decide (a ≤ b) = true := by
    decide +kernel
  rw [Discovery.discover_eq]
  change Except.ok (found ⟨[Discovery.pattern "**/*.py".toList], []⟩ (markedScripts.entriesAt ⟨true, []⟩)) = _
  rw [found, hselected, Discovery.sorted, List.map_cons, List.map_cons, List.map_singleton]
  exact congrArg Except.ok (List.mergeSort_of_pairwise hsorted)

/-- The preview of the marked script is what is taken out, by patterns and by a ledger. -/
theorem restore_eq_preview_of_marked :
    markedScripts.root.isFormed = true ∧
      (∃ s w' scans, restoreByGlobs Program.registry ⟨true, []⟩ (.arr [.str "**/*.py"]) (.arr [])
          { disk := markedScripts } = .ok s w' ∧
        scanByGlobs Program.registry ⟨true, []⟩ (.arr [.str "**/*.py"]) (.arr [])
          { disk := markedScripts } = .ok scans { disk := markedScripts } ∧
        s.files = scans.length ∧ s.lines = lineCount scans ∧ s.lines = 1) ∧
      IsDistinct ⟨true, []⟩ markedScripts (scriptsLedger (.str "python")) ∧
      (∀ f ∈ (scriptsLedger (.str "python")).files, f.2.adapterId ≠ .null) ∧
      ∃ s w' scans, restoreAll Program.registry ⟨true, []⟩ (scriptsLedger (.str "python"))
          { disk := markedScripts } = .ok s w' ∧
        scanAll Program.registry ⟨true, []⟩ (scriptsLedger (.str "python")) { disk := markedScripts } =
          .ok scans { disk := markedScripts } ∧
        s.lines = lineCount scans ∧ s.lines = 1 := by
  have hformed : markedScripts.root.isFormed = true := by decide +kernel
  have hfound : (Run.value? (restoreByGlobs Program.registry ⟨true, []⟩ (.arr [.str "**/*.py"]) (.arr [])
      { disk := markedScripts })).map (·.lines) = some 1 := by
    have hget : (get : Run World) { disk := markedScripts } = .ok { disk := markedScripts } _ := rfl
    rw [restoreByGlobs, Run.bind_of_eq_ok hget,
      Run.bind_of_eq_ok (Run.ofExcept_eq_ok.mpr ⟨discover_markedScripts, rfl⟩)]
    decide +kernel
  have hlisted : (Run.value? (restoreAll Program.registry ⟨true, []⟩ (scriptsLedger (.str "python"))
      { disk := markedScripts })).map (·.lines) = some 1 := by decide +kernel
  have hnull : ∀ f ∈ (scriptsLedger (.str "python")).files, f.2.adapterId ≠ .null := by
    intro f hf
    rcases List.mem_pair.mp hf with rfl | rfl <;> exact fun h => by cases h
  obtain ⟨s, w', hrun, hlines⟩ := Run.exists_of_value? hfound
  obtain ⟨s₂, w₂, hrun₂, hlines₂⟩ := Run.exists_of_value? hlisted
  obtain ⟨hglobs, hledger⟩ := @restore_eq_preview ⟨true, []⟩ { disk := markedScripts } hformed
  obtain ⟨scans, hscans, hfiles, hcount, -⟩ := hglobs _ _ _ _ hrun
  have hdistinct := isDistinct_scriptsLedger (.str "python")
  obtain ⟨scans₂, hscans₂, hcount₂, -⟩ := hledger _ _ _ hdistinct hnull hrun₂
  exact ⟨hformed, ⟨s, w', scans, hrun, hscans, hfiles, hcount, hlines⟩, hdistinct, hnull, s₂, w₂, scans₂,
    hrun₂, hscans₂, hcount₂, hlines₂⟩

/-- A record without an id is listed by the name of its file, but it is not restored. -/
theorem listed_not_removed_of_null :
    IsDistinct ⟨true, []⟩ markedScripts (scriptsLedger .null) ∧ ∃ s w' scans,
      restoreAll Program.registry ⟨true, []⟩ (scriptsLedger .null) { disk := markedScripts } = .ok s w' ∧
      (∃ w₂, scanAll Program.registry ⟨true, []⟩ (scriptsLedger .null) { disk := markedScripts } =
        .ok scans w₂) ∧ s.lines = 0 ∧ lineCount scans = 1 := by
  have hlisted : (Run.value? (restoreAll Program.registry ⟨true, []⟩ (scriptsLedger .null)
      { disk := markedScripts })).map (·.lines) = some 0 := by decide +kernel
  have hfound : (Run.value? (scanAll Program.registry ⟨true, []⟩ (scriptsLedger .null)
      { disk := markedScripts })).map lineCount = some 1 := by decide +kernel
  obtain ⟨s, w', hrun, hlines⟩ := Run.exists_of_value? hlisted
  obtain ⟨scans, w₂, hscans, hcount⟩ := Run.exists_of_value? hfound
  exact ⟨isDistinct_scriptsLedger .null, s, w', scans, hrun, ⟨w₂, hscans⟩, hlines, hcount⟩

end Restoring
end DelayInjection
