import DelayInjection.Proofs.Project.Aim

/-! Restoration as a run. A record is admitted if it can be restored, and whether it is does not depend on
the removals before. A run that comes back has restored all that it aimed at, one that fails a first part
of it, and the support modules go without regard to the rest of the disk. -/

namespace DelayInjection

open Disk (Path)
open Recovery (InkedOpenings)
open Text.Utf8 (Bytes decode encode)

namespace Restoring

variable {registry : Registry} {root : Path} {m : Manifest} {q : Aim} {w w' : World} {s s' : Summary}
  {text : List Char}

/-- How many lines are listed. -/
def lineCount (scans : List FileScan) : Nat := (scans.map (·.matched.length)).sum

theorem lineCount_append (scans others : List FileScan) :
    lineCount (scans ++ others) = lineCount scans + lineCount others := by
  rw [lineCount, List.map_append, List.sum_append]
  rfl

/-- Removal takes out what the preview lists for the file. -/
theorem lineCount_scan (htext : Run.textAt (q.path root) w.disk = .ok text) :
    lineCount (q.scan root w.disk) = (q.adapter.remove text).removed := by
  rw [Aim.scan_of_text htext, Adapter.remove, Recovery.removed_eq_length_scan]
  unfold Adapter.scan
  cases Recovery.scan q.adapter.classifier text with
  | nil => rfl
  | cons f fs => rfl

/-! ## One file -/

/-- The text of a file is rewritten without the lines, unless the file is locked. -/
theorem restore_of_text (hformed : w.disk.root.isFormed = true)
    (htext : Run.textAt (q.path root) w.disk = .ok text) (s : Summary) :
    restore root q.file (q.adapter.remove text) s w =
      if w.disk.isLocked (q.path root)
        then .error (.disk ⟨.readOnly, (q.path root).text, none⟩) w
        else .ok { s with files := s.files + 1, lines := s.lines + (q.adapter.remove text).removed }
          { w with disk := Aim.restored root w.disk [q] } := by
  have hplain : (q.path root).IsPlain := (Run.textAt_eq_ok_iff.mp htext).1
  have hrewrite := Aim.rewrite_eq_restored hformed htext
  split
  next hlocked =>
    rw [if_pos hlocked] at hrewrite
    exact Run.bind_of_eq_error (Run.change_eq_error hplain hrewrite)
  next hlocked =>
    rw [if_neg hlocked] at hrewrite
    exact Run.bind_of_eq_ok (Run.change_eq_ok hplain hrewrite)

/-- The file can be asked for, and it is not locked if it holds a text. -/
structure IsOpen (root : Path) (d : Disk) (q : Aim) : Prop where
  plain : (q.path root).IsPlain
  unlocked : ∀ text, Run.textAt (q.path root) d = .ok text → d.isLocked (q.path root) = false

theorem IsOpen.restored {d : Disk} (h : IsOpen root d q) (aims : List Aim) :
    IsOpen root (Aim.restored root d aims) q := by
  refine ⟨h.plain, fun text htext => ?_⟩
  obtain ⟨names, old, -, hold, -⟩ := Aim.textAt_restored_iff.mp htext
  exact (Aim.isLocked_restored aims _).trans (h.unlocked old hold)

theorem IsOpen.of_restored {d : Disk} {aims : List Aim} (h : IsOpen root (Aim.restored root d aims) q) :
    IsOpen root d q := by
  refine ⟨h.plain, fun text htext => ?_⟩
  obtain ⟨-, names, -, hlocate, -⟩ := Run.textAt_eq_ok_iff.mp htext
  exact (Aim.isLocked_restored aims _).symm.trans
    (h.unlocked _ (Aim.textAt_restored_iff.mpr ⟨names, text, hlocate, htext, rfl⟩))

/-- What is open stays so where files are taken out. -/
theorem IsOpen.of_sheds {d d' : Disk} (h : IsOpen root d q) (hsheds : d.root.Sheds d'.root)
    (hlocked : d'.locked = d.locked) : IsOpen root d' q := by
  refine ⟨h.plain, fun text htext => ?_⟩
  obtain ⟨-, names, -, hlocate, -⟩ := Run.textAt_eq_ok_iff.mp htext
  have hunlocked := h.unlocked text (Run.textAt_of_sheds hsheds htext)
  rw [Disk.isLocked, Disk.locate_of_narrows hsheds.narrows hlocate] at hunlocked
  rw [Disk.isLocked, hlocate, hlocked]
  exact hunlocked

/-- Where there is no text to be had nothing changes. -/
theorem restored_of_unread {d : Disk} (hformed : d.root.isFormed = true) (hplain : (q.path root).IsPlain)
    (hnone : ∀ text, Run.textAt (q.path root) d ≠ .ok text) :
    q.scan root d = [] ∧ Aim.restored root d [q] = d := by
  have hscan : q.scan root d = [] := Aim.scan_eq_nil_iff.mpr fun text htext => absurd htext (hnone text)
  exact ⟨hscan, Aim.restored_eq_self hformed (by simpa using hplain) (by simpa using hscan)⟩

theorem textOf?_of_text (htext : Run.textAt (q.path root) w.disk = .ok text) :
    textOf? root q.file w = .ok (some text) w := by
  have hplain : (q.path root).IsPlain := (Run.textAt_eq_ok_iff.mp htext).1
  rw [textOf?_of_plain hplain]
  exact congrArg (fun x : Except Failure (List Char) => EStateM.Result.ok x.toOption w) htext

theorem textOf?_of_unread (hplain : (q.path root).IsPlain)
    (hnone : ∀ text, Run.textAt (q.path root) w.disk ≠ .ok text) :
    textOf? root q.file w = .ok none w := by
  rw [textOf?_of_plain hplain]
  cases htext : Run.textAt (root.join (Path.ofText q.file)) w.disk with
  | ok text => exact absurd htext (hnone text)
  | error e => rfl

/-! ## Records of a ledger -/

/-- What the records of a ledger aim at. -/
def listedAims (registry : Registry) (files : List (String × FileRecord)) : List Aim :=
  files.filterMap fun f => (adapterOf registry f.2.adapterId).toOption.join.map (⟨f.1, ·⟩)

theorem listedAims_append (files others : List (String × FileRecord)) :
    listedAims registry (files ++ others) = listedAims registry files ++ listedAims registry others :=
  List.filterMap_append

theorem mem_listedAims_iff {files : List (String × FileRecord)} : q ∈ listedAims registry files ↔
    ∃ record, (q.file, record) ∈ files ∧ adapterOf registry record.adapterId = .ok (some q.adapter) := by
  rw [listedAims, List.mem_filterMap]
  constructor
  · rintro ⟨⟨file, record⟩, hmem, hq⟩
    cases hadapter : adapterOf registry record.adapterId with
    | error e => simp [hadapter, Except.toOption] at hq
    | ok a? =>
      cases a? with
      | none => simp [hadapter, Except.toOption] at hq
      | some a =>
        simp only [hadapter, Except.toOption, Option.join_some, Option.map_some, Option.some.injEq] at hq
        subst hq
        exact ⟨record, hmem, hadapter⟩
  · rintro ⟨record, hmem, hadapter⟩
    exact ⟨_, hmem, by simp [hadapter, Except.toOption]⟩

theorem listedAims_of_none {f : String × FileRecord} (h : adapterOf registry f.2.adapterId = .ok none) :
    listedAims registry [f] = [] := by
  rw [listedAims, List.filterMap_cons, h]
  rfl

theorem listedAims_of_some {f : String × FileRecord} {a : Adapter}
    (h : adapterOf registry f.2.adapterId = .ok (some a)) : listedAims registry [f] = [⟨f.1, a⟩] := by
  rw [listedAims, List.filterMap_cons, h]
  rfl

/-- The record can be restored, or passed over. -/
structure Admits (registry : Registry) (root : Path) (d : Disk) (f : String × FileRecord) : Prop where
  adapter : ∃ a?, adapterOf registry f.2.adapterId = .ok a?
  isOpen : ∀ a, adapterOf registry f.2.adapterId = .ok (some a) → IsOpen root d ⟨f.1, a⟩

section Record

variable {f : String × FileRecord} {a : Adapter}

theorem Admits.restored {d : Disk} (h : Admits registry root d f) (aims : List Aim) :
    Admits registry root (Aim.restored root d aims) f :=
  ⟨h.adapter, fun a ha => (h.isOpen a ha).restored aims⟩

theorem Admits.of_restored {d : Disk} {aims : List Aim}
    (h : Admits registry root (Aim.restored root d aims) f) : Admits registry root d f :=
  ⟨h.adapter, fun a ha => (h.isOpen a ha).of_restored⟩

/-- Without an adapter a record is passed over. -/
theorem restoreRecord_of_none (ha : adapterOf registry f.2.adapterId = .ok none) (s : Summary) :
    ∃ w', restoreRecord registry root m s f.1 f.2 w = .ok s w' ∧ w'.disk = w.disk := by
  obtain ⟨w', hwarned, hdisk⟩ := Run.yields_warn
    ("  [!] No adapter found for \"" ++ f.2.adapterId.plainText ++ "\", skipping " ++ f.1) w
  refine ⟨w', ?_, hdisk⟩
  rw [restoreRecord, Run.bind_of_eq_ok (Run.ofExcept_eq_ok.mpr ⟨ha, rfl⟩)]
  exact Run.bind_of_eq_ok hwarned

variable (ha : adapterOf registry f.2.adapterId = .ok (some a))

include ha

/-- Without a text to be had it is passed over as well. -/
theorem restoreRecord_of_unread (hplain : ((⟨f.1, a⟩ : Aim).path root).IsPlain)
    (hnone : ∀ text, Run.textAt ((⟨f.1, a⟩ : Aim).path root) w.disk ≠ .ok text) (s : Summary) :
    ∃ w', restoreRecord registry root m s f.1 f.2 w = .ok s w' ∧ w'.disk = w.disk := by
  have htext : textOf? root f.1 w = .ok none w := @textOf?_of_unread root ⟨f.1, a⟩ w hplain hnone
  obtain ⟨w', hwarned, hdisk⟩ := Run.yields_warn ("  [!] File not found: " ++ f.1 ++ ", skipping") w
  refine ⟨w', ?_, hdisk⟩
  rw [restoreRecord, Run.bind_of_eq_ok (Run.ofExcept_eq_ok.mpr ⟨ha, rfl⟩)]
  refine (Run.bind_of_eq_ok htext).trans ?_
  exact Run.bind_of_eq_ok hwarned

/-- With a text it is restored, after a warning if the file was changed. -/
theorem restoreRecord_of_text (htext : Run.textAt ((⟨f.1, a⟩ : Aim).path root) w.disk = .ok text)
    (s : Summary) : ∃ s₁ w₁, s₁.lines = s.lines ∧ w₁.disk = w.disk ∧
      restoreRecord registry root m s f.1 f.2 w = restore root f.1 (a.remove text) s₁ w₁ := by
  have hread : textOf? root f.1 w = .ok (some text) w := @textOf?_of_text root ⟨f.1, a⟩ w text htext
  rw [restoreRecord, Run.bind_of_eq_ok (Run.ofExcept_eq_ok.mpr ⟨ha, rfl⟩)]
  by_cases hsame : m.isUnmodified f.1 (hashContent text) = true
  · refine ⟨s, w, rfl, rfl, (Run.bind_of_eq_ok hread).trans ?_⟩
    simp only [hsame, if_true]
    rfl
  · obtain ⟨w₁, hwarned, hdisk⟩ := Run.yields_warn
      ("  [!] Warning: " ++ f.1 ++ " was modified after injection. Restoring anyway.") w
    refine ⟨{ s with tampered := s.tampered ++ [f.1] }, w₁, rfl, hdisk, (Run.bind_of_eq_ok hread).trans ?_⟩
    simp only [hsame]
    exact Run.bind_of_eq_ok hwarned

end Record

/-- A record that is admitted is restored. -/
theorem restoreRecord_of_admits {f : String × FileRecord} (hformed : w.disk.root.isFormed = true)
    (h : Admits registry root w.disk f) (s : Summary) :
    ∃ s' w', restoreRecord registry root m s f.1 f.2 w = .ok s' w' ∧
      w'.disk = Aim.restored root w.disk (listedAims registry [f]) ∧
      s'.lines = s.lines + lineCount (Aim.scansOnWay root w.disk (listedAims registry [f])) := by
  obtain ⟨a?, ha⟩ := h.adapter
  cases a? with
  | none =>
    obtain ⟨w', hrun, hdisk⟩ := restoreRecord_of_none ha s
    rw [listedAims_of_none ha, Aim.restored_nil]
    exact ⟨s, w', hrun, hdisk, rfl⟩
  | some a =>
    have hopen := h.isOpen a ha
    rw [listedAims_of_some ha, Aim.scansOnWay, Aim.scansOnWay, List.append_nil]
    by_cases hsome : ∃ text, Run.textAt ((⟨f.1, a⟩ : Aim).path root) w.disk = .ok text
    · obtain ⟨text, htext⟩ := hsome
      obtain ⟨s₁, w₁, hlines, hdisk, hrun⟩ := restoreRecord_of_text (m := m) ha htext s
      rw [← hdisk] at hformed htext hopen ⊢
      have hrestore := restore_of_text (q := ⟨f.1, a⟩) hformed htext s₁
      rw [hopen.unlocked text htext, if_neg (by simp)] at hrestore
      refine ⟨_, _, hrun.trans hrestore, rfl, ?_⟩
      rw [lineCount_scan htext]
      exact congrArg (· + (a.remove text).removed) hlines
    · have hnone : ∀ text, Run.textAt ((⟨f.1, a⟩ : Aim).path root) w.disk ≠ .ok text :=
        fun text htext => hsome ⟨text, htext⟩
      obtain ⟨w', hrun, hdisk⟩ := restoreRecord_of_unread (m := m) ha hopen.plain hnone s
      obtain ⟨hscan, hself⟩ := restored_of_unread hformed hopen.plain hnone
      exact ⟨s, w', hrun, by rw [hself, hdisk], by rw [hscan]; rfl⟩

/-- One that is not fails, and changes nothing. -/
theorem restoreRecord_of_not_admits {f : String × FileRecord} (hformed : w.disk.root.isFormed = true)
    (h : ¬Admits registry root w.disk f) (s : Summary) :
    ∃ e w', restoreRecord registry root m s f.1 f.2 w = .error e w' ∧ w'.disk = w.disk := by
  cases ha : adapterOf registry f.2.adapterId with
  | error e =>
    refine ⟨e, w, ?_, rfl⟩
    rw [restoreRecord, ha]
    rfl
  | ok a? =>
    cases a? with
    | none => exact absurd ⟨⟨none, ha⟩, fun a ha' => by rw [ha] at ha'; cases ha'⟩ h
    | some a =>
      by_cases hplain : ((⟨f.1, a⟩ : Aim).path root).IsPlain
      · -- the file is not open, so it holds a text and is locked
        have hlocked : ∃ text, Run.textAt ((⟨f.1, a⟩ : Aim).path root) w.disk = .ok text ∧
            w.disk.isLocked ((⟨f.1, a⟩ : Aim).path root) = true := by
          refine Classical.byContradiction fun hnot => h ⟨⟨_, ha⟩, fun b hb => ?_⟩
          rw [ha] at hb
          cases hb
          exact ⟨hplain, fun text htext => by simpa using fun hlocked => hnot ⟨text, htext, hlocked⟩⟩
        obtain ⟨text, htext, hlocked⟩ := hlocked
        obtain ⟨s₁, w₁, -, hdisk, hrun⟩ := restoreRecord_of_text (m := m) ha htext s
        rw [← hdisk] at hformed htext hlocked
        have hrestore := restore_of_text (q := ⟨f.1, a⟩) hformed htext s₁
        rw [hlocked, if_pos rfl] at hrestore
        exact ⟨_, w₁, hrun.trans hrestore, hdisk⟩
      · refine ⟨.zeroInPath none, w, ?_, rfl⟩
        rw [restoreRecord, Run.bind_of_eq_ok (Run.ofExcept_eq_ok.mpr ⟨ha, rfl⟩)]
        exact Run.bind_of_eq_error (textOf?_of_not_plain hplain)

/-- What records that are admitted aim at can be asked for. -/
theorem plain_of_admits {files : List (String × FileRecord)} {d : Disk}
    (h : ∀ f ∈ files, Admits registry root d f) : ∀ q ∈ listedAims registry files, (q.path root).IsPlain := by
  intro q hq
  obtain ⟨record, hmem, ha⟩ := mem_listedAims_iff.mp hq
  exact ((h _ hmem).isOpen q.adapter ha).plain

/-! ## Whole ledgers -/

section Listed

variable {files : List (String × FileRecord)}

theorem listedAims_cons (f : String × FileRecord) (files : List (String × FileRecord)) :
    listedAims registry (f :: files) = listedAims registry [f] ++ listedAims registry files :=
  listedAims_append [f] files

/-- Where all records are admitted the run comes back. -/
theorem restoreListed_of_admits (hformed : w.disk.root.isFormed = true)
    (h : ∀ f ∈ files, Admits registry root w.disk f) (s : Summary) :
    ∃ s' w', restoreListed registry root m s files w = .ok s' w' ∧
      w'.disk = Aim.restored root w.disk (listedAims registry files) ∧
      s'.lines = s.lines + lineCount (Aim.scansOnWay root w.disk (listedAims registry files)) := by
  induction files generalizing s w with
  | nil => exact ⟨s, w, rfl, Aim.restored_nil.symm, rfl⟩
  | cons f files ih =>
    obtain ⟨s₁, w₁, hrecord, hdisk, hlines⟩ :=
      restoreRecord_of_admits (m := m) hformed (h f List.mem_cons_self) s
    have hformed₁ : w₁.disk.root.isFormed = true := hdisk ▸ Aim.isFormed_restored hformed _
    have hrest : ∀ g ∈ files, Admits registry root w₁.disk g := fun g hg =>
      hdisk ▸ (h g (List.mem_cons_of_mem _ hg)).restored _
    obtain ⟨s', w', hrun, hdisk', hlines'⟩ := ih hformed₁ hrest s₁
    refine ⟨s', w', (Run.bind_of_eq_ok hrecord).trans hrun, ?_, ?_⟩
    · rw [hdisk', hdisk, listedAims_cons f files, Aim.restored_append]
    · rw [hlines', hlines, hdisk, listedAims_cons f files, Aim.scansOnWay_append, lineCount_append,
        Nat.add_assoc]

/-- A run that comes back has restored all records. -/
theorem admits_of_restoreListed (hformed : w.disk.root.isFormed = true)
    (h : restoreListed registry root m s files w = .ok s' w') :
    ∀ f ∈ files, Admits registry root w.disk f := by
  induction files generalizing s w with
  | nil => simp
  | cons f files ih =>
    obtain ⟨s₁, w₁, hrecord, hrest⟩ := Run.bind_eq_ok.mp h
    have hfirst : Admits registry root w.disk f := Classical.byContradiction fun hnot => by
      obtain ⟨e, w₂, hfailed, -⟩ := restoreRecord_of_not_admits (m := m) hformed hnot s
      cases hrecord.symm.trans hfailed
    obtain ⟨s₂, w₂, hrecord', hdisk, -⟩ := restoreRecord_of_admits (m := m) hformed hfirst s
    cases hrecord.symm.trans hrecord'
    intro g hg
    rcases List.mem_cons.mp hg with rfl | hg
    · exact hfirst
    · have hformed₁ : w₁.disk.root.isFormed = true := hdisk ▸ Aim.isFormed_restored hformed _
      exact Admits.of_restored (hdisk ▸ ih hformed₁ hrest g hg)

theorem of_restoreListed (hformed : w.disk.root.isFormed = true)
    (h : restoreListed registry root m s files w = .ok s' w') :
    w'.disk = Aim.restored root w.disk (listedAims registry files) ∧
      s'.lines = s.lines + lineCount (Aim.scansOnWay root w.disk (listedAims registry files)) := by
  obtain ⟨s₂, w₂, hrun, hend⟩ :=
    restoreListed_of_admits (m := m) hformed (admits_of_restoreListed hformed h) s
  cases h.symm.trans hrun
  exact hend

/-- Whether it comes back or not, a run has restored a first part of the records. -/
theorem exists_left_restoreListed (hformed : w.disk.root.isFormed = true) (s : Summary) :
    ∃ done rest, files = done ++ rest ∧ (Run.left (restoreListed registry root m s files) w).disk =
      Aim.restored root w.disk (listedAims registry done) := by
  induction files generalizing s w with
  | nil => exact ⟨[], [], rfl, Aim.restored_nil.symm⟩
  | cons f files ih =>
    by_cases hfirst : Admits registry root w.disk f
    · obtain ⟨s₁, w₁, hrecord, hdisk, -⟩ := restoreRecord_of_admits (m := m) hformed hfirst s
      have hformed₁ : w₁.disk.root.isFormed = true := hdisk ▸ Aim.isFormed_restored hformed _
      obtain ⟨done, rest, rfl, hleft⟩ := ih hformed₁ s₁
      refine ⟨f :: done, rest, rfl, ?_⟩
      rw [restoreListed, Run.left_bind_of_eq_ok hrecord, hleft, hdisk, listedAims_cons f done,
        Aim.restored_append]
    · obtain ⟨e, w₁, hfailed, hdisk⟩ := restoreRecord_of_not_admits (m := m) hformed hfirst s
      refine ⟨[], f :: files, rfl, ?_⟩
      rw [restoreListed, Run.left_bind_of_eq_error hfailed, hdisk]
      exact Aim.restored_nil.symm

end Listed

/-! ## Files that patterns select -/

/-- What files aim at by their names. -/
def foundAims (registry : Registry) (files : List String) : List Aim :=
  files.filterMap fun file => (registry.forFile file).map (⟨file, ·⟩)

theorem mem_foundAims_iff {files : List String} :
    q ∈ foundAims registry files ↔ q.file ∈ files ∧ registry.forFile q.file = some q.adapter := by
  rw [foundAims, List.mem_filterMap]
  constructor
  · rintro ⟨file, hmem, hq⟩
    obtain ⟨a, ha, rfl⟩ := Option.map_eq_some_iff.mp hq
    exact ⟨hmem, ha⟩
  · rintro ⟨hmem, ha⟩
    exact ⟨q.file, hmem, by rw [ha]; rfl⟩

theorem foundAims_cons_of_none {file : String} (h : registry.forFile file = none) (files : List String) :
    foundAims registry (file :: files) = foundAims registry files := by
  rw [foundAims, List.filterMap_cons, h]
  rfl

theorem foundAims_cons_of_some {file : String} {a : Adapter} (h : registry.forFile file = some a)
    (files : List String) : foundAims registry (file :: files) = ⟨file, a⟩ :: foundAims registry files := by
  rw [foundAims, List.filterMap_cons, h]
  rfl

/-- A file is restored if something is found in it, and else it is not written. -/
theorem of_restoreFound_cons {file : String} {files : List String} {a : Adapter}
    (hformed : w.disk.root.isFormed = true) (ha : registry.forFile file = some a)
    (h : restoreFound registry root s (file :: files) w = .ok s' w') :
    ((⟨file, a⟩ : Aim).path root).IsPlain ∧ ∃ s₁ w₁,
      restoreFound registry root s₁ files w₁ = .ok s' w' ∧
      w₁.disk = Aim.restored root w.disk [⟨file, a⟩] ∧
      s₁.files = s.files + ((⟨file, a⟩ : Aim).scan root w.disk).length ∧
      s₁.lines = s.lines + lineCount ((⟨file, a⟩ : Aim).scan root w.disk) := by
  rw [restoreFound, ha] at h
  by_cases hplain : ((⟨file, a⟩ : Aim).path root).IsPlain
  · refine ⟨hplain, ?_⟩
    by_cases hsome : ∃ text, Run.textAt ((⟨file, a⟩ : Aim).path root) w.disk = .ok text
    · obtain ⟨text, htext⟩ := hsome
      have hread : textOf? root file w = .ok (some text) w := @textOf?_of_text root ⟨file, a⟩ w text htext
      have hcount := lineCount_scan htext
      replace h := (Run.bind_of_eq_ok hread).symm.trans h
      dsimp only at h
      split at h
      next hnone =>
        have hscan : (⟨file, a⟩ : Aim).scan root w.disk = [] := Aim.scan_eq_nil_iff.mpr fun text' htext' => by
          rw [htext] at htext'
          cases htext'
          rw [Adapter.remove, Recovery.removed_eq_length_scan] at hnone
          exact List.length_eq_zero_iff.mp hnone
        refine ⟨s, w, h, ?_, by rw [hscan]; rfl, by rw [hscan]; rfl⟩
        exact (Aim.restored_eq_self hformed (by simpa using hplain) (by simpa using hscan)).symm
      next hsome =>
        obtain ⟨s₁, w₁, hrestored, hrest⟩ := Run.bind_eq_ok.mp h
        have hrestore := restore_of_text (q := ⟨file, a⟩) hformed htext s
        rw [hrestored] at hrestore
        split at hrestore
        next => cases hrestore
        next =>
          cases hrestore
          refine ⟨_, _, hrest, rfl, ?_, congrArg (s.lines + ·) hcount.symm⟩
          have hmatched : (a.scan text).isEmpty = false := by
            rw [Adapter.remove, Recovery.removed_eq_length_scan] at hsome
            simpa [Adapter.scan] using hsome
          rw [Aim.scan_of_text htext, hmatched]
          rfl
    · have hnone : ∀ text, Run.textAt ((⟨file, a⟩ : Aim).path root) w.disk ≠ .ok text :=
        fun text htext => hsome ⟨text, htext⟩
      have hread : textOf? root file w = .ok none w := @textOf?_of_unread root ⟨file, a⟩ w hplain hnone
      obtain ⟨hscan, hself⟩ := restored_of_unread hformed hplain hnone
      exact ⟨s, w, (Run.bind_of_eq_ok hread).symm.trans h, hself.symm, by rw [hscan]; rfl,
        by rw [hscan]; rfl⟩
  · cases (Run.bind_of_eq_error (textOf?_of_not_plain hplain)).symm.trans h

/-- A run that comes back has restored all files in which something is found. -/
theorem of_restoreFound {files : List String} (hformed : w.disk.root.isFormed = true)
    (h : restoreFound registry root s files w = .ok s' w') :
    (∀ q ∈ foundAims registry files, (q.path root).IsPlain) ∧
      w'.disk = Aim.restored root w.disk (foundAims registry files) ∧
      s'.files = s.files + (Aim.scansOnWay root w.disk (foundAims registry files)).length ∧
      s'.lines = s.lines + lineCount (Aim.scansOnWay root w.disk (foundAims registry files)) := by
  induction files generalizing s w with
  | nil =>
    cases h
    exact ⟨by simp [foundAims], Aim.restored_nil.symm, rfl, rfl⟩
  | cons file files ih =>
    cases ha : registry.forFile file with
    | none =>
      rw [restoreFound, ha] at h
      rw [foundAims_cons_of_none ha]
      exact ih hformed h
    | some a =>
      have haims : foundAims registry (file :: files) = [⟨file, a⟩] ++ foundAims registry files :=
        foundAims_cons_of_some ha files
      obtain ⟨hplain, s₁, w₁, hrest, hdisk, hcount, hlines⟩ := of_restoreFound_cons hformed ha h
      have hformed₁ : w₁.disk.root.isFormed = true := hdisk ▸ Aim.isFormed_restored hformed _
      obtain ⟨hplain', hdisk', hcount', hlines'⟩ := ih hformed₁ hrest
      rw [haims, Aim.scansOnWay_append, Aim.scansOnWay, Aim.scansOnWay, List.append_nil, ← hdisk]
      refine ⟨fun q hq => ?_, ?_, ?_, ?_⟩
      · rcases List.mem_append.mp hq with hq | hq
        · rwa [List.mem_singleton.mp hq]
        · exact hplain' q hq
      · rw [hdisk', Aim.restored_append, ← hdisk]
      · rw [hcount', hcount, List.length_append, Nat.add_assoc]
      · rw [hlines', hlines, lineCount_append, Nat.add_assoc]

/-! ## Previews -/

section Scans

variable {refusal : Path → Option Disk.Error}

theorem scanFileUnless_of_plain (hplain : (q.path root).IsPlain) :
    scanFileUnless refusal q.adapter root q.file w = .ok (q.scanUnless refusal root w.disk) w := by
  rw [scanFileUnless, Run.bind_of_eq_ok (textUnless?_of_plain hplain), Run.textUnless, Aim.scanUnless,
    Aim.scan, Aim.path]
  cases refusal (root.join (Path.ofText q.file)) with
  | some e => rfl
  | none =>
    cases Run.textAt (root.join (Path.ofText q.file)) w.disk with
    | error e => rfl
    | ok text => rfl

/-- A preview by patterns lists what is found in each file. -/
theorem scanFoundUnless_of_plain {files : List String}
    (hplain : ∀ q ∈ foundAims registry files, (q.path root).IsPlain) :
    scanFoundUnless refusal registry root files w =
      .ok ((foundAims registry files).flatMap (Aim.scanUnless refusal root w.disk)) w := by
  induction files with
  | nil => rfl
  | cons file files ih =>
    rw [scanFoundUnless]
    cases ha : registry.forFile file with
    | none =>
      rw [foundAims_cons_of_none ha] at hplain ⊢
      exact (Run.bind_of_eq_ok (ih hplain)).trans rfl
    | some a =>
      rw [foundAims_cons_of_some ha] at hplain ⊢
      have hfirst := @scanFileUnless_of_plain _ _ w refusal (hplain _ List.mem_cons_self)
      refine (Run.bind_of_eq_ok hfirst).trans ?_
      exact (Run.bind_of_eq_ok (ih fun q hq => hplain q (List.mem_cons_of_mem _ hq))).trans rfl

/-- A preview by records lists what is found in each file, if no record leaves the choice of the adapter
to the file's name. -/
theorem scanListedUnless_of_plain {files : List (String × FileRecord)}
    (hnull : ∀ f ∈ files, f.2.adapterId ≠ .null)
    (hadapter : ∀ f ∈ files, ∃ a?, adapterOf registry f.2.adapterId = .ok a?)
    (hplain : ∀ q ∈ listedAims registry files, (q.path root).IsPlain) :
    scanListedUnless refusal registry root files w =
      .ok ((listedAims registry files).flatMap (Aim.scanUnless refusal root w.disk)) w := by
  induction files with
  | nil => rfl
  | cons f files ih =>
    obtain ⟨file, record⟩ := f
    rw [listedAims_cons] at hplain
    have hrest := ih (fun g hg => hnull g (List.mem_cons_of_mem _ hg))
      (fun g hg => hadapter g (List.mem_cons_of_mem _ hg)) fun q hq =>
        hplain q (List.mem_append_right _ hq)
    obtain ⟨a?, ha⟩ := hadapter _ List.mem_cons_self
    have hscanner : Run.ofExcept (scannerOf registry file record) w = .ok a? w := by
      rw [scannerOf_of_ne_null (hnull _ List.mem_cons_self)]
      exact Run.ofExcept_eq_ok.mpr ⟨ha, rfl⟩
    rw [scanListedUnless, Run.bind_of_eq_ok hscanner, listedAims_cons, List.flatMap_append]
    cases a? with
    | none =>
      rw [listedAims_of_none ha]
      exact (Run.bind_of_eq_ok hrest).trans rfl
    | some a =>
      rw [listedAims_of_some ha] at hplain ⊢
      have hscan := @scanFileUnless_of_plain _ _ w refusal
        (hplain _ (List.mem_append_left _ (List.mem_singleton_self _)))
      rw [List.flatMap_singleton]
      exact (Run.bind_of_eq_ok hscan).trans ((Run.bind_of_eq_ok hrest).trans rfl)

end Scans

/-! ## Support modules -/

section Support

variable {files : List Json}

/-- Nothing but the support modules goes. -/
theorem of_removeSupport (h : removeSupport root files w = .ok () w') :
    w'.disk.locked = w.disk.locked ∧ w.disk.root.Sheds w'.disk.root ∧
      w.disk.root.AgreesOff (fun names => ∃ file, .str file ∈ files ∧
        w.disk.locate (root.join (Path.ofText file)) = .ok names) w'.disk.root := by
  induction files generalizing w with
  | nil =>
    cases h
    exact ⟨rfl, Disk.Node.Sheds.refl, Disk.Node.AgreesOff.refl⟩
  | cons file files ih =>
    cases file with
    | str name =>
      obtain ⟨_, w₁, hremoved, hrest⟩ := Run.bind_eq_ok.mp h
      have hremove := Run.of_change_eq_ok hremoved
      have hsheds := Disk.sheds_of_remove hremove
      obtain ⟨hlocked, hsheds', hagrees⟩ := ih hrest
      refine ⟨hlocked.trans (Disk.locked_of_remove hremove), hsheds.trans hsheds', ?_⟩
      refine ((Disk.agreesOff_of_remove hremove).mono fun names hlocate => ?_).trans
        (hagrees.mono fun names hsome => ?_)
      · exact ⟨name, List.mem_cons_self, hlocate⟩
      · obtain ⟨other, hother, hlocate⟩ := hsome
        exact ⟨other, List.mem_cons_of_mem _ hother, Disk.locate_of_narrows hsheds.narrows hlocate⟩
    | _ => cases h

theorem isFormed_removeSupport (hformed : w.disk.root.isFormed = true)
    (h : removeSupport root files w = .ok () w') : w'.disk.root.isFormed = true := by
  induction files generalizing w with
  | nil =>
    cases h
    exact hformed
  | cons file files ih =>
    cases file with
    | str name =>
      obtain ⟨_, w₁, hremoved, hrest⟩ := Run.bind_eq_ok.mp h
      exact ih (Disk.isFormed_of_remove hformed (Run.of_change_eq_ok hremoved)) hrest
    | _ => cases h

/-- To remove the support modules once more does nothing. -/
theorem removeSupport_again (h : removeSupport root files w = .ok () w') {v : World}
    (hv : v.disk = w'.disk) : ∃ v', removeSupport root files v = .ok () v' ∧ v'.disk = v.disk := by
  induction files generalizing w v with
  | nil => exact ⟨v, rfl, rfl⟩
  | cons file files ih =>
    cases file with
    | str name =>
      obtain ⟨_, w₁, hremoved, hrest⟩ := Run.bind_eq_ok.mp h
      obtain ⟨hplain, disk, hremove, rfl⟩ := Run.change_eq_ok_iff.mp hremoved
      have hgone : v.disk.remove (root.join (Path.ofText name)) = .ok v.disk := by
        rw [hv]
        exact Disk.remove_of_sheds (Disk.remove_remove hremove) (of_removeSupport hrest).2.1
      obtain ⟨v', hrun, hdisk⟩ := ih hrest hv
      exact ⟨v', (Run.bind_of_eq_ok (Run.change_eq_ok hplain hgone)).trans hrun, hdisk⟩
    | _ => cases h

/-- Locks do not matter to the support modules. -/
theorem removeSupport_of_root_eq (h : removeSupport root files w = .ok () w') {v : World}
    (hroot : v.disk.root = w.disk.root) : ∃ v', removeSupport root files v = .ok () v' ∧
      v'.disk = { v.disk with root := w'.disk.root } := by
  induction files generalizing w v with
  | nil =>
    cases h
    exact ⟨v, rfl, by rw [← hroot]⟩
  | cons file files ih =>
    cases file with
    | str name =>
      obtain ⟨_, w₁, hremoved, hrest⟩ := Run.bind_eq_ok.mp h
      obtain ⟨hplain, disk, hremove, rfl⟩ := Run.change_eq_ok_iff.mp hremoved
      have hremove' : Run.remove (root.join (Path.ofText name)) v =
          .ok () { v with disk := { v.disk with root := disk.root } } :=
        Run.change_eq_ok hplain (Disk.remove_of_root_eq hroot hremove)
      obtain ⟨v', hrun, hdisk⟩ := ih hrest (v := { v with disk := { v.disk with root := disk.root } }) rfl
      exact ⟨v', (Run.bind_of_eq_ok hremove').trans hrun, hdisk⟩
    | _ => cases h

end Support

theorem restoreAll_eq_ok_iff : restoreAll registry root m w = .ok s w' ↔ ∃ w₁,
    restoreListed registry root m {} m.files w = .ok s w₁ ∧
      removeSupport root m.supportFiles w₁ = .ok () w' := by
  constructor
  · intro h
    obtain ⟨s₁, w₁, hlisted, hrest⟩ := Run.bind_eq_ok.mp h
    obtain ⟨_, w₂, hremoved, hend⟩ := Run.bind_eq_ok.mp hrest
    cases hend
    exact ⟨w₁, hlisted, hremoved⟩
  · rintro ⟨w₁, hlisted, hremoved⟩
    exact (Run.bind_of_eq_ok hlisted).trans ((Run.bind_of_eq_ok hremoved).trans rfl)

end Restoring
end DelayInjection
