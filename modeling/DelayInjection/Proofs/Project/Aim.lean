import DelayInjection.Proofs.Disk.Edited
import DelayInjection.Proofs.Disk.Removal
import DelayInjection.Proofs.Project.Restoring
import DelayInjection.Proofs.Project.Unmarking
import DelayInjection.Proofs.Recovery.Preview
import DelayInjection.Proofs.Recovery.Repeated

/-! What restoration aims at: files, each with the adapter whose lines are to go. Removal edits the texts
of the disk. In a file that several aims lead to, the removals follow one another, and they leave nothing
to be found for any of them. -/

namespace DelayInjection

open Disk (Path)
open Recovery (InkedOpenings passes)
open Restoring (FileScan)
open Text.Utf8 (Bytes decode encode)

/-- No name of the path holds a zero. -/
def Disk.Path.IsPlain (path : Path) : Prop := ∀ n ∈ path.names, '\x00' ∉ n.toList

namespace Run

variable {d : Disk} {path : Path} {text : List Char} {names : List String}
  {edit : List String → List Char → List Char}

theorem checked_of_not_plain {α : Type} (operation : Option String) (x : Except Disk.Error α)
    (h : ¬path.IsPlain) : checked operation path x = .error (.zeroInPath operation) := by
  have hany : (path.names.any fun n => n.toList.contains '\x00') = true := by
    simpa [Path.IsPlain] using h
  rw [checked, hany]
  rfl

theorem change_eq_ok_iff {operation : Option String} {f : Disk → Except Disk.Error Disk} {w w' : World} :
    change operation path f w = .ok () w' ↔
      path.IsPlain ∧ ∃ disk, f w.disk = .ok disk ∧ w' = { w with disk := disk } := by
  constructor
  · intro h
    have hplain : path.IsPlain := Classical.byContradiction fun hnot => by
      change (ofExcept (checked operation path (f w.disk)) >>= _) w = _ at h
      rw [checked_of_not_plain operation _ hnot] at h
      cases h
    have hf := of_change_eq_ok h
    exact ⟨hplain, _, hf, (EStateM.Result.ok.inj ((change_eq_ok hplain hf).symm.trans h)).2.symm⟩
  · rintro ⟨hplain, disk, hf, rfl⟩
    exact change_eq_ok hplain hf

/-- A text is read if the path leads to a file that holds one. -/
theorem textAt_eq_ok_iff : textAt path d = .ok text ↔ path.IsPlain ∧ ∃ names bytes,
    d.locate path = .ok names ∧ d.root.at? names = some (.file bytes) ∧ decode bytes = .ok text := by
  constructor
  · intro h
    have hplain : path.IsPlain := Classical.byContradiction fun hnot => by
      rw [textAt, bytesAt, checked_of_not_plain none _ hnot] at h
      cases h
    obtain ⟨bytes, hread, hdecode⟩ := of_textAt_eq_ok h
    obtain ⟨names, hlocate, hat⟩ := Disk.read_eq_ok.mp hread
    exact ⟨hplain, names, bytes, hlocate, hat, hdecode⟩
  · rintro ⟨hplain, names, bytes, hlocate, hat, hdecode⟩
    have hread : d.read path = .ok bytes := Disk.read_eq_ok.mpr ⟨names, hlocate, hat⟩
    rw [textAt, bytesAt, checked_of_noZero _ hplain, hread]
    change (decode bytes).mapError _ = _
    rw [hdecode]
    rfl

/-- An edited disk holds texts where there were texts before. -/
theorem textAt_edited_iff : textAt path (d.edited edit) = .ok text ↔ ∃ names old,
    d.locate path = .ok names ∧ textAt path d = .ok old ∧ text = edit names old := by
  simp only [textAt_eq_ok_iff]
  constructor
  · rintro ⟨hplain, names, bytes, hlocate, hat, hdecode⟩
    rw [Disk.locate_edited] at hlocate
    rw [Disk.edited, Disk.Node.at?_overlay] at hat
    obtain ⟨node, hnode, hoverlay⟩ := Option.map_eq_some_iff.mp hat
    cases node with
    | folder inner => cases hoverlay
    | file old =>
      rw [Disk.Node.overlay, List.append_nil] at hoverlay
      cases hoverlay
      rw [Disk.decode_editedBytes] at hdecode
      cases hold : decode old with
      | error e =>
        rw [hold] at hdecode
        cases hdecode
      | ok oldText =>
        rw [hold] at hdecode
        cases hdecode
        exact ⟨names, oldText, hlocate, ⟨hplain, names, old, hlocate, hnode, hold⟩, rfl⟩
  · rintro ⟨names, old, hlocate, ⟨hplain, names', bytes, hlocate', hat, hdecode⟩, rfl⟩
    cases hlocate.symm.trans hlocate'
    refine ⟨hplain, names, Disk.editedBytes (edit names) bytes, ?_, ?_, ?_⟩
    · rw [Disk.locate_edited, hlocate]
    · rw [Disk.edited, Disk.Node.at?_overlay, hat, Option.map_some, Disk.Node.overlay, List.append_nil]
    · rw [Disk.decode_editedBytes, hdecode]
      rfl

/-- A text at a place that is not touched is read as before. -/
theorem textAt_of_agreesOff {touched : List String → Prop} {d' : Disk}
    (h : d.root.AgreesOff touched d'.root) (htext : textAt path d = .ok text)
    (hnot : ∀ names, d.locate path = .ok names → ¬touched names) : textAt path d' = .ok text := by
  obtain ⟨hplain, names, bytes, hlocate, hat, hdecode⟩ := textAt_eq_ok_iff.mp htext
  refine textAt_eq_ok_iff.mpr ⟨hplain, names, bytes, ?_, ?_, hdecode⟩
  · exact Disk.locate_eq_ok.mpr (Disk.follow_of_keeps h.folders (Disk.locate_eq_ok.mp hlocate))
  · exact (h.files names bytes (hnot names hlocate)).mpr hat

/-- What is read where files were taken out was there before. -/
theorem textAt_of_sheds {d' : Disk} (h : d.root.Sheds d'.root) (htext : textAt path d' = .ok text) :
    textAt path d = .ok text := by
  obtain ⟨hplain, names, bytes, hlocate, hat, hdecode⟩ := textAt_eq_ok_iff.mp htext
  refine textAt_eq_ok_iff.mpr ⟨hplain, names, bytes, Disk.locate_of_narrows h.narrows hlocate, ?_, hdecode⟩
  exact (h.narrows.files names bytes hat).resolve_right id

end Run

namespace Restoring

variable {refusal : Path → Option Disk.Error} {root : Path} {file : String} {w : World}

/-- Whatever the reason for which there is no text to be had, it is passed over. -/
theorem textUnless?_of_plain (h : (root.join (Path.ofText file)).IsPlain) :
    textUnless? refusal root file w =
      .ok (Run.textUnless refusal (root.join (Path.ofText file)) w.disk).toOption w := by
  have hlook : Run.look (Run.textUnless refusal (root.join (Path.ofText file))) w =
      .ok (Run.textUnless refusal (root.join (Path.ofText file)) w.disk) w := rfl
  rw [textUnless?, Run.bind_of_eq_ok hlook, Run.textUnless]
  cases refusal (root.join (Path.ofText file)) with
  | some e => rfl
  | none =>
    dsimp only
    cases hread : w.disk.read (root.join (Path.ofText file)) with
    | error e =>
      have htext : Run.textAt (root.join (Path.ofText file)) w.disk = .error (.disk e) := by
        rw [Run.textAt, Run.bytesAt, Run.checked_of_noZero _ h, hread]
        rfl
      rw [htext]
      rfl
    | ok bytes =>
      have htext : Run.textAt (root.join (Path.ofText file)) w.disk =
          (decode bytes).mapError .undecodable := by
        rw [Run.textAt, Run.bytesAt, Run.checked_of_noZero _ h, hread]
        rfl
      rw [htext]
      cases decode bytes <;> rfl

theorem textOf?_of_plain (h : (root.join (Path.ofText file)).IsPlain) : textOf? root file w =
    .ok (Run.textAt (root.join (Path.ofText file)) w.disk).toOption w :=
  textUnless?_of_plain h

theorem textOf?_of_not_plain (h : ¬(root.join (Path.ofText file)).IsPlain) :
    textOf? root file w = .error (.zeroInPath none) w := by
  have hlook : Run.look (Run.textAt (root.join (Path.ofText file))) w =
      .ok (Run.textAt (root.join (Path.ofText file)) w.disk) w := rfl
  refine (Run.bind_of_eq_ok hlook).trans ?_
  rw [Run.textAt, Run.bytesAt, Run.checked_of_not_plain none _ h]
  rfl

end Restoring

/-- No two of the items lead to one place. -/
def Disk.Apart {α : Type} (d : Disk) (path : α → Path) (items : List α) : Prop :=
  items.Pairwise fun a b => ∀ names, d.locate (path a) = .ok names → d.locate (path b) ≠ .ok names

namespace Disk.Apart

variable {α : Type} {d : Disk} {path : α → Path} {items : List α} {a b : α} {names : List String}

theorem filter_eq (h : d.Apart path items) (ha : a ∈ items) (hlocate : d.locate (path a) = .ok names) :
    items.filter (fun b => d.locate (path b) = .ok names) = [a] := by
  induction items with
  | nil => cases ha
  | cons first items ih =>
    obtain ⟨hfirst, hrest⟩ := List.pairwise_cons.mp h
    rw [List.filter_cons]
    rcases List.mem_cons.mp ha with rfl | ha
    · have hnone : items.filter (fun b => d.locate (path b) = .ok names) = [] := by
        rw [List.filter_eq_nil_iff]
        intro b hb
        simpa using hfirst b hb names hlocate
      rw [if_pos (by simpa using hlocate), hnone]
    · rw [if_neg (by simpa using fun hsame => hfirst a ha names hsame hlocate)]
      exact ih hrest ha

theorem eq_of_locate (h : d.Apart path items) (ha : a ∈ items) (hb : b ∈ items)
    (hlocate : d.locate (path a) = .ok names) (hlocate' : d.locate (path b) = .ok names) : b = a := by
  have hmem : b ∈ items.filter fun b => d.locate (path b) = .ok names :=
    List.mem_filter.mpr ⟨hb, by simpa using hlocate'⟩
  rw [h.filter_eq ha hlocate] at hmem
  exact List.mem_singleton.mp hmem

theorem of_locate_eq {d' : Disk} (h : d.Apart path items) (hsame : ∀ p, d'.locate p = d.locate p) :
    d'.Apart path items := by
  refine List.Pairwise.imp (fun {a b} hapart names hlocate => ?_) h
  rw [hsame] at hlocate ⊢
  exact hapart names hlocate

end Disk.Apart

/-- A file, and the adapter whose lines are to go. -/
structure Aim where
  file : String
  adapter : Adapter

namespace Aim

variable {root : Path} {d : Disk} {q : Aim} {aims : List Aim} {names : List String} {p : Path}
  {text : List Char}

def path (root : Path) (q : Aim) : Path := root.join (Path.ofText q.file)

/-- What a preview lists for the file. -/
def scan (root : Path) (d : Disk) (q : Aim) : List FileScan :=
  match Run.textAt (q.path root) d with
  | .ok text => if (q.adapter.scan text).isEmpty then [] else [⟨q.file, q.adapter.scan text⟩]
  | .error _ => []

/-- What it lists if some paths are refused. -/
def scanUnless (refusal : Path → Option Disk.Error) (root : Path) (d : Disk) (q : Aim) : List FileScan :=
  match refusal (q.path root) with
  | some _ => []
  | none => q.scan root d

theorem scan_of_text (h : Run.textAt (q.path root) d = .ok text) : q.scan root d =
    if (q.adapter.scan text).isEmpty then [] else [⟨q.file, q.adapter.scan text⟩] := by
  rw [scan, h]

theorem scan_eq_nil_iff : q.scan root d = [] ↔
    ∀ text, Run.textAt (q.path root) d = .ok text → q.adapter.scan text = [] := by
  unfold scan
  cases Run.textAt (q.path root) d with
  | error e => simp
  | ok text => simp

theorem mem_scan_iff {f : FileScan} : f ∈ q.scan root d ↔ ∃ text,
    Run.textAt (q.path root) d = .ok text ∧ q.adapter.scan text ≠ [] ∧
      f = ⟨q.file, q.adapter.scan text⟩ := by
  unfold scan
  cases Run.textAt (q.path root) d with
  | error e => simp
  | ok text =>
    dsimp only
    split
    next hempty => simp_all
    next hempty => simp_all

/-- The classifiers of the aims that lead to a place. -/
def kindsAt (root : Path) (d : Disk) (aims : List Aim) (names : List String) : List Classifier :=
  (aims.filter fun q => d.locate (q.path root) = .ok names).map (·.adapter.classifier)

/-- The disk after the removals. -/
def restored (root : Path) (d : Disk) (aims : List Aim) : Disk :=
  d.edited fun names => passes (kindsAt root d aims names)

theorem mem_kindsAt_iff {k : Classifier} : k ∈ kindsAt root d aims names ↔
    ∃ q ∈ aims, d.locate (q.path root) = .ok names ∧ q.adapter.classifier = k := by
  simp [kindsAt, and_assoc]

theorem kindsAt_congr {d' : Disk} (h : ∀ p, d'.locate p = d.locate p) (aims : List Aim)
    (names : List String) : kindsAt root d' aims names = kindsAt root d aims names := by
  simp only [kindsAt, h]

theorem kindsAt_singleton (hlocate : d.locate (q.path root) = .ok names) (others : List String) :
    kindsAt root d [q] others = if others = names then [q.adapter.classifier] else [] := by
  rw [kindsAt, List.filter_cons, hlocate]
  by_cases hothers : others = names
  · simp [hothers]
  · simp [hothers, Ne.symm hothers]

theorem locate_restored (aims : List Aim) (p : Path) :
    (restored root d aims).locate p = d.locate p :=
  Disk.locate_edited _ _ _

theorem isLocked_restored (aims : List Aim) (p : Path) :
    (restored root d aims).isLocked p = d.isLocked p :=
  Disk.isLocked_edited _ _ _

theorem isFormed_restored (h : d.root.isFormed = true) (aims : List Aim) :
    (restored root d aims).root.isFormed = true :=
  Disk.isFormed_edited h

theorem restored_nil : restored root d [] = d := Disk.edited_id d

theorem restored_append (root : Path) (d : Disk) (aims others : List Aim) :
    restored root d (aims ++ others) = restored root (restored root d aims) others := by
  have hkinds : ∀ names, kindsAt root (restored root d aims) others names =
      kindsAt root d others names := kindsAt_congr (locate_restored aims) others
  rw [restored, restored]
  simp only [hkinds]
  rw [restored, Disk.edited_edited]
  congr 1
  funext names text
  rw [kindsAt, List.filter_append, List.map_append, Recovery.passes_append]
  rfl

/-- Locks do not matter to what the removals leave. -/
theorem restored_of_root_eq {c : Disk} (hroot : c.root = d.root) (aims : List Aim) :
    restored root c aims = { c with root := (restored root d aims).root } := by
  have hkinds : ∀ names, kindsAt root c aims names = kindsAt root d aims names :=
    kindsAt_congr (fun p => by rw [Disk.locate, Disk.locate, hroot]) aims
  simp only [restored, hkinds, Disk.edited, hroot]

/-- The file of one aim is rewritten in its place, unless it is locked. -/
theorem rewrite_eq_restored (hformed : d.root.isFormed = true)
    (htext : Run.textAt (q.path root) d = .ok text) :
    d.rewrite (q.path root) (encode (q.adapter.remove text).source) =
      if d.isLocked (q.path root) then Disk.failAt (q.path root) .readOnly
      else .ok (restored root d [q]) := by
  obtain ⟨-, names, bytes, hlocate, hat, hdecode⟩ := Run.textAt_eq_ok_iff.mp htext
  have hkinds := kindsAt_singleton hlocate
  have hself : passes (kindsAt root d [q] names) text = (q.adapter.remove text).source := by
    rw [hkinds, if_pos rfl]
    rfl
  have hothers : ∀ others, others ≠ names → passes (kindsAt root d [q] others) = id := by
    intro others hne
    rw [hkinds, if_neg hne]
    rfl
  have hrewrite := Disk.rewrite_eq_edited hformed hlocate hat hdecode hothers
  rw [hself] at hrewrite
  exact hrewrite

theorem textAt_restored_iff : Run.textAt p (restored root d aims) = .ok text ↔ ∃ names old,
    d.locate p = .ok names ∧ Run.textAt p d = .ok old ∧
      text = passes (kindsAt root d aims names) old :=
  Run.textAt_edited_iff

/-- Nothing is left to be found. -/
theorem scan_restored (hk : InkedOpenings q.adapter.classifier) (hmem : q ∈ aims) :
    q.scan root (restored root d aims) = [] := by
  rw [scan_eq_nil_iff]
  intro text htext
  obtain ⟨names, old, hlocate, -, rfl⟩ := textAt_restored_iff.mp htext
  exact Recovery.scan_passes hk (mem_kindsAt_iff.mpr ⟨q, hmem, hlocate, rfl⟩) old

/-- Where nothing is found nothing changes. -/
theorem restored_eq_self (hformed : d.root.isFormed = true) (hplain : ∀ q ∈ aims, (q.path root).IsPlain)
    (hclean : ∀ q ∈ aims, q.scan root d = []) : restored root d aims = d := by
  refine Disk.edited_eq_self hformed fun names bytes text hat hdecode => ?_
  have hall : ∀ k ∈ kindsAt root d aims names, Recovery.scan k text = [] := by
    intro k hk
    obtain ⟨q, hq, hlocate, rfl⟩ := mem_kindsAt_iff.mp hk
    exact scan_eq_nil_iff.mp (hclean q hq) text
      (Run.textAt_eq_ok_iff.mpr ⟨hplain q hq, names, bytes, hlocate, hat, hdecode⟩)
  exact Recovery.passes_eq_self hall

/-- Only files in which something is found are touched. -/
theorem agreesOff_restored (hplain : ∀ q ∈ aims, (q.path root).IsPlain) :
    d.root.AgreesOff (fun names => ∃ q ∈ aims, q.scan root d ≠ [] ∧ d.locate (q.path root) = .ok names)
      (restored root d aims).root := by
  refine Disk.agreesOff_edited fun names bytes text hat hdecode hnot => Recovery.passes_eq_self ?_
  intro k hk
  obtain ⟨q, hq, hlocate, rfl⟩ := mem_kindsAt_iff.mp hk
  have hscan : q.scan root d = [] := Decidable.byContradiction fun hne => hnot ⟨q, hq, hne, hlocate⟩
  exact scan_eq_nil_iff.mp hscan text
    (Run.textAt_eq_ok_iff.mpr ⟨hplain q hq, names, bytes, hlocate, hat, hdecode⟩)

/-! ## What is found on the way -/

/-- What the removals find, each on the disk that the ones before left. -/
def scansOnWay (root : Path) (d : Disk) : List Aim → List FileScan
  | [] => []
  | q :: aims => q.scan root d ++ scansOnWay root (restored root d [q]) aims

theorem scansOnWay_append (root : Path) (d : Disk) (aims others : List Aim) :
    scansOnWay root d (aims ++ others) =
      scansOnWay root d aims ++ scansOnWay root (restored root d aims) others := by
  induction aims generalizing d with
  | nil => rw [restored_nil, scansOnWay, List.nil_append, List.nil_append]
  | cons q aims ih =>
    have hcons : restored root (restored root d [q]) aims = restored root d (q :: aims) :=
      (restored_append root d [q] aims).symm
    rw [List.cons_append, scansOnWay, scansOnWay, ih, hcons, List.append_assoc]

theorem kindsAt_of_apart (h : d.Apart (path root) aims) (hmem : q ∈ aims)
    (hlocate : d.locate (q.path root) = .ok names) :
    kindsAt root d aims names = [q.adapter.classifier] := by
  rw [kindsAt, h.filter_eq hmem hlocate]
  rfl

/-- A file that no other aim leads to loses the lines that the preview lists. -/
theorem textAt_restored_of_apart (h : d.Apart (path root) aims) (hmem : q ∈ aims)
    (htext : Run.textAt (q.path root) d = .ok text) :
    Run.textAt (q.path root) (restored root d aims) =
      .ok (Recovery.withoutLines (q.adapter.scan text) text) := by
  obtain ⟨-, names, -, hlocate, -⟩ := Run.textAt_eq_ok_iff.mp htext
  refine textAt_restored_iff.mpr ⟨names, text, hlocate, htext, ?_⟩
  rw [kindsAt_of_apart h hmem hlocate]
  exact (Recovery.source_remove _ _).symm

/-- A file is read as before where no aim leads to. -/
theorem textAt_restored_of_none (hnone : ∀ other ∈ aims, ∀ names, d.locate p = .ok names →
    d.locate (other.path root) ≠ .ok names) :
    Run.textAt p (restored root d aims) = .ok text ↔ Run.textAt p d = .ok text := by
  have hkinds : ∀ names, d.locate p = .ok names → kindsAt root d aims names = [] := by
    intro names hlocate
    rw [List.eq_nil_iff_forall_not_mem]
    intro k hk
    obtain ⟨other, hother, hsame, -⟩ := mem_kindsAt_iff.mp hk
    exact hnone other hother names hlocate hsame
  rw [textAt_restored_iff]
  constructor
  · rintro ⟨names, old, hlocate, hold, rfl⟩
    rw [hkinds names hlocate]
    exact hold
  · intro htext
    obtain ⟨-, names, -, hlocate, -⟩ := Run.textAt_eq_ok_iff.mp htext
    refine ⟨names, text, hlocate, htext, ?_⟩
    rw [hkinds names hlocate]
    rfl

theorem scan_congr {d' : Disk} (h : ∀ text, Run.textAt (q.path root) d' = .ok text ↔
    Run.textAt (q.path root) d = .ok text) : q.scan root d' = q.scan root d := by
  cases htext : Run.textAt (q.path root) d with
  | ok text => rw [scan_of_text htext, scan_of_text ((h text).mpr htext)]
  | error e =>
    have hnone : q.scan root d' = [] := scan_eq_nil_iff.mpr fun text htext' => by
      rw [(h text).mp htext'] at htext
      cases htext
    rw [hnone, scan, htext]

/-- What is read from the file is all that matters. -/
theorem scanUnless_of_read_eq {refusal : Path → Option Disk.Error} {d' : Disk}
    (h : d'.read (q.path root) = d.read (q.path root)) :
    q.scanUnless refusal root d' = q.scanUnless refusal root d := by
  rw [scanUnless, scanUnless, scan, scan, Run.textAt, Run.textAt, Run.bytesAt, Run.bytesAt, h]

/-- Removals in different files find what the preview lists. -/
theorem scansOnWay_of_apart (h : d.Apart (path root) aims) :
    scansOnWay root d aims = aims.flatMap (scan root d) := by
  induction aims generalizing d with
  | nil => rfl
  | cons q aims ih =>
    obtain ⟨hq, hrest⟩ := List.pairwise_cons.mp h
    rw [scansOnWay, ih (Disk.Apart.of_locate_eq hrest (locate_restored [q])), List.flatMap_cons]
    congr 1
    refine List.flatMap_congr fun other hother => scan_congr fun text => ?_
    refine textAt_restored_of_none fun q' hq' names hlocate hsame => ?_
    rw [List.mem_singleton.mp hq'] at hsame
    exact hq other hother names hsame hlocate

theorem scansOnWay_eq_nil (hformed : d.root.isFormed = true) (hplain : ∀ q ∈ aims, (q.path root).IsPlain)
    (hclean : ∀ q ∈ aims, q.scan root d = []) : scansOnWay root d aims = [] := by
  induction aims with
  | nil => rfl
  | cons q aims ih =>
    have hself : restored root d [q] = d := restored_eq_self hformed
      (fun other hother => hplain other (by simp_all)) fun other hother => hclean other (by simp_all)
    rw [scansOnWay, hself, hclean q List.mem_cons_self, List.nil_append]
    exact ih (fun other hother => hplain other (List.mem_cons_of_mem _ hother)) fun other hother =>
      hclean other (List.mem_cons_of_mem _ hother)

end Aim
end DelayInjection
