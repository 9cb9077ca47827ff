import DelayInjection.Project.World
import DelayInjection.Proofs.Project.Discovery

/-! Runs one step at a time, and the files of a project as a run reads and writes them. -/

namespace DelayInjection

open Disk (Node Path)
open Disk.Node (isFormed isFormedIn isProper overlayIn replaced)
open Discovery (fileOf)
open Text.Utf8 (Bytes)

namespace Run

variable {α β : Type} {w w' w'' : World}

theorem bind_eq_ok {x : Run α} {f : α → Run β} {b : β} :
    (x >>= f) w = .ok b w'' ↔ ∃ a w', x w = .ok a w' ∧ f a w' = .ok b w'' := by
  change EStateM.bind x f w = _ ↔ _
  unfold EStateM.bind
  cases x w with
  | ok a w' =>
    refine ⟨fun h => ⟨a, w', rfl, h⟩, ?_⟩
    rintro ⟨_, _, ⟨⟩, h⟩
    exact h
  | error e w' => simp

theorem bind_congr {x y : Run α} (h : x w = y w') (f : α → Run β) :
    (x >>= f) w = (y >>= f) w' := by
  change EStateM.bind x f w = EStateM.bind y f w'
  unfold EStateM.bind
  rw [h]

theorem bind_of_eq_ok {x : Run α} {f : α → Run β} {a : α} (h : x w = .ok a w') :
    (x >>= f) w = f a w' := by
  change EStateM.bind x f w = _
  unfold EStateM.bind
  rw [h]

theorem bind_of_eq_error {x : Run α} {f : α → Run β} {e : Failure} (h : x w = .error e w') :
    (x >>= f) w = .error e w' := by
  change EStateM.bind x f w = _
  unfold EStateM.bind
  rw [h]

theorem tryCatch_bind {x : Run β} {k : β → Run α} {f : Failure → Run α} {b : β}
    (h : x w = .ok b w') : (tryCatch (x >>= k) f) w = (tryCatch (k b) f) w' := by
  change EStateM.tryCatch _ _ _ = EStateM.tryCatch _ _ _
  unfold EStateM.tryCatch
  rw [bind_of_eq_ok h]

theorem tryCatch_of_eq_ok {x : Run α} {f : Failure → Run α} {a : α} (h : x w = .ok a w') :
    (tryCatch x f) w = .ok a w' := by
  change EStateM.tryCatch x f w = _
  unfold EStateM.tryCatch
  rw [h]

theorem tryCatch_of_eq_error {x : Run α} {f : Failure → Run α} {e : Failure}
    (h : x w = .error e w') : (tryCatch x f) w = f e w' := by
  change EStateM.tryCatch x f w = _
  unfold EStateM.tryCatch
  rw [h]
  rfl

theorem ofExcept_eq_ok {x : Except Failure α} {a : α} :
    ofExcept x w = .ok a w' ↔ x = .ok a ∧ w' = w := by
  cases x with
  | ok value =>
    change EStateM.Result.ok value w = _ ↔ _
    simp [eq_comm]
  | error failure =>
    change EStateM.Result.error failure w = _ ↔ _
    simp

theorem ofExcept_bind (x : Except Failure α) (f : α → Run β) : (ofExcept x >>= f) w =
    match x with
    | .ok a => f a w
    | .error e => .error e w := by
  cases x with
  | ok a => exact bind_of_eq_ok (ofExcept_eq_ok.mpr ⟨rfl, rfl⟩)
  | error e => exact bind_of_eq_error rfl

theorem checked_of_noZero {operation : Option String} {path : Path} (x : Except Disk.Error α)
    (h : ∀ n ∈ path.names, '\x00' ∉ n.toList) :
    checked operation path x = x.mapError .disk := by
  have hany : (path.names.any fun n => n.toList.contains '\x00') = false := by
    rw [List.any_eq_false]
    intro n hn
    simpa using h n hn
  rw [checked, hany]
  rfl

theorem change_eq_ok {operation : Option String} {path : Path}
    {f : Disk → Except Disk.Error Disk} {disk : Disk}
    (h : ∀ n ∈ path.names, '\x00' ∉ n.toList) (hf : f w.disk = .ok disk) :
    change operation path f w = .ok () { w with disk := disk } := by
  change (ofExcept (checked operation path (f w.disk)) >>= _) w = _
  rw [checked_of_noZero _ h, hf]
  rfl

theorem change_eq_error {operation : Option String} {path : Path}
    {f : Disk → Except Disk.Error Disk} {e : Disk.Error}
    (h : ∀ n ∈ path.names, '\x00' ∉ n.toList) (hf : f w.disk = .error e) :
    change operation path f w = .error (.disk e) w := by
  change (ofExcept (checked operation path (f w.disk)) >>= _) w = _
  rw [checked_of_noZero _ h, hf]
  rfl

/-- The world that a run leaves, whether it fails or not. -/
def left (x : Run α) (w : World) : World :=
  match x w with
  | .ok _ w' => w'
  | .error _ w' => w'

theorem left_of_eq_ok {x : Run α} {a : α} (h : x w = .ok a w') : left x w = w' := by rw [left, h]

theorem left_bind_of_eq_ok {x : Run α} {f : α → Run β} {a : α} (h : x w = .ok a w') :
    left (x >>= f) w = left (f a) w' := by
  rw [left, bind_of_eq_ok h, left]

theorem left_bind_of_eq_error {x : Run α} {f : α → Run β} {e : Failure} (h : x w = .error e w') :
    left (x >>= f) w = w' := by
  rw [left, bind_of_eq_error h]

/-- The value that a run came back with, if it did. -/
def value? : EStateM.Result Failure World α → Option α
  | .ok a _ => some a
  | .error _ _ => none

theorem exists_of_value? {r : EStateM.Result Failure World α} {f : α → β} {b : β}
    (h : (value? r).map f = some b) : ∃ a w, r = .ok a w ∧ f a = b := by
  cases r with
  | ok a w => exact ⟨a, w, rfl, Option.some.inj h⟩
  | error e w => cases h

theorem exists_of_value?_eq_none {r : EStateM.Result Failure World α}
    (h : (value? r).isNone = true) : ∃ e w, r = .error e w := by
  cases r with
  | ok a w => cases h
  | error e w => exact ⟨e, w, rfl⟩

/-- The run leaves the disk as it is. -/
def Keeps (x : Run α) : Prop := ∀ w, (left x w).disk = w.disk

theorem keeps_pure (a : α) : Keeps (pure a : Run α) := fun _ => rfl

theorem keeps_throw (e : Failure) : Keeps (throw e : Run α) := fun _ => rfl

theorem keeps_get : Keeps (get : Run World) := fun _ => rfl

theorem keeps_print (line : String) : Keeps (print line) := fun _ => rfl

theorem keeps_printText (text : String) : Keeps (printText text) := fun _ => rfl

theorem keeps_look (f : Disk → Except Failure α) : Keeps (look f) := fun _ => rfl

theorem keeps_ofExcept (x : Except Failure α) : Keeps (ofExcept x) := by
  cases x <;> exact fun _ => rfl

theorem keeps_bind {x : Run α} {f : α → Run β} (hx : Keeps x) (hf : ∀ a, Keeps (f a)) :
    Keeps (x >>= f) := by
  intro w
  cases h : x w with
  | ok a w' => rw [left_bind_of_eq_ok h, hf a w', ← left_of_eq_ok h, hx w]
  | error e w' =>
    have hleft : left x w = w' := by rw [left, h]
    rw [left_bind_of_eq_error h, ← hleft, hx w]

/-- The run gives a value and leaves the disk as it is. -/
def Yields (x : Run α) (a : α) : Prop := ∀ w, ∃ w', x w = .ok a w' ∧ w'.disk = w.disk

theorem yields_pure (a : α) : Yields (pure a : Run α) a := fun w => ⟨w, rfl, rfl⟩

theorem yields_print (line : String) : Yields (print line) () := fun _ => ⟨_, rfl, rfl⟩

theorem yields_warn (line : String) : Yields (warn line) () := fun _ => ⟨_, rfl, rfl⟩

theorem yields_bind {x : Run α} {f : α → Run β} {a : α} {b : β} (hx : Yields x a)
    (hf : Yields (f a) b) : Yields (x >>= f) b := by
  intro w
  obtain ⟨w₁, hrun, hdisk⟩ := hx w
  obtain ⟨w₂, hrest, hdisk'⟩ := hf w₁
  exact ⟨w₂, (bind_of_eq_ok hrun).trans hrest, hdisk'.trans hdisk⟩

end Run

/-- A folder of a disk whose files all have proper paths. -/
structure IsProject (d : Disk) (root : Path) (above : List String) (entries : List (String × Node)) :
    Prop where
  leads : d.Leads root above entries
  formed : isFormedIn entries = true
  noZero : ∀ n ∈ root.names, '\x00' ∉ n.toList

namespace IsProject

variable {d : Disk} {root : Path} {above : List String} {entries others : List (String × Node)}
  {content : List String → Bytes → Bytes} {names : List String} {bytes : Bytes}
  (h : IsProject d root above entries)

include h

theorem entriesAt : d.entriesAt root = entries := by
  have hentries := h.leads.entriesAt_holding fun _ inner hat => ⟨inner, hat⟩
  rw [h.leads.holding_self] at hentries
  exact hentries

/-- Entries behind those of the project that no pattern selects do not count. -/
theorem discover_kept {kept : List (String × Node)} {disk : Disk}
    (hdisk : disk = d.overlaid above (fun _ bytes => bytes) entries kept)
    (hunselected : ∀ f, Discovery.selectedIn f [] kept = []) (included excluded : Json) :
    Discovery.discover disk root included excluded =
      (Discovery.filterOf included excluded).map fun f => Discovery.found f entries := by
  have hfound : ∀ f, Discovery.found f (disk.entriesAt root) = Discovery.found f entries := by
    intro f
    rw [hdisk, Disk.overlaid, h.leads.entriesAt_holding Node.keeps_overlayIn, Discovery.found,
      Discovery.selectedIn_append, Discovery.selectedIn_overlayIn, hunselected, List.append_nil]
    rfl
  rw [Discovery.discover_eq]
  simp only [hfound]

theorem exists_names_of_found {f : Discovery.Filter} :
    ∀ file ∈ Discovery.found f entries, ∃ names bytes,
      (Node.folder entries).at? names = some (.file bytes) ∧ file = fileOf names := by
  intro file hfile
  obtain ⟨first, names, bytes, hat, hname⟩ := Discovery.exists_names_of_mem_found h.formed hfile
  exact ⟨_, bytes, hat, hname⟩

theorem noZero_join (hproper : names.all isProper = true) :
    ∀ n ∈ (root.join ⟨false, names⟩).names, '\x00' ∉ n.toList := by
  intro n hn
  rcases List.mem_append.mp hn with hn | hn
  · exact h.noZero n hn
  · exact (Disk.isProper_iff.mp (List.all_eq_true.mp hproper n hn)).2.2.2.2

section File

variable (hat : (Node.folder entries).at? names = some (.file bytes))

include hat

theorem isProper_names : names ≠ [] ∧ names.all isProper = true := by
  refine ⟨?_, @Disk.Node.isProper_of_at? (.folder entries) _ h.formed _ hat⟩
  rintro rfl
  cases hat

theorem ofText_fileOf : Path.ofText (fileOf names) = ⟨false, names⟩ :=
  Discovery.ofText_fileOf (h.isProper_names hat).1 (h.isProper_names hat).2

theorem textAt : Run.textAt (root.join (Path.ofText (fileOf names)))
    (d.overlaid above content entries others) =
      (Text.Utf8.decode (content names bytes)).mapError .undecodable := by
  have hproper := (h.isProper_names hat).2
  rw [h.ofText_fileOf hat, Run.textAt, Run.bytesAt, Disk.overlaid, Run.checked_of_noZero _ (h.noZero_join hproper),
    h.leads.read_holding Node.keeps_overlayIn hproper (Node.at?_overlayIn hat)]
  rfl

theorem textAt_self : Run.textAt (root.join (Path.ofText (fileOf names))) d =
    (Text.Utf8.decode bytes).mapError .undecodable := by
  have htext : Run.textAt _ (d.overlaid above (fun _ bytes => bytes) entries []) = _ := h.textAt hat
  rw [h.leads.overlaid_id] at htext
  exact htext

theorem read_self : d.read (root.join (Path.ofText (fileOf names))) = .ok bytes := by
  have hread := h.leads.read_holding (fun _ inner hinner => ⟨inner, hinner⟩)
    (h.isProper_names hat).2 hat
  rwa [h.leads.holding_self, ← h.ofText_fileOf hat] at hread

theorem isLocked : d.isLocked (root.join (Path.ofText (fileOf names))) =
    d.locked.contains (above ++ names) := by
  obtain ⟨hne, hproper⟩ := h.isProper_names hat
  have hlocate := h.leads.locate_below (fun _ inner hinner => ⟨inner, hinner⟩) hne hproper hat
  rw [h.leads.holding_self] at hlocate
  rw [h.ofText_fileOf hat, Disk.isLocked, hlocate]

/-- Rewriting changes the bytes of one file, or fails and changes nothing. -/
theorem rewrite (text : List Char) {w : World}
    (hw : w.disk = d.overlaid above content entries others) :
    Run.rewrite (root.join (Path.ofText (fileOf names))) text w =
      if d.locked.contains (above ++ names)
        then .error (.disk ⟨.readOnly, (root.join ⟨false, names⟩).text, none⟩) w
        else .ok () { w with
          disk := d.overlaid above (replaced content names (Text.Utf8.encode text)) entries others } := by
  obtain ⟨hne, hproper⟩ := h.isProper_names hat
  obtain ⟨first, below, rfl⟩ := List.exists_cons_of_ne_nil hne
  have hput := @Node.put_overlayIn content entries others h.formed _ _ hat (Text.Utf8.encode text)
  have hrewrite := h.leads.rewrite_holding Node.keeps_overlayIn hproper (Node.at?_overlayIn hat) hput
  rw [← Disk.overlaid, ← Disk.overlaid, ← hw] at hrewrite
  rw [h.ofText_fileOf hat, Run.rewrite]
  split at hrewrite
  next hlocked =>
    rw [if_pos hlocked]
    exact Run.change_eq_error (h.noZero_join hproper) hrewrite
  next hlocked =>
    rw [if_neg hlocked]
    exact Run.change_eq_ok (h.noZero_join hproper) hrewrite

end File

/-! ## Further files in the folder -/

theorem write {name : String} (hname : isProper name = true) (hnone : entries.lookup name = none)
    (hothers : others.lookup name = none) (new : Bytes) {w : World}
    (hw : w.disk = d.overlaid above content entries others) :
    Run.change none (root.child name) (·.write (root.child name) new) w =
      .ok () { w with
        disk := d.overlaid above content entries (others ++ [(name, .file new)]) } := by
  have hdots := (Disk.isProper_iff.mp hname).2.2.1
  have hproper : [name].all isProper = true := by rw [List.all_cons, hname]; rfl
  have hlookup : (overlayIn content entries ++ others).lookup name = none := by
    rw [Node.lookup_overlayIn_append_of_none hnone, hothers]
  have hwrite := h.leads.write_holding Node.keeps_overlayIn hdots
    (fun inner hinner => by rw [hlookup] at hinner; cases hinner) new
  rw [Node.putEntry_of_lookup_eq_none hlookup, ← Disk.overlaid, List.append_assoc, ← Disk.overlaid,
    ← hw] at hwrite
  exact Run.change_eq_ok (h.noZero_join hproper) hwrite

/-- A file that was written is in the place of a file or of nothing. -/
theorem of_write_eq_ok {name : String} (hname : isProper name = true)
    {entries' : List (String × Node)} (hkeeps : (Node.folder entries).Keeps (.folder entries'))
    {new : Bytes} {w w' : World} (hw : w.disk = d.holding above entries')
    (hrun : Run.change none (root.child name) (·.write (root.child name) new) w = .ok () w') :
    (∀ inner, entries'.lookup name ≠ some (.folder inner)) ∧
      w'.disk = d.holding above (Node.putEntry name (.file new) entries') := by
  have hdots := (Disk.isProper_iff.mp hname).2.2.1
  have hproper : [name].all isProper = true := by rw [List.all_cons, hname]; rfl
  have hfile : ∀ inner, entries'.lookup name ≠ some (.folder inner) := by
    intro inner hinner
    have hwrite := h.leads.write_holding_of_folder hkeeps hdots hinner new
    rw [← hw] at hwrite
    cases (Run.change_eq_error (h.noZero_join hproper) hwrite).symm.trans hrun
  have hwrite := h.leads.write_holding hkeeps hdots hfile new
  rw [← hw] at hwrite
  cases (Run.change_eq_ok (h.noZero_join hproper) hwrite).symm.trans hrun
  exact ⟨hfile, rfl⟩

theorem remove {name : String} (hname : isProper name = true) (hnone : entries.lookup name = none)
    (hothers : ∀ node, others.lookup name = some node → ∃ bytes, node = .file bytes) {w : World}
    (hw : w.disk = d.overlaid above content entries others) :
    Run.remove (root.join (Path.ofText name)) w =
      .ok () { w with
        disk := d.overlaid above content entries (others.filter fun e => e.1 ≠ name) } := by
  have hdots := (Disk.isProper_iff.mp hname).2.2.1
  have hproper : [name].all isProper = true := by rw [List.all_cons, hname]; rfl
  have htext : Path.ofText name = ⟨false, [name]⟩ := by
    have hfile := Discovery.ofText_fileOf (by simp) hproper
    rw [fileOf, Disk.slashed_singleton, String.ofList_toList] at hfile
    exact hfile
  have hlookup : ∀ node, (overlayIn content entries ++ others).lookup name = some node →
      ∃ bytes, node = .file bytes := by
    intro node hnode
    rw [Node.lookup_overlayIn_append_of_none hnone] at hnode
    exact hothers node hnode
  have hremove := h.leads.remove_holding Node.keeps_overlayIn hdots hlookup
  have hentries : (overlayIn content entries).filter (fun e => e.1 ≠ name) =
      overlayIn content entries :=
    Node.filter_of_lookup_eq_none (by rw [Node.lookup_overlayIn, hnone]; rfl)
  rw [List.filter_append, hentries, ← Disk.overlaid, ← Disk.overlaid, ← hw] at hremove
  rw [htext]
  exact Run.change_eq_ok (h.noZero_join hproper) hremove

end IsProject
end DelayInjection
