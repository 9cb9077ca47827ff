import DelayInjection.Proofs.Disk.Frame
import DelayInjection.Proofs.Disk.Narrowing

/-! Files that are taken out. All folders stay, no file comes or changes, and so what is gone stays gone:
to take the same file out once more does nothing. -/

namespace DelayInjection.Disk

open Node (isFormed isFormedIn isProper)
open Text.Utf8 (Bytes)

namespace Node

variable {root other : Node} {entries : List (String × Node)} {name : String} {names : List String}
  {bytes : Bytes}

/-! ## The place of a file that is taken out -/

/-- A file has a folder above it, unless it is the root itself. -/
theorem exists_folder_of_at? (hat : root.at? names = some (file bytes)) (hne : names ≠ []) :
    ∃ above name entries, names = above ++ [name] ∧ root.at? above = some (folder entries) ∧
      entries.lookup name = some (file bytes) := by
  obtain ⟨above, name, rfl⟩ : ∃ above name, names = above ++ [name] :=
    ⟨_, _, (List.dropLast_concat_getLast hne).symm⟩
  rw [at?_append] at hat
  obtain ⟨node, hnode, hat⟩ := Option.bind_eq_some_iff.mp hat
  cases node with
  | file _ => cases hat
  | folder entries =>
    rw [at?] at hat
    obtain ⟨inner, hinner, hat⟩ := Option.bind_eq_some_iff.mp hat
    cases hat
    exact ⟨above, name, entries, rfl, hnode, hinner⟩

theorem at?_erase (hat : root.at? names = some (file bytes)) (hne : names ≠ []) :
    (root.erase names).at? names = none := by
  obtain ⟨above, name, entries, rfl, habove, -⟩ := exists_folder_of_at? hat hne
  rw [erase_append habove, at?_put habove, at?, lookup_filter_ne, if_pos rfl]
  rfl

/-- Nothing but the file is touched. -/
theorem agreesOff_erase (hat : root.at? names = some (file bytes)) :
    root.AgreesOff (· = names) (root.erase names) := by
  by_cases hne : names = []
  · subst hne
    rw [erase]
    exact AgreesOff.refl
  · obtain ⟨above, name, entries, rfl, habove, hfile⟩ := exists_folder_of_at? hat hne
    have hentries : (folder entries).AgreesOff (· = [name])
        (folder (entries.filter fun e => e.1 ≠ name)) := by
      refine ⟨keeps_of_lookup fun other inner hother => ?_, fun others old hnot => ?_⟩
      · rw [lookup_filter_ne, if_neg, hother]
        rintro rfl
        rw [hfile] at hother
        cases hother
      · cases others with
        | nil => constructor <;> intro hold <;> cases hold
        | cons first rest =>
          rw [at?, at?, lookup_filter_ne]
          split
          next hfirst =>
            subst hfirst
            obtain ⟨next, below, rfl⟩ := List.exists_cons_of_ne_nil (l := rest) fun hnil =>
              hnot (by rw [hnil])
            rw [hfile]
            constructor <;> intro hold <;> cases hold
          next => rfl
    rw [erase_append habove]
    refine (AgreesOff.put habove hentries).mono ?_
    rintro others ⟨below, rfl, rfl⟩
    rfl

/-- The folders of the other tree are the same, and each of its files was there with the same bytes. -/
structure Sheds (root other : Node) : Prop where
  keeps : root.Keeps other
  narrows : root.Narrows (fun _ => False) other

namespace Sheds

theorem refl : root.Sheds root := ⟨fun _ inner hat => ⟨inner, hat⟩, Narrows.refl⟩

theorem trans {last : Node} (h : root.Sheds other) (hlast : other.Sheds last) : root.Sheds last :=
  ⟨h.keeps.trans hlast.keeps, h.narrows.trans hlast.narrows⟩

theorem at?_eq_none (h : root.Sheds other) (hnone : root.at? names = none) : other.at? names = none := by
  cases hat : other.at? names with
  | none => rfl
  | some node =>
    cases node with
    | folder inner =>
      obtain ⟨entries, hentries⟩ := h.narrows.folders names inner hat
      rw [hnone] at hentries
      cases hentries
    | file bytes =>
      rcases h.narrows.files names bytes hat with hold | hfalse
      · rw [hnone] at hold
        cases hold
      · exact hfalse.elim

end Sheds
end Node

variable {root other : Node} {d d' : Disk} {path : Path}

/-- Where something is missing on the way, it is missing afterwards. -/
theorem follow_of_sheds (h : root.Sheds other) {reached names : List String}
    (hmissing : follow root reached names = .error .missing) :
    follow other reached names = .error .missing := by
  induction names generalizing reached with
  | nil => cases hmissing
  | cons name names ih =>
    rw [follow] at hmissing ⊢
    by_cases hdots : name = ".."
    · rw [if_pos hdots] at hmissing ⊢
      exact ih hmissing
    · rw [if_neg hdots] at hmissing ⊢
      by_cases hlast : names.isEmpty = true
      · rw [if_pos hlast] at hmissing
        cases hmissing
      · rw [if_neg hlast] at hmissing ⊢
        split at hmissing
        next hnone => rw [h.at?_eq_none hnone]
        next => cases hmissing
        next entries hat =>
          obtain ⟨entries', hat'⟩ := h.keeps _ _ hat
          rw [hat']
          exact ih hmissing

/-! ## Removal -/

theorem remove_of_locate {names : List String} (h : d.locate path = .ok names) : d.remove path =
    if path.names.getLast? = some ".." then failAt path .isDirectory
    else match d.root.at? names with
      | none => .ok d
      | some (.folder _) => failAt path .isDirectory
      | some (.file _) => .ok { d with root := d.root.erase names } := by
  cases hat : d.root.at? names with
  | none => simp only [remove, h, hat]
  | some node =>
    cases node with
    | file bytes => simp only [remove, h, hat]
    | folder inner => simp only [remove, h, hat]

/-- What a removal does: nothing at all, or it takes out the one file that the path leads to. -/
theorem of_remove_eq_ok (h : d.remove path = .ok d') : d' = d ∨
    ∃ names bytes, d.locate path = .ok names ∧ names ≠ [] ∧ d.root.at? names = some (.file bytes) ∧
      d' = { d with root := d.root.erase names } := by
  unfold remove at h
  split at h
  · split at h
    · cases h
      exact .inl rfl
    · cases h
  next names hlocate =>
    split at h
    · cases h
    · split at h
      · cases h
        exact .inl rfl
      · cases h
      next bytes hat =>
        cases h
        by_cases hnil : names = []
        · subst hnil
          exact .inl rfl
        · exact .inr ⟨names, bytes, hlocate, hnil, hat, rfl⟩

theorem locked_of_remove (h : d.remove path = .ok d') : d'.locked = d.locked := by
  rcases of_remove_eq_ok h with rfl | ⟨names, bytes, -, -, -, rfl⟩ <;> rfl

theorem isFormed_of_remove (hformed : d.root.isFormed = true) (h : d.remove path = .ok d') :
    d'.root.isFormed = true := by
  rcases of_remove_eq_ok h with rfl | ⟨names, bytes, -, -, -, rfl⟩
  · exact hformed
  · exact Node.isFormed_erase hformed names

theorem agreesOff_of_remove (h : d.remove path = .ok d') :
    d.root.AgreesOff (fun names => d.locate path = .ok names) d'.root := by
  rcases of_remove_eq_ok h with rfl | ⟨names, bytes, hlocate, -, hat, rfl⟩
  · exact Node.AgreesOff.refl
  · refine (Node.agreesOff_erase hat).mono ?_
    rintro _ rfl
    exact hlocate

theorem sheds_of_remove (h : d.remove path = .ok d') : d.root.Sheds d'.root :=
  ⟨(agreesOff_of_remove h).folders, narrows_of_remove h⟩

/-- A removal that does nothing does nothing afterwards. -/
theorem remove_of_sheds (hgone : d.remove path = .ok d) (h : d.root.Sheds d'.root) :
    d'.remove path = .ok d' := by
  cases hlocate : d.locate path with
  | error e =>
    have hfault : e.fault = .missing := by
      rw [remove, hlocate] at hgone
      dsimp only at hgone
      split at hgone
      next hmissing => exact hmissing
      next => cases hgone
    have hfollow : follow d.root [] path.names = .error .missing := by
      unfold locate at hlocate
      cases hfollow : follow d.root [] path.names with
      | ok names =>
        rw [hfollow] at hlocate
        cases hlocate
      | error fault =>
        rw [hfollow] at hlocate
        cases hlocate
        exact congrArg Except.error hfault
    have hlocate' : d'.locate path = .error ⟨.missing, path.text, none⟩ := by
      rw [locate, follow_of_sheds h hfollow]
      rfl
    rw [remove, hlocate']
    rfl
  | ok names =>
    have hlocate' : d'.locate path = .ok names :=
      locate_eq_ok.mpr (follow_of_keeps h.keeps (locate_eq_ok.mp hlocate))
    rw [remove_of_locate hlocate] at hgone
    rw [remove_of_locate hlocate']
    split at hgone
    · cases hgone
    next hlast =>
      rw [if_neg hlast]
      cases hat : d.root.at? names with
      | none => rw [h.at?_eq_none hat]
      | some node =>
        rw [hat] at hgone
        cases node with
        | folder inner => cases hgone
        | file bytes =>
          -- a file that is still there afterwards can be the root only
          have hsame : d.root.erase names = d.root := congrArg Disk.root (Except.ok.inj hgone)
          have hnil : names = [] := Decidable.byContradiction fun hne => by
            have herase := Node.at?_erase hat hne
            rw [hsame, hat] at herase
            cases herase
          subst hnil
          rw [Node.at?]
          split
          next => contradiction
          next inner hinner =>
            obtain ⟨entries, hentries⟩ := h.narrows.folders [] inner hinner
            rw [hat] at hentries
            cases hentries
          next => rw [Node.erase]

theorem remove_remove (h : d.remove path = .ok d') : d'.remove path = .ok d' := by
  rcases of_remove_eq_ok h with rfl | ⟨names, bytes, hlocate, hne, hat, hd'⟩
  · exact h
  · have hlocate' : d'.locate path = .ok names :=
      locate_eq_ok.mpr (follow_of_keeps (sheds_of_remove h).keeps (locate_eq_ok.mp hlocate))
    rw [remove_of_locate hlocate] at h
    rw [remove_of_locate hlocate']
    split at h
    · cases h
    next hlast =>
      have hgone : d'.root.at? names = none := by
        rw [hd']
        exact Node.at?_erase hat hne
      rw [if_neg hlast, hgone]

/-- Locks do not matter to a removal. -/
theorem remove_of_root_eq {c : Disk} (hroot : c.root = d.root) (h : d.remove path = .ok d') :
    c.remove path = .ok { c with root := d'.root } := by
  have hlocate : c.locate path = d.locate path := by rw [locate, locate, hroot]
  unfold remove at h ⊢
  rw [hlocate, hroot]
  cases hd : d.locate path with
  | error e =>
    rw [hd] at h
    dsimp only at h ⊢
    split at h
    next hmissing =>
      cases h
      rw [if_pos hmissing, ← hroot]
    next => cases h
  | ok names =>
    rw [hd] at h
    dsimp only at h ⊢
    split at h
    · cases h
    next hlast =>
      rw [if_neg hlast]
      cases hat : d.root.at? names with
      | none =>
        rw [hat] at h
        cases h
        dsimp only
        rw [← hroot]
      | some node =>
        rw [hat] at h
        cases node with
        | folder inner => cases h
        | file bytes =>
          cases h
          rfl

end DelayInjection.Disk
