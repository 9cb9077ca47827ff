import DelayInjection.Proofs.Disk.Folder

/-! Changes that leave all folders in place, and all files as they are but those at given paths. -/

namespace DelayInjection.Disk

open Text.Utf8 (Bytes)

namespace Node

/-- Each folder is still one, and away from the touched paths the files are the same with the same
bytes. -/
structure AgreesOff (touched : List String → Prop) (root other : Node) : Prop where
  folders : root.Keeps other
  files : ∀ names bytes, ¬ touched names →
    (other.at? names = some (file bytes) ↔ root.at? names = some (file bytes))

variable {touched : List String → Prop} {root other : Node} {entries : List (String × Node)}

namespace AgreesOff

theorem refl : root.AgreesOff touched root :=
  ⟨fun _ inner hat => ⟨inner, hat⟩, fun _ _ _ => Iff.rfl⟩

theorem trans {last : Node} (h : root.AgreesOff touched other)
    (hlast : other.AgreesOff touched last) : root.AgreesOff touched last where
  folders := h.folders.trans hlast.folders
  files names bytes hnot := (hlast.files names bytes hnot).trans (h.files names bytes hnot)

theorem mono {touched' : List String → Prop} (h : root.AgreesOff touched other)
    (hsub : ∀ names, touched names → touched' names) : root.AgreesOff touched' other :=
  ⟨h.folders, fun names bytes hnot => h.files names bytes fun hmem => hnot (hsub names hmem)⟩

/-- A file is put into a folder where no folder has its name. -/
theorem putEntry {name : String} (hfile : ∀ inner, entries.lookup name ≠ some (folder inner))
    (bytes : Bytes) : (folder entries).AgreesOff (· = [name])
      (folder (Node.putEntry name (file bytes) entries)) := by
  refine ⟨keeps_putEntry hfile _, fun names old hnot => ?_⟩
  cases names with
  | nil => constructor <;> intro hat <;> cases hat
  | cons first rest =>
    rw [at?, at?, lookup_putEntry]
    split
    next hfirst =>
      subst hfirst
      obtain ⟨next, below, rfl⟩ := List.exists_cons_of_ne_nil (l := rest) fun hnil =>
        hnot (by rw [hnil])
      -- there is nothing below the new file, and there was nothing below the old entry
      constructor
      · intro hat
        cases hat
      · intro hat
        obtain ⟨inner, hinner, hbelow⟩ := Option.bind_eq_some_iff.mp hat
        cases inner with
        | file _ => cases hbelow
        | folder others => exact absurd hinner (hfile others)
    next => rfl

/-- The bytes of some files are replaced. -/
theorem overlay {content : List String → Bytes → Bytes}
    (hcontent : ∀ names bytes, root.at? names = some (file bytes) → ¬ touched names →
      content names bytes = bytes) : root.AgreesOff touched (Node.overlay content root) := by
  have hat? : ∀ names, (Node.overlay content root).at? names =
      (root.at? names).map (Node.overlay fun below => content (names ++ below)) := at?_overlay content root
  refine ⟨fun names inner hat => ⟨_, (hat? names).trans (congrArg _ hat)⟩, fun names bytes hnot => ?_⟩
  rw [hat?]
  constructor
  · intro hat
    obtain ⟨node, hnode, hoverlay⟩ := Option.map_eq_some_iff.mp hat
    cases node with
    | folder inner => cases hoverlay
    | file old =>
      rw [Node.overlay, List.append_nil, hcontent names old hnode hnot] at hoverlay
      rw [hnode, hoverlay]
  · intro hat
    rw [hat, Option.map_some, Node.overlay, List.append_nil, hcontent names bytes hat hnot]

/-- The bytes of some files in a folder are replaced. -/
theorem overlayIn {content : List String → Bytes → Bytes}
    (hcontent : ∀ names bytes, (folder entries).at? names = some (file bytes) → ¬ touched names →
      content names bytes = bytes) :
    (folder entries).AgreesOff touched (folder (Node.overlayIn content entries)) :=
  overlay hcontent

/-- What happens below some names touches nothing else. -/
theorem put {above : List String} {old node : Node} (hat : root.at? above = some old)
    (h : old.AgreesOff touched node) :
    root.AgreesOff (fun names => ∃ below, names = above ++ below ∧ touched below)
      (Node.put node above root) := by
  refine ⟨Keeps.put hat h.folders, fun names bytes hnot => ?_⟩
  induction above generalizing root names with
  | nil =>
    cases hat
    exact h.files names bytes fun hmem => hnot ⟨names, rfl, hmem⟩
  | cons name above ih =>
    cases root with
    | file _ => cases hat
    | folder entries =>
      cases names with
      | nil => constructor <;> intro hat <;> cases hat
      | cons first rest =>
        rw [at?] at hat
        obtain ⟨inner, hinner, hinside⟩ := Option.bind_eq_some_iff.mp hat
        rw [Node.put, at?, at?, lookup_putEntry]
        split
        next hfirst =>
          subst hfirst
          rw [hinner]
          refine ih hinside rest ?_
          rintro ⟨below, rfl, hmem⟩
          exact hnot ⟨below, rfl, hmem⟩
        next => rfl

end AgreesOff
end Node

end DelayInjection.Disk
