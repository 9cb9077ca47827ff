import DelayInjection.Proofs.Disk.Folder

/-! Changes that bring no new folder, and no new file but such as hold something fit. -/

namespace DelayInjection.Disk

open Text.Utf8 (Bytes)

namespace Node

/-- Each folder of the other tree was one before, and each of its files was there with the same bytes
unless they are fit. -/
structure Narrows (fit : Bytes → Prop) (root other : Node) : Prop where
  folders : other.Keeps root
  files : ∀ names bytes, other.at? names = some (file bytes) →
    root.at? names = some (file bytes) ∨ fit bytes

variable {fit : Bytes → Prop} {root other : Node} {entries : List (String × Node)} {name : String}

namespace Narrows

theorem refl : root.Narrows fit root :=
  ⟨fun _ inner hat => ⟨inner, hat⟩, fun _ _ hat => .inl hat⟩

theorem trans {last : Node} (h : root.Narrows fit other) (hlast : other.Narrows fit last) :
    root.Narrows fit last where
  folders := hlast.folders.trans h.folders
  files names bytes hat := by
    rcases hlast.files names bytes hat with hat | hfit
    · exact h.files names bytes hat
    · exact .inr hfit

theorem file {old bytes : Bytes} (hfit : fit bytes) : (file old).Narrows fit (file bytes) := by
  refine ⟨fun names inner hat => ?_, fun names others hat => ?_⟩
  · cases names <;> cases hat
  · cases names with
    | nil =>
      cases hat
      exact .inr hfit
    | cons name names => cases hat

/-- A folder is narrowed in each of its entries by itself. -/
theorem folder {others : List (String × Node)}
    (h : ∀ name node', others.lookup name = some node' →
      ∃ node, entries.lookup name = some node ∧ node.Narrows fit node') :
    (folder entries).Narrows fit (folder others) := by
  refine ⟨fun names inner hat => ?_, fun names bytes hat => ?_⟩
  · cases names with
    | nil => exact ⟨entries, rfl⟩
    | cons name names =>
      rw [at?] at hat ⊢
      obtain ⟨node', hnode', hat⟩ := Option.bind_eq_some_iff.mp hat
      obtain ⟨node, hnode, hnarrows⟩ := h name node' hnode'
      rw [hnode]
      exact hnarrows.folders names inner hat
  · cases names with
    | nil => cases hat
    | cons name names =>
      rw [at?] at hat ⊢
      obtain ⟨node', hnode', hat⟩ := Option.bind_eq_some_iff.mp hat
      obtain ⟨node, hnode, hnarrows⟩ := h name node' hnode'
      rw [hnode]
      exact hnarrows.files names bytes hat

theorem putEntry {node node' : Node} (hlookup : entries.lookup name = some node)
    (h : node.Narrows fit node') :
    (Node.folder entries).Narrows fit (Node.folder (putEntry name node' entries)) := by
  refine folder fun other last hlast => ?_
  rw [lookup_putEntry] at hlast
  split at hlast
  next hother =>
    cases hlast
    exact ⟨node, hother ▸ hlookup, h⟩
  next => exact ⟨last, hlast, refl⟩

end Narrows

theorem lookup_of_lookup_filter {node : Node} {other : String}
    (h : (entries.filter fun e => e.1 ≠ name).lookup other = some node) :
    entries.lookup other = some node := by
  rw [lookup_filter_ne] at h
  split at h
  · cases h
  · exact h

theorem narrows_put {above : List String} {old bytes : Bytes}
    (hat : root.at? above = some (file old)) (hfit : fit bytes) :
    root.Narrows fit (put (file bytes) above root) := by
  induction above generalizing root with
  | nil =>
    cases hat
    exact Narrows.file hfit
  | cons name above ih =>
    cases root with
    | file bytes => cases hat
    | folder entries =>
      rw [at?] at hat
      obtain ⟨inner, hinner, hat⟩ := Option.bind_eq_some_iff.mp hat
      rw [put, hinner, Option.getD_some]
      exact Narrows.putEntry hinner (ih hat)

theorem narrows_erase (names : List String) (root : Node) : root.Narrows fit (root.erase names) := by
  induction names, root using erase.induct with
  | case1 n =>
    rw [erase]
    exact Narrows.refl
  | case2 name names bytes => exact Narrows.refl
  | case3 name entries =>
    rw [erase]
    exact Narrows.folder fun other node hnode => ⟨node, lookup_of_lookup_filter hnode, Narrows.refl⟩
  | case4 name next rest entries hlookup =>
    rw [erase, hlookup]
    exact Narrows.refl
  | case5 name next rest entries inner hlookup ih =>
    rw [erase, hlookup]
    exact Narrows.putEntry hlookup ih

end Node

/-! ## Operations on a disk -/

variable {fit : Bytes → Prop} {d d' : Disk} {path : Path}

theorem locate_eq_ok {names : List String} : d.locate path = .ok names ↔
    follow d.root [] path.names = .ok names := by
  rw [locate]
  cases follow d.root [] path.names with
  | error fault => constructor <;> intro h <;> cases h
  | ok reached => constructor <;> intro h <;> cases h <;> rfl

theorem read_eq_ok {bytes : Bytes} : d.read path = .ok bytes ↔
    ∃ names, d.locate path = .ok names ∧ d.root.at? names = some (.file bytes) := by
  cases hlocate : d.locate path with
  | error e => simp [read, hlocate, bind, Except.bind]
  | ok names =>
    rw [read_of_locate hlocate]
    split <;> simp_all [failAt]

theorem locate_of_narrows (h : d.root.Narrows fit d'.root) {names : List String}
    (hlocate : d'.locate path = .ok names) : d.locate path = .ok names :=
  locate_eq_ok.mpr (follow_of_keeps h.folders (locate_eq_ok.mp hlocate))

/-- What can be read afterwards could be read before, or is fit. -/
theorem read_of_narrows (h : d.root.Narrows fit d'.root) {bytes : Bytes}
    (hread : d'.read path = .ok bytes) : d.read path = .ok bytes ∨ fit bytes := by
  obtain ⟨names, hlocate, hat⟩ := read_eq_ok.mp hread
  rcases h.files names bytes hat with hat | hfit
  · exact .inl (read_eq_ok.mpr ⟨names, locate_of_narrows h hlocate, hat⟩)
  · exact .inr hfit

/-- A file that is there is rewritten in its place. -/
theorem narrows_of_rewrite {old bytes : Bytes} (hread : d.read path = .ok old)
    (hfit : fit bytes) (h : d.rewrite path bytes = .ok d') :
    d.root.Narrows fit d'.root ∧ ∀ new, d'.read path = .ok new → new = bytes := by
  obtain ⟨names, hlocate, hat⟩ := read_eq_ok.mp hread
  have hd' : d' = { d with root := Node.put (.file bytes) names d.root } := by
    rw [rewrite, hlocate] at h
    simp only at h
    split at h
    · cases h
    · rw [write_of_locate hlocate, hat] at h
      exact (Except.ok.inj h).symm
  subst hd'
  have hnarrows := Node.narrows_put hat hfit
  refine ⟨hnarrows, fun new hnew => ?_⟩
  obtain ⟨names', hlocate', hat'⟩ := read_eq_ok.mp hnew
  cases hlocate.symm.trans (locate_of_narrows (d := d) hnarrows hlocate')
  have hput : (Node.put (.file bytes) names d.root).at? (names ++ []) = some (.file bytes) :=
    Node.at?_put hat []
  rw [List.append_nil] at hput
  cases hput.symm.trans hat'
  rfl

theorem narrows_of_remove (h : d.remove path = .ok d') : d.root.Narrows fit d'.root := by
  unfold remove at h
  split at h
  · split at h
    · cases h
      exact Node.Narrows.refl
    · cases h
  · split at h
    · cases h
    · split at h
      · cases h
        exact Node.Narrows.refl
      · cases h
      · cases h
        exact Node.narrows_erase _ _

end DelayInjection.Disk
