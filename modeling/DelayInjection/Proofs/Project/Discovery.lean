import DelayInjection.Project.Discovery
import DelayInjection.Proofs.Disk.Folder

/-! The files that patterns select: each by the names that lead to it, and each once. What the files
hold does not matter. -/

namespace DelayInjection.Discovery

open Disk (Node Path slashed)
open Disk.Node (isFormed isFormedIn isProper overlay overlayIn)
open Text.Utf8 (Bytes)

variable {f : Filter} {entries : List (String × Node)}

mutual

theorem selectedAt_overlay (f : Filter) (name : String) (path : List Char)
    (content : List String → Bytes → Bytes) :
    ∀ node : Node, selectedAt f name path (overlay content node) = selectedAt f name path node
  | .file _ => rfl
  | .folder entries => by
    rw [overlay, selectedAt, selectedAt, selectedIn_overlayIn]

theorem selectedIn_overlayIn (f : Filter) (above : List Char)
    (content : List String → Bytes → Bytes) :
    ∀ entries : List (String × Node),
      selectedIn f above (overlayIn content entries) = selectedIn f above entries
  | [] => rfl
  | (name, node) :: rest => by
    rw [overlayIn, selectedIn, selectedIn, selectedAt_overlay, selectedIn_overlayIn]

end

theorem selectedIn_append (above : List Char) (entries others : List (String × Node)) :
    selectedIn f above (entries ++ others) = selectedIn f above entries ++ selectedIn f above others := by
  induction entries with
  | nil => rfl
  | cons e entries ih =>
    obtain ⟨name, node⟩ := e
    rw [List.cons_append, selectedIn, selectedIn, ih, List.append_assoc]

/-! ## Names of selected files -/

/-- What names add to the path of a folder. -/
def below (names : List String) : List Char := names.flatMap fun name => '/' :: name.toList

theorem slashed_cons (name : String) (names : List String) :
    slashed (name :: names) = name.toList ++ below names := by
  induction names generalizing name with
  | nil => simp [Disk.slashed_singleton, below]
  | cons next names ih =>
    rw [Disk.slashed_cons_of_ne_nil name (by simp), ih, below, below, List.flatMap_cons, List.cons_append]

theorem below_cons (path : List Char) (name : String) (names : List String) :
    path ++ below (name :: names) = path ++ ['/'] ++ slashed (name :: names) := by
  rw [slashed_cons, below, List.flatMap_cons, ← below]
  simp

/-- The walk down the names from a node enters each folder that it meets. -/
def Filter.Enters (f : Filter) (name : String) (path : List Char) : List String → Prop
  | [] => True
  | next :: names => f.enters name path = true ∧ f.Enters next (path ++ ['/'] ++ next.toList) names

mutual

/-- A selected path leads to a file, through folders that are entered. -/
theorem exists_names_of_mem_selectedAt {name : String} {path p : List Char} : ∀ {node : Node},
    node.isFormed = true → p ∈ selectedAt f name path node →
      ∃ names bytes, node.at? names = some (.file bytes) ∧ p = path ++ below names ∧
        f.Enters name path names
  | .file bytes, _, hp => by
    rw [selectedAt] at hp
    split at hp
    · exact ⟨[], bytes, rfl, by simpa [below] using hp, trivial⟩
    · cases hp
  | .folder entries, hformed, hp => by
    rw [selectedAt] at hp
    split at hp
    next henters =>
      obtain ⟨first, names, bytes, hat, rfl, hbelow⟩ := exists_names_of_mem_selectedIn hformed hp
      exact ⟨first :: names, bytes, hat, (below_cons path first names).symm, henters, hbelow⟩
    next => cases hp

theorem exists_names_of_mem_selectedIn {above p : List Char} : ∀ {entries : List (String × Node)},
    isFormedIn entries = true → p ∈ selectedIn f above entries →
      ∃ first names bytes, (Node.folder entries).at? (first :: names) = some (.file bytes) ∧
        p = above ++ slashed (first :: names) ∧ f.Enters first (above ++ first.toList) names
  | [], _, hp => by cases hp
  | (name, node) :: rest, hformed, hp => by
    obtain ⟨-, hnone, hnode, hrest⟩ := Disk.Node.isFormedIn_cons.mp hformed
    rw [selectedIn] at hp
    rcases List.mem_append.mp hp with hp | hp
    · obtain ⟨names, bytes, hat, rfl, henters⟩ := exists_names_of_mem_selectedAt hnode hp
      refine ⟨name, names, bytes, ?_, ?_, henters⟩
      · rw [Node.at?, List.lookup_cons_self]
        exact hat
      · rw [slashed_cons, List.append_assoc]
    · obtain ⟨first, names, bytes, hat, rfl, henters⟩ := exists_names_of_mem_selectedIn hrest hp
      refine ⟨first, names, bytes, ?_, rfl, henters⟩
      have hne : first ≠ name := by
        rintro rfl
        rw [Node.at?, hnone] at hat
        cases hat
      rw [Node.at?, Disk.Node.lookup_cons_of_ne hne]
      exact hat

end

mutual

theorem nodup_selectedAt {name : String} {path : List Char} : ∀ {node : Node},
    node.isFormed = true → (selectedAt f name path node).Nodup
  | .file _, _ => by
    rw [selectedAt]
    split <;> simp
  | .folder entries, hformed => by
    rw [selectedAt]
    split
    · exact nodup_selectedIn hformed
    · exact List.nodup_nil

theorem nodup_selectedIn {above : List Char} : ∀ {entries : List (String × Node)},
    isFormedIn entries = true → (selectedIn f above entries).Nodup
  | [], _ => List.nodup_nil
  | (name, node) :: rest, hformed => by
    have hcons := Disk.Node.isFormedIn_cons.mp hformed
    obtain ⟨hname, hnone, hnode, hrest⟩ := hcons
    rw [selectedIn, List.nodup_append]
    refine ⟨nodup_selectedAt hnode, nodup_selectedIn hrest, ?_⟩
    -- a path that both give would have two different first names
    rintro p hp q hq rfl
    obtain ⟨names, bytes, hat, hpath, -⟩ := exists_names_of_mem_selectedAt hnode hp
    obtain ⟨first, others, bytes', hat', hpath', -⟩ := exists_names_of_mem_selectedIn hrest hq
    rw [hpath', List.append_assoc, ← slashed_cons] at hpath
    have hproper : (name :: names).all isProper = true := by
      rw [List.all_cons, hname, Disk.Node.isProper_of_at? hnode hat]
      rfl
    have hproper' : (first :: others).all isProper = true :=
      @Disk.Node.isProper_of_at? (.folder rest) _ hrest _ hat'
    have heq := Disk.slashed_injective (by simp) (by simp) hproper' hproper
      (List.append_cancel_left hpath)
    rw [(List.cons.inj heq).1, Node.at?, hnone] at hat'
    cases hat'

end

/-! ## What is found in a folder -/

def filterOf (included excluded : Json) : Except Failure Filter := do
  .ok ⟨← patterns included, ← patterns excluded⟩

/-- The relative path of a file. -/
def fileOf (names : List String) : String := String.ofList (slashed names)

def found (f : Filter) (entries : List (String × Node)) : List String :=
  sorted (selectedIn f [] entries)

theorem discover_eq (d : Disk) (root : Path) (included excluded : Json) :
    discover d root included excluded =
      (filterOf included excluded).map fun f => found f (d.entriesAt root) := by
  rw [discover, filterOf]
  cases patterns included with
  | error e => rfl
  | ok i =>
    cases patterns excluded with
    | error e => rfl
    | ok x => rfl

theorem of_discover_eq_ok {d : Disk} {root : Path} {included excluded : Json} {files : List String}
    (h : discover d root included excluded = .ok files) :
    ∃ f, filterOf included excluded = .ok f ∧ files = found f (d.entriesAt root) := by
  rw [discover_eq] at h
  cases hfilter : filterOf included excluded with
  | error e =>
    rw [hfilter] at h
    cases h
  | ok f =>
    rw [hfilter] at h
    cases h
    exact ⟨f, rfl, rfl⟩

theorem mem_found {file : String} :
    file ∈ found f entries ↔ ∃ p ∈ selectedIn f [] entries, String.ofList p = file := by
  rw [found, sorted, List.mem_mergeSort, List.mem_map]

theorem nodup_found (h : isFormedIn entries = true) : (found f entries).Nodup := by
  rw [found, sorted, (List.mergeSort_perm _ _).nodup_iff]
  refine List.Pairwise.map String.ofList (fun p q hne heq => hne ?_) (nodup_selectedIn h)
  simpa using congrArg String.toList heq

theorem exists_names_of_mem_found (h : isFormedIn entries = true) {file : String}
    (hfile : file ∈ found f entries) :
    ∃ first names bytes, (Node.folder entries).at? (first :: names) = some (.file bytes) ∧
      file = fileOf (first :: names) := by
  obtain ⟨p, hp, rfl⟩ := mem_found.mp hfile
  obtain ⟨first, names, bytes, hat, rfl, -⟩ := exists_names_of_mem_selectedIn h hp
  exact ⟨first, names, bytes, hat, rfl⟩

theorem mem_found_append {others : List (String × Node)} {content : List String → Bytes → Bytes}
    {file : String} : file ∈ found f (overlayIn content entries ++ others) ↔
      file ∈ found f entries ∨ file ∈ found f others := by
  simp only [mem_found, selectedIn_append, selectedIn_overlayIn, List.mem_append, or_and_right,
    exists_or]

theorem ofText_fileOf {names : List String} (hne : names ≠ [])
    (hproper : names.all isProper = true) : Path.ofText (fileOf names) = ⟨false, names⟩ :=
  Disk.ofText_slashed hne hproper

end DelayInjection.Discovery
