import DelayInjection.Proofs.Project.Pruning

/-! The files that the search finds, told without its walk. A file is found if its own path is selected and
no folder above it is left out, and the found paths stand in the order of their code points, each once. -/

namespace DelayInjection.Discovery

open Disk (Node Path slashed)
open Disk.Node (isFormedIn)
open Text.Utf8 (Bytes)

variable {f : Filter} {entries : List (String × Node)} {names : List String}

/-- The patterns ask for the file at the end of the names. The first names lead to the folders above it. -/
structure Chosen (included excluded names : List String) : Prop where
  taken : ∃ text ∈ included, Takes text (slashed names)
  spared : ∀ text ∈ excluded, ¬Takes text (slashed names)
  state : stateFolder ∉ names.dropLast
  folders : ∀ n < names.length, n ≠ 0 → ∀ text ∈ excluded, ¬Takes text (slashed (names.take n) ++ ['/'])

/-! ## The folders of the walk -/

theorem enters_iff {name : String} {path : List Char} :
    f.enters name path = true ↔ name ≠ stateFolder ∧ f.excludes (path ++ ['/']) = false := by
  simp [Filter.enters]

/-- The folders that the walk enters, by the first names that lead to them. -/
theorem enters_names_iff {name : String} {path : List Char} :
    f.Enters name path names ↔ stateFolder ∉ (name :: names).dropLast ∧
      ∀ n < names.length, f.excludes (path ++ below (names.take n) ++ ['/']) = false := by
  induction names generalizing name path with
  | nil => simp [Filter.Enters]
  | cons next names ih =>
    have hnext : ∀ n, path ++ ['/'] ++ next.toList ++ below (names.take n) =
        path ++ below ((next :: names).take (n + 1)) := fun n => by
      rw [List.take_succ_cons, below_cons, slashed_cons, List.append_assoc _ next.toList]
    have hstates : stateFolder ∉ (name :: next :: names).dropLast ↔
        name ≠ stateFolder ∧ stateFolder ∉ (next :: names).dropLast := by
      rw [List.dropLast_cons_of_ne_nil (List.cons_ne_nil next names), List.mem_cons, not_or, ne_comm]
    rw [Filter.Enters, enters_iff, ih, hstates]
    constructor
    · rintro ⟨⟨hname, hfolder⟩, hstate, hrest⟩
      refine ⟨⟨hname, hstate⟩, fun n hn => ?_⟩
      cases n with
      | zero => simpa [below] using hfolder
      | succ n =>
        rw [← hnext]
        exact hrest n (Nat.lt_of_succ_lt_succ hn)
    · rintro ⟨⟨hname, hstate⟩, hrest⟩
      refine ⟨⟨hname, ?_⟩, hstate, fun n hn => ?_⟩
      · simpa [below] using hrest 0 (Nat.succ_pos _)
      · rw [hnext]
        exact hrest (n + 1) (Nat.succ_lt_succ hn)

theorem chosen_iff {included excluded : List String} {first : String} :
    Chosen included excluded (first :: names) ↔
      (ofTexts included excluded).selects (slashed (first :: names)) = true ∧
        (ofTexts included excluded).Enters first first.toList names := by
  have hfolder : ∀ n, (ofTexts included excluded).excludes (first.toList ++ below (names.take n) ++ ['/']) = false ↔
      ∀ text ∈ excluded, ¬Takes text (slashed ((first :: names).take (n + 1)) ++ ['/']) := fun n => by
    rw [List.take_succ_cons, slashed_cons, ← Bool.not_eq_true, excludes_ofTexts]
    simp
  rw [selects_ofTexts, enters_names_iff]
  constructor
  · intro h
    refine ⟨⟨h.taken, h.spared⟩, h.state, fun n hn => (hfolder n).mpr ?_⟩
    exact h.folders (n + 1) (Nat.succ_lt_succ hn) (Nat.succ_ne_zero n)
  · rintro ⟨⟨htaken, hspared⟩, hstate, hfolders⟩
    refine ⟨htaken, hspared, hstate, fun n hn hne => ?_⟩
    obtain ⟨n, rfl⟩ := Nat.exists_eq_succ_of_ne_zero hne
    exact (hfolder n).mp (hfolders n (Nat.lt_of_succ_lt_succ hn))

/-! ## The paths in order -/

theorem pairwise_found (h : isFormedIn entries = true) : (found f entries).Pairwise (· < ·) := by
  have hle : (found f entries).Pairwise fun a b => decide (a ≤ b) = true := by
    apply List.pairwise_mergeSort
    · intro a b c hab hbc
      exact decide_eq_true (String.le_trans (of_decide_eq_true hab) (of_decide_eq_true hbc))
    · intro a b
      simpa using String.le_total a b
  have hne : (found f entries).Pairwise (· ≠ ·) := nodup_found h
  exact (hle.and hne).imp fun ⟨hab, hab'⟩ => Std.lt_of_le_of_ne (of_decide_eq_true hab) hab'

/-- Whatever a folder holds, the search finds in it the files that the patterns ask for, in the order of
their code points and each once. -/
theorem discover_eq_chosen {d : Disk} {root : Path} (included excluded : List String)
    (hformed : isFormedIn (d.entriesAt root) = true) :
    ∃ files, discover d root (.arr (included.map .str)) (.arr (excluded.map .str)) = .ok files ∧
      files.Pairwise (· < ·) ∧
      ∀ file, file ∈ files ↔ ∃ names bytes,
        (Node.folder (d.entriesAt root)).at? names = some (.file bytes) ∧
          Chosen included excluded names ∧ file = fileOf names := by
  refine ⟨_, discover_arr d root included excluded, pairwise_found hformed, fun file => ?_⟩
  rw [mem_found_iff hformed]
  constructor
  · rintro ⟨first, names, bytes, hat, rfl, henters, hselects⟩
    exact ⟨first :: names, bytes, hat, chosen_iff.mpr ⟨hselects, henters⟩, rfl⟩
  · rintro ⟨names, bytes, hat, hchosen, rfl⟩
    cases names with
    | nil => cases hat
    | cons first names =>
      obtain ⟨hselects, henters⟩ := chosen_iff.mp hchosen
      exact ⟨first, names, bytes, hat, rfl, henters, hselects⟩

/-- A folder with scripts of its own, with the state folder and with a folder that is left out. -/
def nestedScripts : Disk where
  root := .folder [("src", .folder [
    (".flake-monster", .folder [("c.js", .file [])]),
    ("vendor", .folder [("lib", .folder [("d.js", .file [])])]),
    ("b.js", .file []), ("a.js", .file [])])]

/-- A pattern for a folder leaves out all that is below it, as the state folder does. -/
theorem discover_nestedScripts : ∃ files,
    discover nestedScripts ⟨true, []⟩ (.arr (["**/*.js"].map .str)) (.arr (["./src/vendor/"].map .str)) =
        .ok files ∧
      files.Pairwise (· < ·) ∧ "src/a.js" ∈ files ∧
      Takes "**/*.js" "src/vendor/lib/d.js".toList ∧ "src/vendor/lib/d.js" ∉ files := by
  have hformed : isFormedIn (nestedScripts.entriesAt ⟨true, []⟩) = true := by decide +kernel
  obtain ⟨files, hfiles, hsorted, hmem⟩ :=
    @discover_eq_chosen nestedScripts ⟨true, []⟩ ["**/*.js"] ["./src/vendor/"] hformed
  have hchosen : Chosen ["**/*.js"] ["./src/vendor/"] ["src", "a.js"] :=
    ⟨by decide, by decide, by decide, by decide⟩
  refine ⟨files, hfiles, hsorted, (hmem _).mpr ⟨["src", "a.js"], [], by rfl, hchosen, by decide⟩,
    by decide, fun hvendor => ?_⟩
  obtain ⟨names, bytes, hat, hvendor, hname⟩ := (hmem _).mp hvendor
  have hne : names ≠ [] := by
    rintro rfl
    cases hat
  have hproper := @Disk.Node.isProper_of_at? (.folder (nestedScripts.entriesAt ⟨true, []⟩)) _ hformed _ hat
  have hnames : names = ["src", "vendor", "lib", "d.js"] := by
    have hpath := ofText_fileOf hne hproper
    rw [← hname] at hpath
    exact (congrArg Path.names hpath).symm.trans (by decide)
  subst hnames
  exact hvendor.folders 2 (by decide) (by decide) "./src/vendor/" (List.mem_singleton_self _) (by decide)

end DelayInjection.Discovery
