import DelayInjection.Proofs.Disk.Tree

/-! Paths as texts, and where they lead. A folder that stays one keeps leading to the same place. -/

namespace DelayInjection.Disk

open Node (isProper)

/-! ## Names between slashes -/

def slashed (names : List String) : List Char := List.intercalate ['/'] (names.map String.toList)

theorem isProper_iff {name : String} : isProper name = true ↔
    name.toList ≠ [] ∧ name.toList ≠ ['.'] ∧ name ≠ ".." ∧ '/' ∉ name.toList ∧
      '\x00' ∉ name.toList := by
  have hempty : name = "" ↔ name.toList = [] := by
    rw [← String.toList_inj]
    rfl
  have hdot : name = "." ↔ name.toList = ['.'] := by
    rw [← String.toList_inj]
    rfl
  simp only [isProper, Bool.and_eq_true, decide_eq_true_eq, Bool.not_eq_true', ne_eq, hempty, hdot,
    List.contains_eq_mem, decide_eq_false_iff_not, and_assoc]

theorem pieces_of_not_mem {text : List Char} (h : '/' ∉ text) : pieces text = [text] := by
  induction text with
  | nil => rfl
  | cons c text ih =>
    rw [List.mem_cons, not_or] at h
    rw [pieces, if_neg (Ne.symm h.1), ih h.2]

theorem pieces_append {text : List Char} (h : '/' ∉ text) (rest : List Char) :
    pieces (text ++ '/' :: rest) = text :: pieces rest := by
  induction text with
  | nil => simp [pieces]
  | cons c text ih =>
    rw [List.mem_cons, not_or] at h
    rw [List.cons_append, pieces, if_neg (Ne.symm h.1), ih h.2]

theorem slashed_cons_of_ne_nil (name : String) {names : List String} (h : names ≠ []) :
    slashed (name :: names) = name.toList ++ '/' :: slashed names := by
  obtain ⟨next, rest, rfl⟩ := List.exists_cons_of_ne_nil h
  rw [slashed, slashed, List.map_cons, List.map_cons, List.intercalate_cons_cons, List.append_assoc]
  rfl

theorem slashed_singleton (name : String) : slashed [name] = name.toList := by
  rw [slashed, List.map_cons, List.map_nil, List.intercalate_singleton]

theorem pieces_slashed {names : List String} (hne : names ≠ [])
    (hslash : ∀ name ∈ names, '/' ∉ name.toList) :
    pieces (slashed names) = names.map String.toList := by
  induction names with
  | nil => exact absurd rfl hne
  | cons name names ih =>
    have hname := hslash name List.mem_cons_self
    cases names with
    | nil => rw [slashed_singleton, pieces_of_not_mem hname, List.map_cons, List.map_nil]
    | cons next rest =>
      rw [slashed_cons_of_ne_nil name (by simp), pieces_append hname,
        ih (by simp) fun n hn => hslash n (List.mem_cons_of_mem _ hn)]
      rfl

theorem head?_slashed {names : List String} (hproper : names.all isProper = true) :
    (slashed names).head? ≠ some '/' := by
  cases names with
  | nil => simp [slashed]
  | cons name names =>
    rw [List.all_cons, Bool.and_eq_true] at hproper
    obtain ⟨hne, -, -, hslash, -⟩ := isProper_iff.mp hproper.1
    obtain ⟨c, rest, hname⟩ := List.exists_cons_of_ne_nil hne
    rw [hname, List.mem_cons, not_or] at hslash
    have hhead : (slashed (name :: names)).head? = some c := by
      cases names with
      | nil => rw [slashed_singleton, hname, List.head?_cons]
      | cons next others =>
        rw [slashed_cons_of_ne_nil name (by simp), hname, List.cons_append, List.head?_cons]
    rw [hhead, ne_eq, Option.some.injEq]
    exact Ne.symm hslash.1

/-- Reading gives the names back. -/
theorem ofText_slashed {names : List String} (hne : names ≠ [])
    (hproper : names.all isProper = true) :
    Path.ofText (String.ofList (slashed names)) = ⟨false, names⟩ := by
  have hhead := head?_slashed hproper
  have hslash : ∀ name ∈ names, '/' ∉ name.toList := fun name hname =>
    (isProper_iff.mp (List.all_eq_true.mp hproper name hname)).2.2.2.1
  rw [Path.ofText, String.toList_ofList, pieces_slashed hne hslash, List.filter_eq_self.mpr,
    List.map_map]
  · congr 1
    · simpa using hhead
    · calc names.map (String.ofList ∘ String.toList)
          = names.map id := List.map_congr_left fun name _ => String.ofList_toList
        _ = names := List.map_id names
  · intro p hp
    obtain ⟨name, hname, rfl⟩ := List.mem_map.mp hp
    obtain ⟨hempty, hdot, -⟩ := isProper_iff.mp (List.all_eq_true.mp hproper name hname)
    simp [hempty, hdot]

theorem slashed_injective {names others : List String} (hne : names ≠ []) (hne' : others ≠ [])
    (hproper : names.all isProper = true) (hproper' : others.all isProper = true)
    (h : slashed names = slashed others) : names = others := by
  have hpath := ofText_slashed hne hproper
  rw [h, ofText_slashed hne' hproper'] at hpath
  exact (Path.mk.inj hpath).2.symm

/-! ## Where names lead -/

section Follow

variable {root other : Node} {reached names target : List String}

theorem follow_append {entries : List (String × Node)}
    (h : follow root reached names = .ok target) (hfolder : root.at? target = some (.folder entries))
    {below : List String} (hne : below ≠ []) :
    follow root reached (names ++ below) = follow root target below := by
  induction names generalizing reached with
  | nil =>
    cases h
    rfl
  | cons name names ih =>
    rw [follow] at h
    rw [List.cons_append, follow]
    by_cases hdots : name = ".."
    · rw [if_pos hdots] at h ⊢
      exact ih h
    · rw [if_neg hdots] at h ⊢
      have hrest : (names ++ below).isEmpty = false := by simp [hne]
      rw [hrest, if_neg (by simp)]
      cases names with
      | nil =>
        cases h
        rw [hfolder]
        rfl
      | cons next names =>
        rw [if_neg (by simp)] at h
        split at h
        next => cases h
        next => cases h
        next hat =>
          exact ih h

theorem follow_of_keeps (hkeeps : root.Keeps other) (h : follow root reached names = .ok target) :
    follow other reached names = .ok target := by
  induction names generalizing reached with
  | nil => exact h
  | cons name names ih =>
    rw [follow] at h ⊢
    by_cases hdots : name = ".."
    · rw [if_pos hdots] at h ⊢
      exact ih h
    · rw [if_neg hdots] at h ⊢
      by_cases hlast : names.isEmpty = true
      · rw [if_pos hlast] at h ⊢
        exact h
      · rw [if_neg hlast] at h ⊢
        split at h
        next => cases h
        next => cases h
        next entries hat =>
          obtain ⟨entries', hat'⟩ := hkeeps _ _ hat
          rw [hat']
          exact ih h

theorem follow_below {node : Node} {below : List String} (h : root.at? (reached ++ below) = some node)
    (hproper : below.all isProper = true) : follow root reached below = .ok (reached ++ below) := by
  induction below generalizing reached with
  | nil =>
    rw [List.append_nil]
    rfl
  | cons name below ih =>
    rw [List.all_cons, Bool.and_eq_true] at hproper
    have hdots := (isProper_iff.mp hproper.1).2.2.1
    rw [follow, if_neg hdots]
    have hcons : reached ++ name :: below = (reached ++ [name]) ++ below := by simp
    cases below with
    | nil => rfl
    | cons next below =>
      rw [if_neg (by simp)]
      rw [hcons] at h ⊢
      have hat := h
      rw [Node.at?_append] at hat
      obtain ⟨inner, hinner, hat⟩ := Option.bind_eq_some_iff.mp hat
      cases inner with
      | file bytes => cases hat
      | folder entries =>
        rw [hinner]
        exact ih h hproper.2

end Follow
end DelayInjection.Disk
