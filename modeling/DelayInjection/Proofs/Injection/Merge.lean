import DelayInjection.Proofs.Injection.Splice
import Mathlib.Algebra.Ring.Nat
import Mathlib.Data.Finset.Sort

/-! Insertions that are applied back to front, read as one merge: the source is cut at their offsets,
and their texts stand between its segments. -/

namespace DelayInjection.Injection

open Text.Utf8 (Bytes encode)

/-- The offsets at which something is inserted, each once, in ascending order. -/
def cutOffsets (insertions : List Insertion) : List Nat :=
  (insertions.map Insertion.offset).toFinset.sort

/-- The segments of the source from `start` on, each but the last with the text of the cut where it
ends. -/
def merged (source : Bytes) (texts : Nat → Bytes) (start : Nat) : List Nat → Bytes
  | [] => source.drop start
  | cut :: cuts => (source.take cut).drop start ++ texts cut ++ merged source texts cut cuts

/-! ## Cuts -/

theorem mem_cutOffsets {insertions : List Insertion} {n : Nat} :
    n ∈ cutOffsets insertions ↔ ∃ i ∈ insertions, i.offset = n := by
  rw [cutOffsets, Finset.mem_sort, List.mem_toFinset, List.mem_map]

theorem pairwise_cutOffsets (insertions : List Insertion) :
    (cutOffsets insertions).Pairwise (· < ·) :=
  (Finset.sortedLT_sort _).pairwise

theorem segment_append_drop (source : Bytes) {start cut : Nat} (h : start ≤ cut) :
    (source.take cut).drop start ++ source.drop cut = source.drop start := by
  have hsplit := List.drop_take_append_drop source start (cut - start)
  rwa [Nat.add_sub_cancel' h, ← List.drop_take] at hsplit

/-- Between two cuts the pass copies the source. -/
theorem weave_append {insertions : List Insertion} {n : Nat} {piece : Bytes} (rest : Bytes)
    (h : ∀ i ∈ insertions, i.offset < n ∨ n + piece.length ≤ i.offset) :
    weave insertions n (piece ++ rest) = piece ++ weave insertions (n + piece.length) rest := by
  induction piece generalizing n with
  | nil => rfl
  | cons b piece ih =>
    have hnil : textsAt insertions n = [] := textsAt_eq_nil fun i hi => by
      have := h i hi
      rw [List.length_cons] at this
      omega
    rw [List.cons_append, weave, hnil, List.nil_append, ih fun i hi => by
      have := h i hi
      rw [List.length_cons] at this
      omega, List.cons_append, List.length_cons, Nat.add_right_comm, Nat.add_assoc]

theorem weave_of_le {insertions : List Insertion} {n : Nat} (source : Bytes)
    (h : ∀ i ∈ insertions, i.offset ≤ n) :
    weave insertions n source = textsAt insertions n ++ source := by
  cases source with
  | nil => rw [weave, List.append_nil]
  | cons b rest =>
    have hrest := @weave_append insertions (n + 1) rest [] fun i hi => .inl (Nat.lt_succ_of_le (h i hi))
    have hnil : weave insertions (n + 1 + rest.length) [] = [] := textsAt_eq_nil fun i hi => by
      have := h i hi
      omega
    rw [List.append_nil, hnil, List.append_nil] at hrest
    rw [weave, hrest]

/-- The pass from one cut to the next, and from there on. -/
theorem weave_eq_merged {source : Bytes} {insertions : List Insertion} {start : Nat} {cuts : List Nat}
    (hcuts : (start :: cuts).Pairwise (· < ·)) (hlength : ∀ cut ∈ cuts, cut ≤ source.length)
    (h : ∀ i ∈ insertions, i.offset ≤ start ∨ i.offset ∈ cuts) :
    weave insertions start (source.drop start) =
      textsAt insertions start ++ merged source (textsAt insertions) start cuts := by
  induction cuts generalizing start with
  | nil =>
    rw [merged, weave_of_le _ fun i hi => (h i hi).resolve_right List.not_mem_nil]
  | cons cut cuts ih =>
    obtain ⟨hstart, hrest⟩ := List.pairwise_cons.mp hcuts
    have hlt := hstart cut List.mem_cons_self
    have hcut := hlength cut List.mem_cons_self
    have hbehind : ∀ n ∈ cuts, cut < n := (List.pairwise_cons.mp hrest).1
    have hih := ih hrest (fun n hn => hlength n (List.mem_cons_of_mem _ hn)) fun i hi => by
      rcases h i hi with hi | hi
      · exact .inl (by omega)
      · rcases List.mem_cons.mp hi with hi | hi
        · exact .inl hi.le
        · exact .inr hi
    have hsegment : ((source.take cut).drop start).length = cut - start := by
      rw [List.length_drop, List.length_take]
      omega
    rw [merged]
    cases hpiece : (source.take cut).drop start with
    | nil =>
      rw [hpiece, List.length_nil] at hsegment
      omega
    | cons b piece =>
      rw [hpiece, List.length_cons] at hsegment
      have hgap : ∀ i ∈ insertions, i.offset < start + 1 ∨ start + 1 + piece.length ≤ i.offset := by
        intro i hi
        rcases h i hi with hi | hi
        · exact .inl (by omega)
        · rcases List.mem_cons.mp hi with hi | hi
          · exact .inr (by omega)
          · have := hbehind _ hi
            exact .inr (by omega)
      rw [← segment_append_drop source hlt.le, hpiece, List.cons_append, weave, weave_append _ hgap,
        show start + 1 + piece.length = cut by omega, hih]
      simp only [List.append_assoc, List.cons_append]

/-- An ascending list that holds zero starts with it. -/
theorem exists_eq_zero_cons {ns : List Nat} (hordered : ns.Pairwise (· < ·)) (h : 0 ∈ ns) :
    ∃ rest, ns = 0 :: rest := by
  cases ns with
  | nil => cases h
  | cons n rest =>
    rcases List.mem_cons.mp h with rfl | h
    · exact ⟨rest, rfl⟩
    · exact absurd ((List.pairwise_cons.mp hordered).1 0 h) (Nat.not_lt_zero n)

theorem weave_eq_merged_cutOffsets {source : Bytes} {insertions : List Insertion}
    (h : ∀ i ∈ insertions, i.offset ≤ source.length) :
    weave insertions 0 source = merged source (textsAt insertions) 0 (cutOffsets insertions) := by
  have hordered := pairwise_cutOffsets insertions
  have hlength : ∀ cut ∈ cutOffsets insertions, cut ≤ source.length := fun cut hcut => by
    obtain ⟨i, hi, rfl⟩ := mem_cutOffsets.mp hcut
    exact h i hi
  have hmem : ∀ i ∈ insertions, i.offset ∈ cutOffsets insertions := fun i hi =>
    mem_cutOffsets.mpr ⟨i, hi, rfl⟩
  by_cases hzero : 0 ∈ cutOffsets insertions
  · obtain ⟨cuts, hcuts⟩ := exists_eq_zero_cons hordered hzero
    rw [hcuts] at hordered hlength hmem ⊢
    exact weave_eq_merged hordered (fun cut hcut => hlength cut (List.mem_cons_of_mem _ hcut))
      fun i hi => (List.mem_cons.mp (hmem i hi)).imp_left Nat.le_of_eq
  · have hpositive : ∀ cut ∈ cutOffsets insertions, 0 < cut := fun cut hcut =>
      Nat.pos_of_ne_zero fun heq => hzero (heq ▸ hcut)
    have hnil : textsAt insertions 0 = [] := textsAt_eq_nil fun i hi heq => hzero (heq ▸ hmem i hi)
    have hmerged := weave_eq_merged (List.pairwise_cons.mpr ⟨hpositive, hordered⟩) hlength
      fun i hi => .inr (hmem i hi)
    rwa [List.drop_zero, hnil, List.nil_append] at hmerged

/-! ## What the merge keeps -/

theorem sublist_weave (insertions : List Insertion) (n : Nat) (source : Bytes) :
    source.Sublist (weave insertions n source) := by
  induction source generalizing n with
  | nil => exact List.nil_sublist _
  | cons b rest ih => exact ((ih (n + 1)).cons_cons b).trans (List.sublist_append_right _ _)

theorem length_splice (source : Bytes) (i : Insertion) :
    (splice source i).length = source.length + (encode i.text).length := by
  simp only [splice, List.length_append, List.length_take, List.length_drop]
  omega

theorem length_apply (source : Bytes) (insertions : List Insertion) :
    (apply source insertions).length =
      source.length + (insertions.map fun i => (encode i.text).length).sum := by
  have hfoldr : ∀ is : List Insertion, (is.foldr (fun i s => splice s i) source).length =
      source.length + (is.map fun i => (encode i.text).length).sum := by
    intro is
    induction is with
    | nil => rfl
    | cons i is ih =>
      rw [List.foldr_cons, length_splice, ih, List.map_cons, List.sum_cons]
      omega
  rw [apply_eq_foldr, hfoldr, ((inOrder_perm _ insertions).map _).sum_nat]

/-- Only the order at each offset matters. -/
theorem apply_eq_apply {source : Bytes} {insertions others : List Insertion}
    (h : ∀ i ∈ insertions, i.offset ≤ source.length)
    (hothers : ∀ n, others.filter (fun i => decide (i.offset = n)) =
      insertions.filter fun i => decide (i.offset = n)) :
    apply source others = apply source insertions := by
  have hothers' : ∀ i ∈ others, i.offset ≤ source.length := fun i hi => by
    have hmem : i ∈ others.filter fun j => decide (j.offset = i.offset) :=
      List.mem_filter.mpr ⟨hi, decide_eq_true rfl⟩
    rw [hothers] at hmem
    exact h i (List.mem_filter.mp hmem).1
  rw [apply_eq_weave h, apply_eq_weave hothers']
  refine weave_congr (fun n => ?_) 0 source
  rw [textsAt, textsAt, List.filter_reverse, List.filter_reverse, hothers]

theorem cutOffsets_reverse (insertions : List Insertion) :
    cutOffsets insertions.reverse = cutOffsets insertions := by
  rw [cutOffsets, cutOffsets, List.map_reverse, List.toFinset_reverse]

/-- The segments alone make up the source. -/
theorem merged_without_texts (source : Bytes) {start : Nat} {cuts : List Nat}
    (hcuts : cuts.Pairwise (· < ·)) (hstart : ∀ cut ∈ cuts, start ≤ cut) :
    merged source (fun _ => []) start cuts = source.drop start := by
  induction cuts generalizing start with
  | nil => rfl
  | cons cut cuts ih =>
    obtain ⟨hcut, hrest⟩ := List.pairwise_cons.mp hcuts
    rw [merged, List.append_nil, ih hrest fun n hn => (hcut n hn).le,
      segment_append_drop source (hstart cut List.mem_cons_self)]

/-- The insertions are applied as one merge. Where several go to one offset, the one that is listed
last comes first. All bytes of the source stay, in their order; the length grows by the lengths of
the texts; and the order of the list only matters among insertions at one offset. -/
theorem apply_eq_merged {source : Bytes} {insertions : List Insertion}
    (h : ∀ i ∈ insertions, i.offset ≤ source.length) :
    apply source insertions =
        merged source (textsAt insertions.reverse) 0 (cutOffsets insertions) ∧
      merged source (fun _ => []) 0 (cutOffsets insertions) = source ∧
      source.Sublist (apply source insertions) ∧
      (apply source insertions).length =
        source.length + (insertions.map fun i => (encode i.text).length).sum ∧
      ∀ others : List Insertion, (∀ n, others.filter (fun i => decide (i.offset = n)) =
          insertions.filter fun i => decide (i.offset = n)) →
        apply source others = apply source insertions := by
  have hmerged := @weave_eq_merged_cutOffsets source insertions.reverse
    fun i hi => h i (List.mem_reverse.mp hi)
  rw [cutOffsets_reverse, ← apply_eq_weave h] at hmerged
  refine ⟨hmerged, ?_, ?_, length_apply source insertions, fun others => apply_eq_apply h⟩
  · exact merged_without_texts source (pairwise_cutOffsets insertions) fun _ _ => Nat.zero_le _
  · rw [apply_eq_weave h]
    exact sublist_weave _ 0 source

theorem apply_eq_merged_of_repeated :
    apply [97, 98, 99] [⟨2, ['X']⟩, ⟨0, ['Y']⟩, ⟨2, ['Z']⟩] = [89, 97, 98, 90, 88, 99] ∧
      apply [97, 98, 99] [⟨0, ['Y']⟩, ⟨2, ['X']⟩, ⟨2, ['Z']⟩] = [89, 97, 98, 90, 88, 99] := by
  obtain ⟨hmerged, -, -, -, hothers⟩ := @apply_eq_merged [97, 98, 99]
    [⟨2, ['X']⟩, ⟨0, ['Y']⟩, ⟨2, ['Z']⟩] (by decide)
  have hcuts : cutOffsets [⟨2, ['X']⟩, ⟨0, ['Y']⟩, ⟨2, ['Z']⟩] = [0, 2] := by
    refine (pairwise_cutOffsets _).eq_of_mem_iff (by decide) fun n => ?_
    rw [mem_cutOffsets]
    simp only [List.mem_cons, List.not_mem_nil, or_false]
    grind
  have happly := hmerged.trans (congrArg _ hcuts)
  refine ⟨happly, (hothers [⟨0, ['Y']⟩, ⟨2, ['X']⟩, ⟨2, ['Z']⟩] fun n => ?_).trans happly⟩
  rcases eq_or_ne 0 n with rfl | hn
  · rfl
  · simp only [List.filter_cons, List.filter_nil, decide_eq_false hn, Bool.false_eq_true, if_false]

end DelayInjection.Injection
