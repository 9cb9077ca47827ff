import DelayInjection.Injection
import DelayInjection.Proofs.Text.Lines
import DelayInjection.Proofs.Text.Utf8

/-! Insertions applied back to front, read as one pass over the source: a text that is cut where the
insertions go, with their texts between the pieces. -/

namespace DelayInjection.Injection

open Text.Utf8 (Bytes Boundary encode)

/-! ## The order of the output -/

section Order

variable {ε : Type} (offset : ε → Nat)

/-- Edits by offset; of two at one offset the later one stands first. -/
def inOrder (es : List ε) : List ε :=
  (es.mergeSort fun a b => decide (offset b ≤ offset a)).reverse

theorem inOrder_perm (es : List ε) : (inOrder offset es).Perm es :=
  (List.reverse_perm _).trans (List.mergeSort_perm _ _)

theorem mem_inOrder {es : List ε} {e : ε} : e ∈ inOrder offset es ↔ e ∈ es :=
  (inOrder_perm offset es).mem_iff

theorem pairwise_inOrder (es : List ε) :
    (inOrder offset es).Pairwise fun a b => offset a ≤ offset b := by
  rw [inOrder, List.pairwise_reverse]
  refine (List.pairwise_mergeSort (fun a b c hab hbc => ?_) (fun a b => ?_) es).imp fun h => by
    simpa using h
  · simp only [decide_eq_true_eq] at *
    omega
  · simp only [Bool.or_eq_true, decide_eq_true_eq]
    omega

theorem inOrder_map {f : ε → Insertion} (hf : ∀ e, (f e).offset = offset e) (es : List ε) :
    inOrder Insertion.offset (es.map f) = (inOrder offset es).map f := by
  rw [inOrder, inOrder, List.map_reverse,
    ← List.map_mergeSort (r := fun a b => decide (offset b ≤ offset a)) fun a _ b _ => by rw [hf, hf]]

/-- The sort is stable, so edits at one offset come in the reverse of their order. -/
theorem filter_inOrder (es : List ε) (n : Nat) :
    (inOrder offset es).filter (fun e => decide (offset e = n)) =
      (es.filter fun e => decide (offset e = n)).reverse := by
  rw [inOrder, List.filter_reverse]
  congr 1
  have hperm := (List.mergeSort_perm es fun a b => decide (offset b ≤ offset a)).filter
    fun e => decide (offset e = n)
  have hsub : (es.filter fun e => decide (offset e = n)).Sublist
      (es.mergeSort fun a b => decide (offset b ≤ offset a)) := by
    refine List.sublist_mergeSort (fun a b c hab hbc => ?_) (fun a b => ?_) ?_ List.filter_sublist
    · simp only [decide_eq_true_eq] at *
      omega
    · simp only [Bool.or_eq_true, decide_eq_true_eq]
      omega
    · refine List.pairwise_of_forall_mem_list fun a ha b hb => ?_
      have hna := of_decide_eq_true (List.mem_filter.mp ha).2
      have hnb := of_decide_eq_true (List.mem_filter.mp hb).2
      exact decide_eq_true (by omega)
  have hself := hsub.filter fun e => decide (offset e = n)
  rw [List.filter_filter] at hself
  simp only [Bool.and_self] at hself
  exact (hself.eq_of_length hperm.length_eq.symm).symm

theorem pairwise_lt {ordered es : List ε} (hperm : ordered.Perm es)
    (hordered : ordered.Pairwise fun a b => offset a ≤ offset b)
    (hne : es.Pairwise fun a b => offset a ≠ offset b) :
    ordered.Pairwise fun a b => offset a < offset b :=
  (hordered.and (hne.perm hperm.symm fun h => Ne.symm h)).imp fun h => Nat.lt_of_le_of_ne h.1 h.2

/-- Of the edits at its offset the one that is listed last stands first. -/
theorem exists_inOrder_concat (es : List ε) (e : ε) :
    ∃ above below, inOrder offset (es ++ [e]) = above ++ e :: below ∧ (above ++ below).Perm es ∧
      (∀ a ∈ above, offset a < offset e) ∧ ∀ b ∈ below, offset e ≤ offset b := by
  have hsorted := pairwise_inOrder offset (es ++ [e])
  have hfilter := filter_inOrder offset (es ++ [e]) (offset e)
  have hperm := inOrder_perm offset (es ++ [e])
  rw [List.filter_append, List.filter_cons_of_pos (by simp), List.filter_nil, List.reverse_append,
    List.reverse_singleton, List.singleton_append, List.filter_eq_cons_iff] at hfilter
  obtain ⟨above, below, hsplit, habove, -, -⟩ := hfilter
  rw [hsplit] at hsorted hperm
  obtain ⟨-, hbehind, hbefore⟩ := List.pairwise_append.mp hsorted
  refine ⟨above, below, hsplit,
    ((List.perm_middle.symm.trans hperm).trans (List.perm_append_singleton _ _)).cons_inv,
    fun a ha => ?_, (List.pairwise_cons.mp hbehind).1⟩
  have hne : offset a ≠ offset e := by simpa using habove a ha
  exact Nat.lt_of_le_of_ne (hbefore a ha e List.mem_cons_self) hne

end Order

theorem apply_eq_foldr (source : Bytes) (insertions : List Insertion) :
    apply source insertions =
      (inOrder Insertion.offset insertions).foldr (fun i s => splice s i) source := by
  rw [apply, List.foldl_eq_foldr_reverse, inOrder]

/-- Insertions that are listed from the back to the front are made one by one. -/
theorem apply_eq_foldl (source : Bytes) {insertions : List Insertion}
    (h : insertions.Pairwise fun i j => j.offset ≤ i.offset) :
    apply source insertions = insertions.foldl splice source := by
  rw [apply, List.mergeSort_of_pairwise (h.imp fun hle => decide_eq_true hle)]

theorem apply_eq_self {source : Bytes} {insertions : List Insertion}
    (h : ∀ i ∈ insertions, i.text = []) : apply source insertions = source := by
  rw [apply_eq_foldr]
  have hall : ∀ i ∈ inOrder Insertion.offset insertions, i.text = [] :=
    fun i hi => h i ((mem_inOrder _).mp hi)
  generalize inOrder Insertion.offset insertions = ordered at hall
  induction ordered with
  | nil => rfl
  | cons i rest ih =>
    rw [List.foldr_cons, ih fun j hj => hall j (List.mem_cons_of_mem _ hj), splice,
      hall i List.mem_cons_self, Text.Utf8.encode_nil, List.append_nil, List.take_append_drop]

/-! ## What an insertion wrote -/

theorem length_le_foldr_splice (source : Bytes) (insertions : List Insertion) :
    source.length ≤ (insertions.foldr (fun i s => splice s i) source).length := by
  induction insertions with
  | nil => exact Nat.le_refl _
  | cons i rest ih =>
    rw [List.foldr_cons, splice]
    simp only [List.length_append, List.length_take, List.length_drop]
    omega

/-- In the order of the output, later splices come in front of what a marked insertion wrote, as long
as the others have their offsets inside of the source. -/
theorem infix_drop_foldr_splice {part source : Bytes} {insertions : List Insertion} {n : Nat}
    (hordered : insertions.Pairwise fun i j => i.offset ≤ j.offset)
    (hfits : ∀ i ∈ insertions, part <:+: encode i.text ∨ i.offset ≤ source.length)
    (hheld : ∃ i ∈ insertions, part <:+: encode i.text)
    (hn : n ≤ source.length) (hle : ∀ i ∈ insertions, n ≤ i.offset) :
    part <:+: (insertions.foldr (fun i s => splice s i) source).drop n := by
  induction insertions generalizing n with
  | nil =>
    obtain ⟨i, hi, -⟩ := hheld
    cases hi
  | cons i rest ih =>
    have hlength := length_le_foldr_splice source rest
    have hni := hle i List.mem_cons_self
    rw [List.foldr_cons, splice, List.append_assoc, List.drop_append_of_le_length (by
      rw [List.length_take]
      omega)]
    by_cases hpart : part <:+: encode i.text
    · exact (hpart.trans (List.prefix_append _ _).isInfix).trans (List.suffix_append _ _).isInfix
    · have hinside := (hfits i List.mem_cons_self).resolve_left hpart
      obtain ⟨hbehind, hrest⟩ := List.pairwise_cons.mp hordered
      obtain ⟨j, hj, hjpart⟩ := hheld
      have hj' : j ∈ rest := (List.mem_cons.mp hj).resolve_left fun h => hpart (h ▸ hjpart)
      have hkept := ih hrest (fun k hk => hfits k (List.mem_cons_of_mem _ hk)) ⟨j, hj', hjpart⟩
        hinside hbehind
      exact hkept.trans ((List.suffix_append _ _).trans (List.suffix_append _ _)).isInfix

/-- What one of the insertions holds stands in the output, if those that do not hold it have their
offsets inside of the source. The others may lie anywhere. -/
theorem infix_apply {part source : Bytes} {insertions : List Insertion}
    (hfits : ∀ i ∈ insertions, part <:+: encode i.text ∨ i.offset ≤ source.length)
    (hheld : ∃ i ∈ insertions, part <:+: encode i.text) : part <:+: apply source insertions := by
  obtain ⟨i, hi, hpart⟩ := hheld
  rw [apply_eq_foldr]
  exact infix_drop_foldr_splice (n := 0) (pairwise_inOrder _ _)
    (fun j hj => hfits j ((mem_inOrder _).mp hj)) ⟨i, (mem_inOrder _).mpr hi, hpart⟩
    (Nat.zero_le _) fun _ _ => Nat.zero_le _

/-! ## One pass over bytes -/

/-- The texts that go in front of the byte at an offset. -/
def textsAt (insertions : List Insertion) (offset : Nat) : Bytes :=
  (insertions.filter fun i => decide (i.offset = offset)).flatMap fun i => encode i.text

/-- The source from `offset` on, with the texts of all insertions in their places. -/
def weave (insertions : List Insertion) (offset : Nat) : Bytes → Bytes
  | [] => textsAt insertions offset
  | b :: rest => textsAt insertions offset ++ b :: weave insertions (offset + 1) rest

theorem textsAt_cons_of_ne {i : Insertion} {insertions : List Insertion} {n : Nat}
    (h : i.offset ≠ n) : textsAt (i :: insertions) n = textsAt insertions n := by
  rw [textsAt, List.filter_cons_of_neg (by simpa using h), textsAt]

theorem weave_cons_of_lt {i : Insertion} {insertions : List Insertion} {n : Nat}
    (h : i.offset < n) (source : Bytes) :
    weave (i :: insertions) n source = weave insertions n source := by
  induction source generalizing n with
  | nil => exact textsAt_cons_of_ne (Nat.ne_of_lt h)
  | cons b source ih =>
    rw [weave, weave, textsAt_cons_of_ne (Nat.ne_of_lt h), ih (Nat.lt_succ_of_lt h)]

theorem textsAt_eq_nil {insertions : List Insertion} {n : Nat}
    (h : ∀ i ∈ insertions, i.offset ≠ n) : textsAt insertions n = [] := by
  rw [textsAt, List.filter_eq_nil_iff.mpr fun i hi => ?_, List.flatMap_nil]
  simpa using h i hi

theorem weave_cons {i : Insertion} {insertions : List Insertion} {n : Nat} {source : Bytes}
    (hn : n ≤ i.offset) (hlen : i.offset ≤ n + source.length)
    (h : ∀ j ∈ insertions, i.offset ≤ j.offset) :
    weave (i :: insertions) n source = splice (weave insertions n source) ⟨i.offset - n, i.text⟩ := by
  induction source generalizing n with
  | nil =>
    have hi : i.offset = n := by
      rw [List.length_nil] at hlen
      omega
    rw [weave, weave, textsAt, List.filter_cons_of_pos (by simpa using hi), List.flatMap_cons]
    simp [splice, hi, textsAt]
  | cons b source ih =>
    rcases Nat.eq_or_lt_of_le hn with hi | hi
    · rw [weave, weave, textsAt, List.filter_cons_of_pos (by simpa using hi.symm),
        List.flatMap_cons, weave_cons_of_lt (by omega)]
      simp [splice, hi, textsAt]
    · have hnil : textsAt insertions n = [] :=
        textsAt_eq_nil fun j hj => Nat.ne_of_gt (Nat.lt_of_lt_of_le hi (h j hj))
      rw [weave, weave, textsAt_cons_of_ne (Nat.ne_of_gt hi), hnil,
        ih (by omega) (by simp only [List.length_cons] at hlen; omega)]
      simp only [splice, List.nil_append]
      rw [show i.offset - n = (i.offset - (n + 1)) + 1 by omega]
      rfl

theorem foldr_splice_eq_weave {insertions : List Insertion} {source : Bytes}
    (hsorted : insertions.Pairwise fun i j => i.offset ≤ j.offset)
    (hlen : ∀ i ∈ insertions, i.offset ≤ source.length) :
    insertions.foldr (fun i s => splice s i) source = weave insertions 0 source := by
  induction insertions with
  | nil =>
    have hnil : ∀ (n : Nat) (s : Bytes), weave [] n s = s := by
      intro n s
      induction s generalizing n with
      | nil => rfl
      | cons b s ih => rw [weave, ih]; rfl
    exact (hnil 0 source).symm
  | cons i insertions ih =>
    obtain ⟨hi, hrest⟩ := List.pairwise_cons.mp hsorted
    rw [List.foldr_cons, ih hrest fun j hj => hlen j (List.mem_cons_of_mem _ hj),
      weave_cons (Nat.zero_le _) (by have := hlen i List.mem_cons_self; omega) hi, Nat.sub_zero]

theorem weave_congr {insertions insertions' : List Insertion}
    (h : ∀ n, textsAt insertions n = textsAt insertions' n) (n : Nat) (source : Bytes) :
    weave insertions n source = weave insertions' n source := by
  induction source generalizing n with
  | nil => exact h n
  | cons b source ih => rw [weave, weave, h n, ih]

/-- The output is the source with every text at its offset; at one offset, the last listed text
stands first. -/
theorem apply_eq_weave {source : Bytes} {insertions : List Insertion}
    (hlen : ∀ i ∈ insertions, i.offset ≤ source.length) :
    apply source insertions = weave insertions.reverse 0 source := by
  rw [apply_eq_foldr, foldr_splice_eq_weave (pairwise_inOrder _ _)
    fun i hi => hlen i ((mem_inOrder _).mp hi)]
  refine weave_congr (fun n => ?_) 0 source
  rw [textsAt, filter_inOrder, textsAt, List.filter_reverse]

/-! ## One pass over characters -/

section Cuts

variable {ε : Type} (offset : ε → Nat)

/-- Pieces of a text, each with the edit behind it, in front of the rest. -/
def joined (f : ε → List Char) (cuts : List (List Char × ε)) (tail : List Char) : List Char :=
  cuts.foldr (fun cut rest => cut.1 ++ f cut.2 ++ rest) tail

@[simp] theorem joined_nil (f : ε → List Char) (tail : List Char) : joined f [] tail = tail := rfl

@[simp] theorem joined_cons (f : ε → List Char) (piece : List Char) (e : ε)
    (cuts : List (List Char × ε)) (tail : List Char) :
    joined f ((piece, e) :: cuts) tail = piece ++ f e ++ joined f cuts tail := rfl

theorem joined_append (f : ε → List Char) (cuts : List (List Char × ε)) (t tail : List Char) :
    joined f cuts (t ++ tail) = joined f cuts t ++ tail := by
  induction cuts with
  | nil => rfl
  | cons cut cuts ih => rw [joined_cons, joined_cons, ih, ← List.append_assoc]

theorem mem_joined {f : ε → List Char} {cuts : List (List Char × ε)} {tail : List Char} {c : Char}
    (h : c ∈ joined f cuts tail) :
    c ∈ joined (fun _ => []) cuts tail ∨ ∃ cut ∈ cuts, c ∈ f cut.2 := by
  induction cuts with
  | nil => exact .inl h
  | cons cut cuts ih =>
    rw [joined_cons, List.mem_append, List.mem_append] at h
    rw [joined_cons, List.append_nil, List.mem_append]
    rcases h with (h | h) | h
    · exact .inl (.inl h)
    · exact .inr ⟨cut, List.mem_cons_self, h⟩
    · rcases ih h with h | ⟨other, hother, h⟩
      · exact .inl (.inr h)
      · exact .inr ⟨other, List.mem_cons_of_mem _ hother, h⟩

theorem head?_joined {f : ε → List Char} {tail : List Char} {cuts : List (List Char × ε)}
    (hf : ∀ cut ∈ cuts, (f cut.2).head? ≠ some Text.mark)
    (h : (joined f cuts tail).head? = some Text.mark) :
    (joined (fun _ => []) cuts tail).head? = some Text.mark := by
  induction cuts with
  | nil => exact h
  | cons cut rest ih =>
    obtain ⟨piece, e⟩ := cut
    rw [joined_cons] at h ⊢
    cases piece with
    | cons c piece => exact h
    | nil =>
      have he := hf ([], e) List.mem_cons_self
      have hrest := ih fun cut hcut => hf cut (List.mem_cons_of_mem _ hcut)
      cases hfe : f e with
      | nil =>
        rw [hfe] at h
        exact hrest h
      | cons c t =>
        rw [hfe] at h he
        exact absurd h he

/-- Every edit goes where its piece ends; the first piece starts at `n`. -/
def Placed (n : Nat) : List (List Char × ε) → Prop
  | [] => True
  | (piece, e) :: rest => offset e = n + (encode piece).length ∧ Placed (offset e) rest

theorem exists_cuts {n : Nat} {es : List ε} {t : List Char}
    (hsorted : es.Pairwise fun a b => offset a ≤ offset b)
    (h : ∀ e ∈ es, n ≤ offset e ∧ Boundary t (offset e - n)) :
    ∃ cuts tail, cuts.map (·.2) = es ∧ t = joined (fun _ => []) cuts tail ∧
      Placed offset n cuts := by
  induction es generalizing n t with
  | nil => exact ⟨[], t, rfl, rfl, trivial⟩
  | cons e es ih =>
    obtain ⟨he, hrest⟩ := List.pairwise_cons.mp hsorted
    obtain ⟨hn, piece, behind, rfl, hlen⟩ := h e List.mem_cons_self
    obtain ⟨cuts, tail, hcuts, ht, hplaced⟩ := ih (n := offset e) (t := behind) hrest fun e' he' => by
      obtain ⟨hn', hb⟩ := h e' (List.mem_cons_of_mem _ he')
      have hle := he e' he'
      refine ⟨hle, Text.Utf8.boundary_of_append (s := piece) ?_⟩
      rwa [show (encode piece).length + (offset e' - offset e) = offset e' - n by omega]
    refine ⟨(piece, e) :: cuts, tail, by rw [List.map_cons, hcuts], ?_, by omega, hplaced⟩
    rw [joined_cons, List.append_nil, ← ht]

theorem foldr_splice_joined {f : ε → List Char} {n : Nat} {cuts : List (List Char × ε)}
    (tail : List Char) {front : Bytes} (hplaced : Placed offset n cuts) (hfront : front.length = n) :
    ((cuts.map (·.2)).map fun e => Insertion.mk (offset e) (f e)).foldr (fun i s => splice s i)
        (front ++ encode (joined (fun _ => []) cuts tail)) =
      front ++ encode (joined f cuts tail) := by
  induction cuts generalizing n front with
  | nil => rfl
  | cons cut cuts ih =>
    obtain ⟨piece, e⟩ := cut
    obtain ⟨he, hrest⟩ := hplaced
    have hlen : (front ++ encode piece).length = offset e := by
      rw [List.length_append, hfront, he]
    have hih := @ih (offset e) (front ++ encode piece) hrest hlen
    simp only [List.map_cons, List.foldr_cons, joined_cons, List.append_nil, Text.Utf8.encode_append]
    rw [← List.append_assoc, hih, splice]
    simp only
    rw [← hlen, List.take_left, List.drop_left]
    simp only [List.append_assoc]

/-- The text can be cut so that, whatever each edit writes, the output holds it behind its piece. -/
theorem exists_apply_eq_joined {es : List ε} {front t : List Char}
    (h : ∀ e ∈ es, (encode front).length ≤ offset e ∧
      Boundary t (offset e - (encode front).length)) :
    ∃ cuts tail, cuts.map (·.2) = inOrder offset es ∧ t = joined (fun _ => []) cuts tail ∧
      Placed offset (encode front).length cuts ∧
      ∀ f : ε → List Char, apply (encode (front ++ t)) (es.map fun e => ⟨offset e, f e⟩) =
        encode (front ++ joined f cuts tail) := by
  obtain ⟨cuts, tail, hcuts, ht, hplaced⟩ := exists_cuts offset (pairwise_inOrder offset es)
    fun e he => h e ((mem_inOrder offset).mp he)
  refine ⟨cuts, tail, hcuts, ht, hplaced, fun f => ?_⟩
  rw [apply_eq_foldr, inOrder_map offset (fun _ => rfl), ← hcuts, Text.Utf8.encode_append,
    Text.Utf8.encode_append]
  conv in encode t => rw [ht]
  exact foldr_splice_joined offset tail hplaced rfl

/-- What is found in a text with such edits in it was there before, if it shares no character with
them. -/
theorem infix_of_joined {f : ε → List Char} {part front tail : List Char}
    {cuts : List (List Char × ε)} (hpart : part ≠ []) (hf : ∀ cut ∈ cuts, ∀ c ∈ f cut.2, c ∉ part)
    (h : part <:+: front ++ joined f cuts tail) :
    part <:+: front ++ joined (fun _ => []) cuts tail := by
  induction cuts generalizing front with
  | nil => exact h
  | cons cut cuts ih =>
    obtain ⟨piece, e⟩ := cut
    have hrest : ∀ cut ∈ cuts, ∀ c ∈ f cut.2, c ∉ part := fun cut hcut =>
      hf cut (List.mem_cons_of_mem _ hcut)
    have he := hf (piece, e) List.mem_cons_self
    rw [joined_cons, List.append_nil] at *
    cases hfe : f e with
    | nil =>
      rw [hfe, List.append_nil, ← List.append_assoc] at h
      rw [← List.append_assoc]
      exact ih hrest h
    | cons c t =>
      rw [hfe] at h he
      have h' : part <:+: (front ++ piece) ++ c :: (t ++ joined f cuts tail) := by simpa using h
      rcases Text.infix_append_cons (he c List.mem_cons_self) h' with h' | h'
      · rw [← List.append_assoc]
        exact h'.trans (List.prefix_append _ _).isInfix
      · have htail := Text.infix_of_append hpart (fun d hd => he d (List.mem_cons_of_mem _ hd))
          (ih hrest h')
        exact htail.trans ((List.suffix_append _ _).trans (List.suffix_append _ _)).isInfix

/-- The same for insertions into the bytes of a text. -/
theorem infix_of_apply {source kept part : List Char} {insertions : List Insertion}
    (hpart : part ≠ []) (hboundary : ∀ i ∈ insertions, Boundary source i.offset)
    (hf : ∀ i ∈ insertions, ∀ c ∈ i.text, c ∉ part)
    (hkept : apply (encode source) insertions = encode kept) (h : part <:+: kept) :
    part <:+: source := by
  obtain ⟨cuts, tail, hcuts, hsource, -, happly⟩ :=
    @exists_apply_eq_joined _ Insertion.offset insertions [] source fun i hi =>
      ⟨Nat.zero_le _, hboundary i hi⟩
  have hmem : ∀ cut ∈ cuts, cut.2 ∈ insertions := fun cut hcut => by
    rw [← mem_inOrder Insertion.offset, ← hcuts]
    exact List.mem_map_of_mem hcut
  have htext := happly Insertion.text
  rw [show (insertions.map fun i => (⟨i.offset, i.text⟩ : Insertion)) = insertions from
    List.map_id _] at htext
  have hout : kept = joined Insertion.text cuts tail :=
    Text.Utf8.encode_injective (hkept.symm.trans htext)
  rw [hsource]
  rw [hout] at h
  exact @infix_of_joined _ Insertion.text part [] tail cuts hpart
    (fun cut hcut => hf cut.2 (hmem cut hcut)) h

end Cuts

/-! ## The lines of the output -/

section Lines

open Text (lastLine splitLines)

variable {ε : Type} {c : Char}

/-- What no piece brings to its last line is not on the last line of all of them. -/
theorem not_mem_lastLine_joined {cuts : List (List Char × ε)} {tail : List Char}
    (hcuts : ∀ cut ∈ cuts, c ∉ lastLine cut.1) (htail : c ∉ lastLine tail) :
    c ∉ lastLine (joined (fun _ => []) cuts tail) := by
  induction cuts with
  | nil => exact htail
  | cons cut cuts ih =>
    rw [joined_cons, List.append_nil]
    exact Text.not_mem_lastLine_append (hcuts cut List.mem_cons_self)
      (ih fun cut hcut => hcuts cut (List.mem_cons_of_mem _ hcut))

theorem count_joined {f : ε → List Char} {cuts : List (List Char × ε)} (tail : List Char)
    (hf : ∀ cut ∈ cuts, c ∉ f cut.2) :
    (joined f cuts tail).count c = (joined (fun _ => []) cuts tail).count c := by
  induction cuts with
  | nil => rfl
  | cons cut cuts ih =>
    rw [joined_cons, joined_cons, List.count_append, List.count_append, List.count_append,
      List.count_append, ih fun cut hcut => hf cut (List.mem_cons_of_mem _ hcut),
      List.count_eq_zero_of_not_mem (hf cut List.mem_cons_self), List.count_nil]

theorem joined_split (f : ε → List Char) (above below : List (List Char × ε))
    (cut : List Char × ε) (tail : List Char) :
    joined f (above ++ cut :: below) tail = joined f above cut.1 ++ (f cut.2 ++ joined f below tail) := by
  induction above with
  | nil => exact List.append_assoc _ _ _
  | cons first above ih => rw [List.cons_append, joined_cons, joined_cons, ih, ← List.append_assoc]

theorem mem_lastLine_joined {f : ε → List Char} {cuts : List (List Char × ε)} {tail : List Char}
    (h : c ∈ lastLine tail) : c ∈ lastLine (joined f cuts tail) := by
  induction cuts with
  | nil => exact h
  | cons cut cuts ih => exact Text.mem_lastLine_append ih

/-- The offset of an edit is where the pieces up to it end. -/
theorem Placed.offset_eq {offset : ε → Nat} {n : Nat} {above below : List (List Char × ε)}
    {cut : List Char × ε} (h : Placed offset n (above ++ cut :: below)) :
    offset cut.2 = n + (encode (joined (fun _ => []) above cut.1)).length := by
  induction above generalizing n with
  | nil => exact h.1
  | cons first above ih =>
    obtain ⟨hfirst, hrest⟩ := h
    rw [ih hrest, hfirst, joined_cons, List.append_nil, Text.Utf8.encode_append, List.length_append,
      Nat.add_assoc]

theorem Placed.of_append {offset : ε → Nat} {n : Nat} {above below : List (List Char × ε)}
    {cut : List Char × ε} (h : Placed offset n (above ++ cut :: below)) :
    Placed offset n (above ++ [cut]) ∧ Placed offset (offset cut.2) below := by
  induction above generalizing n with
  | nil => exact ⟨⟨h.1, trivial⟩, h.2⟩
  | cons first above ih => exact ⟨⟨h.1, (ih h.2).1⟩, (ih h.2).2⟩

/-- Edits at different offsets have pieces between them. -/
theorem Placed.ne_nil {offset : ε → Nat} {n : Nat} {cuts : List (List Char × ε)}
    (h : Placed offset n cuts)
    (hordered : (cuts.map (·.2)).Pairwise fun a b => offset a < offset b) :
    ∀ cut ∈ cuts.tail, cut.1 ≠ [] := by
  induction cuts generalizing n with
  | nil => exact fun _ hcut => nomatch hcut
  | cons first cuts ih =>
    obtain ⟨hfirst, hrest⟩ := List.pairwise_cons.mp hordered
    cases cuts with
    | nil => exact fun _ hcut => nomatch hcut
    | cons second cuts =>
      intro cut hcut
      rcases List.mem_cons.mp hcut with rfl | hcut
      · have hlt := hfirst _ List.mem_cons_self
        rw [h.2.1] at hlt
        rintro hnil
        rw [hnil] at hlt
        exact absurd hlt (Nat.lt_irrefl _)
      · exact ih h.2 hrest cut hcut

/-- The cuts for edits at different offsets and one more, which is listed last: of the others, those that
come to stand in front of it stand further up. -/
theorem exists_cuts_concat {offset : ε → Nat} {es : List ε} {e : ε} {t : List Char}
    (hne : es.Pairwise fun a b => offset a ≠ offset b) (hb : ∀ b ∈ es ++ [e], Boundary t (offset b)) :
    ∃ above piece below tail, t = joined (fun _ => []) (above ++ (piece, e) :: below) tail ∧
      Placed offset 0 (above ++ (piece, e) :: below) ∧
      (above.map (·.2) ++ below.map (·.2)).Perm es ∧ (∀ cut ∈ above, offset cut.2 < offset e) ∧
      (∀ cut ∈ (above ++ [(piece, e)]).tail, cut.1 ≠ []) ∧ (∀ cut ∈ below.tail, cut.1 ≠ []) ∧
      ∀ f : ε → List Char, apply (encode t) ((es ++ [e]).map fun e => ⟨offset e, f e⟩) =
        encode (joined f (above ++ (piece, e) :: below) tail) := by
  obtain ⟨cuts, tail, hmap, ht, hcuts, happly⟩ := @exists_apply_eq_joined _ offset (es ++ [e]) [] t
    fun b hmem => ⟨Nat.zero_le _, hb b hmem⟩
  obtain ⟨front, behind, hsplit, hperm, hlt, -⟩ := exists_inOrder_concat offset es e
  obtain ⟨above, rest, rfl, hfront, hrest⟩ := List.map_eq_append_iff.mp (hmap.trans hsplit)
  obtain ⟨⟨piece, e'⟩, below, rfl, rfl, hbelow⟩ := List.map_eq_cons_iff.mp hrest
  have hordered := pairwise_inOrder offset (es ++ [e'])
  rw [hsplit, List.pairwise_append] at hordered
  obtain ⟨hfronts, hbehinds, hacross⟩ := hordered
  have hstrict := pairwise_lt offset hperm (List.pairwise_append.mpr ⟨hfronts,
    (List.pairwise_cons.mp hbehinds).2, fun a ha b hb => hacross a ha b (List.mem_cons_of_mem _ hb)⟩) hne
  rw [List.pairwise_append] at hstrict
  obtain ⟨hplaced, hplaced'⟩ := hcuts.of_append
  refine ⟨above, piece, below, tail, ht, hcuts, hfront ▸ hbelow ▸ hperm, fun cut hcut =>
    hlt _ (hfront ▸ List.mem_map_of_mem hcut), hplaced.ne_nil ?_, hplaced'.ne_nil (hbelow ▸ hstrict.2.1),
    happly⟩
  rw [List.map_append, hfront]
  exact List.pairwise_append.mpr ⟨hstrict.1, List.pairwise_singleton _ _, fun a ha b hb =>
    List.mem_singleton.mp hb ▸ hlt a ha⟩

/-- What is on the line in front of an edit, an edit at that place or before it brings along. -/
theorem exists_cut_of_mem_lastLine {above below : List (List Char × ε)} {cut : List Char × ε}
    (h : c ∈ lastLine (joined (fun _ => []) above cut.1)) :
    ∃ above' cut' below', above ++ cut :: below = above' ++ cut' :: below' ∧
      c ∈ lastLine cut'.1 ∧ cut' ∈ above ++ [cut] := by
  by_cases habove : ∃ first ∈ above, c ∈ lastLine first.1
  · obtain ⟨first, hfirst, hmem⟩ := habove
    obtain ⟨front, back, rfl⟩ := List.append_of_mem hfirst
    exact ⟨front, first, back ++ cut :: below, by simp, hmem, List.mem_append_left _ hfirst⟩
  · by_cases hcut : c ∈ lastLine cut.1
    · exact ⟨above, cut, below, rfl, hcut, by simp⟩
    · exact absurd h (not_mem_lastLine_joined
        (fun first hfirst hmem => habove ⟨first, hfirst, hmem⟩) hcut)

/-- It comes to stand on the first line that the edit writes. -/
theorem exists_line_of_joined {f : ε → List Char} {above below : List (List Char × ε)}
    {cut : List Char × ε} {line rest tail : List Char} (hcut : c ∈ lastLine cut.1)
    (hline : '\n' ∉ line) (hf : f cut.2 = line ++ '\n' :: rest) :
    ∃ start, c ∈ start ∧ start ++ line ∈ splitLines (joined f (above ++ cut :: below) tail) := by
  refine ⟨lastLine (joined f above cut.1), mem_lastLine_joined hcut, ?_⟩
  rw [joined_split, hf, List.append_assoc, List.cons_append, ← List.append_assoc,
    Text.splitLines_newline, ← Text.lastLine_append_of_not_mem hline]
  exact List.mem_append_left _ (Text.lastLine_mem_splitLines _)

end Lines
end DelayInjection.Injection
