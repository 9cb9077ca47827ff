import DelayInjection.Proofs.Python.Layout
import DelayInjection.Proofs.Python.Order

/-! Places in the bytes of a Python file, found by a line and a column of the text with unified line
ends. In front of such a place the file holds what the text holds in front of it. -/

namespace DelayInjection.Python

open Injection (newline openLine)
open Text.Utf8 (Bytes encode)

/-- Where the text goes on behind `front`, by its lines in the file. -/
def placeBehind (lines : List Bytes) (front : Bytes) : Nat :=
  lineStart lines (front.count newline + 1) + (openLine front).length

theorem lineStart_cons (line : Bytes) (lines : List Bytes) (n : Nat) :
    lineStart (line :: lines) (n + 2) = line.length + lineStart lines (n + 1) := rfl

theorem placeBehind_nil (lines : List Bytes) : placeBehind lines [] = 0 := by
  cases lines <;> rfl

/-- Behind the end of the first line. -/
theorem placeBehind_newline (line : Bytes) (lines : List Bytes) (front : Bytes) :
    placeBehind (line :: lines) (newline :: front) = line.length + placeBehind lines front := by
  have hopen : openLine (newline :: front) = openLine front := by
    by_cases h : newline ∈ front
    · exact @Injection.openLine_append_of_mem [newline] front h
    · rw [Injection.openLine_of_not_mem h]
      exact @Injection.openLine_append_of_not_mem [newline] front h
  rw [placeBehind, hopen, List.count_cons_self, lineStart_cons, placeBehind, Nat.add_assoc]

/-- Behind a byte more in the first line. -/
theorem placeBehind_cons {b : UInt8} (hb : b ≠ newline) (line : Bytes) (lines : List Bytes)
    (front : Bytes) :
    placeBehind ((b :: line) :: lines) (b :: front) = placeBehind (line :: lines) front + 1 := by
  have hcount : (b :: front).count newline = front.count newline := List.count_cons_of_ne hb
  by_cases h : newline ∈ front
  · obtain ⟨n, hn⟩ := Nat.exists_eq_succ_of_ne_zero (Nat.ne_of_gt (List.count_pos_iff.mpr h))
    have hopen : openLine (b :: front) = openLine front := @Injection.openLine_append_of_mem [b] front h
    rw [placeBehind, hcount, hopen, hn, lineStart_cons, placeBehind, hn, lineStart_cons,
      List.length_cons]
    omega
  · have hnot : newline ∉ b :: front := by
      rw [List.mem_cons, not_or]
      exact ⟨Ne.symm hb, h⟩
    have hzero : front.count newline = 0 := List.count_eq_zero_of_not_mem h
    rw [placeBehind, hcount, hzero, Injection.openLine_of_not_mem hnot, placeBehind, hzero,
      Injection.openLine_of_not_mem h, List.length_cons]
    rfl

/-- What ends a line becomes a newline. -/
theorem unifyNewlines_of_end {b : UInt8} {rest : Bytes} (hb : (b = 10 || b = 13) = true)
    (hne : ∀ r, b = 13 → rest = 10 :: r → False) :
    unifyNewlines (b :: rest) = newline :: unifyNewlines rest := by
  rcases Decidable.em (b = 13) with rfl | hb13
  · exact unifyNewlines.eq_3 _ fun r hr => hne r rfl hr
  · have hb10 : b = 10 := by simpa [hb13] using hb
    subst hb10
    exact unifyNewlines.eq_4 _ _ (fun _ h => absurd h (by decide)) (by decide)

/-- What the file holds in front of a place is what the text holds there. -/
theorem unifyNewlines_take_placeBehind {source front : Bytes} (h : front <+: unifyNewlines source) :
    placeBehind (byteLines source) front ≤ source.length ∧
      unifyNewlines (source.take (placeBehind (byteLines source) front)) = front := by
  have hnil : ∀ source : Bytes, placeBehind (byteLines source) [] ≤ source.length ∧
      unifyNewlines (source.take (placeBehind (byteLines source) [])) = [] := by
    intro source
    rw [placeBehind_nil]
    exact ⟨Nat.zero_le _, rfl⟩
  -- one byte of the text, or what ends a line, is taken off the file and off the place
  induction source using byteLines.induct generalizing front with
  | case1 =>
    obtain rfl := List.prefix_nil.mp h
    exact hnil []
  | case2 rest ih =>
    cases front with
    | nil => exact hnil _
    | cons b front =>
      rw [unifyNewlines, List.cons_prefix_cons] at h
      obtain ⟨rfl, hfront⟩ := h
      obtain ⟨hle, htake⟩ := ih hfront
      have hplace : placeBehind (byteLines (13 :: 10 :: rest)) (10 :: front) =
          placeBehind (byteLines rest) front + 2 := by
        rw [byteLines, Nat.add_comm]
        exact placeBehind_newline [13, 10] (byteLines rest) front
      rw [hplace]
      refine ⟨by rw [List.length_cons, List.length_cons]; omega, ?_⟩
      rw [List.take_succ_cons, List.take_succ_cons, unifyNewlines, htake]
  | case3 b rest hne hb ih =>
    cases front with
    | nil => exact hnil _
    | cons c front =>
      rw [unifyNewlines_of_end hb hne, List.cons_prefix_cons] at h
      obtain ⟨rfl, hfront⟩ := h
      obtain ⟨hle, htake⟩ := ih hfront
      have hplace : placeBehind (byteLines (b :: rest)) (newline :: front) =
          placeBehind (byteLines rest) front + 1 := by
        rw [byteLines.eq_3 _ _ hne, if_pos hb, Nat.add_comm]
        exact placeBehind_newline [b] (byteLines rest) front
      have hcut : ∀ r, b = 13 →
          rest.take (placeBehind (byteLines rest) front) = 10 :: r → False := by
        intro r hreturn hr
        obtain ⟨more, hmore⟩ := List.take_prefix (placeBehind (byteLines rest) front) rest
        rw [hr] at hmore
        exact hne _ hreturn hmore.symm
      rw [hplace]
      refine ⟨by rw [List.length_cons]; omega, ?_⟩
      rw [List.take_succ_cons, unifyNewlines_of_end hb hcut, htake]
  | case4 b rest hne hb hrest ih =>
    obtain rfl : rest = [] := by rw [← flatten_byteLines rest, hrest, List.flatten_nil]
    cases front with
    | nil => exact hnil _
    | cons c front =>
      obtain ⟨hnl, hunify⟩ := unifyNewlines_cons [] hb
      rw [hunify] at h
      obtain ⟨rfl, hfront⟩ := List.cons_prefix_cons.mp h
      obtain rfl := List.prefix_nil.mp hfront
      rw [byteLines.eq_3 _ _ hne, if_neg hb, hrest, placeBehind_cons hnl, placeBehind_nil]
      exact ⟨Nat.le_refl _, hunify⟩
  | case5 b rest hne hb line others hrest ih =>
    cases front with
    | nil => exact hnil _
    | cons c front =>
      obtain ⟨hnl, hunify⟩ := unifyNewlines_cons rest hb
      rw [hunify] at h
      obtain ⟨rfl, hfront⟩ := List.cons_prefix_cons.mp h
      obtain ⟨hle, htake⟩ := ih hfront
      rw [hrest] at hle htake
      rw [byteLines.eq_3 _ _ hne, if_neg hb, hrest, placeBehind_cons hnl]
      refine ⟨by rw [List.length_cons]; omega, ?_⟩
      rw [List.take_succ_cons, (unifyNewlines_cons _ hb).2, htake]

/-! ## The last line -/

theorem length_byteLines_le (source : Bytes) :
    (byteLines source).length ≤ (unifyNewlines source).count newline + 1 := by
  induction source using byteLines.induct with
  | case1 => exact Nat.zero_le _
  | case2 rest ih =>
    rw [byteLines, unifyNewlines, List.length_cons]
    exact Nat.succ_le_succ (ih.trans_eq List.count_cons_self.symm)
  | case3 b rest hne hb ih =>
    rw [byteLines.eq_3 _ _ hne, if_pos hb, unifyNewlines_of_end hb hne, List.length_cons]
    exact Nat.succ_le_succ (ih.trans_eq List.count_cons_self.symm)
  | case4 b rest hne hb hrest ih =>
    rw [byteLines.eq_3 _ _ hne, if_neg hb, hrest]
    exact Nat.succ_le_succ (Nat.zero_le _)
  | case5 b rest hne hb line others hrest ih =>
    obtain ⟨hnl, hunify⟩ := unifyNewlines_cons rest hb
    rw [byteLines.eq_3 _ _ hne, if_neg hb, hrest, hunify, List.count_cons_of_ne hnl, List.length_cons]
    rwa [hrest, List.length_cons] at ih

theorem mem_of_mem_unifyNewlines {source : Bytes} {b : UInt8} (h : b ∈ unifyNewlines source)
    (hb : b ≠ newline) : b ∈ source := by
  induction source using unifyNewlines.induct with
  | case1 => exact h
  | case2 rest ih =>
    rw [unifyNewlines, List.mem_cons] at h
    exact List.mem_cons_of_mem _ (List.mem_cons_of_mem _ (ih (h.resolve_left hb)))
  | case3 rest hne ih =>
    rw [unifyNewlines.eq_3 _ hne, List.mem_cons] at h
    exact List.mem_cons_of_mem _ (ih (h.resolve_left hb))
  | case4 c rest hne hc ih =>
    rw [unifyNewlines.eq_4 _ _ hne hc, List.mem_cons] at h
    exact List.mem_cons.mpr (h.imp_right ih)

theorem newline_mem_unifyNewlines {source : Bytes} (h : newline ∈ source) :
    newline ∈ unifyNewlines source := by
  induction source using unifyNewlines.induct with
  | case1 => exact h
  | case2 rest ih => exact List.mem_cons_self
  | case3 rest hne ih =>
    rw [unifyNewlines.eq_3 _ hne]
    exact List.mem_cons_self
  | case4 c rest hne hc ih =>
    rw [unifyNewlines.eq_4 _ _ hne hc]
    exact List.mem_cons.mpr ((List.mem_cons.mp h).imp_right ih)

/-- The place behind a part of the text lies in the file. What the part holds stands in front of it, line
ends apart. -/
theorem of_prefix_endLine {source front : Bytes} (h : front <+: endLine (unifyNewlines source)) :
    placeBehind (byteLines source) front ≤ source.length ∧
      (∀ b ∈ front, b ≠ newline → b ∈ source.take (placeBehind (byteLines source) front)) ∧
      (newline ∉ front → newline ∉ source.take (placeBehind (byteLines source) front)) := by
  by_cases hfront : front <+: unifyNewlines source
  · obtain ⟨hle, htake⟩ := unifyNewlines_take_placeBehind hfront
    refine ⟨hle, fun b hb hne => mem_of_mem_unifyNewlines ?_ hne, fun hnot hmem => hnot ?_⟩
    · rwa [htake]
    · rw [← htake]
      exact newline_mem_unifyNewlines hmem
  · -- behind the newline that the last line gets
    have hend : front = unifyNewlines source ++ [newline] := by
      unfold endLine at h
      split at h
      · exact (List.prefix_concat_iff.mp h).resolve_right hfront
      · exact absurd h hfront
    have hplace : placeBehind (byteLines source) front = source.length := by
      have hlast : openLine front = [] := by
        rw [hend, Injection.openLine_append_of_mem (List.mem_singleton_self _)]
        rfl
      have hall := length_byteLines_le source
      rw [placeBehind, hlast, hend, List.count_append, List.count_singleton_self, lineStart_byteLines,
        Nat.add_sub_cancel, List.take_of_length_le hall, flatten_byteLines, List.length_nil, Nat.add_zero]
    rw [hplace, List.take_length]
    refine ⟨Nat.le_refl _, fun b hb hne => ?_, fun hnot => ?_⟩
    · rw [hend, List.mem_append, List.mem_singleton] at hb
      exact mem_of_mem_unifyNewlines (hb.resolve_right hne) hne
    · exact absurd (hend ▸ List.mem_append_right _ (List.mem_singleton_self _)) hnot

/-! ## Places of tokens -/

theorem openLine_encode (front : List Char) : openLine (encode front) = encode (Text.lastLine front) := by
  have hline := Injection.linePrefix_encode front []
  rwa [List.append_nil, Injection.linePrefix_eq, List.take_length] at hline

theorem placeBehind_of_names {front : List Char} {line column : Nat} (h : Names front line column)
    (lines : List Bytes) : lineStart lines line + column = placeBehind lines (encode front) := by
  rw [h.1, h.2, placeBehind, count_encode, openLine_encode]

/-- The start of the last line is the place behind the lines above. -/
theorem placeBehind_above {above line : List Char} (hline : '\n' ∉ line) (lines : List Bytes) :
    placeBehind lines (encode (above ++ ['\n'])) =
      lineStart lines ((above ++ '\n' :: line).count '\n' + 1) := by
  have hcount : (above ++ ['\n']).count '\n' = (above ++ '\n' :: line).count '\n' := by
    simp [List.count_eq_zero_of_not_mem hline]
  have hlast : Text.lastLine (above ++ ['\n']) = [] := by
    rw [Text.lastLine_append_of_mem (List.mem_singleton_self _)]
    rfl
  rw [placeBehind, count_encode, hcount, openLine_encode, hlast]
  rfl

/-! ## Places between lines -/

theorem eq_or_mem_dropLast {line first : Bytes} {lines : List Bytes}
    (h : line ∈ (first :: lines).dropLast) : line = first ∨ line ∈ lines.dropLast := by
  cases lines with
  | nil => cases h
  | cons next others => exact List.mem_cons.mp h

/-- Every line but the last one has its end. -/
theorem exists_end {source line : Bytes} (h : line ∈ (byteLines source).dropLast) :
    ∃ b, line.getLast? = some b ∧ EndsLine b := by
  induction source using byteLines.induct generalizing line with
  | case1 => cases h
  | case2 rest ih =>
    rcases eq_or_mem_dropLast h with rfl | h
    · exact ⟨10, rfl, .inl rfl⟩
    · exact ih h
  | case3 b rest hne hb ih =>
    rw [byteLines.eq_3 _ _ hne, if_pos hb] at h
    rcases eq_or_mem_dropLast h with rfl | h
    · exact ⟨b, rfl, by simpa [EndsLine] using hb⟩
    · exact ih h
  | case4 b rest hne hb hrest ih =>
    rw [byteLines.eq_3 _ _ hne, if_neg hb, hrest] at h
    cases h
  | case5 b rest hne hb first others hrest ih =>
    rw [hrest] at ih
    rw [byteLines.eq_3 _ _ hne, if_neg hb, hrest] at h
    cases others with
    | nil => cases h
    | cons next others =>
      rcases List.mem_cons.mp h with rfl | h
      · obtain ⟨c, hlast, hends⟩ := ih List.mem_cons_self
        exact ⟨c, by rw [List.getLast?_cons, hlast]; rfl, hends⟩
      · exact ih (List.mem_cons_of_mem _ h)

theorem toNat_lt_of_endsLine {b : UInt8} (h : EndsLine b) : b.toNat < 128 := by
  rcases h with rfl | rfl <;> decide

/-- A line starts with a character. -/
theorem boundary_lineStart (text : List Char) (n : Nat) :
    Text.Utf8.Boundary text (lineStart (byteLines (encode text)) n) := by
  rw [lineStart_byteLines]
  have hall := flatten_byteLines (encode text)
  have hends := @exists_end (encode text)
  generalize byteLines (encode text) = lines at hall hends
  cases n - 1 with
  | zero => exact Text.Utf8.boundary_zero text
  | succ k =>
    by_cases hk : k + 1 < lines.length
    · have hlast : lines[k] ∈ lines.dropLast := by
        rw [List.dropLast_eq_take, List.mem_take_iff_getElem]
        exact ⟨k, by omega, rfl⟩
      obtain ⟨b, hb, hend⟩ := hends hlast
      obtain ⟨line, hline⟩ := List.getLast?_eq_some_iff.mp hb
      have hflat : (lines.take (k + 1)).flatten = (lines.take k).flatten ++ line ++ [b] := by
        rw [← List.take_append_getElem (by omega), List.flatten_append, hline]
        simp
      have hwhole : encode text =
          (lines.take k).flatten ++ line ++ ([b] ++ (lines.drop (k + 1)).flatten) := by
        rw [← List.append_assoc, ← hflat, ← List.flatten_append, List.take_append_drop, hall]
      have hget : (encode text)[((lines.take k).flatten ++ line).length]? = some b := by
        rw [hwhole, List.getElem?_append_right (Nat.le_refl _), Nat.sub_self]
        rfl
      have hnext := Text.Utf8.boundary_of_ascii hget (toNat_lt_of_endsLine hend)
      rwa [hflat, List.length_append]
    · rw [List.take_of_length_le (Nat.le_of_not_lt hk), hall]
      exact ⟨text, [], (List.append_nil text).symm, rfl⟩

/-- What ends a line starts with a character. -/
theorem boundary_stripped {text : List Char} {start : Nat} (h : Text.Utf8.Boundary text start) :
    Text.Utf8.Boundary text
      (((encode text).take start).reverse.dropWhile fun b => b == 10 || b == 13).length := by
  have hsplit := List.takeWhile_append_dropWhile
    (p := fun b : UInt8 => b == 10 || b == 13) (l := ((encode text).take start).reverse)
  have hends : ∀ b ∈ ((encode text).take start).reverse.takeWhile fun b => b == 10 || b == 13,
      EndsLine b := by
    intro b hb
    simpa [EndsLine] using List.all_eq_true.mp List.all_takeWhile b hb
  generalize ((encode text).take start).reverse.takeWhile (fun b => b == 10 || b == 13) = ending
    at hsplit hends
  generalize ((encode text).take start).reverse.dropWhile (fun b => b == 10 || b == 13) = head
    at hsplit ⊢
  -- the ending is read from behind, so its last byte is the first one behind the head
  rcases List.eq_nil_or_concat ending with rfl | ⟨others, b, rfl⟩
  · have hlength : head.length = start := by
      rw [List.nil_append] at hsplit
      rw [hsplit, List.length_reverse, List.length_take, Nat.min_eq_left h.le_length]
    rwa [hlength]
  · have htake : head.reverse ++ b :: others.reverse = (encode text).take start := by
      rw [← List.reverse_reverse ((encode text).take start), ← hsplit]
      simp
    have hget : (encode text)[head.length]? = some b := by
      rw [← List.take_append_drop start (encode text), ← htake]
      simp
    exact Text.Utf8.boundary_before_ascii hget (toNat_lt_of_endsLine (hends b (by simp)))

/-- So does what follows the head of a module. -/
theorem boundary_importAnchor (text : List Char) (statements : List Statement) :
    Text.Utf8.Boundary text (importAnchor (encode text) (byteLines (encode text)) statements) :=
  boundary_stripped (boundary_lineStart text _)

end DelayInjection.Python
