import DelayInjection.Injection
import DelayInjection.Proofs.Text.Lines
import DelayInjection.Proofs.Text.Utf8

/-! The bytes of a line around an offset, read as characters: what stands in front of a statement, what
of it is its indent, and what follows the imports. -/

namespace DelayInjection.Injection

open Text (lastLine EndsLine Inked isAsciiBlank)
open Text.Utf8 (Bytes Agrees encode)

/-! ## Bytes and characters -/

theorem ofNat_toNat_eq_iff {c : Char} (hc : c.toNat < 128) {n : Nat} (hn : n < 128) :
    UInt8.ofNat c.toNat = UInt8.ofNat n ↔ c.toNat = n := by
  rw [← UInt8.toNat_inj, Text.Utf8.toNat_ofNat_small (by omega),
    Text.Utf8.toNat_ofNat_small (by omega)]

theorem agrees_ne {d : Char} (hd : d.toNat < 128) :
    Agrees (· != UInt8.ofNat d.toNat) (· != d) where
  ascii c hc := by
    have h := ofNat_toNat_eq_iff hc hd
    rw [Bool.eq_iff_iff, bne_iff_ne, bne_iff_ne, ne_eq, ne_eq, ← Char.toNat_inj]
    exact (not_congr h).symm
  high c b hc hb := by
    have h1 : c ≠ d := fun h => absurd (h ▸ hc) (Nat.not_le_of_lt hd)
    have h2 : b ≠ UInt8.ofNat d.toNat := by
      rintro rfl
      rw [Text.Utf8.toNat_ofNat_small (by omega)] at hb
      exact absurd hb (Nat.not_le_of_lt hd)
    rw [bne_iff_ne.mpr h1, bne_iff_ne.mpr h2]

theorem agrees_newline : Agrees (· != newline) (· != '\n') :=
  @agrees_ne '\n' (by decide)

theorem mem_encode_iff {d : Char} (hd : d.toNat < 128) {t : List Char} :
    UInt8.ofNat d.toNat ∈ encode t ↔ d ∈ t := by
  have hall := (agrees_ne hd).all_encode t
  rw [Bool.eq_iff_iff, List.all_eq_true, List.all_eq_true] at hall
  simp only [bne_iff_ne, List.forall_mem_ne'] at hall
  exact Decidable.not_iff_not.mp hall

theorem agrees_blank : Agrees Text.isBlankByte isAsciiBlank where
  ascii c hc := by
    have h := ofNat_toNat_eq_iff hc (show 32 < 128 by decide)
    have hn := Text.Utf8.toNat_ofNat_small (show c.toNat < 256 by omega)
    rw [Bool.eq_iff_iff]
    simp only [isAsciiBlank, Text.isBlankByte, UInt8.le_iff_toNat_le, hn, Bool.or_eq_true,
      beq_iff_eq, Bool.and_eq_true, decide_eq_true_eq]
    exact or_congr h.symm Iff.rfl
  high c b hc hb := by
    have h1 : isAsciiBlank c = false := by simp [isAsciiBlank]; omega
    have h2 : Text.isBlankByte b = false := by
      simp [Text.isBlankByte, UInt8.le_iff_toNat_le, ← UInt8.toNat_inj]
      omega
    rw [h1, h2]

/-- Space, tab, form feed and vertical tab. -/
def isIndentChar (c : Char) : Bool := c.toNat == 32 || c.toNat == 9 || c.toNat == 12 || c.toNat == 11

theorem agrees_indent : Agrees isIndentByte isIndentChar where
  ascii c hc := by
    have h := fun n (hn : n < 128) => (ofNat_toNat_eq_iff hc hn).symm
    rw [Bool.eq_iff_iff]
    simp only [isIndentChar, isIndentByte, Bool.or_eq_true, beq_iff_eq]
    exact or_congr (or_congr (or_congr (h 32 (by decide)) (h 9 (by decide))) (h 12 (by decide)))
      (h 11 (by decide))
  high c b hc hb := by
    have h1 : isIndentChar c = false := by simp [isIndentChar]; omega
    have h2 : isIndentByte b = false := by
      simp [isIndentByte, ← UInt8.toNat_inj]
      omega
    rw [h1, h2]

theorem isAsciiBlank_of_isIndentChar {c : Char} (h : isIndentChar c = true) :
    isAsciiBlank c = true := by
  simp only [isIndentChar, isAsciiBlank, Bool.or_eq_true, Bool.and_eq_true, beq_iff_eq,
    decide_eq_true_eq] at *
  omega

theorem isBlank_of_isIndentChar {c : Char} (h : isIndentChar c = true) :
    Text.isBlank c = true := by
  simp only [isIndentChar, Text.isBlank, Bool.or_eq_true, Bool.and_eq_true, beq_iff_eq,
    decide_eq_true_eq] at *
  omega

theorem not_inked_of_indent {t : List Char} (h : ∀ c ∈ t, isIndentChar c = true) : ¬Inked t := by
  rintro ⟨c, hc, hb⟩
  rw [isAsciiBlank_of_isIndentChar (h c hc)] at hb
  cases hb

theorem isIndentChar_of_mem_takeWhile {t : List Char} {c : Char}
    (h : c ∈ t.takeWhile isIndentChar) : isIndentChar c = true :=
  (List.all_eq_true.mp List.all_takeWhile) c h

/-! ## The line that is open -/

/-- What stands behind the last newline. -/
def openLine (bytes : Bytes) : Bytes := (bytes.reverse.takeWhile (· != newline)).reverse

theorem linePrefix_eq (source : Bytes) (offset : Nat) :
    linePrefix source offset = openLine (source.take offset) := rfl

section OpenLine

variable {front bytes : Bytes}

theorem openLine_append_of_not_mem (h : newline ∉ bytes) :
    openLine (front ++ bytes) = openLine front ++ bytes := by
  have hall : ∀ b ∈ bytes.reverse, (b != newline) = true := by
    intro b hb
    rw [bne_iff_ne]
    rintro rfl
    exact h (List.mem_reverse.mp hb)
  rw [openLine, List.reverse_append, List.takeWhile_append_of_pos hall, List.reverse_append,
    List.reverse_reverse, openLine]

theorem openLine_of_not_mem (h : newline ∉ bytes) : openLine bytes = bytes :=
  @openLine_append_of_not_mem [] bytes h

theorem openLine_append_of_mem (h : newline ∈ bytes) : openLine (front ++ bytes) = openLine bytes := by
  have hshort : (bytes.reverse.takeWhile (· != newline)).length ≠ bytes.reverse.length := by
    intro hlength
    rw [← List.mem_reverse, ← (List.takeWhile_prefix _).eq_of_length hlength] at h
    simpa using List.all_eq_true.mp List.all_takeWhile _ h
  rw [openLine, List.reverse_append, List.takeWhile_append, if_neg hshort, openLine]

theorem newline_not_mem_openLine (bytes : Bytes) : newline ∉ openLine bytes := by
  intro h
  rw [openLine, List.mem_reverse] at h
  simpa using List.all_eq_true.mp List.all_takeWhile _ h

theorem openLine_of_ends (h : bytes = [] ∨ ∃ s, bytes = s ++ [newline]) : openLine bytes = [] := by
  rcases h with rfl | ⟨s, rfl⟩
  · rfl
  · exact @openLine_append_of_mem s [newline] (List.mem_singleton_self newline)

/-- Whole lines stand in front of the open one. -/
theorem exists_eq_append_openLine (bytes : Bytes) :
    ∃ above, bytes = above ++ openLine bytes ∧ (above = [] ∨ ∃ s, above = s ++ [newline]) := by
  refine ⟨(bytes.reverse.dropWhile (· != newline)).reverse, ?_, ?_⟩
  · rw [openLine, ← List.reverse_append, List.takeWhile_append_dropWhile, List.reverse_reverse]
  · cases hd : bytes.reverse.dropWhile (· != newline) with
    | nil => exact .inl rfl
    | cons b r =>
      have hhead := List.head?_dropWhile_not (· != newline) bytes.reverse
      rw [hd] at hhead
      obtain rfl : b = newline := by simpa using hhead
      exact .inr ⟨r.reverse, List.reverse_cons⟩

end OpenLine

/-! ## In front of an offset -/

section Before

variable (before behind : List Char)

theorem linePrefix_encode :
    linePrefix (encode (before ++ behind)) (encode before).length = encode (lastLine before) := by
  obtain ⟨above, habove, hends⟩ := Text.exists_eq_append_lastLine before
  have hline : newline ∉ encode (lastLine before) := fun hmem =>
    Text.newline_not_mem_lastLine before ((mem_encode_iff (by decide)).mp hmem)
  have habove' : openLine (encode above) = [] := by
    refine openLine_of_ends (hends.imp (fun h => by rw [h, Text.Utf8.encode_nil]) fun ⟨s, hs⟩ => ?_)
    exact ⟨encode s, by rw [hs, Text.Utf8.encode_append]; rfl⟩
  rw [linePrefix_eq, Text.Utf8.encode_append, List.take_left]
  conv in encode before => rw [habove]
  rw [Text.Utf8.encode_append, openLine_append_of_not_mem hline, habove', List.nil_append]

theorem isInline_encode :
    isInline (encode (before ++ behind)) (encode before).length = true ↔ Inked (lastLine before) := by
  rw [isInline, linePrefix_encode, agrees_blank.all_not.any_encode, Text.inked_iff_any]

theorem indentText_encode {t : List Char} (h : ∀ c ∈ t, isIndentChar c = true) :
    indentText (encode t) = t := by
  induction t with
  | nil => rfl
  | cons c t ih =>
    have hc : c.toNat < 128 := by
      have := h c List.mem_cons_self
      simp only [isIndentChar, Bool.or_eq_true, beq_iff_eq] at this
      omega
    have hn := Text.Utf8.toNat_ofNat_small (show c.toNat < 256 by omega)
    have hrest := ih fun d hd => h d (List.mem_cons_of_mem _ hd)
    rw [Text.Utf8.encode_cons, Text.Utf8.encodeChar_ascii hc, List.singleton_append]
    rw [indentText, List.map_cons, hn, Char.ofNat_toNat]
    exact congrArg (c :: ·) hrest

theorem indent_encode :
    indentText (indent (encode (before ++ behind)) (encode before).length) =
      (lastLine before).takeWhile isIndentChar := by
  rw [indent, linePrefix_encode, agrees_indent.takeWhile_encode]
  exact indentText_encode fun c hc => isIndentChar_of_mem_takeWhile hc

/-- If all of the bytes in front are indent, the indent is what stands in front. -/
theorem lastLine_eq_indent (h : (linePrefix (encode (before ++ behind))
      (encode before).length).all isIndentByte = true) :
    lastLine before = indentText (indent (encode (before ++ behind)) (encode before).length) ∧
      ∀ c ∈ lastLine before, isIndentChar c = true := by
  rw [linePrefix_encode, agrees_indent.all_encode] at h
  have hall := List.all_eq_true.mp h
  refine ⟨?_, hall⟩
  rw [indent_encode]
  have happend := @List.takeWhile_append_of_pos _ isIndentChar (lastLine before) [] hall
  simpa using happend.symm

end Before

/-! ## Places between characters -/

/-- The byte in front of an offset ends a line, or belongs to the line of the offset. -/
theorem getElem?_before {source : Bytes} {offset : Nat} (hpos : 0 < offset)
    (hlen : offset ≤ source.length) : ∃ b, source[offset - 1]? = some b ∧
      (b = newline ∨ b ∈ linePrefix source offset) := by
  have hlt : offset - 1 < source.length := by omega
  refine ⟨source[offset - 1], List.getElem?_eq_getElem hlt, ?_⟩
  have htake : source.take offset = source.take (offset - 1) ++ [source[offset - 1]] := by
    rw [List.take_append_getElem hlt, Nat.sub_add_cancel hpos]
  by_cases hb : source[offset - 1] = newline
  · exact .inl hb
  · refine .inr ?_
    rw [linePrefix, htake, List.reverse_append, List.reverse_singleton, List.singleton_append,
      List.takeWhile_cons_of_pos (p := (· != newline)) (bne_iff_ne.mpr hb)]
    simp

/-- Behind nothing but ASCII on its line a character starts. -/
theorem boundary_of_ascii_line {t : List Char} {offset : Nat} (hlen : offset ≤ (encode t).length)
    (h : ∀ b ∈ linePrefix (encode t) offset, b.toNat < 128) : Text.Utf8.Boundary t offset := by
  rcases Nat.eq_zero_or_pos offset with rfl | hpos
  · exact Text.Utf8.boundary_zero t
  · obtain ⟨b, hb, hor⟩ := getElem?_before hpos hlen
    have hsmall : b.toNat < 128 := by
      rcases hor with rfl | hmem
      · decide
      · exact h b hmem
    have hnext := Text.Utf8.boundary_of_ascii hb hsmall
    rwa [Nat.sub_add_cancel hpos] at hnext

theorem boundary_of_indent {t : List Char} {offset : Nat} (hlen : offset ≤ (encode t).length)
    (h : (linePrefix (encode t) offset).all isIndentByte = true) : Text.Utf8.Boundary t offset := by
  refine boundary_of_ascii_line hlen fun b hmem => ?_
  have hindent := List.all_eq_true.mp h b hmem
  simp only [isIndentByte, Bool.or_eq_true, beq_iff_eq] at hindent
  rcases hindent with ((rfl | rfl) | rfl) | rfl <;> decide

/-- So a character starts where no code stands in front. -/
theorem boundary_of_not_inline {t : List Char} {offset : Nat} (hlen : offset ≤ (encode t).length)
    (h : isInline (encode t) offset = false) : Text.Utf8.Boundary t offset := by
  refine boundary_of_ascii_line hlen fun b hmem => ?_
  have hblank : Text.isBlankByte b = true := by
    simpa using List.any_eq_false.mp h b hmem
  simp only [Text.isBlankByte, Bool.or_eq_true, Bool.and_eq_true, beq_iff_eq, decide_eq_true_eq,
    UInt8.le_iff_toNat_le] at hblank
  rcases hblank with rfl | ⟨-, hle⟩
  · decide
  · exact Nat.lt_of_le_of_lt hle (by decide)

/-- Behind a newline a line starts. -/
theorem lastLine_eq_nil_of_newline {before behind : List Char} {offset : Nat}
    (hlen : (encode before).length = offset + 1)
    (h : (encode (before ++ behind))[offset]? = some newline) : lastLine before = [] := by
  have hprefix : linePrefix (encode (before ++ behind)) (encode before).length = [] := by
    have hlt : offset < (encode (before ++ behind)).length := by
      rw [Text.Utf8.encode_append, List.length_append]
      omega
    have hget : (encode (before ++ behind))[offset] = newline := by
      rw [List.getElem?_eq_getElem hlt] at h
      exact Option.some.inj h
    rw [linePrefix, hlen, ← List.take_append_getElem hlt, hget, List.reverse_append,
      List.reverse_singleton, List.singleton_append, List.takeWhile_cons_of_neg (by decide),
      List.reverse_nil]
  rw [linePrefix_encode] at hprefix
  cases hl : lastLine before with
  | nil => rfl
  | cons c t =>
    rw [hl, Text.Utf8.encode_cons, List.append_eq_nil_iff] at hprefix
    exact absurd hprefix.1 (Text.Utf8.encodeChar_ne_nil c)

/-! ## Behind an offset -/

/-- What stands up to the first newline. -/
def firstLine (t : List Char) : List Char := t.takeWhile (· != '\n')

theorem lineRest_encode (before behind : List Char) :
    lineRest (encode (before ++ behind)) (encode before).length =
      (encode (firstLine behind), decide (firstLine behind ≠ behind)) := by
  have hdrop : (encode (before ++ behind)).drop (encode before).length = encode behind := by
    rw [Text.Utf8.encode_append, List.drop_left]
  have htake := agrees_newline.takeWhile_encode behind
  simp only [lineRest, hdrop]
  rw [htake, Prod.mk.injEq]
  refine ⟨rfl, ?_⟩
  have hsplit : behind = firstLine behind ++ behind.dropWhile (· != '\n') :=
    List.takeWhile_append_dropWhile.symm
  rw [decide_eq_decide]
  constructor
  · intro hlt heq
    rw [show List.takeWhile (fun x => x != '\n') behind = behind from heq] at hlt
    exact Nat.lt_irrefl _ hlt
  · intro hne
    have hrest : behind.dropWhile (· != '\n') ≠ [] := by
      intro h
      rw [h, List.append_nil] at hsplit
      exact hne hsplit.symm
    obtain ⟨c, r, hc⟩ := List.exists_cons_of_ne_nil hrest
    have hlen := congrArg (fun t => (encode t).length) hsplit
    have hpos := List.length_pos_iff.mpr (Text.Utf8.encodeChar_ne_nil c)
    simp only [hc, Text.Utf8.encode_append, Text.Utf8.encode_cons, List.length_append] at hlen
    change (encode (firstLine behind)).length < _
    omega

end DelayInjection.Injection
