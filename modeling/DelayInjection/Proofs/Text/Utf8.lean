import DelayInjection.Text.Utf8

/-! What is written as UTF-8 reads back, and the places between characters: a byte offset splits a
text if it is zero or stands behind a byte of ASCII. -/

namespace DelayInjection.Text.Utf8

@[simp] theorem encode_nil : encode [] = [] := rfl

@[simp] theorem encode_cons (c : Char) (t : List Char) : encode (c :: t) = encodeChar c ++ encode t :=
  rfl

@[simp] theorem encode_append (s t : List Char) : encode (s ++ t) = encode s ++ encode t := by
  simp [encode]

theorem encodeChar_ne_nil (c : Char) : encodeChar c ≠ [] := String.utf8EncodeChar_ne_nil

/-! ## Reading back -/

theorem isSecond_iff (a b : UInt8) : isSecond a b = true ↔
    (128 ≤ b.toNat ∧ b.toNat < 192) ∧ ¬(a.toNat = 0xE0 ∧ b.toNat < 0xA0) ∧
      ¬(a.toNat = 0xED ∧ 0xA0 ≤ b.toNat) ∧ ¬(a.toNat = 0xF0 ∧ b.toNat < 0x90) ∧
      ¬(a.toNat = 0xF4 ∧ 0x90 ≤ b.toNat) := by
  simp [isSecond, isContinuation, UInt8.le_iff_toNat_le, UInt8.lt_iff_toNat_lt, ← UInt8.toNat_inj]
  omega

theorem isContinuation_iff (b : UInt8) :
    isContinuation b = true ↔ 128 ≤ b.toNat ∧ b.toNat < 192 := by
  simp [isContinuation, UInt8.le_iff_toNat_le, UInt8.lt_iff_toNat_lt]

theorem toNat_valid (c : Char) : c.toNat < 0xD800 ∨ (0xDFFF < c.toNat ∧ c.toNat < 0x110000) := c.valid

theorem decodeFrom_one (position : Nat) (a : UInt8) (rest : Bytes) (h : a.toNat < 128) :
    decodeFrom position (a :: rest) =
      (Char.ofNat a.toNat :: ·) <$> decodeFrom (position + 1) rest := by
  rw [decodeFrom.eq_def]
  exact if_pos (UInt8.lt_iff_toNat_lt.mpr h)

theorem decodeFrom_two (position : Nat) (a b : UInt8) (rest : Bytes)
    (ha : 0xC2 ≤ a.toNat ∧ a.toNat < 0xE0) (hb : isSecond a b = true) :
    decodeFrom position (a :: b :: rest) =
      (Char.ofNat (a.toNat % 32 * 64 + tail6 b) :: ·) <$> decodeFrom (position + 2) rest := by
  have h1 : ¬a < 0x80 := by simp [UInt8.lt_iff_toNat_lt]; omega
  have h2 : ¬a < 0xC2 := by simp [UInt8.lt_iff_toNat_lt]; omega
  have h3 : a < 0xE0 := by simp [UInt8.lt_iff_toNat_lt]; omega
  rw [decodeFrom.eq_def]
  simp only [h1, h2, h3, if_true, hb, Bool.not_true, Bool.false_eq_true, if_false]

theorem decodeFrom_three (position : Nat) (a b c : UInt8) (rest : Bytes)
    (ha : 0xE0 ≤ a.toNat ∧ a.toNat < 0xF0) (hb : isSecond a b = true)
    (hc : isContinuation c = true) :
    decodeFrom position (a :: b :: c :: rest) =
      (Char.ofNat ((a.toNat % 16 * 64 + tail6 b) * 64 + tail6 c) :: ·) <$>
        decodeFrom (position + 3) rest := by
  have h1 : ¬a < 0x80 := by simp [UInt8.lt_iff_toNat_lt]; omega
  have h2 : ¬a < 0xC2 := by simp [UInt8.lt_iff_toNat_lt]; omega
  have h3 : ¬a < 0xE0 := by simp [UInt8.lt_iff_toNat_lt]; omega
  have h4 : a < 0xF0 := by simp [UInt8.lt_iff_toNat_lt]; omega
  rw [decodeFrom.eq_def]
  simp only [h1, h2, h3, h4, if_true, hb, hc, Bool.not_true, Bool.false_eq_true, if_false]

theorem decodeFrom_four (position : Nat) (a b c d : UInt8) (rest : Bytes)
    (ha : 0xF0 ≤ a.toNat ∧ a.toNat < 0xF5) (hb : isSecond a b = true)
    (hc : isContinuation c = true) (hd : isContinuation d = true) :
    decodeFrom position (a :: b :: c :: d :: rest) =
      (Char.ofNat (((a.toNat % 8 * 64 + tail6 b) * 64 + tail6 c) * 64 + tail6 d) :: ·) <$>
        decodeFrom (position + 4) rest := by
  have h1 : ¬a < 0x80 := by simp [UInt8.lt_iff_toNat_lt]; omega
  have h2 : ¬a < 0xC2 := by simp [UInt8.lt_iff_toNat_lt]; omega
  have h3 : ¬a < 0xE0 := by simp [UInt8.lt_iff_toNat_lt]; omega
  have h4 : ¬a < 0xF0 := by simp [UInt8.lt_iff_toNat_lt]; omega
  have h5 : a < 0xF5 := by simp [UInt8.lt_iff_toNat_lt]; omega
  rw [decodeFrom.eq_def]
  simp only [h1, h2, h3, h4, h5, if_true, hb, hc, hd, Bool.not_true, Bool.false_eq_true, if_false]

theorem toNat_ofNat_small {n : Nat} (h : n < 256) : (UInt8.ofNat n).toNat = n := by
  rw [UInt8.toNat_ofNat']
  exact Nat.mod_eq_of_lt h

/-- One character is read back, and the reading goes on behind it. -/
theorem decodeFrom_encodeChar (position : Nat) (c : Char) (rest : Bytes) :
    decodeFrom position (encodeChar c ++ rest) =
      (c :: ·) <$> decodeFrom (position + (encodeChar c).length) rest := by
  have hv := toNat_valid c
  have hc : Char.ofNat c.toNat = c := Char.ofNat_toNat c
  have hn : c.val.toNat = c.toNat := rfl
  unfold encodeChar String.utf8EncodeChar
  simp only [hn]
  generalize hm : c.toNat = n at hv hc
  split
  case isTrue h =>
    have ha := toNat_ofNat_small (n := n) (by omega)
    rw [List.singleton_append, decodeFrom_one _ _ _ (by omega), ha, hc]
    rfl
  case isFalse h1 =>
    split
    case isTrue h2 =>
      have ha := toNat_ofNat_small (n := n / 64 % 0x20 + 0xc0) (by omega)
      have hb := toNat_ofNat_small (n := n % 0x40 + 0x80) (by omega)
      simp only [List.cons_append, List.nil_append]
      rw [decodeFrom_two _ _ _ _ (by omega) (by rw [isSecond_iff]; omega)]
      simp only [tail6, ha, hb]
      rw [show (n / 64 % 0x20 + 0xc0) % 32 * 64 + (n % 0x40 + 0x80) % 64 = n by omega, hc]
      rfl
    case isFalse h2 =>
      split
      case isTrue h3 =>
        have ha := toNat_ofNat_small (n := n / 4096 % 0x10 + 0xe0) (by omega)
        have hb := toNat_ofNat_small (n := n / 64 % 0x40 + 0x80) (by omega)
        have hd := toNat_ofNat_small (n := n % 0x40 + 0x80) (by omega)
        simp only [List.cons_append, List.nil_append]
        rw [decodeFrom_three _ _ _ _ _ (by omega) (by rw [isSecond_iff]; omega)
          (by rw [isContinuation_iff]; omega)]
        simp only [tail6, ha, hb, hd]
        rw [show ((n / 4096 % 0x10 + 0xe0) % 16 * 64 + (n / 64 % 0x40 + 0x80) % 64) * 64 +
          (n % 0x40 + 0x80) % 64 = n by omega, hc]
        rfl
      case isFalse h3 =>
        have ha := toNat_ofNat_small (n := n / 262144 % 0x08 + 0xf0) (by omega)
        have hb := toNat_ofNat_small (n := n / 4096 % 0x40 + 0x80) (by omega)
        have hd := toNat_ofNat_small (n := n / 64 % 0x40 + 0x80) (by omega)
        have he := toNat_ofNat_small (n := n % 0x40 + 0x80) (by omega)
        simp only [List.cons_append, List.nil_append]
        rw [decodeFrom_four _ _ _ _ _ _ (by omega) (by rw [isSecond_iff]; omega)
          (by rw [isContinuation_iff]; omega) (by rw [isContinuation_iff]; omega)]
        simp only [tail6, ha, hb, hd, he]
        rw [show (((n / 262144 % 0x08 + 0xf0) % 8 * 64 + (n / 4096 % 0x40 + 0x80) % 64) * 64 +
          (n / 64 % 0x40 + 0x80) % 64) * 64 + (n % 0x40 + 0x80) % 64 = n by omega, hc]
        rfl

theorem decodeFrom_encode (position : Nat) (t : List Char) :
    decodeFrom position (encode t) = .ok t := by
  induction t generalizing position with
  | nil => rfl
  | cons c t ih =>
    rw [encode_cons, decodeFrom_encodeChar, ih]
    rfl

@[simp] theorem decode_encode (t : List Char) : decode (encode t) = .ok t := decodeFrom_encode 0 t

theorem encode_injective {s t : List Char} (h : encode s = encode t) : s = t := by
  have hs := decode_encode s
  rw [h, decode_encode] at hs
  exact (Except.ok.inj hs).symm

/-! ## Writing back -/

theorem toNat_ofNat_valid {n : Nat} (h : n < 0xD800 ∨ (0xDFFF < n ∧ n < 0x110000)) :
    (Char.ofNat n).val.toNat = n := by
  have hv : n.isValidChar := h
  rw [Char.ofNat, dif_pos hv]
  rfl

theorem encodeChar_one {a : UInt8} (h : a.toNat < 128) :
    encodeChar (Char.ofNat a.toNat) = [a] := by
  unfold encodeChar String.utf8EncodeChar
  simp only [toNat_ofNat_valid (n := a.toNat) (by omega)]
  rw [if_pos (by omega)]
  simp

theorem encodeChar_two {a b : UInt8} (ha : 0xC2 ≤ a.toNat ∧ a.toNat < 0xE0)
    (hb : isSecond a b = true) : encodeChar (Char.ofNat (a.toNat % 32 * 64 + tail6 b)) = [a, b] := by
  rw [isSecond_iff] at hb
  unfold encodeChar String.utf8EncodeChar tail6
  simp only [toNat_ofNat_valid (n := a.toNat % 32 * 64 + b.toNat % 64) (by omega)]
  rw [if_neg (by omega), if_pos (by omega)]
  simp only [List.cons.injEq, ← UInt8.toNat_inj, and_true]
  rw [toNat_ofNat_small (by omega), toNat_ofNat_small (by omega)]
  omega

theorem encodeChar_three {a b c : UInt8} (ha : 0xE0 ≤ a.toNat ∧ a.toNat < 0xF0)
    (hb : isSecond a b = true) (hc : isContinuation c = true) :
    encodeChar (Char.ofNat ((a.toNat % 16 * 64 + tail6 b) * 64 + tail6 c)) = [a, b, c] := by
  rw [isSecond_iff] at hb
  rw [isContinuation_iff] at hc
  unfold encodeChar String.utf8EncodeChar tail6
  simp only [toNat_ofNat_valid (n := (a.toNat % 16 * 64 + b.toNat % 64) * 64 + c.toNat % 64)
    (by omega)]
  rw [if_neg (by omega), if_neg (by omega), if_pos (by omega)]
  simp only [List.cons.injEq, ← UInt8.toNat_inj, and_true]
  rw [toNat_ofNat_small (by omega), toNat_ofNat_small (by omega), toNat_ofNat_small (by omega)]
  omega

theorem encodeChar_four {a b c d : UInt8} (ha : 0xF0 ≤ a.toNat ∧ a.toNat < 0xF5)
    (hb : isSecond a b = true) (hc : isContinuation c = true) (hd : isContinuation d = true) :
    encodeChar (Char.ofNat (((a.toNat % 8 * 64 + tail6 b) * 64 + tail6 c) * 64 + tail6 d)) =
      [a, b, c, d] := by
  rw [isSecond_iff] at hb
  rw [isContinuation_iff] at hc hd
  unfold encodeChar String.utf8EncodeChar tail6
  simp only [toNat_ofNat_valid
    (n := ((a.toNat % 8 * 64 + b.toNat % 64) * 64 + c.toNat % 64) * 64 + d.toNat % 64) (by omega)]
  rw [if_neg (by omega), if_neg (by omega), if_neg (by omega)]
  simp only [List.cons.injEq, ← UInt8.toNat_inj, and_true]
  rw [toNat_ofNat_small (by omega), toNat_ofNat_small (by omega), toNat_ofNat_small (by omega),
    toNat_ofNat_small (by omega)]
  omega

theorem map_cons_eq_ok {c : Char} {x : Except DecodeError (List Char)} {t : List Char}
    (h : (c :: ·) <$> x = .ok t) : ∃ u, x = .ok u ∧ t = c :: u := by
  cases x with
  | error e => cases h
  | ok u => exact ⟨u, rfl, (Except.ok.inj h).symm⟩

/-- Bytes that are read as a text are what the text is written as. -/
theorem encode_of_decodeFrom {position : Nat} {bytes : Bytes} {t : List Char}
    (h : decodeFrom position bytes = .ok t) : encode t = bytes := by
  have hlow : ∀ {a b : UInt8}, ¬a < b → b.toNat ≤ a.toNat := fun hab => by
    rwa [UInt8.lt_iff_toNat_lt, Nat.not_lt] at hab
  have hhigh : ∀ {a b : UInt8}, a < b → a.toNat < b.toNat := UInt8.lt_iff_toNat_lt.mp
  fun_induction decodeFrom position bytes generalizing t <;> try cases h
  case case1 => rfl
  case case2 ha ih =>
    obtain ⟨u, hu, rfl⟩ := map_cons_eq_ok h
    rw [encode_cons, encodeChar_one (hhigh ha), ih hu]
    rfl
  case case6 _ ha ha' _ _ hb ih =>
    obtain ⟨u, hu, rfl⟩ := map_cons_eq_ok h
    rw [encode_cons, encodeChar_two ⟨hlow ha, hhigh ha'⟩ (by simpa using hb), ih hu]
    rfl
  case case11 _ _ ha ha' _ hb _ _ hc ih =>
    obtain ⟨u, hu, rfl⟩ := map_cons_eq_ok h
    rw [encode_cons, encodeChar_three ⟨hlow ha, hhigh ha'⟩ (by simpa using hb) (by simpa using hc),
      ih hu]
    rfl
  case case18 _ _ _ ha ha' _ hb _ hc _ _ hd ih =>
    obtain ⟨u, hu, rfl⟩ := map_cons_eq_ok h
    rw [encode_cons, encodeChar_four ⟨hlow ha, hhigh ha'⟩ (by simpa using hb) (by simpa using hc)
      (by simpa using hd), ih hu]
    rfl

theorem encode_of_decode {bytes : Bytes} {t : List Char} (h : decode bytes = .ok t) :
    encode t = bytes := encode_of_decodeFrom h

/-! ## ASCII -/

theorem encodeChar_ascii {c : Char} (h : c.toNat < 128) : encodeChar c = [UInt8.ofNat c.toNat] :=
  if_pos (show c.val.toNat ≤ 0x7f from Nat.le_of_lt_succ h)

theorem high_of_mem_encodeChar {c : Char} (h : 128 ≤ c.toNat) {b : UInt8}
    (hb : b ∈ encodeChar c) : 128 ≤ b.toNat := by
  have hv := toNat_valid c
  unfold encodeChar String.utf8EncodeChar at hb
  simp only [show c.val.toNat = c.toNat from rfl] at hb
  generalize c.toNat = n at h hb hv
  rw [if_neg (by omega)] at hb
  split at hb
  · simp only [List.mem_cons, List.not_mem_nil, or_false] at hb
    rcases hb with rfl | rfl <;> rw [toNat_ofNat_small (by omega)] <;> omega
  · split at hb
    · simp only [List.mem_cons, List.not_mem_nil, or_false] at hb
      rcases hb with rfl | rfl | rfl <;> rw [toNat_ofNat_small (by omega)] <;> omega
    · simp only [List.mem_cons, List.not_mem_nil, or_false] at hb
      rcases hb with rfl | rfl | rfl | rfl <;> rw [toNat_ofNat_small (by omega)] <;> omega

/-- A byte of ASCII belongs to a character of ASCII. -/
theorem ascii_of_mem_encodeChar {c : Char} {b : UInt8} (hb : b ∈ encodeChar c) (hsmall : b.toNat < 128) :
    c.toNat < 128 :=
  Nat.lt_of_not_le fun hc => absurd (high_of_mem_encodeChar hc hb) (Nat.not_le_of_lt hsmall)

/-- A test of bytes agrees with a test of characters if it looks at ASCII in the same way, and takes
the bytes of all other characters or none of them. -/
structure Agrees (p : UInt8 → Bool) (q : Char → Bool) : Prop where
  ascii : ∀ c : Char, c.toNat < 128 → q c = p (UInt8.ofNat c.toNat)
  high : ∀ (c : Char) (b : UInt8), 128 ≤ c.toNat → 128 ≤ b.toNat → q c = p b

namespace Agrees

variable {p : UInt8 → Bool} {q : Char → Bool} (h : Agrees p q)

include h

theorem of_mem {c : Char} {b : UInt8} (hb : b ∈ encodeChar c) : q c = p b := by
  rcases Nat.lt_or_ge c.toNat 128 with hc | hc
  · rw [encodeChar_ascii hc, List.mem_singleton] at hb
    rw [hb, h.ascii c hc]
  · exact h.high c b hc (high_of_mem_encodeChar hc hb)

theorem all_encodeChar (c : Char) : (encodeChar c).all p = q c := by
  obtain ⟨b, bs, hc⟩ := List.exists_cons_of_ne_nil (encodeChar_ne_nil c)
  have hp : ∀ x ∈ encodeChar c, p x = q c := fun x hx => (h.of_mem hx).symm
  cases hq : q c with
  | true => exact List.all_eq_true.mpr fun x hx => (hp x hx).trans hq
  | false =>
    rw [List.all_eq_false]
    exact ⟨b, by simp [hc], by simp [hp b (by simp [hc]), hq]⟩

theorem all_encode (t : List Char) : (encode t).all p = t.all q := by
  induction t with
  | nil => rfl
  | cons c t ih => rw [encode_cons, List.all_append, ih, h.all_encodeChar, List.all_cons]

theorem takeWhile_encode (t : List Char) :
    (encode t).takeWhile p = encode (t.takeWhile q) := by
  induction t with
  | nil => rfl
  | cons c t ih =>
    rw [encode_cons, List.takeWhile_cons]
    cases hq : q c with
    | true =>
      have hall : ∀ x ∈ encodeChar c, p x = true := fun x hx => (h.of_mem hx).symm.trans hq
      rw [List.takeWhile_append_of_pos hall, ih]
      rfl
    | false =>
      obtain ⟨b, bs, hc⟩ := List.exists_cons_of_ne_nil (encodeChar_ne_nil c)
      have hb : p b = false := (h.of_mem (c := c) (by simp [hc])).symm.trans hq
      rw [hc, List.cons_append, List.takeWhile_cons, hb]
      rfl

theorem all_not : Agrees (fun b => !p b) (fun c => !q c) :=
  ⟨fun c hc => by rw [h.ascii c hc], fun c b hc hb => by rw [h.high c b hc hb]⟩

theorem any_encode (t : List Char) : (encode t).any p = t.any q := by
  have hall := h.all_not.all_encode t
  rw [List.all_eq_not_any_not, List.all_eq_not_any_not] at hall
  simpa using hall

end Agrees

/-! ## Offsets -/

/-- The offset lies between two characters, or at an end. -/
def Boundary (t : List Char) (offset : Nat) : Prop :=
  ∃ before behind, t = before ++ behind ∧ (encode before).length = offset

theorem boundary_zero (t : List Char) : Boundary t 0 := ⟨[], t, rfl, rfl⟩

theorem Boundary.le_length {t : List Char} {offset : Nat} (h : Boundary t offset) :
    offset ≤ (encode t).length := by
  obtain ⟨before, behind, rfl, rfl⟩ := h
  rw [encode_append, List.length_append]
  exact Nat.le_add_right _ _

/-- Bytes that start with those of a text are the bytes of a text that starts with it. -/
theorem exists_of_encode_eq_append {part t : List Char} {bytes : Bytes}
    (h : encode t = encode part ++ bytes) : ∃ behind, t = part ++ behind ∧ encode behind = bytes := by
  induction part generalizing t with
  | nil => exact ⟨t, rfl, h⟩
  | cons c part ih =>
    have hdecode := decodeFrom_encode 0 t
    rw [h, encode_cons, List.append_assoc, decodeFrom_encodeChar] at hdecode
    cases t with
    | nil =>
      rw [encode_cons, List.append_assoc] at h
      exact absurd (List.append_eq_nil_iff.mp h.symm).1 (encodeChar_ne_nil c)
    | cons d t =>
      obtain ⟨t', ht⟩ : ∃ t', d :: t = c :: t' := by
        cases hrest : decodeFrom (0 + (encodeChar c).length) (encode part ++ bytes) with
        | error e =>
          rw [hrest] at hdecode
          cases hdecode
        | ok u =>
          rw [hrest] at hdecode
          exact ⟨u, (Except.ok.inj hdecode).symm⟩
      rw [ht, encode_cons, encode_cons, List.append_assoc] at h
      obtain ⟨behind, rfl, hbehind⟩ := ih (List.append_cancel_left h)
      exact ⟨behind, ht, hbehind⟩

/-- A text has one beginning of a given length. -/
theorem eq_of_append_eq {before behind before' behind' : List Char}
    (h : before ++ behind = before' ++ behind')
    (hlen : (encode before).length = (encode before').length) : before = before' := by
  have hnil : ∀ u : List Char, (encode u).length = 0 → u = [] := by
    intro u hu
    cases u with
    | nil => rfl
    | cons c u =>
      rw [List.length_eq_zero_iff, encode_cons, List.append_eq_nil_iff] at hu
      exact absurd hu.1 (encodeChar_ne_nil c)
  rcases List.append_eq_append_iff.mp h with ⟨u, rfl, -⟩ | ⟨u, rfl, -⟩
  · rw [encode_append, List.length_append] at hlen
    rw [hnil u (by omega), List.append_nil]
  · rw [encode_append, List.length_append] at hlen
    rw [hnil u (by omega), List.append_nil]

theorem boundary_of_append {s t : List Char} {offset : Nat}
    (h : Boundary (s ++ t) ((encode s).length + offset)) : Boundary t offset := by
  obtain ⟨before, behind, hst, hlen⟩ := h
  rcases List.append_eq_append_iff.mp hst with ⟨u, rfl, hu⟩ | ⟨u, rfl, hu⟩
  · rw [encode_append, List.length_append] at hlen
    exact ⟨u, behind, hu, by omega⟩
  · rw [encode_append, List.length_append] at hlen
    have hzero : (encode u).length = 0 := by omega
    have hoffset : offset = 0 := by omega
    exact hoffset ▸ boundary_zero t

/-- A byte of ASCII is a character of its own. -/
theorem exists_of_ascii {t : List Char} {offset : Nat} {b : UInt8}
    (hb : (encode t)[offset]? = some b) (hsmall : b.toNat < 128) :
    ∃ before c behind, t = before ++ c :: behind ∧ (encode before).length = offset ∧
      (encodeChar c).length = 1 := by
  induction t generalizing offset with
  | nil => simp at hb
  | cons c t ih =>
    rw [encode_cons] at hb
    rcases Nat.lt_or_ge offset (encodeChar c).length with hlt | hge
    · rw [List.getElem?_append_left hlt] at hb
      have hc := ascii_of_mem_encodeChar (List.mem_of_getElem? hb) hsmall
      have hlen : (encodeChar c).length = 1 := by rw [encodeChar_ascii hc]; rfl
      exact ⟨[], c, t, rfl, by rw [encode_nil, List.length_nil]; omega, hlen⟩
    · rw [List.getElem?_append_right hge] at hb
      obtain ⟨before, d, behind, rfl, hlen, hd⟩ := ih hb
      refine ⟨c :: before, d, behind, rfl, ?_, hd⟩
      rw [encode_cons, List.length_append, hlen]
      omega

theorem boundary_before_ascii {t : List Char} {offset : Nat} {b : UInt8}
    (hb : (encode t)[offset]? = some b) (hsmall : b.toNat < 128) : Boundary t offset := by
  obtain ⟨before, c, behind, ht, hlen, -⟩ := exists_of_ascii hb hsmall
  exact ⟨before, c :: behind, ht, hlen⟩

/-- Behind a byte of ASCII no character goes on. -/
theorem boundary_of_ascii {t : List Char} {offset : Nat} {b : UInt8}
    (hb : (encode t)[offset]? = some b) (hsmall : b.toNat < 128) : Boundary t (offset + 1) := by
  obtain ⟨before, c, behind, ht, hlen, hc⟩ := exists_of_ascii hb hsmall
  refine ⟨before ++ [c], behind, by rw [ht, List.append_assoc]; rfl, ?_⟩
  rw [encode_append, List.length_append, hlen, encode_cons, encode_nil, List.append_nil, hc]

/-! ## Parts -/

theorem infix_encode {part t : List Char} (h : part <:+: t) : encode part <:+: encode t := by
  obtain ⟨before, behind, rfl⟩ := h
  exact ⟨encode before, encode behind, by rw [encode_append, encode_append]⟩

theorem prefix_of_encode {part t : List Char} (hascii : ∀ c ∈ part, c.toNat < 128)
    (h : encode part <+: encode t) : part <+: t := by
  induction part generalizing t with
  | nil => exact List.nil_prefix
  | cons c part ih =>
    have hc := hascii c List.mem_cons_self
    have hbyte : (UInt8.ofNat c.toNat).toNat = c.toNat := toNat_ofNat_small (by omega)
    cases t with
    | nil => simp [encodeChar_ascii hc] at h
    | cons d t =>
      rw [encode_cons, encode_cons, encodeChar_ascii hc, List.singleton_append] at h
      have hd : d.toNat < 128 := by
        obtain ⟨b, bs, hbs⟩ := List.exists_cons_of_ne_nil (encodeChar_ne_nil d)
        rw [hbs, List.cons_append, List.cons_prefix_cons] at h
        exact ascii_of_mem_encodeChar (b := b) (by simp [hbs]) (by rw [← h.1, hbyte]; exact hc)
      rw [encodeChar_ascii hd, List.singleton_append, List.cons_prefix_cons] at h
      have hcd : c = d := by
        have hnat := congrArg UInt8.toNat h.1
        rw [hbyte, toNat_ofNat_small (by omega)] at hnat
        exact Char.toNat_inj.mp hnat
      rw [hcd, List.cons_prefix_cons]
      exact ⟨rfl, ih (fun c hc => hascii c (List.mem_cons_of_mem _ hc)) h.2⟩

/-- Bytes of ASCII that stand in the bytes of a text stand in the text. -/
theorem infix_of_encode {part t : List Char} (hascii : ∀ c ∈ part, c.toNat < 128)
    (h : encode part <:+: encode t) : part <:+: t := by
  cases part with
  | nil => exact List.nil_infix
  | cons c part =>
    have hc := hascii c List.mem_cons_self
    induction t with
    | nil => simp [encodeChar_ascii hc] at h
    | cons d t ih =>
      by_cases hprefix : encode (c :: part) <+: encode (d :: t)
      · exact (prefix_of_encode hascii hprefix).isInfix
      · -- the part does not start with the first character, and not inside of it either
        have hrest : encode (c :: part) <:+: encode t := by
          obtain ⟨before, behind, hsplit⟩ := h
          rw [encode_cons (t := t), List.append_assoc] at hsplit
          rcases List.append_eq_append_iff.mp hsplit with ⟨u, hu, hu'⟩ | ⟨u, hu, hu'⟩
          · cases u with
            | nil => exact ⟨[], behind, by simpa using hu'⟩
            | cons b u =>
              rw [encode_cons, encodeChar_ascii hc, List.singleton_append, List.cons_append] at hu'
              have hb : b.toNat < 128 := by
                rw [← (List.cons.inj hu').1, toNat_ofNat_small (by omega)]
                exact hc
              have hd := ascii_of_mem_encodeChar (c := d) (b := b) (by simp [hu]) hb
              rw [encodeChar_ascii hd] at hu
              have hnil : before = [] := by
                have hlength := congrArg List.length hu
                simp only [List.length_append, List.length_cons, List.length_nil] at hlength
                exact List.eq_nil_of_length_eq_zero (by omega)
              refine absurd ⟨behind, ?_⟩ hprefix
              rw [encode_cons (t := t), ← hsplit, hnil, List.nil_append]
          · exact ⟨u, behind, by rw [List.append_assoc, hu']⟩
        exact (ih hrest).trans (List.suffix_cons d t).isInfix
end DelayInjection.Text.Utf8
