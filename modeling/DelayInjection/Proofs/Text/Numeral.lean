import DelayInjection.Text.Numeral
import Mathlib.Algebra.Ring.Nat
import Mathlib.Data.List.TakeWhile

/-! Integers as text: what is written for them, and that it is read back. -/

namespace DelayInjection

/-! ## Writing -/

/-- Fewer digits than are refused. -/
structure IsShort (n : Int) : Prop where
  lt : n.natAbs < 10 ^ Text.maxDigits

theorem isShort_of_lt {n : Int} {k : Nat} (h : n.natAbs < 2 ^ k) (hk : k ≤ Text.maxDigits) :
    IsShort n :=
  ⟨Nat.lt_of_lt_of_le h
    ((Nat.pow_le_pow_left (by decide) k).trans (Nat.pow_le_pow_right (by decide) hk))⟩

-- for any number of digits, so that the power itself is never evaluated
theorem pow_maxDigits : Nat.pow 10 Text.maxDigits = 10 ^ Text.maxDigits := by
  generalize Text.maxDigits = k
  rfl

theorem showInt?_eq_some_iff {n : Int} {text : String} :
    Text.showInt? n = some text ↔ IsShort n ∧ text = toString n := by
  unfold Text.showInt?
  rw [pow_maxDigits]
  split
  next hlt => exact ⟨fun heq => ⟨⟨hlt⟩, (Option.some.inj heq).symm⟩, fun ⟨_, heq⟩ => heq ▸ rfl⟩
  next hge =>
    refine ⟨fun heq => ?_, fun ⟨hshort, _⟩ => absurd hshort.lt hge⟩
    cases heq

theorem showInt?_eq {n : Int} (h : IsShort n) : Text.showInt? n = some (toString n) :=
  showInt?_eq_some_iff.mpr ⟨h, rfl⟩

namespace Text

theorem isAsciiDigit_of_mem_toDigits {n : Nat} {c : Char} (h : c ∈ Nat.toDigits 10 n) :
    isAsciiDigit c = true := by
  have hdigit := Char.isDigit_iff_toNat.mp (Nat.isDigit_of_mem_toDigits (by decide) (by decide) h)
  simp only [isAsciiDigit, Bool.and_eq_true, decide_eq_true_eq]
  exact hdigit

theorem toNat_of_isAsciiDigit {c : Char} (h : isAsciiDigit c = true) :
    48 ≤ c.toNat ∧ c.toNat ≤ 57 := by
  rw [isAsciiDigit, Bool.and_eq_true, decide_eq_true_iff, decide_eq_true_iff] at h
  exact h

theorem digitsValue_toDigits (n : Nat) : digitsValue (Nat.toDigits 10 n) = n := by
  have hvalue : Nat.ofDigitChars 10 (Nat.toDigits 10 n) 0 = n := Nat.ofDigitChars_ten_toDigits
  rw [Nat.ofDigitChars_eq_foldl] at hvalue
  exact hvalue

/-- No number but zero starts with the digit zero. -/
theorem exists_toDigits_eq_cons (n : Nat) : ∃ c digits, Nat.toDigits 10 n = c :: digits ∧
    isAsciiDigit c = true ∧ (c = '0' → digits = []) := by
  induction n using Nat.strongRecOn with
  | _ n ih =>
    have hmem : ∀ c ∈ Nat.toDigits 10 n, isAsciiDigit c = true := fun c => isAsciiDigit_of_mem_toDigits
    rw [Nat.toDigits_eq_if (by decide)] at hmem ⊢
    split
    next hlt =>
      rw [if_pos hlt] at hmem
      exact ⟨_, [], rfl, hmem _ (by simp), fun _ => rfl⟩
    next hle =>
      obtain ⟨c, digits, hdigits, hdigit, hzero⟩ := ih (n / 10) (by omega)
      refine ⟨c, digits ++ [Nat.digitChar (n % 10)], by rw [hdigits]; rfl, hdigit, ?_⟩
      rintro rfl
      rw [hzero rfl] at hdigits
      have hvalue := digitsValue_toDigits (n / 10)
      rw [hdigits, show digitsValue ['0'] = 0 from rfl] at hvalue
      omega

/-- What an integer is written as. -/
theorem toList_toString_int (z : Int) : (toString z).toList =
    (if z < 0 then ['-'] else []) ++ Nat.toDigits 10 z.natAbs := by
  rw [Int.toString_eq_repr, Int.repr_eq_if]
  split
  next h =>
    rw [if_neg (by omega), Nat.toList_repr, show z.toNat = z.natAbs by omega]
    rfl
  next h =>
    rw [if_pos (by omega), String.toList_append, Nat.toList_repr, show (-z).toNat = z.natAbs by omega]
    rfl

theorem of_mem_toString_int {z : Int} {c : Char} (h : c ∈ (toString z).toList) :
    c = '-' ∨ isAsciiDigit c = true := by
  rw [toList_toString_int, List.mem_append] at h
  rcases h with h | h
  · split at h
    · exact .inl (List.mem_singleton.mp h)
    · cases h
  · exact .inr (isAsciiDigit_of_mem_toDigits h)

/-! ## Reading -/

/-- A digit is none of the other characters that mean something in a numeral. -/
theorem ne_of_isAsciiDigit {c d : Char} (h : isAsciiDigit c = true) (hd : isAsciiDigit d = false) :
    c ≠ d := fun heq => by
  rw [heq, hd] at h
  cases h

theorem isNumeralBlank_of_isAsciiDigit {c : Char} (h : isAsciiDigit c = true) :
    isNumeralBlank c = false := by
  obtain ⟨hge, hle⟩ := toNat_of_isAsciiDigit h
  have hspace : c ≠ ' ' := ne_of_isAsciiDigit h (by decide)
  simp only [isNumeralBlank, beq_eq_false_iff_ne.mpr hspace, Bool.false_or, Bool.and_eq_false_iff,
    decide_eq_false_iff_not]
  omega

theorem underscoresSeparate_cons {c : Char} {rest : List Char} (h : ∀ d ∈ c :: rest, d ≠ '_') :
    underscoresSeparate (c :: rest) = true := by
  induction rest generalizing c with
  | nil => simpa [underscoresSeparate] using h
  | cons d rest ih =>
    have hc := h c List.mem_cons_self
    have hrest := ih fun e he => h e (List.mem_cons_of_mem _ he)
    simp [underscoresSeparate, hc, hrest]

theorem parseMagnitude_of_digits {c : Char} {rest : List Char}
    (hdigits : ∀ d ∈ c :: rest, isAsciiDigit d = true) (hlength : (c :: rest).length ≤ maxDigits) :
    parseMagnitude (c :: rest) = .ok (digitsValue (c :: rest)) := by
  have hbody : (c :: rest).takeWhile (fun d => isAsciiDigit d || d == '_') = c :: rest :=
    List.takeWhile_eq_self_iff.mpr fun d hd => by rw [hdigits d hd, Bool.true_or]
  have hplain : ∀ d ∈ c :: rest, d ≠ '_' := fun d hd => ne_of_isAsciiDigit (hdigits d hd) (by decide)
  have hhead : ((c :: rest).head? == some '_') = false :=
    beq_eq_false_iff_ne.mpr fun h => hplain c List.mem_cons_self (Option.some.inj h)
  simp only [parseMagnitude, hbody, hhead, underscoresSeparate_cons hplain,
    List.filter_eq_self.mpr hdigits, List.drop_length, List.dropWhile_nil]
  rw [if_neg (by decide), if_neg (by omega)]
  rfl

/-- A printed integer is read back. -/
theorem parseInt_toString {n : Int} (h : IsShort n) : parseInt (toString n).toList = .ok n := by
  obtain ⟨c, rest, hcons, -, -⟩ := exists_toDigits_eq_cons n.natAbs
  have hdigits : ∀ d ∈ c :: rest, isAsciiDigit d = true := fun d hd =>
    isAsciiDigit_of_mem_toDigits (hcons ▸ hd)
  have hmagnitude : parseMagnitude (c :: rest) = .ok n.natAbs := by
    have hlength := (Nat.length_toDigits_le_iff (by decide) (by decide)).mpr h.lt
    rw [parseMagnitude_of_digits hdigits (hcons ▸ hlength), ← hcons, digitsValue_toDigits]
  have hprinted := toList_toString_int n
  rw [hcons] at hprinted
  have hfold : foldNumeral (toString n).toList = (toString n).toList := by
    refine if_pos (List.all_eq_true.mpr fun d hd => decide_eq_true ?_)
    rcases of_mem_toString_int hd with rfl | hd
    · decide
    · have := toNat_of_isAsciiDigit hd
      omega
  have hfirst := hdigits c List.mem_cons_self
  rw [parseInt, hfold, hprinted]
  split_ifs with hneg
  · change (fun m : Nat => -(m : Int)) <$> parseMagnitude (c :: rest) = _
    rw [hmagnitude]
    change Except.ok (-(n.natAbs : Int)) = _
    rw [show -(n.natAbs : Int) = n by omega]
  · rw [List.nil_append, List.dropWhile_cons_of_neg
      (by rw [isNumeralBlank_of_isAsciiDigit hfirst]; exact Bool.false_ne_true)]
    split
    next heq => exact absurd (List.cons.inj heq).1 (ne_of_isAsciiDigit hfirst (by decide))
    next heq => exact absurd (List.cons.inj heq).1 (ne_of_isAsciiDigit hfirst (by decide))
    next =>
      rw [hmagnitude]
      change Except.ok (n.natAbs : Int) = _
      rw [show (n.natAbs : Int) = n by omega]

end Text
end DelayInjection
