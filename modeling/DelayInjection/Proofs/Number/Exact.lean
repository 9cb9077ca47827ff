import DelayInjection.Proofs.Number.Binary64
import Mathlib.Data.Rat.Floor

/-! Where no rounding takes place: an operation whose exact result is a 64-bit number returns it. -/

namespace DelayInjection.Number.Binary64

/-- The rational numbers with a place among the finite 64-bit numbers: 53 bits, and an exponent in
range. -/
def Fits (q : ℚ) : Prop :=
  ∃ (a : Int) (e : Int), a.natAbs < 2 ^ 53 ∧ minExponent ≤ e ∧ e ≤ maxExponent ∧ q = a * 2 ^ e

/-- A finite number that stands for `q`. -/
def HasValue (q : ℚ) : Binary64 → Prop
  | finite s m e => (signed s m : ℚ) * 2 ^ e = q
  | _ => False

theorem fits_div {a : Int} {k : Nat} (ha : a.natAbs < 2 ^ 53) (hk : k ≤ 1074) :
    Fits ((a : ℚ) / 2 ^ k) :=
  ⟨a, -k, ha, by unfold minExponent; omega, by unfold maxExponent; omega,
    by rw [zpow_neg, zpow_natCast, div_eq_mul_inv]⟩

theorem exists_finite_of_hasValue {q : ℚ} {x : Binary64} (h : HasValue q x) :
    ∃ s m e, x = finite s m e ∧ (signed s m : ℚ) * 2 ^ e = q := by
  cases x with
  | finite s m e => exact ⟨s, m, e, rfl, h⟩
  | nan => exact h.elim
  | infinite s => exact h.elim

/-! ## Signs -/

theorem signed_natAbs (m : Int) : signed (decide (m < 0)) m.natAbs = m := by
  by_cases h : m < 0
  · simp only [signed, h, decide_true, if_true]
    omega
  · simp only [signed, h, decide_false, Bool.false_eq_true, if_false]
    omega

theorem signed_mul (s t : Bool) (m n : Nat) : signed (s != t) (m * n) = signed s m * signed t n := by
  cases s <;> cases t <;> simp [signed]

theorem cast_signed (s : Bool) (m : Nat) : (signed s m : ℚ) = signed s 1 * m := by
  cases s <;> simp [signed]

theorem abs_signed (s : Bool) (m : Nat) : |(signed s m : ℚ)| = m := by
  cases s <;> simp [signed]

/-! ## Rounding -/

theorem divNearestEven_mul {den : Nat} (hden : 0 < den) (n : Nat) : divNearestEven (n * den) den = n := by
  simp only [divNearestEven, Nat.mul_div_cancel _ hden, Nat.mul_mod_left, Nat.mul_zero]
  simp [hden.ne]

/-- With the exponent that is chosen for a quotient, its mantissa has 53 bits, unless the exponent is
the least one. -/
theorem exponentOf_spec {num den : Nat} (hnum : num ≠ 0) (hden : den ≠ 0) :
    exponentOf num den = minExponent ∨ (2 : ℚ) ^ (exponentOf num den + 52) ≤ num / den := by
  have hdenq : (0 : ℚ) < den := by exact_mod_cast Nat.pos_of_ne_zero hden
  have hnumq : (2 : ℚ) ^ num.log2 ≤ num := by exact_mod_cast Nat.log2_self_le hnum
  have hdenlt : (den : ℚ) < 2 ^ (den.log2 + 1) := by exact_mod_cast Nat.lt_log2_self
  simp only [exponentOf]
  set e : Int := (num.log2 : Int) - den.log2 - 53 with he
  -- the logarithms alone leave one bit open, and the quotient at `e` decides about it
  have hlow : (2 : ℚ) ^ (e + 52) ≤ num / den := by
    rw [le_div_iff₀ hdenq]
    calc (2 : ℚ) ^ (e + 52) * den ≤ 2 ^ (e + 52) * 2 ^ (den.log2 + 1) := by gcongr
      _ = 2 ^ num.log2 := by
        rw [← zpow_natCast, ← zpow_natCast, ← zpow_add₀ (by norm_num)]
        congr 1
        rw [he]
        push_cast
        ring
      _ ≤ num := hnumq
  split
  next =>
    rcases max_choice minExponent e with h | h
    · exact .inl h
    · rw [h]
      exact .inr hlow
  next hlarge =>
    have hquotient : (2 : ℚ) ^ 53 ≤ num / den * 2 ^ (-e) := by
      refine le_trans ?_ (Nat.cast_div_le.trans (scaled_div_eq num den e).le)
      exact_mod_cast Nat.le_of_not_lt hlarge
    have hhigh : (2 : ℚ) ^ (e + 1 + 52) ≤ num / den := by
      rw [zpow_neg, ← div_eq_mul_inv, le_div_iff₀ (by positivity), ← zpow_natCast,
        ← zpow_add₀ (by norm_num)] at hquotient
      rwa [show e + 1 + 52 = ((53 : Nat) : Int) + e by push_cast; ring]
    rcases max_choice minExponent (e + 1) with h | h
    · exact .inl h
    · rw [h]
      exact .inr hhigh

theorem exponentOf_le_of_eq {num den a : Nat} {e : Int} (hnum : num ≠ 0) (hden : den ≠ 0)
    (ha : a < 2 ^ 53) (he : minExponent ≤ e) (h : (num : ℚ) / den = a * 2 ^ e) :
    exponentOf num den ≤ e := by
  rcases exponentOf_spec hnum hden with hleast | hle
  · exact hleast ▸ he
  · have hlt : (2 : ℚ) ^ (exponentOf num den + 52) < 2 ^ (e + 53) := by
      calc (2 : ℚ) ^ (exponentOf num den + 52) ≤ a * 2 ^ e := h ▸ hle
        _ < 2 ^ 53 * 2 ^ e := by
          gcongr
          exact_mod_cast ha
        _ = 2 ^ (e + 53) := by
          rw [zpow_add₀ (by norm_num), mul_comm]
          norm_cast
    have := (zpow_lt_zpow_iff_right₀ (by norm_num : (1 : ℚ) < 2)).mp hlt
    omega

/-- In units of a smaller power of two there is nothing to round. -/
theorem divNearestEven_scaled {num den a : Nat} {e f : Int} (hden : den ≠ 0) (hf : f ≤ e)
    (h : (num : ℚ) / den = a * 2 ^ e) :
    divNearestEven (num * Nat.pow 2 (-f).toNat) (den * Nat.pow 2 f.toNat) =
      a * Nat.pow 2 (e - f).toNat := by
  have hpos : 0 < den * Nat.pow 2 f.toNat :=
    Nat.mul_pos (Nat.pos_of_ne_zero hden) (Nat.two_pow_pos _)
  have hposq : (0 : ℚ) < (den * Nat.pow 2 f.toNat : Nat) := by exact_mod_cast hpos
  have hscaled := scaled_div_eq num den f
  rw [h, ← pow_toNat_mul_zpow hf, mul_assoc, mul_assoc, ← zpow_add₀ (by norm_num), add_neg_cancel,
    zpow_zero, mul_one, div_eq_iff hposq.ne'] at hscaled
  have hdivides : num * Nat.pow 2 (-f).toNat =
      a * Nat.pow 2 (e - f).toNat * (den * Nat.pow 2 f.toNat) := by
    exact_mod_cast hscaled
  rw [hdivides, divNearestEven_mul hpos]

/-- A quotient that fits is returned as it is. -/
theorem hasValue_ofQuotient {q : ℚ} (hq : Fits q) {negative : Bool} {num den : Nat} (hden : den ≠ 0)
    (h : (signed negative num : ℚ) / den = q) : HasValue q (ofQuotient negative num den) := by
  obtain ⟨a, e, ha, hmin, hmax, rfl⟩ := hq
  unfold ofQuotient
  split
  next hzero =>
    have hnum : num = 0 := hzero.resolve_right hden
    rw [← h, hnum]
    cases negative <;> simp [HasValue, signed]
  next hne =>
    have hnum : num ≠ 0 := fun h => hne (.inl h)
    have habs : (num : ℚ) / den = a.natAbs * 2 ^ e := by
      have hpow : (0 : ℚ) < 2 ^ e := by positivity
      have habs := congrArg abs h
      rw [abs_div, abs_signed, Nat.abs_cast, abs_mul, abs_of_pos hpow] at habs
      rw [habs, Nat.cast_natAbs, Int.cast_abs]
    have hle := exponentOf_le_of_eq hnum hden ha hmin habs
    have hmantissa := divNearestEven_scaled hden hle habs
    generalize exponentOf num den = f at hle hmantissa
    have hvalue : (signed negative (a.natAbs * Nat.pow 2 (e - f).toNat) : ℚ) * 2 ^ f = a * 2 ^ e := by
      rw [cast_signed, Nat.cast_mul, mul_assoc, mul_assoc, pow_toNat_mul_zpow hle, ← habs,
        ← mul_div_assoc, ← cast_signed, h]
    by_cases hcarry : a.natAbs * Nat.pow 2 (e - f).toNat = Nat.pow 2 53
    · have hlt : f < e := by
        refine lt_of_le_of_ne hle fun heq => ha.ne ?_
        rwa [heq, sub_self, Int.toNat_zero, Nat.pow_eq, pow_zero, mul_one] at hcarry
      simp only [hmantissa, if_pos hcarry]
      rw [if_neg (by omega)]
      refine Eq.trans ?_ hvalue
      rw [hcarry, cast_signed _ (Nat.pow 2 53), cast_signed, zpow_add₀ (by norm_num)]
      norm_num
      ring
    · simp only [hmantissa, if_neg hcarry]
      rw [if_neg (by omega)]
      exact hvalue

/-! ## The operations -/

variable {p q r : ℚ} {x y : Binary64}

theorem hasValue_ofScaled {m e : Int} (hq : Fits q) (h : (m : ℚ) * 2 ^ e = q) :
    HasValue q (ofScaled m e) := by
  refine hasValue_ofQuotient hq (Nat.two_pow_pos _).ne' ?_
  rw [cast_signed, mul_div_assoc, quotient_eq, ← mul_assoc, ← cast_signed, signed_natAbs, h]

theorem hasValue_ofInt {n : Int} (h : n.natAbs < 2 ^ 53) : HasValue n (ofInt n) :=
  hasValue_ofScaled (by simpa using fits_div (k := 0) h (by decide)) (by rw [zpow_zero, mul_one])

theorem ofInt?_eq_ofInt {n : Int} (h : n.natAbs < 2 ^ 53) : ofInt? n = some (ofInt n) := by
  obtain ⟨s, m, e, hx, -⟩ := exists_finite_of_hasValue (hasValue_ofInt h)
  rw [ofInt?, hx]

theorem hasValue_mul (hx : HasValue p x) (hy : HasValue q y) (hr : Fits r) (h : p * q = r) :
    HasValue r (x.mul y) := by
  obtain rfl := h
  obtain ⟨s, m, e, rfl, rfl⟩ := exists_finite_of_hasValue hx
  obtain ⟨t, n, f, rfl, rfl⟩ := exists_finite_of_hasValue hy
  refine hasValue_ofQuotient hr (Nat.two_pow_pos _).ne' ?_
  rw [cast_signed, mul_div_assoc, quotient_eq, ← mul_assoc, ← cast_signed, signed_mul, Int.cast_mul,
    zpow_add₀ (by norm_num), mul_mul_mul_comm]

theorem hasValue_add (hx : HasValue p x) (hy : HasValue q y) (hr : Fits r) (h : p + q = r) :
    HasValue r (x.add y) := by
  obtain rfl := h
  obtain ⟨s, m, e, rfl, rfl⟩ := exists_finite_of_hasValue hx
  obtain ⟨t, n, f, rfl, rfl⟩ := exists_finite_of_hasValue hy
  simp only [add]
  split
  next hzero =>
    rw [hzero.1, hzero.2]
    cases s <;> cases t <;> simp [HasValue, signed]
  next =>
    refine hasValue_ofScaled hr ?_
    rw [Int.cast_add, Int.cast_mul, Int.cast_mul, Int.cast_natCast, Int.cast_natCast, add_mul,
      mul_assoc, mul_assoc, pow_toNat_mul_zpow (min_le_left e f),
      pow_toNat_mul_zpow (min_le_right e f)]

/-- Truncation rounds down what is not negative. -/
theorem truncate_of_hasValue (hx : HasValue q x) (hq : 0 ≤ q) : x.truncate = .ok ⌊q⌋ := by
  obtain ⟨s, m, e, rfl, rfl⟩ := exists_finite_of_hasValue hx
  have hfloor : ⌊(m : ℚ) * 2 ^ e⌋ = (m * Nat.pow 2 e.toNat / Nat.pow 2 (-e).toNat : Nat) := by
    rw [← quotient_eq, Rat.floor_natCast_div_natCast]
    rfl
  cases s with
  | false => simpa [truncate, signed] using hfloor.symm
  | true =>
    have hm : m = 0 := by
      by_contra hne
      have hpos : (0 : ℚ) < m * 2 ^ e := by
        have : (0 : ℚ) < m := by exact_mod_cast Nat.pos_of_ne_zero hne
        positivity
      simp only [signed, if_true, Int.cast_neg, Int.cast_natCast, neg_mul] at hq
      linarith
    simp [truncate, signed, hm]

end DelayInjection.Number.Binary64
