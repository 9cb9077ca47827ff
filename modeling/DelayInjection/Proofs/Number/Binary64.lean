import DelayInjection.Number.Binary64
import Mathlib.Algebra.Order.Field.Power
import Mathlib.Data.Nat.Cast.Order.Field
import Mathlib.Data.Rat.Cast.Order
import Mathlib.Tactic.FieldSimp
import Mathlib.Tactic.Linarith
import Mathlib.Tactic.Positivity
import Mathlib.Tactic.GCongr
import Mathlib.Tactic.Ring

/-! Numbers below a power of two stay below one under the operations, so that none of them leads to
infinity while the powers are small. -/

namespace DelayInjection.Number.Binary64

/-- A finite number whose magnitude is less than `2 ^ k`. -/
def Below (k : Nat) : Binary64 → Prop
  | finite _ m e => (m : ℚ) * 2 ^ e < 2 ^ k
  | _ => False

theorem exists_finite_of_below {k : Nat} {x : Binary64} (h : Below k x) :
    ∃ s m e, x = finite s m e ∧ (m : ℚ) * 2 ^ e < 2 ^ k := by
  cases x with
  | finite s m e => exact ⟨s, m, e, rfl, h⟩
  | nan => exact h.elim
  | infinite s => exact h.elim

theorem two_zpow_eq (e : Int) : (2 : ℚ) ^ e = 2 ^ e.toNat / 2 ^ (-e).toNat := by
  rcases Int.le_total 0 e with h | h
  · rw [show (-e).toNat = 0 by omega, pow_zero, div_one, ← zpow_natCast, Int.toNat_of_nonneg h]
  · rw [show e.toNat = 0 by omega, pow_zero, one_div, ← zpow_natCast, ← zpow_neg,
      Int.toNat_of_nonneg (by omega), neg_neg]

theorem divNearestEven_le (num den : Nat) : divNearestEven num den ≤ num / den + 1 := by
  simp only [divNearestEven]
  split
  · exact Nat.le_refl _
  · exact Nat.le_succ _

theorem exponentOf_le {num den k : Nat} (hnum : num ≠ 0) (h : num < 2 ^ k * den) :
    exponentOf num den ≤ max minExponent (k - 52) := by
  have hden : den < 2 ^ (den.log2 + 1) := Nat.lt_log2_self
  have hlog : num.log2 < k + (den.log2 + 1) := by
    rw [Nat.log2_lt hnum, Nat.pow_add]
    exact Nat.lt_of_lt_of_le h (Nat.mul_le_mul_left _ hden.le)
  simp only [exponentOf]
  split <;> omega

/-- A scaled number as the quotient that is rounded. -/
theorem quotient_eq (m : Nat) (e : Int) :
    ((m * Nat.pow 2 e.toNat : Nat) : ℚ) / ((Nat.pow 2 (-e).toNat : Nat) : ℚ) = m * 2 ^ e := by
  rw [two_zpow_eq]
  push_cast [Nat.pow_eq]
  rw [mul_div_assoc]

/-- A power of two in units of a smaller one. -/
theorem pow_toNat_mul_zpow {e f : Int} (h : f ≤ e) :
    ((Nat.pow 2 (e - f).toNat : Nat) : ℚ) * 2 ^ f = 2 ^ e := by
  rw [Nat.pow_eq, Nat.cast_pow, Nat.cast_ofNat, ← zpow_natCast, Int.toNat_of_nonneg (by omega),
    ← zpow_add₀ (by norm_num), sub_add_cancel]

/-- A quotient in units of `2 ^ e`. -/
theorem scaled_div_eq (num den : Nat) (e : Int) :
    ((num * Nat.pow 2 (-e).toNat : Nat) : ℚ) / ((den * Nat.pow 2 e.toNat : Nat) : ℚ) =
      num / den * 2 ^ (-e) := by
  rw [two_zpow_eq, neg_neg]
  push_cast [Nat.pow_eq]
  rw [mul_div_mul_comm]

section Round

variable {num den : Nat} (hden : den ≠ 0) {k : Nat} (hk : k ≤ 1022) (h : (num : ℚ) / den < 2 ^ k)

include hden h

theorem lt_pow_mul : num < 2 ^ k * den := by
  have hpos : (0 : ℚ) < den := by exact_mod_cast Nat.pos_of_ne_zero hden
  rw [div_lt_iff₀ hpos] at h
  exact_mod_cast h

/-- Rounding adds at most one unit in the last place. -/
theorem rounded_lt {e : Int} (he : e ≤ k) :
    (divNearestEven (num * Nat.pow 2 (-e).toNat) (den * Nat.pow 2 e.toNat) : ℚ) * 2 ^ e <
      2 ^ (k + 1) := by
  have hpos : (0 : ℚ) < den := by exact_mod_cast Nat.pos_of_ne_zero hden
  have hquotient := Nat.cast_div_le.trans (scaled_div_eq num den e).le
  have hround : (divNearestEven (num * Nat.pow 2 (-e).toNat) (den * Nat.pow 2 e.toNat) : ℚ) ≤
      num / den * 2 ^ (-e) + 1 := by
    have hle : (divNearestEven (num * Nat.pow 2 (-e).toNat) (den * Nat.pow 2 e.toNat) : ℚ) ≤
        ((num * Nat.pow 2 (-e).toNat / (den * Nat.pow 2 e.toNat) : Nat) : ℚ) + 1 := by
      exact_mod_cast divNearestEven_le _ _
    linarith
  have hunit : (2 : ℚ) ^ e ≤ 2 ^ k := by
    rw [← zpow_natCast]
    exact zpow_le_zpow_right₀ (by norm_num) he
  have hscale : (2 : ℚ) ^ (-e) * 2 ^ e = 1 := by
    rw [← zpow_add₀ (by norm_num), neg_add_cancel, zpow_zero]
  have hpow : (0 : ℚ) < 2 ^ e := by positivity
  calc (divNearestEven (num * Nat.pow 2 (-e).toNat) (den * Nat.pow 2 e.toNat) : ℚ) * 2 ^ e
      ≤ (num / den * 2 ^ (-e) + 1) * 2 ^ e := by gcongr
    _ = num / den + 2 ^ e := by rw [add_mul, mul_assoc, hscale, mul_one, one_mul]
    _ < 2 ^ k + 2 ^ k := by linarith
    _ = 2 ^ (k + 1) := by ring

include hk

theorem below_ofQuotient (negative : Bool) : Below (k + 1) (ofQuotient negative num den) := by
  unfold ofQuotient
  split
  next => simp [Below]
  next hne =>
    have hnum : num ≠ 0 := fun h => hne (.inl h)
    have hexp := exponentOf_le hnum (lt_pow_mul hden h)
    have hlt := rounded_lt hden h (e := exponentOf num den) (by unfold minExponent at hexp; omega)
    unfold minExponent at hexp
    simp only
    split
    next hm =>
      rw [hm] at hlt
      rw [if_neg (by unfold maxExponent; omega)]
      refine lt_of_eq_of_lt ?_ hlt
      rw [zpow_add₀ (by norm_num)]
      norm_num
      ring
    next hm =>
      rw [if_neg (by unfold maxExponent; omega)]
      exact hlt

end Round

/-! ## The operations -/

variable {x y : Binary64} {j k : Nat}

theorem below_ofScaled {m e : Int} (h : (m.natAbs : ℚ) * 2 ^ e < 2 ^ k) (hk : k ≤ 1022) :
    Below (k + 1) (ofScaled m e) := by
  rw [← quotient_eq] at h
  exact below_ofQuotient (Nat.pos_iff_ne_zero.mp (Nat.two_pow_pos _)) hk h _

theorem below_ofInt {n : Int} (h : n.natAbs < 2 ^ k) (hk : k ≤ 1022) : Below (k + 1) (ofInt n) := by
  refine below_ofScaled ?_ hk
  rw [zpow_zero, mul_one]
  exact_mod_cast h

theorem ofInt?_eq_some {n : Int} (h : n.natAbs < 2 ^ k) (hk : k ≤ 1022) :
    ∃ x, ofInt? n = some x ∧ Below (k + 1) x := by
  have hbelow := below_ofInt h hk
  obtain ⟨s, m, e, hx, -⟩ := exists_finite_of_below hbelow
  exact ⟨ofInt n, by rw [ofInt?, hx], hbelow⟩

theorem below_mul (hx : Below j x) (hy : Below k y) (hjk : j + k ≤ 1022) :
    Below (j + k + 1) (x.mul y) := by
  obtain ⟨s, m, e, rfl, hx⟩ := exists_finite_of_below hx
  obtain ⟨t, n, f, rfl, hy⟩ := exists_finite_of_below hy
  have hlt : ((m * n * Nat.pow 2 (e + f).toNat : Nat) : ℚ) / ((Nat.pow 2 (-(e + f)).toNat : Nat) : ℚ) <
      2 ^ (j + k) := by
    rw [quotient_eq, Nat.cast_mul, zpow_add₀ (by norm_num), mul_mul_mul_comm, pow_add]
    have hm : (0 : ℚ) ≤ m * 2 ^ e := by positivity
    have hn : (0 : ℚ) ≤ n * 2 ^ f := by positivity
    exact mul_lt_mul'' hx hy hm hn
  exact below_ofQuotient (Nat.pos_iff_ne_zero.mp (Nat.two_pow_pos _)) hjk hlt _

theorem natAbs_signed (s : Bool) (m : Nat) : (signed s m).natAbs = m := by
  cases s <;> simp [signed]

theorem below_add (hx : Below j x) (hy : Below k y) (hjk : max j k + 1 ≤ 1022) :
    Below (max j k + 2) (x.add y) := by
  obtain ⟨s, m, e, rfl, hx⟩ := exists_finite_of_below hx
  obtain ⟨t, n, f, rfl, hy⟩ := exists_finite_of_below hy
  simp only [add]
  split
  next => simp [Below]
  next =>
    refine below_ofScaled ?_ hjk
    have hm := pow_toNat_mul_zpow (min_le_left e f)
    have hn := pow_toNat_mul_zpow (min_le_right e f)
    have habs : ((signed s m * (Nat.pow 2 (e - min e f).toNat : Nat) +
        signed t n * (Nat.pow 2 (f - min e f).toNat : Nat)).natAbs : ℚ) ≤
        m * (Nat.pow 2 (e - min e f).toNat : Nat) + n * (Nat.pow 2 (f - min e f).toNat : Nat) := by
      have hle := Int.natAbs_add_le (signed s m * (Nat.pow 2 (e - min e f).toNat : Nat))
        (signed t n * (Nat.pow 2 (f - min e f).toNat : Nat))
      rw [Int.natAbs_mul, Int.natAbs_mul, natAbs_signed, natAbs_signed, Int.natAbs_natCast,
        Int.natAbs_natCast] at hle
      exact_mod_cast hle
    have hj : (2 : ℚ) ^ j ≤ 2 ^ max j k := pow_le_pow_right₀ (by norm_num) (Nat.le_max_left _ _)
    have hk : (2 : ℚ) ^ k ≤ 2 ^ max j k := pow_le_pow_right₀ (by norm_num) (Nat.le_max_right _ _)
    calc _ ≤ (m * (Nat.pow 2 (e - min e f).toNat : Nat) +
          n * (Nat.pow 2 (f - min e f).toNat : Nat) : ℚ) * 2 ^ min e f :=
          mul_le_mul_of_nonneg_right habs (by positivity)
      _ = m * 2 ^ e + n * 2 ^ f := by rw [add_mul, mul_assoc, mul_assoc, hm, hn]
      _ < 2 ^ max j k + 2 ^ max j k := by linarith
      _ = 2 ^ (max j k + 1) := by ring

theorem truncate_eq_ok (hx : Below k x) : ∃ n, x.truncate = .ok n ∧ n.natAbs < 2 ^ k := by
  obtain ⟨s, m, e, rfl, hx⟩ := exists_finite_of_below hx
  refine ⟨_, rfl, ?_⟩
  rw [natAbs_signed]
  have hlt := lt_of_le_of_lt (Nat.cast_div_le.trans (quotient_eq m e).le) hx
  exact_mod_cast hlt

/-! ## What is not infinite -/

/-- All finite numbers that rounding leads to are below one power of two. -/
theorem below_of_ofQuotient_eq {negative s : Bool} {num den m : Nat} {e : Int} (hk : 1025 ≤ k)
    (h : ofQuotient negative num den = finite s m e) : Below (k + 1) (finite s m e) := by
  unfold ofQuotient at h
  split at h
  next =>
    cases h
    simp [Below]
  next hne =>
    have hden : den ≠ 0 := fun hzero => hne (.inr hzero)
    have hpos : (0 : ℚ) < den := by exact_mod_cast Nat.pos_of_ne_zero hden
    have hfinite : exponentOf num den ≤ maxExponent := by
      simp only at h
      split at h <;> split at h
      · cases h
      · omega
      · cases h
      · omega
    unfold maxExponent at hfinite
    have hsmall : (num : ℚ) / den < 2 ^ k := by
      have hlog : num.log2 + 1 ≤ k + den.log2 := by
        simp only [exponentOf] at hfinite
        split at hfinite <;> omega
      have hlt : num < 2 ^ k * den :=
        calc num < 2 ^ (num.log2 + 1) := Nat.lt_log2_self
          _ ≤ 2 ^ (k + den.log2) := Nat.pow_le_pow_right (by decide) hlog
          _ = 2 ^ k * 2 ^ den.log2 := Nat.pow_add _ _ _
          _ ≤ 2 ^ k * den := Nat.mul_le_mul_left _ (Nat.log2_self_le hden)
      rw [div_lt_iff₀ hpos]
      exact_mod_cast hlt
    have hlt := rounded_lt hden hsmall (e := exponentOf num den) (by omega)
    simp only at h
    split at h
    next hm =>
      split at h
      · cases h
      · cases h
        rw [hm] at hlt
        refine lt_of_eq_of_lt ?_ hlt
        rw [zpow_add₀ (by norm_num)]
        norm_num
        ring
    next hm =>
      split at h
      · cases h
      · cases h
        exact hlt

/-- So is a finite sum. -/
theorem below_of_add_eq {s : Bool} {m : Nat} {e : Int} (hk : 1025 ≤ k) (h : x.add y = finite s m e) :
    Below (k + 1) (finite s m e) := by
  match x, y with
  | finite t n f, finite u l g =>
    simp only [add] at h
    split at h
    · cases h
      simp [Below]
    · exact below_of_ofQuotient_eq hk h
  | infinite t, infinite u =>
    simp only [add] at h
    split at h <;> cases h
  | nan, nan | nan, infinite _ | nan, finite .. | infinite _, nan | finite .., nan
  | infinite _, finite .. | finite .., infinite _ => cases h

end DelayInjection.Number.Binary64
