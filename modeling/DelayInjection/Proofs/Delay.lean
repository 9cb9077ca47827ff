import DelayInjection.Delay
import DelayInjection.Proofs.Number.Exact
import DelayInjection.Proofs.Text.Numeral

/-! The delay of a point. Between bounds that floating point represents exactly there is one, and in
ranges up to `2 ^ 20` it is an integer formula: no operation of its derivation rounds, except for the
last one, which takes halves up. -/

namespace DelayInjection.Delay

open Number (Binary64)
open Number.Binary64 (HasValue)

theorem context?_eq (file container : String) {index : Int} (hindex : IsShort index) :
    context? file container index = some (file ++ ":" ++ container ++ ":" ++ toString index) := by
  rw [context?, showInt?_eq hindex, Option.map_some]

/-- The formula, once both numbers of the range are floating-point numbers. -/
theorem between_of_ofInt? {low high : Int} {span start : Binary64}
    (hspan : Binary64.ofInt? (high - low) = some span) (hstart : Binary64.ofInt? low = some start)
    (fraction : Binary64) : between low high fraction =
      ((start.add (fraction.mul span)).add half).truncate.mapError .notInteger := by
  simp only [between, toFloat, hspan, hstart]
  rfl

/-! ## Bounded ranges -/

theorem below_fraction (draw : UInt32) : Binary64.Below 1 (fraction draw.toNat) := by
  have hdraw : draw.toNat < 2 ^ 32 := draw.toNat_lt
  refine Binary64.below_ofScaled (k := 0) ?_ (by decide)
  have hlt : (draw.toNat : ℚ) < 2 ^ 32 := by exact_mod_cast hdraw
  have hscale : (2 : ℚ) ^ (-32 : Int) = 1 / 2 ^ 32 := by norm_num [zpow_neg]
  rw [Int.natAbs_natCast, pow_zero, hscale, mul_one_div, div_lt_one (by norm_num)]
  exact hlt

theorem below_half : Binary64.Below 1 half := by
  refine Binary64.below_ofScaled (k := 0) ?_ (by decide)
  norm_num [zpow_neg]

/-- Between bounds that floating point represents exactly there is a delay. -/
theorem milliseconds_eq_ok (seed : Int) (file container : String) {index low high : Int}
    (hindex : IsShort index) (hlow : 0 ≤ low) (hle : low ≤ high) (hhigh : high < 2 ^ 53) :
    ∃ delay, milliseconds seed file container index low high = .ok delay ∧ delay.natAbs < 2 ^ 60 := by
  obtain ⟨span, hspan, hspan'⟩ := @Binary64.ofInt?_eq_some 53 (high - low) (by omega) (by decide)
  obtain ⟨start, hstart, hstart'⟩ := @Binary64.ofInt?_eq_some 53 low (by omega) (by decide)
  unfold milliseconds
  simp only [context?_eq file container hindex]
  generalize (Generator.ofSeed (Seed.derive seed
    (file ++ ":" ++ container ++ ":" ++ toString index))).next.1 = draw
  have hproduct := Binary64.below_mul (below_fraction draw) hspan' (by decide)
  have hsum := Binary64.below_add hstart' hproduct (by decide)
  obtain ⟨delay, hdelay, hlt⟩ := Binary64.truncate_eq_ok
    (Binary64.below_add hsum below_half (by decide))
  refine ⟨delay, ?_, hlt⟩
  rw [between_of_ofInt? hspan hstart, hdelay]
  rfl

/-- A delay is short, whatever its range is. -/
theorem isShort_of_milliseconds {seed index low high delay : Int} {file container : String}
    (h : milliseconds seed file container index low high = .ok delay) : IsShort delay := by
  unfold milliseconds at h
  split at h
  · cases h
  unfold between at h
  cases hspan : toFloat (high - low) with
  | error e =>
    rw [hspan] at h
    cases h
  | ok span =>
    cases hstart : toFloat low with
    | error e =>
      rw [hspan, hstart] at h
      cases h
    | ok start =>
      rw [hspan, hstart] at h
      simp only [bind, Except.bind] at h
      generalize start.add _ = x at h
      cases hvalue : x.add half with
      | nan =>
        rw [hvalue] at h
        cases h
      | infinite s =>
        rw [hvalue] at h
        cases h
      | finite s m e =>
        obtain ⟨n, htruncate, hlt⟩ := Binary64.truncate_eq_ok
          (Binary64.below_of_add_eq le_rfl hvalue)
        rw [hvalue, htruncate] at h
        cases h
        exact isShort_of_lt hlt (by decide)

/-! ## Ranges without rounding -/

theorem hasValue_fraction (draw : UInt32) : HasValue (draw.toNat / 2 ^ 32) (fraction draw.toNat) := by
  have hdraw : draw.toNat < 2 ^ 32 := draw.toNat_lt
  refine Binary64.hasValue_ofScaled (Binary64.fits_div (a := draw.toNat) (by omega) (by decide)) ?_
  rw [zpow_neg, ← div_eq_mul_inv]
  rfl

theorem hasValue_half : HasValue (((1 : Int) : ℚ) / 2 ^ 1) half :=
  Binary64.hasValue_ofScaled (Binary64.fits_div (by decide) (by decide)) (by norm_num [zpow_neg])

section Range

variable (draw : UInt32) {low high : Int} (hlow : 0 ≤ low) (hle : low ≤ high) (hhigh : high ≤ 2 ^ 20)

include hle in
/-- The share of the range that a draw stands for. -/
theorem share_bounds : 0 ≤ (draw.toNat : Int) * (high - low) ∧
    (draw.toNat : Int) * (high - low) ≤ 2 ^ 32 * (high - low) := by
  have hdraw : draw.toNat < 2 ^ 32 := draw.toNat_lt
  constructor
  · exact Int.mul_nonneg (by omega) (by omega)
  · exact Int.mul_le_mul_of_nonneg_right (by omega) (by omega)

include hlow hle hhigh in
theorem between_eq : between low high (fraction draw.toNat) =
    .ok ((2 ^ 32 * low + draw.toNat * (high - low) + 2 ^ 31) / 2 ^ 32) := by
  obtain ⟨hshare, hshare'⟩ := share_bounds draw hle
  generalize hs : (draw.toNat : Int) * (high - low) = share at hshare hshare' ⊢
  have hspan := @Binary64.hasValue_ofInt (high - low) (by omega)
  have hstart := @Binary64.hasValue_ofInt low (by omega)
  -- all intermediate results are integers over `2 ^ 32` with at most 53 bits
  have hproduct : HasValue (share / 2 ^ 32)
      ((fraction draw.toNat).mul (Binary64.ofInt (high - low))) := by
    refine Binary64.hasValue_mul (hasValue_fraction draw) hspan
      (Binary64.fits_div (by omega) (by decide)) ?_
    rw [← hs]
    push_cast
    ring
  have hsum : HasValue ((2 ^ 32 * low + share : Int) / 2 ^ 32)
      ((Binary64.ofInt low).add ((fraction draw.toNat).mul (Binary64.ofInt (high - low)))) := by
    refine Binary64.hasValue_add hstart hproduct (Binary64.fits_div (by omega) (by decide)) ?_
    push_cast
    ring
  have hvalue : HasValue ((2 ^ 32 * low + share + 2 ^ 31 : Int) / 2 ^ 32) (((Binary64.ofInt low).add
      ((fraction draw.toNat).mul (Binary64.ofInt (high - low)))).add half) := by
    refine Binary64.hasValue_add hsum hasValue_half (Binary64.fits_div (by omega) (by decide)) ?_
    push_cast
    ring
  have hfloor : ⌊((2 ^ 32 * low + share + 2 ^ 31 : Int) : ℚ) / 2 ^ 32⌋ =
      (2 ^ 32 * low + share + 2 ^ 31) / 2 ^ 32 := by
    have hfloor := Rat.floor_intCast_div_natCast (2 ^ 32 * low + share + 2 ^ 31 : Int) (2 ^ 32)
    rwa [Nat.cast_pow, Nat.cast_pow] at hfloor
  have htruncate := Binary64.truncate_of_hasValue hvalue (by
    have : (0 : ℚ) ≤ (2 ^ 32 * low + share + 2 ^ 31 : Int) := by exact_mod_cast (by omega)
    positivity)
  rw [between_of_ofInt? (Binary64.ofInt?_eq_ofInt (by omega)) (Binary64.ofInt?_eq_ofInt (by omega)),
    htruncate, hfloor]
  rfl

end Range

/-- The delay is the lower bound plus the draw's share of the range, with halves rounded up; division
rounds down. -/
theorem milliseconds_eq_rounded (seed : Int) (file container : String) {index low high : Int}
    (hindex : IsShort index) (hlow : 0 ≤ low) (hle : low ≤ high) (hhigh : high ≤ 2 ^ 20) :
    ∃ (draw : Nat) (delay : Int), draw = (Generator.ofSeed (Seed.derive seed
        (file ++ ":" ++ container ++ ":" ++ toString index))).next.1.toNat ∧ draw < 2 ^ 32 ∧
      milliseconds seed file container index low high = .ok delay ∧
      delay = (2 ^ 32 * low + draw * (high - low) + 2 ^ 31) / 2 ^ 32 ∧ low ≤ delay ∧ delay ≤ high := by
  refine ⟨_, _, rfl, UInt32.toNat_lt _, ?_, rfl, ?_, ?_⟩
  · unfold milliseconds
    simp only [context?_eq file container hindex]
    exact between_eq _ hlow hle hhigh
  all_goals
    obtain ⟨hshare, hshare'⟩ := share_bounds (Generator.ofSeed (Seed.derive seed
      (file ++ ":" ++ container ++ ":" ++ toString index))).next.1 hle
    omega

theorem milliseconds_eq_rounded_of_main :
    milliseconds 7 "src/app.js" "main" 0 0 (2 ^ 20) = .ok 944233 ∧ (944233 : Int) ≤ 2 ^ 20 := by
  obtain ⟨draw, delay, hdraw, -, hdelay, hrounded, -, hle⟩ := milliseconds_eq_rounded 7 "src/app.js"
    "main" (isShort_of_lt (n := 0) (k := 0) (by decide) (by decide)) (le_refl 0) (by decide)
    (le_refl (2 ^ 20))
  have hvalue : draw = 3867576903 := hdraw.trans (by decide +kernel)
  have hmilliseconds : delay = 944233 := by rw [hrounded, hvalue]; rfl
  exact ⟨hmilliseconds ▸ hdelay, hmilliseconds ▸ hle⟩

end DelayInjection.Delay
