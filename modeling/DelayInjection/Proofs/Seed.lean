import DelayInjection.Delay
import DelayInjection.Proofs.Text.Numeral
import Mathlib.Algebra.Ring.Int.Defs

/-! Seeds as text: a number that is printed is read back, wrapped to 32 bits, and the wrapped seed
leads to the same delays. -/

namespace DelayInjection

/-! ## Wrapping -/

theorem toInt32_bounds (n : Int) : -2 ^ 31 ≤ toInt32 n ∧ toInt32 n < 2 ^ 31 := by
  have hle := @Int.bmod_lt n 4294967296 (by decide)
  have hge := @Int.le_bmod n 4294967296 (by decide)
  rw [toInt32]
  omega

theorem isShort_toInt32 (n : Int) : IsShort (toInt32 n) := by
  obtain ⟨hge, hlt⟩ := toInt32_bounds n
  exact isShort_of_lt (k := 32) (by omega) (by decide)

theorem toInt32_toInt32 (n : Int) : toInt32 (toInt32 n) = toInt32 n := Int.bmod_bmod

theorem toInt32_emod (n : Int) : toInt32 n % 2 ^ 32 = n % 2 ^ 32 := by
  have := @Int.bmod_emod n 4294967296
  exact_mod_cast this

namespace Seed

/-- The word that a context adds to absorbs the wrapping. -/
theorem derive_toInt32 (base : Int) (context : String) :
    derive (toInt32 base) context = derive base context := by
  rw [derive, derive, toInt32, toInt32, toInt32, Int.bmod_add_bmod]

theorem milliseconds_toInt32 (seed : Int) (file container : String) (index low high : Int) :
    Delay.milliseconds (toInt32 seed) file container index low high =
      Delay.milliseconds seed file container index low high := by
  unfold Delay.milliseconds
  simp only [derive_toInt32]

theorem isShort_of_parse {picked : Int} (hpicked : IsShort picked) {value : Json} {seed : Int}
    (h : parse picked value = .ok seed) : IsShort seed := by
  unfold parse at h
  split at h
  · cases h
    exact hpicked
  · split at h
    · cases h
      exact isShort_toInt32 _
    · cases h
    · cases h

theorem parse_toString (picked : Int) {n : Int} (h : IsShort n) :
    parse picked (.str (toString n)) = .ok (toInt32 n) := by
  have hread := Text.parseInt_toString h
  have hauto : (Json.str (toString n)).isStr "auto" = false := by
    refine beq_eq_false_iff_ne.mpr fun heq => ?_
    rw [heq] at hread
    cases hread
  rw [parse, hauto, integer, hread]
  rfl

/-- A seed that is printed and read again is wrapped to 32 bits; wrapped, it is printed and read as
itself, and all points keep their delays. -/
theorem parse_printed (picked : Int) {n : Int} (h : IsShort n) :
    ∃ text seed, Text.showInt? n = some text ∧ parse picked (.str text) = .ok seed ∧
      seed = toInt32 n ∧ -2 ^ 31 ≤ seed ∧ seed < 2 ^ 31 ∧ seed % 2 ^ 32 = n % 2 ^ 32 ∧
      (∃ text', Text.showInt? seed = some text' ∧ parse picked (.str text') = .ok seed) ∧
      ∀ file container index low high, Delay.milliseconds seed file container index low high =
        Delay.milliseconds n file container index low high := by
  obtain ⟨hge, hlt⟩ := toInt32_bounds n
  have hshort := isShort_toInt32 n
  refine ⟨toString n, toInt32 n, showInt?_eq h, parse_toString picked h, rfl, hge, hlt,
    toInt32_emod n, ⟨toString (toInt32 n), showInt?_eq hshort, ?_⟩, milliseconds_toInt32 n⟩
  rw [parse_toString picked hshort, toInt32_toInt32]

theorem parse_printed_of_large : parse 0 (.str "-6000000000") = .ok (-1705032704) ∧
    parse 0 (.str "-1705032704") = .ok (-1705032704) ∧
    Delay.milliseconds (-1705032704) "a.py" "f" 0 0 50 =
      Delay.milliseconds (-6000000000) "a.py" "f" 0 0 50 := by
  obtain ⟨text, seed, htext, hseed, hwrapped, -, -, -, ⟨text', htext', hseed'⟩, hdelays⟩ :=
    parse_printed 0 (n := -6000000000) (isShort_of_lt (k := 33) (by decide) (by decide))
  have hvalue : seed = -1705032704 := hwrapped.trans (by decide +kernel)
  subst hvalue
  have hprinted : text = "-6000000000" :=
    (showInt?_eq_some_iff.mp htext).2.trans (by decide +kernel)
  have hprinted' : text' = "-1705032704" :=
    (showInt?_eq_some_iff.mp htext').2.trans (by decide +kernel)
  exact ⟨hprinted ▸ hseed, hprinted' ▸ hseed', hdelays "a.py" "f" 0 0 50⟩

end Seed
end DelayInjection
