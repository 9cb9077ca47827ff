import DelayInjection.SupportModule.Resolver

/-! The support module works with residues where injection works with words. For every request it
derives the delay of the point that the request names. -/

namespace DelayInjection

/-! ## Words and residues -/

theorem toNat_toWord (n : Int) : (toWord n).toNat = (n % 4294967296).toNat := by
  rw [toWord, UInt32.toNat_ofNat_of_lt']
  rw [UInt32.size]
  omega

/-- Wrapping an integer does not change the word that it is congruent to. -/
theorem toWord_toInt32 (n : Int) : toWord (toInt32 n) = toWord n := by
  rw [toWord, toInt32, show (4294967296 : Int) = ((4294967296 : Nat) : Int) from rfl, Int.bmod_emod]
  rfl

/-- A shift by five places and one addition multiply by thirty-three. -/
theorem Seed.toNat_hashStep (h : UInt32) (unit : Nat) :
    (hashStep h unit).toNat = (h.toNat * 33 + unit) % 4294967296 := by
  have hshift : (h <<< 5).toNat = h.toNat * 32 % 4294967296 := by
    rw [UInt32.toNat_shiftLeft, Nat.shiftLeft_eq]
    rfl
  rw [hashStep, UInt32.toNat_add, UInt32.toNat_add, hshift, UInt32.toNat_ofNat']
  omega

namespace SupportModule

theorem hashText_eq (text : String) : hashText text = (Seed.hash text).toNat := by
  have hfold : ∀ (units : List Nat) (h : UInt32),
      units.foldl (fun h unit => (h * 33 + unit) % wordSize) h.toNat =
        (units.foldl Seed.hashStep h).toNat := by
    intro units
    induction units with
    | nil => exact fun _ => rfl
    | cons unit units ih =>
      intro h
      rw [List.foldl_cons, List.foldl_cons, ← ih, Seed.toNat_hashStep, wordSize]
  exact hfold _ Seed.hashStart

/-- The first draw, step by step: each step on words leaves the residue that the same step on
residues leaves. -/
theorem firstDraw_toNat (state : UInt32) :
    firstDraw state.toNat = (Generator.mk state).next.1.toNat := by
  have hstate : (state + Generator.increment).toNat = (state.toNat + 0x6D2B79F5) % wordSize := by
    rw [UInt32.toNat_add]
    rfl
  have hproduct : ∀ s : UInt32, ((s ^^^ (s >>> 15)) * (1 ||| s)).toNat =
      (s.toNat ^^^ (s.toNat >>> 15)) * (1 ||| s.toNat) % wordSize := by
    intro s
    rw [UInt32.toNat_mul, UInt32.toNat_xor, UInt32.toNat_shiftRight, UInt32.toNat_or]
    rfl
  have hmixed : ∀ t : UInt32, ((t + (t ^^^ (t >>> 7)) * (61 ||| t)) ^^^ t).toNat =
      (t.toNat + (t.toNat ^^^ (t.toNat >>> 7)) * (61 ||| t.toNat) % wordSize) % wordSize ^^^
        t.toNat := by
    intro t
    rw [UInt32.toNat_xor, UInt32.toNat_add, UInt32.toNat_mul, UInt32.toNat_xor,
      UInt32.toNat_shiftRight, UInt32.toNat_or]
    rfl
  -- the last mask takes nothing away: shifts and differences of words stay words
  have hdraw : ∀ t : UInt32, (t ^^^ (t >>> 14)).toNat =
      (t.toNat ^^^ (t.toNat >>> 14)) % wordSize := by
    intro t
    have hword : (t ^^^ (t >>> 14)).toNat % wordSize = (t ^^^ (t >>> 14)).toNat :=
      Nat.mod_eq_of_lt (UInt32.toNat_lt _)
    rw [← hword, UInt32.toNat_xor, UInt32.toNat_shiftRight]
    rfl
  rw [Generator.next, hdraw, hmixed, hproduct, hstate]
  rfl

/-- The state in which both start for a context, and what they draw from it. -/
theorem firstDraw_eq (seed : Int) (context : String) :
    firstDraw ((seed + hashText context) % wordSize).toNat =
      (Generator.ofSeed (Seed.derive seed context)).next.1.toNat := by
  have hstart : ((seed + hashText context) % wordSize).toNat =
      (toWord (Seed.derive seed context)).toNat := by
    rw [Seed.derive, toWord_toInt32, toNat_toWord, hashText_eq]
    rfl
  rw [hstart, firstDraw_toNat, Generator.ofSeed]

/-! ## Requests -/

theorem resolve_eq (d : Defaults) (r : Request) :
    d.resolve r = Delay.milliseconds r.seed r.file r.function r.index
      (r.minDelay.getD d.minDelay) (r.maxDelay.getD d.maxDelay) := by
  unfold Defaults.resolve Delay.milliseconds
  cases Delay.context? r.file r.function r.index with
  | none => simp only
  | some context => simp only [firstDraw_eq]

/-- The range in force after some calls that set it: of each bound the last that was given. -/
theorem foldl_configure (d : Defaults) (calls : List (Option Int × Option Int)) :
    calls.foldl (fun d call => d.configure call.1 call.2) d =
      ⟨(calls.filterMap (·.1)).getLast?.getD d.minDelay,
        (calls.filterMap (·.2)).getLast?.getD d.maxDelay⟩ := by
  induction calls generalizing d with
  | nil => rfl
  | cons call calls ih =>
    obtain ⟨low, high⟩ := call
    rw [List.foldl_cons, ih]
    cases low <;> cases high <;> simp [Defaults.configure, List.getLast?_cons]

/-- After any calls that set the range, a request is answered with the delay that injection derives
for the same point and range, or fails as that does. A bound that the request leaves open is the last
one that was set, and 0 or 50 if none was. -/
theorem resolve_eq_milliseconds (calls : List (Option Int × Option Int)) (r : Request) :
    (calls.foldl (fun d call => d.configure call.1 call.2) ({} : Defaults)).resolve r =
      Delay.milliseconds r.seed r.file r.function r.index
        (r.minDelay.getD ((calls.filterMap (·.1)).getLast?.getD 0))
        (r.maxDelay.getD ((calls.filterMap (·.2)).getLast?.getD 50)) := by
  rw [foldl_configure, resolve_eq]

end SupportModule
end DelayInjection
