import DelayInjection.Json.Reader
import Mathlib.Data.List.Infix

/-! A JSON text whose numbers all have a bearable length is read, or it has a fault at some character.
Only a run of more digits than are ever read ends the reading in another way. -/

namespace DelayInjection.Json

/-- Digits one behind the other, more of them than an integer may have. -/
def LongRun (text : List Char) (digits : Nat) : Prop :=
  ∃ run, run <:+: text ∧ run.length = digits ∧ Text.maxDigits < digits ∧ ∀ c ∈ run, isDigit c = true

/-- A step that goes on within the text, or stops there at a fault or at a long run of digits. -/
def Within {α : Type} (text : List Char) : Except ReadError (α × Place) → Prop
  | .ok (_, p) => p.rest <:+ text
  | .error (.syntaxAt _ _) => True
  | .error (.number digits) => LongRun text digits

variable {α β : Type} {text rest : List Char} {digits : Nat}

theorem LongRun.of_suffix (h : LongRun rest digits) (k : rest <:+ text) : LongRun text digits := by
  obtain ⟨run, hrun, hlength, hlong, hdigits⟩ := h
  exact ⟨run, hrun.trans k.isInfix, hlength, hlong, hdigits⟩

namespace Within

theorem of_suffix {x : Except ReadError (α × Place)} (h : Within rest x) (k : rest <:+ text) :
    Within text x := by
  match x, h with
  | .ok (_, p), h => exact List.IsSuffix.trans h k
  | .error (.syntaxAt _ _), _ => trivial
  | .error (.number _), h => exact LongRun.of_suffix h k

theorem bind {x : Except ReadError (α × Place)} {f : α × Place → Except ReadError (β × Place)}
    (hx : Within text x) (hf : ∀ a p, p.rest <:+ text → Within text (f (a, p))) :
    Within text (x >>= f) := by
  match x, hx with
  | .ok (a, p), hx => exact hf a p hx
  | .error (.syntaxAt _ _), _ => trivial
  | .error (.number _), hx => exact hx

end Within

theorem Place.suffix_advance (p : Place) (n : Nat) : (p.advance n).rest <:+ p.rest :=
  List.drop_suffix _ _

theorem Place.suffix_skipGaps (p : Place) : p.skipGaps.rest <:+ p.rest := p.suffix_advance _

theorem within_fail (fault : Fault) (p : Place) :
    Within text (fail fault p : Except ReadError (α × Place)) := trivial

/-! ## Scalars -/

theorem within_readUnicode (p : Place) : Within p.rest (readUnicode p) := by
  have hdigits := p.suffix_advance 1
  have hnext := ((p.advance 1).suffix_advance 4).trans hdigits
  unfold readUnicode
  simp only
  split
  · exact within_fail _ _
  · split
    · exact within_fail _ _
    · split
      · split
        · split
          · exact within_fail _ _
          · split
            · exact (Place.suffix_advance _ 6).trans hnext
            · exact hnext
        · exact hnext
      · exact hnext

theorem within_readString (start : Place) (fuel : Nat) (p : Place) (done : List Char) :
    Within p.rest (readString start fuel p done) := by
  induction fuel generalizing p done with
  | zero => exact within_fail _ _
  | succ fuel ih =>
    have hnext : ∀ n done, Within p.rest (readString start fuel (p.advance n) done) :=
      fun n done => (ih _ _).of_suffix (p.suffix_advance n)
    unfold readString
    split
    · exact within_fail _ _
    · exact p.suffix_advance 1
    · exact ((within_readUnicode _).of_suffix (p.suffix_advance 1)).bind
        fun c q hq => (ih q _).of_suffix hq
    · split
      · exact hnext 2 _
      · exact within_fail _ _
    · exact within_fail _ _
    · split
      · exact within_fail _ _
      · exact hnext 1 _

/-- Only a whole number can have too many digits, and they stand in the text. -/
theorem within_readNumber (p : Place) : Within p.rest (readNumber p) := by
  fun_cases readNumber p with
  | case1 => exact within_fail _ _
  | case2 negative body hsign whole hne places rest hplaces exponent taken htaken hwhole hlong =>
    have hbody : body <:+ p.rest := by
      split at hsign <;> cases hsign <;> simp [*]
    have hrun : whole <+: body ∧ ∀ c ∈ whole, isDigit c = true := by
      unfold whole
      split
      · exact ⟨by simp, List.forall_mem_singleton.mpr (by decide)⟩
      · exact ⟨List.takeWhile_prefix _, List.all_eq_true.mp List.all_takeWhile⟩
    exact ⟨whole, hrun.1.isInfix.trans hbody.isInfix, rfl, hlong, hrun.2⟩
  | case3 => exact p.suffix_advance _
  | case4 => exact p.suffix_advance _

theorem within_readScalar (p : Place) : Within p.rest (readScalar p) := by
  unfold readScalar
  split
  · exact p.suffix_advance _
  · exact within_readNumber p

/-! ## Values -/

/-- The step of the induction on the depth: the readers of the parts keep within the text. -/
theorem within_readValue_succ {fuel : Nat}
    (hitems : ∀ p, Within p.rest (readItems fuel p))
    (hmembers : ∀ p, Within p.rest (readMembers fuel p)) (p : Place) :
    Within p.rest (readValue (fuel + 1) p) := by
  have hskip := (p.advance 1).suffix_skipGaps.trans (p.suffix_advance 1)
  unfold readValue
  split
  · exact ((within_readString _ _ _ _).of_suffix (p.suffix_advance 1)).bind fun _ _ hq => hq
  · simp only
    split
    · exact (Place.suffix_advance _ 1).trans hskip
    · exact ((hitems _).of_suffix hskip).bind fun _ _ hq => hq
  · simp only
    split
    · exact (Place.suffix_advance _ 1).trans hskip
    · exact ((hmembers _).of_suffix hskip).bind fun _ _ hq => hq
  · exact within_readScalar p

theorem within_readItems_succ {fuel : Nat} (hvalue : ∀ p, Within p.rest (readValue fuel p))
    (hitems : ∀ p, Within p.rest (readItems fuel p)) (p : Place) :
    Within p.rest (readItems (fuel + 1) p) := by
  unfold readItems
  refine (hvalue p).bind fun v q hq => ?_
  have hskip := q.suffix_skipGaps.trans hq
  have hmore := (Place.suffix_skipGaps _).trans ((q.skipGaps.suffix_advance 1).trans hskip)
  simp only
  split
  · exact (Place.suffix_advance _ 1).trans hskip
  · exact ((hitems _).of_suffix hmore).bind fun _ _ hr => hr
  · exact within_fail _ _

theorem within_readMembers_succ {fuel : Nat} (hvalue : ∀ p, Within p.rest (readValue fuel p))
    (hmembers : ∀ p, Within p.rest (readMembers fuel p)) (p : Place) :
    Within p.rest (readMembers (fuel + 1) p) := by
  unfold readMembers
  split
  · refine ((within_readString _ _ _ _).of_suffix (p.suffix_advance 1)).bind fun n q hq => ?_
    have hcolon := q.suffix_skipGaps.trans hq
    simp only
    split
    · have hbehind := (Place.suffix_skipGaps _).trans ((q.skipGaps.suffix_advance 1).trans hcolon)
      refine ((hvalue _).of_suffix hbehind).bind fun v r hr => ?_
      have hskip := r.suffix_skipGaps.trans hr
      have hmore := (Place.suffix_skipGaps _).trans ((r.skipGaps.suffix_advance 1).trans hskip)
      simp only
      split
      · exact (Place.suffix_advance _ 1).trans hskip
      · exact ((hmembers _).of_suffix hmore).bind fun _ _ hr => hr
      · exact within_fail _ _
    · exact within_fail _ _
  · exact within_fail _ _

theorem within_read (fuel : Nat) (p : Place) : Within p.rest (readValue fuel p) ∧
    Within p.rest (readItems fuel p) ∧ Within p.rest (readMembers fuel p) := by
  induction fuel generalizing p with
  | zero => exact ⟨within_fail _ _, within_fail _ _, within_fail _ _⟩
  | succ fuel ih =>
    have hvalue := fun q => (ih q).1
    have hitems := fun q => (ih q).2.1
    have hmembers := fun q => (ih q).2.2
    exact ⟨within_readValue_succ hitems hmembers p, within_readItems_succ hvalue hitems p,
      within_readMembers_succ hvalue hmembers p⟩

/-- A number that is refused for its length stands in the text. -/
theorem longRun_of_parse (h : parse text = .error (.number digits)) : LongRun text digits := by
  let start : Place := ⟨text, 0⟩
  have hwithin := (within_read (text.length + 1) start.skipGaps).1.of_suffix start.suffix_skipGaps
  unfold parse at h
  simp only at h
  split at h
  · cases h
  · cases hvalue : readValue (text.length + 1) start.skipGaps with
    | error e =>
      rw [hvalue] at h hwithin
      cases h
      exact hwithin
    | ok r =>
      rw [hvalue] at h
      change (if _ then Except.ok r.1 else fail .extra _) = _ at h
      split at h <;> cases h

end DelayInjection.Json
