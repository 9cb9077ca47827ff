import DelayInjection.Proofs.Python.Token
import DelayInjection.Python.Statement
import Mathlib

/-! The rules for expressions of Python take tokens one by one, and where the expression is a text, the last
token that they took is the end of it. An expression starts in the line of a token. -/

set_option mvcgen.warning false

namespace DelayInjection.Python

open Std.Do

/-- The tokens are taken up to the rest, and the last one taken ends in the line. -/
def Ends (tokens rest : List Token) (line : Nat) : Prop :=
  ∃ taken t, tokens = taken ++ t :: rest ∧ t.endLine = line ∧ t.Final

@[grind →] theorem Ends.suffix {tokens rest : List Token} {line : Nat} (h : Ends tokens rest line) :
    rest <:+ tokens := by
  obtain ⟨taken, t, rfl, -⟩ := h
  exact ⟨taken ++ [t], by simp⟩

@[grind →] theorem Ends.of_suffix {tokens others rest : List Token} {line : Nat}
    (h : others <:+ tokens) (k : Ends others rest line) : Ends tokens rest line := by
  obtain ⟨before, rfl⟩ := h
  obtain ⟨taken, t, rfl, hend⟩ := k
  exact ⟨before ++ taken, t, by simp, hend⟩

/-- One of the tokens starts in the line. -/
def Opens (tokens : List Token) (line : Nat) : Prop := ∃ t ∈ tokens, t.line = line

@[grind →] theorem Opens.of_suffix {tokens rest : List Token} {line : Nat} (h : rest <:+ tokens)
    (k : Opens rest line) : Opens tokens line := by
  obtain ⟨t, ht, hline⟩ := k
  exact ⟨t, h.subset ht, hline⟩

@[grind →] theorem opens_of_head? {tokens : List Token} {t : Token} (h : tokens.head? = some t) :
    Opens tokens t.line :=
  ⟨t, List.mem_of_head? h, rfl⟩

attribute [grind →] List.IsSuffix.trans
attribute [grind .] List.suffix_refl

variable {α β : Type} {r₀ r : Reader} {p : Parse α} {P : α → Reader → Prop}

/-- The condition at the end stays unknown until the last call has its own. -/
theorem triple_of
    (h : ∀ Q : α → Reader → Prop, (∀ a r, P a r → Q a r) →
      ⦃fun r => ⌜r = r₀⌝⦄ p ⦃⇓? a r => ⌜Q a r⌝⦄) :
    ⦃fun r => ⌜r = r₀⌝⦄ p ⦃⇓? a r => ⌜P a r⌝⦄ :=
  h P fun _ _ => id

theorem triple_of_ok (h : ∀ a r, p r₀ = .ok a r → P a r) :
    ⦃fun r => ⌜r = r₀⌝⦄ p ⦃⇓? a r => ⌜P a r⌝⦄ := by
  rintro r rfl
  simp only [wp, PredTrans.apply, EStateM.run]
  cases hp : p r with
  | ok a r' => exact h a r' hp
  | error stop r' => trivial

theorem of_triple {a : α} (h : ⦃fun r => ⌜r = r₀⌝⦄ p ⦃⇓? a r => ⌜P a r⌝⦄) (hp : p r₀ = .ok a r) :
    P a r := by
  have hpost := h r₀ rfl
  simp only [wp, PredTrans.apply, EStateM.run, hp] at hpost
  exact hpost

namespace Parse

@[spec] theorem refuse_spec {Q : α → Assertion (.except Stop (.arg Reader .pure))} :
    ⦃fun _ => ⌜True⌝⦄ (refuse : Parse α) ⦃⇓? a => Q a⦄ :=
  fun _ _ => trivial

@[spec] theorem invalid_spec {Q : α → Assertion (.except Stop (.arg Reader .pure))} :
    ⦃fun _ => ⌜True⌝⦄ (invalid : Parse α) ⦃⇓? a => Q a⦄ :=
  fun _ _ => trivial

@[spec] theorem peek_spec :
    ⦃fun r => ⌜r = r₀⌝⦄ peek
    ⦃⇓? t r => ⌜r.rest = r₀.rest ∧ r.line = r₀.line ∧ r₀.rest.head? = some t⌝⦄ := by
  refine triple_of_ok fun t r h => ?_
  unfold peek at h
  split at h
  · cases h
  · simp only at h
    split at h <;> cases h
    simp_all

@[spec] theorem take_spec :
    ⦃fun r => ⌜r = r₀⌝⦄ take
    ⦃⇓? _ r => ⌜r.rest <:+ r₀.rest ∧ ∀ t, r₀.rest.head? = some t →
      r₀.rest = t :: r.rest ∧ (t.Final → Ends r₀.rest r.rest r.line)⌝⦄ := by
  refine triple_of_ok fun _ r h => ?_
  cases h
  simp only
  split
  next hrest => simp [hrest]
  next t rest hrest =>
    rw [hrest]
    refine ⟨List.suffix_cons t rest, fun t' ht => ?_⟩
    cases ht
    exact ⟨rfl, fun hfinal => ⟨[], t, rfl, rfl, hfinal⟩⟩

@[spec] theorem ahead_spec :
    ⦃fun r => ⌜r = r₀⌝⦄ ahead p ⦃⇓? _ r => ⌜r.rest = r₀.rest ∧ r.line = r₀.line⌝⦄ := by
  refine triple_of_ok fun a r h => ?_
  unfold ahead at h
  split at h
  · cases h
    exact ⟨rfl, rfl⟩
  next hne => exact absurd h (by intro h; exact hne _ _ h)

@[spec] theorem sees_spec (text : String) :
    ⦃fun r => ⌜r = r₀⌝⦄ sees text
    ⦃⇓? _ r => ⌜r.rest = r₀.rest ∧ r.line = r₀.line⌝⦄ := by
  mvcgen [sees] with grind -linarith

@[spec] theorem seesKind_spec (kind : TokenKind) :
    ⦃fun r => ⌜r = r₀⌝⦄ seesKind kind
    ⦃⇓? _ r => ⌜r.rest = r₀.rest ∧ r.line = r₀.line⌝⦄ := by
  mvcgen [seesKind] with grind -linarith

@[spec] theorem line_spec :
    ⦃fun r => ⌜r = r₀⌝⦄ line
    ⦃⇓? n r => ⌜r.rest = r₀.rest ∧ r.line = r₀.line ∧ Opens r₀.rest n⌝⦄ := by
  mvcgen [line] with grind -linarith

@[spec] theorem takes_spec (text : String) :
    ⦃fun r => ⌜r = r₀⌝⦄ takes text
    ⦃⇓? taken r => ⌜r.rest <:+ r₀.rest ∧
      (taken = false → r.rest = r₀.rest ∧ r.line = r₀.line) ∧
      (taken = true → (∃ t, r₀.rest = t :: r.rest ∧ t.text = text) ∧
        (text = ")" ∨ text = "*" → Ends r₀.rest r.rest r.line))⌝⦄ := by
  mvcgen [takes] with grind -linarith [Token.Final]

@[spec] theorem need_spec (text : String) :
    ⦃fun r => ⌜r = r₀⌝⦄ need text
    ⦃⇓? _ r => ⌜r.rest <:+ r₀.rest ∧ (∃ t, r₀.rest = t :: r.rest ∧ t.text = text) ∧
      (text = ")" ∨ text = "*" → Ends r₀.rest r.rest r.line)⌝⦄ := by
  mvcgen [need] with grind -linarith

@[spec] theorem needKind_spec (kind : TokenKind) :
    ⦃fun r => ⌜r = r₀⌝⦄ needKind kind
    ⦃⇓? _ r => ⌜r.rest <:+ r₀.rest ∧ ∃ t, r₀.rest = t :: r.rest ∧ t.kind = kind⌝⦄ := by
  refine triple_of fun Q hQ => ?_
  mvcgen [needKind] with grind -linarith

@[spec] theorem wordsFrom_spec (start : Reader) :
    ⦃fun r => ⌜r = r₀⌝⦄ wordsFrom start ⦃⇓? _ r => ⌜r = r₀⌝⦄ := by
  mvcgen [wordsFrom]

@[spec] theorem name_spec :
    ⦃fun r => ⌜r = r₀⌝⦄ name ⦃⇓? _ r => ⌜Ends r₀.rest r.rest r.line⌝⦄ := by
  refine triple_of fun Q hQ => ?_
  mvcgen [name] with grind -linarith [Token.Final, Token.isName]

@[spec] theorem normalName_spec :
    ⦃fun r => ⌜r = r₀⌝⦄ normalName ⦃⇓? _ r => ⌜Ends r₀.rest r.rest r.line⌝⦄ := by
  mvcgen [normalName] with grind -linarith

@[spec] theorem takesNameWith_spec (mark : String) :
    ⦃fun r => ⌜r = r₀⌝⦄ takesNameWith mark
    ⦃⇓? taken r => ⌜r.rest <:+ r₀.rest ∧
      (taken = false → r.rest = r₀.rest ∧ r.line = r₀.line)⌝⦄ := by
  mvcgen [takesNameWith] with grind -linarith

variable (r₀) in
theorem separated_spec {item : Parse α}
    (hitem : ∀ r₀, ⦃fun r => ⌜r = r₀⌝⦄ item ⦃⇓? _ r => ⌜Ends r₀.rest r.rest r.line⌝⦄) (fuel : Nat) :
    ⦃fun r => ⌜r = r₀⌝⦄ separated item fuel ⦃⇓? _ r => ⌜Ends r₀.rest r.rest r.line⌝⦄ := by
  induction fuel generalizing r₀ with
  | zero => mvcgen [separated]
  | succ fuel ih =>
    refine triple_of fun Q hQ => ?_
    mvcgen [separated, hitem, ih] with grind -linarith

end Parse

namespace Rules

variable {g : Rules}

@[spec] theorem takesComparison_spec :
    ⦃fun r => ⌜r = r₀⌝⦄ takesComparison
    ⦃⇓? taken r => ⌜r.rest <:+ r₀.rest ∧ (taken = false → r.rest = r₀.rest ∧ r.line = r₀.line)⌝⦄ := by
  refine triple_of fun Q hQ => ?_
  mvcgen [takesComparison] with grind -linarith

@[spec] theorem negations_spec (fuel : Nat) :
    ⦃fun r => ⌜r = r₀⌝⦄ negations fuel ⦃⇓? _ r => ⌜r.rest <:+ r₀.rest⌝⦄ := by
  induction fuel generalizing r₀ with
  | zero => mvcgen [negations]
  | succ fuel ih =>
    refine triple_of fun Q hQ => ?_
    mvcgen [negations, ih] with grind -linarith

@[spec] theorem opensLoop_spec :
    ⦃fun r => ⌜r = r₀⌝⦄ opensLoop ⦃⇓? _ r => ⌜r.rest = r₀.rest ∧ r.line = r₀.line⌝⦄ := by
  refine triple_of fun Q hQ => ?_
  mvcgen [opensLoop] with grind -linarith

@[spec] theorem behindParameter_spec (closing : String) :
    ⦃fun r => ⌜r = r₀⌝⦄ behindParameter closing ⦃⇓? _ r => ⌜r.rest <:+ r₀.rest⌝⦄ := by
  mvcgen [behindParameter] with grind -linarith

@[spec] theorem signs_spec (fuel : Nat) :
    ⦃fun r => ⌜r = r₀⌝⦄ signs fuel ⦃⇓? _ r => ⌜r.rest <:+ r₀.rest⌝⦄ := by
  induction fuel generalizing r₀ with
  | zero => mvcgen [signs]
  | succ fuel ih =>
    refine triple_of fun Q hQ => ?_
    mvcgen [signs, ih] with grind -linarith

@[spec] theorem field_spec (text : List Char) :
    ⦃fun r => ⌜r = r₀⌝⦄ g.field text ⦃⇓? _ r => ⌜r = r₀⌝⦄ := by
  refine triple_of_ok fun inner r h => ?_
  unfold field at h
  split at h <;> cases h
  rfl

/-! ## Rules that hold one another -/

/-- The parts of an expression keep to the tokens. -/
class Steady (g : Rules) : Prop where
  parse : ∀ (r₀ : Reader) (part : Part),
    ⦃fun r => ⌜r = r₀⌝⦄ g.parse part
    ⦃⇓? p r => ⌜r.rest <:+ r₀.rest ∧ Opens r₀.rest p.line ∧
      (p.shape.text = true → Ends r₀.rest r.rest r.line)⌝⦄

variable [g.Steady]

@[spec] theorem parse_factor_spec :
    ⦃fun r => ⌜r = r₀⌝⦄ g.parse .factor
    ⦃⇓? p r => ⌜r.rest <:+ r₀.rest ∧ Opens r₀.rest p.line ∧
      (p.shape.text = true → Ends r₀.rest r.rest r.line)⌝⦄ :=
  Steady.parse r₀ .factor

@[spec] theorem expression_spec :
    ⦃fun r => ⌜r = r₀⌝⦄ g.expression
    ⦃⇓? p r => ⌜r.rest <:+ r₀.rest ∧ Opens r₀.rest p.line ∧
      (p.shape.text = true → Ends r₀.rest r.rest r.line)⌝⦄ :=
  Steady.parse r₀ .expression

/-- A text that operators follow is none any more. -/
@[grind =] theorem text_combined (line : Nat) (first : Piece) (others : List Piece) :
    (combined line first others).shape.text = (first.shape.text && others.isEmpty) := by
  unfold combined
  cases others with
  | nil => simp
  | cons p others => simp [Shape.value]

@[grind =] theorem line_combined (line : Nat) (first : Piece) (others : List Piece) :
    (combined line first others).line = if others = [] then first.line else line := by
  unfold combined
  cases others <;> rfl

@[grind =] theorem text_value : Shape.value.text = false := rfl

@[grind =] theorem text_reference : Shape.reference.text = false := rfl

@[grind =] theorem text_collection (shapes : List Shape) : (Shape.collection shapes).text = false := rfl

@[grind =] theorem text_star (s : Shape) : s.star.text = false := rfl

@[spec] theorem operands_spec (fuel : Nat) :
    ⦃fun r => ⌜r = r₀⌝⦄ g.operands fuel
    ⦃⇓? ps r => ⌜r.rest <:+ r₀.rest ∧ (ps = [] → r.rest = r₀.rest ∧ r.line = r₀.line)⌝⦄ := by
  induction fuel generalizing r₀ with
  | zero => mvcgen [operands]
  | succ fuel ih =>
    refine triple_of fun Q hQ => ?_
    mvcgen [operands, ih] with grind -linarith

@[spec] theorem arithmetic_spec :
    ⦃fun r => ⌜r = r₀⌝⦄ g.arithmetic
    ⦃⇓? p r => ⌜r.rest <:+ r₀.rest ∧ Opens r₀.rest p.line ∧
      (p.shape.text = true → Ends r₀.rest r.rest r.line)⌝⦄ := by
  refine triple_of fun Q hQ => ?_
  mvcgen [arithmetic] with grind -linarith

@[spec] theorem compared_spec (fuel : Nat) :
    ⦃fun r => ⌜r = r₀⌝⦄ g.compared fuel
    ⦃⇓? ps r => ⌜r.rest <:+ r₀.rest ∧ (ps = [] → r.rest = r₀.rest ∧ r.line = r₀.line)⌝⦄ := by
  induction fuel generalizing r₀ with
  | zero => mvcgen [compared]
  | succ fuel ih =>
    refine triple_of fun Q hQ => ?_
    mvcgen [compared, ih] with grind -linarith

@[spec] theorem comparison_spec :
    ⦃fun r => ⌜r = r₀⌝⦄ g.comparison
    ⦃⇓? p r => ⌜r.rest <:+ r₀.rest ∧ Opens r₀.rest p.line ∧
      (p.shape.text = true → Ends r₀.rest r.rest r.line)⌝⦄ := by
  refine triple_of fun Q hQ => ?_
  mvcgen [comparison] with grind -linarith

@[spec] theorem alternatives_spec (fuel : Nat) :
    ⦃fun r => ⌜r = r₀⌝⦄ g.alternatives fuel
    ⦃⇓? ps r => ⌜r.rest <:+ r₀.rest ∧ (ps = [] → r.rest = r₀.rest ∧ r.line = r₀.line)⌝⦄ := by
  induction fuel generalizing r₀ with
  | zero => mvcgen [alternatives]
  | succ fuel ih =>
    refine triple_of fun Q hQ => ?_
    mvcgen [alternatives, ih] with grind -linarith

@[spec] theorem disjunction_spec :
    ⦃fun r => ⌜r = r₀⌝⦄ g.disjunction
    ⦃⇓? p r => ⌜r.rest <:+ r₀.rest ∧ Opens r₀.rest p.line ∧
      (p.shape.text = true → Ends r₀.rest r.rest r.line)⌝⦄ := by
  refine triple_of fun Q hQ => ?_
  mvcgen [disjunction] with grind -linarith

@[spec] theorem namedExpression_spec :
    ⦃fun r => ⌜r = r₀⌝⦄ g.namedExpression
    ⦃⇓? p r => ⌜r.rest <:+ r₀.rest ∧ Opens r₀.rest p.line ∧
      (p.shape.text = true → Ends r₀.rest r.rest r.line)⌝⦄ := by
  refine triple_of fun Q hQ => ?_
  mvcgen [namedExpression] with grind -linarith

@[spec] theorem starred_spec :
    ⦃fun r => ⌜r = r₀⌝⦄ g.starred
    ⦃⇓? p r => ⌜r.rest <:+ r₀.rest ∧ Opens r₀.rest p.line ∧
      (p.shape.text = true → Ends r₀.rest r.rest r.line)⌝⦄ := by
  refine triple_of fun Q hQ => ?_
  mvcgen [starred] with grind -linarith

@[spec] theorem namedItem_spec :
    ⦃fun r => ⌜r = r₀⌝⦄ g.namedItem
    ⦃⇓? p r => ⌜r.rest <:+ r₀.rest ∧ Opens r₀.rest p.line ∧
      (p.shape.text = true → Ends r₀.rest r.rest r.line)⌝⦄ := by
  refine triple_of fun Q hQ => ?_
  mvcgen [namedItem] with grind -linarith

@[spec] theorem item_spec :
    ⦃fun r => ⌜r = r₀⌝⦄ g.item
    ⦃⇓? p r => ⌜r.rest <:+ r₀.rest ∧ Opens r₀.rest p.line ∧
      (p.shape.text = true → Ends r₀.rest r.rest r.line)⌝⦄ := by
  refine triple_of fun Q hQ => ?_
  mvcgen [item] with grind -linarith

variable (r₀) in
theorem items_spec {item : Parse Piece}
    (hitem : ∀ r₀, ⦃fun r => ⌜r = r₀⌝⦄ item
      ⦃⇓? p r => ⌜r.rest <:+ r₀.rest ∧ Opens r₀.rest p.line ∧
        (p.shape.text = true → Ends r₀.rest r.rest r.line)⌝⦄)
    (fuel : Nat) :
    ⦃fun r => ⌜r = r₀⌝⦄ items item fuel
    ⦃⇓? ps r => ⌜r.rest <:+ r₀.rest ∧
      ∀ p, ps = ([p], false) → Opens r₀.rest p.line ∧
        (p.shape.text = true → Ends r₀.rest r.rest r.line)⌝⦄ := by
  induction fuel generalizing r₀ with
  | zero => mvcgen [items]
  | succ fuel ih =>
    refine triple_of fun Q hQ => ?_
    mvcgen [items, hitem, ih] with grind -linarith

@[spec] theorem items_namedItem_spec (fuel : Nat) :
    ⦃fun r => ⌜r = r₀⌝⦄ items g.namedItem fuel
    ⦃⇓? ps r => ⌜r.rest <:+ r₀.rest ∧
      ∀ p, ps = ([p], false) → Opens r₀.rest p.line ∧
        (p.shape.text = true → Ends r₀.rest r.rest r.line)⌝⦄ :=
  items_spec _ (fun _ => namedItem_spec) fuel

variable (r₀) in
omit [g.Steady] in
theorem itemsAsOne_spec {item : Parse Piece}
    (hitem : ∀ r₀, ⦃fun r => ⌜r = r₀⌝⦄ item
      ⦃⇓? p r => ⌜r.rest <:+ r₀.rest ∧ Opens r₀.rest p.line ∧
        (p.shape.text = true → Ends r₀.rest r.rest r.line)⌝⦄) :
    ⦃fun r => ⌜r = r₀⌝⦄ g.itemsAsOne item
    ⦃⇓? p r => ⌜r.rest <:+ r₀.rest ∧ Opens r₀.rest p.line ∧
      (p.shape.text = true → Ends r₀.rest r.rest r.line)⌝⦄ := by
  have hitems := fun r₀ => items_spec r₀ hitem g.limit
  refine triple_of fun Q hQ => ?_
  mvcgen [itemsAsOne, hitems] with grind -linarith [collection]

@[spec] theorem expressions_spec :
    ⦃fun r => ⌜r = r₀⌝⦄ g.expressions
    ⦃⇓? p r => ⌜r.rest <:+ r₀.rest ∧ Opens r₀.rest p.line ∧
      (p.shape.text = true → Ends r₀.rest r.rest r.line)⌝⦄ :=
  itemsAsOne_spec _ fun _ => item_spec

@[spec] theorem targets_spec :
    ⦃fun r => ⌜r = r₀⌝⦄ g.targets ⦃⇓? _ r => ⌜r.rest <:+ r₀.rest⌝⦄ := by
  have htarget : ∀ r₀, ⦃fun r => ⌜r = r₀⌝⦄ (do if ← Parse.sees "*" then g.starred else g.arithmetic)
      ⦃⇓? p r => ⌜r.rest <:+ r₀.rest ∧ Opens r₀.rest p.line ∧
        (p.shape.text = true → Ends r₀.rest r.rest r.line)⌝⦄ := by
    intro r₀
    refine triple_of fun Q hQ => ?_
    mvcgen with grind -linarith
  have hitems := fun r₀ => itemsAsOne_spec (g := g) r₀ htarget
  refine triple_of fun Q hQ => ?_
  mvcgen [targets, hitems] with grind -linarith

@[spec] theorem yieldExpression_spec :
    ⦃fun r => ⌜r = r₀⌝⦄ g.yieldExpression
    ⦃⇓? p r => ⌜r.rest <:+ r₀.rest ∧ Opens r₀.rest p.line ∧
      (p.shape.text = true → Ends r₀.rest r.rest r.line)⌝⦄ := by
  refine triple_of fun Q hQ => ?_
  mvcgen [yieldExpression] with grind -linarith

@[spec] theorem assigned_spec :
    ⦃fun r => ⌜r = r₀⌝⦄ g.assigned ⦃⇓? _ r => ⌜r.rest <:+ r₀.rest⌝⦄ := by
  refine triple_of fun Q hQ => ?_
  mvcgen [assigned] with grind -linarith

@[spec] theorem conditions_spec (fuel : Nat) :
    ⦃fun r => ⌜r = r₀⌝⦄ g.conditions fuel ⦃⇓? _ r => ⌜r.rest <:+ r₀.rest⌝⦄ := by
  induction fuel generalizing r₀ with
  | zero => mvcgen [conditions]
  | succ fuel ih =>
    refine triple_of fun Q hQ => ?_
    mvcgen [conditions, ih] with grind -linarith

@[spec] theorem loops_spec (fuel : Nat) :
    ⦃fun r => ⌜r = r₀⌝⦄ g.loops fuel ⦃⇓? _ r => ⌜r.rest <:+ r₀.rest⌝⦄ := by
  induction fuel generalizing r₀ with
  | zero => mvcgen [loops]
  | succ fuel ih =>
    refine triple_of fun Q hQ => ?_
    mvcgen [loops, ih] with grind -linarith

@[spec] theorem argument_spec (stage : ArgumentStage) :
    ⦃fun r => ⌜r = r₀⌝⦄ g.argument stage ⦃⇓? _ r => ⌜r.rest <:+ r₀.rest⌝⦄ := by
  refine triple_of fun Q hQ => ?_
  mvcgen [argument] with grind -linarith

@[spec] theorem argumentsFrom_spec (stage : ArgumentStage) (fuel : Nat) :
    ⦃fun r => ⌜r = r₀⌝⦄ g.argumentsFrom fuel stage ⦃⇓? _ r => ⌜r.rest <:+ r₀.rest⌝⦄ := by
  induction fuel generalizing r₀ stage with
  | zero => mvcgen [argumentsFrom]
  | succ fuel ih =>
    refine triple_of fun Q hQ => ?_
    mvcgen [argumentsFrom, ih] with grind -linarith

@[spec] theorem arguments_spec :
    ⦃fun r => ⌜r = r₀⌝⦄ g.arguments ⦃⇓? _ r => ⌜r.rest <:+ r₀.rest⌝⦄ := by
  refine triple_of fun Q hQ => ?_
  mvcgen [arguments] with grind -linarith

@[spec] theorem callArguments_spec :
    ⦃fun r => ⌜r = r₀⌝⦄ g.callArguments ⦃⇓? _ r => ⌜r.rest <:+ r₀.rest⌝⦄ := by
  refine triple_of fun Q hQ => ?_
  mvcgen [callArguments] with grind -linarith

@[spec] theorem bound_spec :
    ⦃fun r => ⌜r = r₀⌝⦄ g.bound ⦃⇓? _ r => ⌜r.rest <:+ r₀.rest⌝⦄ := by
  refine triple_of fun Q hQ => ?_
  mvcgen [bound] with grind -linarith

@[spec] theorem sliceRest_spec :
    ⦃fun r => ⌜r = r₀⌝⦄ g.sliceRest ⦃⇓? _ r => ⌜r.rest <:+ r₀.rest⌝⦄ := by
  refine triple_of fun Q hQ => ?_
  mvcgen [sliceRest] with grind -linarith

@[spec] theorem subscript_spec :
    ⦃fun r => ⌜r = r₀⌝⦄ g.subscript ⦃⇓? _ r => ⌜r.rest <:+ r₀.rest⌝⦄ := by
  refine triple_of fun Q hQ => ?_
  mvcgen [subscript] with grind -linarith

@[spec] theorem subscripts_spec (fuel : Nat) :
    ⦃fun r => ⌜r = r₀⌝⦄ g.subscripts fuel ⦃⇓? _ r => ⌜r.rest <:+ r₀.rest⌝⦄ := by
  induction fuel generalizing r₀ with
  | zero => mvcgen [subscripts]
  | succ fuel ih =>
    refine triple_of fun Q hQ => ?_
    mvcgen [subscripts, ih] with grind -linarith

/-- What follows a text makes it something else. -/
@[spec] theorem suffixes_spec (line fuel : Nat) (p : Piece) :
    ⦃fun r => ⌜r = r₀⌝⦄ g.suffixes line fuel p
    ⦃⇓? q r => ⌜r.rest <:+ r₀.rest ∧ (q.line = line ∨ q.line = p.line) ∧
      (q.shape.text = true → p.shape.text = true ∧ r.rest = r₀.rest ∧ r.line = r₀.line)⌝⦄ := by
  induction fuel generalizing r₀ p with
  | zero => mvcgen [suffixes]
  | succ fuel ih =>
    refine triple_of fun Q hQ => ?_
    mvcgen [suffixes, ih] with grind -linarith

@[spec] theorem parenthesised_spec (line : Nat) :
    ⦃fun r => ⌜r = r₀⌝⦄ g.parenthesised line
    ⦃⇓? p r => ⌜r.rest <:+ r₀.rest ∧ (p.line = line ∨ Opens r₀.rest p.line) ∧
      (p.shape.text = true → Ends r₀.rest r.rest r.line)⌝⦄ := by
  refine triple_of fun Q hQ => ?_
  mvcgen [parenthesised] with grind -linarith [collection]

@[spec] theorem bracketed_spec (line : Nat) :
    ⦃fun r => ⌜r = r₀⌝⦄ g.bracketed line
    ⦃⇓? p r => ⌜r.rest <:+ r₀.rest ∧ (p.line = line ∨ Opens r₀.rest p.line) ∧
      (p.shape.text = true → Ends r₀.rest r.rest r.line)⌝⦄ := by
  refine triple_of fun Q hQ => ?_
  mvcgen [bracketed] with grind -linarith [collection]

@[spec] theorem entry_spec :
    ⦃fun r => ⌜r = r₀⌝⦄ g.entry ⦃⇓? _ r => ⌜r.rest <:+ r₀.rest⌝⦄ := by
  refine triple_of fun Q hQ => ?_
  mvcgen [entry] with grind -linarith

@[spec] theorem entriesFrom_spec (fuel : Nat) :
    ⦃fun r => ⌜r = r₀⌝⦄ g.entriesFrom fuel ⦃⇓? _ r => ⌜r.rest <:+ r₀.rest⌝⦄ := by
  induction fuel generalizing r₀ with
  | zero => mvcgen [entriesFrom]
  | succ fuel ih =>
    refine triple_of fun Q hQ => ?_
    mvcgen [entriesFrom, ih] with grind -linarith

@[spec] theorem setRest_spec (first : Piece) :
    ⦃fun r => ⌜r = r₀⌝⦄ g.setRest first ⦃⇓? _ r => ⌜r.rest <:+ r₀.rest⌝⦄ := by
  refine triple_of fun Q hQ => ?_
  mvcgen [setRest] with grind -linarith

@[spec] theorem dictionaryRest_spec (key : List Inner) :
    ⦃fun r => ⌜r = r₀⌝⦄ g.dictionaryRest key ⦃⇓? _ r => ⌜r.rest <:+ r₀.rest⌝⦄ := by
  refine triple_of fun Q hQ => ?_
  mvcgen [dictionaryRest] with grind -linarith

@[spec] theorem braced_spec :
    ⦃fun r => ⌜r = r₀⌝⦄ g.braced ⦃⇓? _ r => ⌜r.rest <:+ r₀.rest⌝⦄ := by
  refine triple_of fun Q hQ => ?_
  mvcgen [braced] with grind -linarith

omit [g.Steady] in
@[spec] theorem fields_spec (texts : List (List Char)) :
    ⦃fun r => ⌜r = r₀⌝⦄ g.fields texts ⦃⇓? _ r => ⌜r = r₀⌝⦄ := by
  induction texts generalizing r₀ with
  | nil => mvcgen [fields]
  | cons text texts ih => mvcgen [fields, ih] with grind -linarith

@[spec] theorem quotedTexts_spec (fuel : Nat) :
    ⦃fun r => ⌜r = r₀⌝⦄ quotedTexts fuel
    ⦃⇓? qs r => ⌜r.rest <:+ r₀.rest ∧ (qs = [] → r.rest = r₀.rest ∧ r.line = r₀.line) ∧
      (qs ≠ [] → Ends r₀.rest r.rest r.line) ∧
      ∀ t, r₀.rest.head? = some t → t.kind = .text → qs ≠ []⌝⦄ := by
  induction fuel generalizing r₀ with
  | zero => mvcgen [quotedTexts]
  | succ fuel ih =>
    refine triple_of fun Q hQ => ?_
    mvcgen [quotedTexts, ih]
    · rename_i t htext r₁ hpeek _ r₂ htake qs r₃ hmore
      have hends : Ends r₀.rest r₃.rest r₃.line := by
        by_cases hqs : qs = [] <;> grind -linarith [Token.Final]
      exact hQ _ _ hends.suffix (fun h => (List.cons_ne_nil _ _ h).elim) (fun _ => hends)
        fun _ _ _ => List.cons_ne_nil _ _
    · grind -linarith

omit [g.Steady] in
@[spec] theorem quoted_spec (line : Nat) :
    ⦃fun r => ⌜r = r₀⌝⦄ g.quoted line
    ⦃⇓? p r => ⌜r.rest <:+ r₀.rest ∧ p.line = line ∧
      ∀ t, r₀.rest.head? = some t → t.kind = .text → Ends r₀.rest r.rest r.line⌝⦄ := by
  refine triple_of fun Q hQ => ?_
  mvcgen [quoted] with grind -linarith

@[spec] theorem atom_spec :
    ⦃fun r => ⌜r = r₀⌝⦄ g.atom
    ⦃⇓? p r => ⌜r.rest <:+ r₀.rest ∧ Opens r₀.rest p.line ∧
      (p.shape.text = true → Ends r₀.rest r.rest r.line)⌝⦄ := by
  refine triple_of fun Q hQ => ?_
  mvcgen [atom] with grind -linarith

@[spec] theorem primary_spec :
    ⦃fun r => ⌜r = r₀⌝⦄ g.primary
    ⦃⇓? p r => ⌜r.rest <:+ r₀.rest ∧ Opens r₀.rest p.line ∧
      (p.shape.text = true → Ends r₀.rest r.rest r.line)⌝⦄ := by
  refine triple_of fun Q hQ => ?_
  mvcgen [primary] with grind -linarith

@[spec] theorem factorRule_spec :
    ⦃fun r => ⌜r = r₀⌝⦄ g.factorRule
    ⦃⇓? p r => ⌜r.rest <:+ r₀.rest ∧ Opens r₀.rest p.line ∧
      (p.shape.text = true → Ends r₀.rest r.rest r.line)⌝⦄ := by
  refine triple_of fun Q hQ => ?_
  mvcgen [factorRule] with grind -linarith

@[spec] theorem declaredType_spec (annotated starred : Bool) :
    ⦃fun r => ⌜r = r₀⌝⦄ g.declaredType annotated starred ⦃⇓? _ r => ⌜r.rest <:+ r₀.rest⌝⦄ := by
  refine triple_of fun Q hQ => ?_
  mvcgen [declaredType] with grind -linarith

@[spec] theorem parametersFrom_spec (annotated : Bool) (closing : String) (stage : ParameterStage) (fuel : Nat) :
    ⦃fun r => ⌜r = r₀⌝⦄ g.parametersFrom annotated closing fuel stage
    ⦃⇓? _ r => ⌜r.rest <:+ r₀.rest⌝⦄ := by
  induction fuel generalizing r₀ stage with
  | zero => mvcgen [parametersFrom]
  | succ fuel ih =>
    refine triple_of fun Q hQ => ?_
    mvcgen [parametersFrom, ih] with grind -linarith

@[spec] theorem parameters_spec (annotated : Bool) (closing : String) :
    ⦃fun r => ⌜r = r₀⌝⦄ g.parameters annotated closing ⦃⇓? _ r => ⌜r.rest <:+ r₀.rest⌝⦄ := by
  refine triple_of fun Q hQ => ?_
  mvcgen [parameters] with grind -linarith

@[spec] theorem lambda_spec :
    ⦃fun r => ⌜r = r₀⌝⦄ g.lambda
    ⦃⇓? p r => ⌜r.rest <:+ r₀.rest ∧ Opens r₀.rest p.line ∧
      (p.shape.text = true → Ends r₀.rest r.rest r.line)⌝⦄ := by
  refine triple_of fun Q hQ => ?_
  mvcgen [lambda] with grind -linarith

@[spec] theorem expressionRule_spec :
    ⦃fun r => ⌜r = r₀⌝⦄ g.expressionRule
    ⦃⇓? p r => ⌜r.rest <:+ r₀.rest ∧ Opens r₀.rest p.line ∧
      (p.shape.text = true → Ends r₀.rest r.rest r.line)⌝⦄ := by
  refine triple_of fun Q hQ => ?_
  mvcgen [expressionRule] with grind -linarith

end Rules

end DelayInjection.Python
