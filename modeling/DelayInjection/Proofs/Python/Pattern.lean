import DelayInjection.Proofs.Python.Expression

/-! The rules for patterns of Python take tokens one by one, too. -/

set_option mvcgen.warning false

namespace DelayInjection.Python

open Std.Do

namespace Rules

variable {g : Rules} {r₀ : Reader}

@[spec] theorem goesOnAsReference_spec :
    ⦃fun r => ⌜r = r₀⌝⦄ goesOnAsReference ⦃⇓? _ r => ⌜r.rest = r₀.rest⌝⦄ := by
  refine triple_of fun Q hQ => ?_
  mvcgen [goesOnAsReference] with grind -linarith

@[spec] theorem capture_spec :
    ⦃fun r => ⌜r = r₀⌝⦄ capture ⦃⇓? _ r => ⌜r.rest <:+ r₀.rest⌝⦄ := by
  refine triple_of fun Q hQ => ?_
  mvcgen [capture] with grind -linarith

@[spec] theorem numberPattern_spec :
    ⦃fun r => ⌜r = r₀⌝⦄ numberPattern ⦃⇓? _ r => ⌜r.rest <:+ r₀.rest⌝⦄ := by
  refine triple_of fun Q hQ => ?_
  mvcgen [numberPattern] with grind -linarith

@[spec] theorem literal_spec :
    ⦃fun r => ⌜r = r₀⌝⦄ g.literal ⦃⇓? _ r => ⌜r.rest <:+ r₀.rest⌝⦄ := by
  refine triple_of fun Q hQ => ?_
  mvcgen [literal] with grind -linarith

@[spec] theorem members_spec (fuel : Nat) :
    ⦃fun r => ⌜r = r₀⌝⦄ members fuel ⦃⇓? _ r => ⌜r.rest <:+ r₀.rest⌝⦄ := by
  induction fuel generalizing r₀ with
  | zero => mvcgen [members]
  | succ fuel ih =>
    refine triple_of fun Q hQ => ?_
    mvcgen [members, ih] with grind -linarith

@[spec] theorem keyPattern_spec :
    ⦃fun r => ⌜r = r₀⌝⦄ g.keyPattern ⦃⇓? _ r => ⌜r.rest <:+ r₀.rest⌝⦄ := by
  refine triple_of fun Q hQ => ?_
  mvcgen [keyPattern] with grind -linarith

variable [g.Steady]

@[spec] theorem parse_pattern_spec :
    ⦃fun r => ⌜r = r₀⌝⦄ g.parse .pattern
    ⦃⇓? p r => ⌜r.rest <:+ r₀.rest ∧ Opens r₀.rest p.line ∧
      (p.shape.text = true → Ends r₀.rest r.rest r.line)⌝⦄ :=
  Steady.parse r₀ .pattern

@[spec] theorem pattern_spec :
    ⦃fun r => ⌜r = r₀⌝⦄ g.pattern ⦃⇓? _ r => ⌜r.rest <:+ r₀.rest⌝⦄ := by
  refine triple_of fun Q hQ => ?_
  mvcgen [pattern] with grind -linarith

@[spec] theorem starredPattern_spec :
    ⦃fun r => ⌜r = r₀⌝⦄ g.starredPattern ⦃⇓? _ r => ⌜r.rest <:+ r₀.rest⌝⦄ := by
  refine triple_of fun Q hQ => ?_
  mvcgen [starredPattern] with grind -linarith

@[spec] theorem patternItems_spec (fuel : Nat) :
    ⦃fun r => ⌜r = r₀⌝⦄ g.patternItems fuel ⦃⇓? _ r => ⌜r.rest <:+ r₀.rest⌝⦄ := by
  induction fuel generalizing r₀ with
  | zero => mvcgen [patternItems]
  | succ fuel ih =>
    refine triple_of fun Q hQ => ?_
    mvcgen [patternItems, ih] with grind -linarith

@[spec] theorem openPattern_spec :
    ⦃fun r => ⌜r = r₀⌝⦄ g.openPattern ⦃⇓? _ r => ⌜r.rest <:+ r₀.rest⌝⦄ := by
  refine triple_of fun Q hQ => ?_
  mvcgen [openPattern] with grind -linarith

@[spec] theorem listPattern_spec :
    ⦃fun r => ⌜r = r₀⌝⦄ g.listPattern ⦃⇓? _ r => ⌜r.rest <:+ r₀.rest⌝⦄ := by
  refine triple_of fun Q hQ => ?_
  mvcgen [listPattern] with grind -linarith

@[spec] theorem mappingFrom_spec (fuel : Nat) :
    ⦃fun r => ⌜r = r₀⌝⦄ g.mappingFrom fuel ⦃⇓? _ r => ⌜r.rest <:+ r₀.rest⌝⦄ := by
  induction fuel generalizing r₀ with
  | zero => mvcgen [mappingFrom]
  | succ fuel ih =>
    refine triple_of fun Q hQ => ?_
    mvcgen [mappingFrom, ih] with grind -linarith

@[spec] theorem partsFrom_spec (named : Bool) (fuel : Nat) :
    ⦃fun r => ⌜r = r₀⌝⦄ g.partsFrom named fuel ⦃⇓? _ r => ⌜r.rest <:+ r₀.rest⌝⦄ := by
  induction fuel generalizing r₀ named with
  | zero => mvcgen [partsFrom]
  | succ fuel ih =>
    refine triple_of fun Q hQ => ?_
    mvcgen [partsFrom, ih] with grind -linarith

@[spec] theorem namePattern_spec :
    ⦃fun r => ⌜r = r₀⌝⦄ g.namePattern ⦃⇓? _ r => ⌜r.rest <:+ r₀.rest⌝⦄ := by
  refine triple_of fun Q hQ => ?_
  mvcgen [namePattern] with grind -linarith

@[spec] theorem closedPattern_spec :
    ⦃fun r => ⌜r = r₀⌝⦄ g.closedPattern ⦃⇓? _ r => ⌜r.rest <:+ r₀.rest⌝⦄ := by
  refine triple_of fun Q hQ => ?_
  mvcgen [closedPattern] with grind -linarith

@[spec] theorem choices_spec (fuel : Nat) :
    ⦃fun r => ⌜r = r₀⌝⦄ g.choices fuel ⦃⇓? _ r => ⌜r.rest <:+ r₀.rest⌝⦄ := by
  induction fuel generalizing r₀ with
  | zero => mvcgen [choices]
  | succ fuel ih =>
    refine triple_of fun Q hQ => ?_
    mvcgen [choices, ih] with grind -linarith

@[spec] theorem patternRule_spec :
    ⦃fun r => ⌜r = r₀⌝⦄ g.patternRule
    ⦃⇓? p r => ⌜r.rest <:+ r₀.rest ∧ Opens r₀.rest p.line ∧
      (p.shape.text = true → Ends r₀.rest r.rest r.line)⌝⦄ := by
  refine triple_of fun Q hQ => ?_
  mvcgen [patternRule] with grind -linarith

end Rules

theorem steady_parsePart (limit depth : Nat) : (Rules.mk limit (parsePart limit depth)).Steady := by
  induction depth with
  | zero => exact ⟨fun r₀ part => by mvcgen [parsePart]⟩
  | succ depth ih =>
    refine ⟨fun r₀ part => ?_⟩
    cases part with
    | expression => exact Rules.expressionRule_spec
    | factor => exact Rules.factorRule_spec
    | pattern => exact Rules.patternRule_spec

end DelayInjection.Python
