import DelayInjection.Proofs.Python.Pattern

/-! Simple statements of Python take tokens one by one. Where one is a text or an import, the last token that
it took is the end of it. -/

set_option mvcgen.warning false

namespace DelayInjection.Python

open Std.Do

/-- A text, or an import. -/
def StatementKind.opens : StatementKind → Bool
  | .text | .imports _ | .importsFrom _ _ => true
  | _ => false

def Statement.Settled (tokens : List Token) (s : Statement) : Prop :=
  s.kind.opens = true → ∃ rest, Ends tokens rest s.extent.endLine

@[grind →] theorem Statement.Settled.of_suffix {tokens rest : List Token} {s : Statement}
    (h : rest <:+ tokens) (k : s.Settled rest) : s.Settled tokens := by
  intro hopens
  obtain ⟨behind, hends⟩ := k hopens
  exact ⟨behind, hends.of_suffix h⟩

/-- The statement starts with one of the tokens. -/
def Statement.Starts (tokens : List Token) (s : Statement) : Prop :=
  ∃ t ∈ tokens, t.line = s.extent.line ∧ t.column = s.extent.column

@[grind →] theorem Statement.Starts.of_suffix {tokens rest : List Token} {s : Statement}
    (h : rest <:+ tokens) (k : s.Starts rest) : s.Starts tokens := by
  obtain ⟨t, ht, hplace⟩ := k
  exact ⟨t, h.subset ht, hplace⟩

@[grind .] theorem Statement.starts_node {tokens : List Token} {t : Token} (kind : StatementKind)
    (endLine : Nat) (decorators : List Decorator) (clauses : List Clause)
    (h : tokens.head? = some t) :
    (Statement.node kind ⟨t.line, t.column, endLine⟩ decorators clauses).Starts tokens :=
  ⟨t, List.mem_of_head? h, rfl, rfl⟩

/-- It has neither decorators nor blocks. -/
def Statement.Simple (s : Statement) : Prop :=
  s.decorators = [] ∧ ∀ c ∈ s.clauses, c.block = []

@[grind .] theorem Statement.simple_node (kind : StatementKind) (extent : Extent)
    (words : List String) (inner : List Inner) :
    (Statement.node kind extent [] [.clause words inner []]).Simple :=
  ⟨rfl, fun _ hc => List.mem_singleton.mp hc ▸ rfl⟩

namespace Rules

variable {g : Rules} {r₀ : Reader}

@[spec] theorem dottedName_spec (fuel : Nat) :
    ⦃fun r => ⌜r = r₀⌝⦄ dottedName fuel ⦃⇓? _ r => ⌜Ends r₀.rest r.rest r.line⌝⦄ := by
  induction fuel generalizing r₀ with
  | zero => mvcgen [dottedName]
  | succ fuel ih =>
    refine triple_of fun Q hQ => ?_
    mvcgen [dottedName, ih] with grind -linarith

@[spec] theorem dotted_spec :
    ⦃fun r => ⌜r = r₀⌝⦄ g.dotted ⦃⇓? _ r => ⌜Ends r₀.rest r.rest r.line⌝⦄ := by
  mvcgen [dotted] with grind -linarith

@[spec] theorem boundAs_spec (name : String) :
    ⦃fun r => ⌜r = r₀⌝⦄ boundAs name
    ⦃⇓? _ r => ⌜(r.rest = r₀.rest ∧ r.line = r₀.line) ∨ Ends r₀.rest r.rest r.line⌝⦄ := by
  refine triple_of fun Q hQ => ?_
  mvcgen [boundAs] with grind -linarith

@[spec] theorem importStatement_spec :
    ⦃fun r => ⌜r = r₀⌝⦄ g.importStatement ⦃⇓? _ r => ⌜Ends r₀.rest r.rest r.line⌝⦄ := by
  have hitem : ∀ r₀, ⦃fun r => ⌜r = r₀⌝⦄ (do boundAs (← g.dotted))
      ⦃⇓? _ r => ⌜Ends r₀.rest r.rest r.line⌝⦄ := by
    intro r₀
    refine triple_of fun Q hQ => ?_
    mvcgen with grind -linarith
  have hnames := fun r₀ => Parse.separated_spec r₀ hitem g.limit
  refine triple_of fun Q hQ => ?_
  mvcgen [importStatement, hnames] with grind -linarith

@[spec] theorem dots_spec (fuel : Nat) :
    ⦃fun r => ⌜r = r₀⌝⦄ dots fuel ⦃⇓? _ r => ⌜r.rest <:+ r₀.rest⌝⦄ := by
  induction fuel generalizing r₀ with
  | zero => mvcgen [dots]
  | succ fuel ih =>
    refine triple_of fun Q hQ => ?_
    mvcgen [dots, ih] with grind -linarith

@[spec] theorem namesInParentheses_spec (fuel : Nat) :
    ⦃fun r => ⌜r = r₀⌝⦄ namesInParentheses fuel ⦃⇓? _ r => ⌜Ends r₀.rest r.rest r.line⌝⦄ := by
  induction fuel generalizing r₀ with
  | zero => mvcgen [namesInParentheses]
  | succ fuel ih =>
    refine triple_of fun Q hQ => ?_
    mvcgen [namesInParentheses, ih] with grind -linarith

@[spec] theorem importFromStatement_spec :
    ⦃fun r => ⌜r = r₀⌝⦄ g.importFromStatement ⦃⇓? _ r => ⌜Ends r₀.rest r.rest r.line⌝⦄ := by
  have hitem : ∀ r₀, ⦃fun r => ⌜r = r₀⌝⦄ (do boundAs (← Parse.normalName))
      ⦃⇓? _ r => ⌜Ends r₀.rest r.rest r.line⌝⦄ := by
    intro r₀
    refine triple_of fun Q hQ => ?_
    mvcgen with grind -linarith
  have hnames := fun r₀ => Parse.separated_spec r₀ hitem g.limit
  refine triple_of fun Q hQ => ?_
  mvcgen [importFromStatement, hnames] with grind -linarith

section Steady

variable [g.Steady]

@[spec] theorem assignedValues_spec (fuel : Nat) :
    ⦃fun r => ⌜r = r₀⌝⦄ g.assignedValues fuel ⦃⇓? _ r => ⌜r.rest <:+ r₀.rest⌝⦄ := by
  induction fuel generalizing r₀ with
  | zero => mvcgen [assignedValues]
  | succ fuel ih =>
    refine triple_of fun Q hQ => ?_
    mvcgen [assignedValues, ih] with grind -linarith

@[spec] theorem expressionStatement_spec :
    ⦃fun r => ⌜r = r₀⌝⦄ g.expressionStatement
    ⦃⇓? s r => ⌜r.rest <:+ r₀.rest ∧ (s.1.opens = true → Ends r₀.rest r.rest r.line)⌝⦄ := by
  refine triple_of fun Q hQ => ?_
  mvcgen [expressionStatement] with grind -linarith [StatementKind.opens, other]

@[spec] theorem deleteStatement_spec :
    ⦃fun r => ⌜r = r₀⌝⦄ g.deleteStatement
    ⦃⇓? s r => ⌜r.rest <:+ r₀.rest ∧ s.1.opens = false⌝⦄ := by
  have hitems := fun r₀ => items_spec r₀ (fun _ => g.arithmetic_spec) g.limit
  refine triple_of fun Q hQ => ?_
  mvcgen [deleteStatement, hitems] with grind -linarith [StatementKind.opens, other]

@[spec] theorem oneOrTwo_spec (between : String) :
    ⦃fun r => ⌜r = r₀⌝⦄ g.oneOrTwo between ⦃⇓? _ r => ⌜r.rest <:+ r₀.rest⌝⦄ := by
  refine triple_of fun Q hQ => ?_
  mvcgen [oneOrTwo] with grind -linarith

@[spec] theorem simple_spec :
    ⦃fun r => ⌜r = r₀⌝⦄ g.simple
    ⦃⇓? s r => ⌜r.rest <:+ r₀.rest ∧ (s.1.opens = true → Ends r₀.rest r.rest r.line)⌝⦄ := by
  have hnames := fun r₀ => Parse.separated_spec r₀ (fun _ => Parse.name_spec) g.limit
  refine triple_of fun Q hQ => ?_
  mvcgen [simple, hnames] with grind -linarith [StatementKind.opens, other]

@[spec] theorem simpleStatement_spec :
    ⦃fun r => ⌜r = r₀⌝⦄ g.simpleStatement
    ⦃⇓? s r => ⌜r.rest <:+ r₀.rest ∧ s.Settled r₀.rest ∧ s.Starts r₀.rest ∧ s.Simple⌝⦄ := by
  refine triple_of fun Q hQ => ?_
  mvcgen [simpleStatement] with
    grind -linarith [Statement.Settled, Statement.kind, Statement.extent]

@[spec] theorem simpleStatements_spec (fuel : Nat) :
    ⦃fun r => ⌜r = r₀⌝⦄ g.simpleStatements fuel
    ⦃⇓? ss r => ⌜r.rest <:+ r₀.rest ∧
      ∀ s ∈ ss, s.Settled r₀.rest ∧ s.Starts r₀.rest ∧ s.Simple⌝⦄ := by
  induction fuel generalizing r₀ with
  | zero => mvcgen [simpleStatements]
  | succ fuel ih =>
    refine triple_of fun Q hQ => ?_
    mvcgen [simpleStatements, ih] with grind -linarith

end Steady
end Rules

end DelayInjection.Python
