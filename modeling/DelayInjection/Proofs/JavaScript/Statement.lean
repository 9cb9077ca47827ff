import DelayInjection.JavaScript.Layout
import DelayInjection.Proofs.Injection.Prefix
import DelayInjection.Proofs.JavaScript.Expression
import DelayInjection.Proofs.JavaScript.Walk

/-! Statements keep to the text: their nodes start where the cursor comes to, and an import ends behind
ink. -/

set_option mvcgen.warning false

namespace DelayInjection.JavaScript

open Cursor (Reaches Inks)
open Std.Do
open Text (Inked lastLine)

namespace Rules

variable {c₀ : Cursor} {g : Rules}

@[spec] theorem opensDeclaration_spec :
    ⦃fun c => ⌜c = c₀⌝⦄ g.opensDeclaration ⦃⇓? _ c => ⌜c₀.Reaches c⌝⦄ := by
  refine triple_of fun Q hQ => ?_
  mvcgen [opensDeclaration] with grind -linarith

@[spec] theorem seesNamed_spec (keyword : String) :
    ⦃fun c => ⌜c = c₀⌝⦄ g.seesNamed keyword ⦃⇓? _ c => ⌜c₀.Reaches c⌝⦄ := by
  refine triple_of fun Q hQ => ?_
  mvcgen [seesNamed] with grind -linarith

@[spec] theorem seesAsyncDeclaration_spec :
    ⦃fun c => ⌜c = c₀⌝⦄ g.seesAsyncDeclaration ⦃⇓? _ c => ⌜c₀.Reaches c⌝⦄ := by
  refine triple_of fun Q hQ => ?_
  mvcgen [seesAsyncDeclaration] with grind -linarith

@[spec] theorem listedName_spec :
    ⦃fun c => ⌜c = c₀⌝⦄ g.listedName ⦃⇓? _ c => ⌜c₀.Reaches c⌝⦄ := by
  refine triple_of fun Q hQ => ?_
  mvcgen [listedName] with grind -linarith

@[spec] theorem importEntry_spec :
    ⦃fun c => ⌜c = c₀⌝⦄ g.importEntry ⦃⇓? _ c => ⌜c₀.Reaches c⌝⦄ := by
  refine triple_of fun Q hQ => ?_
  mvcgen [importEntry] with grind -linarith

@[spec] theorem exportEntry_spec :
    ⦃fun c => ⌜c = c₀⌝⦄ g.exportEntry ⦃⇓? _ c => ⌜c₀.Reaches c⌝⦄ := by
  refine triple_of fun Q hQ => ?_
  mvcgen [exportEntry] with grind -linarith

@[spec] theorem entries_spec {entry : Scan Unit}
    (hentry : ∀ c₀, ⦃fun c => ⌜c = c₀⌝⦄ entry ⦃⇓? _ c => ⌜c₀.Reaches c⌝⦄) (fuel : Nat) :
    ⦃fun c => ⌜c = c₀⌝⦄ g.entries entry fuel ⦃⇓? _ c => ⌜c₀.Reaches c⌝⦄ := by
  induction fuel generalizing c₀ with
  | zero => mvcgen [entries]
  | succ fuel ih =>
    refine triple_of fun Q hQ => ?_
    mvcgen [entries, hentry, ih] with grind -linarith

@[spec] theorem importList_spec :
    ⦃fun c => ⌜c = c₀⌝⦄ g.importList ⦃⇓? _ c => ⌜c₀.Reaches c⌝⦄ := by
  refine triple_of fun Q hQ => ?_
  mvcgen [importList] with grind -linarith

@[spec] theorem importClause_spec :
    ⦃fun c => ⌜c = c₀⌝⦄ g.importClause ⦃⇓? _ c => ⌜c₀.Reaches c⌝⦄ := by
  refine triple_of fun Q hQ => ?_
  mvcgen [importClause] with grind -linarith

@[spec] theorem source_spec :
    ⦃fun c => ⌜c = c₀⌝⦄ g.source ⦃⇓? _ c => ⌜c₀.Inks c⌝⦄ := by
  refine triple_of fun Q hQ => ?_
  mvcgen [source] with grind -linarith

@[spec] theorem jump_spec (start : Place) (w : String) :
    ⦃fun c => ⌜c = c₀⌝⦄ g.jump start w
    ⦃⇓? t c => ⌜c₀.Reaches c ∧ t.Settled c₀ ∧
      ∀ a : Cursor, a.Reaches c₀ → a.Comes start → t.Stems a⌝⦄ := by
  refine triple_of fun Q hQ => ?_
  mvcgen [jump] with grind -linarith

section Steady

variable [g.Steady]

@[spec] theorem condition_spec :
    ⦃fun c => ⌜c = c₀⌝⦄ g.condition ⦃⇓? ts c => ⌜c₀.Reaches c ∧ ForestStems c₀ ts⌝⦄ := by
  refine triple_of fun Q hQ => ?_
  mvcgen [condition] with grind -linarith

@[spec] theorem inner_spec :
    ⦃fun c => ⌜c = c₀⌝⦄ g.inner ⦃⇓? ts c => ⌜c₀.Reaches c ∧ ForestStems c₀ ts⌝⦄ := by
  refine triple_of fun Q hQ => ?_
  mvcgen [inner] with grind -linarith

@[spec] theorem binding_spec :
    ⦃fun c => ⌜c = c₀⌝⦄ g.binding ⦃⇓? ts c => ⌜c₀.Reaches c ∧ ForestStems c₀ ts⌝⦄ := by
  refine triple_of fun Q hQ => ?_
  mvcgen [binding] with grind -linarith

@[spec] theorem declarators_spec (fuel : Nat) :
    ⦃fun c => ⌜c = c₀⌝⦄ g.declarators fuel ⦃⇓? ts c => ⌜c₀.Reaches c ∧ ForestStems c₀ ts⌝⦄ := by
  induction fuel generalizing c₀ with
  | zero => mvcgen [declarators]
  | succ fuel ih =>
    refine triple_of fun Q hQ => ?_
    mvcgen [declarators, ih] with grind -linarith

@[spec] theorem declaredVariables_spec :
    ⦃fun c => ⌜c = c₀⌝⦄ g.declaredVariables
    ⦃⇓? t c => ⌜c₀.Reaches c ∧ t.Settled c₀ ∧ t.Stems c₀⌝⦄ := by
  refine triple_of fun Q hQ => ?_
  mvcgen [declaredVariables] with grind -linarith

@[spec] theorem functionDeclaration_spec :
    ⦃fun c => ⌜c = c₀⌝⦄ g.functionDeclaration
    ⦃⇓? t c => ⌜c₀.Reaches c ∧ t.Settled c₀ ∧ t.Stems c₀⌝⦄ := by
  refine triple_of fun Q hQ => ?_
  mvcgen [functionDeclaration] with grind -linarith

@[spec] theorem classDeclaration_spec (start : Place) (decorated : List Tree) :
    ⦃fun c => ⌜c = c₀⌝⦄ g.classDeclaration start decorated
    ⦃⇓? t c => ⌜c₀.Reaches c ∧ t.Settled c₀ ∧
      ∀ a : Cursor, a.Reaches c₀ → a.Comes start → ForestStems a decorated → t.Stems a⌝⦄ := by
  refine triple_of fun Q hQ => ?_
  mvcgen [classDeclaration] with grind -linarith

@[spec] theorem declaration_spec :
    ⦃fun c => ⌜c = c₀⌝⦄ g.declaration ⦃⇓? t c => ⌜c₀.Reaches c ∧ t.Stems c₀⌝⦄ := by
  refine triple_of fun Q hQ => ?_
  mvcgen [declaration] with grind -linarith

@[spec] theorem importTail_spec :
    ⦃fun c => ⌜c = c₀⌝⦄ g.importTail
    ⦃⇓? ts c => ⌜c₀.Reaches c ∧ (c = c₀ ∨ c₀.Inks c) ∧ ForestStems c₀ ts⌝⦄ := by
  have hink : Ink ";" := inked_of_front (by decide) (by decide)
  refine triple_of fun Q hQ => ?_
  mvcgen [importTail] with grind -linarith

@[spec] theorem importRule_spec (start : Place) :
    ⦃fun c => ⌜c = c₀⌝⦄ g.importRule start
    ⦃⇓? t c => ⌜c₀.Reaches c ∧ t.Settled c₀ ∧
      ∀ a : Cursor, a.Reaches c₀ → a.Comes start → t.Stems a⌝⦄ := by
  refine triple_of fun Q hQ => ?_
  mvcgen [importRule] with grind -linarith

@[spec] theorem exportedDefault_spec :
    ⦃fun c => ⌜c = c₀⌝⦄ g.exportedDefault ⦃⇓? ts c => ⌜c₀.Reaches c ∧ ForestStems c₀ ts⌝⦄ := by
  refine triple_of fun Q hQ => ?_
  mvcgen [exportedDefault] with grind -linarith

@[spec] theorem exported_spec (start : Place) (decorated : List Tree) :
    ⦃fun c => ⌜c = c₀⌝⦄ g.exported start decorated
    ⦃⇓? t c => ⌜c₀.Reaches c ∧ t.Settled c₀ ∧
      ∀ a : Cursor, a.Reaches c₀ → a.Comes start → ForestStems a decorated → t.Stems a⌝⦄ := by
  refine triple_of fun Q hQ => ?_
  mvcgen [exported] with grind -linarith

@[spec] theorem expressionStatement_spec (start : Place) :
    ⦃fun c => ⌜c = c₀⌝⦄ g.expressionStatement start
    ⦃⇓? t c => ⌜c₀.Reaches c ∧ t.Settled c₀ ∧
      ∀ a : Cursor, a.Reaches c₀ → a.Comes start → t.Stems a⌝⦄ := by
  refine triple_of fun Q hQ => ?_
  mvcgen [expressionStatement] with grind -linarith

@[spec] theorem operandWithSuffixes_spec :
    ⦃fun c => ⌜c = c₀⌝⦄ g.operandWithSuffixes
    ⦃⇓? p c => ⌜c₀.Reaches c ∧ ForestStems c₀ p.forest⌝⦄ := by
  refine triple_of fun Q hQ => ?_
  mvcgen [operandWithSuffixes] with grind -linarith

theorem orElse_stems {p q : Scan (List Tree)}
    (hp : ⦃fun c => ⌜c = c₀⌝⦄ p ⦃⇓? ts c => ⌜c₀.Reaches c ∧ ForestStems c₀ ts⌝⦄)
    (hq : ⦃fun c => ⌜c = c₀⌝⦄ q ⦃⇓? ts c => ⌜c₀.Reaches c ∧ ForestStems c₀ ts⌝⦄) :
    ⦃fun c => ⌜c = c₀⌝⦄ (p <|> q) ⦃⇓? ts c => ⌜c₀.Reaches c ∧ ForestStems c₀ ts⌝⦄ := by
  refine triple_of fun Q hQ => ?_
  mvcgen [hp, hq] with grind -linarith

theorem bind_stems {α : Type} {p : Scan α} {f : α → Scan (List Tree)}
    (hp : ⦃fun c => ⌜c = c₀⌝⦄ p ⦃⇓? _ c => ⌜c₀.Reaches c⌝⦄)
    (hf : ∀ a c₀, ⦃fun c => ⌜c = c₀⌝⦄ f a ⦃⇓? ts c => ⌜c₀.Reaches c ∧ ForestStems c₀ ts⌝⦄) :
    ⦃fun c => ⌜c = c₀⌝⦄ (p >>= f) ⦃⇓? ts c => ⌜c₀.Reaches c ∧ ForestStems c₀ ts⌝⦄ := by
  refine triple_of fun Q hQ => ?_
  mvcgen [hp, hf] with grind -linarith

/-- The three ways to read the target are tried one after the other. -/
@[spec] theorem collectionHeader_spec :
    ⦃fun c => ⌜c = c₀⌝⦄ g.collectionHeader ⦃⇓? ts c => ⌜c₀.Reaches c ∧ ForestStems c₀ ts⌝⦄ := by
  unfold collectionHeader
  refine bind_stems toOperand_spec fun _ c₁ =>
    bind_stems (by mvcgen; grind -linarith) fun w c => ?_
  extract_lets bind declared initialised assigned behind
  have hbehind : ∀ {target : Scan (List Tree)},
      (∀ c₀, ⦃fun c => ⌜c = c₀⌝⦄ target ⦃⇓? ts c => ⌜c₀.Reaches c ∧ ForestStems c₀ ts⌝⦄) →
      ⦃fun c' => ⌜c' = c⌝⦄ behind target ⦃⇓? ts c' => ⌜c.Reaches c' ∧ ForestStems c ts⌝⦄ := by
    intro target htarget
    refine triple_of fun Q hQ => ?_
    mvcgen [behind, htarget] with grind -linarith
  have hdeclared : ∀ c₀, ⦃fun c => ⌜c = c₀⌝⦄ declared
      ⦃⇓? ts c => ⌜c₀.Reaches c ∧ ForestStems c₀ ts⌝⦄ := by
    intro c₀
    refine triple_of fun Q hQ => ?_
    mvcgen [declared, bind] with grind -linarith
  have hinitialised : ∀ c₀, ⦃fun c => ⌜c = c₀⌝⦄ initialised
      ⦃⇓? ts c => ⌜c₀.Reaches c ∧ ForestStems c₀ ts⌝⦄ := by
    intro c₀
    refine triple_of fun Q hQ => ?_
    mvcgen [initialised, hdeclared] with grind -linarith
  have hassigned : ∀ c₀, ⦃fun c => ⌜c = c₀⌝⦄ assigned
      ⦃⇓? ts c => ⌜c₀.Reaches c ∧ ForestStems c₀ ts⌝⦄ := by
    intro c₀
    refine triple_of fun Q hQ => ?_
    mvcgen [assigned] with grind -linarith
  split
  · exact orElse_stems (hbehind hdeclared)
      (orElse_stems (hbehind hinitialised) (hbehind hassigned))
  · split
    · exact orElse_stems (hbehind hdeclared) (hbehind hassigned)
    · exact hbehind hassigned

@[spec] theorem countingHeader_spec :
    ⦃fun c => ⌜c = c₀⌝⦄ g.countingHeader ⦃⇓? ts c => ⌜c₀.Reaches c ∧ ForestStems c₀ ts⌝⦄ := by
  refine triple_of fun Q hQ => ?_
  mvcgen [countingHeader] with grind -linarith

@[spec] theorem forRule_spec (start : Place) :
    ⦃fun c => ⌜c = c₀⌝⦄ g.forRule start
    ⦃⇓? t c => ⌜c₀.Reaches c ∧ t.Settled c₀ ∧
      ∀ a : Cursor, a.Reaches c₀ → a.Comes start → t.Stems a⌝⦄ := by
  refine triple_of fun Q hQ => ?_
  mvcgen [forRule] with grind -linarith

@[spec] theorem switchCases_spec (fuel : Nat) :
    ⦃fun c => ⌜c = c₀⌝⦄ g.switchCases fuel ⦃⇓? ts c => ⌜c₀.Reaches c ∧ ForestStems c₀ ts⌝⦄ := by
  induction fuel generalizing c₀ with
  | zero => mvcgen [switchCases]
  | succ fuel ih =>
    refine triple_of fun Q hQ => ?_
    mvcgen [switchCases, ih] with grind -linarith

@[spec] theorem tryRule_spec (start : Place) :
    ⦃fun c => ⌜c = c₀⌝⦄ g.tryRule start
    ⦃⇓? t c => ⌜c₀.Reaches c ∧ t.Settled c₀ ∧
      ∀ a : Cursor, a.Reaches c₀ → a.Comes start → t.Stems a⌝⦄ := by
  refine triple_of fun Q hQ => ?_
  mvcgen [tryRule] with grind -linarith

@[spec] theorem returnRule_spec (start : Place) :
    ⦃fun c => ⌜c = c₀⌝⦄ g.returnRule start
    ⦃⇓? t c => ⌜c₀.Reaches c ∧ t.Settled c₀ ∧
      ∀ a : Cursor, a.Reaches c₀ → a.Comes start → t.Stems a⌝⦄ := by
  refine triple_of fun Q hQ => ?_
  mvcgen [returnRule] with grind -linarith

@[spec] theorem labelled_spec (start : Place) :
    ⦃fun c => ⌜c = c₀⌝⦄ g.labelled start
    ⦃⇓? t c => ⌜c₀.Reaches c ∧ t.Settled c₀ ∧
      ∀ a : Cursor, a.Reaches c₀ → a.Comes start → t.Stems a⌝⦄ := by
  refine triple_of fun Q hQ => ?_
  mvcgen [labelled] with grind -linarith

@[spec] theorem doRule_spec (start : Place) :
    ⦃fun c => ⌜c = c₀⌝⦄ g.doRule start
    ⦃⇓? t c => ⌜c₀.Reaches c ∧ t.Settled c₀ ∧
      ∀ a : Cursor, a.Reaches c₀ → a.Comes start → t.Stems a⌝⦄ := by
  refine triple_of fun Q hQ => ?_
  mvcgen [doRule] with grind -linarith

@[spec] theorem ifRule_spec (start : Place) :
    ⦃fun c => ⌜c = c₀⌝⦄ g.ifRule start
    ⦃⇓? t c => ⌜c₀.Reaches c ∧ t.Settled c₀ ∧
      ∀ a : Cursor, a.Reaches c₀ → a.Comes start → t.Stems a⌝⦄ := by
  refine triple_of fun Q hQ => ?_
  mvcgen [ifRule] with grind -linarith

@[spec] theorem exportRule_spec (start : Place) :
    ⦃fun c => ⌜c = c₀⌝⦄ g.exportRule start
    ⦃⇓? t c => ⌜c₀.Reaches c ∧ t.Settled c₀ ∧
      ∀ a : Cursor, a.Reaches c₀ → a.Comes start → t.Stems a⌝⦄ := by
  refine triple_of fun Q hQ => ?_
  mvcgen [exportRule] with grind -linarith

@[spec] theorem decoratedRule_spec (start : Place) :
    ⦃fun c => ⌜c = c₀⌝⦄ g.decoratedRule start
    ⦃⇓? t c => ⌜c₀.Reaches c ∧ t.Settled c₀ ∧
      ∀ a : Cursor, a.Reaches c₀ → a.Comes start → t.Stems a⌝⦄ := by
  refine triple_of fun Q hQ => ?_
  mvcgen [decoratedRule] with grind -linarith

@[spec] theorem wordStatement_spec (start : Place) :
    ⦃fun c => ⌜c = c₀⌝⦄ g.wordStatement start
    ⦃⇓? t c => ⌜c₀.Reaches c ∧ t.Settled c₀ ∧
      ∀ a : Cursor, a.Reaches c₀ → a.Comes start → t.Stems a⌝⦄ := by
  refine triple_of fun Q hQ => ?_
  mvcgen [wordStatement] with grind -linarith

@[spec] theorem statementRule_spec :
    ⦃fun c => ⌜c = c₀⌝⦄ g.statementRule
    ⦃⇓? p c => ⌜c₀.Reaches c ∧ (∀ t ∈ p.forest, t.Settled c₀) ∧ ForestStems c₀ p.forest⌝⦄ := by
  refine triple_of fun Q hQ => ?_
  mvcgen [statementRule] with grind -linarith [alone]

theorem rule_spec (part : Part) :
    ⦃fun c => ⌜c = c₀⌝⦄ g.rule part
    ⦃⇓? p c => ⌜c₀.Reaches c ∧
      (part = .statement → ∀ t ∈ p.forest, t.Settled c₀) ∧ ForestStems c₀ p.forest⌝⦄ := by
  cases part <;> mvcgen [rule] <;> grind -linarith

end Steady
end Rules

theorem steady_parsePart (limit depth : Nat) : (Rules.mk limit (parsePart limit depth)).Steady := by
  induction depth with
  | zero => exact ⟨fun c₀ part => by mvcgen [parsePart]⟩
  | succ depth ih => exact ⟨fun c₀ part => Rules.rule_spec part⟩

/-! ## The whole module -/

/-- Behind what was taken nothing more can be taken. -/
theorem takeWhile_drop_takeWhile {α : Type} (p : α → Bool) (l : List α) :
    (l.drop (l.takeWhile p).length).takeWhile p = [] := by
  induction l with
  | nil => rfl
  | cons a l ih =>
    by_cases ha : p a = true
    · rwa [List.takeWhile_cons_of_pos ha, List.length_cons, List.drop_succ_cons]
    · rw [List.takeWhile_cons_of_neg ha, List.length_nil, List.drop_zero,
        List.takeWhile_cons_of_neg ha]

@[spec] theorem hashBang_spec {c₀ : Cursor} :
    ⦃fun c => ⌜c = c₀⌝⦄ hashBang
    ⦃⇓? ts c => ⌜c₀.Reaches c ∧ (∀ t ∈ ts, t.Settled c₀) ∧ ForestStems c₀ ts⌝⦄ := by
  have hink : ∀ c : Cursor, "#!".toList.isPrefixOf c.rest = true →
      c.Inks (c.advance (c.rest.takeWhile (· != '\n')).length) := by
    intro c hopening
    obtain ⟨rest, hrest⟩ := List.isPrefixOf_iff_prefix.mp hopening
    have hopens : c.rest = '#' :: '!' :: rest := hrest.symm
    have hline : '\n' ∉ c.rest.takeWhile (· != '\n') := fun hmem => by
      simpa using List.all_eq_true.mp List.all_takeWhile _ hmem
    refine Cursor.inks_advance ?_
    rw [← List.prefix_iff_eq_take.mp (List.takeWhile_prefix _)]
    rw [hopens] at hline ⊢
    exact inked_of_front (by decide) hline
  have hend : ∀ c : Cursor, (c.advance (c.rest.takeWhile (· != '\n')).length).rest.takeWhile
      (· != '\n') = [] := fun c => by
    rw [Cursor.rest_advance, takeWhile_drop_takeWhile]
  refine triple_of fun Q hQ => ?_
  mvcgen [hashBang] with grind -linarith

theorem programRule_spec {c₀ : Cursor} {g : Rules} [g.Steady] :
    ⦃fun c => ⌜c = c₀⌝⦄ programRule g
    ⦃⇓? t _ => ⌜(∀ s ∈ t.children, s.Settled c₀) ∧ t.Stems c₀⌝⦄ := by
  refine triple_of fun Q hQ => ?_
  mvcgen [programRule] with grind -linarith [Tree.children]

theorem of_triple {α : Type} {p : Scan α} {P : α → Cursor → Prop} {c₀ c : Cursor} {a : α}
    (h : ⦃fun c => ⌜c = c₀⌝⦄ p ⦃⇓? a c => ⌜P a c⌝⦄) (hrun : p c₀ = some (a, c)) : P a c := by
  have hpost : (wp⟦p c₀⟧ _).down := h c₀ rfl
  rw [hrun] at hpost
  exact hpost

theorem settled_of_outline {text : List Char} {program : Tree} (h : outline? text = some program) :
    (∀ t ∈ program.children, t.Settled (Cursor.ofText text)) ∧
      program.Stems (Cursor.ofText text) := by
  unfold outline? at h
  split at h
  · cases h
  · obtain ⟨⟨t, c⟩, hrun, rfl⟩ := Option.map_eq_some_iff.mp h
    have := steady_parsePart ((Text.splitMark text).2.length + 1)
      (4 * ((Text.splitMark text).2.length + 1))
    exact of_triple programRule_spec hrun

section Outline

variable {text : List Char} {program : Tree} (h : outline? text = some program)

include h

/-- A statement of a body starts between two characters of the text. -/
theorem boundary_of_mem_statements {source : Text.Utf8.Bytes} {skipGenerators : Bool} {body : Body}
    {s : Site} (hbody : body ∈ (layout source skipGenerators program).bodies)
    (hs : s ∈ body.statements) : Text.Utf8.Boundary text s.offset := by
  have hstems := (settled_of_outline h).2
  have hsite : ∀ t : Tree, t.Stems (Cursor.ofText text) → Text.Utf8.Boundary text (site t).offset := by
    intro t ht
    obtain ⟨c, ⟨passed, hrest, hoffset⟩, hstart⟩ := ht.comes
    refine ⟨passed, c.rest, hrest, ?_⟩
    rw [site, hstart, hoffset]
    exact (Nat.zero_add _).symm
  rw [layout_eq] at hbody
  rcases List.mem_append.mp hbody with hbody | hbody
  · unfold topLevelBody at hbody
    simp only at hbody
    split at hbody
    · cases hbody
    · rw [List.mem_singleton.mp hbody] at hs
      obtain ⟨t, ht, rfl⟩ := List.mem_map.mp hs
      have hchild := List.mem_of_mem_filter
        ((List.dropWhile_sublist _).subset (List.mem_of_mem_filter ht))
      exact hsite t (hstems.children.of_mem hchild)
  · obtain ⟨f, hf, hblock⟩ := List.mem_filterMap.mp hbody
    obtain ⟨block, hasync, rfl⟩ := Option.map_eq_some_iff.mp hblock
    obtain ⟨t, ht, rfl⟩ := List.mem_map.mp hs
    unfold asyncBlock? at hasync
    split at hasync
    · cases hasync
    · have hchild := List.mem_of_find?_eq_some (Option.filter_eq_some_iff.mp hasync).1
      have hinside := (hstems.of_mem_preorder hf).children.of_mem hchild
      exact hsite t (hinside.children.of_mem (List.mem_of_mem_filter ht))

/-- The last of the imports that the module starts with. -/
def lastImport? (program : Tree) : Option Tree :=
  ((program.children.filter isStatement).takeWhile (·.kind = .importStatement)).getLast?

/-- The import of the support module goes to the top, or behind ink: behind the last import, or to the
end of the opening line. -/
theorem exists_before_importAnchor
    (hanchor : importAnchor program (program.children.filter isStatement) ≠ 0) :
    ∃ before behind, text = before ++ behind ∧ Inked (lastLine before) ∧
      (Text.Utf8.encode before).length =
        importAnchor program (program.children.filter isStatement) ∧
      ((∃ t ∈ lastImport? program, t.stop =
          importAnchor program (program.children.filter isStatement)) ∨
        behind.takeWhile (· != '\n') = []) := by
  have hsettled := (settled_of_outline h).1
  have hends : ∀ t ∈ program.children, t.kind = .importStatement ∨ t.kind = .hashBang →
      ∃ before behind, text = before ++ behind ∧ Inked (lastLine before) ∧
        (Text.Utf8.encode before).length = t.stop ∧
        (t.kind = .hashBang → behind.takeWhile (· != '\n') = []) := by
    intro t ht hkind
    obtain ⟨c, ⟨passed, ⟨hrest, hoffset⟩, hink⟩, hstop, hend⟩ := hsettled t ht hkind
    refine ⟨passed, c.rest, hrest, hink, ?_, hend⟩
    rw [hstop, hoffset]
    exact (Nat.zero_add _).symm
  unfold importAnchor at hanchor ⊢
  split
  next t hlast =>
    have hmem := List.mem_of_getLast? hlast
    have hkind := List.all_eq_true.mp List.all_takeWhile t hmem
    have hchild := List.mem_of_mem_filter ((List.takeWhile_sublist _).subset hmem)
    obtain ⟨before, behind, htext, hink, hlength, -⟩ := hends t hchild (.inl (by simpa using hkind))
    exact ⟨before, behind, htext, hink, hlength, .inl ⟨t, hlast, rfl⟩⟩
  next hlast =>
    rw [hlast] at hanchor
    simp only at hanchor
    split
    next t hfind =>
      have hkind : t.kind = .hashBang := by simpa using List.find?_some hfind
      obtain ⟨before, behind, htext, hink, hlength, hend⟩ :=
        hends t (List.mem_of_find?_eq_some hfind) (.inr hkind)
      exact ⟨before, behind, htext, hink, hlength, .inr (hend hkind)⟩
    next hfind =>
      rw [hfind] at hanchor
      exact absurd rfl hanchor

theorem isInline_importAnchor
    (hanchor : importAnchor program (program.children.filter isStatement) ≠ 0) :
    Injection.isInline (Text.Utf8.encode text)
      (importAnchor program (program.children.filter isStatement)) = true := by
  obtain ⟨before, behind, htext, hink, hlength, -⟩ := exists_before_importAnchor h hanchor
  rw [← hlength, htext]
  exact (Injection.isInline_encode _ _).mpr hink

end Outline

end DelayInjection.JavaScript
