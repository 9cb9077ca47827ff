import DelayInjection.JavaScript.Statement
import DelayInjection.Proofs.JavaScript.Shift.Expression

/-! The rules for statements do not read the place either, and so no rule does, however deep the parts of
a text nest. -/

namespace DelayInjection.JavaScript

variable {n : Nat}

namespace Rules

variable {g : Rules}

@[simp] theorem shift_alone (t : Tree) : shift n (alone t) = alone (shift n t) := rfl

@[simp] theorem moved_opensDeclaration : Still n g.opensDeclaration := by
  intro c
  simp [opensDeclaration]

@[simp] theorem moved_seesNamed (keyword : String) : Still n (g.seesNamed keyword) := by
  intro c
  simp [seesNamed]

@[simp] theorem moved_seesAsyncDeclaration : Still n g.seesAsyncDeclaration := by
  intro c
  simp [seesAsyncDeclaration]

@[simp] theorem moved_listedName : Still n g.listedName := by
  intro c
  simp [listedName]

@[simp] theorem moved_importEntry : Still n g.importEntry := by
  intro c
  simp [importEntry]

@[simp] theorem moved_exportEntry : Still n g.exportEntry := by
  intro c
  simp [exportEntry]

theorem moved_entries {entry : Scan Unit} (hentry : Still n entry) (fuel : Nat) :
    Still n (g.entries entry fuel) := by
  induction fuel with
  | zero => exact fun _ => rfl
  | succ fuel ih =>
    intro c
    simp [entries, ih, hentry]

@[simp] theorem moved_importList : Still n g.importList := by
  intro c
  simp [importList, moved_entries moved_importEntry]

@[simp] theorem moved_importClause : Still n g.importClause := by
  intro c
  simp [importClause]

@[simp] theorem moved_source : Still n g.source := by
  intro c
  simp [source]

@[simp] theorem moved_jump (start : Place) (w : String) :
    Moved n (g.jump start w) (g.jump (shift n start) w) := by
  intro c
  simp [jump]

section Travels

variable [g.Travels]

@[simp] theorem moved_condition : Still n g.condition := by
  intro c
  simp [condition]

@[simp] theorem moved_inner : Still n g.inner := by
  intro c
  simp [inner]

@[simp] theorem moved_binding : Still n g.binding := by
  intro c
  simp [binding]

@[simp] theorem moved_declarators (fuel : Nat) : Still n (g.declarators fuel) := by
  induction fuel with
  | zero => exact fun _ => rfl
  | succ fuel ih =>
    intro c
    simp [declarators, ih]

@[simp] theorem moved_declaredVariables : Still n g.declaredVariables := by
  intro c
  simp [declaredVariables]

@[simp] theorem moved_functionDeclaration : Still n g.functionDeclaration := by
  intro c
  simp [functionDeclaration]

@[simp] theorem moved_classDeclaration (start : Place) (decorated : List Tree) :
    Moved n (g.classDeclaration start decorated)
      (g.classDeclaration (shift n start) (shift n decorated)) := by
  intro c
  simp [classDeclaration]

@[simp] theorem moved_classDeclaration_nil (start : Place) :
    Moved n (g.classDeclaration start []) (g.classDeclaration (shift n start) []) :=
  moved_classDeclaration start []

@[simp] theorem moved_declaration : Still n g.declaration := by
  intro c
  simp [declaration]

@[simp] theorem moved_importTail : Still n g.importTail := by
  intro c
  simp [importTail]

@[simp] theorem moved_importRule (start : Place) :
    Moved n (g.importRule start) (g.importRule (shift n start)) := by
  intro c
  simp [importRule]

@[simp] theorem moved_exportedDefault : Still n g.exportedDefault := by
  intro c
  simp [exportedDefault]

@[simp] theorem moved_exported (start : Place) (decorated : List Tree) :
    Moved n (g.exported start decorated) (g.exported (shift n start) (shift n decorated)) := by
  intro c
  simp [exported, moved_entries moved_exportEntry]

@[simp] theorem moved_exported_nil (start : Place) :
    Moved n (g.exported start []) (g.exported (shift n start) []) := moved_exported start []

@[simp] theorem moved_expressionStatement (start : Place) :
    Moved n (g.expressionStatement start) (g.expressionStatement (shift n start)) := by
  intro c
  simp [expressionStatement]

@[simp] theorem moved_operandWithSuffixes : Still n g.operandWithSuffixes := by
  intro c
  simp [operandWithSuffixes]

@[simp] theorem moved_collectionHeader : Still n g.collectionHeader := by
  refine .bind moved_toOperand fun _ => .bind moved_word fun w => ?_
  rw [shift_string]
  have hbehind : ∀ target : Scan (List Tree), Still n target → Still n (do
      let left ← target
      if !(← g.takesWord "in") then g.needWord "of"
      let right ← g.values false
      g.need ")"
      return left ++ right) := by
    intro target htarget
    refine .bind htarget fun left c => ?_
    simp
  have hdeclared : Still n (do
      skip w.length
      g.toOperator
      if w = "let" && (← g.word) = "of" then refuse
      g.binding) := by
    intro c
    simp
  have hassigned : Still n (do
      let p ← g.operandWithSuffixes
      if p.shape.target || p.shape.grouped then return p.forest else refuse) := by
    intro c
    simp
  have hinitialised := hdeclared.bind (f := fun target => do
      g.need "="
      return target ++ (← g.operandWithSuffixes).forest) (h := fun target => do
      g.need "="
      return target ++ (← g.operandWithSuffixes).forest) fun target c => by simp
  split
  · exact (hbehind _ hdeclared).orElse ((hbehind _ hinitialised).orElse (hbehind _ hassigned))
  · split
    · exact (hbehind _ hdeclared).orElse (hbehind _ hassigned)
    · exact hbehind _ hassigned

@[simp] theorem moved_countingHeader : Still n g.countingHeader := by
  refine .bind moved_toOperand fun _ => .bind (moved_takes _) fun empty => ?_
  cases empty with
  | true =>
    intro c
    simp
  | false => refine .bind (.orElse (fun c => ?_) fun c => ?_) fun initial c => ?_ <;> simp

@[simp] theorem moved_forRule (start : Place) :
    Moved n (g.forRule start) (g.forRule (shift n start)) := by
  refine .bind (moved_needWord _) fun _ => .bind (moved_takesWord _) fun awaited =>
    .bind (moved_need _) fun _ => ?_
  cases awaited with
  | true =>
    intro c
    simp
  | false =>
    refine .bind (.orElse moved_collectionHeader moved_countingHeader) fun header c => ?_
    simp

@[simp] theorem moved_switchCases (fuel : Nat) : Still n (g.switchCases fuel) := by
  induction fuel with
  | zero => exact fun _ => rfl
  | succ fuel ih =>
    intro c
    simp [switchCases, ih]

@[simp] theorem moved_tryRule (start : Place) :
    Moved n (g.tryRule start) (g.tryRule (shift n start)) := by
  intro c
  simp [tryRule]

@[simp] theorem moved_returnRule (start : Place) :
    Moved n (g.returnRule start) (g.returnRule (shift n start)) := by
  intro c
  simp [returnRule]

@[simp] theorem moved_labelled (start : Place) :
    Moved n (g.labelled start) (g.labelled (shift n start)) := by
  intro c
  simp [labelled]

@[simp] theorem moved_doRule (start : Place) :
    Moved n (g.doRule start) (g.doRule (shift n start)) := by
  intro c
  simp [doRule]

@[simp] theorem moved_ifRule (start : Place) :
    Moved n (g.ifRule start) (g.ifRule (shift n start)) := by
  intro c
  simp [ifRule]

@[simp] theorem moved_exportRule (start : Place) :
    Moved n (g.exportRule start) (g.exportRule (shift n start)) := by
  intro c
  simp [exportRule]

@[simp] theorem moved_decoratedRule (start : Place) :
    Moved n (g.decoratedRule start) (g.decoratedRule (shift n start)) := by
  intro c
  simp [decoratedRule]

@[simp] theorem moved_wordStatement (start : Place) :
    Moved n (g.wordStatement start) (g.wordStatement (shift n start)) := by
  intro c
  simp [wordStatement]

@[simp] theorem moved_statementRule : Still n g.statementRule := by
  refine .bind moved_toOperand fun _ => .bind moved_place fun start =>
    .bind moved_rest fun text => ?_
  rw [shift_text]
  split
  · refine .bind (.orElse moved_block (moved_expressionStatement start)) fun t c => ?_
    simp
  all_goals
    intro c
    simp

theorem moved_rule (part : Part) : Still n (g.rule part) := by
  cases part with
  | statement => exact moved_statementRule
  | expression ends => exact moved_expressionRule ends
  | operand ends => exact moved_operandRule ends
  | element => exact moved_elementRule

end Travels
end Rules

theorem travels_parsePart (limit depth : Nat) : Rules.Travels ⟨limit, parsePart limit depth⟩ := by
  induction depth with
  | zero => exact ⟨fun _ _ _ => rfl⟩
  | succ depth ih => exact ⟨fun _ => Rules.moved_rule⟩

@[simp] theorem moved_hashBang : Still n hashBang := by
  intro c
  simp [hashBang]

end DelayInjection.JavaScript
