import DelayInjection.Proofs.JavaScript.Shift.Step

/-! The rules for expressions do not read the place either, as long as the parse of the parts that they
hold does not. -/

namespace DelayInjection.JavaScript

variable {α β : Type} {n : Nat}

namespace Rules

/-! ## Slots -/

@[simp] theorem shift_empty : shift n Slot.empty = .empty := rfl

@[simp] theorem shift_spread (p : Piece) : shift n (Slot.spread p) = .spread (shift n p) := rfl

@[simp] theorem shift_item (p : Piece) : shift n (Slot.item p) = .item (shift n p) := rfl

@[simp] theorem forestOf_shift (slots : List Slot) :
    forestOf (shift n slots) = shift n (forestOf slots) := by
  induction slots with
  | nil => rfl
  | cons s slots ih =>
    have hs : (shift n s).forest = shift n s.forest := by cases s <;> rfl
    rw [shift_cons, forestOf, List.flatMap_cons, ← forestOf, ih, hs, ← shift_append]
    rfl

theorem flatMap_forest_shift (ps : List Piece) :
    (shift n ps).flatMap Piece.forest = shift n (ps.flatMap Piece.forest) := by
  induction ps with
  | nil => rfl
  | cons p ps ih =>
    rw [shift_cons, List.flatMap_cons, ih, List.flatMap_cons, shift_append]
    rfl

theorem all_shift {p : α → Bool} [Shifts α] (hp : ∀ a, p (shift n a) = p a) (as : List α) :
    (shift n as).all p = as.all p := by
  induction as with
  | nil => rfl
  | cons a as ih => rw [shift_cons, List.all_cons, List.all_cons, ih, hp]

@[simp] theorem areArguments_shift (slots : List Slot) :
    areArguments (shift n slots) = areArguments slots :=
  all_shift (fun s => by cases s <;> rfl) slots

@[simp] theorem areGroup_shift (slots : List Slot) : areGroup (shift n slots) = areGroup slots :=
  all_shift (fun s => by cases s <;> rfl) slots

theorem withoutLastEmpty_shift (slots : List Slot) :
    withoutLastEmpty (shift n slots) = shift n (withoutLastEmpty slots) := by
  induction slots with
  | nil => rfl
  | cons s slots ih => cases s <;> cases slots <;> simp_all [withoutLastEmpty]

@[simp] theorem areParameters_shift (slots : List Slot) :
    areParameters (shift n slots) = areParameters slots := by
  rw [areParameters, withoutLastEmpty_shift]
  exact all_shift (fun s => by cases s <;> rfl) _

end Rules

/-- The parse of the parts does not read the place. -/
class Rules.Travels (g : Rules) : Prop where
  parse (n : Nat) (part : Part) : Still n (g.parse part)

attribute [simp] Rules.Travels.parse

namespace Rules

variable {g : Rules} [g.Travels]

/-! ## Expressions -/

@[simp] theorem moved_value (ends : Bool) : Still n (g.value ends) := by
  intro c
  simp [value]

@[simp] theorem moved_moreValues (ends : Bool) (fuel : Nat) : Still n (g.moreValues ends fuel) := by
  induction fuel with
  | zero => exact fun _ => rfl
  | succ fuel ih =>
    intro c
    simp [moreValues, ih]

@[simp] theorem moved_values (ends : Bool) : Still n (g.values ends) := by
  intro c
  simp [values]

@[simp] theorem moved_slots (closing : String) (fuel : Nat) : Still n (g.slots closing fuel) := by
  induction fuel with
  | zero => exact fun _ => rfl
  | succ fuel ih =>
    intro c
    simp [slots, ih]

@[simp] theorem moved_arguments : Still n g.arguments := by
  intro c
  simp [arguments]

@[simp] theorem moved_parameters : Still n g.parameters := by
  intro c
  simp [parameters]

@[simp] theorem moved_statements (fuel : Nat) : Still n (g.statements fuel) := by
  induction fuel with
  | zero => exact fun _ => rfl
  | succ fuel ih =>
    intro c
    simp only [statements, Scan.bind_apply, Scan.get_apply, Option.bind_some,
      Cursor.skipTrivia_shift, fst_shift, snd_shift, Scan.set_apply, rest_shift]
    generalize c.skipTrivia true g.limit = r
    obtain ⟨comments, c'⟩ := r
    simp only
    generalize c'.rest = text
    refine (?_ : Moved n _ _) c'
    split <;> intro c <;> simp [ih]

@[simp] theorem moved_block : Still n g.block := by
  intro c
  simp [block]

@[simp] theorem moved_body : Still n g.body := by
  intro c
  simp [body]

@[simp] theorem moved_functionFrom (start : Place) (asyncWord : List Tree) (declared : Bool) :
    Moved n (g.functionFrom start asyncWord declared)
      (g.functionFrom (shift n start) (shift n asyncWord) declared) := by
  intro c
  simp [functionFrom]

@[simp] theorem moved_functionFrom_nil (start : Place) (declared : Bool) :
    Moved n (g.functionFrom start [] declared) (g.functionFrom (shift n start) [] declared) :=
  moved_functionFrom start [] declared

@[simp] theorem moved_functionFrom_single (start : Place) (t : Tree) (declared : Bool) :
    Moved n (g.functionFrom start [t] declared)
      (g.functionFrom (shift n start) [shift n t] declared) :=
  moved_functionFrom start [t] declared

@[simp] theorem moved_decorator : Still n g.decorator := by
  intro c
  simp [decorator]

@[simp] theorem moved_decorators (fuel : Nat) : Still n (g.decorators fuel) := by
  induction fuel with
  | zero => exact fun _ => rfl
  | succ fuel ih =>
    intro c
    simp [decorators, ih]

@[simp] theorem moved_memberName : Still n g.memberName := by
  refine .bind moved_toOperator fun _ => .bind moved_place fun start =>
    .bind moved_rest fun text => ?_
  rw [shift_text]
  split <;> intro c <;> simp

@[simp] theorem moved_memberHead (inClass : Bool) : Still n (g.memberHead inClass) := by
  refine .bind (moved_decorators _) fun decorated => .bind moved_toOperator fun _ =>
    .bind moved_rest fun text => ?_
  rw [shift_text]
  cases staticGetLength? text <;> intro c <;> simp

@[simp] theorem moved_methodFrom (start : Place) (head : List Tree) (name : Tree) :
    Moved n (g.methodFrom start head name)
      (g.methodFrom (shift n start) (shift n head) (shift n name)) := by
  intro c
  simp [methodFrom]

@[simp] theorem moved_objectMember : Still n g.objectMember := by
  intro c
  simp [objectMember]

@[simp] theorem moved_objectMembers (fuel : Nat) : Still n (g.objectMembers fuel) := by
  induction fuel with
  | zero => exact fun _ => rfl
  | succ fuel ih =>
    intro c
    simp [objectMembers, ih]

@[simp] theorem moved_object : Still n g.object := by
  intro c
  simp [object, flatMap_forest_shift, all_shift]

@[simp] theorem moved_list : Still n g.list := by
  refine .bind (moved_need _) fun _ => .bind (moved_slots _ _) fun found =>
    .bind (moved_need _) fun _ => fun c => ?_
  rw [Scan.pure_apply, Scan.pure_apply, forestOf_shift, areArguments_shift,
    all_shift fun s => by cases s <;> rfl]
  rfl

@[simp] theorem moved_classMember : Still n g.classMember := by
  intro c
  simp [classMember]

@[simp] theorem moved_classMembers (fuel : Nat) : Still n (g.classMembers fuel) := by
  induction fuel with
  | zero => exact fun _ => rfl
  | succ fuel ih =>
    intro c
    simp [classMembers, ih]

@[simp] theorem moved_classFrom : Still n g.classFrom := by
  intro c
  simp [classFrom]

@[simp] theorem moved_templateRest (fuel : Nat) : Still n (g.templateRest fuel) := by
  induction fuel with
  | zero => exact fun _ => rfl
  | succ fuel ih =>
    refine .bind moved_rest fun text => .bind (moved_skip _) fun _ => ?_
    rw [shift_text]
    split
    · exact fun _ => rfl
    · intro c
      simp
    · intro c
      simp [ih]
    next more _ => cases escapeLength? ('\\' :: more) <;> intro c <;> simp [ih]
    · intro c
      simp [ih]

@[simp] theorem moved_template : Still n g.template := by
  intro c
  simp [template]

@[simp] theorem moved_arrowBody (ends : Bool) : Still n (g.arrowBody ends) := by
  intro c
  simp [arrowBody]

@[simp] theorem moved_arrowFrom (start : Place) (head : List Tree) (ends : Bool) :
    Moved n (g.arrowFrom start head ends) (g.arrowFrom (shift n start) (shift n head) ends) := by
  intro c
  simp [arrowFrom]

@[simp] theorem moved_arrowFrom_single (start : Place) (t : Tree) (ends : Bool) :
    Moved n (g.arrowFrom start [t] ends) (g.arrowFrom (shift n start) [shift n t] ends) :=
  moved_arrowFrom start [t] ends

@[simp] theorem moved_arrowFrom_name (start : Place) (t : Tree) (ends : Bool) :
    Moved n (g.arrowFrom start [t.inRole .plain] ends)
      (g.arrowFrom (shift n start) [(shift n t).inRole .plain] ends) := by
  rw [← shift_inRole]
  exact moved_arrowFrom start [t.inRole .plain] ends

@[simp] theorem moved_arrowFrom_cons (start : Place) (t : Tree) (ts : List Tree) (ends : Bool) :
    Moved n (g.arrowFrom start (t :: ts) ends)
      (g.arrowFrom (shift n start) (shift n t :: shift n ts) ends) :=
  moved_arrowFrom start (t :: ts) ends

@[simp] theorem moved_arrowFrom_async (start : Place) (t u : Tree) (ends : Bool) :
    Moved n (g.arrowFrom start [t, u.inRole .plain] ends)
      (g.arrowFrom (shift n start) [shift n t, (shift n u).inRole .plain] ends) := by
  rw [← shift_inRole]
  exact moved_arrowFrom start [t, u.inRole .plain] ends

@[simp] theorem moved_reference (ends : Bool) : Still n (g.reference ends) := by
  intro c
  simp [reference]

@[simp] theorem moved_parenthesised (ends : Bool) : Still n (g.parenthesised ends) := by
  intro c
  simp [parenthesised]

@[simp] theorem moved_asyncOperand (ends : Bool) : Still n (g.asyncOperand ends) := by
  intro c
  simp [asyncOperand]

@[simp] theorem moved_prefixed (width : Nat) (ends : Bool) : Still n (g.prefixed width ends) := by
  intro c
  simp [prefixed]

@[simp] theorem moved_newOperand (ends : Bool) : Still n (g.newOperand ends) := by
  intro c
  simp [newOperand]

@[simp] theorem moved_usingOperand (ends : Bool) : Still n (g.usingOperand ends) := by
  intro c
  simp [usingOperand]

@[simp] theorem moved_yieldOperand (ends : Bool) : Still n (g.yieldOperand ends) := by
  intro c
  simp [yieldOperand]

@[simp] theorem moved_wordOperand (ends : Bool) : Still n (g.wordOperand ends) := by
  intro c
  simp [wordOperand]

@[simp] theorem moved_operandRule (ends : Bool) : Still n (g.operandRule ends) := by
  refine .bind moved_toOperand fun _ => .bind moved_rest fun text => ?_
  rw [shift_text]
  split
  · exact fun _ => rfl
  · exact moved_prefixed 2 ends
  · exact moved_prefixed 2 ends
  next c more _ _ =>
    intro c'
    cases patternLength? false g.limit more <;> simp

@[simp] theorem moved_suffix (m : String) : Still n (g.suffix? m) := by
  intro c
  simp [suffix?]

@[simp] theorem moved_operators (ends : Bool) (fuel : Nat) (forest : List Tree) (last : Shape)
    (bare : Bool) :
    Moved n (g.operators ends fuel forest last bare)
      (g.operators ends fuel (shift n forest) last bare) := by
  induction fuel generalizing forest last bare with
  | zero => exact fun _ => rfl
  | succ fuel ih =>
    have hword : ∀ p : Piece, Moved n (g.operators ends fuel (forest ++ p.forest) p.shape false)
        (g.operators ends fuel (shift n forest ++ shift n p.forest) p.shape false) := fun p => by
      rw [← shift_append]
      exact ih _ _ _
    have hsuffix : ∀ p : Piece, Moved n (g.operators ends fuel (forest ++ p.forest) p.shape bare)
        (g.operators ends fuel (shift n forest ++ shift n p.forest) p.shape bare) := fun p => by
      rw [← shift_append]
      exact ih _ _ _
    refine .bind (moved_goesOn _ _) fun goesOn => ?_
    cases goesOn with
    | false =>
      intro c
      simp
    | true =>
      refine .bind moved_rest fun text => ?_
      rw [shift_text]
      cases operatorMark text with
      | none =>
        intro c
        simp [hword]
      | some m =>
        simp only
        split
        · intro c
          simp
        split
        · intro c
          simp
        split
        · intro c
          simp
        refine .bind (moved_suffix m) fun found => ?_
        cases found with
        | some p => exact hsuffix p
        | none =>
          intro c
          simp [hword]

@[simp] theorem moved_expressionRule (ends : Bool) : Still n (g.expressionRule ends) := by
  intro c
  simp [expressionRule]

@[simp] theorem moved_suffixes (fuel : Nat) (p : Piece) :
    Moved n (g.suffixes fuel p) (g.suffixes fuel (shift n p)) := by
  induction fuel generalizing p with
  | zero => exact fun _ => rfl
  | succ fuel ih =>
    refine .bind moved_toOperator fun _ => .bind moved_rest fun text => ?_
    rw [shift_text]
    cases operatorMark text with
    | none => exact fun _ => rfl
    | some m =>
      refine .bind (moved_suffix m) fun found => ?_
      cases found with
      | none => exact fun _ => rfl
      | some q =>
        have hmore := ih ⟨p.forest ++ q.forest, q.shape⟩
        rw [shift_piece, shift_append] at hmore
        exact hmore

@[simp] theorem moved_embedded : Still n g.embedded := by
  intro c
  simp [embedded]

@[simp] theorem moved_attributes (fuel : Nat) : Still n (g.attributes fuel) := by
  induction fuel with
  | zero => exact fun _ => rfl
  | succ fuel ih =>
    refine .bind moved_toOperator fun _ => .bind (moved_sees _) fun closes =>
      .bind (moved_sees _) fun opens => ?_
    rw [shift_bool, shift_bool]
    split
    · exact fun _ => rfl
    refine .bind (moved_sees _) fun braced => ?_
    rw [shift_bool]
    split
    · intro c
      simp [ih]
    refine .bind moved_markupName fun _ => .bind (moved_takes _) fun valued => ?_
    rw [shift_bool]
    split
    · refine .bind moved_toOperator fun _ => .bind moved_rest fun text => ?_
      rw [shift_text]
      split <;> intro c <;> simp [ih]
    · exact ih

@[simp] theorem moved_elementChildren (fuel : Nat) : Still n (g.elementChildren fuel) := by
  induction fuel with
  | zero => exact fun _ => rfl
  | succ fuel ih =>
    refine .bind moved_rest fun text => ?_
    rw [shift_text]
    split
    · intro c
      simp
    · intro c
      simp [ih]
    · intro c
      simp [ih]
    next more => cases referenceLength? ('&' :: more) <;> intro c <;> simp [ih]
    · intro c
      simp [ih]

@[simp] theorem moved_elementRule : Still n g.elementRule := by
  intro c
  simp [elementRule]

end Rules
end DelayInjection.JavaScript
