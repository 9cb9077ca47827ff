import DelayInjection.JavaScript.Expression

/-! The steps of a JavaScript parse read the text and never the place. Where more bytes stand in front of
the first line, a step does what it does without them, and its nodes stand as much further behind. -/

namespace DelayInjection.JavaScript

/-! ## Further behind -/

/-- The place in a file with `n` more bytes in front of its first line. -/
def Place.behind (n : Nat) (p : Place) : Place :=
  ⟨p.offset + n, p.row, if p.row = 0 then p.column + n else p.column⟩

mutual

def Tree.behind (n : Nat) : Tree → Tree
  | .node kind role start stop children =>
    .node kind role (start.behind n) (stop + n) (Tree.allBehind n children)

def Tree.allBehind (n : Nat) : List Tree → List Tree
  | [] => []
  | t :: rest => t.behind n :: Tree.allBehind n rest

end

/-- What a rule gives may hold places. -/
class Shifts (α : Type) where
  shift : Nat → α → α

export Shifts (shift)

instance : Shifts Unit := ⟨fun _ => id⟩
instance : Shifts Bool := ⟨fun _ => id⟩
instance : Shifts String := ⟨fun _ => id⟩
instance : Shifts (List Char) := ⟨fun _ => id⟩
instance : Shifts Place := ⟨Place.behind⟩
instance : Shifts Cursor := ⟨fun n c => ⟨c.rest, shift n c.place⟩⟩
instance : Shifts Tree := ⟨Tree.behind⟩
instance {α : Type} [Shifts α] : Shifts (List α) := ⟨fun n => List.map (shift n)⟩
instance {α : Type} [Shifts α] : Shifts (Option α) := ⟨fun n => Option.map (shift n)⟩
instance {α β : Type} [Shifts α] [Shifts β] : Shifts (α × β) :=
  ⟨fun n x => (shift n x.1, shift n x.2)⟩
instance : Shifts Piece := ⟨fun n p => ⟨shift n p.forest, p.shape⟩⟩
instance : Shifts Rules.MemberHead := ⟨fun n h => ⟨shift n h.forest, h.isStatic, h.isMethod⟩⟩
instance : Shifts Rules.Slot where
  shift n
    | .empty => .empty
    | .spread p => .spread (shift n p)
    | .item p => .item (shift n p)

variable {α β : Type} {n : Nat}

@[simp] theorem shift_unit (a : Unit) : shift n a = a := rfl

@[simp] theorem shift_bool (a : Bool) : shift n a = a := rfl

@[simp] theorem shift_string (a : String) : shift n a = a := rfl

@[simp] theorem shift_text (a : List Char) : shift n a = a := rfl

section Containers

variable [Shifts α] [Shifts β]

@[simp] theorem shift_pair (a : α) (b : β) : shift n (a, b) = (shift n a, shift n b) := rfl

@[simp] theorem fst_shift (x : α × β) : (shift n x).1 = shift n x.1 := rfl

@[simp] theorem snd_shift (x : α × β) : (shift n x).2 = shift n x.2 := rfl

theorem shift_eq_map (as : List α) : shift n as = as.map (shift n) := rfl

@[simp] theorem shift_nil : shift n ([] : List α) = [] := rfl

@[simp] theorem shift_cons (a : α) (as : List α) : shift n (a :: as) = shift n a :: shift n as :=
  rfl

@[simp] theorem shift_append (as bs : List α) : shift n (as ++ bs) = shift n as ++ shift n bs :=
  List.map_append

@[simp] theorem isEmpty_shift (as : List α) : (shift n as).isEmpty = as.isEmpty := by
  cases as <;> rfl

@[simp] theorem shift_eq_nil {as : List α} : shift n as = [] ↔ as = [] := List.map_eq_nil_iff

@[simp] theorem shift_none : shift n (none : Option α) = none := rfl

@[simp] theorem shift_some (a : α) : shift n (some a) = some (shift n a) := rfl

@[simp] theorem isSome_shift (o : Option α) : (shift n o).isSome = o.isSome := by
  cases o <;> rfl

@[simp] theorem toList_shift (o : Option α) : (shift n o).toList = shift n o.toList := by
  cases o <;> rfl

end Containers

@[simp] theorem shift_piece (ts : List Tree) (s : Shape) :
    shift n (⟨ts, s⟩ : Piece) = ⟨shift n ts, s⟩ := rfl

@[simp] theorem forest_shift (p : Piece) : (shift n p).forest = shift n p.forest := rfl

@[simp] theorem shape_shift (p : Piece) : (shift n p).shape = p.shape := rfl

@[simp] theorem shift_node (kind : NodeKind) (role : Role) (start : Place) (stop : Nat)
    (children : List Tree) : shift n (Tree.node kind role start stop children) =
      .node kind role (shift n start) (stop + n) (shift n children) := by
  have hall : Tree.allBehind n children = shift n children := by
    induction children with
    | nil => rfl
    | cons t rest ih => exact congrArg (t.behind n :: ·) ih
  exact congrArg (Tree.node kind role _ _) hall

@[simp] theorem shift_inRole (t : Tree) (r : Role) :
    shift n (t.inRole r) = (shift n t).inRole r := by
  cases t
  rfl

@[simp] theorem children_shift (t : Tree) : (shift n t).children = shift n t.children := by
  cases t
  rw [shift_node]
  rfl

@[simp] theorem offset_shift (p : Place) : (shift n p).offset = p.offset + n := rfl

@[simp] theorem rest_shift (c : Cursor) : (shift n c).rest = c.rest := rfl

@[simp] theorem place_shift (c : Cursor) : (shift n c).place = shift n c.place := rfl

@[simp] theorem shift_memberHead (ts : List Tree) (isStatic isMethod : Bool) :
    shift n (⟨ts, isStatic, isMethod⟩ : Rules.MemberHead) = ⟨shift n ts, isStatic, isMethod⟩ := rfl

@[simp] theorem forest_memberHead_shift (h : Rules.MemberHead) :
    (shift n h).forest = shift n h.forest := rfl

@[simp] theorem isStatic_shift (h : Rules.MemberHead) : (shift n h).isStatic = h.isStatic := rfl

@[simp] theorem isMethod_shift (h : Rules.MemberHead) : (shift n h).isMethod = h.isMethod := rfl

/-! ## Steps -/

namespace Cursor

@[simp] theorem startsWith_shift (c : Cursor) (part : String) :
    (shift n c).startsWith part = c.startsWith part := rfl

theorem step_shift (p : Place) (c : Char) : step (shift n p) c = shift n (step p c) := by
  show step (p.behind n) c = (step p c).behind n
  unfold step Place.behind
  by_cases hc : c = '\n'
  · simp [hc, Nat.add_right_comm]
  · by_cases hrow : p.row = 0 <;> simp [hc, hrow, Nat.add_right_comm]

@[simp] theorem advance_shift (m : Nat) (c : Cursor) :
    (shift n c).advance m = shift n (c.advance m) := by
  induction m generalizing c with
  | zero => rfl
  | succ m ih =>
    obtain ⟨rest, p⟩ := c
    cases rest with
    | nil => exact ih ⟨[], p⟩
    | cons x rest =>
      exact (congrArg (fun q => advance m ⟨rest, q⟩) (step_shift p x)).trans (ih ⟨rest, step p x⟩)

@[simp] theorem skipGaps_shift (c : Cursor) : (shift n c).skipGaps = shift n c.skipGaps :=
  advance_shift _ c

@[simp] theorem skipTrivia_shift (operand : Bool) (fuel : Nat) (c : Cursor) :
    (shift n c).skipTrivia operand fuel = shift n (c.skipTrivia operand fuel) := by
  induction fuel generalizing c with
  | zero => rfl
  | succ fuel ih =>
    simp only [skipTrivia, skipGaps_shift, rest_shift]
    split <;> simp [ih]

end Cursor

/-- Further behind the second does what the first does. -/
abbrev Moved [Shifts α] (n : Nat) (p q : Scan α) : Prop :=
  ∀ c, q (shift n c) = (p c).map (shift n)

/-- A step that reads the text alone. -/
abbrev Still [Shifts α] (n : Nat) (p : Scan α) : Prop := Moved n p p

namespace Scan

@[simp] theorem bind_apply (p : Scan α) (f : α → Scan β) (c : Cursor) :
    (p >>= f) c = (p c).bind fun r => f r.1 r.2 := rfl

@[simp] theorem pure_apply (a : α) (c : Cursor) : (pure a : Scan α) c = some (a, c) := rfl

@[simp] theorem refuse_apply (c : Cursor) : (refuse : Scan α) c = none := rfl

@[simp] theorem failure_apply (c : Cursor) : (failure : Scan α) c = none := rfl

@[simp] theorem get_apply (c : Cursor) : (get : Scan Cursor) c = some (c, c) := rfl

@[simp] theorem set_apply (c d : Cursor) : (set d : Scan PUnit) c = some ((), d) := rfl

@[simp] theorem modify_apply (f : Cursor → Cursor) (c : Cursor) :
    (modify f : Scan PUnit) c = some ((), f c) := rfl

@[simp] theorem ite_apply (b : Prop) [Decidable b] (p q : Scan α) (c : Cursor) :
    (if b then p else q : Scan α) c = if b then p c else q c := by
  split <;> rfl

@[simp] theorem map_apply (f : α → β) (p : Scan α) (c : Cursor) :
    (f <$> p) c = (p c).bind fun r => some (f r.1, r.2) := rfl

@[simp] theorem orElse_apply (p q : Scan α) (c : Cursor) : (p <|> q) c = (p c <|> q c) := rfl

@[simp] theorem skip_apply (m : Nat) (c : Cursor) : skip m c = some ((), c.advance m) := rfl

@[simp] theorem rest_apply (c : Cursor) : rest c = some (c.rest, c) := rfl

@[simp] theorem place_apply (c : Cursor) : place c = some (c.place, c) := rfl

/-- Further behind go on what a step gives further behind. -/
@[simp] theorem bind_map_shift [Shifts α] (o : Option (α × Cursor)) (f : α × Cursor → Option β) :
    (o.map (shift n)).bind f = o.bind fun r => f (shift n r) := Option.bind_map ..

@[simp] theorem map_shift_bind [Shifts β] (o : Option α) (f : α → Option (β × Cursor)) :
    (o.bind f).map (shift n) = o.bind fun r => (f r).map (shift n) := Option.map_bind ..

@[simp] theorem map_shift_ite [Shifts α] (b : Prop) [Decidable b] (o p : Option (α × Cursor)) :
    (if b then o else p).map (shift n) = if b then o.map (shift n) else p.map (shift n) := apply_ite ..

@[simp] theorem map_shift_or [Shifts α] (o p : Option (α × Cursor)) :
    (o.or p).map (shift n) = (o.map (shift n)).or (p.map (shift n)) := Option.map_or

@[simp] theorem map_shift_comp [Shifts α] (f : β → Option (α × Cursor)) :
    Option.map (shift n) ∘ f = fun b => (f b).map (shift n) := rfl

@[simp] theorem shift_getD [Shifts α] (o : Option (α × Cursor)) (r : α × Cursor) :
    shift n (o.getD r) = (o.map (shift n)).getD (shift n r) := by
  cases o <;> rfl

end Scan

theorem Moved.bind [Shifts α] [Shifts β] {p q : Scan α} {f h : α → Scan β} (hp : Moved n p q)
    (hf : ∀ a, Moved n (f a) (h (shift n a))) : Moved n (p >>= f) (q >>= h) := by
  intro c
  rw [Scan.bind_apply, hp, Scan.bind_map_shift, Scan.bind_apply, Scan.map_shift_bind]
  exact congrArg (Option.bind _) (funext fun r => hf r.1 r.2)

theorem Moved.orElse [Shifts α] {p q p' q' : Scan α} (h : Moved n p q) (h' : Moved n p' q') :
    Moved n (p <|> p') (q <|> q') := by
  intro c
  rw [Scan.orElse_apply, h, h', Scan.orElse_apply]
  cases p c <;> rfl

theorem moved_rest : Still n rest := fun _ => rfl

theorem moved_place : Still n place := fun _ => rfl

theorem moved_skip (m : Nat) : Still n (skip m) := fun c =>
  congrArg (fun c => some ((), c)) (Cursor.advance_shift m c)

namespace Rules

variable {g : Rules}

@[simp] theorem sees_apply (text : String) (c : Cursor) :
    sees text c = some (text.toList.isPrefixOf c.rest, c) := rfl

@[simp] theorem close_apply (kind : NodeKind) (start : Place) (children : List Tree) (c : Cursor) :
    close kind start children c = some (.node kind .plain start c.place.offset children, c) := rfl

@[simp] theorem toOperator_apply (c : Cursor) :
    g.toOperator c = some ((), (c.skipTrivia false g.limit).2) := rfl

@[simp] theorem toOperand_apply (c : Cursor) :
    g.toOperand c = some ((), (c.skipTrivia true g.limit).2) := rfl

@[simp] theorem word_apply (c : Cursor) : g.word c =
    some (String.ofList (c.rest.take (nameLength true g.limit c.rest)), c) := rfl

@[simp] theorem shift_single (t : Tree) : shift n (single t) = single (shift n t) := rfl

@[simp] theorem moved_takes (text : String) : Still n (g.takes text) := by
  intro c
  simp [takes]

@[simp] theorem moved_need (text : String) : Still n (g.need text) := by
  intro c
  simp [need]

@[simp] theorem moved_anyName : Still n g.anyName := by
  intro c
  simp [anyName]

@[simp] theorem moved_identifier : Still n g.identifier := by
  intro c
  simp [identifier]

@[simp] theorem moved_takesWord (w : String) : Still n (g.takesWord w) := by
  intro c
  simp [takesWord]

@[simp] theorem moved_needWord (w : String) : Still n (g.needWord w) := by
  intro c
  simp [needWord]

@[simp] theorem moved_continues (ends afterComment : Bool) (fuel : Nat) :
    Still n (g.continues ends afterComment fuel) := by
  induction fuel with
  | zero => exact fun _ => rfl
  | succ fuel ih =>
    intro c
    cases hlength : commentLength? c.skipGaps.rest <;> simp [continues, hlength, ih]

@[simp] theorem moved_goesOn (ends afterComment : Bool) : Still n (g.goesOn ends afterComment) := by
  intro c
  exact moved_continues ends afterComment g.limit c

@[simp] theorem moved_semicolon (afterComment : Bool) : Still n (g.semicolon afterComment) := by
  intro c
  simp [semicolon]

theorem moved_toOperator : Still n g.toOperator := by
  intro c
  simp

theorem moved_toOperand : Still n g.toOperand := by
  intro c
  simp

@[simp] theorem moved_closeQuote (quote : Char) (fuel : Nat) :
    Still n (g.closeQuote quote fuel) := by
  induction fuel with
  | zero => exact fun _ => rfl
  | succ fuel ih =>
    refine .bind moved_rest fun text => .bind (moved_skip _) fun _ => ?_
    rw [shift_text]
    split
    · exact fun _ => rfl
    next more _ => cases escapeLength? ('\\' :: more) <;> intro c <;> simp [ih]
    · intro c
      simp

@[simp] theorem moved_quotedText : Still n g.quotedText := by
  refine .bind moved_toOperator fun _ => .bind moved_rest fun text => ?_
  rw [shift_text]
  split <;> intro c <;> simp

@[simp] theorem moved_mark (kind : NodeKind) (text : String) : Still n (g.mark kind text) := by
  intro c
  simp [mark]

@[simp] theorem moved_star : Still n g.star := by
  intro c
  simp [star]

@[simp] theorem moved_moreMembers (fuel : Nat) : Still n (g.moreMembers fuel) := by
  induction fuel with
  | zero => exact fun _ => rfl
  | succ fuel ih =>
    intro c
    simp [moreMembers, ih]

@[simp] theorem moved_modifier (kind : NodeKind) (w : String) (inClass : Bool) :
    Still n (g.modifier? kind w inClass) := by
  intro c
  simp [modifier?]

@[simp] theorem moved_looksLabelled : Still n g.looksLabelled := by
  intro c
  simp [looksLabelled]

@[simp] theorem moved_seesArrow (ends : Bool) : Still n (g.seesArrow ends) := by
  intro c
  simp [seesArrow]

@[simp] theorem moved_memberBehindDot : Still n g.memberBehindDot := by
  intro c
  simp [memberBehindDot]

@[simp] theorem moved_importOperand : Still n g.importOperand := by
  intro c
  simp [importOperand]

@[simp] theorem moved_isPrefixed : Still n g.isPrefixed := by
  refine .bind moved_rest fun text => ?_
  rw [shift_text]
  split <;> intro c <;> simp

theorem moved_word : Still n g.word := fun _ => rfl

theorem moved_sees (text : String) : Still n (sees text) := fun _ => rfl

@[simp] theorem moved_markupWord : Still n g.markupWord := by
  intro c
  simp [markupWord]

@[simp] theorem moved_markupMembers (fuel : Nat) : Still n (g.markupMembers fuel) := by
  induction fuel with
  | zero => exact fun _ => rfl
  | succ fuel ih =>
    intro c
    simp [markupMembers, ih]

@[simp] theorem moved_markupName : Still n g.markupName := by
  intro c
  simp [markupName]

@[simp] theorem moved_markupText (quote : Char) : Still n (g.markupText quote) := by
  intro c
  simp [markupText]

end Rules
end DelayInjection.JavaScript
