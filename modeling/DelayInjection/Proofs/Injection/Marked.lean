import DelayInjection.Proofs.Injection.Placement
import DelayInjection.Proofs.Injection.Prefix
import DelayInjection.Proofs.Injection.Splice

/-! Insertions behind a byte order mark. What stands in front of a statement on its line is the same as
without the mark, unless the line is the first one; there the bytes of the mark count as code. -/

namespace DelayInjection

open Text.Utf8 (Bytes byteOrderMark encode)

/-- The insertion with more bytes in front of the source. -/
def Insertion.behind (n : Nat) (i : Insertion) : Insertion := ⟨i.offset + n, i.text⟩

namespace Injection

variable {source : Bytes} {offset anchor : Nat}

/-! ## Applied -/

theorem splice_behind (front source : Bytes) (i : Insertion) :
    splice (front ++ source) (i.behind front.length) = front ++ splice source i := by
  have htake : (front ++ source).take (i.offset + front.length) = front ++ source.take i.offset := by
    rw [Nat.add_comm, List.take_length_add_append]
  have hdrop : (front ++ source).drop (i.offset + front.length) = source.drop i.offset := by
    rw [Nat.add_comm, List.drop_length_add_append]
  rw [splice, Insertion.behind, htake, hdrop, splice]
  simp only [List.append_assoc]

theorem apply_behind (front source : Bytes) (insertions : List Insertion) :
    apply (front ++ source) (insertions.map (Insertion.behind front.length)) =
      front ++ apply source insertions := by
  have horder : inOrder (fun i : Insertion => i.offset + front.length) insertions =
      inOrder Insertion.offset insertions := by
    unfold inOrder
    simp only [Nat.add_le_add_iff_right]
  rw [apply_eq_foldr, apply_eq_foldr,
    inOrder_map (fun i : Insertion => i.offset + front.length) (fun _ => rfl), horder]
  generalize inOrder Insertion.offset insertions = ordered
  induction ordered with
  | nil => rfl
  | cons i rest ih => rw [List.map_cons, List.foldr_cons, ih, splice_behind, List.foldr_cons]

/-! ## In front of an offset -/

theorem linePrefix_mark (source : Bytes) (offset : Nat) :
    linePrefix (byteOrderMark ++ source) (offset + 3) =
      if newline ∈ source.take offset then linePrefix source offset
      else byteOrderMark ++ linePrefix source offset := by
  have htake : (byteOrderMark ++ source).take (offset + 3) = byteOrderMark ++ source.take offset := by
    rw [Nat.add_comm]
    exact @List.take_length_add_append _ byteOrderMark source offset
  rw [linePrefix_eq, htake, linePrefix_eq]
  split
  next hmem => exact openLine_append_of_mem hmem
  next hnot =>
    rw [openLine_append_of_not_mem hnot, openLine_of_not_mem hnot]
    rfl

/-- Code stands in front with the mark if it does without, provided that it does on the first line. -/
theorem isInline_mark (h : newline ∉ source.take offset → isInline source offset = true) :
    isInline (byteOrderMark ++ source) (offset + 3) = isInline source offset := by
  rw [isInline, linePrefix_mark]
  split
  · rfl
  next hfirst =>
    rw [h hfirst]
    rfl

/-- The mark takes nothing from what a statement finds in front of it: on the first line code stands
there already, and no indent. -/
def Undisturbed (source : Bytes) (offset : Nat) : Prop :=
  newline ∉ source.take offset → isInline source offset = true ∧ indent source offset = []

theorem indent_mark (h : Undisturbed source offset) :
    indent (byteOrderMark ++ source) (offset + 3) = indent source offset := by
  rw [indent, linePrefix_mark]
  split
  · rfl
  next hfirst =>
    rw [(h hfirst).2]
    rfl

/-! ## The import -/

theorem importInsertion_mark (hmark : startsWithMark source = false) (anchor : Nat)
    (line : List Char) :
    importInsertion (byteOrderMark ++ source) (if anchor = 0 then 0 else anchor + 3) line =
      (importInsertion source anchor line).behind 3 := by
  by_cases hzero : anchor = 0
  · have hmarked : startsWithMark (byteOrderMark ++ source) = true := by
      rw [startsWithMark, List.isPrefixOf_iff_prefix]
      exact List.prefix_append _ _
    rw [if_pos hzero, importInsertion, importInsertion, if_pos rfl, if_pos hzero, hmarked, hmark]
    rfl
  · have hrest : lineRest (byteOrderMark ++ source) (anchor + 3) = lineRest source anchor := by
      rw [lineRest, Nat.add_comm, lineRest]
      exact congrArg (fun rest : Bytes => (rest.takeWhile (· != newline),
        decide ((rest.takeWhile (· != newline)).length < rest.length)))
        (@List.drop_length_add_append _ byteOrderMark source anchor)
    have hlength : (byteOrderMark ++ source).length = source.length + 3 := by
      rw [List.length_append, Nat.add_comm]
      rfl
    rw [if_neg hzero, importInsertion, importInsertion, if_neg (Nat.succ_ne_zero _), if_neg hzero,
      hrest, hlength]
    simp only
    split
    · rfl
    · split
      · simp only [Insertion.behind]
        congr 1
        omega
      · rfl

/-! ## Choices -/

/-- The second choice is the first one, in a source with three more bytes in front. Where lines are not
split, nothing is written on the first one. -/
structure Choice.Trails (source : Bytes) (spelling : Spelling) (c c' : Choice) : Prop where
  container : c'.container = c.container
  index : c'.index = c.index
  offset : c'.site.offset = c.site.offset + 3
  inside : c.site.offset ≤ source.length
  undisturbed : spelling.splitsLines = false → Undisturbed source c.site.offset

/-- One statement gets a delay if the other does, and if so stands three bytes further behind. -/
structure Trails (source source' : Bytes) (options : Options) (spelling : Spelling) (s s' : Site) :
    Prop where
  selects : ∀ n, selects source' options spelling n s' = selects source options spelling n s
  offset : ∀ n, Injection.selects source options spelling n s = true → s'.offset = s.offset + 3
  inside : s.offset ≤ source.length
  undisturbed : spelling.splitsLines = false →
    ∀ n, Injection.selects source options spelling n s = true → Undisturbed source s.offset

/-- The statements of two bodies do so one by one. -/
structure BodyTrails (source source' : Bytes) (options : Options) (spelling : Spelling)
    (body body' : Body) : Prop where
  name : body'.name = body.name
  statements : List.Forall₂ (Trails source source' options spelling) body.statements body'.statements

section Trails

variable {source' : Bytes} {options : Options} {spelling : Spelling}

theorem trails_choicesInBody {sites sites' : List Site}
    (h : List.Forall₂ (Trails source source' options spelling) sites sites') (container : String)
    (position index : Nat) :
    List.Forall₂ (Choice.Trails source spelling)
      (choicesInBody source options spelling container position index sites)
      (choicesInBody source' options spelling container position index sites') := by
  induction h generalizing position index with
  | nil => exact .nil
  | cons hsite _ ih =>
    rw [choicesInBody, choicesInBody, hsite.selects]
    split
    next hselects =>
      refine .cons ⟨rfl, rfl, hsite.offset _ hselects, hsite.inside, fun hwhole => ?_⟩ (ih _ _)
      exact hsite.undisturbed hwhole _ hselects
    next => exact ih _ _

theorem trails_choices {bodies bodies' : List Body}
    (h : List.Forall₂ (BodyTrails source source' options spelling) bodies bodies') :
    List.Forall₂ (Choice.Trails source spelling) (choices source options spelling bodies)
      (choices source' options spelling bodies') := by
  induction h with
  | nil => exact .nil
  | cons hbody _ ih =>
    rw [choices, choices, List.flatMap_cons, List.flatMap_cons, hbody.name]
    exact List.rel_append (trails_choicesInBody hbody.statements _ 0 0) ih

/-- With the mark, the same statements get their delays, and the import goes to the same place. -/
structure LayoutTrails (source source' : Bytes) (options : Options) (spelling : Spelling)
    (layout layout' : Layout) : Prop where
  bodies : List.Forall₂ (BodyTrails source source' options spelling) layout.bodies layout'.bodies
  anchor : layout'.importAnchor = if layout.importAnchor = 0 then 0 else layout.importAnchor + 3
  hasSupportImport : layout'.hasSupportImport = layout.hasSupportImport

end Trails
end Injection
end DelayInjection
