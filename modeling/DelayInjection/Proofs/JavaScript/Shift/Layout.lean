import DelayInjection.Proofs.JavaScript.Shift.Statement
import DelayInjection.Proofs.JavaScript.Statement

/-! Behind a byte order mark a module has the outline that it has without one, three bytes further behind,
and so has its layout. -/

namespace DelayInjection.JavaScript

open Text.Utf8 (Bytes byteOrderMark)

variable {n : Nat}

/-! ## The outline -/

/-- The outline behind a mark. The module itself still starts at the very top. -/
def Tree.behindMark : Tree → Tree
  | .node kind role start stop children => .node kind role start (stop + 3) (shift 3 children)

/-- The mark is a blank, so the first token is the one that comes first without it. -/
theorem skipTrivia_ofText_mark (operand : Bool) (fuel : Nat) (text : List Char) :
    (Cursor.ofText (Text.mark :: text)).skipTrivia operand (fuel + 1) =
      shift 3 ((Cursor.ofText text).skipTrivia operand (fuel + 1)) := by
  have hgaps : (Cursor.ofText (Text.mark :: text)).skipGaps =
      shift 3 (Cursor.ofText text).skipGaps := by
    have htake : (Text.mark :: text).takeWhile isGap = Text.mark :: text.takeWhile isGap :=
      List.takeWhile_cons_of_pos (by decide)
    rw [← Cursor.skipGaps_shift, Cursor.skipGaps, Cursor.ofText, htake]
    rfl
  rw [← Cursor.skipTrivia_shift]
  simp only [Cursor.skipTrivia, hgaps, Cursor.skipGaps_shift]

theorem programRule_ofText_mark {g : Rules} [g.Travels] (hlimit : 0 < g.limit) (text : List Char) :
    (programRule g (Cursor.ofText (Text.mark :: text))).map (·.1) =
      ((programRule g (Cursor.ofText text)).map (·.1)).map Tree.behindMark := by
  obtain ⟨limit, hlimit⟩ : ∃ m, g.limit = m + 1 := ⟨g.limit - 1, by omega⟩
  simp only [programRule, hlimit, Scan.bind_apply, Scan.place_apply, Scan.get_apply, Scan.set_apply,
    Option.bind_some, skipTrivia_ofText_mark, fst_shift, snd_shift, moved_hashBang,
    Scan.bind_map_shift, Rules.moved_statements, Scan.rest_apply, Option.map_bind]
  refine congrArg (Option.bind _) (funext fun opening => ?_)
  simp only [Function.comp_apply, rest_shift, Scan.ite_apply, Rules.close_apply, Scan.failure_apply]
  cases g.statements (limit + 1) opening.2 with
  | none => rfl
  | some found =>
    simp only [Option.bind_some]
    split <;> simp [Tree.behindMark, Cursor.ofText]

theorem outline?_mark {text : List Char} (h : text.head? ≠ some Text.mark) :
    outline? (Text.mark :: text) = (outline? text).map Tree.behindMark := by
  have hsplit : (Text.splitMark text).2 = text :=
    congrArg Prod.snd (@Text.splitMark_of_cases [] text (.inr ⟨rfl, h⟩))
  have hzero : (Text.mark :: text).contains '\x00' = text.contains '\x00' := by
    simp [Text.mark]
  have := travels_parsePart (text.length + 1) (4 * (text.length + 1))
  unfold outline?
  rw [hzero, hsplit, Text.splitMark, if_pos rfl]
  simp only
  split
  · rfl
  · exact programRule_ofText_mark (g := ⟨text.length + 1, parsePart _ (4 * (text.length + 1))⟩)
      (Nat.succ_pos _) text

/-! ## The layout -/

@[simp] theorem kind_shift (t : Tree) : (shift n t).kind = t.kind := by
  cases t
  rfl

@[simp] theorem role_shift (t : Tree) : (shift n t).role = t.role := by
  cases t
  rfl

@[simp] theorem start_shift (t : Tree) : (shift n t).start = shift n t.start := by
  cases t
  rfl

@[simp] theorem stop_shift (t : Tree) : (shift n t).stop = t.stop + n := by
  cases t
  rfl

theorem filter_shift {p : Tree → Bool} (hp : ∀ t, p (shift n t) = p t) (ts : List Tree) :
    (shift n ts).filter p = shift n (ts.filter p) := by
  rw [shift_eq_map, List.filter_map, show p ∘ shift n = p from funext hp]
  rfl

mutual

theorem preorder_shift (t : Tree) : (shift n t).preorder = shift n t.preorder := by
  obtain ⟨kind, role, start, stop, children⟩ := t
  rw [shift_node, Tree.preorder, Tree.preorder, preorderAll_shift children, shift_cons, shift_node]

theorem preorderAll_shift (ts : List Tree) :
    Tree.preorderAll (shift n ts) = shift n (Tree.preorderAll ts) := by
  match ts with
  | [] => rfl
  | t :: ts =>
    rw [shift_cons, Tree.preorderAll, Tree.preorderAll, preorder_shift t, preorderAll_shift ts,
      shift_append]

end

/-- The site of a statement with more bytes in front of its first line. -/
def Site.behind (n : Nat) (s : Site) : Site :=
  ⟨s.kind, s.offset + n, s.line, if s.line = 1 then s.column + n else s.column⟩

def Body.behind (n : Nat) (b : Body) : Body := ⟨b.name, b.statements.map (Site.behind n)⟩

theorem site_shift (t : Tree) : site (shift n t) = Site.behind n (site t) := by
  obtain ⟨kind, role, ⟨offset, row, column⟩, stop, children⟩ := t
  have hrow : ((row : Int) + 1 = 1) ↔ row = 0 := by omega
  simp only [site, Site.behind, shift_node, Tree.kind, Tree.start]
  show Site.mk _ (offset + n) (row + 1 : Int) ((if row = 0 then column + n else column : Nat) : Int) = _
  by_cases h : row = 0 <;> simp [h, hrow]

theorem map_site_shift (ts : List Tree) :
    (shift n ts).map site = (ts.map site).map (Site.behind n) := by
  rw [shift_eq_map, List.map_map, List.map_map]
  exact List.map_congr_left fun t _ => site_shift t

theorem childIn?_shift (t : Tree) (r : Role) : (shift n t).childIn? r = shift n (t.childIn? r) := by
  rw [Tree.childIn?, Tree.childIn?, children_shift, shift_eq_map, List.find?_map]
  refine congrArg (Option.map (shift n)) (congrArg (List.find? · _) (funext fun t => ?_))
  simp

theorem any_children_shift {p : Tree → Bool} (hp : ∀ t, p (shift n t) = p t) (ts : List Tree) :
    (shift n ts).any p = ts.any p := by
  rw [shift_eq_map, List.any_map, show p ∘ shift n = p from funext hp]

theorem slice_shift (source : Bytes) (t : Tree) :
    slice (byteOrderMark ++ source) (shift 3 t) = slice source t := by
  have hdrop : (byteOrderMark ++ source).drop (t.start.offset + 3) = source.drop t.start.offset := by
    rw [Nat.add_comm]
    exact @List.drop_length_add_append _ byteOrderMark source _
  rw [slice, slice, start_shift, stop_shift, offset_shift, hdrop, Nat.add_sub_add_right]

theorem isStatement_shift (t : Tree) : isStatement (shift n t) = isStatement t := by
  simp [isStatement]

theorem isHoisted_shift (t : Tree) : isHoisted (shift n t) = isHoisted t := by
  rw [isHoisted, isHoisted, childIn?_shift, kind_shift]
  cases t.childIn? .declaration <;> simp

theorem containerName_shift (source : Bytes) (t : Tree) :
    containerName (byteOrderMark ++ source) (shift 3 t) = containerName source t := by
  rw [containerName, containerName, childIn?_shift, kind_shift]
  cases t.childIn? .name with
  | none => rfl
  | some name => simp [slice_shift]

theorem asyncBlock?_shift (skipGenerators : Bool) (t : Tree) :
    asyncBlock? skipGenerators (shift n t) = shift n (asyncBlock? skipGenerators t) := by
  have hasync : isAsync (shift n t) = isAsync t := by
    rw [isAsync, isAsync, children_shift, any_children_shift fun t => by simp]
  have hgenerator : isGenerator (shift n t) = isGenerator t := by
    rw [isGenerator, isGenerator, children_shift, any_children_shift (fun t => by simp), kind_shift]
  rw [asyncBlock?, asyncBlock?, hasync, hgenerator, kind_shift, childIn?_shift]
  split
  · rfl
  · cases t.childIn? .body with
    | none => rfl
    | some block => by_cases hblock : block.kind = .block <;> simp [hblock, Option.filter]

theorem functionBody?_shift (source : Bytes) (skipGenerators : Bool) (t : Tree) :
    functionBody? (byteOrderMark ++ source) skipGenerators (shift 3 t) =
      (functionBody? source skipGenerators t).map (Body.behind 3) := by
  rw [functionBody?, functionBody?, asyncBlock?_shift, containerName_shift]
  cases asyncBlock? skipGenerators t with
  | none => rfl
  | some block =>
    simp only [shift_some, Option.map_some, children_shift, filter_shift isStatement_shift,
      map_site_shift]
    rfl

theorem topLevelBody_shift (ts : List Tree) :
    topLevelBody (shift n ts) = (topLevelBody ts).map (Body.behind n) := by
  have hdrop : (shift n ts).dropWhile (·.kind = .importStatement) =
      shift n (ts.dropWhile (·.kind = .importStatement)) := by
    rw [shift_eq_map, List.dropWhile_map]
    refine congrArg (List.map _) (congrArg (List.dropWhile · ts) (funext fun t => ?_))
    simp
  unfold topLevelBody
  have hfilter := @filter_shift n (fun t => !isHoisted t) fun t => congrArg (!·) (isHoisted_shift t)
  simp only [hdrop, hfilter, isEmpty_shift, map_site_shift]
  split <;> rfl

theorem isSupportImport_shift (source : Bytes) (t : Tree) :
    isSupportImport (byteOrderMark ++ source) (shift 3 t) = isSupportImport source t := by
  simp [isSupportImport, slice_shift]

theorem importAnchor_behindMark {program : Tree}
    (hstop : ∀ t ∈ program.children, t.kind = .importStatement ∨ t.kind = .hashBang → t.stop ≠ 0) :
    importAnchor program.behindMark (program.behindMark.children.filter isStatement) =
      if importAnchor program (program.children.filter isStatement) = 0 then 0
      else importAnchor program (program.children.filter isStatement) + 3 := by
  have hchildren : program.behindMark.children = shift 3 program.children := by
    cases program
    rfl
  have hlast : ((shift 3 (program.children.filter isStatement)).takeWhile
      (·.kind = .importStatement)).getLast? = ((program.children.filter isStatement).takeWhile
        (·.kind = .importStatement)).getLast?.map (shift 3) := by
    rw [shift_eq_map, List.takeWhile_map,
      List.getLast?_map]
    refine congrArg (Option.map _) (congrArg List.getLast? (congrArg (List.takeWhile · _) ?_))
    funext t
    simp
  have hfind : (shift 3 program.children).find? (·.kind = .hashBang) =
      (program.children.find? (·.kind = .hashBang)).map (shift 3) := by
    rw [shift_eq_map, List.find?_map]
    refine congrArg (Option.map _) (congrArg (List.find? · _) ?_)
    funext t
    simp
  unfold importAnchor
  rw [hchildren, filter_shift isStatement_shift, hlast, hfind]
  cases hends : ((program.children.filter isStatement).takeWhile
      (·.kind = .importStatement)).getLast? with
  | some t =>
    have hmem := List.mem_of_getLast? hends
    have hkind := List.all_eq_true.mp List.all_takeWhile t hmem
    have hne := hstop t (List.mem_filter.mp ((List.takeWhile_sublist _).subset hmem)).1
      (.inl (by simpa using hkind))
    simp [hne]
  | none =>
    cases hopens : program.children.find? (·.kind = .hashBang) with
    | some t =>
      have hne := hstop t (List.mem_of_find?_eq_some hopens)
        (.inr (by simpa using List.find?_some hopens))
      simp [hne]
    | none => rfl

theorem kind_of_outline {text : List Char} {program : Tree} (h : outline? text = some program) :
    program.kind = .program := by
  unfold outline? at h
  simp only at h
  split at h
  · cases h
  · obtain ⟨⟨t, c⟩, hrun, rfl⟩ := Option.map_eq_some_iff.mp h
    simp only [programRule, Scan.bind_apply, Scan.ite_apply, Rules.close_apply,
      Scan.failure_apply, Option.bind_eq_some_iff] at hrun
    obtain ⟨_, -, _, -, _, -, _, -, _, -, _, -, hclose⟩ := hrun
    split at hclose
    · cases hclose
      rfl
    · cases hclose

/-- Behind a mark every statement stands three bytes further behind, and so does what the import goes
behind. -/
theorem layout_behindMark {text : List Char} {program : Tree} (h : outline? text = some program)
    (skipGenerators : Bool) :
    layout (byteOrderMark ++ Text.Utf8.encode text) skipGenerators program.behindMark =
      let unmarked := layout (Text.Utf8.encode text) skipGenerators program
      ⟨unmarked.bodies.map (Body.behind 3),
        if unmarked.importAnchor = 0 then 0 else unmarked.importAnchor + 3,
        unmarked.hasSupportImport⟩ := by
  have hstop : ∀ t ∈ program.children, t.kind = .importStatement ∨ t.kind = .hashBang →
      t.stop ≠ 0 := by
    intro t ht hkind hzero
    obtain ⟨c, ⟨passed, ⟨-, hoffset⟩, hink⟩, hends, -⟩ := (settled_of_outline h).1 t ht hkind
    rw [hzero, hoffset] at hends
    have hnil : passed = [] := by
      cases passed with
      | nil => rfl
      | cons x passed =>
        have hpos := List.length_pos_iff.mpr (Text.Utf8.encodeChar_ne_nil x)
        rw [Text.Utf8.encode_cons, List.length_append] at hends
        omega
    rw [hnil] at hink
    exact Text.not_inked_nil hink
  have hkind := kind_of_outline h
  have hanchor := importAnchor_behindMark hstop
  obtain ⟨kind, role, start, stop, children⟩ := program
  obtain rfl : kind = .program := hkind
  have hpreorder : (Tree.behindMark (.node .program role start stop children)).preorder =
      .node .program role start (stop + 3) (shift 3 children) ::
        shift 3 (Tree.preorderAll children) := by
    rw [Tree.behindMark, Tree.preorder, preorderAll_shift]
  have hbodies : (shift 3 (Tree.preorderAll children)).filterMap
      (functionBody? (byteOrderMark ++ Text.Utf8.encode text) skipGenerators) =
        ((Tree.preorderAll children).filterMap
          (functionBody? (Text.Utf8.encode text) skipGenerators)).map (Body.behind 3) := by
    rw [shift_eq_map, List.filterMap_map,
      List.map_filterMap]
    exact List.filterMap_congr fun t _ => functionBody?_shift _ _ t
  have himport : (shift 3 (Tree.preorderAll children)).any
      (isSupportImport (byteOrderMark ++ Text.Utf8.encode text)) =
        (Tree.preorderAll children).any (isSupportImport (Text.Utf8.encode text)) := by
    rw [shift_eq_map, List.any_map]
    exact congrArg (List.any _) (funext fun t => isSupportImport_shift _ t)
  have hnone : ∀ (source : Bytes) (stop : Nat) (children : List Tree),
      functionBody? source skipGenerators (.node .program role start stop children) = none :=
    fun _ _ _ => rfl
  have hno : ∀ (source : Bytes) (stop : Nat) (children : List Tree),
      isSupportImport source (.node .program role start stop children) = false := fun _ _ _ => rfl
  simp only [layout_eq, hanchor, hpreorder, Tree.preorder, List.filterMap_cons, hnone, List.any_cons,
    hno, hbodies, himport, List.map_append]
  rw [← topLevelBody_shift, ← filter_shift isStatement_shift]
  rfl

theorem locate_mark {text : List Char} (h : text.head? ≠ some Text.mark) {options : Options}
    {found : DelayInjection.Layout}
    (hlocate : locate (Text.Utf8.encode text) options = .ok found) :
    locate (Text.Utf8.encode (Text.mark :: text)) options =
      .ok ⟨found.bodies.map (Body.behind 3),
        if found.importAnchor = 0 then 0 else found.importAnchor + 3, found.hasSupportImport⟩ := by
  have hdecode : ∀ t : List Char, Text.Utf8.decode? (Text.Utf8.encode t) = some t := fun t => by
    rw [Text.Utf8.decode?, Text.Utf8.decode_encode]
    rfl
  unfold locate at hlocate ⊢
  rw [hdecode, Option.bind_some] at hlocate ⊢
  rw [outline?_mark h]
  cases houtline : outline? text with
  | none =>
    rw [houtline] at hlocate
    cases hlocate
  | some program =>
    rw [houtline] at hlocate
    cases hlocate
    exact congrArg Except.ok (layout_behindMark houtline options.skipGenerators)

end DelayInjection.JavaScript
