import DelayInjection.JavaScript.Layout
import DelayInjection.Proofs.Text.Lines
import Mathlib.Data.List.TakeWhile

/-! The walk through a tree by means of a stack. It comes to every node once, to each before its
children, and to these in their order. -/

namespace DelayInjection.JavaScript

open Text.Utf8 (Bytes)

namespace Tree

theorem preorder_eq (t : Tree) : t.preorder = t :: preorderAll t.children := by
  cases t
  rfl

theorem size_eq (t : Tree) : t.size = sizeAll t.children + 1 := by
  cases t
  rfl

theorem preorderAll_append (ts us : List Tree) :
    preorderAll (ts ++ us) = preorderAll ts ++ preorderAll us := by
  induction ts with
  | nil => rfl
  | cons t ts ih => rw [List.cons_append, preorderAll, preorderAll, ih, List.append_assoc]

theorem sizeAll_append (ts us : List Tree) : sizeAll (ts ++ us) = sizeAll ts + sizeAll us := by
  induction ts with
  | nil => rw [List.nil_append, sizeAll, Nat.zero_add]
  | cons t ts ih => rw [List.cons_append, sizeAll, sizeAll, ih, Nat.add_assoc]

theorem mem_preorder_of_mem_children {t u : Tree} (h : u ∈ t.children) : u ∈ t.preorder := by
  have hall : ∀ {ts : List Tree}, u ∈ ts → u ∈ preorderAll ts := by
    intro ts hu
    induction ts with
    | nil => cases hu
    | cons t ts ih =>
      rw [preorderAll, List.mem_append]
      rcases List.mem_cons.mp hu with rfl | hu
      · rw [preorder_eq]
        exact .inl List.mem_cons_self
      · exact .inr (ih hu)
  rw [preorder_eq]
  exact List.mem_cons_of_mem _ (hall h)

end Tree

variable (source : Bytes) (skipGenerators : Bool)

/-- What a list of nodes adds to what has been found. -/
def Found.noteAll (found : Found) (ts : List Tree) : Found :=
  ⟨found.bodies ++ ts.filterMap (functionBody? source skipGenerators),
    found.hasSupportImport || ts.any (isSupportImport source)⟩

theorem Found.noteAll_cons (found : Found) (t : Tree) (ts : List Tree) :
    found.noteAll source skipGenerators (t :: ts) =
      (found.note source skipGenerators t).noteAll source skipGenerators ts := by
  simp only [noteAll, note, List.any_cons, Bool.or_assoc, List.append_assoc]
  cases h : functionBody? source skipGenerators t with
  | none => rw [List.filterMap_cons_none h, Option.toList_none, List.nil_append]
  | some body => rw [List.filterMap_cons_some h, Option.toList_some, List.singleton_append]

/-- One step takes a node from the stack and puts its children there, so that what is still to come
stays the same list; enough steps go through all of it. -/
theorem walk_eq {fuel : Nat} {stack : List Tree} (h : Tree.sizeAll stack ≤ fuel) (found : Found) :
    walk source skipGenerators fuel stack found =
      found.noteAll source skipGenerators (Tree.preorderAll stack) := by
  induction fuel generalizing stack found with
  | zero =>
    cases stack with
    | nil => simp [walk, Found.noteAll, Tree.preorderAll]
    | cons t stack =>
      rw [Tree.sizeAll, Tree.size_eq] at h
      omega
  | succ fuel ih =>
    cases stack with
    | nil => simp [walk, Found.noteAll, Tree.preorderAll]
    | cons t stack =>
      rw [Tree.sizeAll, Tree.size_eq] at h
      have hsize : Tree.sizeAll (t.children ++ stack) ≤ fuel := by
        rw [Tree.sizeAll_append]
        omega
      rw [walk, ih hsize, Tree.preorderAll_append, Tree.preorderAll, Tree.preorder_eq,
        List.cons_append, Found.noteAll_cons]

/-- The layout without the walk. The leading imports are nodes of the tree, too. -/
theorem layout_eq (program : Tree) :
    layout source skipGenerators program =
      ⟨topLevelBody (program.children.filter isStatement) ++
          program.preorder.filterMap (functionBody? source skipGenerators),
        importAnchor program (program.children.filter isStatement),
        program.preorder.any (isSupportImport source)⟩ := by
  have hall : Tree.preorderAll [program] = program.preorder := by
    rw [Tree.preorderAll, Tree.preorderAll, List.append_nil]
  have hsize : Tree.sizeAll [program] ≤ program.size := Nat.le_of_eq (Nat.add_zero _)
  have hleading : ∀ {imports : List Tree}, (∀ t ∈ imports, t ∈ program.children) →
      (imports.any (isSupportImport source) || program.preorder.any (isSupportImport source)) =
        program.preorder.any (isSupportImport source) := by
    intro imports hmem
    rw [Bool.or_eq_right_iff_imp, List.any_eq_true, List.any_eq_true]
    rintro ⟨t, ht, himport⟩
    exact ⟨t, Tree.mem_preorder_of_mem_children (hmem t ht), himport⟩
  simp only [layout, walk_eq source skipGenerators hsize, hall, Found.noteAll]
  rw [hleading]
  intro t ht
  exact (List.mem_filter.mp ((List.takeWhile_sublist _).subset ht)).1

/-! ## What the bodies are of -/

/-- Nothing but the declaration of a function, which may be exported. -/
def Declares (t : Tree) : Prop :=
  t.kind = .functionDeclaration ∨ t.kind = .generatorDeclaration ∨
    t.kind = .exportStatement ∧ ∃ d ∈ t.childIn? .declaration,
      d.kind = .functionDeclaration ∨ d.kind = .generatorDeclaration

theorem isHoistedKind_iff {k : NodeKind} :
    isHoistedKind k = true ↔ k = .functionDeclaration ∨ k = .generatorDeclaration := by
  simp [isHoistedKind]

theorem isHoisted_iff {t : Tree} : isHoisted t = true ↔ Declares t := by
  simp only [isHoisted, Declares, Bool.or_eq_true, Bool.and_eq_true, decide_eq_true_eq,
    isHoistedKind_iff, Option.any_eq_true, or_assoc, Option.mem_def]

/-- A function whose delays go into a block: it is async, what it has for a body is a block and not an
expression, and it is no generator if these are passed over. -/
structure IsContainer (skipGenerators : Bool) (t block : Tree) : Prop where
  function : t.kind ∈ [.functionDeclaration, .generatorDeclaration, .functionExpression,
    .generatorExpression, .method, .arrow]
  async : ∃ c ∈ t.children, c.kind = .asyncWord
  generator : skipGenerators = true → t.kind ≠ .generatorDeclaration ∧
    t.kind ≠ .generatorExpression ∧ (t.kind = .method → ∀ c ∈ t.children, c.kind ≠ .star)
  body : t.childIn? .body = some block
  block : block.kind = .block

theorem isFunction_iff {k : NodeKind} : isFunction k = true ↔
    k ∈ [NodeKind.functionDeclaration, .generatorDeclaration, .functionExpression,
      .generatorExpression, .method, .arrow] := by
  cases k <;> decide

theorem isAsync_iff {t : Tree} : isAsync t = true ↔ ∃ c ∈ t.children, c.kind = .asyncWord := by
  simp only [isAsync, List.any_eq_true, decide_eq_true_eq]

theorem isGenerator_eq_false_iff {t : Tree} : isGenerator t = false ↔
    t.kind ≠ .generatorDeclaration ∧ t.kind ≠ .generatorExpression ∧
      (t.kind = .method → ∀ c ∈ t.children, c.kind ≠ .star) := by
  simp only [isGenerator, Bool.or_eq_false_iff, Bool.and_eq_false_imp, decide_eq_false_iff_not,
    decide_eq_true_eq, List.any_eq_false, and_assoc, ne_eq]

theorem asyncBlock?_eq_some_iff {skipGenerators : Bool} {t block : Tree} :
    asyncBlock? skipGenerators t = some block ↔ IsContainer skipGenerators t block := by
  have hcandidate : (!isFunction t.kind || !isAsync t || (skipGenerators && isGenerator t)) = false ↔
      t.kind ∈ [NodeKind.functionDeclaration, .generatorDeclaration, .functionExpression,
        .generatorExpression, .method, .arrow] ∧ (∃ c ∈ t.children, c.kind = .asyncWord) ∧
        (skipGenerators = true → isGenerator t = false) := by
    rw [Bool.or_eq_false_iff, Bool.or_eq_false_iff, Bool.not_eq_false', Bool.not_eq_false',
      Bool.and_eq_false_imp, isFunction_iff, isAsync_iff, and_assoc]
  unfold asyncBlock?
  split
  next hno =>
    refine ⟨nofun, fun h => ?_⟩
    rw [hcandidate.mpr ⟨h.function, h.async,
      fun hskip => isGenerator_eq_false_iff.mpr (h.generator hskip)⟩] at hno
    cases hno
  next hyes =>
    obtain ⟨hfunction, hasync, hgenerator⟩ := hcandidate.mp (Bool.not_eq_true _ ▸ hyes)
    rw [Option.filter_eq_some_iff, decide_eq_true_eq]
    constructor
    · rintro ⟨hbody, hblock⟩
      exact ⟨hfunction, hasync, fun hskip => isGenerator_eq_false_iff.mp (hgenerator hskip), hbody,
        hblock⟩
    · exact fun h => ⟨h.body, h.block⟩

instance (t : Tree) : Decidable (Declares t) := decidable_of_iff _ isHoisted_iff

instance (skipGenerators : Bool) (t : Tree) :
    Decidable (∃ block, IsContainer skipGenerators t block) :=
  decidable_of_iff ((asyncBlock? skipGenerators t).isSome = true) (by
    simp only [Option.isSome_iff_exists, asyncBlock?_eq_some_iff])

/-- The statements among the children of a node. -/
def statementsOf (t : Tree) : List Tree :=
  t.children.filter fun c => c.kind ≠ .comment ∧ c.kind ≠ .hashBang

theorem filter_isStatement (t : Tree) : t.children.filter isStatement = statementsOf t := by
  unfold statementsOf
  congr 1
  funext c
  rw [Bool.eq_iff_iff]
  simp [isStatement]

/-- The body of the top level of a module, by what it evaluates behind its imports. -/
def topLevelOf (evaluated : List Tree) : List Body :=
  if evaluated = [] then [] else [⟨"<top-level>", evaluated.map site⟩]

/-- The leading imports apart, and what is evaluated behind them. -/
theorem topLevelBody_eq (statements : List Tree) : ∃ imports rest, statements = imports ++ rest ∧
    (∀ t ∈ imports, t.kind = .importStatement) ∧ (∀ t ∈ rest.head?, t.kind ≠ .importStatement) ∧
    topLevelBody statements = topLevelOf (rest.filter fun t => ¬Declares t) := by
  refine ⟨statements.takeWhile (·.kind = .importStatement),
    statements.dropWhile (·.kind = .importStatement), List.takeWhile_append_dropWhile.symm, ?_, ?_, ?_⟩
  · intro t ht
    have himport := List.mem_takeWhile_imp ht
    exact of_decide_eq_true himport
  · intro t ht himport
    have hhead := List.head?_dropWhile_not (fun t : Tree => decide (t.kind = .importStatement)) statements
    rw [Option.mem_def.mp ht] at hhead
    simp [himport] at hhead
  · have hfilter : (fun t => !isHoisted t) = fun t => decide ¬Declares t := by
      funext t
      rw [Bool.eq_iff_iff, Bool.not_eq_true', decide_eq_true_eq, ← Bool.not_eq_true, isHoisted_iff]
    simp only [topLevelBody, topLevelOf, hfilter, List.isEmpty_iff]
    rfl

/-- The bodies of functions are those of the containers, in their order. -/
theorem exists_containers (ts : List Tree) : ∃ containers : List (Tree × Tree),
    containers.map (·.1) = ts.filter (fun t => ∃ block, IsContainer skipGenerators t block) ∧
      (∀ c ∈ containers, IsContainer skipGenerators c.1 c.2) ∧
      ts.filterMap (functionBody? source skipGenerators) = containers.map fun c =>
        ⟨containerName source c.1, (statementsOf c.2).map site⟩ := by
  induction ts with
  | nil => exact ⟨[], rfl, by simp, rfl⟩
  | cons t ts ih =>
    obtain ⟨containers, hnodes, hall, hbodies⟩ := ih
    cases h : asyncBlock? skipGenerators t with
    | none =>
      have hno : ¬∃ block, IsContainer skipGenerators t block := by
        rintro ⟨block, hblock⟩
        rw [asyncBlock?_eq_some_iff.mpr hblock] at h
        cases h
      have hnone : functionBody? source skipGenerators t = none := by rw [functionBody?, h]; rfl
      refine ⟨containers, ?_, hall, ?_⟩
      · rw [List.filter_cons_of_neg (by simpa using hno), hnodes]
      · rw [List.filterMap_cons_none hnone, hbodies]
    | some block =>
      have hblock := asyncBlock?_eq_some_iff.mp h
      have hsome : functionBody? source skipGenerators t =
          some ⟨containerName source t, (statementsOf block).map site⟩ := by
        rw [functionBody?, h, Option.map_some, filter_isStatement]
      refine ⟨(t, block) :: containers, ?_, ?_, ?_⟩
      · rw [List.filter_cons_of_pos (by simpa using ⟨block, hblock⟩), List.map_cons, hnodes]
      · exact List.forall_mem_cons.mpr ⟨hblock, hall⟩
      · rw [List.filterMap_cons_some hsome, hbodies, List.map_cons]

theorem site_kind_iff (t : Tree) : ((site t).kind = .returns ↔ t.kind = .returnStatement) ∧
    ((site t).kind = .throws ↔ t.kind = .throwStatement) := by
  have hkind : ∀ k, (siteKind k = .returns ↔ k = .returnStatement) ∧
      (siteKind k = .throws ↔ k = .throwStatement) := by
    intro k
    cases k <;> decide
  exact hkind t.kind

theorem isSupportImport_iff {t : Tree} : isSupportImport source t = true ↔
    t.kind = .importStatement ∧
      Text.Utf8.encode "flake-monster.runtime".toList <:+: slice source t := by
  rw [isSupportImport, Bool.and_eq_true, decide_eq_true_eq, Text.containsPart_iff]
  rfl

variable {source skipGenerators}

end DelayInjection.JavaScript
