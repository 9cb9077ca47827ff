import DelayInjection.Proofs.Python.Layout

/-! Yields and the scopes that evaluate them. The head of a definition belongs to the scope around it,
with its decorators and its defaults, but the search for yields leaves definitions out as a whole. So
an async function gets a body in spite of the yields in such heads. -/

namespace DelayInjection.Python

open Text.Utf8 (Bytes)

/-- Where a yield stands that a scope evaluates. -/
inductive Place where
  /-- In an expression of the scope itself. -/
  | plain
  /-- In the head of a definition in the scope, or among the defaults of a function without a name. -/
  | head

/-- A yield is evaluated together with the expressions. The body of a function without a name is
evaluated later, and in a scope of its own. -/
inductive Evaluates : List Inner → Place → Prop where
  | yields {parts inner : List Inner} (h : .yields inner ∈ parts) : Evaluates parts .plain
  | operand {parts inner : List Inner} {place : Place} (h : .yields inner ∈ parts)
      (hinner : Evaluates inner place) : Evaluates parts place
  | preset {parts defaults body : List Inner} {place : Place} (h : .lambda defaults body ∈ parts)
      (hdefaults : Evaluates defaults place) : Evaluates parts .head

/-- A yield of the statement is evaluated in the scope in which the statement stands: for the definition
of a function or a class one in its head, for another statement also one in the blocks below it. -/
inductive Statement.Evaluates : Statement → Place → Prop where
  | decorator {s : Statement} {d : Decorator} {place : Place} (h : d ∈ s.decorators)
      (hinner : Python.Evaluates d.inner place) : s.Evaluates .head
  | definition {s : Statement} {c : Clause} {place : Place} (hscope : s.opensScope = true)
      (h : c ∈ s.clauses) (hinner : Python.Evaluates c.inner place) : s.Evaluates .head
  | header {s : Statement} {c : Clause} {place : Place} (hscope : s.opensScope = false)
      (h : c ∈ s.clauses) (hinner : Python.Evaluates c.inner place) : s.Evaluates place
  | nested {s t : Statement} {c : Clause} {place : Place} (hscope : s.opensScope = false)
      (h : c ∈ s.clauses) (ht : t ∈ c.block) (hnested : t.Evaluates place) : s.Evaluates place

/-! ## What the search finds -/

theorem any_isYield_iff {parts : List Inner} :
    parts.any Inner.isYield = true ↔ Evaluates parts .plain := by
  rw [List.any_eq_true]
  constructor
  · rintro ⟨part, hmem, hyield⟩
    cases part with
    | yields inner => exact .yields hmem
    | lambda defaults body => cases hyield
  · rintro (h | ⟨h, -⟩)
    · exact ⟨_, h, rfl⟩
    · exact ⟨_, h, rfl⟩

theorem Statement.hasYield_eq (s : Statement) :
    s.hasYield = (!s.opensScope && clausesHaveYield s.clauses) := by
  obtain ⟨kind, extent, decorators, clauses⟩ := s
  cases kind <;> rfl

theorem clausesHaveYield_iff {clauses : List Clause} : clausesHaveYield clauses = true ↔
    ∃ c ∈ clauses, Evaluates c.inner .plain ∨ blockHasYield c.block = true := by
  induction clauses with
  | nil => simp [clausesHaveYield]
  | cons c rest ih =>
    obtain ⟨words, inner, block⟩ := c
    simp only [clausesHaveYield, Bool.or_eq_true, ih, any_isYield_iff, List.mem_cons,
      exists_eq_or_imp, Clause.inner, Clause.block]

theorem blockHasYield_iff_exists {block : List Statement} :
    blockHasYield block = true ↔ ∃ s ∈ block, s.hasYield = true := by
  induction block with
  | nil => simp [blockHasYield]
  | cons s rest ih => simp only [blockHasYield, Bool.or_eq_true, ih, List.mem_cons, exists_eq_or_imp]

/-- Every yield that is found is evaluated: by recursion over the statement, its clauses and their
blocks. -/
theorem Statement.evaluates_of_hasYield (s : Statement) (h : s.hasYield = true) :
    s.Evaluates .plain := by
  rw [hasYield_eq, Bool.and_eq_true, Bool.not_eq_true', clausesHaveYield_iff] at h
  obtain ⟨hscope, c, hc, hinner | hblock⟩ := h
  · exact .header hscope hc hinner
  · obtain ⟨t, ht, hyield⟩ := blockHasYield_iff_exists.mp hblock
    have hsmaller : sizeOf t < sizeOf s := by
      obtain ⟨kind, extent, decorators, clauses⟩ := s
      obtain ⟨words, inner, block⟩ := c
      have hclause := List.sizeOf_lt_of_mem hc
      have hstatement := List.sizeOf_lt_of_mem ht
      simp only [Clause.block, Statement.clauses, Statement.node.sizeOf_spec,
        Clause.clause.sizeOf_spec] at hclause hstatement ⊢
      omega
    exact .nested hscope hc ht (evaluates_of_hasYield t hyield)
termination_by sizeOf s

theorem Statement.hasYield_iff {s : Statement} : s.hasYield = true ↔ s.Evaluates .plain := by
  refine ⟨s.evaluates_of_hasYield, fun h => ?_⟩
  generalize hplace : Place.plain = place at h
  induction h with
  | decorator => cases hplace
  | definition => cases hplace
  | header hscope hc hinner =>
    subst hplace
    rw [hasYield_eq, hscope, clausesHaveYield_iff.mpr ⟨_, hc, .inl hinner⟩]
    rfl
  | nested hscope hc ht _ ih =>
    have hblock := blockHasYield_iff_exists.mpr ⟨_, ht, ih hplace⟩
    rw [hasYield_eq, hscope, clausesHaveYield_iff.mpr ⟨_, hc, .inr hblock⟩]
    rfl

theorem blockHasYield_iff {block : List Statement} :
    blockHasYield block = true ↔ ∃ s ∈ block, s.Evaluates .plain := by
  simp only [blockHasYield_iff_exists, Statement.hasYield_iff]

/-! ## Which functions have a body -/

/-- The statements of a function or a class. -/
def Statement.body (s : Statement) : List Statement := s.clauses.flatMap Clause.block

/-- All yields that the scope of a function evaluates stand in the heads of what is defined in it. -/
def Statement.YieldsInHeads (s : Statement) : Prop :=
  ∀ t ∈ s.body, ∀ place, t.Evaluates place → place = .head

theorem Statement.yieldsInHeads_iff {s : Statement} :
    s.YieldsInHeads ↔ blockHasYield s.body = false := by
  rw [← Bool.not_eq_true, blockHasYield_iff]
  constructor
  · rintro h ⟨t, ht, hplain⟩
    cases h t ht .plain hplain
  · intro h t ht place hevaluates
    cases place with
    | plain => exact absurd ⟨t, ht, hevaluates⟩ h
    | head => rfl

theorem asyncBody?_eq_some_iff {lines : List Bytes} {s : Statement} {body : Body} :
    asyncBody? lines true s = some body ↔
      s.kind = .function true body.name ∧ withoutDescription s.body ≠ [] ∧
        body.statements = (withoutDescription s.body).map (site lines) ∧ s.YieldsInHeads := by
  rw [Statement.yieldsInHeads_iff]
  unfold asyncBody? Statement.body
  split
  next name hkind =>
    simp only [Bool.true_and]
    split
    next hnone =>
      refine ⟨nofun, ?_⟩
      rintro ⟨-, hne, -, hyield⟩
      rw [Bool.or_eq_true, hyield, List.isEmpty_iff] at hnone
      exact absurd (hnone.resolve_left Bool.false_ne_true) hne
    next hsome =>
      rw [Bool.or_eq_true, not_or, List.isEmpty_iff, Bool.not_eq_true] at hsome
      obtain ⟨bodyName, statements⟩ := body
      rw [hkind, Option.some.injEq, Body.mk.injEq, StatementKind.function.injEq]
      constructor
      · rintro ⟨rfl, rfl⟩
        exact ⟨⟨rfl, rfl⟩, hsome.2, rfl, hsome.1⟩
      · rintro ⟨⟨-, rfl⟩, -, rfl, -⟩
        exact ⟨rfl, rfl⟩
  next hkind =>
    refine ⟨nofun, ?_⟩
    rintro ⟨heq, -⟩
    exact absurd heq (hkind _)

end DelayInjection.Python
