import DelayInjection.Proofs.Python.Statement

/-! Statements of Python with blocks. A block comes behind a colon, and the decorators in it behind the end of
a line. Texts and imports that open a module are no part of a block, and end as such statements do. -/

set_option mvcgen.warning false

namespace DelayInjection.Python

open Std.Do

variable {tokens rest : List Token}

namespace Statement

/-- Where a statement of a block stands: behind a colon, and if it is decorated, on further lines. -/
structure Below (tokens : List Token) (s : Statement) : Prop where
  colon : ∃ u rest, u :: rest <:+ tokens ∧ u.text = ":" ∧ s.Starts rest
  decorators : ∀ d ∈ s.decorators, ∃ u rest v behind, u :: rest <:+ tokens ∧ u.text = ":" ∧
    v :: behind <:+ rest ∧ v.kind = .newline ∧ Opens behind d.line

/-- So stand all statements of the blocks in the statement. -/
def Nested (tokens : List Token) (s : Statement) : Prop :=
  ∀ t ∈ s.preorder, ∀ c ∈ t.clauses, ∀ b ∈ c.block, b.Below tokens

/-- What the parse of a statement tells of it. -/
structure Read (tokens : List Token) (s : Statement) : Prop where
  settled : s.Settled tokens
  starts : s.Starts tokens
  decorators : ∀ d ∈ s.decorators, Opens tokens d.line
  nested : s.Nested tokens

/-- What the parse of a block tells of its statements. -/
structure Held (tokens : List Token) (s : Statement) : Prop where
  starts : s.Starts tokens
  decorators : ∀ d ∈ s.decorators, ∃ u rest, u :: rest <:+ tokens ∧ u.kind = .newline ∧
    Opens rest d.line
  nested : s.Nested tokens

variable {s : Statement}

theorem Below.of_suffix (h : rest <:+ tokens) (k : s.Below rest) : s.Below tokens := by
  obtain ⟨⟨u, behind, hbehind, hcolon⟩, hdecorators⟩ := k
  refine ⟨⟨u, behind, hbehind.trans h, hcolon⟩, fun d hd => ?_⟩
  obtain ⟨u, behind, v, after, hbehind, hnewline⟩ := hdecorators d hd
  exact ⟨u, behind, v, after, hbehind.trans h, hnewline⟩

@[grind →] theorem Read.of_suffix (h : rest <:+ tokens) (k : s.Read rest) : s.Read tokens :=
  ⟨k.settled.of_suffix h, k.starts.of_suffix h, fun d hd => (k.decorators d hd).of_suffix h,
    fun t ht c hc b hb => (k.nested t ht c hc b hb).of_suffix h⟩

/-- Behind the end of a line a statement may have decorators. -/
@[grind .] theorem Read.held {u : Token} (hu : u.kind = .newline) (k : s.Read rest) :
    s.Held (u :: rest) :=
  have hrest := List.suffix_cons u rest
  ⟨k.starts.of_suffix hrest,
    fun d hd => ⟨u, rest, List.suffix_refl _, hu, k.decorators d hd⟩, (k.of_suffix hrest).nested⟩

end Statement

namespace Clause

/-- What the parse of a clause tells of its block. -/
def Nested (tokens : List Token) (c : Clause) : Prop :=
  ∀ b ∈ c.block, b.Below tokens ∧ b.Nested tokens

@[grind →] theorem Nested.of_suffix {c : Clause} (h : rest <:+ tokens) (k : c.Nested rest) :
    c.Nested tokens := fun b hb =>
  ⟨(k b hb).1.of_suffix h, fun t ht d hd b' hb' => ((k b hb).2 t ht d hd b' hb').of_suffix h⟩

@[grind .] theorem nested_nil (words : List String) (inner : List Inner) :
    (Clause.clause words inner []).Nested tokens := fun _ hb => nomatch hb

/-- A block is held by the colon in front of it. -/
@[grind .] theorem nested_of_colon {u : Token} {block : List Statement} (words : List String)
    (inner : List Inner) (hu : u.text = ":") (hblock : ∀ s ∈ block, s.Held rest) :
    (Clause.clause words inner block).Nested (u :: rest) := by
  intro b hb
  have hheld := hblock b hb
  have hrest := List.suffix_cons u rest
  refine ⟨⟨⟨u, rest, List.suffix_refl _, hu, hheld.starts⟩, fun d hd => ?_⟩,
    fun t ht c hc b' hb' => (hheld.nested t ht c hc b' hb').of_suffix hrest⟩
  obtain ⟨v, after, hafter, hnewline⟩ := hheld.decorators d hd
  exact ⟨u, rest, v, after, List.suffix_refl _, hu, hafter, hnewline⟩

end Clause

namespace Statement

variable {s : Statement}

theorem mem_inBlock {ss : List Statement} {t : Statement} :
    t ∈ inBlock ss ↔ ∃ s ∈ ss, t ∈ s.preorder := by
  induction ss with
  | nil => simp [inBlock]
  | cons s ss ih => simp [inBlock, ih]

theorem mem_inClauses {cs : List Clause} {t : Statement} :
    t ∈ inClauses cs ↔ ∃ c ∈ cs, t ∈ inBlock c.block := by
  induction cs with
  | nil => simp [inClauses]
  | cons c cs ih =>
    obtain ⟨words, inner, block⟩ := c
    simp [inClauses, ih, Clause.block]

theorem nested_node {kind : StatementKind} {extent : Extent} {decorators : List Decorator}
    {clauses : List Clause} (h : ∀ c ∈ clauses, c.Nested tokens) :
    (node kind extent decorators clauses).Nested tokens := by
  intro t ht c hc b hb
  rw [preorder, List.mem_cons] at ht
  rcases ht with rfl | ht
  · exact (h c hc b hb).1
  · obtain ⟨above, habove, ht⟩ := mem_inClauses.mp ht
    obtain ⟨s, hs, ht⟩ := mem_inBlock.mp ht
    exact (h above habove s hs).2 t ht c hc b hb

theorem read_node {kind : StatementKind} {extent : Extent} {decorators : List Decorator}
    {clauses : List Clause} (hsettled : (node kind extent decorators clauses).Settled tokens)
    (hstarts : (node kind extent decorators clauses).Starts tokens)
    (hdecorators : ∀ d ∈ decorators, Opens tokens d.line) (h : ∀ c ∈ clauses, c.Nested tokens) :
    (node kind extent decorators clauses).Read tokens :=
  ⟨hsettled, hstarts, hdecorators, nested_node h⟩

@[grind →] theorem Simple.read (h : s.Simple) (hsettled : s.Settled tokens)
    (hstarts : s.Starts tokens) : s.Read tokens := by
  obtain ⟨kind, extent, decorators, clauses⟩ := s
  obtain ⟨rfl, hclauses⟩ : decorators = [] ∧ ∀ c ∈ clauses, c.block = [] := h
  refine read_node hsettled hstarts (fun _ hd => (List.not_mem_nil hd).elim) fun c hc b hb => ?_
  rw [hclauses c hc] at hb
  cases hb

@[grind →] theorem Simple.held (h : s.Simple) (hsettled : s.Settled tokens)
    (hstarts : s.Starts tokens) : s.Held tokens :=
  ⟨hstarts, fun _ hd => (List.not_mem_nil (h.1 ▸ hd)).elim, (h.read hsettled hstarts).nested⟩

end Statement

/-- The second is read where the first was. -/
theorem orElse_spec {α : Type} {r₀ : Reader} {first second : Parse α} {P : α → Reader → Prop}
    (hfirst : ⦃fun r => ⌜r = r₀⌝⦄ first ⦃⇓? a r => ⌜P a r⌝⦄)
    (hsecond : ∀ r₁ : Reader, r₁.rest = r₀.rest →
      ⦃fun r => ⌜r = r₁⌝⦄ second ⦃⇓? a r => ⌜P a r⌝⦄) :
    ⦃fun r => ⌜r = r₀⌝⦄ Parse.orElse first second ⦃⇓? a r => ⌜P a r⌝⦄ := by
  refine triple_of_ok fun a r h => ?_
  unfold Parse.orElse at h
  split at h
  next after _ => exact of_triple (hsecond { r₀ with furthest := after.furthest } rfl) h
  · exact of_triple hfirst h

/-! ## Blocks -/

namespace BlockRules

/-- The parse of the statements in a block tells of them what it should. -/
class Reads (g : BlockRules) : Prop where
  statements : ∀ r₀ : Reader, ⦃fun r => ⌜r = r₀⌝⦄ g.statements ()
    ⦃⇓? ss r => ⌜r.rest <:+ r₀.rest ∧ ∀ s ∈ ss, s.Read r₀.rest⌝⦄

variable {g : BlockRules} [g.toRules.Steady] {r₀ : Reader}

@[spec] theorem openBlock_spec :
    ⦃fun r => ⌜r = r₀⌝⦄ openBlock
    ⦃⇓? _ r => ⌜r.rest <:+ r₀.rest ∧
      ∃ u behind, r₀.rest = u :: behind ∧ u.kind = .newline ∧ r.rest <:+ behind⌝⦄ := by
  refine triple_of fun Q hQ => ?_
  mvcgen [openBlock] with grind -linarith

/-! ## Headers -/

omit [g.toRules.Steady] in
@[spec] theorem nothing_spec : ⦃fun r => ⌜r = r₀⌝⦄ nothing ⦃⇓? _ r => ⌜r.rest <:+ r₀.rest⌝⦄ := by
  mvcgen [nothing] with grind -linarith

@[spec] theorem condition_spec :
    ⦃fun r => ⌜r = r₀⌝⦄ g.condition ⦃⇓? _ r => ⌜r.rest <:+ r₀.rest⌝⦄ := by
  refine triple_of fun Q hQ => ?_
  mvcgen [condition] with grind -linarith

@[spec] theorem loopHeader_spec :
    ⦃fun r => ⌜r = r₀⌝⦄ g.loopHeader ⦃⇓? _ r => ⌜r.rest <:+ r₀.rest⌝⦄ := by
  refine triple_of fun Q hQ => ?_
  mvcgen [loopHeader] with grind -linarith

@[spec] theorem entered_spec :
    ⦃fun r => ⌜r = r₀⌝⦄ g.entered ⦃⇓? _ r => ⌜r.rest <:+ r₀.rest⌝⦄ := by
  refine triple_of fun Q hQ => ?_
  mvcgen [entered] with grind -linarith

@[spec] theorem enteredInParentheses_spec (fuel : Nat) :
    ⦃fun r => ⌜r = r₀⌝⦄ g.enteredInParentheses fuel ⦃⇓? _ r => ⌜r.rest <:+ r₀.rest⌝⦄ := by
  induction fuel generalizing r₀ with
  | zero => mvcgen [enteredInParentheses]
  | succ fuel ih =>
    refine triple_of fun Q hQ => ?_
    mvcgen [enteredInParentheses, ih] with grind -linarith

@[spec] theorem separated_entered_spec (fuel : Nat) :
    ⦃fun r => ⌜r = r₀⌝⦄ Parse.separated g.entered fuel ⦃⇓? _ r => ⌜r.rest <:+ r₀.rest⌝⦄ := by
  induction fuel generalizing r₀ with
  | zero => mvcgen [Parse.separated]
  | succ fuel ih =>
    refine triple_of fun Q hQ => ?_
    mvcgen [Parse.separated, ih] with grind -linarith

@[spec] theorem withHeader_spec :
    ⦃fun r => ⌜r = r₀⌝⦄ g.withHeader ⦃⇓? _ r => ⌜r.rest <:+ r₀.rest⌝⦄ := by
  refine orElse_spec ?_ fun r₁ hr₁ => ?_
  · refine triple_of fun Q hQ => ?_
    mvcgen with grind -linarith
  · refine triple_of fun Q hQ => ?_
    mvcgen with grind -linarith

@[spec] theorem handled_spec :
    ⦃fun r => ⌜r = r₀⌝⦄ g.handled ⦃⇓? _ r => ⌜r.rest <:+ r₀.rest⌝⦄ := by
  refine triple_of fun Q hQ => ?_
  mvcgen [handled] with grind -linarith

omit [g.toRules.Steady] in
@[spec] theorem opensGroup_spec :
    ⦃fun r => ⌜r = r₀⌝⦄ opensGroup ⦃⇓? _ r => ⌜r.rest = r₀.rest⌝⦄ := by
  mvcgen [opensGroup] with grind -linarith

@[spec] theorem caseHeader_spec :
    ⦃fun r => ⌜r = r₀⌝⦄ g.caseHeader ⦃⇓? _ r => ⌜r.rest <:+ r₀.rest⌝⦄ := by
  refine triple_of fun Q hQ => ?_
  mvcgen [caseHeader] with grind -linarith

@[spec] theorem subject_spec :
    ⦃fun r => ⌜r = r₀⌝⦄ g.subject ⦃⇓? _ r => ⌜r.rest <:+ r₀.rest⌝⦄ := by
  refine triple_of fun Q hQ => ?_
  mvcgen [subject] with grind -linarith

section Reads

variable [g.Reads]

omit [g.toRules.Steady] in
@[spec] theorem statements_spec :
    ⦃fun r => ⌜r = r₀⌝⦄ g.statements ()
    ⦃⇓? ss r => ⌜r.rest <:+ r₀.rest ∧ ∀ s ∈ ss, s.Read r₀.rest⌝⦄ :=
  Reads.statements r₀

omit [g.toRules.Steady] in
@[spec] theorem blockItems_spec (fuel : Nat) :
    ⦃fun r => ⌜r = r₀⌝⦄ g.blockItems fuel
    ⦃⇓? ss r => ⌜r.rest <:+ r₀.rest ∧ ∀ s ∈ ss, s.Read r₀.rest⌝⦄ := by
  induction fuel generalizing r₀ with
  | zero => mvcgen [blockItems]
  | succ fuel ih =>
    refine triple_of fun Q hQ => ?_
    mvcgen [blockItems, ih] with grind -linarith

@[spec] theorem block_spec :
    ⦃fun r => ⌜r = r₀⌝⦄ g.block
    ⦃⇓? ss r => ⌜r.rest <:+ r₀.rest ∧ ∀ s ∈ ss, s.Held r₀.rest⌝⦄ := by
  refine triple_of fun Q hQ => ?_
  mvcgen [block] with grind -linarith

/-! ## Clauses -/

@[spec] theorem clauseFrom_spec (start : Reader) (inner : List Inner) :
    ⦃fun r => ⌜r = r₀⌝⦄ g.clauseFrom start inner
    ⦃⇓? c r => ⌜r.rest <:+ r₀.rest ∧ c.Nested r₀.rest⌝⦄ := by
  refine triple_of fun Q hQ => ?_
  mvcgen [clauseFrom] with grind -linarith

variable (r₀) in
theorem clauseOf_spec (word : String) {header : Parse (List Inner)}
    (hheader : ∀ r₀, ⦃fun r => ⌜r = r₀⌝⦄ header ⦃⇓? _ r => ⌜r.rest <:+ r₀.rest⌝⦄) :
    ⦃fun r => ⌜r = r₀⌝⦄ g.clauseOf word header
    ⦃⇓? c r => ⌜r.rest <:+ r₀.rest ∧ c.Nested r₀.rest⌝⦄ := by
  refine triple_of fun Q hQ => ?_
  mvcgen [clauseOf, hheader] with grind -linarith

variable (r₀) in
theorem clauseIf_spec (word : String) {header : Parse (List Inner)}
    (hheader : ∀ r₀, ⦃fun r => ⌜r = r₀⌝⦄ header ⦃⇓? _ r => ⌜r.rest <:+ r₀.rest⌝⦄) :
    ⦃fun r => ⌜r = r₀⌝⦄ g.clauseIf word header
    ⦃⇓? cs r => ⌜r.rest <:+ r₀.rest ∧ ∀ c ∈ cs, c.Nested r₀.rest⌝⦄ := by
  have hclause := fun r₀ => g.clauseOf_spec r₀ word hheader
  refine triple_of fun Q hQ => ?_
  mvcgen [clauseIf, hclause] with grind -linarith

@[spec] theorem otherwise_spec :
    ⦃fun r => ⌜r = r₀⌝⦄ g.otherwise
    ⦃⇓? cs r => ⌜r.rest <:+ r₀.rest ∧ ∀ c ∈ cs, c.Nested r₀.rest⌝⦄ :=
  g.clauseIf_spec r₀ "else" fun _ => nothing_spec

@[spec] theorem elseIfs_spec (fuel : Nat) :
    ⦃fun r => ⌜r = r₀⌝⦄ g.elseIfs fuel
    ⦃⇓? cs r => ⌜r.rest <:+ r₀.rest ∧ ∀ c ∈ cs, c.Nested r₀.rest⌝⦄ := by
  have hclause := fun r₀ => g.clauseOf_spec r₀ "elif" fun _ => g.condition_spec
  induction fuel generalizing r₀ with
  | zero => mvcgen [elseIfs]
  | succ fuel ih =>
    refine triple_of fun Q hQ => ?_
    mvcgen [elseIfs, hclause, ih] with grind -linarith

@[spec] theorem ifStatement_spec :
    ⦃fun r => ⌜r = r₀⌝⦄ g.ifStatement
    ⦃⇓? cs r => ⌜r.rest <:+ r₀.rest ∧ ∀ c ∈ cs, c.Nested r₀.rest⌝⦄ := by
  have hclause := fun r₀ => g.clauseOf_spec r₀ "if" fun _ => g.condition_spec
  refine triple_of fun Q hQ => ?_
  mvcgen [ifStatement, hclause] with grind -linarith

@[spec] theorem whileStatement_spec :
    ⦃fun r => ⌜r = r₀⌝⦄ g.whileStatement
    ⦃⇓? cs r => ⌜r.rest <:+ r₀.rest ∧ ∀ c ∈ cs, c.Nested r₀.rest⌝⦄ := by
  have hclause := fun r₀ => g.clauseOf_spec r₀ "while" fun _ => g.condition_spec
  refine triple_of fun Q hQ => ?_
  mvcgen [whileStatement, hclause] with grind -linarith

@[spec] theorem forStatement_spec (start : Reader) :
    ⦃fun r => ⌜r = r₀⌝⦄ g.forStatement start
    ⦃⇓? cs r => ⌜r.rest <:+ r₀.rest ∧ ∀ c ∈ cs, c.Nested r₀.rest⌝⦄ := by
  refine triple_of fun Q hQ => ?_
  mvcgen [forStatement] with grind -linarith

@[spec] theorem withStatement_spec (start : Reader) :
    ⦃fun r => ⌜r = r₀⌝⦄ g.withStatement start
    ⦃⇓? cs r => ⌜r.rest <:+ r₀.rest ∧ ∀ c ∈ cs, c.Nested r₀.rest⌝⦄ := by
  refine triple_of fun Q hQ => ?_
  mvcgen [withStatement] with grind -linarith

@[spec] theorem handlers_spec (grouped : Bool) (fuel : Nat) :
    ⦃fun r => ⌜r = r₀⌝⦄ g.handlers grouped fuel
    ⦃⇓? cs r => ⌜r.rest <:+ r₀.rest ∧ ∀ c ∈ cs, c.Nested r₀.rest⌝⦄ := by
  have hheader : ∀ r₀, ⦃fun r => ⌜r = r₀⌝⦄ (do
      if grouped then
        Parse.need "*"
        g.handled
      else if ← Parse.sees ":" then nothing
      else g.handled) ⦃⇓? _ r => ⌜r.rest <:+ r₀.rest⌝⦄ := by
    intro r₀
    refine triple_of fun Q hQ => ?_
    mvcgen with grind -linarith
  have hclause := fun r₀ => g.clauseOf_spec r₀ "except" hheader
  induction fuel generalizing r₀ with
  | zero => mvcgen [handlers]
  | succ fuel ih =>
    refine triple_of fun Q hQ => ?_
    mvcgen [handlers, hclause, ih] with grind -linarith

@[spec] theorem tryStatement_spec :
    ⦃fun r => ⌜r = r₀⌝⦄ g.tryStatement
    ⦃⇓? cs r => ⌜r.rest <:+ r₀.rest ∧ ∀ c ∈ cs, c.Nested r₀.rest⌝⦄ := by
  have hclause := fun word r₀ => g.clauseOf_spec r₀ word fun _ => nothing_spec
  have hlast := fun r₀ => g.clauseIf_spec r₀ "finally" fun _ => nothing_spec
  refine triple_of fun Q hQ => ?_
  mvcgen [tryStatement, hclause, hlast] with grind -linarith

@[spec] theorem cases_spec (fuel : Nat) :
    ⦃fun r => ⌜r = r₀⌝⦄ g.cases fuel
    ⦃⇓? cs r => ⌜r.rest <:+ r₀.rest ∧ ∀ c ∈ cs, c.Nested r₀.rest⌝⦄ := by
  have hclause := fun r₀ => g.clauseOf_spec r₀ "case" fun _ => g.caseHeader_spec
  induction fuel generalizing r₀ with
  | zero => mvcgen [BlockRules.cases]
  | succ fuel ih =>
    refine triple_of fun Q hQ => ?_
    mvcgen [BlockRules.cases, hclause, ih] with grind -linarith

@[spec] theorem matchStatement_spec :
    ⦃fun r => ⌜r = r₀⌝⦄ g.matchStatement
    ⦃⇓? cs r => ⌜r.rest <:+ r₀.rest ∧ ∀ c ∈ cs, c.Nested r₀.rest⌝⦄ := by
  refine triple_of fun Q hQ => ?_
  mvcgen [matchStatement] with grind -linarith

/-! ## Statements -/

variable (r₀) in
omit [g.toRules.Steady] [g.Reads] in
theorem plain_spec {clauses : Parse (List Clause)}
    (hclauses : ∀ r₀, ⦃fun r => ⌜r = r₀⌝⦄ clauses
      ⦃⇓? cs r => ⌜r.rest <:+ r₀.rest ∧ ∀ c ∈ cs, c.Nested r₀.rest⌝⦄) :
    ⦃fun r => ⌜r = r₀⌝⦄ plain clauses
    ⦃⇓? s r => ⌜r.rest <:+ r₀.rest ∧ s.1.opens = false ∧ ∀ c ∈ s.2, c.Nested r₀.rest⌝⦄ := by
  refine triple_of fun Q hQ => ?_
  mvcgen [plain, hclauses] with grind -linarith [StatementKind.opens]

@[spec] theorem functionDefinition_spec (start : Reader) (isAsync : Bool) :
    ⦃fun r => ⌜r = r₀⌝⦄ g.functionDefinition start isAsync
    ⦃⇓? s r => ⌜r.rest <:+ r₀.rest ∧ s.1.opens = false ∧ ∀ c ∈ s.2, c.Nested r₀.rest⌝⦄ := by
  refine triple_of fun Q hQ => ?_
  mvcgen [functionDefinition] with grind -linarith [StatementKind.opens]

@[spec] theorem classDefinition_spec (start : Reader) :
    ⦃fun r => ⌜r = r₀⌝⦄ g.classDefinition start
    ⦃⇓? s r => ⌜r.rest <:+ r₀.rest ∧ s.1.opens = false ∧ ∀ c ∈ s.2, c.Nested r₀.rest⌝⦄ := by
  refine triple_of fun Q hQ => ?_
  mvcgen [classDefinition] with grind -linarith [StatementKind.opens]

@[spec] theorem asyncStatement_spec (start : Reader) (decorated : Bool) :
    ⦃fun r => ⌜r = r₀⌝⦄ g.asyncStatement start decorated
    ⦃⇓? s r => ⌜r.rest <:+ r₀.rest ∧ s.1.opens = false ∧ ∀ c ∈ s.2, c.Nested r₀.rest⌝⦄ := by
  have hfor := fun start r₀ => plain_spec r₀ fun _ => g.forStatement_spec start
  have hwith := fun start r₀ => plain_spec r₀ fun _ => g.withStatement_spec start
  refine triple_of fun Q hQ => ?_
  mvcgen [asyncStatement, hfor, hwith] with grind -linarith

@[spec] theorem compound_spec (decorated : Bool) :
    ⦃fun r => ⌜r = r₀⌝⦄ g.compound decorated
    ⦃⇓? s r => ⌜r.rest <:+ r₀.rest ∧ s.1.opens = false ∧ ∀ c ∈ s.2, c.Nested r₀.rest⌝⦄ := by
  have hif := fun r₀ => plain_spec r₀ fun _ => g.ifStatement_spec
  have hwhile := fun r₀ => plain_spec r₀ fun _ => g.whileStatement_spec
  have hfor := fun start r₀ => plain_spec r₀ fun _ => g.forStatement_spec start
  have hwith := fun start r₀ => plain_spec r₀ fun _ => g.withStatement_spec start
  have htry := fun r₀ => plain_spec r₀ fun _ => g.tryStatement_spec
  have hmatch := fun r₀ => plain_spec r₀ fun _ => g.matchStatement_spec
  refine triple_of fun Q hQ => ?_
  mvcgen [compound, hif, hwhile, hfor, hwith, htry, hmatch] with grind -linarith

omit [g.Reads] in
@[spec] theorem decoratorList_spec (fuel : Nat) :
    ⦃fun r => ⌜r = r₀⌝⦄ g.decoratorList fuel
    ⦃⇓? ds r => ⌜r.rest <:+ r₀.rest ∧ ∀ d ∈ ds, Opens r₀.rest d.line⌝⦄ := by
  induction fuel generalizing r₀ with
  | zero => mvcgen [decoratorList]
  | succ fuel ih =>
    refine triple_of fun Q hQ => ?_
    mvcgen [decoratorList, ih] with grind -linarith

@[spec] theorem compoundStatement_spec :
    ⦃fun r => ⌜r = r₀⌝⦄ g.compoundStatement
    ⦃⇓? ss r => ⌜r.rest <:+ r₀.rest ∧ ∀ s ∈ ss, s.Read r₀.rest⌝⦄ := by
  refine triple_of fun Q hQ => ?_
  mvcgen [compoundStatement]
  rename_i r hr decorators r₁ hdecorators t r₂ hpeek found r₃ hfound
  subst hr
  obtain ⟨hrest, hkind, hclauses⟩ := hfound
  rw [hpeek.1] at hrest hclauses
  have hbehind := hdecorators.1
  refine hQ _ _ (hrest.trans hbehind) fun s hs => ?_
  obtain rfl := List.mem_singleton.mp hs
  exact Statement.read_node (fun hopens => absurd (hkind.symm.trans hopens) Bool.false_ne_true)
    ((Statement.starts_node _ _ _ _ hpeek.2.2).of_suffix hbehind) hdecorators.2
    fun c hc => (hclauses c hc).of_suffix hbehind

@[spec] theorem statementRule_spec :
    ⦃fun r => ⌜r = r₀⌝⦄ g.statementRule
    ⦃⇓? ss r => ⌜r.rest <:+ r₀.rest ∧ ∀ s ∈ ss, s.Read r₀.rest⌝⦄ := by
  have hsimple : ∀ r₀ : Reader, ⦃fun r => ⌜r = r₀⌝⦄ g.simpleStatements g.limit
      ⦃⇓? ss r => ⌜r.rest <:+ r₀.rest ∧ ∀ s ∈ ss, s.Read r₀.rest⌝⦄ := by
    intro r₀
    refine triple_of fun Q hQ => ?_
    mvcgen with grind -linarith
  have heither := fun r₀ => orElse_spec (@compoundStatement_spec g _ r₀ _) fun r₁ hr₁ =>
    hr₁ ▸ hsimple r₁
  refine triple_of fun Q hQ => ?_
  mvcgen [BlockRules.statementRule, heither]
  all_goals
    subst_vars
    rename_i hpeek ss r₂
    rw [hpeek.1]
    intro hrest hss
    refine hQ _ _ hrest fun s hs => ?_
  · exact hss s hs
  · exact hss s hs
  · exact (hss s hs).2.2.read (hss s hs).1 (hss s hs).2.1

end Reads

end BlockRules

/-! ## Modules -/

theorem parseStatements_spec {rules : Rules} [rules.Steady] (depth : Nat) (r₀ : Reader) :
    ⦃fun r => ⌜r = r₀⌝⦄ parseStatements rules depth ()
    ⦃⇓? ss r => ⌜r.rest <:+ r₀.rest ∧ ∀ s ∈ ss, s.Read r₀.rest⌝⦄ := by
  induction depth generalizing r₀ with
  | zero => mvcgen [parseStatements]
  | succ depth ih =>
    have : BlockRules.Reads ⟨rules, parseStatements rules depth⟩ := ⟨fun r₀ => by
      refine triple_of fun Q hQ => ?_
      mvcgen [ih] with grind -linarith⟩
    exact BlockRules.statementRule_spec

theorem moduleStatements_spec {statements : Parse (List Statement)}
    (hstatements : ∀ r₀, ⦃fun r => ⌜r = r₀⌝⦄ statements
      ⦃⇓? ss r => ⌜r.rest <:+ r₀.rest ∧ ∀ s ∈ ss, s.Read r₀.rest⌝⦄)
    (fuel : Nat) (r₀ : Reader) :
    ⦃fun r => ⌜r = r₀⌝⦄ moduleStatements statements fuel
    ⦃⇓? ss _ => ⌜∀ s ∈ ss, s.Read r₀.rest⌝⦄ := by
  induction fuel generalizing r₀ with
  | zero => mvcgen [moduleStatements]
  | succ fuel ih =>
    refine triple_of fun Q hQ => ?_
    mvcgen [moduleStatements, hstatements, ih] with grind -linarith

/-- The statements of a module are read from its tokens. -/
theorem read_of_outline {source : Text.Utf8.Bytes} {statements : List Statement}
    (h : outline source = .ok statements) :
    ∃ text, characters? source = some text ∧
      ∀ s ∈ statements, s.Read (Python.tokens text) := by
  unfold outline at h
  split at h
  · cases h
  · split at h
    · cases h
    next text htext =>
      refine ⟨text, htext, ?_⟩
      have := steady_parsePart (text.length + 4) (4 * (text.length + 4))
      unfold parseTokens at h
      simp only at h
      split at h
      next hrun =>
        cases h
        exact of_triple (moduleStatements_spec (fun r₀ => parseStatements_spec _ r₀) _ _) hrun
      · cases h

end DelayInjection.Python
