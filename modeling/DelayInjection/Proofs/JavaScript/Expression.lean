import DelayInjection.JavaScript.Statement
import DelayInjection.Proofs.JavaScript.Cursor
import Mathlib

/-! The rules for expressions move the cursor forward, and their nodes start where the cursor comes to.
Each rule takes tokens by skipping characters, and goes back only to where it began. -/

set_option mvcgen.warning false

namespace DelayInjection.JavaScript

open Cursor (Reaches Inks)
open Std.Do

variable {α : Type} {c₀ : Cursor}

/-- The condition at the end stays unknown until the last call has its own. -/
theorem triple_of {p : Scan α} {P : α → Cursor → Prop}
    (h : ∀ Q : α → Cursor → Prop, (∀ a c, P a c → Q a c) →
      ⦃fun c => ⌜c = c₀⌝⦄ p ⦃⇓? a c => ⌜Q a c⌝⦄) :
    ⦃fun c => ⌜c = c₀⌝⦄ p ⦃⇓? a c => ⌜P a c⌝⦄ :=
  h P fun _ _ => id

/-- Imports and the opening line end at a place behind ink, and the opening line with its line. -/
def Tree.Settled (c : Cursor) (t : Tree) : Prop :=
  t.kind = .importStatement ∨ t.kind = .hashBang → ∃ c', c.Inks c' ∧ t.stop = c'.place.offset ∧
    (t.kind = .hashBang → c'.rest.takeWhile (· != '\n') = [])

@[grind →] theorem Tree.Settled.of_reaches {c c' : Cursor} {t : Tree} (h : c.Reaches c')
    (k : t.Settled c') : t.Settled c := by
  intro hkind
  obtain ⟨behind, hinks, hstop⟩ := k hkind
  exact ⟨behind, h.inks hinks, hstop⟩

@[grind →] theorem settled_of_mem_skipTrivia {operand : Bool} {fuel : Nat} {c : Cursor} {t : Tree}
    (h : t ∈ (c.skipTrivia operand fuel).1) : t.Settled c := by
  intro hkind
  rw [Cursor.kind_of_mem_skipTrivia h] at hkind
  rcases hkind with hkind | hkind <;> cases hkind

@[grind ←] theorem settled_node {kind : NodeKind} {role : Role} {start : Place} {stop : Nat}
    {children : List Tree} {c : Cursor} (himport : kind ≠ .importStatement)
    (hopening : kind ≠ .hashBang) : (Tree.node kind role start stop children).Settled c :=
  fun h => (h.elim himport hopening).elim

@[grind ←] theorem settled_of_inks {kind : NodeKind} {role : Role} {start : Place}
    {children : List Tree} {c c' : Cursor} (hopening : kind ≠ .hashBang) (h : c.Inks c') :
    (Tree.node kind role start c'.place.offset children).Settled c :=
  fun _ => ⟨c', h, rfl, fun k => absurd k hopening⟩

@[grind ←] theorem settled_opening {kind : NodeKind} {role : Role} {start : Place}
    {children : List Tree} {c c' : Cursor} (h : c.Inks c')
    (hend : c'.rest.takeWhile (· != '\n') = []) :
    (Tree.node kind role start c'.place.offset children).Settled c :=
  fun _ => ⟨c', h, rfl, fun _ => hend⟩

/-- The cursor comes to the place. -/
def Cursor.Comes (c : Cursor) (p : Place) : Prop := ∃ c', c.Reaches c' ∧ p = c'.place

@[grind →] theorem Cursor.Comes.of_reaches {c c' : Cursor} {p : Place} (h : c.Reaches c')
    (k : c'.Comes p) : c.Comes p := by
  obtain ⟨there, hthere, rfl⟩ := k
  exact ⟨there, h.trans hthere, rfl⟩

@[grind ←] theorem Cursor.Reaches.comes {c c' : Cursor} (h : c.Reaches c') : c.Comes c'.place :=
  ⟨c', h, rfl⟩

mutual

/-- All nodes of the tree start where the cursor comes to. -/
def Tree.Stems (c : Cursor) : Tree → Prop
  | .node _ _ start _ children => c.Comes start ∧ ForestStems c children

def ForestStems (c : Cursor) : List Tree → Prop
  | [] => True
  | t :: rest => t.Stems c ∧ ForestStems c rest

end

@[grind .] theorem forestStems_nil (c : Cursor) : ForestStems c [] := trivial

@[grind =] theorem forestStems_cons {c : Cursor} {t : Tree} {rest : List Tree} :
    ForestStems c (t :: rest) ↔ t.Stems c ∧ ForestStems c rest := Iff.rfl

@[grind =] theorem stems_node {c : Cursor} {kind : NodeKind} {role : Role} {start : Place}
    {stop : Nat} {children : List Tree} : (Tree.node kind role start stop children).Stems c ↔
      c.Comes start ∧ ForestStems c children := Iff.rfl

@[grind =] theorem forestStems_append {c : Cursor} {ts us : List Tree} :
    ForestStems c (ts ++ us) ↔ ForestStems c ts ∧ ForestStems c us := by
  induction ts with
  | nil => simp [ForestStems]
  | cons t ts ih => rw [List.cons_append, forestStems_cons, forestStems_cons, ih, and_assoc]

@[grind =] theorem stems_inRole {c : Cursor} {t : Tree} (r : Role) :
    (t.inRole r).Stems c ↔ t.Stems c := by
  cases t
  rfl

@[grind →] theorem Tree.Stems.children {c : Cursor} {t : Tree} (h : t.Stems c) :
    ForestStems c t.children := by
  cases t
  exact h.2

mutual

theorem Tree.Stems.of_reaches {c c' : Cursor} (h : c.Reaches c') :
    ∀ t : Tree, t.Stems c' → t.Stems c
  | .node _ _ _ _ children, k => ⟨k.1.of_reaches h, ForestStems.of_reaches h children k.2⟩

theorem ForestStems.of_reaches {c c' : Cursor} (h : c.Reaches c') :
    ∀ ts : List Tree, ForestStems c' ts → ForestStems c ts
  | [], _ => trivial
  | t :: rest, k => ⟨Tree.Stems.of_reaches h t k.1, ForestStems.of_reaches h rest k.2⟩

end

attribute [grind →] Tree.Stems.of_reaches ForestStems.of_reaches

@[grind .] theorem stems_skipTrivia (operand : Bool) (fuel : Nat) (c : Cursor) :
    ForestStems c (c.skipTrivia operand fuel).1 := by
  induction fuel generalizing c with
  | zero => exact trivial
  | succ fuel ih =>
    rw [Cursor.skipTrivia]
    split
    · exact trivial
    · exact ⟨⟨(Cursor.reaches_skipGaps c).comes, trivial⟩,
        ForestStems.of_reaches ((Cursor.reaches_skipGaps c).trans (Cursor.reaches_advance _ _)) _
          (ih _)⟩

theorem ForestStems.of_mem {c : Cursor} {t : Tree} :
    ∀ {ts : List Tree}, ForestStems c ts → t ∈ ts → t.Stems c
  | _ :: _, k, ht => (List.mem_cons.mp ht).elim (fun h => h ▸ k.1) k.2.of_mem

mutual

theorem Tree.Stems.of_mem_preorder {c : Cursor} {t : Tree} :
    ∀ {s : Tree}, s.Stems c → t ∈ s.preorder → t.Stems c
  | .node _ _ _ _ _, k, ht => by
    rw [Tree.preorder, List.mem_cons] at ht
    rcases ht with rfl | ht
    · exact k
    · exact k.2.of_mem_preorderAll ht

theorem ForestStems.of_mem_preorderAll {c : Cursor} {t : Tree} :
    ∀ {ts : List Tree}, ForestStems c ts → t ∈ Tree.preorderAll ts → t.Stems c
  | [], _, ht => nomatch ht
  | _ :: _, k, ht => by
    rw [Tree.preorderAll, List.mem_append] at ht
    exact ht.elim k.1.of_mem_preorder k.2.of_mem_preorderAll

end

theorem Tree.Stems.comes {c : Cursor} {t : Tree} (h : t.Stems c) : c.Comes t.start := by
  cases t
  exact h.1

/-! ## Steps -/

@[spec] theorem failure_spec {Q : α → Assertion (.arg Cursor (.except PUnit .pure))} :
    ⦃fun _ => ⌜True⌝⦄ (failure : Scan α) ⦃⇓? a => Q a⦄ :=
  fun _ _ => trivial

@[spec] theorem refuse_spec {Q : α → Assertion (.arg Cursor (.except PUnit .pure))} :
    ⦃fun _ => ⌜True⌝⦄ (refuse : Scan α) ⦃⇓? a => Q a⦄ :=
  failure_spec

/-- The second is run from where the first began. -/
@[spec] theorem orElse_spec {p q : Scan α} {Q : PostCond α (.arg Cursor (.except PUnit .pure))} :
    ⦃fun c => wp⟦p⟧ (Q.1, fun _ => wp⟦q⟧ Q c, Q.2.2) c⦄ (p <|> q) ⦃Q⦄ := by
  intro c h
  change (wp⟦p c <|> q c⟧ _).down
  change (wp⟦p c⟧ _).down at h
  cases hp : p c with
  | none =>
    -- a refusal leaves no cursor behind, so the second starts from the same one
    rw [hp] at h
    exact h
  | some x =>
    rw [hp] at h
    exact h

attribute [grind .] Cursor.Reaches.refl
grind_pattern Cursor.reaches_advance => c.advance n
grind_pattern Cursor.reaches_skipGaps => c.skipGaps
grind_pattern Cursor.reaches_skipTrivia => (c.skipTrivia operand fuel).2
attribute [grind =] Cursor.rest_advance

@[spec] theorem rest_spec : ⦃fun c => ⌜c = c₀⌝⦄ rest ⦃⇓? r c => ⌜c = c₀ ∧ r = c₀.rest⌝⦄ := by
  mvcgen [rest] with grind -linarith

@[spec] theorem place_spec : ⦃fun c => ⌜c = c₀⌝⦄ place ⦃⇓? p c => ⌜c = c₀ ∧ p = c₀.place⌝⦄ := by
  mvcgen [place] with grind -linarith

@[spec] theorem skip_spec (n : Nat) :
    ⦃fun c => ⌜c = c₀⌝⦄ skip n ⦃⇓? _ c => ⌜c = c₀.advance n⌝⦄ := by
  mvcgen [skip] with grind -linarith

namespace Rules

variable {g : Rules}

@[spec] theorem toOperand_spec :
    ⦃fun c => ⌜c = c₀⌝⦄ g.toOperand ⦃⇓? _ c => ⌜c₀.Reaches c⌝⦄ := by
  mvcgen [toOperand] with grind -linarith

@[spec] theorem toOperator_spec :
    ⦃fun c => ⌜c = c₀⌝⦄ g.toOperator ⦃⇓? _ c => ⌜c₀.Reaches c⌝⦄ := by
  mvcgen [toOperator] with grind -linarith

@[spec] theorem sees_spec (text : String) :
    ⦃fun c => ⌜c = c₀⌝⦄ sees text ⦃⇓? _ c => ⌜c = c₀⌝⦄ := by
  mvcgen [sees]

theorem inks_of_startsWith {c : Cursor} {text : String} (h : c.startsWith text = true)
    (hink : Ink text) : c.Inks (c.advance text.length) := by
  refine Cursor.inks_advance ?_
  have hprefix := List.isPrefixOf_iff_prefix.mp h
  rw [← String.length_toList, ← List.prefix_iff_eq_take.mp hprefix]
  exact hink

/-- A text that is taken leaves its ink behind. -/
@[spec] theorem takes_spec (text : String) :
    ⦃fun c => ⌜c = c₀⌝⦄ g.takes text
    ⦃⇓? taken c => ⌜c₀.Reaches c ∧ (taken = true → Ink text → c₀.Inks c)⌝⦄ := by
  mvcgen [takes] with grind -linarith [inks_of_startsWith]

@[spec] theorem need_spec (text : String) :
    ⦃fun c => ⌜c = c₀⌝⦄ g.need text ⦃⇓? _ c => ⌜c₀.Reaches c ∧ (Ink text → c₀.Inks c)⌝⦄ := by
  mvcgen [need] with grind -linarith

@[spec] theorem word_spec :
    ⦃fun c => ⌜c = c₀⌝⦄ g.word ⦃⇓? _ c => ⌜c = c₀⌝⦄ := by
  mvcgen [word] with grind -linarith

@[spec] theorem takesWord_spec (w : String) :
    ⦃fun c => ⌜c = c₀⌝⦄ g.takesWord w ⦃⇓? _ c => ⌜c₀.Reaches c⌝⦄ := by
  mvcgen [takesWord] with grind -linarith

@[spec] theorem needWord_spec (w : String) :
    ⦃fun c => ⌜c = c₀⌝⦄ g.needWord w ⦃⇓? _ c => ⌜c₀.Reaches c⌝⦄ := by
  mvcgen [needWord] with grind -linarith

@[spec] theorem close_spec (kind : NodeKind) (start : Place) (children : List Tree) :
    ⦃fun c => ⌜c = c₀⌝⦄ close kind start children
    ⦃⇓? t c => ⌜c = c₀ ∧ t = .node kind .plain start c₀.place.offset children⌝⦄ := by
  mvcgen [close] with grind -linarith

@[spec] theorem anyName_spec :
    ⦃fun c => ⌜c = c₀⌝⦄ g.anyName ⦃⇓? t c => ⌜c₀.Reaches c ∧ t.Stems c₀⌝⦄ := by
  mvcgen [anyName] with grind -linarith

@[spec] theorem identifier_spec :
    ⦃fun c => ⌜c = c₀⌝⦄ g.identifier ⦃⇓? t c => ⌜c₀.Reaches c ∧ t.Stems c₀⌝⦄ := by
  refine triple_of fun Q hQ => ?_
  mvcgen [identifier] with grind -linarith

@[spec] theorem continues_spec (ends afterComment : Bool) (fuel : Nat) :
    ⦃fun c => ⌜c = c₀⌝⦄ g.continues ends afterComment fuel
    ⦃⇓? b c => ⌜c₀.Reaches c ∧ (b = false → c = c₀ ∨ c₀.Inks c)⌝⦄ := by
  induction fuel generalizing c₀ with
  | zero =>
    mvcgen [continues]
    grind -linarith
  | succ fuel ih =>
    have hink : ∀ (c : Cursor) n, commentLength? c.rest = some n → c.Inks (c.advance n) :=
      fun c n h => Cursor.inks_advance (inked_of_comment h)
    refine triple_of fun Q hQ => ?_
    mvcgen [continues, ih] with grind -linarith

@[spec] theorem goesOn_spec (ends afterComment : Bool) :
    ⦃fun c => ⌜c = c₀⌝⦄ g.goesOn ends afterComment
    ⦃⇓? b c => ⌜c₀.Reaches c ∧ (b = false → c = c₀ ∨ c₀.Inks c)⌝⦄ := by
  mvcgen [goesOn]


@[spec] theorem semicolon_spec (afterComment : Bool) :
    ⦃fun c => ⌜c = c₀⌝⦄ g.semicolon afterComment
    ⦃⇓? _ c => ⌜c₀.Reaches c ∧ (c = c₀ ∨ c₀.Inks c)⌝⦄ := by
  have hink : Ink ";" := inked_of_front (by decide) (by decide)
  refine triple_of fun Q hQ => ?_
  mvcgen [semicolon] with grind -linarith

@[spec] theorem closeQuote_spec (quote : Char) (fuel : Nat) :
    ⦃fun c => ⌜c = c₀⌝⦄ g.closeQuote quote fuel
    ⦃⇓? _ c => ⌜c₀.Reaches c ∧ (Ink (String.singleton quote) → c₀.Inks c)⌝⦄ := by
  have hskip : ∀ (c : Cursor) rest, c.rest = quote :: rest → Ink (String.singleton quote) →
      c.Inks (c.advance 1) :=
    fun c rest hrest hink => Cursor.inks_advance (by simpa [hrest, Ink] using hink)
  induction fuel generalizing c₀ with
  | zero => mvcgen [closeQuote]
  | succ fuel ih =>
    refine triple_of fun Q hQ => ?_
    mvcgen [closeQuote, ih] with grind -linarith

@[spec] theorem quotedText_spec :
    ⦃fun c => ⌜c = c₀⌝⦄ g.quotedText ⦃⇓? _ c => ⌜c₀.Inks c⌝⦄ := by
  have hsingle : Ink (String.singleton '\'') := inked_of_front (by decide) (by decide)
  have hdouble : Ink (String.singleton '"') := inked_of_front (by decide) (by decide)
  refine triple_of fun Q hQ => ?_
  mvcgen [quotedText] with grind -linarith

@[spec] theorem mark_spec (kind : NodeKind) (text : String) :
    ⦃fun c => ⌜c = c₀⌝⦄ g.mark kind text ⦃⇓? t c => ⌜c₀.Reaches c ∧ t.Stems c₀⌝⦄ := by
  refine triple_of fun Q hQ => ?_
  mvcgen [mark] with grind -linarith

@[spec] theorem star_spec :
    ⦃fun c => ⌜c = c₀⌝⦄ g.star ⦃⇓? ts c => ⌜c₀.Reaches c ∧ ForestStems c₀ ts⌝⦄ := by
  refine triple_of fun Q hQ => ?_
  mvcgen [star] with grind -linarith

@[spec] theorem moreMembers_spec (fuel : Nat) :
    ⦃fun c => ⌜c = c₀⌝⦄ g.moreMembers fuel ⦃⇓? _ c => ⌜c₀.Reaches c⌝⦄ := by
  induction fuel generalizing c₀ with
  | zero => mvcgen [moreMembers]
  | succ fuel ih =>
    refine triple_of fun Q hQ => ?_
    mvcgen [moreMembers, ih] with grind -linarith

@[spec] theorem modifier?_spec (kind : NodeKind) (w : String) (inClass : Bool) :
    ⦃fun c => ⌜c = c₀⌝⦄ g.modifier? kind w inClass
    ⦃⇓? t? c => ⌜c₀.Reaches c ∧ ForestStems c₀ t?.toList⌝⦄ := by
  refine triple_of fun Q hQ => ?_
  mvcgen [modifier?] with grind -linarith [Option.toList]

@[spec] theorem seesArrow_spec (ends : Bool) :
    ⦃fun c => ⌜c = c₀⌝⦄ g.seesArrow ends ⦃⇓? _ c => ⌜c₀.Reaches c⌝⦄ := by
  refine triple_of fun Q hQ => ?_
  mvcgen [seesArrow] with grind -linarith

@[spec] theorem looksLabelled_spec :
    ⦃fun c => ⌜c = c₀⌝⦄ g.looksLabelled ⦃⇓? _ c => ⌜c₀.Reaches c⌝⦄ := by
  refine triple_of fun Q hQ => ?_
  mvcgen [looksLabelled] with grind -linarith

@[spec] theorem memberBehindDot_spec :
    ⦃fun c => ⌜c = c₀⌝⦄ g.memberBehindDot ⦃⇓? _ c => ⌜c₀.Reaches c⌝⦄ := by
  refine triple_of fun Q hQ => ?_
  mvcgen [memberBehindDot] with grind -linarith

@[spec] theorem isPrefixed_spec :
    ⦃fun c => ⌜c = c₀⌝⦄ g.isPrefixed ⦃⇓? _ c => ⌜c₀.Reaches c⌝⦄ := by
  refine triple_of fun Q hQ => ?_
  mvcgen [isPrefixed] with grind -linarith

@[spec] theorem importOperand_spec :
    ⦃fun c => ⌜c = c₀⌝⦄ g.importOperand ⦃⇓? p c => ⌜c₀.Reaches c ∧ ForestStems c₀ p.forest⌝⦄ := by
  refine triple_of fun Q hQ => ?_
  mvcgen [importOperand] with grind -linarith

@[spec] theorem markupWord_spec :
    ⦃fun c => ⌜c = c₀⌝⦄ g.markupWord ⦃⇓? _ c => ⌜c₀.Reaches c⌝⦄ := by
  refine triple_of fun Q hQ => ?_
  mvcgen [markupWord] with grind -linarith

@[spec] theorem markupMembers_spec (fuel : Nat) :
    ⦃fun c => ⌜c = c₀⌝⦄ g.markupMembers fuel ⦃⇓? _ c => ⌜c₀.Reaches c⌝⦄ := by
  induction fuel generalizing c₀ with
  | zero => mvcgen [markupMembers]
  | succ fuel ih =>
    refine triple_of fun Q hQ => ?_
    mvcgen [markupMembers, ih] with grind -linarith

@[spec] theorem markupName_spec :
    ⦃fun c => ⌜c = c₀⌝⦄ g.markupName ⦃⇓? _ c => ⌜c₀.Reaches c⌝⦄ := by
  refine triple_of fun Q hQ => ?_
  mvcgen [markupName] with grind -linarith

@[spec] theorem markupText_spec (quote : Char) :
    ⦃fun c => ⌜c = c₀⌝⦄ g.markupText quote ⦃⇓? _ c => ⌜c₀.Reaches c⌝⦄ := by
  refine triple_of fun Q hQ => ?_
  mvcgen [markupText] with grind -linarith

@[grind =] theorem forestOf_nil : forestOf [] = [] := rfl

@[grind =] theorem forestOf_cons (s : Slot) (rest : List Slot) :
    forestOf (s :: rest) = s.forest ++ forestOf rest := rfl

attribute [grind =] Slot.forest List.flatMap_nil List.flatMap_cons single

/-! ## Rules that hold one another -/

/-- The parts of the grammar keep to the text. -/
class Steady (g : Rules) : Prop where
  parse : ∀ (c₀ : Cursor) (part : Part),
    ⦃fun c => ⌜c = c₀⌝⦄ g.parse part
    ⦃⇓? p c => ⌜c₀.Reaches c ∧
      (part = .statement → ∀ t ∈ p.forest, t.Settled c₀) ∧ ForestStems c₀ p.forest⌝⦄

variable [g.Steady]

@[spec] theorem parse_spec (part : Part) :
    ⦃fun c => ⌜c = c₀⌝⦄ g.parse part
    ⦃⇓? p c => ⌜c₀.Reaches c ∧
      (part = .statement → ∀ t ∈ p.forest, t.Settled c₀) ∧ ForestStems c₀ p.forest⌝⦄ :=
  Steady.parse c₀ part

@[spec] theorem value_spec (ends : Bool) :
    ⦃fun c => ⌜c = c₀⌝⦄ g.value ends ⦃⇓? ts c => ⌜c₀.Reaches c ∧ ForestStems c₀ ts⌝⦄ := by
  refine triple_of fun Q hQ => ?_
  mvcgen [value] with grind -linarith

@[spec] theorem moreValues_spec (ends : Bool) (fuel : Nat) :
    ⦃fun c => ⌜c = c₀⌝⦄ g.moreValues ends fuel ⦃⇓? ts c => ⌜c₀.Reaches c ∧ ForestStems c₀ ts⌝⦄ := by
  induction fuel generalizing c₀ with
  | zero => mvcgen [moreValues]
  | succ fuel ih =>
    refine triple_of fun Q hQ => ?_
    mvcgen [moreValues, ih] with grind -linarith

@[spec] theorem values_spec (ends : Bool) :
    ⦃fun c => ⌜c = c₀⌝⦄ g.values ends ⦃⇓? ts c => ⌜c₀.Reaches c ∧ ForestStems c₀ ts⌝⦄ := by
  refine triple_of fun Q hQ => ?_
  mvcgen [values] with grind -linarith

@[spec] theorem slots_spec (closing : String) (fuel : Nat) :
    ⦃fun c => ⌜c = c₀⌝⦄ g.slots closing fuel
    ⦃⇓? found c => ⌜c₀.Reaches c ∧ ForestStems c₀ (forestOf found)⌝⦄ := by
  induction fuel generalizing c₀ with
  | zero => mvcgen [slots]
  | succ fuel ih =>
    refine triple_of fun Q hQ => ?_
    mvcgen [slots, ih] with grind -linarith

@[spec] theorem arguments_spec :
    ⦃fun c => ⌜c = c₀⌝⦄ g.arguments ⦃⇓? ts c => ⌜c₀.Reaches c ∧ ForestStems c₀ ts⌝⦄ := by
  refine triple_of fun Q hQ => ?_
  mvcgen [arguments] with grind -linarith

@[spec] theorem parameters_spec :
    ⦃fun c => ⌜c = c₀⌝⦄ g.parameters ⦃⇓? ts c => ⌜c₀.Reaches c ∧ ForestStems c₀ ts⌝⦄ := by
  refine triple_of fun Q hQ => ?_
  mvcgen [parameters] with grind -linarith

@[spec] theorem statements_spec (fuel : Nat) :
    ⦃fun c => ⌜c = c₀⌝⦄ g.statements fuel
    ⦃⇓? ts c => ⌜c₀.Reaches c ∧ (∀ t ∈ ts, t.Settled c₀) ∧ ForestStems c₀ ts⌝⦄ := by
  induction fuel generalizing c₀ with
  | zero => mvcgen [statements]
  | succ fuel ih =>
    refine triple_of fun Q hQ => ?_
    mvcgen [statements, ih] with grind -linarith

@[spec] theorem block_spec :
    ⦃fun c => ⌜c = c₀⌝⦄ g.block ⦃⇓? t c => ⌜c₀.Reaches c ∧ t.Settled c₀ ∧ t.Stems c₀⌝⦄ := by
  refine triple_of fun Q hQ => ?_
  mvcgen [block] with grind -linarith

@[spec] theorem body_spec :
    ⦃fun c => ⌜c = c₀⌝⦄ g.body ⦃⇓? t c => ⌜c₀.Reaches c ∧ t.Stems c₀⌝⦄ := by
  refine triple_of fun Q hQ => ?_
  mvcgen [body] with grind -linarith

@[spec] theorem functionFrom_spec (start : Place) (asyncWord : List Tree) (declared : Bool) :
    ⦃fun c => ⌜c = c₀⌝⦄ g.functionFrom start asyncWord declared
    ⦃⇓? t c => ⌜c₀.Reaches c ∧ t.Settled c₀ ∧
      ∀ a : Cursor, a.Reaches c₀ → a.Comes start → ForestStems a asyncWord → t.Stems a⌝⦄ := by
  refine triple_of fun Q hQ => ?_
  mvcgen [functionFrom] with grind -linarith

@[spec] theorem decorator_spec :
    ⦃fun c => ⌜c = c₀⌝⦄ g.decorator ⦃⇓? ts c => ⌜c₀.Reaches c ∧ ForestStems c₀ ts⌝⦄ := by
  refine triple_of fun Q hQ => ?_
  mvcgen [decorator] with grind -linarith

@[spec] theorem decorators_spec (fuel : Nat) :
    ⦃fun c => ⌜c = c₀⌝⦄ g.decorators fuel ⦃⇓? ts c => ⌜c₀.Reaches c ∧ ForestStems c₀ ts⌝⦄ := by
  induction fuel generalizing c₀ with
  | zero => mvcgen [decorators]
  | succ fuel ih =>
    refine triple_of fun Q hQ => ?_
    mvcgen [decorators, ih] with grind -linarith

@[spec] theorem memberName_spec :
    ⦃fun c => ⌜c = c₀⌝⦄ g.memberName ⦃⇓? r c => ⌜c₀.Reaches c ∧ r.1.Stems c₀⌝⦄ := by
  refine triple_of fun Q hQ => ?_
  mvcgen [memberName] with grind -linarith

@[spec] theorem memberHead_spec (inClass : Bool) :
    ⦃fun c => ⌜c = c₀⌝⦄ g.memberHead inClass
    ⦃⇓? h c => ⌜c₀.Reaches c ∧ ForestStems c₀ h.forest⌝⦄ := by
  refine triple_of fun Q hQ => ?_
  mvcgen [memberHead] with grind -linarith [Option.toList]

@[spec] theorem methodFrom_spec (start : Place) (head : List Tree) (name : Tree) :
    ⦃fun c => ⌜c = c₀⌝⦄ g.methodFrom start head name
    ⦃⇓? t c => ⌜c₀.Reaches c ∧
      ∀ a : Cursor, a.Reaches c₀ → a.Comes start → ForestStems a head → name.Stems a →
        t.Stems a⌝⦄ := by
  refine triple_of fun Q hQ => ?_
  mvcgen [methodFrom] with grind -linarith

@[spec] theorem objectMember_spec :
    ⦃fun c => ⌜c = c₀⌝⦄ g.objectMember ⦃⇓? p c => ⌜c₀.Reaches c ∧ ForestStems c₀ p.forest⌝⦄ := by
  refine triple_of fun Q hQ => ?_
  mvcgen [objectMember] with grind -linarith

@[spec] theorem objectMembers_spec (fuel : Nat) :
    ⦃fun c => ⌜c = c₀⌝⦄ g.objectMembers fuel
    ⦃⇓? ps c => ⌜c₀.Reaches c ∧ ForestStems c₀ (ps.flatMap Piece.forest)⌝⦄ := by
  induction fuel generalizing c₀ with
  | zero => mvcgen [objectMembers]
  | succ fuel ih =>
    refine triple_of fun Q hQ => ?_
    mvcgen [objectMembers, ih] with grind -linarith

@[spec] theorem object_spec :
    ⦃fun c => ⌜c = c₀⌝⦄ g.object ⦃⇓? p c => ⌜c₀.Inks c ∧ ForestStems c₀ p.forest⌝⦄ := by
  have hink : Ink "\x7d" := inked_of_front (by decide) (by decide)
  refine triple_of fun Q hQ => ?_
  mvcgen [object] with grind -linarith

@[spec] theorem list_spec :
    ⦃fun c => ⌜c = c₀⌝⦄ g.list ⦃⇓? p c => ⌜c₀.Reaches c ∧ ForestStems c₀ p.forest⌝⦄ := by
  refine triple_of fun Q hQ => ?_
  mvcgen [list] with grind -linarith

@[spec] theorem classMember_spec :
    ⦃fun c => ⌜c = c₀⌝⦄ g.classMember ⦃⇓? ts c => ⌜c₀.Reaches c ∧ ForestStems c₀ ts⌝⦄ := by
  refine triple_of fun Q hQ => ?_
  mvcgen [classMember] with grind -linarith

@[spec] theorem classMembers_spec (fuel : Nat) :
    ⦃fun c => ⌜c = c₀⌝⦄ g.classMembers fuel ⦃⇓? ts c => ⌜c₀.Reaches c ∧ ForestStems c₀ ts⌝⦄ := by
  induction fuel generalizing c₀ with
  | zero => mvcgen [classMembers]
  | succ fuel ih =>
    refine triple_of fun Q hQ => ?_
    mvcgen [classMembers, ih] with grind -linarith

@[spec] theorem classFrom_spec :
    ⦃fun c => ⌜c = c₀⌝⦄ g.classFrom ⦃⇓? r c => ⌜c₀.Reaches c ∧ ForestStems c₀ r.2⌝⦄ := by
  refine triple_of fun Q hQ => ?_
  mvcgen [classFrom] with grind -linarith

@[spec] theorem templateRest_spec (fuel : Nat) :
    ⦃fun c => ⌜c = c₀⌝⦄ g.templateRest fuel ⦃⇓? ts c => ⌜c₀.Reaches c ∧ ForestStems c₀ ts⌝⦄ := by
  induction fuel generalizing c₀ with
  | zero => mvcgen [templateRest]
  | succ fuel ih =>
    refine triple_of fun Q hQ => ?_
    mvcgen [templateRest, ih] with grind -linarith

@[spec] theorem template_spec :
    ⦃fun c => ⌜c = c₀⌝⦄ g.template ⦃⇓? ts c => ⌜c₀.Reaches c ∧ ForestStems c₀ ts⌝⦄ := by
  refine triple_of fun Q hQ => ?_
  mvcgen [template] with grind -linarith

@[spec] theorem arrowBody_spec (ends : Bool) :
    ⦃fun c => ⌜c = c₀⌝⦄ g.arrowBody ends ⦃⇓? ts c => ⌜c₀.Reaches c ∧ ForestStems c₀ ts⌝⦄ := by
  refine triple_of fun Q hQ => ?_
  mvcgen [arrowBody] with grind -linarith

@[spec] theorem arrowFrom_spec (start : Place) (head : List Tree) (ends : Bool) :
    ⦃fun c => ⌜c = c₀⌝⦄ g.arrowFrom start head ends
    ⦃⇓? p c => ⌜c₀.Reaches c ∧
      ∀ a : Cursor, a.Reaches c₀ → a.Comes start → ForestStems a head →
        ForestStems a p.forest⌝⦄ := by
  refine triple_of fun Q hQ => ?_
  mvcgen [arrowFrom] with grind -linarith

@[spec] theorem reference_spec (ends : Bool) :
    ⦃fun c => ⌜c = c₀⌝⦄ g.reference ends ⦃⇓? p c => ⌜c₀.Reaches c ∧ ForestStems c₀ p.forest⌝⦄ := by
  refine triple_of fun Q hQ => ?_
  mvcgen [reference] with grind -linarith

@[spec] theorem parenthesised_spec (ends : Bool) :
    ⦃fun c => ⌜c = c₀⌝⦄ g.parenthesised ends
    ⦃⇓? p c => ⌜c₀.Reaches c ∧ ForestStems c₀ p.forest⌝⦄ := by
  refine triple_of fun Q hQ => ?_
  mvcgen [parenthesised] with grind -linarith

@[spec] theorem asyncOperand_spec (ends : Bool) :
    ⦃fun c => ⌜c = c₀⌝⦄ g.asyncOperand ends
    ⦃⇓? p c => ⌜c₀.Reaches c ∧ ForestStems c₀ p.forest⌝⦄ := by
  refine triple_of fun Q hQ => ?_
  mvcgen [asyncOperand] with grind -linarith

@[spec] theorem prefixed_spec (width : Nat) (ends : Bool) :
    ⦃fun c => ⌜c = c₀⌝⦄ g.prefixed width ends
    ⦃⇓? p c => ⌜c₀.Reaches c ∧ ForestStems c₀ p.forest⌝⦄ := by
  refine triple_of fun Q hQ => ?_
  mvcgen [prefixed] with grind -linarith

@[spec] theorem newOperand_spec (ends : Bool) :
    ⦃fun c => ⌜c = c₀⌝⦄ g.newOperand ends ⦃⇓? p c => ⌜c₀.Reaches c ∧ ForestStems c₀ p.forest⌝⦄ := by
  refine triple_of fun Q hQ => ?_
  mvcgen [newOperand] with grind -linarith

@[spec] theorem usingOperand_spec (ends : Bool) :
    ⦃fun c => ⌜c = c₀⌝⦄ g.usingOperand ends
    ⦃⇓? p c => ⌜c₀.Reaches c ∧ ForestStems c₀ p.forest⌝⦄ := by
  refine triple_of fun Q hQ => ?_
  mvcgen [usingOperand] with grind -linarith

@[spec] theorem yieldOperand_spec (ends : Bool) :
    ⦃fun c => ⌜c = c₀⌝⦄ g.yieldOperand ends
    ⦃⇓? p c => ⌜c₀.Reaches c ∧ ForestStems c₀ p.forest⌝⦄ := by
  refine triple_of fun Q hQ => ?_
  mvcgen [yieldOperand] with grind -linarith

@[spec] theorem wordOperand_spec (ends : Bool) :
    ⦃fun c => ⌜c = c₀⌝⦄ g.wordOperand ends
    ⦃⇓? p c => ⌜c₀.Reaches c ∧ ForestStems c₀ p.forest⌝⦄ := by
  refine triple_of fun Q hQ => ?_
  mvcgen [wordOperand] with grind -linarith

@[spec] theorem operandRule_spec (ends : Bool) :
    ⦃fun c => ⌜c = c₀⌝⦄ g.operandRule ends
    ⦃⇓? p c => ⌜c₀.Reaches c ∧ ForestStems c₀ p.forest⌝⦄ := by
  refine triple_of fun Q hQ => ?_
  mvcgen [operandRule] with grind -linarith

@[spec] theorem suffix?_spec (m : String) :
    ⦃fun c => ⌜c = c₀⌝⦄ g.suffix? m
    ⦃⇓? p? c => ⌜c₀.Reaches c ∧ ∀ p, p? = some p → ForestStems c₀ p.forest⌝⦄ := by
  refine triple_of fun Q hQ => ?_
  mvcgen [suffix?] with grind -linarith

@[spec] theorem operators_spec (ends : Bool) (forest : List Tree) (last : Shape) (bare : Bool)
    (fuel : Nat) :
    ⦃fun c => ⌜c = c₀⌝⦄ g.operators ends fuel forest last bare
    ⦃⇓? p c => ⌜c₀.Reaches c ∧
      ∀ a : Cursor, a.Reaches c₀ → ForestStems a forest → ForestStems a p.forest⌝⦄ := by
  induction fuel generalizing c₀ forest last bare with
  | zero => mvcgen [operators]
  | succ fuel ih =>
    refine triple_of fun Q hQ => ?_
    mvcgen [operators, ih] with grind -linarith

@[spec] theorem expressionRule_spec (ends : Bool) :
    ⦃fun c => ⌜c = c₀⌝⦄ g.expressionRule ends
    ⦃⇓? p c => ⌜c₀.Reaches c ∧ ForestStems c₀ p.forest⌝⦄ := by
  refine triple_of fun Q hQ => ?_
  mvcgen [expressionRule] with grind -linarith

@[spec] theorem suffixes_spec (p : Piece) (fuel : Nat) :
    ⦃fun c => ⌜c = c₀⌝⦄ g.suffixes fuel p
    ⦃⇓? q c => ⌜c₀.Reaches c ∧
      ∀ a : Cursor, a.Reaches c₀ → ForestStems a p.forest → ForestStems a q.forest⌝⦄ := by
  induction fuel generalizing c₀ p with
  | zero => mvcgen [suffixes]
  | succ fuel ih =>
    refine triple_of fun Q hQ => ?_
    mvcgen [suffixes, ih] with grind -linarith

@[spec] theorem embedded_spec :
    ⦃fun c => ⌜c = c₀⌝⦄ g.embedded ⦃⇓? ts c => ⌜c₀.Reaches c ∧ ForestStems c₀ ts⌝⦄ := by
  refine triple_of fun Q hQ => ?_
  mvcgen [embedded] with grind -linarith

@[spec] theorem attributes_spec (fuel : Nat) :
    ⦃fun c => ⌜c = c₀⌝⦄ g.attributes fuel ⦃⇓? ts c => ⌜c₀.Reaches c ∧ ForestStems c₀ ts⌝⦄ := by
  induction fuel generalizing c₀ with
  | zero => mvcgen [attributes]
  | succ fuel ih =>
    refine triple_of fun Q hQ => ?_
    mvcgen [attributes, ih] with grind -linarith

@[spec] theorem elementChildren_spec (fuel : Nat) :
    ⦃fun c => ⌜c = c₀⌝⦄ g.elementChildren fuel ⦃⇓? ts c => ⌜c₀.Reaches c ∧ ForestStems c₀ ts⌝⦄ := by
  induction fuel generalizing c₀ with
  | zero => mvcgen [elementChildren]
  | succ fuel ih =>
    refine triple_of fun Q hQ => ?_
    mvcgen [elementChildren, ih] with grind -linarith

@[spec] theorem elementRule_spec :
    ⦃fun c => ⌜c = c₀⌝⦄ g.elementRule ⦃⇓? p c => ⌜c₀.Reaches c ∧ ForestStems c₀ p.forest⌝⦄ := by
  refine triple_of fun Q hQ => ?_
  mvcgen [elementRule] with grind -linarith

end Rules
end DelayInjection.JavaScript
