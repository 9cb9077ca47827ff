import DelayInjection.JavaScript.Layout
import DelayInjection.Proofs.Recovery.Occurrence

/-! Delay calls that are spelled out in string literals. Recovery counts the quotes in front of a call and
takes an odd number for an open literal. A quote that opens or closes a literal changes which literal is
open, and so the numbers are right up to the quotes that do neither: the ones behind a backslash, and the
ones in a literal with another quote. -/

namespace DelayInjection.Recovery

open Text (isWordChar)

variable {k : Classifier} {line text : List Char} {openers : List Char} {q : Char}

/-! ## Reading a line -/

/-- Where a reader stands: in code, in a literal that a quote has opened, or there behind a backslash. -/
inductive Place where
  | code
  | literal (quote : Char)
  | escape (quote : Char)
deriving DecidableEq

namespace Place

/-- The quote of the literal that is open. -/
def quote? : Place → Option Char
  | code => none
  | literal q => some q
  | escape q => some q

/-- The place behind a character, if the openers are the characters that open a literal in code. -/
def next (openers : List Char) : Place → Char → Place
  | code, c => if c ∈ openers then literal c else code
  | literal q, c => if c = q then code else if c = '\\' then escape q else literal q
  | escape q, _ => literal q

/-- The character opens a literal or closes one. -/
def delimits (openers : List Char) : Place → Char → Bool
  | code, c => c ∈ openers
  | literal q, c => c = q
  | escape _, _ => false

/-- The place behind a text. -/
def behind (openers : List Char) (place : Place) : List Char → Place
  | [] => place
  | c :: text => (place.next openers c).behind openers text

/-- The text without the characters that open and close literals. -/
def contents (openers : List Char) (place : Place) : List Char → List Char
  | [] => []
  | c :: text =>
    if place.delimits openers c then (place.next openers c).contents openers text
    else c :: (place.next openers c).contents openers text

/-- One if a literal with the quote is open, and else nothing. -/
def depth (place : Place) (q : Char) : Nat := if place.quote? = some q then 1 else 0

/-- A character that opens or closes a literal changes its depth, and no other character does. -/
theorem depth_next (openers : List Char) (place : Place) (c q : Char) :
    (place.next openers c).depth q % 2 =
      (place.depth q + if place.delimits openers c ∧ c = q then 1 else 0) % 2 := by
  cases place with
  | code =>
    by_cases hopens : c ∈ openers
    · have hnext : code.next openers c = literal c := if_pos hopens
      have hdelimits : code.delimits openers c = true := decide_eq_true hopens
      rw [hnext, hdelimits]
      by_cases hq : c = q <;> simp [depth, quote?, hq]
    · have hnext : code.next openers c = code := if_neg hopens
      have hdelimits : code.delimits openers c = false := decide_eq_false hopens
      rw [hnext, hdelimits]
      simp
  | literal quote =>
    by_cases hcloses : c = quote
    · have hnext : (literal quote).next openers c = code := if_pos hcloses
      have hdelimits : (literal quote).delimits openers c = true := decide_eq_true hcloses
      rw [hnext, hdelimits, ← hcloses]
      by_cases hq : c = q <;> simp [depth, quote?, hq]
    · have hquote : ((literal quote).next openers c).quote? = some quote := by
        rw [next, if_neg hcloses]
        split <;> rfl
      have hdelimits : (literal quote).delimits openers c = false := decide_eq_false hcloses
      rw [depth, hquote, hdelimits]
      simp [depth, quote?]
  | escape quote => simp [next, delimits, depth, quote?]

/-- The depth behind a text, from the quotes that it holds and from the ones among them that neither open
nor close a literal. -/
theorem depth_behind (openers : List Char) (place : Place) (text : List Char) (q : Char) :
    (place.behind openers text).depth q % 2 =
      (place.depth q + text.count q + (place.contents openers text).count q) % 2 := by
  induction text generalizing place with
  | nil => simp [behind, contents]
  | cons c text ih =>
    have hnext := depth_next openers place c q
    rw [behind, contents, ih, List.count_cons]
    by_cases hq : c = q
    · by_cases hdelimits : place.delimits openers c = true
      · rw [if_pos ⟨hdelimits, hq⟩] at hnext
        rw [if_pos hdelimits, if_pos (by simpa using hq)]
        omega
      · rw [if_neg fun h => hdelimits h.1] at hnext
        rw [if_neg hdelimits, if_pos (by simpa using hq), List.count_cons, if_pos (by simpa using hq)]
        omega
    · rw [if_neg fun h => hq h.2] at hnext
      have hcount : ∀ rest, List.count q (c :: rest) = List.count q rest := fun rest =>
        List.count_cons_of_ne hq
      rw [if_neg (by simpa using hq), apply_ite (List.count q), hcount, ite_self]
      omega

/-- The parity of a quote in front of a place where a literal is open. -/
theorem count_of_open (h : (code.behind openers text).quote? = some q) (p : Char) :
    text.count p % 2 = ((if p = q then 1 else 0) + (code.contents openers text).count p) % 2 := by
  have hdepth := depth_behind openers code text p
  have hcode : code.depth p = 0 := rfl
  have hopen : (code.behind openers text).depth p = if p = q then 1 else 0 := by
    rw [depth, h]
    simp [eq_comm]
  rw [hcode, hopen] at hdepth
  omega

end Place

open Place (code)

/-! ## The quotes in front of a call -/

/-- Of the quotes that neither open nor close a literal an odd number are `q`, and an even number each of
the others. To a count of all quotes a literal with `q` that is open then looks closed. -/
def LooksClosed (openers : List Char) (q : Char) (text : List Char) : Prop :=
  (code.contents openers text).count q % 2 = 1 ∧
    ∀ p ∈ quotes, p ≠ q → (code.contents openers text).count p % 2 = 0

theorem isCodePosition_iff (openings : List String) (text : List Char) :
    isCodePosition openings text = true ↔
      (∀ o ∈ openings, ¬o.toList <:+: text) ∧ ∀ q ∈ quotes, text.count q % 2 = 0 := by
  rw [isCodePosition, Bool.and_eq_true, Bool.not_eq_true', Bool.not_eq_true', List.any_eq_false,
    List.any_eq_false]
  refine and_congr (forall₂_congr fun o _ => ?_) (forall₂_congr fun q _ => ?_)
  · rw [Text.contains_iff]
  · simp

/-- In a literal, a call is taken for code if no comment is opened before it and the literal looks closed. -/
theorem isCodePosition_iff_of_quoted (openings : List String) (hq : q ∈ quotes)
    (h : (code.behind openers text).quote? = some q) :
    isCodePosition openings text = true ↔
      (∀ o ∈ openings, ¬o.toList <:+: text) ∧ LooksClosed openers q text := by
  rw [isCodePosition_iff]
  refine and_congr_right fun _ => ⟨fun heven => ⟨?_, fun p hp hne => ?_⟩, fun hlooks p hp => ?_⟩
  · have hcount := Place.count_of_open h q
    rw [heven q hq, if_pos rfl] at hcount
    omega
  · have hcount := Place.count_of_open h p
    rw [heven p hp, if_neg hne] at hcount
    omega
  · rw [Place.count_of_open h p]
    by_cases hpq : p = q
    · subst hpq
      have hodd := hlooks.1
      rw [if_pos rfl]
      omega
    · rw [if_neg hpq, Nat.zero_add]
      exact hlooks.2 p hp hpq

theorem hasCall_iff (hword : ∀ c ∈ k.identifier.toList, isWordChar c = true) :
    hasCall k line = true ↔
      ∃ call : DelayCall k line, isCodePosition k.commentOpenings call.before = true := by
  rw [hasCall, List.any_eq_true]
  constructor
  · rintro ⟨before, hmem, hcode⟩
    rw [← List.reverse_reverse before] at hmem
    obtain ⟨call, hbefore⟩ := (exists_delayCall_iff hword).mp hmem
    exact ⟨call, hbefore ▸ hcode⟩
  · rintro ⟨call, hcode⟩
    have hmem := (exists_delayCall_iff hword).mpr ⟨call, rfl⟩
    exact ⟨_, hmem, by rwa [List.reverse_reverse]⟩

/-- Without the stamp and the support module only a delay call takes a line out. -/
theorem classify_eq_none_iff (hstamp : ¬stamp.toList <:+: line)
    (hsupport : ¬k.supportFragment.toList <:+: line) :
    classify k line = none ↔ ¬hasCall k line = true := by
  rw [← Text.contains_iff] at hstamp hsupport
  have himport : ¬(Text.contains line k.supportFragment.toList && hasImportWord none line) = true :=
    fun h => hsupport (Bool.and_eq_true_iff.mp h).1
  rw [classify, if_neg hstamp, if_neg himport]
  split
  next hcall => exact iff_of_false (Option.some_ne_none _) (not_not_intro hcall)
  next hcall => exact iff_of_true rfl hcall

/-- A line that spells out delay calls in literals only is kept, unless before one of them no comment is
opened and its literal looks closed. -/
theorem classify_eq_none_iff_of_quoted (openers : List Char)
    (hword : ∀ c ∈ k.identifier.toList, isWordChar c = true) (hstamp : ¬stamp.toList <:+: line)
    (hsupport : ¬k.supportFragment.toList <:+: line)
    (hquoted : ∀ call : DelayCall k line, ∃ q ∈ quotes, (code.behind openers call.before).quote? = some q) :
    classify k line = none ↔
      ∀ (call : DelayCall k line) (q : Char), (code.behind openers call.before).quote? = some q →
        (∃ o ∈ k.commentOpenings, o.toList <:+: call.before) ∨ ¬LooksClosed openers q call.before := by
  rw [classify_eq_none_iff hstamp hsupport, hasCall_iff hword, not_exists]
  refine forall_congr' fun call => ?_
  obtain ⟨q, hq, hopen⟩ := hquoted call
  rw [isCodePosition_iff_of_quoted k.commentOpenings hq hopen, Classical.not_and_iff_not_or_not]
  constructor
  · intro hkept q' hopen'
    obtain rfl : q = q' := Option.some.inj (hopen.symm.trans hopen')
    refine hkept.imp_left fun hcomment => ?_
    simpa using hcomment
  · intro hkept
    refine (hkept q hopen).imp_left ?_
    rintro ⟨o, ho, hinside⟩ hnone
    exact hnone o ho hinside

/-- Two calls in literals, behind a literal with an apostrophe. -/
def apostropheLine : List Char :=
  "pick(\"it's\", \"await __FlakeMonster__(1)\", \"await  __FlakeMonster__ (2)\");".toList

theorem classify_apostropheLine : classify JavaScript.adapter.classifier apostropheLine = none := by
  have hword : ∀ c ∈ JavaScript.adapter.classifier.identifier.toList, isWordChar c = true :=
    List.all_eq_true.mp (by decide +kernel)
  have hfragments : ∀ part ∈ [stamp.toList, JavaScript.adapter.classifier.supportFragment.toList],
      ¬part <:+: apostropheLine := by
    intro part hpart
    rw [← Text.contains_iff]
    revert part
    decide +kernel
  have hplaces : ∀ call : DelayCall JavaScript.adapter.classifier apostropheLine,
      (code.behind ['\'', '"'] call.before).quote? = some '"' ∧
        (code.contents ['\'', '"'] call.before).count '"' = 0 :=
    DelayCall.of_listed hword (fun before => (code.behind ['\'', '"'] before).quote? = some '"' ∧
      (code.contents ['\'', '"'] before).count '"' = 0) (by decide +kernel)
  refine (classify_eq_none_iff_of_quoted ['\'', '"'] hword (hfragments _ (by simp))
    (hfragments _ (by simp)) fun call => ⟨'"', by decide, (hplaces call).1⟩).mpr fun call q hq => ?_
  obtain ⟨hopen, hcount⟩ := hplaces call
  obtain rfl : '"' = q := Option.some.inj (hopen.symm.trans hq)
  refine .inr fun hlooks => ?_
  have hodd := hlooks.1
  rw [hcount] at hodd
  cases hodd

/-- A call in a literal, behind a quote of the literal's own with a backslash. -/
def escapedLine : List Char := "log(\"say \\\" await __FlakeMonster__(1)\");".toList

/-- All literals of the line are complete, its one call is in a literal, and yet the line is taken out. -/
theorem taken_behind_escaped_quote :
    (∀ call : DelayCall JavaScript.adapter.classifier escapedLine,
        (code.behind ['\'', '"'] call.before).quote? = some '"') ∧
      code.behind ['\'', '"'] escapedLine = code ∧
      (∀ part ∈ stamp.toList :: JavaScript.adapter.classifier.supportFragment.toList ::
        JavaScript.adapter.classifier.commentOpenings.map String.toList, ¬part <:+: escapedLine) ∧
      classify JavaScript.adapter.classifier escapedLine = some .identifier := by
  have hword : ∀ c ∈ JavaScript.adapter.classifier.identifier.toList, isWordChar c = true :=
    List.all_eq_true.mp (by decide +kernel)
  have hplaces := @DelayCall.of_listed JavaScript.adapter.classifier hword escapedLine
    (fun before => (code.behind ['\'', '"'] before).quote? = some '"') (by decide +kernel)
  refine ⟨hplaces, by decide +kernel, fun part hpart => ?_, by decide +kernel⟩
  rw [← Text.contains_iff]
  revert part
  decide +kernel

end DelayInjection.Recovery
