import DelayInjection.Proofs.Recovery.Line

/-! What a line has to hold for recovery to take it out, and lines made to be taken out. -/

namespace DelayInjection.Recovery

open Text (isBlank)

/-! ## Lines without the fragments -/

theorem dropPrefix?_eq_some {part text rest : List Char} (h : dropPrefix? part text = some rest) :
    text = part ++ rest := by
  unfold dropPrefix? at h
  split at h
  next hp =>
    obtain ⟨r, rfl⟩ := List.isPrefixOf_iff_prefix.mp hp
    simp_all
  next => cases h

theorem prefix_of_afterIdentifier? {identifier text rest : List Char}
    (h : afterIdentifier? identifier text = some rest) : identifier <+: text := by
  obtain ⟨r, hr, -⟩ := Option.bind_eq_some_iff.mp h
  exact ⟨r, (dropPrefix?_eq_some hr).symm⟩

theorem infix_of_afterBlanks? {identifier text rest : List Char}
    (h : afterBlanks? identifier text = some rest) : identifier <:+: text := by
  induction text generalizing rest with
  | nil => cases h
  | cons c text ih =>
    rw [afterBlanks?] at h
    split at h
    · cases hr : afterBlanks? identifier text with
      | some r => exact (ih hr).trans (List.suffix_cons c text).isInfix
      | none =>
        rw [hr] at h
        exact (prefix_of_afterIdentifier? h).isInfix.trans (List.suffix_cons c text).isInfix
    · cases h

theorem infix_of_call? {identifier text rest : List Char} (h : call? identifier text = some rest) :
    "await".toList <+: text ∧ identifier <:+: text := by
  obtain ⟨r, hr, hrest⟩ := Option.bind_eq_some_iff.mp h
  rw [dropPrefix?_eq_some hr]
  exact ⟨List.prefix_append _ _,
    (infix_of_afterBlanks? hrest).trans (List.suffix_append _ _).isInfix⟩

theorem infix_of_callPrefixes {identifier before text p : List Char} {skip : Nat}
    (h : p ∈ callPrefixes identifier before skip text) :
    "await".toList <:+: text ∧ identifier <:+: text := by
  induction text generalizing before skip with
  | nil => cases h
  | cons c text ih =>
    have hrest : ∀ {before' skip'}, p ∈ callPrefixes identifier before' skip' text →
        "await".toList <:+: c :: text ∧ identifier <:+: c :: text := fun hp =>
      ⟨(ih hp).1.trans (List.suffix_cons c text).isInfix,
        (ih hp).2.trans (List.suffix_cons c text).isInfix⟩
    cases skip with
    | succ skip => exact hrest h
    | zero =>
      rw [callPrefixes] at h
      split at h
      next behind hcall =>
        rcases List.mem_cons.mp h with - | h
        · split at hcall
          next =>
            obtain ⟨h1, h2⟩ := infix_of_call? hcall
            exact ⟨h1.isInfix, h2⟩
          next => cases hcall
        · exact hrest h
      next => exact hrest h

theorem infix_of_hasCall {k : Classifier} {line : List Char} (h : hasCall k line = true) :
    "await".toList <:+: line ∧ k.identifier.toList <:+: line := by
  obtain ⟨p, hp, -⟩ := List.any_eq_true.mp h
  exact infix_of_callPrefixes hp

/-- What recovery looks for; a line without them is kept. -/
def fragments (k : Classifier) : List (List Char) :=
  [stamp.toList, k.identifier.toList, k.supportFragment.toList]

/-- The text holds none of the fragments. -/
def Free (k : Classifier) (text : List Char) : Prop := ∀ f ∈ fragments k, ¬f <:+: text

theorem verdict_eq_none_of_free {k : Classifier} {line : List Char} (h : Free k line) :
    verdict k line = none := by
  have hfree : ∀ f ∈ fragments k, ¬f <:+: Text.strip line := fun f hf hi =>
    h f hf (hi.trans (Text.strip_infix line))
  have hstamp : Text.contains (Text.strip line) stamp.toList = false := by
    rw [← Bool.not_eq_true, Text.contains_iff]
    exact hfree _ (by simp [fragments])
  have hcall : hasCall k (Text.strip line) = false := by
    rw [← Bool.not_eq_true]
    exact fun hc => hfree _ (by simp [fragments]) (infix_of_hasCall hc).2
  have himport : Text.contains (Text.strip line) k.supportFragment.toList = false := by
    rw [← Bool.not_eq_true, Text.contains_iff]
    exact hfree _ (by simp [fragments])
  simp [verdict, classify, hstamp, hcall, himport]

/-! ## Lines that are taken out wherever they are indented -/

theorem bracketDepth_append (s t : List Char) :
    bracketDepth (s ++ t) = bracketDepth s + bracketDepth t := by
  induction s with
  | nil => exact (Int.zero_add _).symm
  | cons c s ih =>
    calc bracketDepth (c :: (s ++ t)) = bracketStep c + bracketDepth (s ++ t) := rfl
      _ = bracketStep c + bracketDepth s + bracketDepth t := by rw [ih, Int.add_assoc]

/-- A printed line in ASCII, from one glyph to another, with as many brackets closed as opened, that
is taken out for the given reason. -/
structure Recognised (k : Classifier) (reason : Reason) (line : List Char) : Prop where
  ascii : ∀ c ∈ line, 32 ≤ c.toNat ∧ c.toNat < 127
  head : ∀ c ∈ line.head?, isBlank c = false
  last : ∀ c ∈ line.getLast?, isBlank c = false
  classify_eq : classify k line = some reason
  level : bracketDepth line = 0

namespace Recognised

variable {k : Classifier} {reason : Reason} {line : List Char} (h : Recognised k reason line)

include h

theorem newline_not_mem : '\n' ∉ line := fun m => absurd (h.ascii _ m).1 (by decide)

theorem mark_not_mem : Text.mark ∉ line := fun m => absurd (h.ascii _ m).2 (by decide)

theorem strip_eq {indent : List Char} (hi : ∀ c ∈ indent, isBlank c = true) :
    Text.strip (indent ++ line) = line := Text.strip_of_blank_append hi h.head h.last

theorem verdict_eq {indent : List Char} (hi : ∀ c ∈ indent, isBlank c = true) :
    verdict k (indent ++ line) = some reason := by rw [verdict, h.strip_eq hi, h.classify_eq]

theorem settled {indent : List Char} (hi : ∀ c ∈ indent, isBlank c = true) :
    Settled k (indent ++ line) := by
  intro r _ _
  exact Int.le_of_eq (by rw [h.strip_eq hi, h.level])

end Recognised

/-- Nothing but the stamp is the reason to take a line for a marker. -/
theorem Recognised.stamp_infix {k : Classifier} {line : List Char} (h : Recognised k .stamp line) :
    stamp.toList <:+: line := by
  have hclass := h.classify_eq
  rw [classify] at hclass
  split at hclass
  next hstamp => exact Text.contains_iff.mp hstamp
  next =>
    split at hclass
    · cases hclass
    · split at hclass <;> cases hclass

end DelayInjection.Recovery
