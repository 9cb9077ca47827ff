import DelayInjection.Proofs.Recovery.Repeated

/-! The delay calls of a line, as they are written: the word `await` at the start of a word, blanks, the
identifier, perhaps blanks again, and a parenthesis. No two of them share a character, and so the search
from left to right, which goes on behind each call that it has found, misses none. -/

namespace DelayInjection.Recovery

open Text (isBlank isWordChar)

variable {k : Classifier} {c : Char} {identifier text behind : List Char}

/-- The text starts with a delay call and goes on behind its parenthesis. -/
def IsCall (identifier text behind : List Char) : Prop :=
  ∃ gap space, text = "await".toList ++ (gap ++ (identifier ++ (space ++ '(' :: behind))) ∧
    gap ≠ [] ∧ (∀ c ∈ gap, isBlank c = true) ∧ ∀ c ∈ space, isBlank c = true

/-- A delay call somewhere on a line. -/
structure DelayCall (k : Classifier) (line : List Char) where
  before : List Char
  text : List Char
  behind : List Char
  line_eq : line = before ++ text
  starts : startsWord before.getLast? = true
  isCall : IsCall k.identifier.toList text behind

/-! ## One call -/

theorem dropPrefix?_append (part rest : List Char) : dropPrefix? part (part ++ rest) = some rest := by
  rw [dropPrefix?, if_pos (List.isPrefixOf_iff_prefix.mpr (List.prefix_append part rest)), List.drop_left]

theorem afterIdentifier?_eq_some_iff : afterIdentifier? identifier text = some behind ↔
    ∃ space, text = identifier ++ (space ++ '(' :: behind) ∧ ∀ c ∈ space, isBlank c = true := by
  constructor
  · intro h
    obtain ⟨rest, hrest, hbehind⟩ := Option.bind_eq_some_iff.mp h
    refine ⟨rest.takeWhile isBlank, ?_, fun c hc => List.all_eq_true.mp List.all_takeWhile c hc⟩
    have hsplit : rest.dropWhile isBlank = '(' :: behind := dropPrefix?_eq_some hbehind
    rw [← hsplit, List.takeWhile_append_dropWhile]
    exact dropPrefix?_eq_some hrest
  · rintro ⟨space, rfl, hspace⟩
    have hparen : ('(' :: behind).dropWhile isBlank = ['('] ++ behind :=
      List.dropWhile_cons_of_neg (by decide)
    rw [afterIdentifier?, dropPrefix?_append, Option.bind_some, List.dropWhile_append_of_pos hspace,
      hparen, dropPrefix?_append]

theorem exists_of_afterBlanks? (h : afterBlanks? identifier text = some behind) :
    ∃ gap rest, text = gap ++ rest ∧ gap ≠ [] ∧ (∀ c ∈ gap, isBlank c = true) ∧
      afterIdentifier? identifier rest = some behind := by
  induction text with
  | nil => cases h
  | cons c text ih =>
    rw [afterBlanks?] at h
    split at h
    next hblank =>
      cases hmore : afterBlanks? identifier text with
      | none =>
        rw [hmore] at h
        exact ⟨[c], text, rfl, by simp, by simpa using hblank, h⟩
      | some r =>
        rw [hmore] at h
        cases h
        obtain ⟨gap, rest, rfl, -, hgap, hrest⟩ := ih hmore
        refine ⟨c :: gap, rest, rfl, by simp, fun d hd => ?_, hrest⟩
        rcases List.mem_cons.mp hd with rfl | hd
        · exact hblank
        · exact hgap d hd
    next => cases h

theorem isSome_afterBlanks? {gap : List Char} (hne : gap ≠ []) (hgap : ∀ c ∈ gap, isBlank c = true)
    (h : (afterIdentifier? identifier text).isSome = true) :
    (afterBlanks? identifier (gap ++ text)).isSome = true := by
  induction gap with
  | nil => exact absurd rfl hne
  | cons c gap ih =>
    rw [List.cons_append, afterBlanks?, if_pos (hgap c List.mem_cons_self)]
    cases hmore : afterBlanks? identifier (gap ++ text) with
    | some r => rfl
    | none =>
      -- with more blanks to come the rest would have been found
      have hnil : gap = [] := Classical.byContradiction fun hne' => by
        have hsome := ih hne' fun d hd => hgap d (List.mem_cons_of_mem c hd)
        rw [hmore] at hsome
        cases hsome
      subst hnil
      exact h

theorem isCall_of_call? (h : call? identifier text = some behind) : IsCall identifier text behind := by
  obtain ⟨rest, hrest, hblanks⟩ := Option.bind_eq_some_iff.mp h
  obtain ⟨gap, words, rfl, hne, hgap, hwords⟩ := exists_of_afterBlanks? hblanks
  obtain ⟨space, rfl, hspace⟩ := afterIdentifier?_eq_some_iff.mp hwords
  exact ⟨gap, space, dropPrefix?_eq_some hrest, hne, hgap, hspace⟩

theorem IsCall.isSome_call? (h : IsCall identifier text behind) : (call? identifier text).isSome = true := by
  obtain ⟨gap, space, rfl, hne, hgap, hspace⟩ := h
  have hwords : afterIdentifier? identifier (identifier ++ (space ++ '(' :: behind)) = some behind :=
    afterIdentifier?_eq_some_iff.mpr ⟨space, rfl, hspace⟩
  rw [call?, dropPrefix?_append, Option.bind_some]
  exact isSome_afterBlanks? hne hgap (by rw [hwords]; rfl)

/-! ## Two calls -/

theorem not_isWordChar_of_isBlank (h : isBlank c = true) : isWordChar c = false :=
  IsFaint.not_isWordChar (.inl h)

/-- What starts with ink does not start among blanks. -/
theorem exists_behind_blanks {front part rest : List Char} (h : front ++ text = part ++ rest)
    (hpart : ∀ c ∈ part, isBlank c = true) (hink : ∀ c ∈ text.head?, isBlank c = false) :
    ∃ front', front = part ++ front' ∧ front' ++ text = rest := by
  rcases List.append_eq_append_iff.mp h with ⟨inside, hsplit, htext⟩ | ⟨front', hfront, hrest⟩
  · cases inside with
    | nil => exact ⟨[], by rw [hsplit, List.append_nil, List.append_nil], htext⟩
    | cons c inside =>
      have hblank := hpart c (hsplit ▸ List.mem_append_right front List.mem_cons_self)
      rw [hink c (by rw [htext]; rfl)] at hblank
      cases hblank
  · exact ⟨front', hfront, hrest.symm⟩

/-- What starts a word does not start inside another one, or right behind it. -/
theorem exists_behind_word {front part rest : List Char} (h : front ++ text = part ++ rest)
    (hpart : ∀ c ∈ part, isWordChar c = true) (hfront : front ≠ [])
    (hstarts : startsWord front.getLast? = true) :
    ∃ front', front = part ++ front' ∧ front' ++ text = rest := by
  rcases List.append_eq_append_iff.mp h with ⟨inside, hsplit, -⟩ | ⟨front', hfront, hrest⟩
  · have hlast := List.getLast?_eq_some_getLast hfront
    have hword := hpart _ (hsplit ▸ List.mem_append_left inside (List.getLast_mem hfront))
    rw [hlast, startsWord, Option.any_some, hword] at hstarts
    cases hstarts
  · exact ⟨front', hfront, hrest.symm⟩

theorem isWordChar_await : ∀ c ∈ "await".toList, isWordChar c = true :=
  List.all_eq_true.mp (by decide)

/-- The identifier with its parenthesis is no delay call. -/
theorem not_isCall_identifier (hword : ∀ c ∈ identifier, isWordChar c = true) {space rest : List Char}
    (hspace : ∀ c ∈ space, isBlank c = true) :
    ¬IsCall identifier (identifier ++ (space ++ '(' :: rest)) behind := by
  rintro ⟨gap, space', heq, hne, hgap, -⟩
  obtain ⟨b, gap, rfl⟩ := List.exists_cons_of_ne_nil hne
  have hends : ∀ {w r : List Char}, (∀ c ∈ w, isWordChar c = true) →
      (∀ c ∈ r.head?, isWordChar c = false) → (w ++ r).takeWhile isWordChar = w := by
    intro w r hw hr
    rw [List.takeWhile_append_of_pos hw]
    cases r with
    | nil => simp
    | cons c r => rw [List.takeWhile_cons_of_neg (by simp [hr c rfl]), List.append_nil]
  -- both texts start with one word, so the identifier is the word of a call itself
  have hfirst : identifier = "await".toList := by
    have hwords := congrArg (List.takeWhile isWordChar) heq
    rwa [hends hword, hends isWordChar_await] at hwords
    · intro c hc
      cases hc
      exact not_isWordChar_of_isBlank (hgap b List.mem_cons_self)
    · intro c hc
      cases space with
      | nil =>
        cases hc
        decide
      | cons d space =>
        obtain rfl : d = c := Option.some.inj hc
        exact not_isWordChar_of_isBlank (hspace d List.mem_cons_self)
  rw [hfirst] at heq
  -- behind the blanks a parenthesis would be the start of that word
  have hrest := congrArg (List.dropWhile isBlank) (List.append_cancel_left heq)
  rw [List.dropWhile_append_of_pos hspace, List.dropWhile_append_of_pos hgap,
    List.dropWhile_cons_of_neg (by decide)] at hrest
  cases hrest

/-- A call that starts further behind starts behind the parenthesis. -/
theorem IsCall.length_le (hword : ∀ c ∈ identifier, isWordChar c = true) {front behind' : List Char}
    (h : IsCall identifier (front ++ text) behind) (hfront : front ≠ [])
    (hstarts : startsWord front.getLast? = true) (h' : IsCall identifier text behind') :
    text.length ≤ behind.length := by
  obtain ⟨gap, space, heq, -, hgap, hspace⟩ := h
  have hhead : text.head? = some 'a' := by
    obtain ⟨gap', space', rfl, -⟩ := h'
    rfl
  have hink : ∀ c ∈ text.head?, isBlank c = false := by
    rw [hhead]
    rintro c ⟨⟩
    decide
  obtain ⟨front₁, rfl, heq₁⟩ := exists_behind_word heq isWordChar_await hfront hstarts
  obtain ⟨front₂, rfl, heq₂⟩ := exists_behind_blanks heq₁ hgap hink
  by_cases hnil : front₂ = []
  · subst hnil
    rw [List.nil_append] at heq₂
    exact absurd (heq₂ ▸ h') (not_isCall_identifier hword hspace)
  · rw [← List.append_assoc, List.getLast?_append, List.getLast?_eq_some_getLast hnil, Option.some_or,
      ← List.getLast?_eq_some_getLast hnil] at hstarts
    obtain ⟨front₃, rfl, heq₃⟩ := exists_behind_word heq₂ hword hnil hstarts
    obtain ⟨front₄, rfl, heq₄⟩ := exists_behind_blanks heq₃ hspace hink
    cases front₄ with
    | nil =>
      rw [List.nil_append] at heq₄
      rw [heq₄] at hhead
      cases hhead
    | cons c front₄ =>
      have hbehind : front₄ ++ text = behind := (List.cons.inj heq₄).2
      rw [← hbehind, List.length_append]
      exact Nat.le_add_left _ _

/-- The search goes on behind the parenthesis of a call, and so it does not pass over the next one. -/
theorem IsCall.skip_le (hword : ∀ c ∈ identifier, isWordChar c = true)
    {before front rest behind' : List Char} (h : IsCall identifier (c :: (front ++ rest)) behind)
    (hstarts : startsWord (front.reverse ++ c :: before).head? = true)
    (h' : IsCall identifier rest behind') :
    (front ++ rest).length - behind.length ≤ front.length := by
  have hlast : (front.reverse ++ c :: before).head? = (c :: front).getLast? := by
    rw [← List.head?_reverse, List.reverse_cons, List.head?_append, List.head?_append]
    rfl
  have hle := @IsCall.length_le identifier rest behind hword (c :: front) behind' h
    (List.cons_ne_nil c front) (hlast ▸ hstarts) h'
  rw [List.length_append]
  omega

/-! ## All calls of a line -/

theorem exists_split_cons {P : List Char → List Char → Prop} :
    (∃ front rest, c :: text = front ++ rest ∧ P front rest) ↔
      P [] (c :: text) ∨ ∃ front rest, text = front ++ rest ∧ P (c :: front) rest := by
  constructor
  · rintro ⟨front, rest, htext, hP⟩
    cases front with
    | nil => exact .inl (htext ▸ hP)
    | cons d front =>
      obtain ⟨rfl, htail⟩ := List.cons.inj htext
      exact .inr ⟨front, rest, htail, hP⟩
  · rintro (hP | ⟨front, rest, rfl, hP⟩)
    · exact ⟨[], c :: text, rfl, hP⟩
    · exact ⟨c :: front, rest, rfl, hP⟩

/-- The search lists what stands before each call, but for the calls that start among the characters it
passes over. -/
theorem mem_callPrefixes_iff (hword : ∀ c ∈ identifier, isWordChar c = true)
    {before p : List Char} {skip : Nat} : p ∈ callPrefixes identifier before skip text ↔
      ∃ front rest, text = front ++ rest ∧ skip ≤ front.length ∧ p = front.reverse ++ before ∧
        startsWord p.head? = true ∧ ∃ behind, IsCall identifier rest behind := by
  induction text generalizing before skip with
  | nil =>
    refine iff_of_false List.not_mem_nil ?_
    rintro ⟨front, rest, htext, -, -, -, behind, gap, space, rfl, -⟩
    simp at htext
  | cons c text ih =>
    rw [exists_split_cons]
    cases skip with
    | succ skip =>
      rw [callPrefixes, ih]
      simp
    | zero =>
      rw [callPrefixes]
      split
      next behind hfound =>
        split at hfound
        next hstarts =>
          have hcall := isCall_of_call? hfound
          rw [List.mem_cons, ih]
          constructor
          · rintro (rfl | ⟨front, rest, htext, -, hp, hrest⟩)
            · exact .inl ⟨Nat.le_refl 0, rfl, hstarts, behind, hcall⟩
            · exact .inr ⟨front, rest, htext, Nat.zero_le _, by simpa using hp, hrest⟩
          · rintro (⟨-, hp, -⟩ | ⟨front, rest, rfl, -, hp, hstarts', behind', hcall'⟩)
            · exact .inl hp
            · have hp' : p = front.reverse ++ c :: before := by simpa using hp
              have hskip := hcall.skip_le hword (hp' ▸ hstarts') hcall'
              exact .inr ⟨front, rest, rfl, hskip, hp', hstarts', behind', hcall'⟩
        next => cases hfound
      next hnone =>
        rw [ih]
        constructor
        · rintro ⟨front, rest, htext, -, hp, hrest⟩
          exact .inr ⟨front, rest, htext, Nat.zero_le _, by simpa using hp, hrest⟩
        · rintro (⟨-, rfl, hstarts, behind, hcall⟩ | ⟨front, rest, htext, -, hp, hrest⟩)
          · have hsome := hcall.isSome_call?
            rw [if_pos (by simpa using hstarts)] at hnone
            rw [hnone] at hsome
            cases hsome
          · exact ⟨front, rest, htext, Nat.zero_le _, by simpa using hp, hrest⟩

/-- The calls of a line are the ones that the search lists. -/
theorem exists_delayCall_iff (hword : ∀ c ∈ k.identifier.toList, isWordChar c = true)
    {line before : List Char} : before.reverse ∈ callPrefixes k.identifier.toList [] 0 line ↔
      ∃ call : DelayCall k line, call.before = before := by
  rw [mem_callPrefixes_iff hword]
  constructor
  · rintro ⟨front, rest, hline, -, hbefore, hstarts, behind, hcall⟩
    obtain rfl : before = front := by simpa using hbefore
    exact ⟨⟨before, rest, behind, hline, by simpa using hstarts, hcall⟩, rfl⟩
  · rintro ⟨call, rfl⟩
    exact ⟨call.before, call.text, call.line_eq, Nat.zero_le _, by simp,
      by simpa using call.starts, call.behind, call.isCall⟩

/-- What is true of all that the search lists is true of the calls. -/
theorem DelayCall.of_listed (hword : ∀ c ∈ k.identifier.toList, isWordChar c = true) {line : List Char}
    (P : List Char → Prop) (h : ∀ before ∈ callPrefixes k.identifier.toList [] 0 line, P before.reverse)
    (call : DelayCall k line) : P call.before := by
  have hlisted := h _ ((exists_delayCall_iff hword).mpr ⟨call, rfl⟩)
  rwa [List.reverse_reverse] at hlisted

end DelayInjection.Recovery
