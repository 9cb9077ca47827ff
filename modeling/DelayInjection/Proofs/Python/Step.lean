import DelayInjection.Proofs.Python.Lexeme

/-! The lexer of Python step by step. A step looks no further than the end of the line it ends in, and
behind the end of a line it looks at nothing, so whole lines may be put there. -/

namespace DelayInjection.Python

/-- The lexer between two steps, with what it knows of its line. -/
structure Scanner where
  opening : Bool
  blank : Bool
  lexer : Lexer

namespace Lexer

/-- Behind the blanks and the comment that stand first. -/
def skip (l : Lexer) : Lexer :=
  let l := l.advance (l.rest.takeWhile fun c => c == ' ' || c == '\t' || c == '\x0c').length
  if l.rest.head? == some '#' then l.advance (l.rest.takeWhile (· != '\n')).length else l

theorem advance_indents (n : Nat) (l : Lexer) : (l.advance n).indents = l.indents := by
  induction n generalizing l with
  | zero => rfl
  | succ n ih =>
    rw [advance]
    split
    · rfl
    · split <;> exact ih _

theorem advance_brackets (n : Nat) (l : Lexer) : (l.advance n).brackets = l.brackets := by
  induction n generalizing l with
  | zero => rfl
  | succ n ih =>
    rw [advance]
    split
    · rfl
    · split <;> exact ih _

end Lexer

/-- The lexers agree but for what is left of the text, and for where they stand in it. -/
structure Lexer.Alike (l l' : Lexer) : Prop where
  indents : l'.indents = l.indents
  brackets : l'.brackets = l.brackets

theorem Lexer.Alike.advance {l l' : Lexer} (h : l.Alike l') (m n : Nat) :
    (l.advance m).Alike (l'.advance n) :=
  ⟨by rw [advance_indents, advance_indents, h.indents],
    by rw [advance_brackets, advance_brackets, h.brackets]⟩

theorem Lexer.Alike.trans {l l' l'' : Lexer} (h : l.Alike l') (h' : l'.Alike l'') : l.Alike l'' :=
  ⟨h'.indents.trans h.indents, h'.brackets.trans h.brackets⟩

theorem Lexer.alike_advance (l : Lexer) (n : Nat) : l.Alike (l.advance n) :=
  ⟨advance_indents n l, advance_brackets n l⟩

/-- The second lexer stands behind `u`. -/
structure Lexer.Passes (l : Lexer) (u : List Char) (l' : Lexer) : Prop where
  rest : l.rest = u ++ l'.rest
  line : l'.line = l.line + u.count '\n'

theorem Lexer.Passes.trans {l l' l'' : Lexer} {u u' : List Char} (h : l.Passes u l')
    (h' : l'.Passes u' l'') : l.Passes (u ++ u') l'' := by
  refine ⟨by rw [h.rest, h'.rest, List.append_assoc], ?_⟩
  rw [h'.line, h.line, List.count_append, Nat.add_assoc]

theorem Lexer.passes_advance {l : Lexer} {u v : List Char} (h : l.rest = u ++ v) :
    l.Passes u (l.advance u.length) ∧ (l.advance u.length).rest = v := by
  obtain ⟨hrest, hline⟩ := advance_eq u.length l
  rw [h, List.drop_left] at hrest
  rw [h, List.take_left] at hline
  exact ⟨⟨by rw [h, hrest], hline⟩, hrest⟩

/-! ## The blanks that open a line -/

def isGap (c : Char) : Bool := c == ' ' || c == '\t' || c == '\x0c'

/-- The columns behind a blank. -/
def Indentation.pass (i : Indentation) (c : Char) : Indentation :=
  if c = ' ' then ⟨i.column + 1, i.alternative + 1, i.joined⟩
  else if c = '\t' then ⟨(i.column / 8 + 1) * 8, i.alternative + 1, i.joined⟩
  else ⟨0, 0, i.joined⟩

/-- The columns behind a joined line. -/
def Indentation.join (i : Indentation) : Indentation :=
  ⟨i.column, i.alternative, if i.joined = 0 then i.column else i.joined⟩

section Blanks

variable {l l' : Lexer} {i j : Indentation} {c : Char} {rest : List Char} {fuel : Nat}

theorem indentation_gap (h : l.rest = c :: rest) (hc : isGap c = true) :
    indentation (fuel + 1) l i = indentation fuel (l.advance 1) (i.pass c) := by
  rw [indentation, h]
  simp only [isGap, Bool.or_eq_true, beq_iff_eq] at hc
  obtain (rfl | rfl) | rfl := hc <;> rfl

theorem indentation_join (h : l.rest = '\\' :: '\n' :: c :: rest) :
    indentation (fuel + 1) l i = indentation fuel (l.advance 2) i.join := by
  rw [indentation, h]
  rfl

/-- Where a line has no more blanks, and is not joined. -/
def Lexer.Settles (l : Lexer) : Prop := ∀ c rest, l.rest = c :: rest → isGap c = false ∧ c ≠ '\\'

theorem indentation_settled (h : l.Settles) : indentation (fuel + 1) l i = some (l, i) := by
  rw [indentation]
  split
  next hrest => exact absurd (h _ _ hrest).1 (by decide)
  next hrest => exact absurd (h _ _ hrest).1 (by decide)
  next hrest => exact absurd (h _ _ hrest).1 (by decide)
  next hrest => exact absurd rfl (h _ _ hrest).2
  next hrest => exact absurd rfl (h _ _ hrest).2
  · rfl

theorem indentation_cases (h : indentation (fuel + 1) l i = some (l', j)) :
    (∃ c rest, l.rest = c :: rest ∧ isGap c = true ∧
      indentation fuel (l.advance 1) (i.pass c) = some (l', j)) ∨
    (∃ c rest, l.rest = '\\' :: '\n' :: c :: rest ∧
      indentation fuel (l.advance 2) i.join = some (l', j)) ∨
    l.Settles ∧ l' = l ∧ j = i := by
  rw [indentation] at h
  split at h
  next hrest => exact .inl ⟨_, _, hrest, rfl, h⟩
  next hrest => exact .inl ⟨_, _, hrest, rfl, h⟩
  next hrest => exact .inl ⟨_, _, hrest, rfl, h⟩
  next hrest => exact .inr (.inl ⟨_, _, hrest, h⟩)
  · cases h
  next hspace htab hfeed hjoined hjoin =>
    cases h
    refine .inr (.inr ⟨fun c rest hrest => ⟨?_, ?_⟩, rfl, rfl⟩)
    · simp only [isGap, Bool.or_eq_false_iff, beq_eq_false_iff_ne]
      exact ⟨⟨fun hc => hspace rest (hc ▸ hrest), fun hc => htab rest (hc ▸ hrest)⟩,
        fun hc => hfeed rest (hc ▸ hrest)⟩
    · exact fun hc => hjoin rest (hc ▸ hrest)

/-- The same blanks are passed whatever stands below their line. -/
theorem indentation_append (hfuel : l.rest.length < fuel)
    (h : indentation fuel l i = some (l', j)) :
    ∃ g, l.Passes g l' ∧ l.Alike l' ∧
      ∀ {l₂ : Lexer} {w : List Char} {fuel₂ : Nat}, l₂.rest = g ++ w → SameLine l'.rest w →
        l₂.rest.length < fuel₂ →
        ∃ l₂', indentation fuel₂ l₂ i = some (l₂', j) ∧ l₂'.rest = w ∧ l₂.Alike l₂' := by
  induction fuel generalizing l i with
  | zero => omega
  | succ fuel ih =>
    have hmore : ∀ {u v : List Char} {i' : Indentation}, u ≠ [] → l.rest = u ++ v →
        indentation fuel (l.advance u.length) i' = some (l', j) →
        (∀ {l₂ : Lexer} {w : List Char} {fuel₂ : Nat}, l₂.rest = u ++ w → SameLine v w →
          indentation (fuel₂ + 1) l₂ i = indentation fuel₂ (l₂.advance u.length) i') →
        ∃ g, l.Passes g l' ∧ l.Alike l' ∧
          ∀ {l₂ : Lexer} {w : List Char} {fuel₂ : Nat}, l₂.rest = g ++ w → SameLine l'.rest w →
            l₂.rest.length < fuel₂ →
            ∃ l₂', indentation fuel₂ l₂ i = some (l₂', j) ∧ l₂'.rest = w ∧ l₂.Alike l₂' := by
      intro u v i' hne hrest hrun hpass
      obtain ⟨hpasses, hbehind⟩ := Lexer.passes_advance hrest
      have hpos := List.length_pos_iff.mpr hne
      obtain ⟨g, hg, halike, hsame⟩ := ih (by
        rw [hrest, List.length_append] at hfuel
        rw [hbehind]
        omega) hrun
      refine ⟨u ++ g, hpasses.trans hg, (l.alike_advance _).trans halike, fun hrest₂ hw hfuel₂ => ?_⟩
      rename_i l₂ w fuel₂
      obtain ⟨fuel₂, rfl⟩ : ∃ n, fuel₂ = n + 1 := ⟨fuel₂ - 1, by omega⟩
      rw [List.append_assoc] at hrest₂
      obtain ⟨-, hbehind₂⟩ := Lexer.passes_advance hrest₂
      obtain ⟨l₂', hrun₂, hrest', halike'⟩ := @hsame _ _ fuel₂ hbehind₂ hw (by
        rw [hrest₂, List.length_append] at hfuel₂
        rw [hbehind₂]
        omega)
      refine ⟨l₂', ?_, hrest', (l₂.alike_advance _).trans halike'⟩
      rw [hpass hrest₂ (hbehind ▸ hg.rest ▸ hw.append g), hrun₂]
    rcases indentation_cases h with ⟨c, rest, hrest, hc, hrun⟩ | ⟨c, rest, hrest, hrun⟩ |
      ⟨hsettles, rfl, rfl⟩
    · exact hmore (u := [c]) (by simp) hrest hrun fun hrest₂ _ => indentation_gap hrest₂ hc
    · refine hmore (u := ['\\', '\n']) (v := c :: rest) (by simp) hrest hrun fun hrest₂ hw => ?_
      rename_i l₂ w fuel₂
      obtain ⟨d, w, rfl⟩ := List.exists_cons_of_ne_nil (fun hw' => List.cons_ne_nil c rest
        (hw.eq_nil_iff.mpr hw'))
      exact indentation_join hrest₂
    · refine ⟨[], ⟨rfl, rfl⟩, ⟨rfl, rfl⟩, fun hrest₂ hw hfuel₂ => ?_⟩
      rename_i l₂ w fuel₂
      obtain ⟨fuel₂, rfl⟩ : ∃ n, fuel₂ = n + 1 := ⟨fuel₂ - 1, by omega⟩
      refine ⟨l₂, indentation_settled fun c rest hrest => ?_, hrest₂, ⟨rfl, rfl⟩⟩
      rw [hrest₂, List.nil_append] at hrest
      have hhead := hw.head?_eq
      rw [hrest, List.head?_cons] at hhead
      obtain ⟨rest', hrest'⟩ := List.head?_eq_some_iff.mp hhead
      exact hsettles c rest' hrest'

/-- An indentation opens one block, or closes some. -/
theorem changeIndent_eq_ok {column alternative : Nat} {ts : List Token}
    (h : changeIndent l column alternative = .ok (ts, l')) :
    ∃ kind n others, (kind = .indent ∨ kind = .dedent) ∧ ts = List.replicate n (l.marker kind) ∧
      l' = { l with indents := (column, alternative) :: others } ∧
      ∀ l₂ : Lexer, l₂.indents = l.indents → changeIndent l₂ column alternative =
        .ok (List.replicate n (l₂.marker kind), { l₂ with indents := (column, alternative) :: others }) := by
  unfold changeIndent at h
  split at h
  · cases h
  next top altTop others hindents =>
    split at h
    next hcolumn =>
      split at h <;> cases h
      next halternative =>
        subst hcolumn halternative
        refine ⟨.indent, 0, others, .inl rfl, rfl, by rw [← hindents], fun l₂ hl₂ => ?_⟩
        rw [changeIndent, hl₂, hindents]
        simp only [if_true, ← hindents, ← hl₂]
        rfl
    next hne =>
      split at h
      next hlt =>
        split at h
        · cases h
        next hmax =>
          split at h <;> cases h
          next halt =>
            refine ⟨.indent, 1, l.indents, .inl rfl, rfl, rfl, fun l₂ hl₂ => ?_⟩
            simp only [changeIndent, hl₂, hindents, hne, hlt, halt, if_false, if_true]
            rw [hindents] at hmax
            rw [if_neg hmax]
            rfl
      next hnlt =>
        simp only at h
        split at h
        next c a rest hdrop =>
          split at h
          · cases h
          next hc =>
            split at h <;> cases h
            next ha =>
              rw [not_not] at hc ha
              subst hc ha
              refine ⟨.dedent, _, rest, .inr rfl, rfl, rfl, fun l₂ hl₂ => ?_⟩
              rw [changeIndent, hl₂, hindents]
              rw [hindents] at hdrop
              simp only [hne, hnlt, if_false, hdrop]
              rw [if_neg fun h => h rfl, if_neg fun h => h rfl]
        · cases h

end Blanks

/-! ## The blanks between tokens -/

/-- The blanks that stand first, with the comment behind them. -/
def gapLength (text : List Char) : Nat :=
  let n := (text.takeWhile isGap).length
  if (text.drop n).head? == some '#' then n + ((text.drop n).takeWhile (· != '\n')).length else n

theorem Lexer.advance_add (m n : Nat) (l : Lexer) : l.advance (m + n) = (l.advance m).advance n := by
  induction m generalizing l with
  | zero => rw [Nat.zero_add]; rfl
  | succ m ih =>
    rw [Nat.succ_add, advance, advance]
    split
    next hrest =>
      cases n with
      | zero => rfl
      | succ n => simp [advance, hrest]
    · split <;> exact ih _

theorem Lexer.skip_eq (l : Lexer) : l.skip = l.advance (gapLength l.rest) := by
  unfold skip gapLength
  simp only
  rw [(advance_eq _ l).1]
  change (if (l.rest.drop (l.rest.takeWhile isGap).length).head? == some '#' then _ else _) = _
  split
  · rw [advance_add]
    rfl
  · rfl

theorem newline_not_mem_gap (text : List Char) : '\n' ∉ text.take (gapLength text) := by
  have hrun := newline_not_mem_takeWhile (p := isGap) (by decide) text
  have htake := List.prefix_iff_eq_take.mp (List.takeWhile_prefix isGap (l := text))
  unfold gapLength
  simp only
  split
  · rw [List.take_add, ← htake, ← List.prefix_iff_eq_take.mp (List.takeWhile_prefix _), List.mem_append,
      not_or]
    exact ⟨hrun, newline_not_mem_takeWhile (by decide) _⟩
  · rwa [← htake]

theorem gapLength_eq {x y : List Char} (h : SameLine x y) : gapLength x = gapLength y := by
  have hdrop := h.drop_takeWhile (p := isGap) (by decide)
  unfold gapLength
  rw [← h.takeWhile_eq (p := isGap) (by decide)] at hdrop ⊢
  simp only [hdrop.head?_eq, hdrop.takeWhile_eq (p := (· != '\n')) (by decide)]

theorem gapLength_le (text : List Char) : gapLength text ≤ text.length := by
  unfold gapLength
  have hrun := (List.takeWhile_prefix isGap (l := text)).length_le
  have hcomment := (List.takeWhile_prefix (· != '\n')
    (l := text.drop (text.takeWhile isGap).length)).length_le
  rw [List.length_drop] at hcomment
  simp only
  split <;> omega

/-- The same blanks are skipped whatever stands below the line. -/
theorem Lexer.passes_skip (l : Lexer) : ∃ g, '\n' ∉ g ∧ l.Passes g l.skip ∧ l.Alike l.skip ∧
    ∀ {l₂ : Lexer} {w : List Char}, l₂.rest = g ++ w → SameLine l.skip.rest w →
      l₂.skip.rest = w ∧ l₂.Alike l₂.skip := by
  have hlength : (l.rest.take (gapLength l.rest)).length = gapLength l.rest := by
    rw [List.length_take, Nat.min_eq_left (gapLength_le _)]
  have hskip : l.skip = l.advance (l.rest.take (gapLength l.rest)).length := by
    rw [hlength, skip_eq]
  obtain ⟨hpasses, hbehind⟩ := passes_advance (List.take_append_drop (gapLength l.rest) l.rest).symm
  rw [← hskip] at hpasses hbehind
  refine ⟨_, newline_not_mem_gap l.rest, hpasses, hskip ▸ l.alike_advance _, fun hrest₂ hw => ?_⟩
  rename_i l₂ w
  have hsame := hw.append (l.rest.take (gapLength l.rest))
  rw [← hpasses.rest, ← hrest₂] at hsame
  refine ⟨?_, l₂.skip_eq ▸ l₂.alike_advance _⟩
  rw [skip_eq, ← gapLength_eq hsame, ← hlength]
  exact (passes_advance hrest₂).2

namespace Scanner

def start (text : List Char) : Scanner := ⟨true, false, Lexer.start text⟩

/-- Nothing but a comment stands in the rest of the line. -/
def isBlankLine : List Char → Bool
  | '#' :: _ => true
  | '\n' :: _ => true
  | _ => false

/-- The tokens of an indentation, where a line holds anything and no bracket is open. -/
def indent (l : Lexer) (i : Indentation) : Except (List Token) (List Token × Scanner) :=
  if isBlankLine l.rest || !l.brackets.isEmpty then .ok ([], ⟨false, isBlankLine l.rest, l⟩)
  else
    (changeIndent l (if i.joined = 0 then i.column else i.joined)
      (if i.joined = 0 then i.alternative else i.joined)).map fun (ts, l) => (ts, ⟨false, false, l⟩)

/-- The token that comes next. -/
def pass (blank : Bool) (l : Lexer) : Except (List Token) (List Token × Scanner) :=
  match lexeme l.brackets l.rest with
  | .finish => .error [l.marker .finish]
  | .ended =>
    .ok (if blank || !l.brackets.isEmpty then [] else [l.marker .newline], ⟨true, false, l.advance 1⟩)
  | .joined => .ok ([], ⟨false, blank, l.advance 2⟩)
  | .token kind n brackets =>
    .ok ([(tokenOf l kind n).1], ⟨false, blank, { (tokenOf l kind n).2 with brackets := brackets }⟩)
  | .fault reported => .error (l.faultAt .invalidSyntax reported)

/-- The tokens up to the next place to stop at, or the last ones. -/
def step (s : Scanner) : Except (List Token) (List Token × Scanner) :=
  if s.opening then
    match indentation (s.lexer.rest.length + 1) s.lexer ⟨0, 0, 0⟩ with
    | none => .error s.lexer.unreadable
    | some (l, i) => indent l i
  else pass s.blank s.lexer.skip

/-- The tokens from here on. -/
def tokens (fuel : Nat) (s : Scanner) : List Token := tokensFrom fuel s.opening s.blank s.lexer

theorem tokens_succ (fuel : Nat) (s : Scanner) : s.tokens (fuel + 1) =
    match s.step with
    | .error ts => ts
    | .ok (ts, s') => ts ++ s'.tokens fuel := by
  obtain ⟨opening, blank, l⟩ := s
  cases opening with
  | true =>
    rw [tokens, tokensFrom, step, if_pos rfl]
    cases indentation (l.rest.length + 1) l ⟨0, 0, 0⟩ with
    | none => rfl
    | some run =>
      obtain ⟨l, i⟩ := run
      change (if isBlankLine l.rest || !l.brackets.isEmpty then _ else _) = _
      simp only [indent]
      split
      · rfl
      · cases changeIndent l _ _ <;> rfl
  | false =>
    rw [tokens, tokensFrom, step, if_neg Bool.false_ne_true]
    simp only
    rw [← Lexer.skip]
    generalize l.skip = l
    rw [pass]
    split
    next hrest =>
      rw [hrest, lexeme]
      cases l.brackets.isEmpty <;> rfl
    next hrest =>
      rw [hrest, lexeme]
      simp only
      cases blank || !l.brackets.isEmpty <;> rfl
    next rest hrest =>
      rw [hrest, lexeme]
      cases rest.isEmpty <;> rfl
    next rest hjoined hrest =>
      have hfault : lexeme l.brackets ('\\' :: rest) = .fault false := by
        unfold lexeme
        split
        next heq => cases heq
        next heq => cases heq
        next heq => exact (hjoined _ (List.cons.inj heq).2).elim
        · rfl
        next hjoin heq => exact (hjoin (List.cons.inj heq).1.symm).elim
      rw [hrest, hfault]
      rfl
    next c rest hnewline hjoined hjoin hrest =>
      have htoken : ∀ kind n, [(tokenOf l kind n).1] ++
          tokens fuel ⟨false, blank, { (tokenOf l kind n).2 with brackets := l.brackets }⟩ =
          (tokenOf l kind n).1 :: tokensFrom fuel false blank (tokenOf l kind n).2 := by
        intro kind n
        rw [tokens, show ({ (tokenOf l kind n).2 with brackets := l.brackets } : Lexer) =
          (tokenOf l kind n).2 by rw [← l.advance_brackets n]; rfl]
        rfl
      rw [hrest, lexeme_cons hnewline hjoin, tokenLexeme]
      cases opensText (c :: rest) with
      | some n =>
        simp only
        cases textLength ((c :: rest).drop n) with
        | none => rfl
        | some m => exact (htoken _ _).symm
      | none =>
        rw [← List.prefix_iff_eq_take.mp (List.takeWhile_prefix isNameChar)]
        simp only
        split
        · split
          · exact (htoken _ _).symm
          · rfl
        · split
          · cases numberLength (c :: rest) with
            | none => rfl
            | some n => exact (htoken _ _).symm
          · cases (if markLength (c :: rest) = 1 then bracketsBehind l.brackets c else some l.brackets) with
            | none => rfl
            | some brackets =>
              simp only
              split <;> rfl

end Scanner

/-! ## What a step does -/

/-- What a parse reads of a token. -/
def Token.word (t : Token) : TokenKind × String := (t.kind, t.text)

namespace Scanner

/-- The scanners agree but for the text, and for where they stand in it. -/
structure Alike (s s' : Scanner) : Prop where
  opening : s'.opening = s.opening
  blank : s'.blank = s.blank
  lexer : s.lexer.Alike s'.lexer

/-- The ways in which a step passes `u` and makes tokens. -/
inductive Move (s s' : Scanner) (u : List Char) : List Token → Prop
  | indent {ts : List Token} (hs : s.opening = true) (hs' : s'.opening = false)
    (hbrackets : s'.lexer.brackets = s.lexer.brackets)
    (hblank : s'.blank = true → isBlankLine s'.lexer.rest = true)
    (hts : ∀ t ∈ ts, t.kind = .indent ∨ t.kind = .dedent) : Move s s' u ts
  | blank (hs : s.opening = false) (hs' : s'.opening = true)
    (hbrackets : s'.lexer.brackets = s.lexer.brackets) {x : List Char} (hx : '\n' ∉ x)
    (hu : u = x ++ ['\n']) (hblank : s.blank = true ∨ s.lexer.brackets ≠ []) : Move s s' u []
  | ended (hs : s.opening = false) (hs' : s'.opening = true) {x : List Char} (hx : '\n' ∉ x)
    (hu : u = x ++ ['\n']) {t : Token} (ht : t.kind = .newline) : Move s s' u [t]
  | joined (hs : s.opening = false) (hs' : s'.opening = false)
    (hrest : isBlankLine s.lexer.rest = false) (hu : '\n' ∈ u) : Move s s' u []
  | token (hs : s.opening = false) (hs' : s'.opening = false)
    (hrest : isBlankLine s.lexer.rest = false) {t : Token} (ht : t.kind.isPlain = true)
    (hline : t.line = s.lexer.line) : Move s s' u [t]

theorem isBlankLine_eq {x y : List Char} (h : SameLine x y) : isBlankLine x = isBlankLine y := by
  cases h with
  | nil => rfl
  | ended => rfl
  | cons c h =>
    unfold isBlankLine
    split <;> split <;> simp_all

/-- A scanner goes on as another does that reads the same up to the end of the line. -/
def Follows (s : Scanner) (u : List Char) (ts : List Token) (s' : Scanner) : Prop :=
  ∀ {s₂ : Scanner} {w : List Char}, s.Alike s₂ → s₂.lexer.rest = u ++ w →
    (s'.opening = true ∨ SameLine s'.lexer.rest w) →
    ∃ ts₂ s₂', s₂.step = .ok (ts₂, s₂') ∧ ts₂.map Token.word = ts.map Token.word ∧ s'.Alike s₂' ∧
      s₂'.lexer.rest = w

theorem of_indent {s s' : Scanner} {l : Lexer} {i : Indentation} {ts : List Token}
    (hs : s.opening = true) (hbrackets : l.brackets = s.lexer.brackets)
    (h : indent l i = .ok (ts, s')) :
    s'.opening = false ∧ s'.lexer.rest = l.rest ∧ s'.lexer.line = l.line ∧
      (∀ u, s.Move s' u ts) ∧
      ∀ {l₂ : Lexer}, l.Alike l₂ → SameLine l.rest l₂.rest → ∃ ts₂ s₂', indent l₂ i = .ok (ts₂, s₂') ∧
        ts₂.map Token.word = ts.map Token.word ∧ s'.Alike s₂' ∧ s₂'.lexer.rest = l₂.rest := by
  rw [indent] at h
  split at h
  next hblank =>
    cases h
    refine ⟨rfl, rfl, rfl, fun u => .indent hs rfl hbrackets id (fun _ ht => nomatch ht), ?_⟩
    intro l₂ hl₂ hline
    rw [indent, ← isBlankLine_eq hline, hl₂.brackets, if_pos hblank]
    exact ⟨[], _, rfl, rfl, ⟨rfl, rfl, hl₂⟩, rfl⟩
  next hblank =>
    cases hchange : changeIndent l (if i.joined = 0 then i.column else i.joined)
      (if i.joined = 0 then i.alternative else i.joined) with
    | error ts =>
      rw [hchange] at h
      cases h
    | ok run =>
      obtain ⟨kind, n, others, hkind, hts, hl, hsame⟩ := changeIndent_eq_ok hchange
      rw [hchange] at h
      cases h
      refine ⟨rfl, by rw [hl], by rw [hl], fun u => .indent hs rfl (by rw [hl]; exact hbrackets)
        (fun h => nomatch h) fun t ht => ?_, ?_⟩
      · rw [hts] at ht
        rw [List.eq_of_mem_replicate ht]
        exact hkind
      · intro l₂ hl₂ hline
        rw [indent, ← isBlankLine_eq hline, hl₂.brackets, if_neg hblank, hsame l₂ hl₂.indents]
        refine ⟨_, _, rfl, ?_, ⟨rfl, rfl, ?_⟩, rfl⟩
        · rw [hts, List.map_replicate, List.map_replicate]
          rfl
        · rw [hl]
          exact ⟨rfl, hl₂.brackets⟩

theorem of_step_opening {s s' : Scanner} {ts : List Token} (hs : s.opening = true)
    (h : s.step = .ok (ts, s')) :
    ∃ u, s.lexer.Passes u s'.lexer ∧ s.Move s' u ts ∧ s.Follows u ts s' := by
  rw [step, if_pos hs] at h
  cases hrun : indentation (s.lexer.rest.length + 1) s.lexer ⟨0, 0, 0⟩ with
  | none =>
    rw [hrun] at h
    cases h
  | some run =>
    obtain ⟨l, i⟩ := run
    rw [hrun] at h
    obtain ⟨g, hpasses, halike, hsame⟩ := indentation_append (Nat.lt_succ_self _) hrun
    obtain ⟨hs', hrest, hline, hmove, hindent⟩ := of_indent hs halike.brackets h
    refine ⟨g, ⟨hrest ▸ hpasses.rest, hline ▸ hpasses.line⟩, hmove g, ?_⟩
    intro s₂ w hs₂ hrest₂ hw
    replace hw := hrest ▸ hw.resolve_left fun h => Bool.false_ne_true (hs'.symm.trans h)
    obtain ⟨l₂, hrun₂, rfl, halike₂⟩ := hsame hrest₂ hw (Nat.lt_succ_self _)
    have hl₂ : l.Alike l₂ := by
      have := (hs₂.lexer.trans halike₂)
      exact ⟨this.indents.trans halike.indents.symm, this.brackets.trans halike.brackets.symm⟩
    obtain ⟨ts₂, s₂', hstep, hwords, hlike, hrest'⟩ := hindent hl₂ hw
    exact ⟨ts₂, s₂', by rw [step, if_pos (hs₂.opening.trans hs), hrun₂]; exact hstep, hwords, hlike, hrest'⟩

theorem skip_of_blank {l : Lexer} (h : isBlankLine l.rest = true) :
    l.skip.rest = [] ∨ ∃ v, l.skip.rest = '\n' :: v := by
  rw [Lexer.skip_eq, (Lexer.advance_eq _ l).1]
  unfold isBlankLine at h
  split at h
  next v hrest =>
    have hlength : gapLength ('#' :: v) = (('#' :: v).takeWhile (· != '\n')).length := by
      rw [gapLength, List.takeWhile_cons_of_neg (by decide)]
      simp
    rw [hrest, hlength]
    have hsplit := List.takeWhile_append_dropWhile (p := (· != '\n')) (l := '#' :: v)
    have hhead := List.head?_dropWhile_not (· != '\n') ('#' :: v)
    generalize ('#' :: v).takeWhile (· != '\n') = comment at hsplit ⊢
    generalize ('#' :: v).dropWhile (· != '\n') = behind at hsplit hhead
    rw [← hsplit, List.drop_left]
    cases behind with
    | nil => exact .inl rfl
    | cons c w =>
      obtain rfl : c = '\n' := by simpa using hhead
      exact .inr ⟨w, rfl⟩
  next v hrest =>
    rw [hrest]
    exact .inr ⟨v, rfl⟩
  · cases h

theorem pass_ended {blank : Bool} {l : Lexer} {v : List Char} (h : l.rest = '\n' :: v) :
    pass blank l = .ok (if blank || !l.brackets.isEmpty then [] else [l.marker .newline],
      ⟨true, false, l.advance 1⟩) := by
  rw [pass, h]
  rfl

theorem pass_joined {blank : Bool} {l : Lexer} {c : Char} {v : List Char}
    (h : l.rest = '\\' :: '\n' :: c :: v) :
    pass blank l = .ok ([], ⟨false, blank, l.advance 2⟩) := by
  rw [pass, h]
  rfl

theorem pass_token {blank : Bool} {l : Lexer} {kind : TokenKind} {n : Nat} {behind : List Char}
    (h : lexeme l.brackets l.rest = .token kind n behind) :
    pass blank l = .ok ([(tokenOf l kind n).1],
      ⟨false, blank, { (tokenOf l kind n).2 with brackets := behind }⟩) := by
  rw [pass, h]

/-- A token is taken again in front of any text that goes on in the same way. -/
theorem lexeme_take {brackets behind x w : List Char} {kind : TokenKind} {n : Nat}
    (h : lexeme brackets x = .token kind n behind) (hw : SameLine (x.drop n) w) :
    lexeme brackets (x.take n ++ w) = .token kind n behind ∧ (x.take n ++ w).take n = x.take n ∧
      (x.take n ++ w).drop n = w := by
  by_cases hn : n ≤ x.length
  · have hlength : (x.take n).length = n := List.length_take_of_le hn
    refine ⟨?_, List.take_left' hlength, List.drop_left' hlength⟩
    have happend := lexeme_append (u := x.take n) hw (by rw [List.take_append_drop, hlength]; exact h)
    rwa [hlength] at happend
  · -- nothing is left, so nothing may follow
    have hlt : x.length ≤ n := by omega
    rw [List.drop_of_length_le hlt] at hw
    obtain rfl := hw.eq_nil_iff.mp rfl
    rw [List.append_nil, List.take_of_length_le hlt, List.take_of_length_le hlt]
    exact ⟨h, rfl, List.drop_of_length_le hlt⟩

theorem of_step_within {s s' : Scanner} {ts : List Token} (hs : s.opening = false)
    (h : s.step = .ok (ts, s')) :
    ∃ u, u ≠ [] ∧ s.lexer.Passes u s'.lexer ∧ s.Move s' u ts ∧ s.Follows u ts s' := by
  have hstep : ∀ {s₂ : Scanner}, s.Alike s₂ → s₂.step = pass s.blank s₂.lexer.skip := by
    intro s₂ hs₂
    rw [step, if_neg (by rw [hs₂.opening, hs]; exact Bool.false_ne_true), hs₂.blank]
  rw [step, if_neg (by rw [hs]; exact Bool.false_ne_true)] at h
  obtain ⟨g, hg, hpasses, halike, hskip⟩ := s.lexer.passes_skip
  have hblank := @skip_of_blank s.lexer
  generalize s.lexer.skip = l at h hpasses halike hskip hblank
  have hline : l.line = s.lexer.line := by
    rw [hpasses.line, List.count_eq_zero_of_not_mem hg, Nat.add_zero]
  have hlike : ∀ {s₂ : Scanner}, s.Alike s₂ → s₂.lexer.Alike s₂.lexer.skip → l.Alike s₂.lexer.skip := by
    intro s₂ hs₂ h₂
    exact ⟨h₂.indents.trans (hs₂.lexer.indents.trans halike.indents.symm),
      h₂.brackets.trans (hs₂.lexer.brackets.trans halike.brackets.symm)⟩
  rw [pass] at h
  rcases lexeme_cases l.brackets l.rest with ⟨-, hx | hx⟩ | ⟨v, hrest, hx⟩ | ⟨c, v, hrest, hx⟩ | hx |
    ⟨c, v, hrest, hnewline, hjoin, hx⟩
  · rw [hx] at h
    cases h
  · rw [hx] at h
    cases h
  · rw [hx] at h
    cases h
    obtain ⟨hpass, hbehind⟩ := Lexer.passes_advance (u := ['\n']) hrest
    refine ⟨g ++ ['\n'], by simp, hpasses.trans hpass, ?_, fun {s₂ w} hs₂ hrest₂ _ => ?_⟩
    · split
      next hquiet =>
        refine .blank hs rfl ((l.alike_advance 1).brackets.trans halike.brackets) hg rfl ?_
        rw [halike.brackets] at hquiet
        simpa using hquiet
      · exact .ended hs rfl hg rfl rfl
    · rw [List.append_assoc] at hrest₂
      obtain ⟨hskip₂, halike₂⟩ := hskip hrest₂ (hrest ▸ .ended v w)
      have hl₂ := hlike hs₂ halike₂
      refine ⟨_, _, (hstep hs₂).trans (pass_ended hskip₂), ?_, ⟨rfl, rfl, hl₂.advance 1 1⟩,
        (Lexer.passes_advance (u := ['\n']) hskip₂).2⟩
      rw [hl₂.brackets]
      split <;> rfl
  · rw [hx] at h
    cases h
    obtain ⟨hpass, hbehind⟩ := Lexer.passes_advance (u := ['\\', '\n']) hrest
    refine ⟨g ++ ['\\', '\n'], by simp, hpasses.trans hpass, .joined hs rfl ?_ (by simp),
      fun {s₂ w} hs₂ hrest₂ hw => ?_⟩
    · refine Bool.eq_false_iff.mpr fun h => ?_
      rcases hblank h with hnil | ⟨v, hv⟩
      · rw [hnil] at hrest
        cases hrest
      · rw [hv] at hrest
        cases hrest
    · replace hw : SameLine (c :: v) w := hbehind ▸ hw.resolve_left Bool.false_ne_true
      rw [List.append_assoc] at hrest₂
      obtain ⟨hskip₂, halike₂⟩ := hskip hrest₂ (hrest ▸ hw.append ['\\', '\n'])
      have hl₂ := hlike hs₂ halike₂
      obtain ⟨d, w, rfl⟩ := List.exists_cons_of_ne_nil fun hnil => List.cons_ne_nil c v
        (hw.eq_nil_iff.mpr hnil)
      exact ⟨_, _, (hstep hs₂).trans (pass_joined hskip₂), rfl, ⟨rfl, rfl, hl₂.advance 2 2⟩,
        (Lexer.passes_advance (u := ['\\', '\n']) hskip₂).2⟩
  · rw [hx] at h
    cases h
  · rcases tokenLexeme_cases l.brackets c v with ⟨kind, n, behind, htoken, hplain⟩ | htoken
    · rw [hx, htoken] at h
      cases h
      have hpos := tokenLexeme_pos htoken
      have hnone : isBlankLine s.lexer.rest = false := by
        refine Bool.eq_false_iff.mpr fun h => ?_
        rcases hblank h with hnil | ⟨v, hv⟩
        · rw [hnil] at hrest
          cases hrest
        · rw [hv] at hrest
          exact hnewline (List.cons.inj hrest).1.symm
      obtain ⟨hbehind, hlines⟩ := Lexer.advance_eq n l
      have hpass : l.Passes (l.rest.take n) (tokenOf l kind n).2 :=
        ⟨by rw [tokenOf, hbehind, List.take_append_drop], hlines⟩
      refine ⟨g ++ l.rest.take n, ?_, hpasses.trans ⟨hpass.rest, hpass.line⟩,
        .token hs rfl hnone hplain hline, fun {s₂ w} hs₂ hrest₂ hw => ?_⟩
      · rw [hrest]
        cases n with
        | zero => exact absurd hpos (Nat.lt_irrefl 0)
        | succ n => simp
      · replace hw : SameLine (l.rest.drop n) w := hbehind ▸ hw.resolve_left Bool.false_ne_true
        obtain ⟨hlexeme, htake, hdrop⟩ := lexeme_take (hx.trans htoken) hw
        rw [List.append_assoc] at hrest₂
        obtain ⟨hskip₂, halike₂⟩ := hskip hrest₂ (by
          conv_lhs => rw [← List.take_append_drop n l.rest]
          exact hw.append _)
        have hl₂ := hlike hs₂ halike₂
        rw [← hskip₂, ← hl₂.brackets] at hlexeme
        refine ⟨_, _, (hstep hs₂).trans (pass_token hlexeme), ?_, ⟨rfl, rfl, ?_⟩, ?_⟩
        · simp only [List.map_cons, List.map_nil, Token.word, tokenOf, hskip₂, htake]
        · exact ⟨(hl₂.advance n n).indents, rfl⟩
        · change (s₂.lexer.skip.advance n).rest = w
          rw [(Lexer.advance_eq n _).1, hskip₂, hdrop]
    · rw [hx, htoken] at h
      cases h

end Scanner
end DelayInjection.Python
