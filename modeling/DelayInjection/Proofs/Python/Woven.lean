import DelayInjection.Proofs.Injection.Splice
import DelayInjection.Proofs.Python.Line
import DelayInjection.Proofs.Python.Order

/-! Delays between the lines of a Python source. The tokens stay as they are, with those of a call in front
of the first one of each line that gets a delay. -/

namespace DelayInjection.Python

/-! ## Places of tokens -/

theorem names_injective {text front front' : List Char} {line column : Nat} (hfront : front <+: text)
    (hfront' : front' <+: text) (h : Names front line column) (h' : Names front' line column) :
    front = front' := by
  -- the longer one has no more lines, and no more on its last line
  have hextend : ∀ {a d : List Char}, Names a line column → Names (a ++ d) line column → d = [] := by
    intro a d ha had
    have hcount := ha.1.symm.trans had.1
    rw [List.count_append] at hcount
    have hnot : '\n' ∉ d := List.count_eq_zero.mp (by omega)
    have hcolumn := ha.2.symm.trans had.2
    rw [Text.lastLine_append_of_not_mem hnot, Text.Utf8.encode_append, List.length_append] at hcolumn
    cases d with
    | nil => rfl
    | cons c d =>
      have hpos := List.length_pos_iff.mpr (Text.Utf8.encodeChar_ne_nil c)
      rw [Text.Utf8.encode_cons, List.length_append] at hcolumn
      omega
  rcases List.prefix_or_prefix_of_prefix hfront hfront' with ⟨d, rfl⟩ | ⟨d, rfl⟩
  · rw [hextend h h', List.append_nil]
  · rw [hextend h' h, List.append_nil]

namespace Scanner

variable {s s' s₁ s₂ : Scanner} {ts us : List Token} {u v text before : List Char}

theorem stands_of_step (h : s.lexer.Stands text before) (hstep : s.step = .ok (ts, s')) :
    ∃ u, s.lexer.Passes u s'.lexer ∧ s'.lexer.Stands text (before ++ u) ∧
      ∀ t ∈ ts, ∃ v, v <+: u ∧ Names (before ++ v) t.line t.column ∧ (s.opening = true ∨ v ≠ u) := by
  obtain ⟨u, hpasses, -, -, -⟩ := exists_move hstep
  have hfront : ∀ {front : List Char}, s'.lexer.Stands text front → front = before ++ u := by
    intro front hstands
    have hwhole := h.1.symm.trans hstands.1
    rw [hpasses.rest, ← List.append_assoc] at hwhole
    exact (List.append_cancel_right hwhole).symm
  refine ⟨u, hpasses, ?_⟩
  cases hs : s.opening with
  | true =>
    rw [step, if_pos hs] at hstep
    cases hrun : indentation (s.lexer.rest.length + 1) s.lexer ⟨0, 0, 0⟩ with
    | none =>
      rw [hrun] at hstep
      cases hstep
    | some run =>
      obtain ⟨l, i⟩ := run
      rw [hrun] at hstep
      replace hstep : indent l i = .ok (ts, s') := hstep
      obtain ⟨front, -, hstands⟩ := stands_indentation h hrun
      rw [indent] at hstep
      split at hstep
      · cases hstep
        obtain rfl := hfront hstands
        exact ⟨hstands, fun _ ht => absurd ht List.not_mem_nil⟩
      · cases hchange : changeIndent l (if i.joined = 0 then i.column else i.joined)
          (if i.joined = 0 then i.alternative else i.joined) with
        | error ts =>
          rw [hchange] at hstep
          cases hstep
        | ok run =>
          obtain ⟨kind, n, others, -, hts, hl, -⟩ := changeIndent_eq_ok hchange
          rw [hchange] at hstep
          cases hstep
          have hstands' : run.2.Stands text front := by
            rw [hl]
            exact hstands
          obtain rfl := hfront hstands'
          refine ⟨hstands', fun t ht => ⟨u, List.prefix_rfl, ?_, .inl rfl⟩⟩
          rw [hts] at ht
          rw [List.eq_of_mem_replicate ht]
          exact hstands.2
  | false =>
    rw [step, if_neg (by rw [hs]; exact Bool.false_ne_true)] at hstep
    obtain ⟨g, -, hgap, -⟩ := s.lexer.passes_skip
    have hstands := h.advance (gapLength s.lexer.rest)
    rw [← Lexer.skip_eq] at hstands
    generalize before ++ s.lexer.rest.take (gapLength s.lexer.rest) = front at hstands
    obtain rfl : front = before ++ g := by
      have hwhole := h.1.symm.trans hstands.1
      rw [hgap.rest, ← List.append_assoc] at hwhole
      exact (List.append_cancel_right hwhole).symm
    generalize s.lexer.skip = l at hstep hstands
    have hpass : ∀ {n : Nat} {l' : Lexer}, n ≠ 0 → l.rest ≠ [] →
        l'.Stands text (before ++ g ++ l.rest.take n) →
        s'.lexer = l' → s'.lexer.Stands text (before ++ u) ∧ ∀ t : Token, t.line = l.line →
          t.column = l.column → ∃ v, v <+: u ∧ Names (before ++ v) t.line t.column ∧
            (false = true ∨ v ≠ u) := by
      rintro n l' hn hne hl' rfl
      have hu := hfront hl'
      rw [List.append_assoc] at hu
      obtain rfl := List.append_cancel_left hu
      refine ⟨by rw [← List.append_assoc]; exact hl', fun t hline hcolumn =>
        ⟨g, List.prefix_append _ _, ?_, .inr ?_⟩⟩
      · rw [hline, hcolumn]
        exact hstands.2
      · intro heq
        have hnil := List.append_right_eq_self.mp heq.symm
        rw [List.take_eq_nil_iff] at hnil
        exact hnil.elim hn hne
    rw [pass] at hstep
    rcases lexeme_cases l.brackets l.rest with ⟨-, hx | hx⟩ | ⟨w, hrest, hx⟩ | ⟨c, w, hrest, hx⟩ | hx |
      ⟨c, w, hrest, -, -, hx⟩
    · rw [hx] at hstep
      cases hstep
    · rw [hx] at hstep
      cases hstep
    · rw [hx] at hstep
      cases hstep
      obtain ⟨hstands', hts⟩ := hpass Nat.one_ne_zero (by simp [hrest]) (hstands.advance 1) rfl
      refine ⟨hstands', fun t ht => ?_⟩
      split at ht
      · cases ht
      · rw [List.mem_singleton] at ht
        exact hts t (by rw [ht]; rfl) (by rw [ht]; rfl)
    · rw [hx] at hstep
      cases hstep
      obtain ⟨hstands', -⟩ := hpass (by decide : 2 ≠ 0) (by simp [hrest]) (hstands.advance 2) rfl
      exact ⟨hstands', fun _ ht => absurd ht List.not_mem_nil⟩
    · rw [hx] at hstep
      cases hstep
    · rcases tokenLexeme_cases l.brackets c w with ⟨kind, n, behind, htoken, -⟩ | htoken
      · have hpos := tokenLexeme_pos htoken
        rw [hx, htoken] at hstep
        cases hstep
        obtain ⟨hstands', hts⟩ := @hpass n { (tokenOf l kind n).2 with brackets := behind }
          (Nat.ne_of_gt hpos) (by simp [hrest]) (hstands.advance n) rfl
        refine ⟨hstands', fun t ht => ?_⟩
        rw [List.mem_singleton] at ht
        exact hts t (by rw [ht]; rfl) (by rw [ht]; rfl)
      · rw [hx, htoken] at hstep
        cases hstep

/-- The first token of a line stands where the scanner does. -/
theorem exists_token (hs : s.opening = false) (hstarts : startsToken s.lexer.rest = true)
    (hstep : s.step = .ok (ts, s')) : ∃ t, ts = [t] ∧ t.kind.isPlain = true ∧ t.line = s.lexer.line ∧
      t.column = s.lexer.column ∧ s'.opening = false := by
  have hskip : s.lexer.skip = s.lexer := by
    rw [Lexer.skip_eq, gapLength_of_startsToken hstarts]
    rfl
  rw [step, if_neg (by rw [hs]; exact Bool.false_ne_true), hskip, pass] at hstep
  generalize hrest : s.lexer.rest = rest at hstarts hstep
  cases rest with
  | nil => cases hstarts
  | cons c rest =>
    simp only [startsToken, Bool.and_eq_true, Bool.not_eq_true', bne_iff_ne] at hstarts
    rw [lexeme_cons hstarts.2 hstarts.1.1.2] at hstep
    rcases tokenLexeme_cases s.lexer.brackets c rest with ⟨kind, n, behind, htoken, hplain⟩ | htoken
    · rw [htoken] at hstep
      cases hstep
      exact ⟨_, rfl, hplain, rfl, rfl, rfl⟩
    · rw [htoken] at hstep
      cases hstep

namespace Run

theorem stands (h : Run s u ts s') (hs : s.lexer.Stands text before) :
    s'.lexer.Stands text (before ++ u) := by
  induction h generalizing before with
  | refl => simpa using hs
  | step hstep hu _ ih =>
    obtain ⟨v, hpasses, hstands, -⟩ := stands_of_step hs hstep
    obtain rfl := List.append_cancel_right (hpasses.rest.symm.trans hu.rest)
    rw [← List.append_assoc]
    exact ih hstands

/-- Up to the start of a line every token stands above it. Without that, a token still stands in front of
the end, unless it marks a change of the indentation. -/
theorem exists_names (h : Run s u ts s') (hs : s.lexer.Stands text before) {t : Token} (ht : t ∈ ts) :
    ∃ v, v <+: u ∧ Names (before ++ v) t.line t.column ∧
      (t.kind.isPlain = true ∨ s'.opening = true → v ≠ u) := by
  induction h generalizing before with
  | refl => cases ht
  | @step s s₁ s' _ w' us us' hstep hu hrest ih =>
    obtain ⟨v, hpasses, hstands, hnames⟩ := stands_of_step hs hstep
    obtain rfl := List.append_cancel_right (hpasses.rest.symm.trans hu.rest)
    rcases List.mem_append.mp ht with ht | ht
    · obtain ⟨x, ⟨y, rfl⟩, hx, hshort⟩ := hnames t ht
      refine ⟨x, (List.prefix_append x y).trans (List.prefix_append _ _), hx, fun hkind hwhole => ?_⟩
      rw [List.append_assoc] at hwhole
      have hnil := List.append_right_eq_self.mp hwhole.symm
      rw [List.append_eq_nil_iff] at hnil
      obtain ⟨rfl, rfl⟩ := hnil
      rcases hshort with hopening | hne
      · -- the step was to the first token of a line
        obtain ⟨_, -, hmove, -, -⟩ := exists_move hstep
        cases hmove with
        | indent _ hs₁ _ _ hts =>
          rcases hkind with hplain | hs'
          · rcases hts t ht with hkind | hkind <;> rw [hkind] at hplain <;> cases hplain
          · cases hrest.newline_mem hs₁ hs'
        | blank hs₀ => rw [hopening] at hs₀; cases hs₀
        | ended hs₀ => rw [hopening] at hs₀; cases hs₀
        | joined hs₀ => rw [hopening] at hs₀; cases hs₀
        | token hs₀ => rw [hopening] at hs₀; cases hs₀
      · exact hne (List.append_nil x).symm
    · obtain ⟨x, ⟨y, hy⟩, hx, hshort⟩ := ih hstands ht
      refine ⟨v ++ x, ⟨y, by rw [List.append_assoc, hy]⟩, ?_, fun hkind hwhole => ?_⟩
      · rwa [← List.append_assoc]
      · exact hshort hkind (List.append_cancel_left hwhole)

/-- Of two runs from one place, one goes on where the other ends. -/
theorem compare (h : Run s u ts s₁) (h' : Run s v us s₂) :
    (∃ w ws, v = u ++ w ∧ us = ts ++ ws ∧ Run s₁ w ws s₂) ∨
      ∃ w ws, u = v ++ w ∧ ts = us ++ ws ∧ Run s₂ w ws s₁ := by
  induction h generalizing v us with
  | refl => exact .inl ⟨v, us, rfl, rfl, h'⟩
  | @step s s₀ s₁ w w' ts ts' hstep hu hrest ih =>
    cases h' with
    | refl => exact .inr ⟨_, _, rfl, rfl, .step hstep hu hrest⟩
    | @step _ s₀' _ x x' us us' hstep' hu' hrest' =>
      obtain ⟨rfl, rfl⟩ := Prod.ext_iff.mp (Except.ok.inj (hstep.symm.trans hstep'))
      obtain rfl := List.append_cancel_right (hu.rest.symm.trans hu'.rest)
      rcases ih hrest' with ⟨y, ys, rfl, rfl, hmore⟩ | ⟨y, ys, rfl, rfl, hmore⟩
      · exact .inl ⟨y, ys, (List.append_assoc _ _ _).symm, (List.append_assoc _ _ _).symm, hmore⟩
      · exact .inr ⟨y, ys, (List.append_assoc _ _ _).symm, (List.append_assoc _ _ _).symm, hmore⟩

end Run

/-! ## The lines that get delays -/

/-- Outside of all brackets the scanner comes to a line, and goes over its indent to its first token. -/
structure Indents (o : Scanner) (gap : List Char) (ts : List Token) (o' : Scanner) : Prop where
  opening : o.opening = true
  brackets : o.lexer.brackets = []
  step : o.step = .ok (ts, o')
  blanks : ∀ c ∈ gap, isGap c = true
  rest : o.lexer.rest = gap ++ o'.lexer.rest
  token : startsToken o'.lexer.rest = true

section Indents

variable {o o' e : Scanner} {ds : List Token} {gap above front piece more : List Char}

theorem Indents.within (h : o.Indents gap ds o') : o'.opening = false := by
  obtain ⟨_, -, hmove, -, -⟩ := exists_move h.step
  cases hmove with
  | indent _ ho' => exact ho'
  | blank ho => rw [h.opening] at ho; cases ho
  | ended ho => rw [h.opening] at ho; cases ho
  | joined ho => rw [h.opening] at ho; cases ho
  | token ho => rw [h.opening] at ho; cases ho

theorem Indents.run (h : o.Indents gap ds o') : Run o gap ds o' := by
  obtain ⟨u, hpasses, -, -, -⟩ := exists_move h.step
  obtain rfl := List.append_cancel_right (hpasses.rest.symm.trans h.rest)
  exact .single h.step hpasses

/-- Where nothing is passed, nothing is left. -/
theorem Run.eq_of_nil (h : Run s [] ts s') (hs : s.opening = false) : s' = s ∧ ts = [] := by
  generalize hu : [] = u at h
  cases h with
  | refl => exact ⟨rfl, rfl⟩
  | step hstep hpasses hrest =>
    obtain ⟨v, hpasses', -, -, hne⟩ := exists_move hstep
    obtain rfl := List.append_cancel_right (hpasses'.rest.symm.trans hpasses.rest)
    exact absurd (List.append_eq_nil_iff.mp hu.symm).1 (hne hs)

/-- The line is reached from every place above it. -/
theorem Indents.exists_run (h : o.Indents gap ds o') (hs : Run s front ts s') (ho : Run s above us o)
    (hplace : above ++ gap = front ++ piece) (hpiece : s'.opening = true ∨ piece ≠ []) :
    ∃ v vs, piece = v ++ gap ∧ Run s' v vs o := by
  rcases hs.compare ho with ⟨v, vs, rfl, rfl, hrun⟩ | ⟨v, vs, rfl, rfl, hrun⟩
  · rw [List.append_assoc] at hplace
    exact ⟨v, vs, (List.append_cancel_left hplace).symm, hrun⟩
  · rw [List.append_assoc] at hplace
    have hgap := List.append_cancel_left hplace
    cases hrun with
    | refl => exact ⟨[], [], hgap.symm, .refl _⟩
    | step hstep hu hrest =>
      -- the place is behind the indent, so it is the one in front of the token
      obtain ⟨rfl, rfl⟩ := Prod.ext_iff.mp (Except.ok.inj (h.step.symm.trans hstep))
      obtain rfl := List.append_cancel_right (h.rest.symm.trans hu.rest)
      rw [List.append_assoc] at hgap
      have hnil := List.append_eq_nil_iff.mp (List.append_right_eq_self.mp hgap.symm)
      rw [hnil.1] at hrest
      obtain ⟨rfl, -⟩ := hrest.eq_of_nil h.within
      rcases hpiece with hopening | hne
      · rw [h.within] at hopening
        cases hopening
      · exact absurd hnil.2 hne

/-- A run that does not end in front of a token goes on behind the indent. -/
theorem Indents.exists_behind (h : o.Indents gap ds o') {v : List Char} {vs : List Token}
    (hv : Run s v vs o) (hrun : Run s (v ++ gap ++ more) ts e)
    (hend : startsToken e.lexer.rest = true → e.opening = true) (hmore : e.opening = true → more ≠ []) :
    ∃ t o'' x y us, more = x ++ y ∧ x ≠ [] ∧ ts = vs ++ ds ++ t :: us ∧ Run o' more (t :: us) e ∧
      t.kind.isPlain = true ∧ t.line = o'.lexer.line ∧ t.column = o'.lexer.column ∧ Run o' x [t] o'' ∧
      Run o'' y us e := by
  have hopen : e ≠ o' := fun he => by
    have hopening := hend (he ▸ h.token)
    rw [he, h.within] at hopening
    cases hopening
  rcases (hv.trans h.run).compare hrun with ⟨w, ws, hw, rfl, hmore'⟩ | ⟨w, ws, hw, -, hback⟩
  · obtain rfl := List.append_cancel_left hw
    cases hmore' with
    | refl => exact absurd rfl hopen
    | @step _ o'' _ x y us us' hstep hu hrest =>
      obtain ⟨t, rfl, hplain, hline, hcolumn, -⟩ := exists_token h.within h.token hstep
      obtain ⟨x', hx', -, -, hne⟩ := exists_move hstep
      obtain rfl := List.append_cancel_right (hx'.rest.symm.trans hu.rest)
      exact ⟨t, o'', x', y, us', rfl, hne h.within, rfl, .step hstep hu hrest, hplain, hline,
        hcolumn, .single hstep hu, hrest⟩
  · -- the run would end in front of the indent
    exfalso
    rw [List.append_assoc] at hw
    have hnil := List.append_eq_nil_iff.mp (List.append_right_eq_self.mp hw.symm)
    rw [hnil.2] at hback
    cases he : e.opening with
    | true => exact hmore he hnil.1
    | false => exact hopen (hback.eq_of_nil he).1.symm

end Indents

end Scanner

/-! ## The tokens with the delays -/

/-- The point is that of the token. -/
def isAt (t : Token) (p : InjectionPoint) : Bool :=
  t.kind.isPlain && p.line == (t.line : Int) && p.column == (t.column : Int)

/-- The words of the line that calls for a delay. -/
def delayWords (p : InjectionPoint) : List (TokenKind × String) :=
  callWords p.delay ++ [(.newline, "")]

/-- The words of the tokens, with those of each delay in front of the token at its point. -/
def delayedWords (points : List InjectionPoint) (ts : List Token) : List (TokenKind × String) :=
  ts.flatMap fun t => (points.filter (isAt t)).flatMap delayWords ++ [t.word]

section Words

variable {points : List InjectionPoint} {p : InjectionPoint} {ts : List Token}

theorem delayedWords_append (points : List InjectionPoint) (ts us : List Token) :
    delayedWords points (ts ++ us) = delayedWords points ts ++ delayedWords points us :=
  List.flatMap_append

theorem delayedWords_of_away (h : ∀ t ∈ ts, ∀ p ∈ points, isAt t p = false) :
    delayedWords points ts = ts.map Token.word := by
  rw [delayedWords, List.map_eq_flatMap]
  refine List.flatMap_congr fun t ht => ?_
  rw [List.filter_eq_nil_iff.mpr fun p hp => by rw [h t ht p hp]; exact Bool.false_ne_true]
  rfl

/-- Without points there are no delays. -/
theorem delayedWords_nil (ts : List Token) : delayedWords [] ts = ts.map Token.word :=
  delayedWords_of_away fun _ _ _ hp => nomatch hp

/-- A point in front of the first token gives its words there, and nowhere else. -/
theorem delayedWords_cons {t : Token} (hat : isAt t p = true) (haway : ∀ u ∈ ts, isAt u p = false) :
    delayedWords (p :: points) (t :: ts) = delayWords p ++ delayedWords points (t :: ts) := by
  have hrest : delayedWords (p :: points) ts = delayedWords points ts :=
    List.flatMap_congr fun u hu => by
      rw [List.filter_cons_of_neg (by rw [haway u hu]; exact Bool.false_ne_true)]
  unfold delayedWords at hrest ⊢
  rw [List.flatMap_cons, hrest, List.filter_cons_of_pos hat]
  simp only [List.flatMap_cons, List.append_assoc]

theorem delayedWords_congr {others : List InjectionPoint}
    (h : ∀ t ∈ ts, points.filter (isAt t) = others.filter (isAt t)) :
    delayedWords points ts = delayedWords others ts :=
  List.flatMap_congr fun t ht => by rw [h t ht]

/-- At most one point is that of a token, so only those count that are not elsewhere. -/
theorem filter_isAt_eq {t : Token} {others all : List InjectionPoint} (hperm : (points ++ others).Perm all)
    (hplaces : (all.map fun p => (p.line, p.column)).Nodup) (haway : ∀ p ∈ others, isAt t p = false) :
    points.filter (isAt t) = all.filter (isAt t) := by
  have hfilter := hperm.filter (isAt t)
  have hnone : others.filter (isAt t) = [] :=
    List.filter_eq_nil_iff.mpr fun p hp => by simp [haway p hp]
  rw [List.filter_append, hnone, List.append_nil] at hfilter
  have hplace : ∀ p ∈ all.filter (isAt t), (p.line, p.column) = ((t.line : Int), (t.column : Int)) := by
    intro p hp
    have hat := (List.mem_filter.mp hp).2
    simp only [isAt, Bool.and_eq_true, beq_iff_eq] at hat
    rw [hat.1.2, hat.2]
  have hnodup := hplaces.sublist (List.filter_sublist.map _ : ((all.filter (isAt t)).map _).Sublist _)
  cases hall : all.filter (isAt t) with
  | nil => exact List.perm_nil.mp (hall ▸ hfilter)
  | cons p more =>
    cases more with
    | nil => exact List.perm_singleton.mp (hall ▸ hfilter)
    | cons q more =>
      rw [hall] at hplace hnodup
      have heq := (hplace p List.mem_cons_self).trans
        (hplace q (List.mem_cons_of_mem _ List.mem_cons_self)).symm
      rw [List.map_cons, List.map_cons, heq] at hnodup
      exact absurd List.mem_cons_self (List.nodup_cons.mp hnodup).1

end Words

/-! ## The lexer on the output -/

namespace Scanner

open Injection (joined)

variable {text : List Char}

/-- Behind `front` the text has a line that a delay may go in front of, and this is written there. -/
def Fits (text front : List Char) (p : InjectionPoint) (written : List Char) : Prop :=
  ∃ above gap us o ds o' comment call, front = above ++ gap ∧ Run (start text) above us o ∧
    o.Indents gap ds o' ∧
    (∃ line column : Nat, p.line = line ∧ p.column = column ∧ Names front line column) ∧
    '\n' ∉ comment ∧ Lexes [] call (callWords p.delay) ∧ startsToken call = true ∧
    written = '#' :: comment ++ '\n' :: (gap ++ (call ++ '\n' :: gap))

theorem stands_start (text : List Char) : (start text).lexer.Stands text [] := ⟨rfl, rfl, rfl⟩

/-- A point stands behind what is in front of it. -/
structure At (text front : List Char) (p : InjectionPoint) : Prop where
  passed : front <+: text
  names : ∃ line column : Nat, p.line = line ∧ p.column = column ∧ Names front line column

theorem isAt_eq_false {front front' : List Char} {p : InjectionPoint} {t : Token} (hp : At text front p)
    (hfront' : front' <+: text) (ht : Names front' t.line t.column) (hne : front' ≠ front) :
    isAt t p = false := by
  obtain ⟨line, column, hline, hcolumn, hnames⟩ := hp.names
  rw [Bool.eq_false_iff, ne_eq, isAt, Bool.and_eq_true, Bool.and_eq_true, not_and]
  rintro ⟨-, htline⟩ htcolumn
  rw [beq_iff_eq, hline, Nat.cast_inj] at htline
  rw [beq_iff_eq, hcolumn, Nat.cast_inj] at htcolumn
  exact hne (names_injective hfront' hp.passed ht (htline ▸ htcolumn ▸ hnames))

theorem Fits.at {front written : List Char} {p : InjectionPoint} (h : Fits text front p written) :
    At text front p := by
  obtain ⟨above, gap, us, o, ds, o', comment, call, rfl, ho, hindents, hnames, -⟩ := h
  exact ⟨((ho.trans hindents.run).stands (stands_start text)).passed, hnames⟩

/-- More follows than is in front. -/
theorem Fits.ne {front written : List Char} {p : InjectionPoint} (h : Fits text front p written) :
    front ≠ text := by
  obtain ⟨above, gap, us, o, ds, o', comment, call, rfl, ho, hindents, -⟩ := h
  have htext : text = above ++ gap ++ o'.lexer.rest := (ho.trans hindents.run).passes.rest
  intro heq
  have hnil := List.append_right_eq_self.mp (htext.symm.trans heq.symm)
  have htoken := hindents.token
  rw [hnil] at htoken
  cases htoken

theorem eq_nil_of_joined {ε : Type} {cuts : List (List Char × ε)} {last : List Char}
    (h : joined (fun _ => []) cuts last = []) : last = [] := by
  induction cuts with
  | nil => exact h
  | cons cut cuts ih =>
    rw [Injection.joined_cons, List.append_nil] at h
    exact ih (List.append_eq_nil_iff.mp h).2

theorem startsToken_of_head? {x y : List Char} (h : y.head? = x.head?) : startsToken y = startsToken x := by
  cases x <;> cases y <;> simp_all [startsToken]

/-- The run over a text with delays in it is the run over the text, with the words of each delay. -/
theorem run_of_cuts {ε : Type} {f : ε → List Char} {point : ε → InjectionPoint}
    {cuts : List (List Char × ε)} {front last : List Char} {s e : Scanner} {ts₀ ts : List Token}
    (h₀ : Run (start text) front ts₀ s) (hrun : Run s (joined (fun _ => []) cuts last) ts e)
    (hend : startsToken e.lexer.rest = true → e.opening = true)
    (hlast : e.opening = true → cuts ≠ [] → last ≠ [])
    (hfits : ∀ above cut below, cuts = above ++ cut :: below →
      Fits text (front ++ joined (fun _ => []) above cut.1) (point cut.2) (f cut.2))
    (hfirst : s.opening = true ∨ ∀ cut ∈ cuts, cut.1 ≠ []) (hlater : ∀ cut ∈ cuts.tail, cut.1 ≠ [])
    {s₂ : Scanner} {w : List Char} (hs₂ : s.Alike s₂)
    (hrest₂ : s₂.lexer.rest = joined f cuts last ++ w)
    (hw : e.opening = true ∨ SameLine e.lexer.rest w) :
    ∃ ts₂ e₂, Run s₂ (joined f cuts last) ts₂ e₂ ∧
      ts₂.map Token.word = delayedWords (cuts.map fun cut => point cut.2) ts ∧ e.Alike e₂ ∧
      e₂.lexer.rest = w := by
  induction cuts generalizing front s ts₀ ts s₂ with
  | nil =>
    rw [List.map_nil, delayedWords_nil]
    exact hrun.follow hw hs₂ hrest₂
  | cons cut cuts ih =>
    obtain ⟨piece, d⟩ := cut
    rw [Injection.joined_cons] at hrest₂ ⊢
    rw [Injection.joined_cons, List.append_nil] at hrun
    obtain ⟨above, gap, us₀, o, ds, o', comment, call, hplace, ho, hindents,
      ⟨line, column, hline, hcolumn, hnames⟩, hcomment, hcall, hstarts, hwritten⟩ :=
      hfits [] (piece, d) cuts rfl
    rw [Injection.joined_nil] at hplace hnames
    have hpiece : s.opening = true ∨ piece ≠ [] :=
      hfirst.imp_right fun h => h (piece, d) List.mem_cons_self
    obtain ⟨v, vs, rfl, hv⟩ := hindents.exists_run h₀ ho hplace.symm hpiece
    have hmore : e.opening = true → joined (fun _ => []) cuts last ≠ [] := by
      intro hopening hnil
      exact hlast hopening (List.cons_ne_nil _ _) (eq_nil_of_joined hnil)
    obtain ⟨t, o'', x, y, us, hbehind, hx, rfl, hrun', hplain, htline, htcolumn, hrun₁, hrun''⟩ :=
      hindents.exists_behind hv hrun hend hmore
    -- the scanner comes to the line, then over the delay
    obtain ⟨vs₂, o₂, hrun₂, hwords₂, ho₂, hrest₂'⟩ := hv.follow (w := gap ++ (f d ++
      (joined f cuts last ++ w))) (.inl hindents.opening) hs₂ (by rw [hrest₂]; simp)
    have hstarts' : startsToken (joined f cuts last ++ w) = true := by
      have hsame : (joined f cuts last ++ w).head? = o'.lexer.rest.head? := by
        rw [hrun'.passes.rest]
        cases cuts with
        | nil =>
          rw [Injection.joined_nil, Injection.joined_nil, List.head?_append, List.head?_append]
          cases last with
          | nil =>
            have hline := hw.resolve_left fun h => hlast h (List.cons_ne_nil _ _) rfl
            rw [hline.head?_eq]
          | cons => rfl
        | cons next cuts =>
          obtain ⟨c, piece, hc⟩ := List.exists_cons_of_ne_nil (hlater next List.mem_cons_self)
          obtain ⟨_, d'⟩ := next
          obtain rfl : _ = c :: piece := hc
          rfl
      rw [startsToken_of_head? hsame, hindents.token]
    obtain ⟨us₂, s₃, hrun₃, hwords₃, hs₃, hrest₃⟩ := run_of_delay hindents.opening hindents.brackets
      hindents.step hindents.blanks hindents.rest hindents.token hcomment hcall hstarts ho₂ hstarts' (by
        rw [hrest₂', hwritten]
        simp)
    have hfits' : ∀ above cut below, cuts = above ++ cut :: below →
        Fits text (front ++ (v ++ gap) ++ joined (fun _ => []) above cut.1) (point cut.2) (f cut.2) := by
      intro above cut below hcuts
      have hfit := hfits ((v ++ gap, d) :: above) cut below (by rw [hcuts]; rfl)
      rwa [Injection.joined_cons, List.append_nil, ← List.append_assoc] at hfit
    have hreach := h₀.trans (hv.trans hindents.run)
    obtain ⟨us₄, e₂, hrun₄, hwords₄, he₂, hrest₄⟩ := ih hreach hrun' (fun h _ => hlast h (List.cons_ne_nil _ _))
      hfits' (.inr hlater) (fun cut hcut => hlater cut (List.mem_of_mem_tail hcut)) hs₃ hrest₃
    refine ⟨vs₂ ++ (us₂ ++ us₄), e₂, ?_, ?_, he₂, hrest₄⟩
    · have hwhole := hrun₂.trans (hrun₃.trans hrun₄)
      rw [hwritten]
      simpa using hwhole
    · -- the token at the point is the first one behind the indent, and no other token is there
      have hstands := hreach.stands (stands_start text)
      rw [List.nil_append] at hstands
      have hat : At text (front ++ (v ++ gap)) (point d) :=
        ⟨hstands.passed, line, column, hline, hcolumn, hnames⟩
      have hplace : Names (front ++ (v ++ gap)) t.line t.column := htline ▸ htcolumn ▸ hstands.2
      have ht : isAt t (point d) = true := by
        rw [isAt, hplain, hline, hcolumn, hplace.1, hplace.2, hnames.1, hnames.2]
        simp
      have hlater' : ∀ u ∈ us, isAt u (point d) = false := by
        intro u hu
        have hstands' := hrun₁.stands hstands
        obtain ⟨z, hz, hnames', -⟩ := hrun''.exists_names hstands' hu
        refine isAt_eq_false hat (((List.prefix_append_right_inj _).mpr hz).trans
          (hrun''.stands hstands').passed) hnames' fun heq => hx ?_
        rw [List.append_assoc] at heq
        exact (List.append_eq_nil_iff.mp (List.append_right_eq_self.mp heq)).1
      have hnone : ∀ u ∈ vs ++ ds, ∀ q ∈ (point d :: cuts.map fun cut => point cut.2),
          isAt u q = false := by
        intro u hu q hq
        obtain ⟨extra, hq⟩ : ∃ extra, At text (front ++ (v ++ gap) ++ extra) q := by
          rcases List.mem_cons.mp hq with rfl | hq
          · exact ⟨[], by rwa [List.append_nil]⟩
          · obtain ⟨cut, hcut, rfl⟩ := List.mem_map.mp hq
            obtain ⟨above', below', hcuts⟩ := List.append_of_mem hcut
            exact ⟨_, (hfits' above' cut below' hcuts).at⟩
        have hstands' := h₀.stands (stands_start text)
        rw [List.nil_append] at hstands'
        obtain ⟨z, hz, hnames', hshort⟩ := (hv.trans hindents.run).exists_names hstands' hu
        cases hkind : u.kind.isPlain with
        | false => rw [isAt, hkind]; rfl
        | true =>
          refine isAt_eq_false hq (((List.prefix_append_right_inj front).mpr hz).trans
            hstands.passed) hnames' fun heq => hshort (.inl hkind) ?_
          rw [List.append_assoc] at heq
          refine hz.eq_of_length_le ?_
          rw [List.append_cancel_left heq]
          exact (List.prefix_append _ _).length_le
      rw [List.map_cons, delayedWords_append, delayedWords_of_away hnone, delayedWords_cons ht hlater',
        List.map_append, List.map_append, hwords₂, hwords₃, hwords₄]
      simp [delayWords]

end Scanner

end DelayInjection.Python
