import DelayInjection.Proofs.Python.Woven

/-! What the lexer makes of a Python source with delays: its own tokens, and in between those of the calls
and of the import. -/

namespace DelayInjection.Python

def Token.isFault (t : Token) : Bool :=
  match t.kind with
  | .fault _ _ => true
  | _ => false

namespace Scanner

open Injection (joined joined_append)

variable {s s' e : Scanner} {ts us : List Token} {u : List Char}

/-! ## The last step -/

/-- Steps are made until one of them makes the last tokens. -/
theorem exists_run_all (s : Scanner) : ∃ u ts e us, Run s u ts e ∧ e.step = .error us ∧ s.all = ts ++ us := by
  induction hn : s.weight using Nat.strongRecOn generalizing s with
  | _ n ih =>
    cases hstep : s.step with
    | error us => exact ⟨[], [], s, us, .refl s, hstep, all_of_stop hstep⟩
    | ok run =>
      obtain ⟨ts, s'⟩ := run
      obtain ⟨v, hpasses, -, -, -⟩ := exists_move hstep
      obtain ⟨u, us, e, last, hrun, hlast, hall⟩ := ih _ (hn ▸ weight_lt hstep) s' rfl
      exact ⟨v ++ u, ts ++ us, e, last, .step hstep hpasses hrun, hlast, by
        rw [all_of_step hstep, hall, List.append_assoc]⟩

theorem fault_of_changeIndent {l : Lexer} {column alternative : Nat}
    (h : changeIndent l column alternative = .error ts) : ∃ t, ts = [t] ∧ t.isFault = true := by
  have hfault : ∀ fault reported, ∃ t, l.faultAt fault reported = [t] ∧ t.isFault = true :=
    fun _ _ => ⟨_, rfl, rfl⟩
  unfold changeIndent at h
  split at h
  · cases h
    exact hfault _ _
  · split at h
    · split at h <;> cases h
      exact hfault _ _
    · split at h
      · split at h
        · cases h
          exact hfault _ _
        · split at h <;> cases h
          exact hfault _ _
      · simp only at h
        split at h
        · split at h
          · cases h
            exact hfault _ _
          · split at h <;> cases h
            exact hfault _ _
        · cases h
          exact hfault _ _

/-- The last step finds a fault, or the end of the text, outside of all brackets. -/
theorem of_step_eq_error (h : s.step = .error ts) : ∃ t, ts = [t] ∧ (t.isFault = true ∨
    s.opening = false ∧ s.lexer.skip.rest = [] ∧ s.lexer.brackets = [] ∧ t.word = (.finish, "")) := by
  cases hs : s.opening with
  | true =>
    rw [step, if_pos hs] at h
    cases hrun : indentation (s.lexer.rest.length + 1) s.lexer ⟨0, 0, 0⟩ with
    | none =>
      rw [hrun] at h
      cases h
      exact ⟨_, rfl, .inl rfl⟩
    | some run =>
      obtain ⟨l, i⟩ := run
      rw [hrun] at h
      replace h : indent l i = .error ts := h
      rw [indent] at h
      split at h
      · cases h
      · cases hchange : changeIndent l (if i.joined = 0 then i.column else i.joined)
          (if i.joined = 0 then i.alternative else i.joined) with
        | error us =>
          rw [hchange] at h
          cases h
          obtain ⟨t, rfl, hfault⟩ := fault_of_changeIndent hchange
          exact ⟨t, rfl, .inl hfault⟩
        | ok run =>
          rw [hchange] at h
          cases h
  | false =>
    have hlike : s.lexer.Alike s.lexer.skip := s.lexer.skip_eq ▸ s.lexer.alike_advance _
    rw [step, if_neg (by rw [hs]; exact Bool.false_ne_true), pass] at h
    split at h
    next hfinish =>
      cases h
      unfold lexeme at hfinish
      split at hfinish
      next hrest =>
        split at hfinish
        next hbrackets =>
          rw [List.isEmpty_iff, hlike.brackets] at hbrackets
          exact ⟨_, rfl, .inr ⟨rfl, hrest, hbrackets, rfl⟩⟩
        · cases hfinish
      · cases hfinish
      · split at hfinish <;> cases hfinish
      · cases hfinish
      next c rest _ _ _ _ =>
        rcases tokenLexeme_cases s.lexer.skip.brackets c rest with ⟨_, _, _, htoken, -⟩ | htoken <;>
          rw [htoken] at hfinish <;> cases hfinish
    · cases h
    · cases h
    · cases h
    · cases h
      exact ⟨_, rfl, .inl rfl⟩

theorem Run.of_mem {t : Token} (h : Run s u ts s') (ht : t ∈ ts) :
    t.kind ≠ .finish ∧ t.isFault = false := by
  induction h with
  | refl => cases ht
  | step hstep _ _ ih =>
    rcases List.mem_append.mp ht with ht | ht
    · obtain ⟨_, -, hmove, -⟩ := exists_move hstep
      cases hmove with
      | indent _ _ _ _ hts => rcases hts t ht with hkind | hkind <;> simp [Token.isFault, hkind]
      | blank => cases ht
      | ended _ _ _ _ hkind =>
        rw [List.mem_singleton.mp ht]
        simp [Token.isFault, hkind]
      | joined => cases ht
      | token _ _ _ hkind =>
        rw [List.mem_singleton.mp ht]
        refine ⟨fun heq => ?_, ?_⟩
        · rw [heq] at hkind
          cases hkind
        · unfold Token.isFault
          split
          next heq =>
            rw [heq] at hkind
            cases hkind
          · rfl
    · exact ih ht

/-- Where the end of the text is found, there are no faults. -/
theorem isFault_eq_false (h : ∃ t ∈ s.all, t.kind = .finish) : ∀ t ∈ s.all, t.isFault = false := by
  obtain ⟨u, ts, e, us, hrun, hlast, hall⟩ := exists_run_all s
  obtain ⟨last, rfl, hcases⟩ := of_step_eq_error hlast
  rw [hall] at h ⊢
  intro t ht
  rcases List.mem_append.mp ht with ht | ht
  · exact (hrun.of_mem ht).2
  · obtain ⟨f, hf, hfinish⟩ := h
    have heq : f = last := (List.mem_append.mp hf).elim
      (fun hmem => absurd hfinish (hrun.of_mem hmem).1) List.mem_singleton.mp
    rw [List.mem_singleton.mp ht, ← heq, Token.isFault, hfinish]

/-- So does every scanner that has the same left. -/
theorem step_eq_error (hs : s.opening = false) (hrest : s.lexer.skip.rest = [])
    (hbrackets : s.lexer.brackets = []) (hlike : s.Alike s') (hsame : s'.lexer.rest = s.lexer.rest) :
    s'.step = .error [s'.lexer.skip.marker .finish] := by
  have hskip : s'.lexer.skip.rest = [] := by
    rw [Lexer.skip_eq, (Lexer.advance_eq _ _).1] at hrest ⊢
    rwa [hsame]
  have hopen : s'.lexer.skip.brackets = [] := by
    rw [Lexer.skip_eq, Lexer.advance_brackets, hlike.lexer.brackets, hbrackets]
  rw [step, if_neg (by rw [hlike.opening, hs]; exact Bool.false_ne_true), pass, hskip, hopen]
  rfl

/-- A token at which a line starts is not the end of the text. -/
theorem startsToken_eq_false (h : s.lexer.skip.rest = []) : startsToken s.lexer.rest = false := by
  refine Bool.eq_false_iff.mpr fun hstarts => ?_
  rw [Lexer.skip_eq, gapLength_of_startsToken hstarts] at h
  rw [show s.lexer.rest = [] from h] at hstarts
  cases hstarts

/-! ## Tokens above and below a line -/

section Line

variable {text front : List Char} {o : Scanner} {t : Token} {p : InjectionPoint}

/-- All tokens that are passed up to the start of a line stand above it. -/
theorem Run.line_lt (h : Run (start text) front us o) (ho : o.opening = true) (ht : t ∈ us) :
    t.line < o.lexer.line := by
  obtain ⟨v, hv, hnames, hne⟩ := h.exists_names (stands_start text) ht
  have hshort := hne (.inr ho)
  have hplace := (h.stands (stands_start text)).2.1
  rcases h.opening_cases ho with ⟨-, rfl⟩ | ⟨⟨w, rfl⟩, -⟩
  · exact absurd (List.prefix_nil.mp hv) hshort
  · have hcount := ((List.prefix_concat_iff.mp hv).resolve_left hshort).sublist.count_le '\n'
    rw [hplace, hnames.1, List.nil_append, List.nil_append, List.count_append, List.count_singleton_self]
    omega

/-- All others stand on the line or below it. -/
theorem Run.line_le (h : Run (start text) front us o) (ht : t ∈ o.all) : o.lexer.line ≤ t.line := by
  have hordered : Ordered text _ o.all := ordered_tokensFrom (h.stands (stands_start text))
  obtain ⟨v, hv, -, hnames⟩ := hordered.exists_of_mem ht
  have hcount := hv.sublist.count_le '\n'
  rw [(h.stands (stands_start text)).2.1, hnames.1]
  omega

/-- A point below the line is that of no token above it. -/
theorem Run.isAt_eq_false {more : List Char} (h : Run (start text) front us o) (ho : o.opening = true)
    (hp : At text (front ++ more) p) (ht : t ∈ us) : isAt t p = false := by
  obtain ⟨v, hv, hnames, hshort⟩ := h.exists_names (stands_start text) ht
  have hpassed := (h.stands (stands_start text)).passed
  refine Scanner.isAt_eq_false hp (hv.trans hpassed) hnames fun hsame =>
    hshort (.inr ho) (hv.eq_of_length_le ?_)
  rw [hsame, List.length_append]
  exact Nat.le_add_right _ _

/-- A point above the line is that of no token below it. -/
theorem Run.isAt_eq_false_of_lt {above : List Char} (h : Run (start text) front us o) (hp : At text above p)
    (hlt : above.length < front.length) (ht : t ∈ o.all) : isAt t p = false := by
  have hordered : Ordered text _ o.all := ordered_tokensFrom (h.stands (stands_start text))
  obtain ⟨v, hv, hpassed, hnames⟩ := hordered.exists_of_mem ht
  refine Scanner.isAt_eq_false hp hpassed hnames fun hsame => ?_
  have hle := hv.length_le
  rw [List.nil_append, hsame] at hle
  exact absurd hlt (Nat.not_lt.mpr hle)

/-- The first token behind the indent of a line is at its point. -/
theorem Indents.exists_isAt {gap : List Char} {o' : Scanner} (hindents : o.Indents gap ts o')
    (h : Run (start text) front us o) (hclean : ∀ t ∈ Python.tokens text, t.isFault = false)
    (hp : At text (front ++ gap) p) : ∃ t ∈ Python.tokens text, isAt t p = true := by
  have hrun := h.trans hindents.run
  have hstands := hrun.stands (stands_start text)
  rw [List.nil_append] at hstands
  rw [tokens_eq_all, hrun.all_eq] at hclean ⊢
  cases hstep : o'.step with
  | error last =>
    exfalso
    obtain ⟨t, rfl, hfault | ⟨-, hskip, -⟩⟩ := of_step_eq_error hstep
    · rw [hclean t (by rw [all_of_stop hstep]; simp)] at hfault
      cases hfault
    · have htoken := hindents.token
      rw [startsToken_eq_false hskip] at htoken
      cases htoken
  | ok run =>
    obtain ⟨t, hts, hplain, hline, hcolumn, -⟩ := exists_token hindents.within hindents.token hstep
    obtain ⟨line, column, hpline, hpcolumn, hnames⟩ := hp.names
    refine ⟨t, List.mem_append_right _ ?_, ?_⟩
    · rw [all_of_step hstep, hts]
      exact List.mem_cons_self
    · rw [isAt, hplain, hline, hcolumn, hpline, hpcolumn, hstands.2.1, hstands.2.2, hnames.1, hnames.2]
      simp

end Line

/-! ## The lexer on the output -/

theorem sameLine_refl (x : List Char) : SameLine x x := by
  induction x with
  | nil => exact .nil
  | cons c x ih => exact .cons c ih

section Cuts

variable {text front tail : List Char} {ε : Type} {f : ε → List Char} {point : ε → InjectionPoint}
  {cuts : List (List Char × ε)}

/-- The last line that gets a delay is reached before the end. -/
theorem exists_last (h₀ : Run (start text) front us s)
    (hfits : ∀ above cut below, cuts = above ++ cut :: below →
      Fits text (front ++ joined (fun _ => []) above cut.1) (point cut.2) (f cut.2))
    (hrun : Run s u ts e) {last : List Token} (hlast : e.step = .error last)
    (hrest : s.lexer.rest = joined (fun _ => []) cuts tail) :
    ∃ behind, u = joined (fun _ => []) cuts behind ∧ tail = behind ++ e.lexer.rest := by
  obtain ⟨behind, hu⟩ : ∃ behind, u = joined (fun _ => []) cuts [] ++ behind := by
    rcases cuts.eq_nil_or_concat' with rfl | ⟨above, cut, rfl⟩
    · exact ⟨u, rfl⟩
    · obtain ⟨before, gap, vs, o, ds, o', -, -, hplace, ho, hindents, -⟩ := hfits above cut [] rfl
      have hsplit : joined (fun _ => []) (above ++ [cut]) [] = joined (fun _ => []) above cut.1 := by
        rw [Injection.joined_split, Injection.joined_nil, List.append_nil, List.append_nil]
      rw [hsplit]
      have ho' := ho.trans hindents.run
      rw [← hplace] at ho'
      rcases ho'.compare (h₀.trans hrun) with ⟨w, _, hw, -, -⟩ | ⟨w, _, hw, -, hback⟩
      · rw [List.append_assoc] at hw
        exact ⟨w, List.append_cancel_left hw⟩
      · cases hback with
        | refl =>
          rw [List.append_nil] at hw
          exact ⟨[], by rw [List.append_nil]; exact (List.append_cancel_left hw).symm⟩
        | step hstep =>
          rw [hlast] at hstep
          cases hstep
  refine ⟨behind, by rw [hu, ← joined_append, List.nil_append], ?_⟩
  have hwhole := hrest.symm.trans hrun.passes.rest
  rw [hu, List.append_assoc] at hwhole
  have htail := joined_append (fun _ : ε => []) cuts [] tail
  rw [List.nil_append] at htail
  exact List.append_cancel_left (htail.symm.trans hwhole)

/-- From a place on to the end, the output has the tokens of the text with the words of each delay. -/
theorem all_of_cuts (h₀ : Run (start text) front us s) (hclean : ∀ t ∈ s.all, t.isFault = false)
    (hrest : s.lexer.rest = joined (fun _ => []) cuts tail)
    (hfits : ∀ above cut below, cuts = above ++ cut :: below →
      Fits text (front ++ joined (fun _ => []) above cut.1) (point cut.2) (f cut.2))
    (hfirst : s.opening = true ∨ ∀ cut ∈ cuts, cut.1 ≠ []) (hlater : ∀ cut ∈ cuts.tail, cut.1 ≠ [])
    (hs' : s.Alike s') (hrest' : s'.lexer.rest = joined f cuts tail) :
    s'.all.map Token.word = delayedWords (cuts.map fun cut => point cut.2) s.all := by
  obtain ⟨u, ts, e, last, hrun, hlast, hall⟩ := exists_run_all s
  obtain ⟨t, rfl, hcases⟩ := of_step_eq_error hlast
  obtain ⟨hopening, hskip, hbrackets, ht⟩ := hcases.resolve_left fun hfault => by
    rw [hclean t (hall ▸ List.mem_append_right _ (List.mem_singleton_self t))] at hfault
    cases hfault
  obtain ⟨behind, rfl, rfl⟩ := exists_last h₀ hfits hrun hlast hrest
  have hend : startsToken e.lexer.rest = true → e.opening = true := fun hstarts => by
    rw [startsToken_eq_false hskip] at hstarts
    cases hstarts
  rw [joined_append] at hrest'
  obtain ⟨ts', e', hrun', hwords, he', hsame⟩ := run_of_cuts h₀ hrun hend
    (fun h => by rw [hopening] at h; cases h) hfits hfirst hlater hs' hrest' (.inr (sameLine_refl _))
  have hend' := step_eq_error hopening hskip hbrackets he' hsame
  -- the mark of the end gets no delay
  have hmark : ∀ u ∈ [t], ∀ p ∈ cuts.map fun cut => point cut.2, isAt u p = false := fun u hu p _ => by
    rw [isAt, List.mem_singleton.mp hu, show t.kind = .finish from congrArg Prod.fst ht]
    rfl
  rw [hrun'.all_eq, all_of_stop hend', hall, delayedWords_append, List.map_append, hwords,
    delayedWords_of_away hmark]
  simp only [List.map_cons, List.map_nil, ht]
  rfl

/-- With a line put in at the start of a line that is in no block, its words come in between. -/
theorem tokens_of_line {above below : List (List Char × ε)} {cut : List Char × ε} {o : Scanner}
    {line : List Char} {words : List (TokenKind × String)}
    (htext : text = joined (fun _ => []) (above ++ cut :: below) tail)
    (hclean : ∀ t ∈ Python.tokens text, t.isFault = false)
    (hrun : Run (start text) (joined (fun _ => []) above cut.1) ts o) (hopening : o.opening = true)
    (hblank : o.blank = false) (hbrackets : o.lexer.brackets = []) (hindents : o.lexer.indents = [(0, 0)])
    (hline : Lexes [] line words) (hstarts : startsToken line = true) (hcut : f cut.2 = line ++ ['\n'])
    (habove : ∀ above' cut' below', above = above' ++ cut' :: below' →
      Fits text (joined (fun _ => []) above' cut'.1) (point cut'.2) (f cut'.2))
    (hbelow : ∀ above' cut' below', below = above' ++ cut' :: below' →
      Fits text (joined (fun _ => []) above cut.1 ++ joined (fun _ => []) above' cut'.1) (point cut'.2)
        (f cut'.2))
    (hlast : above ≠ [] → cut.1 ≠ []) (hlater : ∀ cut' ∈ above.tail, cut'.1 ≠ [])
    (hlater' : ∀ cut' ∈ below.tail, cut'.1 ≠ []) :
    Python.tokens text = ts ++ o.all ∧
      (Python.tokens (joined f (above ++ cut :: below) tail)).map Token.word =
        delayedWords (above.map fun cut => point cut.2) ts ++ (words ++ [(.newline, "")]) ++
          delayedWords (below.map fun cut => point cut.2) o.all := by
  have hall : Python.tokens text = ts ++ o.all := by rw [tokens_eq_all, hrun.all_eq]
  refine ⟨hall, ?_⟩
  have hrest : o.lexer.rest = joined (fun _ => []) below tail := by
    have hwhole := hrun.passes.rest
    rw [show (start text).lexer.rest = text from rfl, htext, Injection.joined_split, List.nil_append] at hwhole
    exact (List.append_cancel_left hwhole).symm
  -- up to the line
  rw [Injection.joined_split, hcut]
  generalize hout : joined f above cut.1 ++ (line ++ ['\n'] ++ joined f below tail) = output
  have halike : (start text).Alike (start output) := ⟨rfl, rfl, rfl, rfl⟩
  obtain ⟨ts₁, o₁, hrun₁, hwords₁, ho₁, hrest₁⟩ := run_of_cuts (.refl _) hrun (fun _ => hopening)
    (fun _ => hlast) habove (.inl rfl) hlater halike hout.symm (.inl hopening)
  have hline₁ : o₁.lexer.rest = line ++ '\n' :: joined f below tail := by rw [hrest₁]; simp
  -- the line
  obtain ⟨ts₂, o₂, hrun₂, hwords₂, ho₂, hrest₂⟩ := run_of_line (ho₁.opening.trans hopening)
    (ho₁.blank.trans hblank) (ho₁.lexer.brackets.trans hbrackets) (ho₁.lexer.indents.trans hindents) hline
    hstarts hline₁
  -- the lines below
  have halike₂ : o.Alike o₂ :=
    ⟨ho₂.opening.trans ho₁.opening, ho₂.blank.trans ho₁.blank, ho₁.lexer.trans ho₂.lexer⟩
  have hwords₃ := all_of_cuts hrun (fun t ht => hclean t (hall ▸ List.mem_append_right _ ht)) hrest hbelow
    (.inl hopening) hlater' halike₂ hrest₂
  rw [tokens_eq_all, hrun₁.all_eq, hrun₂.all_eq, List.map_append, List.map_append, hwords₁, hwords₂, hwords₃]
  simp only [List.append_assoc]

end Cuts

end Scanner

end DelayInjection.Python
