import DelayInjection.Proofs.Python.Run
import DelayInjection.Proofs.Text.Numeral
import DelayInjection.Python.Layout
import Mathlib.Tactic.IntervalCases

/-! Lines that are put between the lines of a Python source: comments, and lines known by their words. The
lexer goes over them and then on as it would have without them. -/

namespace DelayInjection.Python

/-- A token starts here. -/
def startsToken : List Char → Bool
  | [] => false
  | c :: _ => !isGap c && c != '\\' && c != '#' && c != '\n'

theorem startsToken_append {x : List Char} (h : startsToken x = true) (y : List Char) :
    startsToken (x ++ y) = true := by
  cases x with
  | nil => cases h
  | cons c x => exact h

theorem isBlankLine_of_startsToken {x : List Char} (h : startsToken x = true) :
    Scanner.isBlankLine x = false := by
  unfold Scanner.isBlankLine
  split <;> simp_all [startsToken]

theorem settles_of_startsToken {l : Lexer} (h : startsToken l.rest = true) : l.Settles := by
  intro c rest hrest
  rw [hrest] at h
  simp_all [startsToken]

/-! ## The indent of a line -/

/-- The columns behind blanks that open a line. -/
def columns (gap : List Char) : Indentation := gap.foldl Indentation.pass ⟨0, 0, 0⟩

theorem joined_pass (i : Indentation) (c : Char) : (i.pass c).joined = i.joined := by
  unfold Indentation.pass
  split
  · rfl
  · split <;> rfl

theorem joined_columns (gap : List Char) : (columns gap).joined = 0 := by
  unfold columns
  generalize hi : (⟨0, 0, 0⟩ : Indentation) = i
  have hzero : i.joined = 0 := by rw [← hi]
  clear hi
  induction gap generalizing i with
  | nil => exact hzero
  | cons c gap ih => exact ih (i.pass c) ((joined_pass i c).trans hzero)

section Indents

variable {l l' : Lexer} {i j : Indentation} {gap rest : List Char} {fuel : Nat}

theorem indentation_of_gap (hrest : l.rest = gap ++ rest) (hgap : ∀ c ∈ gap, isGap c = true)
    (hsettles : (l.advance gap.length).Settles) (hfuel : gap.length < fuel) :
    indentation fuel l i = some (l.advance gap.length, gap.foldl Indentation.pass i) := by
  induction gap generalizing l i fuel with
  | nil =>
    obtain ⟨fuel, rfl⟩ : ∃ n, fuel = n + 1 := ⟨fuel - 1, by simp at hfuel; omega⟩
    exact indentation_settled hsettles
  | cons c gap ih =>
    obtain ⟨fuel, rfl⟩ : ∃ n, fuel = n + 1 := ⟨fuel - 1, by simp at hfuel; omega⟩
    have hbehind : (l.advance 1).rest = gap ++ rest := (Lexer.passes_advance (u := [c]) hrest).2
    have hadvance : l.advance (c :: gap).length = (l.advance 1).advance gap.length := by
      rw [List.length_cons, Nat.add_comm, Lexer.advance_add]
    rw [indentation_gap hrest (hgap c List.mem_cons_self), hadvance, List.foldl_cons]
    rw [hadvance] at hsettles
    exact ih hbehind (fun d hd => hgap d (List.mem_cons_of_mem _ hd)) hsettles
      (by simpa using hfuel)

/-- Unless lines are joined, there are only blanks in front of a line's first character. -/
theorem exists_gap_of_indentation (hfuel : l.rest.length < fuel)
    (h : indentation fuel l i = some (l', j)) (hline : l'.line = l.line) :
    ∃ gap, (∀ c ∈ gap, isGap c = true) ∧ l.rest = gap ++ l'.rest := by
  induction fuel generalizing l i with
  | zero => omega
  | succ fuel ih =>
    rcases indentation_cases h with ⟨c, rest, hrest, hc, hrun⟩ | ⟨c, rest, hrest, hrun⟩ | ⟨-, rfl, -⟩
    · obtain ⟨hpasses, hbehind⟩ : l.Passes [c] (l.advance 1) ∧ (l.advance 1).rest = rest :=
        Lexer.passes_advance hrest
      have hsame : (l.advance 1).line = l.line := by
        have hne : c ≠ '\n' := fun hc' => by rw [hc'] at hc; cases hc
        rw [hpasses.line, List.count_singleton, if_neg (by simpa using hne), Nat.add_zero]
      rw [hrest, List.length_cons] at hfuel
      obtain ⟨gap, hgap, hsplit⟩ := ih (by rw [hbehind]; omega) hrun (hline.trans hsame.symm)
      refine ⟨c :: gap, fun d hd => ?_, by rw [hrest, ← hbehind, hsplit]; rfl⟩
      rcases List.mem_cons.mp hd with rfl | hd
      · exact hc
      · exact hgap d hd
    · obtain ⟨hpasses, hbehind⟩ : l.Passes ['\\', '\n'] (l.advance 2) ∧ (l.advance 2).rest = c :: rest :=
        Lexer.passes_advance hrest
      have hmore : (l.advance 2).line = l.line + 1 := hpasses.line
      rw [hrest, List.length_cons, List.length_cons] at hfuel
      obtain ⟨g, hg, -⟩ := indentation_append (by rw [hbehind]; omega) hrun
      have hline' := hg.line
      omega
    · refine ⟨[], fun _ hc => ?_, rfl⟩
      cases hc

end Indents

namespace Scanner

variable {s s' o o' : Scanner} {ts : List Token} {gap rest w : List Char}

theorem step_of_gap (hs : s.opening = true) (hrest : s.lexer.rest = gap ++ rest)
    (hgap : ∀ c ∈ gap, isGap c = true) (hsettles : (s.lexer.advance gap.length).Settles) :
    s.step = indent (s.lexer.advance gap.length) (columns gap) := by
  rw [step, if_pos hs, indentation_of_gap hrest hgap hsettles (by rw [hrest, List.length_append]; omega)]
  rfl

/-- A line that holds a token, outside of all brackets, is indented. -/
theorem step_of_indent (hs : s.opening = true) (hbrackets : s.lexer.brackets = [])
    (hrest : s.lexer.rest = gap ++ rest) (hgap : ∀ c ∈ gap, isGap c = true)
    (htoken : startsToken rest = true) : s.step =
      (changeIndent (s.lexer.advance gap.length) (columns gap).column (columns gap).alternative).map
        fun (ts, l) => (ts, ⟨false, false, l⟩) := by
  have hbehind := (Lexer.passes_advance hrest).2
  have hstarts : startsToken (s.lexer.advance gap.length).rest = true := by rwa [hbehind]
  have hopen : (s.lexer.advance gap.length).brackets = [] :=
    (Lexer.advance_brackets _ _).trans hbrackets
  rw [step_of_gap hs hrest hgap (settles_of_startsToken hstarts), indent,
    isBlankLine_of_startsToken hstarts, hopen, joined_columns]
  rfl

theorem exists_gap (hs : s.opening = true) (h : s.step = .ok (ts, s'))
    (hline : s'.lexer.line = s.lexer.line) :
    ∃ gap, (∀ c ∈ gap, isGap c = true) ∧ s.lexer.rest = gap ++ s'.lexer.rest := by
  rw [step, if_pos hs] at h
  cases hrun : indentation (s.lexer.rest.length + 1) s.lexer ⟨0, 0, 0⟩ with
  | none =>
    rw [hrun] at h
    cases h
  | some run =>
    obtain ⟨l, i⟩ := run
    rw [hrun] at h
    obtain ⟨-, -, hlike, -⟩ := indentation_append (Nat.lt_succ_self _) hrun
    obtain ⟨-, hrest, hline', -⟩ := of_indent hs hlike.brackets h
    obtain ⟨gap, hgap, hsplit⟩ := exists_gap_of_indentation (Nat.lt_succ_self _) hrun
      (hline'.symm.trans hline)
    exact ⟨gap, hgap, by rw [hrest, hsplit]⟩

/-! ## Comments -/

theorem run_of_comment {comment : List Char} (hs : s.opening = true)
    (hgap : ∀ c ∈ gap, isGap c = true) (hcomment : '\n' ∉ comment)
    (hrest : s.lexer.rest = gap ++ ('#' :: comment ++ '\n' :: w)) :
    ∃ s', Run s (gap ++ ('#' :: comment ++ ['\n'])) [] s' ∧ s'.opening = true ∧ s'.blank = false ∧
      s.lexer.Alike s'.lexer ∧ s'.lexer.rest = w := by
  obtain ⟨hpasses, hbehind⟩ := Lexer.passes_advance hrest
  have hlike := s.lexer.alike_advance gap.length
  have hstep := step_of_gap hs hrest hgap (by
    intro c v hv
    rw [hbehind] at hv
    obtain rfl := (List.cons.inj hv).1
    decide)
  generalize s.lexer.advance gap.length = l at hpasses hbehind hlike hstep
  rw [indent, if_pos (by rw [hbehind]; rfl), hbehind] at hstep
  have hlength : gapLength l.rest = ('#' :: comment).length := by
    have hwhole : ('#' :: comment ++ '\n' :: w).takeWhile (· != '\n') = '#' :: comment := by
      rw [List.takeWhile_append_of_pos, List.takeWhile_cons_of_neg (by decide), List.append_nil]
      intro c hc
      rw [bne_iff_ne]
      rintro rfl
      rcases List.mem_cons.mp hc with hc | hc
      · exact absurd hc (by decide)
      · exact hcomment hc
    rw [hbehind, gapLength, List.cons_append, List.takeWhile_cons_of_neg (by decide)]
    simpa using congrArg List.length hwhole
  obtain ⟨hpass, hended⟩ := Lexer.passes_advance (l := l) hbehind
  rw [← hlength, ← Lexer.skip_eq] at hpass hended
  obtain ⟨hlast, hnext⟩ := Lexer.passes_advance (u := ['\n']) hended
  have hskip : l.Alike l.skip := l.skip_eq ▸ l.alike_advance _
  have hstep' : (Scanner.mk false true l).step = .ok ([], ⟨true, false, l.skip.advance 1⟩) := by
    rw [step, if_neg Bool.false_ne_true, pass_ended hended]
    rfl
  refine ⟨⟨true, false, l.skip.advance 1⟩, ?_, rfl, rfl,
    hlike.trans (hskip.trans (l.skip.alike_advance 1)), hnext⟩
  exact (Run.single hstep hpasses).trans (Run.single hstep' (hpass.trans hlast))

end Scanner

/-! ## Lines that are known by their words -/

/-- A line, from some place on to its end, is read as the words. -/
inductive Lexes : List Char → List Char → List (TokenKind × String) → Prop
  | nil : Lexes [] [] []
  | cons {brackets behind gap word line : List Char} {kind : TokenKind}
    {words : List (TokenKind × String)}
    (hgap : ∀ z, gapLength (gap ++ (word ++ (line ++ '\n' :: z))) = gap.length)
    (hword : ∀ z, lexeme brackets (word ++ (line ++ '\n' :: z)) = .token kind word.length behind)
    (hline : Lexes behind line words) :
    Lexes brackets (gap ++ (word ++ line)) ((kind, String.ofList word) :: words)

namespace Scanner

variable {s o o' : Scanner} {ts : List Token} {gap w : List Char}

theorem step_token {word z behind : List Char} {kind : TokenKind} (hs : s.opening = false)
    (hrest : s.lexer.rest = gap ++ (word ++ z)) (hgap : gapLength (gap ++ (word ++ z)) = gap.length)
    (hword : lexeme s.lexer.brackets (word ++ z) = .token kind word.length behind) :
    ∃ t s', s.step = .ok ([t], s') ∧ t.word = (kind, String.ofList word) ∧
      s.lexer.Passes (gap ++ word) s'.lexer ∧ s'.opening = false ∧ s'.blank = s.blank ∧
      s'.lexer.indents = s.lexer.indents ∧ s'.lexer.brackets = behind ∧ s'.lexer.rest = z := by
  obtain ⟨hpass, hskip⟩ := Lexer.passes_advance hrest
  rw [← hgap, ← hrest, ← Lexer.skip_eq] at hpass hskip
  have hlike : s.lexer.Alike s.lexer.skip := s.lexer.skip_eq ▸ s.lexer.alike_advance _
  obtain ⟨hpass', hbehind⟩ := Lexer.passes_advance hskip
  rw [← hlike.brackets, ← hskip] at hword
  have hstep : s.step = .ok ([(tokenOf s.lexer.skip kind word.length).1],
      ⟨false, s.blank, { s.lexer.skip.advance word.length with brackets := behind }⟩) := by
    rw [step, if_neg (by rw [hs]; exact Bool.false_ne_true), pass_token hword]
    rfl
  refine ⟨_, _, hstep, ?_, hpass.trans ⟨hpass'.rest, hpass'.line⟩, rfl, rfl,
    (s.lexer.skip.advance_indents _).trans hlike.indents, rfl, hbehind⟩
  rw [Token.word, tokenOf, hskip, List.take_left]

theorem step_ended {z : List Char} (hs : s.opening = false) (hblank : s.blank = false)
    (hbrackets : s.lexer.brackets = []) (hrest : s.lexer.rest = '\n' :: z) :
    ∃ t s', s.step = .ok ([t], s') ∧ t.word = (.newline, "") ∧ s.lexer.Passes ['\n'] s'.lexer ∧
      s'.opening = true ∧ s'.blank = false ∧ s.lexer.Alike s'.lexer ∧ s'.lexer.rest = z := by
  have hskip : s.lexer.skip = s.lexer := by
    rw [Lexer.skip_eq, hrest]
    rfl
  obtain ⟨hpass, hbehind⟩ := Lexer.passes_advance (u := ['\n']) hrest
  have hstep : s.step = .ok ([s.lexer.marker .newline], ⟨true, false, s.lexer.advance 1⟩) := by
    rw [step, if_neg (by rw [hs]; exact Bool.false_ne_true), hskip, pass_ended hrest, hblank, hbrackets]
    rfl
  exact ⟨_, _, hstep, rfl, hpass, rfl, rfl, s.lexer.alike_advance 1, hbehind⟩

/-- Behind the end of the line stands the next one. -/
theorem run_of_lexes {line z : List Char} {words : List (TokenKind × String)}
    (h : Lexes s.lexer.brackets line words) (hs : s.opening = false) (hblank : s.blank = false)
    (hrest : s.lexer.rest = line ++ '\n' :: z) :
    ∃ ts s', Run s (line ++ ['\n']) ts s' ∧ ts.map Token.word = words ++ [(.newline, "")] ∧
      s'.opening = true ∧ s'.blank = false ∧ s'.lexer.indents = s.lexer.indents ∧
      s'.lexer.brackets = [] ∧ s'.lexer.rest = z := by
  generalize hbrackets : s.lexer.brackets = brackets at h
  induction h generalizing s with
  | nil =>
    obtain ⟨t, s', hstep, hword, hpass, hopening, hblank', hlike, hrest'⟩ :=
      step_ended hs hblank hbrackets hrest
    exact ⟨[t], s', Run.single hstep hpass, by simp [hword], hopening, hblank', hlike.indents,
      hlike.brackets.trans hbrackets, hrest'⟩
  | @cons brackets behind gap word line kind words hgap hword _ ih =>
    rw [List.append_assoc, List.append_assoc] at hrest
    obtain ⟨t, s₁, hstep, ht, hpass, hs₁, hblank₁, hindents₁, hbrackets₁, hrest₁⟩ :=
      step_token hs hrest (hgap z) (hbrackets ▸ hword z)
    obtain ⟨ts, s', hrun, hwords, hopening, hblank', hindents, hbrackets', hrest'⟩ :=
      ih hs₁ (hblank₁.trans hblank) hrest₁ hbrackets₁
    refine ⟨t :: ts, s', ?_, by simp [ht, hwords], hopening, hblank', hindents.trans hindents₁,
      hbrackets', hrest'⟩
    have hwhole := Run.step hstep hpass hrun
    rwa [← List.append_assoc, List.append_assoc gap] at *

/-- A delay goes in front of a line that holds a token: a comment and a call, indented as the line is. The
scanner then stands in that line as it would have without them. -/
theorem run_of_delay {comment call : List Char} {words : List (TokenKind × String)}
    (ho : o.opening = true) (hbrackets : o.lexer.brackets = []) (hstep : o.step = .ok (ts, o'))
    (hgap : ∀ c ∈ gap, isGap c = true) (hrest : o.lexer.rest = gap ++ o'.lexer.rest)
    (htoken : startsToken o'.lexer.rest = true) (hcomment : '\n' ∉ comment)
    (hcall : Lexes [] call words) (hstarts : startsToken call = true) (hs : o.Alike s)
    (hw : startsToken w = true)
    (hrest' : s.lexer.rest = gap ++ ('#' :: comment ++ '\n' :: (gap ++ (call ++ '\n' :: (gap ++ w))))) :
    ∃ us s', Run s (gap ++ ('#' :: comment ++ ['\n']) ++ (gap ++ (call ++ ['\n']) ++ gap)) us s' ∧
      us.map Token.word = ts.map Token.word ++ (words ++ [(.newline, "")]) ∧ o'.Alike s' ∧
      s'.lexer.rest = w := by
  -- what the line does to the open blocks
  rw [step_of_indent ho hbrackets hrest hgap htoken] at hstep
  obtain ⟨kind, n, others, rfl, rfl, hsame⟩ : ∃ kind n others,
      ts = List.replicate n ((o.lexer.advance gap.length).marker kind) ∧
      o' = ⟨false, false, { o.lexer.advance gap.length with
        indents := ((columns gap).column, (columns gap).alternative) :: others }⟩ ∧
      ∀ l : Lexer, l.indents = o.lexer.indents →
        changeIndent l (columns gap).column (columns gap).alternative =
          .ok (List.replicate n (l.marker kind),
            { l with indents := ((columns gap).column, (columns gap).alternative) :: others }) := by
    cases hchange : changeIndent (o.lexer.advance gap.length) (columns gap).column
        (columns gap).alternative with
    | error ts =>
      rw [hchange] at hstep
      cases hstep
    | ok run =>
      obtain ⟨us, l⟩ := run
      obtain ⟨kind, n, others, -, rfl, rfl, hsame⟩ := changeIndent_eq_ok hchange
      rw [hchange] at hstep
      cases hstep
      exact ⟨kind, n, others, rfl, rfl, fun l hl =>
        hsame l (hl.trans (Lexer.advance_indents _ _).symm)⟩
  -- the comment
  have hopening : s.opening = true := hs.opening.trans ho
  obtain ⟨s₁, hrun₁, hopening₁, -, hlike₁, hrest₁⟩ := run_of_comment hopening hgap hcomment hrest'
  have hopen₁ : s₁.lexer.brackets = [] :=
    hlike₁.brackets.trans (hs.lexer.brackets.trans hbrackets)
  -- the call, which opens or closes the blocks that the line does
  obtain ⟨hpass₂, hbehind₂⟩ := Lexer.passes_advance hrest₁
  have hstep₂ := step_of_indent hopening₁ hopen₁ hrest₁ hgap (startsToken_append hstarts _)
  rw [hsame _ ((Lexer.advance_indents _ _).trans (hlike₁.indents.trans hs.lexer.indents))] at hstep₂
  have hbrackets₂ := (s₁.lexer.advance_brackets gap.length).trans hopen₁
  generalize s₁.lexer.advance gap.length = l₂ at hpass₂ hbehind₂ hstep₂ hbrackets₂
  obtain ⟨us, s₃, hrun₃, hwords, hopening₃, -, hindents₃, hbrackets₃, hrest₃⟩ :=
    run_of_lexes (s := ⟨false, false, { l₂ with
      indents := ((columns gap).column, (columns gap).alternative) :: others }⟩)
      (hbrackets₂ ▸ hcall) rfl rfl hbehind₂
  -- the line itself, in the blocks of the call
  obtain ⟨hpass₄, hbehind₄⟩ := Lexer.passes_advance hrest₃
  have hstep₄ := step_of_indent hopening₃ hbrackets₃ hrest₃ hgap hw
  have hindents₄ := (s₃.lexer.advance_indents gap.length).trans hindents₃
  have hbrackets₄ := (s₃.lexer.advance_brackets gap.length).trans hbrackets₃
  generalize s₃.lexer.advance gap.length = l₄ at hpass₄ hbehind₄ hstep₄ hindents₄ hbrackets₄
  have hchange : changeIndent l₄ (columns gap).column (columns gap).alternative = .ok ([], l₄) := by
    rw [changeIndent, hindents₄]
    simp
  rw [hchange] at hstep₄
  refine ⟨_, _, hrun₁.trans ((Run.step hstep₂ ⟨hpass₂.rest, hpass₂.line⟩ hrun₃).trans
    (Run.single hstep₄ hpass₄)), ?_, ⟨rfl, rfl, hindents₄, ?_⟩, hbehind₄⟩
  · simp [hwords, Token.word, Lexer.marker]
  · exact hbrackets₄.trans ((o.lexer.advance_brackets _).trans hbrackets).symm

/-- Where no block is open, a line is put in between. -/
theorem run_of_line {line : List Char} {words : List (TokenKind × String)} (hs : s.opening = true)
    (hblank : s.blank = false) (hbrackets : s.lexer.brackets = []) (hindents : s.lexer.indents = [(0, 0)])
    (hline : Lexes [] line words) (hstarts : startsToken line = true)
    (hrest : s.lexer.rest = line ++ '\n' :: w) :
    ∃ us s', Run s (line ++ ['\n']) us s' ∧ us.map Token.word = words ++ [(.newline, "")] ∧
      s.Alike s' ∧ s'.lexer.rest = w := by
  have hgap : s.lexer.rest = [] ++ (line ++ '\n' :: w) := hrest
  have hstep := step_of_indent hs hbrackets hgap (fun _ hc => nomatch hc)
    (startsToken_append hstarts _)
  have hchange : changeIndent s.lexer 0 0 = .ok ([], s.lexer) := by
    rw [changeIndent, hindents]
    rfl
  replace hstep : s.step = .ok ([], ⟨false, false, s.lexer⟩) := hstep.trans (congrArg _ hchange)
  obtain ⟨us, s', hrun, hwords, hopening, hblank', hindents', hbrackets', hrest'⟩ :=
    run_of_lexes (s := ⟨false, false, s.lexer⟩) (hbrackets ▸ hline) rfl rfl hrest
  exact ⟨us, s', Run.step (u := []) hstep ⟨rfl, rfl⟩ hrun, hwords,
    ⟨hopening.trans hs.symm, hblank'.trans hblank.symm, hindents', hbrackets'.trans hbrackets.symm⟩, hrest'⟩

end Scanner

/-! ## The lines that injection writes -/

open Text (isAsciiDigit)

/-- Nothing but a number starts with a digit, and a sign in front is a mark of its own. -/
theorem of_isAsciiDigit {c : Char} (hc : isAsciiDigit c = true) (x : List Char) :
    opensText (c :: x) = none ∧ isNameStartChar c = false ∧ startsToken (c :: x) = true ∧
      ∀ brackets, lexeme brackets ('-' :: c :: x) = .token .mark 1 brackets := by
  obtain ⟨hge, hle⟩ := Text.toNat_of_isAsciiDigit hc
  rw [← Char.ofNat_toNat c]
  generalize c.toNat = n at hge hle
  interval_cases n <;> exact ⟨rfl, rfl, rfl, fun _ => rfl⟩

/-- A whole number in front of a closing mark. -/
theorem lexeme_toDigits {n : Nat} (h : n < 10 ^ Text.maxDigits) (brackets z : List Char) :
    lexeme brackets (Nat.toDigits 10 n ++ ')' :: z) =
      .token .number (Nat.toDigits 10 n).length brackets := by
  have hall : ∀ c ∈ Nat.toDigits 10 n, c.isDigit = true := fun c hc =>
    Text.isAsciiDigit_of_mem_toDigits hc
  have hlength : (Nat.toDigits 10 n).length ≤ Text.maxDigits :=
    (Nat.length_toDigits_le_iff (by decide) (by decide)).mpr h
  obtain ⟨c, digits, hdigits, hc, hzero⟩ := Text.exists_toDigits_eq_cons n
  rw [hdigits] at hall hlength ⊢
  -- the digits reach up to the mark
  have hrun : digitsOf Char.isDigit (c :: digits ++ ')' :: z) = some (c :: digits).length := by
    rw [digitsOf, digitRun, List.takeWhile_append_of_pos hall, List.takeWhile_cons_of_neg (by decide),
      List.append_nil, List.drop_left]
    simp
  have hnumber : numberLength (c :: digits ++ ')' :: z) = some (c :: digits).length := by
    have hpoint : ((c :: digits ++ ')' :: z).head? == some '.') = false := by
      refine beq_eq_false_iff_ne.mpr fun heq => ?_
      obtain rfl : c = '.' := Option.some.inj heq
      exact absurd hc (by decide)
    have htail : fractionTail (')' :: z) = some 0 := rfl
    rw [numberLength_of_no_base, decimalLength, hpoint, if_neg Bool.false_ne_true, hrun]
    · simp only [Option.bind_some, List.drop_left, List.take_left, htail, List.filter_eq_self.mpr hall]
      rw [if_neg]
      · simp
      · simp only [decide_true, Bool.true_and, Bool.or_eq_true, decide_eq_true_eq, not_or,
          Nat.not_lt, Bool.and_eq_true, not_and]
        refine ⟨fun hhead => ?_, hlength⟩
        rw [hzero (by simpa using hhead)]
        simpa using hhead
    · intro d body heq
      obtain ⟨rfl, hbehind⟩ := List.cons.inj heq
      rw [hzero rfl] at hbehind
      obtain rfl := (List.cons.inj hbehind).1
      decide
  obtain ⟨hopens, hname, -⟩ := of_isAsciiDigit hc (digits ++ ')' :: z)
  have hnewline : c ≠ '\n' := Text.ne_of_isAsciiDigit hc (by decide)
  have hjoin : c ≠ '\\' := Text.ne_of_isAsciiDigit hc (by decide)
  rw [List.cons_append] at hnumber ⊢
  rw [lexeme_cons hnewline hjoin, tokenLexeme, hopens, hname, hnumber, hall c List.mem_cons_self]
  rfl

/-- The words of the line that imports the support module. -/
def importWords : List (TokenKind × String) :=
  [(.name, "from"), (.name, "flake_monster_runtime"), (.name, "import"), (.name, "__FlakeMonster__")]

theorem lexes_importLine : Lexes [] importLine.toList importWords := by
  have hline : importLine.toList = [] ++ ("from".toList ++ ([' '] ++ ("flake_monster_runtime".toList ++
      ([' '] ++ ("import".toList ++ ([' '] ++ ("__FlakeMonster__".toList ++ []))))))) := by
    decide
  rw [hline]
  exact .cons (fun _ => rfl) (fun _ => rfl) (.cons (fun _ => rfl) (fun _ => rfl)
    (.cons (fun _ => rfl) (fun _ => rfl) (.cons (fun _ => rfl) (fun _ => rfl) .nil)))

def numberWords (n : Int) : List (TokenKind × String) :=
  (if n < 0 then [(.mark, "-")] else []) ++ [(.number, toString n.natAbs)]

/-- The words of a call with a delay. -/
def callWords (delay : Int) : List (TokenKind × String) :=
  [(.name, "await"), (.name, "__FlakeMonster__"), (.mark, "(")] ++ numberWords delay ++ [(.mark, ")")]

theorem gapLength_of_startsToken {x : List Char} (h : startsToken x = true) : gapLength x = 0 := by
  cases x with
  | nil => rfl
  | cons c x =>
    simp only [startsToken, Bool.and_eq_true, Bool.not_eq_true', bne_iff_ne] at h
    rw [gapLength, List.takeWhile_cons_of_neg (by simp [h.1.1.1])]
    simp [h.1.2]

theorem lexes_toDigits {n : Nat} (h : n < 10 ^ Text.maxDigits) :
    Lexes ['('] (Nat.toDigits 10 n ++ [')']) [(.number, toString n), (.mark, ")")] := by
  have hstarts : startsToken (Nat.toDigits 10 n) = true := by
    obtain ⟨c, digits, hdigits, hc, -⟩ := Text.exists_toDigits_eq_cons n
    rw [hdigits]
    exact (of_isAsciiDigit hc digits).2.2.1
  have hmark : Lexes ['('] [')'] [(.mark, ")")] :=
    @Lexes.cons _ _ [] [')'] [] _ _ (fun _ => rfl) (fun _ => rfl) .nil
  have hword : toString n = String.ofList (Nat.toDigits 10 n) := by
    rw [← String.toList_inj, String.toList_ofList]
    exact Nat.toList_repr
  rw [hword]
  exact @Lexes.cons _ _ [] _ _ _ _ (fun z => gapLength_of_startsToken (startsToken_append hstarts _))
    (fun z => lexeme_toDigits h _ _) hmark

theorem lexes_number {n : Int} (h : IsShort n) :
    Lexes ['('] ((toString n).toList ++ [')']) (numberWords n ++ [(.mark, ")")]) := by
  have hdigits := lexes_toDigits h.lt
  rw [Text.toList_toString_int, numberWords]
  split
  · obtain ⟨c, digits, hcons, hc, -⟩ := Text.exists_toDigits_eq_cons n.natAbs
    have hsign : Lexes ['('] ([] ++ (['-'] ++ (Nat.toDigits 10 n.natAbs ++ [')']))) _ :=
      .cons (fun z => rfl) (fun z => by
        rw [hcons]
        exact (of_isAsciiDigit hc (digits ++ [')'] ++ '\n' :: z)).2.2.2 ['(']) hdigits
    exact hsign
  · exact hdigits

theorem lexes_callLine {n : Int} (h : IsShort n) :
    Lexes [] (Injection.callLine adapter.spelling n).toList (callWords n) := by
  have hline : (Injection.callLine adapter.spelling n).toList = [] ++ ("await".toList ++ ([' '] ++
      ("__FlakeMonster__".toList ++ ([] ++ (['('] ++ ((toString n).toList ++ [')'])))))) := by
    rw [Injection.callLine, String.toList_append, String.toList_append]
    rfl
  rw [hline]
  exact .cons (fun _ => rfl) (fun _ => rfl) (.cons (fun _ => rfl) (fun _ => rfl)
    (.cons (fun _ => rfl) (fun _ => rfl) (lexes_number h)))

end DelayInjection.Python
