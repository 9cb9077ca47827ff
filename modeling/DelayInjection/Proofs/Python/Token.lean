import DelayInjection.Proofs.Text.Lines
import DelayInjection.Python.Token
import Mathlib.Data.List.Basic

/-! Where the tokens of Python end: a name, a text, or one of the marks that may end an import stands on its
last line with something other than blanks. -/

namespace DelayInjection.Python

open Text (isAsciiBlank)

/-- Line number `n` of the text holds more than blanks. -/
def InkedLine (text : List Char) (n : Nat) : Prop :=
  ∃ before x behind, text = before ++ x :: behind ∧ isAsciiBlank x = false ∧
    n = before.count '\n' + 1

/-- A token that a text or an import may end with. -/
def Token.Final (t : Token) : Prop := t.kind = .name ∨ t.kind = .text ∨ t.text = ")" ∨ t.text = "*"

/-! ## Places -/

namespace Lexer

/-- The lexer stands in the text, and knows its line. -/
def At (text : List Char) (l : Lexer) : Prop :=
  ∃ before, text = before ++ l.rest ∧ l.line = before.count '\n' + 1

theorem advance_eq (n : Nat) (l : Lexer) :
    (l.advance n).rest = l.rest.drop n ∧
      (l.advance n).line = l.line + (l.rest.take n).count '\n' := by
  induction n generalizing l with
  | zero => exact ⟨rfl, rfl⟩
  | succ n ih =>
    rw [advance]
    split
    next h => simp [h]
    next c rest h =>
      rw [h]
      split
      next hc =>
        obtain ⟨hrest, hline⟩ := ih { l with rest := rest, line := l.line + 1, column := 0 }
        refine ⟨hrest, hline.trans ?_⟩
        simp only [List.take_succ_cons, hc, List.count_cons_self]
        omega
      next hc =>
        obtain ⟨hrest, hline⟩ := ih { l with rest := rest, column := l.column + c.utf8Size }
        refine ⟨hrest, hline.trans ?_⟩
        rw [List.take_succ_cons, List.count_cons_of_ne hc]

theorem At.advance {text : List Char} {l : Lexer} (h : l.At text) (n : Nat) :
    (l.advance n).At text := by
  obtain ⟨before, htext, hline⟩ := h
  obtain ⟨hrest, hlines⟩ := advance_eq n l
  refine ⟨before ++ l.rest.take n, ?_, ?_⟩
  · rw [hrest, List.append_assoc, List.take_append_drop, htext]
  · rw [hlines, hline, List.count_append]
    omega

end Lexer

/-- A token that may end an import ends on a line with ink. -/
def Good (text : List Char) (t : Token) : Prop := t.Final → InkedLine text t.endLine

variable {text : List Char} {l : Lexer}

theorem good_tokenOf {kind : TokenKind} {n : Nat} (h : l.At text)
    (hends : kind = .name ∨ kind = .text →
      ∃ u x, l.rest.take n = u ++ [x] ∧ isAsciiBlank x = false) :
    Good text (tokenOf l kind n).1 := by
  intro hfinal
  have hink : ∃ u x, l.rest.take n = u ++ [x] ∧ isAsciiBlank x = false := by
    rcases hfinal with hkind | hkind | hmark | hmark
    · exact hends (.inl hkind)
    · exact hends (.inr hkind)
    · exact ⟨[], ')', String.ofList_injective hmark, by decide⟩
    · exact ⟨[], '*', String.ofList_injective hmark, by decide⟩
  obtain ⟨u, x, htake, hx⟩ := hink
  obtain ⟨before, htext, hline⟩ := h
  refine ⟨before ++ u, x, l.rest.drop n, ?_, hx, ?_⟩
  · conv_lhs => rw [htext, ← List.take_append_drop n l.rest, htake]
    simp
  · have hne : x ≠ '\n' := by
      rintro rfl
      exact absurd hx (by decide)
    change (l.advance n).line = _
    rw [(Lexer.advance_eq n l).2, htake, hline, List.count_append, List.count_append,
      List.count_singleton, if_neg (by simpa using hne)]
    omega

theorem good_of_empty {t : Token} (hname : t.kind ≠ .name) (hkind : t.kind ≠ .text)
    (htext : t.text = "") : Good text t := by
  rintro (h | h | h | h)
  · exact absurd h hname
  · exact absurd h hkind
  · exact absurd (htext.symm.trans h) (by decide)
  · exact absurd (htext.symm.trans h) (by decide)

theorem good_faultAt {fault : ParseFault} {reported : Bool} :
    ∀ t ∈ l.faultAt fault reported, Good text t := by
  intro t ht
  rw [Lexer.faultAt, List.mem_singleton] at ht
  subst ht
  exact good_of_empty (by simp) (by simp) rfl

/-! ## What a token ends with -/

theorem take_closeText {quote : Char} {triple : Bool} {fuel n : Nat} {text : List Char}
    (h : closeText quote triple fuel text = some n) : ∃ u, text.take n = u ++ [quote] := by
  induction fuel generalizing text n with
  | zero => cases h
  | succ fuel ih =>
    have hmore : ∀ {c : Char} {rest : List Char} {k m : Nat},
        closeText quote triple fuel rest = some m → k = m + 1 →
        ∃ u, (c :: rest).take k = u ++ [quote] := by
      intro c rest k m hm hk
      obtain ⟨u, hu⟩ := ih hm
      exact ⟨c :: u, by rw [hk, List.take_succ_cons, hu, List.cons_append]⟩
    unfold closeText at h
    split at h
    · cases h
    · obtain ⟨m, hm, rfl⟩ := Option.map_eq_some_iff.mp h
      obtain ⟨u, hu⟩ := ih hm
      exact ⟨'\\' :: _ :: u, by rw [List.take_succ_cons, List.take_succ_cons, hu]; rfl⟩
    next c rest _ =>
      split at h
      next hc =>
        split at h
        · cases h
          exact ⟨[], by rw [hc]; rfl⟩
        · split at h
          next htake =>
            cases h
            exact ⟨[c, quote], by rw [List.take_succ_cons, htake]; rfl⟩
          · obtain ⟨m, hm, rfl⟩ := Option.map_eq_some_iff.mp h
            exact hmore hm rfl
      · split at h
        · cases h
        · obtain ⟨m, hm, rfl⟩ := Option.map_eq_some_iff.mp h
          exact hmore hm rfl

theorem take_textLength {text : List Char} {n : Nat} (h : textLength text = some n) :
    ∃ u x, text.take n = u ++ [x] ∧ text.head? = some x := by
  unfold textLength at h
  split at h
  next a b c rest =>
    split at h
    · obtain ⟨m, hm, rfl⟩ := Option.map_eq_some_iff.mp h
      obtain ⟨u, hu⟩ := take_closeText hm
      exact ⟨a :: b :: c :: u, a, by simp [List.take_succ_cons, hu], rfl⟩
    · obtain ⟨m, hm, rfl⟩ := Option.map_eq_some_iff.mp h
      obtain ⟨u, hu⟩ := take_closeText hm
      exact ⟨a :: u, a, by rw [List.take_succ_cons, hu, List.cons_append], rfl⟩
  next a rest _ =>
    obtain ⟨m, hm, rfl⟩ := Option.map_eq_some_iff.mp h
    obtain ⟨u, hu⟩ := take_closeText hm
    exact ⟨a :: u, a, by rw [List.take_succ_cons, hu, List.cons_append], rfl⟩
  · cases h

/-- A text ends with its quote. -/
theorem take_text {text : List Char} {n m : Nat} (hopens : opensText text = some n)
    (hlength : textLength (text.drop n) = some m) :
    ∃ u x, text.take (n + m) = u ++ [x] ∧ isAsciiBlank x = false := by
  obtain ⟨u, x, htake, hhead⟩ := take_textLength hlength
  have hquote : (x == '"' || x == '\'') = true := by
    have := List.find?_some hopens
    simpa [hhead] using this
  refine ⟨text.take n ++ u, x, ?_, ?_⟩
  · rw [List.take_add, htake, List.append_assoc]
  · rcases Bool.or_eq_true_iff.mp hquote with hx | hx <;> rw [beq_iff_eq.mp hx] <;> decide

theorem isAsciiBlank_of_isNameChar {c : Char} (h : isNameChar c = true) : isAsciiBlank c = false := by
  have halpha : c.isAlpha = (decide (65 ≤ c.val ∧ c.val ≤ 90) ||
      decide (97 ≤ c.val) && decide (c.val ≤ 122)) := rfl
  simp only [isNameChar, isNameStartChar, halpha, Char.isDigit,
    Bool.or_eq_true, Bool.and_eq_true, decide_eq_true_eq, beq_iff_eq, Char.ext_iff,
    UInt32.le_iff_toNat_le, ← UInt32.toNat_inj] at h
  simp only [isAsciiBlank, Bool.or_eq_false_iff, Bool.and_eq_false_iff, beq_eq_false_iff_ne,
    decide_eq_false_iff_not, Char.toNat]
  simp only [Char.toNat, UInt32.reduceToNat, Char.reduceVal] at h
  omega

/-- A name ends with one of its characters. -/
theorem take_name {c : Char} {rest : List Char} (h : isNameStartChar c = true) :
    ∃ u x, (c :: rest).take ((c :: rest).takeWhile isNameChar).length = u ++ [x] ∧
      isAsciiBlank x = false := by
  have hne : (c :: rest).takeWhile isNameChar ≠ [] := by
    simp [isNameChar, h]
  rw [← List.prefix_iff_eq_take.mp (List.takeWhile_prefix _)]
  refine ⟨_, _, (List.dropLast_append_getLast hne).symm, isAsciiBlank_of_isNameChar ?_⟩
  exact List.all_eq_true.mp List.all_takeWhile _ (List.getLast_mem hne)

/-! ## All tokens -/

theorem at_indentation {fuel : Nat} {i j : Indentation} {l' : Lexer} (h : l.At text)
    (hrun : indentation fuel l i = some (l', j)) : l'.At text := by
  induction fuel generalizing l i with
  | zero =>
    cases hrun
    exact h
  | succ fuel ih =>
    unfold indentation at hrun
    split at hrun
    · exact ih (h.advance 1) hrun
    · exact ih (h.advance 1) hrun
    · exact ih (h.advance 1) hrun
    · exact ih (h.advance 2) hrun
    · cases hrun
    · cases hrun
      exact h

theorem good_of_changeIndent_ok {column alternative : Nat} {ts : List Token} {l' : Lexer}
    (h : l.At text) (hrun : changeIndent l column alternative = .ok (ts, l')) :
    (∀ t ∈ ts, Good text t) ∧ l'.At text := by
  have hindent : Good text (l.marker .indent) := good_of_empty (by simp [Lexer.marker])
    (by simp [Lexer.marker]) rfl
  have hdedent : Good text (l.marker .dedent) := good_of_empty (by simp [Lexer.marker])
    (by simp [Lexer.marker]) rfl
  unfold changeIndent at hrun
  split at hrun
  · cases hrun
  · split at hrun
    · split at hrun <;> cases hrun
      exact ⟨by simp, h⟩
    · split at hrun
      · split at hrun
        · cases hrun
        · split at hrun <;> cases hrun
          exact ⟨by simpa using hindent, h⟩
      · simp only at hrun
        split at hrun
        · split at hrun
          · cases hrun
          · split at hrun <;> cases hrun
            exact ⟨fun t ht => List.eq_of_mem_replicate ht ▸ hdedent, h⟩
        · cases hrun

theorem good_of_changeIndent_error {column alternative : Nat} {ts : List Token}
    (hrun : changeIndent l column alternative = .error ts) : ∀ t ∈ ts, Good text t := by
  unfold changeIndent at hrun
  split at hrun
  · cases hrun
    exact good_faultAt
  · split at hrun
    · split at hrun <;> cases hrun
      exact good_faultAt
    · split at hrun
      · split at hrun
        · cases hrun
          exact good_faultAt
        · split at hrun <;> cases hrun
          exact good_faultAt
      · simp only at hrun
        split at hrun
        · split at hrun
          · cases hrun
            exact good_faultAt
          · split at hrun <;> cases hrun
            exact good_faultAt
        · cases hrun
          exact good_faultAt

/-- Behind an indentation come its tokens and those of the line. -/
theorem good_behind_indentation {l : Lexer} (h : l.At text) {fuel : Nat}
    (ih : ∀ {blank : Bool} {l : Lexer}, l.At text →
      ∀ t ∈ tokensFrom fuel false blank l, Good text t) (empty : Bool) (column alternative : Nat) :
    ∀ t ∈ (if empty || !l.brackets.isEmpty then tokensFrom fuel false empty l
      else match changeIndent l column alternative with
        | .error ts => ts
        | .ok (ts, l) => ts ++ tokensFrom fuel false false l), Good text t := by
  split
  · exact ih h
  · split
    next hchange => exact good_of_changeIndent_error hchange
    next ts l' hchange =>
      obtain ⟨hts, h'⟩ := good_of_changeIndent_ok h hchange
      exact fun t ht => (List.mem_append.mp ht).elim (hts t) (ih h' t)

theorem good_tokensFrom {fuel : Nat} {opening blank : Bool} (h : l.At text) :
    ∀ t ∈ tokensFrom fuel opening blank l, Good text t := by
  induction fuel generalizing l opening blank with
  | zero =>
    unfold tokensFrom
    exact good_faultAt
  | succ fuel ih =>
    cases opening with
    | true =>
      rw [tokensFrom]
      split
      · exact good_faultAt
      next l' i hrun =>
        exact good_behind_indentation (at_indentation h hrun) (fun h' => ih h') _ _ _
    | false =>
      rw [tokensFrom]
      have hgap := h.advance (l.rest.takeWhile fun c => c == ' ' || c == '\t' || c == '\x0c').length
      generalize l.advance _ = l at hgap
      have hcomment : (if l.rest.head? == some '#'
          then l.advance (l.rest.takeWhile (· != '\n')).length else l).At text := by
        split
        · exact hgap.advance _
        · exact hgap
      simp only
      generalize (if l.rest.head? == some '#'
          then l.advance (l.rest.takeWhile (· != '\n')).length else l) = l at hcomment
      have hinvalid : ∀ t ∈ l.invalid, Good text t := good_faultAt
      have hunreadable : ∀ t ∈ l.unreadable, Good text t := good_faultAt
      have hmarker : ∀ {kind : TokenKind} {ts : List Token}, kind ≠ .name → kind ≠ .text →
          (∀ t ∈ ts, Good text t) → ∀ t ∈ l.marker kind :: ts, Good text t := by
        intro kind ts hname htext hts t ht
        rcases List.mem_cons.mp ht with rfl | ht
        · exact good_of_empty hname htext rfl
        · exact hts t ht
      have htoken : ∀ {kind : TokenKind} {n : Nat} {brackets : List Char},
          (kind = .name ∨ kind = .text →
            ∃ u x, l.rest.take n = u ++ [x] ∧ isAsciiBlank x = false) →
          ∀ t ∈ (tokenOf l kind n).1 ::
            tokensFrom fuel false blank { (tokenOf l kind n).2 with brackets := brackets },
            Good text t := by
        intro kind n brackets hends t ht
        rcases List.mem_cons.mp ht with rfl | ht
        · exact good_tokenOf hcomment hends
        · have hbehind : Lexer.At text { (tokenOf l kind n).2 with brackets := brackets } :=
            hcomment.advance n
          exact ih hbehind t ht
      split
      · split
        · exact hmarker (by simp) (by simp) (by simp)
        · exact hunreadable
      · split
        · exact ih (hcomment.advance 1)
        · exact hmarker (by simp) (by simp) (ih (hcomment.advance 1))
      · split
        · exact hunreadable
        · exact ih (hcomment.advance 2)
      · exact hunreadable
      next c rest _ _ _ hrest =>
        split
        next n hopens =>
          split
          next m hlength => exact htoken fun _ => take_text hopens hlength
          · exact hinvalid
        · split
          next hname =>
            split
            · exact htoken fun _ => hrest ▸ take_name hname
            · exact hinvalid
          · split
            · split
              · exact htoken fun h => by simp at h
              · exact hinvalid
            · split
              · exact hinvalid
              · split
                · exact hinvalid
                · exact htoken fun h => by simp at h

theorem inkedLine_of_mem_tokens {t : Token} (h : t ∈ tokens text) (hfinal : t.Final) :
    InkedLine text t.endLine :=
  good_tokensFrom ⟨[], rfl, rfl⟩ t h hfinal

end DelayInjection.Python
