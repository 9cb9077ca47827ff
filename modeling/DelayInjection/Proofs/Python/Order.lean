import DelayInjection.Proofs.Python.Token
import DelayInjection.Proofs.Text.Utf8

/-! Where the tokens of Python start: in order, each at the place in the text that its line and its column
name. What comes behind a colon comes behind ink, and what comes behind the end of a line stands further down. -/

namespace DelayInjection.Python

open Text (lastLine)
open Text.Utf8 (encode)

/-- The line and the column name the place behind the text. -/
def Names (before : List Char) (line column : Nat) : Prop :=
  line = before.count '\n' + 1 ∧ column = (encode (lastLine before)).length

/-- The tokens follow one another through the text, from behind `before` on. A colon and the end of a line
take the character that they are named for. -/
inductive Ordered (text : List Char) : List Char → List Token → Prop
  | nil (before : List Char) : Ordered text before []
  | cons {before front passed : List Char} {t : Token} {ts : List Token}
      (hreach : before <+: front) (hpass : front <+: passed) (htext : passed <+: text)
      (hnames : Names front t.line t.column)
      (hcolon : t.text = ":" → ':' ∈ passed)
      (hnewline : t.kind = .newline → passed = front ++ ['\n'])
      (hrest : Ordered text passed ts) : Ordered text before (t :: ts)

namespace Ordered

variable {text before : List Char} {ts rest : List Token} {t : Token}

theorem of_passed {front : List Char} (h : Ordered text front ts) (hfront : before <+: front) :
    Ordered text before ts := by
  cases h with
  | nil => exact .nil before
  | cons hreach hpass htext hnames hcolon hnewline hrest =>
    exact .cons (hfront.trans hreach) hpass htext hnames hcolon hnewline hrest

theorem of_suffix (h : Ordered text before ts) (hrest : rest <:+ ts) : Ordered text before rest := by
  induction h with
  | nil =>
    rw [List.suffix_nil.mp hrest]
    exact .nil _
  | cons hreach hpass htext hnames hcolon hnewline htail ih =>
    rcases List.suffix_cons_iff.mp hrest with rfl | hrest
    · exact .cons hreach hpass htext hnames hcolon hnewline htail
    · exact (ih hrest).of_passed (hreach.trans hpass)

/-- A token stands behind what was passed in front of it. -/
theorem exists_of_mem (h : Ordered text before ts) (ht : t ∈ ts) :
    ∃ front, before <+: front ∧ front <+: text ∧ Names front t.line t.column := by
  obtain ⟨above, below, rfl⟩ := List.append_of_mem ht
  cases h.of_suffix (List.suffix_append above _) with
  | cons hreach hpass htext hnames => exact ⟨_, hreach, hpass.trans htext, hnames⟩

/-- What comes behind a colon. -/
theorem exists_behind_colon {u : Token} (h : Ordered text before ts) (hu : u :: rest <:+ ts)
    (hcolon : u.text = ":") (ht : t ∈ rest) :
    ∃ front, front <+: text ∧ Names front t.line t.column ∧ ':' ∈ front := by
  cases h.of_suffix hu with
  | cons _ _ _ _ hpassed _ hrest =>
    obtain ⟨front, hfront, htext, hnames⟩ := hrest.exists_of_mem ht
    exact ⟨front, htext, hnames, hfront.subset (hpassed hcolon)⟩

/-- Behind a colon and the end of a line: the colon stands above. -/
theorem exists_below_colon {u v : Token} {behind : List Token} (h : Ordered text before ts)
    (hu : u :: rest <:+ ts) (hcolon : u.text = ":") (hv : v :: behind <:+ rest)
    (hnewline : v.kind = .newline) (ht : t ∈ behind) :
    ∃ above line, above ++ '\n' :: line <+: text ∧ Names (above ++ '\n' :: line) t.line t.column ∧
      ':' ∈ above ∧ '\n' ∉ line := by
  cases h.of_suffix hu with
  | cons _ _ _ _ hpassed _ hrest =>
    cases hrest.of_suffix hv with
    | @cons _ ended _ _ _ hreach _ _ _ _ hends hbehind =>
      obtain ⟨front, hfront, htext, hnames⟩ := hbehind.exists_of_mem ht
      rw [hends hnewline] at hfront
      obtain ⟨more, rfl⟩ := hfront
      have hmem : ':' ∈ ended := hreach.subset (hpassed hcolon)
      obtain ⟨above, hsplit, hmem⟩ : ∃ above,
          ended ++ ['\n'] ++ more = above ++ '\n' :: lastLine more ∧ ':' ∈ above := by
        obtain ⟨lines, hlines, rfl | ⟨upper, rfl⟩⟩ := Text.exists_eq_append_lastLine more
        · refine ⟨ended, ?_, hmem⟩
          conv_lhs => rw [hlines]
          simp
        · refine ⟨ended ++ '\n' :: upper, ?_, List.mem_append_left _ hmem⟩
          conv_lhs => rw [hlines]
          simp
      rw [hsplit] at htext hnames
      exact ⟨above, lastLine more, htext, hnames, hmem, Text.newline_not_mem_lastLine more⟩

end Ordered

/-! ## The lexer -/

namespace Lexer

/-- The lexer stands in the text behind `before`, and knows its place. -/
def Stands (text before : List Char) (l : Lexer) : Prop :=
  text = before ++ l.rest ∧ Names before l.line l.column

theorem names_concat {before : List Char} {line column : Nat} (h : Names before line column)
    {c : Char} (hc : c ≠ '\n') : Names (before ++ [c]) line (column + c.utf8Size) := by
  have hnot : '\n' ∉ [c] := by simpa using Ne.symm hc
  refine ⟨?_, ?_⟩
  · rw [List.count_append, List.count_singleton, if_neg (by simpa using hc)]
    exact h.1
  · rw [Text.lastLine_append_of_not_mem hnot, Text.Utf8.encode_append, List.length_append, ← h.2]
    simp [Text.Utf8.encode, Text.Utf8.encodeChar]

theorem names_newline {before : List Char} {line column : Nat} (h : Names before line column) :
    Names (before ++ ['\n']) (line + 1) 0 := by
  refine ⟨?_, ?_⟩
  · rw [List.count_append, ← Nat.add_right_cancel_iff (n := 1), h.1]
    simp
  · rw [Text.lastLine_append_of_mem (List.mem_singleton_self _)]
    rfl

variable {text before : List Char} {l : Lexer}

theorem Stands.advance (h : l.Stands text before) (n : Nat) :
    (l.advance n).Stands text (before ++ l.rest.take n) := by
  induction n generalizing l before with
  | zero => simpa [Lexer.advance] using h
  | succ n ih =>
    obtain ⟨htext, hnames⟩ := h
    rw [Lexer.advance]
    split
    next hnil =>
      rw [hnil, List.take_nil, List.append_nil]
      exact ⟨htext, hnames⟩
    next c rest hrest =>
      rw [hrest] at htext
      have hnext : text = (before ++ [c]) ++ rest := by rw [htext, List.append_assoc]; rfl
      rw [hrest, List.take_succ_cons, List.append_cons]
      split
      next hc =>
        exact ih (l := { l with rest := rest, line := l.line + 1, column := 0 })
          ⟨hnext, hc ▸ names_newline hnames⟩
      next hc =>
        exact ih (l := { l with rest := rest, column := l.column + c.utf8Size })
          ⟨hnext, names_concat hnames hc⟩

theorem Stands.passed (h : l.Stands text before) : before <+: text := ⟨l.rest, h.1.symm⟩

end Lexer

variable {text before : List Char} {l : Lexer}

theorem stands_indentation {fuel : Nat} {i j : Indentation} {l' : Lexer} (h : l.Stands text before)
    (hrun : indentation fuel l i = some (l', j)) : ∃ front, before <+: front ∧ l'.Stands text front := by
  induction fuel generalizing l before i with
  | zero =>
    cases hrun
    exact ⟨before, List.prefix_rfl, h⟩
  | succ fuel ih =>
    have hbehind : ∀ {m : Nat} {i : Indentation}, indentation fuel (l.advance m) i = some (l', j) →
        ∃ front, before <+: front ∧ l'.Stands text front := by
      intro m i hrun
      obtain ⟨front, hfront, hstands⟩ := ih (h.advance m) hrun
      exact ⟨front, (List.prefix_append _ _).trans hfront, hstands⟩
    unfold indentation at hrun
    split at hrun
    · exact hbehind hrun
    · exact hbehind hrun
    · exact hbehind hrun
    · exact hbehind hrun
    · cases hrun
    · cases hrun
      exact ⟨before, List.prefix_rfl, h⟩

/-- A mark without text takes no character. -/
theorem ordered_cons {t : Token} {ts : List Token} (h : l.Stands text before)
    (hline : t.line = l.line) (hcolumn : t.column = l.column) (htext : t.text ≠ ":")
    (hkind : t.kind ≠ .newline) (hts : Ordered text before ts) : Ordered text before (t :: ts) :=
  .cons List.prefix_rfl List.prefix_rfl h.passed (hline ▸ hcolumn ▸ h.2) (fun h => absurd h htext)
    (fun h => absurd h hkind) hts

theorem ordered_faultAt (h : l.Stands text before) (fault : ParseFault) (reported : Bool) :
    Ordered text before (l.faultAt fault reported) :=
  ordered_cons h rfl rfl (fun h => absurd h (by simp)) (by simp) (.nil _)

/-- A token takes its characters. -/
theorem ordered_tokenOf {kind : TokenKind} {n : Nat} {ts : List Token} (h : l.Stands text before)
    (hkind : kind ≠ .newline) (hts : Ordered text (before ++ l.rest.take n) ts) :
    Ordered text before ((tokenOf l kind n).1 :: ts) := by
  refine .cons List.prefix_rfl (List.prefix_append _ _) (h.advance n).passed h.2 (fun hcolon => ?_)
    (fun h => absurd h hkind) hts
  have htake : l.rest.take n = [':'] := String.ofList_injective hcolon
  rw [htake]
  simp

theorem ordered_of_changeIndent_ok {column alternative : Nat} {ts : List Token} {l' : Lexer}
    (h : l.Stands text before) (hrun : changeIndent l column alternative = .ok (ts, l')) :
    l'.Stands text before ∧
      ∀ rest, Ordered text before rest → Ordered text before (ts ++ rest) := by
  have hmarker : ∀ {kind : TokenKind} {ts : List Token}, kind ≠ .newline → Ordered text before ts →
      Ordered text before (l.marker kind :: ts) := fun hkind hts =>
    ordered_cons h rfl rfl (fun h => absurd h (by simp [Lexer.marker])) hkind hts
  unfold changeIndent at hrun
  split at hrun
  · cases hrun
  · split at hrun
    · split at hrun <;> cases hrun
      exact ⟨h, fun _ => id⟩
    · split at hrun
      · split at hrun
        · cases hrun
        · split at hrun <;> cases hrun
          exact ⟨h, fun _ => hmarker (by simp)⟩
      · simp only at hrun
        split at hrun
        · split at hrun
          · cases hrun
          · split at hrun <;> cases hrun
            refine ⟨h, fun rest hrest => ?_⟩
            generalize (l.indents.takeWhile _).length = closed
            induction closed with
            | zero => exact hrest
            | succ closed ih => exact hmarker (by simp) ih
        · cases hrun

theorem ordered_of_changeIndent_error {column alternative : Nat} {ts : List Token}
    (h : l.Stands text before) (hrun : changeIndent l column alternative = .error ts) :
    Ordered text before ts := by
  have hfault : ∀ fault reported, Ordered text before (l.faultAt fault reported) :=
    ordered_faultAt h
  unfold changeIndent at hrun
  split at hrun
  · cases hrun
    exact hfault _ _
  · split at hrun
    · split at hrun <;> cases hrun
      exact hfault _ _
    · split at hrun
      · split at hrun
        · cases hrun
          exact hfault _ _
        · split at hrun <;> cases hrun
          exact hfault _ _
      · simp only at hrun
        split at hrun
        · split at hrun
          · cases hrun
            exact hfault _ _
          · split at hrun <;> cases hrun
            exact hfault _ _
        · cases hrun
          exact hfault _ _

/-- Behind an indentation come its tokens and those of the line. -/
theorem ordered_behind_indentation {fuel : Nat} (h : l.Stands text before)
    (ih : ∀ {l : Lexer} {before : List Char} {opening blank : Bool}, l.Stands text before →
      Ordered text before (tokensFrom fuel opening blank l))
    (empty : Bool) (column alternative : Nat) :
    Ordered text before (if empty || !l.brackets.isEmpty then tokensFrom fuel false empty l
      else match changeIndent l column alternative with
        | .error ts => ts
        | .ok (ts, l) => ts ++ tokensFrom fuel false false l) := by
  split
  · exact ih h
  · split
    next hchange => exact ordered_of_changeIndent_error h hchange
    next hchange =>
      obtain ⟨hstands, hts⟩ := ordered_of_changeIndent_ok h hchange
      exact hts _ (ih hstands)

theorem ordered_tokensFrom {fuel : Nat} {opening blank : Bool} (h : l.Stands text before) :
    Ordered text before (tokensFrom fuel opening blank l) := by
  induction fuel generalizing l before opening blank with
  | zero =>
    unfold tokensFrom
    exact ordered_faultAt h _ _
  | succ fuel ih =>
    cases opening with
    | true =>
      rw [tokensFrom]
      split
      · exact ordered_faultAt h _ _
      next l' i hrun =>
        obtain ⟨front, hfront, hstands⟩ := stands_indentation h hrun
        refine Ordered.of_passed ?_ hfront
        exact ordered_behind_indentation hstands ih _ _ _
    | false =>
      rw [tokensFrom]
      -- what stands between the tokens is passed first
      have hgap := h.advance (l.rest.takeWhile fun c => c == ' ' || c == '\t' || c == '\x0c').length
      generalize hfront : before ++ l.rest.take _ = front at hgap
      refine Ordered.of_passed ?_ (hfront ▸ List.prefix_append before _)
      generalize l.advance _ = l at hgap
      obtain ⟨above, habove, hcomment⟩ : ∃ above, front <+: above ∧ (if l.rest.head? == some '#'
          then l.advance (l.rest.takeWhile (· != '\n')).length else l).Stands text above := by
        split
        · exact ⟨_, List.prefix_append _ _, hgap.advance _⟩
        · exact ⟨front, List.prefix_rfl, hgap⟩
      refine Ordered.of_passed ?_ habove
      simp only
      generalize (if l.rest.head? == some '#'
          then l.advance (l.rest.takeWhile (· != '\n')).length else l) = l at hcomment
      have hfault : ∀ fault reported, Ordered text above (l.faultAt fault reported) :=
        ordered_faultAt hcomment
      have hnext : ∀ {opening blank : Bool} (n : Nat),
          Ordered text (above ++ l.rest.take n) (tokensFrom fuel opening blank (l.advance n)) :=
        fun n => ih (hcomment.advance n)
      have htoken : ∀ {kind : TokenKind} {n : Nat} {brackets : List Char}, kind ≠ .newline →
          Ordered text above ((tokenOf l kind n).1 ::
            tokensFrom fuel false blank { (tokenOf l kind n).2 with brackets := brackets }) :=
        fun {kind n brackets} hkind => ordered_tokenOf hcomment hkind
          (ih (l := { (tokenOf l kind n).2 with brackets := brackets }) (hcomment.advance n))
      split
      · split
        · exact ordered_cons hcomment rfl rfl (fun h => absurd h (by simp [Lexer.marker]))
            (by simp [Lexer.marker]) (.nil _)
        · exact hfault _ _
      next rest hrest =>
        split
        · exact (hnext 1).of_passed (List.prefix_append _ _)
        · refine .cons List.prefix_rfl (List.prefix_append _ _) (hcomment.advance 1).passed
            hcomment.2 (fun h => absurd h (by simp [Lexer.marker])) (fun _ => ?_) (hnext 1)
          rw [hrest]
          simp
      · split
        · exact hfault _ _
        · exact (hnext 2).of_passed (List.prefix_append _ _)
      · exact hfault _ _
      · split
        · split
          · exact htoken (by simp)
          · exact hfault _ _
        · split
          · split
            · exact htoken (by simp)
            · exact hfault _ _
          · split
            · split
              · exact htoken (by simp)
              · exact hfault _ _
            · split
              · exact hfault _ _
              · split
                · exact hfault _ _
                · exact htoken (by simp)

theorem ordered_tokens (text : List Char) : Ordered text [] (tokens text) :=
  ordered_tokensFrom ⟨rfl, rfl, rfl⟩

end DelayInjection.Python
