import DelayInjection.Proofs.Python.Step

/-! Runs of the lexer of Python. A run to the start of a line depends on nothing that stands below. -/

namespace DelayInjection.Python

namespace Scanner

variable {s s' s'' : Scanner} {ts ts' : List Token} {u u' : List Char}

/-! ## Every step passes something -/

/-- What is left to do: two steps for each character, and one to open a line. -/
def weight (s : Scanner) : Nat := 2 * s.lexer.rest.length + if s.opening then 1 else 0

theorem exists_move (h : s.step = .ok (ts, s')) :
    ∃ u, s.lexer.Passes u s'.lexer ∧ s.Move s' u ts ∧ s.Follows u ts s' ∧
      (s.opening = false → u ≠ []) := by
  cases hs : s.opening with
  | true =>
    obtain ⟨u, hpasses, hmove, hfollows⟩ := of_step_opening hs h
    exact ⟨u, hpasses, hmove, hfollows, fun h => nomatch h⟩
  | false =>
    obtain ⟨u, hne, hpasses, hmove, hfollows⟩ := of_step_within hs h
    exact ⟨u, hpasses, hmove, hfollows, fun _ => hne⟩

theorem weight_lt (h : s.step = .ok (ts, s')) : s'.weight < s.weight := by
  obtain ⟨u, hpasses, hmove, -, hne⟩ := exists_move h
  rw [weight, weight, hpasses.rest, List.length_append]
  cases hs : s.opening with
  | true =>
    have hs' : s'.opening = false := by
      cases hmove <;> simp_all
    rw [hs', if_neg Bool.false_ne_true, if_pos rfl]
    omega
  | false =>
    have hpos := List.length_pos_iff.mpr (hne hs)
    split <;> simp <;> omega

theorem tokens_eq_of_weight_lt {fuel fuel' : Nat} (h : s.weight < fuel) (h' : s.weight < fuel') :
    s.tokens fuel = s.tokens fuel' := by
  induction fuel generalizing s fuel' with
  | zero => omega
  | succ fuel ih =>
    obtain ⟨fuel', rfl⟩ : ∃ n, fuel' = n + 1 := ⟨fuel' - 1, by omega⟩
    rw [tokens_succ, tokens_succ]
    cases hstep : s.step with
    | error ts => rfl
    | ok run =>
      obtain ⟨ts, s'⟩ := run
      have hlt := weight_lt hstep
      simp only [@ih s' fuel' (by omega) (by omega)]

/-- All tokens from here on. -/
def all (s : Scanner) : List Token := s.tokens (s.weight + 1)

theorem all_of_step (h : s.step = .ok (ts, s')) : s.all = ts ++ s'.all := by
  have hlt := weight_lt h
  rw [all, tokens_succ, h, all, ← tokens_eq_of_weight_lt hlt (Nat.lt_succ_self _)]

theorem all_of_stop (h : s.step = .error ts) : s.all = ts := by
  rw [all, tokens_succ, h]

theorem tokens_eq_all (text : List Char) : Python.tokens text = (start text).all :=
  tokens_eq_of_weight_lt (s := start text) (by simp [weight, start, Lexer.start]) (Nat.lt_succ_self _)

/-! ## Runs -/

/-- The scanner comes from `s` to `s'`, passes `u`, and makes the tokens `ts`. -/
inductive Run : Scanner → List Char → List Token → Scanner → Prop
  | refl (s : Scanner) : Run s [] [] s
  | step {s s' s'' : Scanner} {u u' : List Char} {ts ts' : List Token} (h : s.step = .ok (ts, s'))
    (hu : s.lexer.Passes u s'.lexer) (hrest : Run s' u' ts' s'') : Run s (u ++ u') (ts ++ ts') s''

namespace Run

theorem single (h : s.step = .ok (ts, s')) (hu : s.lexer.Passes u s'.lexer) : Run s u ts s' := by
  have hrun := Run.step h hu (.refl s')
  rwa [List.append_nil, List.append_nil] at hrun

theorem trans (h : Run s u ts s') (h' : Run s' u' ts' s'') : Run s (u ++ u') (ts ++ ts') s'' := by
  induction h with
  | refl => exact h'
  | step h hu hrest ih =>
    rw [List.append_assoc, List.append_assoc]
    exact .step h hu (ih h')

theorem passes (h : Run s u ts s') : s.lexer.Passes u s'.lexer := by
  induction h with
  | refl s => exact ⟨rfl, rfl⟩
  | step _ hu _ ih => exact hu.trans ih

theorem all_eq (h : Run s u ts s') : s.all = ts ++ s'.all := by
  induction h with
  | refl => rfl
  | step h _ _ ih => rw [all_of_step h, ih, List.append_assoc]

/-- Only behind the end of a line does a line start. -/
theorem newline_mem (h : Run s u ts s') (hs : s.opening = false) (hs' : s'.opening = true) :
    '\n' ∈ u := by
  induction h with
  | refl => rw [hs] at hs'; cases hs'
  | @step s s₁ s' v v' us us' h hu hrest ih =>
    obtain ⟨w, hpasses, hmove, -, -⟩ := exists_move h
    have hw : w = v := List.append_cancel_right (hpasses.rest.symm.trans hu.rest)
    subst hw
    cases hs₁ : s₁.opening with
    | false => exact List.mem_append_right _ (ih hs₁ hs')
    | true =>
      refine List.mem_append_left _ ?_
      cases hmove with
      | indent hs'' => rw [hs] at hs''; cases hs''
      | blank _ _ _ _ hu => rw [hu]; simp
      | ended _ _ _ hu => rw [hu]; simp
      | joined _ hs'' => rw [hs₁] at hs''; cases hs''
      | token _ hs'' => rw [hs₁] at hs''; cases hs''

end Run

/-- Where a line starts, nothing is known of it yet. -/
theorem blank_of_step (h : s.step = .ok (ts, s')) (hs' : s'.opening = true) : s'.blank = false := by
  cases hs : s.opening with
  | true =>
    obtain ⟨u, -, hmove, -⟩ := of_step_opening hs h
    cases hmove with
    | indent _ h₁ => rw [h₁] at hs'; cases hs'
    | blank h₁ => rw [hs] at h₁; cases h₁
    | ended h₁ => rw [hs] at h₁; cases h₁
    | joined h₁ => rw [hs] at h₁; cases h₁
    | token h₁ => rw [hs] at h₁; cases h₁
  | false =>
    rw [step, if_neg (by rw [hs]; exact Bool.false_ne_true), pass] at h
    split at h <;> cases h
    · rfl
    · cases hs'
    · cases hs'

/-- A line starts where the text does, or behind the end of another line. -/
theorem Run.opening_cases (h : Run s u ts s') (hs' : s'.opening = true) :
    (s' = s ∧ u = []) ∨ ((∃ v, u = v ++ ['\n']) ∧ s'.blank = false) := by
  induction h with
  | refl => exact .inl ⟨rfl, rfl⟩
  | @step s s₁ s' v v' us us' h hu _ ih =>
    rcases ih hs' with ⟨rfl, rfl⟩ | ⟨⟨w, rfl⟩, hblank⟩
    · obtain ⟨x, hpasses, hmove, -⟩ := exists_move h
      obtain rfl := List.append_cancel_right (hpasses.rest.symm.trans hu.rest)
      refine .inr ⟨?_, blank_of_step h hs'⟩
      rw [List.append_nil]
      cases hmove with
      | indent _ h₁ => rw [h₁] at hs'; cases hs'
      | blank _ _ _ _ hu => exact ⟨_, hu⟩
      | ended _ _ _ hu => exact ⟨_, hu⟩
      | joined _ h₁ => rw [h₁] at hs'; cases hs'
      | token _ h₁ => rw [h₁] at hs'; cases hs'
    · exact .inr ⟨⟨v ++ w, (List.append_assoc _ _ _).symm⟩, hblank⟩

theorem SameLine.of_mem {u : List Char} (h : '\n' ∈ u) (v w : List Char) :
    SameLine (u ++ v) (u ++ w) := by
  obtain ⟨front, back, rfl⟩ := List.append_of_mem h
  rw [List.append_assoc, List.append_assoc]
  exact SameLine.append front (.ended _ _)

/-- To the start of a line the same run leads whatever stands below, and to any place in a line whatever
stands below that line. -/
theorem Run.follow (h : Run s u ts s') {s₂ : Scanner} {w : List Char}
    (hw : s'.opening = true ∨ SameLine s'.lexer.rest w) (hs₂ : s.Alike s₂)
    (hrest₂ : s₂.lexer.rest = u ++ w) :
    ∃ ts₂ s₂', Run s₂ u ts₂ s₂' ∧ ts₂.map Token.word = ts.map Token.word ∧ s'.Alike s₂' ∧
      s₂'.lexer.rest = w := by
  induction h generalizing s₂ with
  | refl => exact ⟨[], s₂, .refl s₂, rfl, hs₂, hrest₂⟩
  | @step s s₁ s' v v' us us' h hu hrest ih =>
    obtain ⟨x, hpasses, -, hfollows, -⟩ := exists_move h
    have hx : x = v := List.append_cancel_right (hpasses.rest.symm.trans hu.rest)
    subst hx
    rw [List.append_assoc] at hrest₂
    obtain ⟨us₂, s₁₂, hstep₂, hwords, hs₁₂, hrest₁₂⟩ := hfollows hs₂ hrest₂ (by
      rw [hrest.passes.rest]
      cases hs₁ : s₁.opening with
      | true => exact .inl rfl
      | false =>
        exact .inr (hw.elim (fun hs' => SameLine.of_mem (hrest.newline_mem hs₁ hs') _ _) (·.append v')))
    obtain ⟨us₂', s₂', hrun₂, hwords', hs₂', hrest'⟩ := ih hw hs₁₂ hrest₁₂
    refine ⟨us₂ ++ us₂', s₂', .step hstep₂ ?_ hrun₂, by simp [hwords, hwords'], hs₂', hrest'⟩
    obtain ⟨y, hpasses₂, -⟩ := exists_move hstep₂
    have hy : y = x := List.append_cancel_right
      (hpasses₂.rest.symm.trans (hrest₂.trans (by rw [hrest₁₂])))
    exact hy ▸ hpasses₂

end Scanner
end DelayInjection.Python
