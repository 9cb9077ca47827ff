import DelayInjection.Text.Blank
import DelayInjection.Text.Lines

/-! Lines of a text that is put together from others, the blanks around a line, and what a text
contains. -/

namespace DelayInjection.Text

/-! ## Lines -/

theorem splitLines_of_not_mem {t : List Char} (h : '\n' ∉ t) : splitLines t = [t] := by
  induction t with
  | nil => rfl
  | cons c t ih =>
    have hc : c ≠ '\n' := fun e => h (e ▸ List.mem_cons_self)
    rw [splitLines, if_neg hc, ih fun m => h (List.mem_cons_of_mem _ m)]

theorem splitLines_newline (s t : List Char) :
    splitLines (s ++ '\n' :: t) = splitLines s ++ splitLines t := by
  induction s with
  | nil => rfl
  | cons c s ih =>
    rw [List.cons_append, splitLines, splitLines, ih]
    split
    · rfl
    · obtain ⟨l, ls, hs⟩ := List.exists_cons_of_ne_nil (splitLines_ne_nil s)
      rw [hs]
      rfl

theorem splitLines_line {l : List Char} (h : '\n' ∉ l) (t : List Char) :
    splitLines (l ++ '\n' :: t) = l :: splitLines t := by
  rw [splitLines_newline, splitLines_of_not_mem h]
  rfl

theorem joinLines_cons (l : List Char) {ls : List (List Char)} (h : ls ≠ []) :
    joinLines (l :: ls) = l ++ '\n' :: joinLines ls := by
  obtain ⟨m, ms, rfl⟩ := List.exists_cons_of_ne_nil h
  rfl

/-- Joined lines hold the characters of the lines and newlines. -/
theorem count_joinLines {c : Char} (hc : c ≠ '\n') (ls : List (List Char)) :
    (joinLines ls).count c = ls.flatten.count c := by
  induction ls with
  | nil => rfl
  | cons l ls ih =>
    by_cases hls : ls = []
    · subst hls
      simp [joinLines]
    · rw [joinLines_cons l hls, List.count_append, List.count_cons_of_ne hc.symm, ih,
        List.flatten_cons, List.count_append]

@[simp] theorem joinLines_splitLines (t : List Char) : joinLines (splitLines t) = t := by
  induction t with
  | nil => rfl
  | cons c t ih =>
    rw [splitLines]
    split
    next hc => rw [joinLines_cons _ (splitLines_ne_nil t), ih, hc, List.nil_append]
    next hc =>
      obtain ⟨l, ls, hs⟩ := List.exists_cons_of_ne_nil (splitLines_ne_nil t)
      rw [hs] at ih ⊢
      cases ls with
      | nil => exact congrArg (c :: ·) ih
      | cons m ms => exact congrArg (c :: ·) ih

theorem infix_of_mem_splitLines {l t : List Char} (h : l ∈ splitLines t) : l <:+: t := by
  induction t generalizing l with
  | nil => simp_all [splitLines]
  | cons c t ih =>
    rw [splitLines] at h
    split at h
    next hc =>
      rcases List.mem_cons.mp h with rfl | h
      · exact List.nil_infix
      · exact (ih h).trans (List.suffix_cons c t).isInfix
    next hc =>
      obtain ⟨m, ms, hs⟩ := List.exists_cons_of_ne_nil (splitLines_ne_nil t)
      rw [hs] at h
      rcases List.mem_cons.mp h with rfl | h
      · have hm : m <+: t := by
          have ht := joinLines_splitLines t
          rw [hs] at ht
          cases ms with
          | nil => exact ⟨[], by simpa [joinLines] using ht⟩
          | cons n ns => exact ⟨_, by rwa [joinLines_cons _ (by simp)] at ht⟩
        exact (List.prefix_cons_inj c |>.mpr hm).isInfix
      · exact (ih (hs ▸ List.mem_cons_of_mem _ h)).trans (List.suffix_cons c t).isInfix

theorem newline_not_mem_of_mem_splitLines {l t : List Char} (h : l ∈ splitLines t) : '\n' ∉ l := by
  induction t generalizing l with
  | nil =>
    rw [splitLines, List.mem_singleton] at h
    simp [h]
  | cons c t ih =>
    rw [splitLines] at h
    split at h
    next hc =>
      rcases List.mem_cons.mp h with rfl | h
      · exact List.not_mem_nil
      · exact ih h
    next hc =>
      obtain ⟨m, ms, hs⟩ := List.exists_cons_of_ne_nil (splitLines_ne_nil t)
      rw [hs] at h
      rcases List.mem_cons.mp h with rfl | h
      · have hm : '\n' ∉ m := ih (hs ▸ List.mem_cons_self)
        simpa [hm] using Ne.symm hc
      · exact ih (hs ▸ List.mem_cons_of_mem _ h)

/-- Splitting takes joined lines apart again. -/
theorem splitLines_joinLines {ls : List (List Char)} (hne : ls ≠ []) (h : ∀ l ∈ ls, '\n' ∉ l) :
    splitLines (joinLines ls) = ls := by
  induction ls with
  | nil => exact absurd rfl hne
  | cons l ls ih =>
    have hl : '\n' ∉ l := h l List.mem_cons_self
    cases ls with
    | nil =>
      have hjoin : joinLines [l] = l := by simp [joinLines]
      rw [hjoin, splitLines_of_not_mem hl]
    | cons m ms =>
      rw [joinLines_cons l (by simp), splitLines_line hl,
        ih (by simp) fun n hn => h n (List.mem_cons_of_mem _ hn)]

theorem length_splitLines (t : List Char) : (splitLines t).length = t.count '\n' + 1 := by
  induction t with
  | nil => rfl
  | cons c t ih =>
    rw [splitLines]
    split
    next hc => rw [List.length_cons, ih, hc, List.count_cons_self]
    next hc =>
      obtain ⟨l, ls, hs⟩ := List.exists_cons_of_ne_nil (splitLines_ne_nil t)
      rw [List.count_cons_of_ne hc, ← ih, hs]
      rfl

/-- A line starts behind the text. -/
def EndsLine (t : List Char) : Prop := t = [] ∨ ∃ s, t = s ++ ['\n']

theorem splitLines_append {s : List Char} (h : EndsLine s) (t : List Char) :
    splitLines (s ++ t) = (splitLines s).dropLast ++ splitLines t := by
  rcases h with rfl | ⟨s, rfl⟩
  · rfl
  · rw [List.append_assoc, List.singleton_append, splitLines_newline, splitLines_newline]
    simp [splitLines]

/-- What stands behind the last newline. -/
def lastLine (t : List Char) : List Char := (t.reverse.takeWhile (· != '\n')).reverse

theorem newline_not_mem_lastLine (t : List Char) : '\n' ∉ lastLine t := by
  intro h
  rw [lastLine, List.mem_reverse] at h
  simpa using (List.all_eq_true.mp List.all_takeWhile) _ h

theorem exists_eq_append_lastLine (t : List Char) : ∃ s, t = s ++ lastLine t ∧ EndsLine s := by
  refine ⟨(t.reverse.dropWhile (· != '\n')).reverse, ?_, ?_⟩
  · rw [lastLine, ← List.reverse_append, List.takeWhile_append_dropWhile, List.reverse_reverse]
  · rcases hd : t.reverse.dropWhile (· != '\n') with _ | ⟨c, r⟩
    · exact .inl rfl
    · have hc : ¬(c != '\n') = true := by
        have hne : t.reverse.dropWhile (· != '\n') ≠ [] := by simp [hd]
        simpa [hd] using List.head_dropWhile_not (· != '\n') hne
      exact .inr ⟨r.reverse, by simp_all⟩

theorem lastLine_append_of_endsLine {s t : List Char} (hs : EndsLine s) (ht : '\n' ∉ t) :
    lastLine (s ++ t) = t := by
  have hall : ∀ c ∈ t.reverse, (c != '\n') = true := fun c hc => by
    simpa using fun e : c = '\n' => ht (e ▸ List.mem_reverse.mp hc)
  rw [lastLine, List.reverse_append, List.takeWhile_append_of_pos hall]
  rcases hs with rfl | ⟨s, rfl⟩ <;> simp

theorem lastLine_append_of_mem {s t : List Char} (h : '\n' ∈ t) :
    lastLine (s ++ t) = lastLine t := by
  obtain ⟨u, hu, hends⟩ := exists_eq_append_lastLine t
  have hends' : EndsLine (s ++ u) := by
    rcases hends with rfl | ⟨v, rfl⟩
    · rw [List.nil_append] at hu
      exact absurd (hu ▸ h) (newline_not_mem_lastLine t)
    · exact .inr ⟨s ++ v, by simp⟩
  calc lastLine (s ++ t) = lastLine (s ++ u ++ lastLine t) := by rw [List.append_assoc, ← hu]
    _ = lastLine t := lastLine_append_of_endsLine hends' (newline_not_mem_lastLine t)

theorem lastLine_append_of_not_mem {s t : List Char} (h : '\n' ∉ t) :
    lastLine (s ++ t) = lastLine s ++ t := by
  obtain ⟨u, hu, hends⟩ := exists_eq_append_lastLine s
  have hline : '\n' ∉ lastLine s ++ t := fun m =>
    (List.mem_append.mp m).elim (newline_not_mem_lastLine s) h
  calc lastLine (s ++ t) = lastLine (u ++ (lastLine s ++ t)) := by rw [← List.append_assoc, ← hu]
    _ = lastLine s ++ t := lastLine_append_of_endsLine hends hline

theorem lastLine_of_not_mem {t : List Char} (h : '\n' ∉ t) : lastLine t = t :=
  lastLine_append_of_endsLine (s := []) (.inl rfl) h

/-- The last line of a text with more behind it brings no other character than the two last lines. -/
theorem not_mem_lastLine_append {s t : List Char} {c : Char} (hs : c ∉ lastLine s)
    (ht : c ∉ lastLine t) : c ∉ lastLine (s ++ t) := by
  by_cases hnewline : '\n' ∈ t
  · rwa [lastLine_append_of_mem hnewline]
  · rw [lastLine_of_not_mem hnewline] at ht
    rw [lastLine_append_of_not_mem hnewline, List.mem_append, not_or]
    exact ⟨hs, ht⟩

theorem mem_lastLine_append {s t : List Char} {c : Char} (h : c ∈ lastLine t) :
    c ∈ lastLine (s ++ t) := by
  by_cases hnewline : '\n' ∈ t
  · rwa [lastLine_append_of_mem hnewline]
  · rw [lastLine_of_not_mem hnewline] at h
    rw [lastLine_append_of_not_mem hnewline]
    exact List.mem_append_right _ h

theorem lastLine_mem_splitLines (t : List Char) : lastLine t ∈ splitLines t := by
  obtain ⟨above, habove, hends⟩ := exists_eq_append_lastLine t
  conv in splitLines t => rw [habove]
  rw [splitLines_append hends, splitLines_of_not_mem (newline_not_mem_lastLine t)]
  exact List.mem_append_right _ (List.mem_singleton_self _)

/-! ## The byte order mark -/

theorem splitMark_append (t : List Char) : (splitMark t).1 ++ (splitMark t).2 = t := by
  cases t with
  | nil => rfl
  | cons c t =>
    rw [splitMark]
    split <;> rfl

theorem splitMark_cases (t : List Char) :
    (splitMark t).1 = [mark] ∨ ((splitMark t).1 = [] ∧ (splitMark t).2.head? ≠ some mark) := by
  cases t with
  | nil => exact .inr ⟨rfl, by simp [splitMark]⟩
  | cons c t =>
    rw [splitMark]
    split
    next h => exact .inl (by rw [h])
    next h => exact .inr ⟨rfl, by simpa using h⟩

theorem splitMark_of_cases {front t : List Char}
    (h : front = [mark] ∨ (front = [] ∧ t.head? ≠ some mark)) : splitMark (front ++ t) = (front, t) := by
  rcases h with rfl | ⟨rfl, h⟩
  · rfl
  · cases t with
    | nil => rfl
    | cons c t => exact if_neg (by simpa using h)

/-- Joined lines start with the mark only if the first line does. -/
theorem head?_joinLines_ne_mark {ls : List (List Char)} (h : ∀ l ∈ ls.head?, l.head? ≠ some mark) :
    (joinLines ls).head? ≠ some mark := by
  cases ls with
  | nil => simp [joinLines]
  | cons l ls =>
    have hl : l.head? ≠ some mark := h l rfl
    cases ls with
    | nil => simpa [joinLines] using hl
    | cons m ms =>
      rw [joinLines_cons l (by simp)]
      cases l with
      | nil => exact (by decide : some '\n' ≠ some mark)
      | cons c l => exact hl

/-! ## Blanks around a line -/

theorem strip_of_blank_append {s t : List Char} (hs : ∀ c ∈ s, isBlank c = true)
    (hhead : ∀ c ∈ t.head?, isBlank c = false) (hlast : ∀ c ∈ t.getLast?, isBlank c = false) :
    strip (s ++ t) = t := by
  have hdrop : ∀ u : List Char, (∀ c ∈ u.head?, isBlank c = false) → u.dropWhile isBlank = u := by
    intro u hu
    cases u with
    | nil => rfl
    | cons c u => exact List.dropWhile_cons_of_neg (by simp [hu c rfl])
  rw [strip, List.dropWhile_append_of_pos hs, hdrop t hhead, hdrop t.reverse, List.reverse_reverse]
  simpa using hlast

theorem strip_infix (t : List Char) : strip t <:+: t := by
  have h1 : (t.dropWhile isBlank).reverse.dropWhile isBlank <:+ (t.dropWhile isBlank).reverse :=
    List.dropWhile_suffix _
  have h2 : strip t <+: t.dropWhile isBlank := by
    simpa [strip] using List.reverse_prefix.mpr h1
  exact h2.isInfix.trans (List.dropWhile_suffix _).isInfix

/-! ## Code on a line -/

/-- The six blanks of ASCII, which are one byte each. -/
def isAsciiBlank (c : Char) : Bool := c.toNat == 32 || (9 ≤ c.toNat && c.toNat ≤ 13)

/-- The text holds more than blanks. -/
def Inked (t : List Char) : Prop := ∃ c ∈ t, isAsciiBlank c = false

theorem Inked.append_right {s t : List Char} (h : Inked s) : Inked (s ++ t) := by
  obtain ⟨c, hc, hb⟩ := h
  exact ⟨c, List.mem_append_left _ hc, hb⟩

theorem not_inked_nil : ¬Inked [] := fun ⟨_, hc, _⟩ => nomatch hc

theorem inked_iff_any {t : List Char} : Inked t ↔ (t.any fun c => !isAsciiBlank c) = true := by
  simp [Inked]

/-! ## What a text contains -/

theorem containsPart_iff {α : Type} [BEq α] [LawfulBEq α] {t part : List α} :
    containsPart t part = true ↔ part <:+: t := by
  induction t with
  | nil => simp [containsPart, List.infix_nil, List.prefix_nil]
  | cons c t ih => rw [containsPart, Bool.or_eq_true, ih, List.isPrefixOf_iff_prefix, List.infix_cons_iff]

theorem contains_iff {t part : List Char} : contains t part = true ↔ part <:+: t := containsPart_iff

theorem contains_eq_false_of_not_mem {t part : List Char} {c : Char} (hc : c ∈ part)
    (h : c ∉ t) : contains t part = false := by
  rw [← Bool.not_eq_true, contains_iff]
  exact fun hp => h (hp.subset hc)

/-- A part without blanks that stands in two texts with a blank in between stands in one of them. -/
theorem infix_append_cons {part s t : List Char} {b : Char} (hb : b ∉ part)
    (h : part <:+: s ++ b :: t) : part <:+: s ∨ part <:+: t := by
  obtain ⟨u, v, huv⟩ := h
  rw [List.append_assoc] at huv
  rcases List.append_eq_append_iff.mp huv with ⟨w, hs, hw⟩ | ⟨w, hu, hw⟩
  · rcases List.append_eq_append_iff.mp hw with ⟨x, hx, -⟩ | ⟨x, hx, hv⟩
    · exact .inl ⟨u, x, by rw [hs, hx]; simp⟩
    · cases x with
      | nil => exact .inl ⟨u, [], by rw [hs, hx]; simp⟩
      | cons d x =>
        rw [List.cons_append, List.cons.injEq] at hv
        exact absurd (hx ▸ hv.1 ▸ by simp : b ∈ part) hb
  · cases w with
    | nil =>
      rw [List.nil_append] at hw
      cases part with
      | nil => exact .inl List.nil_infix
      | cons d part =>
        rw [List.cons_append, List.cons.injEq] at hw
        exact absurd (hw.1 ▸ List.mem_cons_self) hb
    | cons d w =>
      rw [List.cons_append, List.cons.injEq] at hw
      exact .inr ⟨w, v, by rw [List.append_assoc]; exact hw.2.symm⟩

/-- So is it behind any number of such characters. -/
theorem infix_of_append {part s t : List Char} (hpart : part ≠ []) (hs : ∀ c ∈ s, c ∉ part)
    (h : part <:+: s ++ t) : part <:+: t := by
  induction s with
  | nil => exact h
  | cons c s ih =>
    rcases infix_append_cons (s := []) (hs c List.mem_cons_self) h with h | h
    · exact absurd (List.infix_nil.mp h) hpart
    · exact ih (fun d hd => hs d (List.mem_cons_of_mem _ hd)) h

/-- A part without newlines that stands in joined lines stands in one of them. -/
theorem exists_infix_of_joinLines {part : List Char} {ls : List (List Char)} (hpart : part ≠ [])
    (hnewline : '\n' ∉ part) (h : part <:+: joinLines ls) : ∃ l ∈ ls, part <:+: l := by
  induction ls with
  | nil => exact absurd (List.infix_nil.mp h) hpart
  | cons l ls ih =>
    cases ls with
    | nil => exact ⟨l, List.mem_singleton_self l, by simpa [joinLines] using h⟩
    | cons m ms =>
      rw [joinLines_cons l (by simp)] at h
      rcases infix_append_cons hnewline h with h | h
      · exact ⟨l, List.mem_cons_self, h⟩
      · obtain ⟨n, hn, hpart⟩ := ih h
        exact ⟨n, List.mem_cons_of_mem _ hn, hpart⟩

/-- Blanks around a line hold no part of what has none. -/
theorem infix_strip {part t : List Char} (hpart : part ≠ []) (hink : ∀ c ∈ part, isBlank c = false)
    (h : part <:+: t) : part <:+: strip t := by
  have hdrop : ∀ {p u : List Char}, p ≠ [] → (∀ c ∈ p, isBlank c = false) → p <:+: u →
      p <:+: u.dropWhile isBlank := by
    intro p u hp hp' hu
    rw [← List.takeWhile_append_dropWhile (p := isBlank) (l := u)] at hu
    refine infix_of_append hp (fun c hc hmem => ?_) hu
    exact Bool.eq_false_iff.mp (hp' c hmem) (List.all_eq_true.mp List.all_takeWhile c hc)
  rw [strip, ← List.reverse_infix, List.reverse_reverse]
  refine hdrop (by simpa using hpart) (fun c hc => hink c (List.mem_reverse.mp hc)) ?_
  exact List.reverse_infix.mpr (hdrop hpart hink h)

end DelayInjection.Text
