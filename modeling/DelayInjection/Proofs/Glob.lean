import DelayInjection.Glob

/-! Patterns that take a folder with its slash. Where the slash is taken by stars, they go on over
everything below the folder. A slash that stands for itself takes nothing more, so it must not be last,
and a single star behind it takes the files of the folder but not of the folders in it. -/

namespace DelayInjection.Glob

variable {t : Token} {ts : List Token} {text rest : List Char}

/-! ## What tokens leave -/

theorem mem_behindRuns_iff {stop : Char} : rest ∈ behindRuns (· == stop) text ↔
    ∃ run, text = run ++ rest ∧ stop ∉ run := by
  induction text with
  | nil =>
    rw [behindRuns, List.mem_singleton]
    constructor
    · rintro rfl
      exact ⟨[], rfl, List.not_mem_nil⟩
    · rintro ⟨run, hrun, -⟩
      exact (List.append_eq_nil_iff.mp hrun.symm).2
  | cons c text ih =>
    rw [behindRuns, List.mem_cons]
    constructor
    · rintro (rfl | h)
      · exact ⟨[], rfl, List.not_mem_nil⟩
      · split at h
        next => cases h
        next hc =>
          obtain ⟨run, rfl, hrun⟩ := ih.mp h
          refine ⟨c :: run, rfl, List.not_mem_cons_of_ne_of_not_mem (fun heq => hc ?_) hrun⟩
          exact beq_iff_eq.mpr heq.symm
    · rintro ⟨run, hrun, hstop⟩
      cases run with
      | nil => exact .inl hrun.symm
      | cons d run =>
        obtain ⟨rfl, rfl⟩ := List.cons.inj hrun
        rw [if_neg fun heq => List.ne_of_not_mem_cons hstop (beq_iff_eq.mp heq).symm]
        exact .inr (ih.mpr ⟨run, rfl, List.not_mem_of_not_mem_cons hstop⟩)

theorem mem_behindSlashes_iff : rest ∈ behindSlashes text ↔
    ∃ run, text = run ++ '/' :: rest ∧ '\n' ∉ run := by
  induction text with
  | nil => simp [behindSlashes]
  | cons c text ih =>
    rw [behindSlashes]
    by_cases hline : c = '\n'
    · rw [if_pos hline]
      refine iff_of_false (List.not_mem_nil) ?_
      rintro ⟨run, hrun, hnot⟩
      cases run with
      | nil => exact absurd (hline.symm.trans (List.cons.inj hrun).1) (by decide)
      | cons d run => exact hnot (hline ▸ (List.cons.inj hrun).1 ▸ List.mem_cons_self)
    · have hstep : rest ∈ behindSlashes text ↔
          ∃ run, c :: text = (c :: run) ++ '/' :: rest ∧ '\n' ∉ c :: run := by
        rw [ih]
        simp [Ne.symm hline]
      rw [if_neg hline]
      constructor
      · intro h
        split at h
        next hslash =>
          rcases List.mem_cons.mp h with rfl | h
          · exact ⟨[], by rw [hslash]; rfl, List.not_mem_nil⟩
          · obtain ⟨run, hrun⟩ := hstep.mp h
            exact ⟨c :: run, hrun⟩
        next =>
          obtain ⟨run, hrun⟩ := hstep.mp h
          exact ⟨c :: run, hrun⟩
      · rintro ⟨run, hrun, hnot⟩
        cases run with
        | nil =>
          obtain ⟨rfl, rfl⟩ := List.cons.inj hrun
          rw [if_pos rfl]
          exact List.mem_cons_self
        | cons d run =>
          obtain ⟨rfl, -⟩ := List.cons.inj hrun
          have hmem := hstep.mpr ⟨run, hrun, hnot⟩
          split
          · exact List.mem_cons_of_mem _ hmem
          · exact hmem

namespace Token

theorem mem_rests_folders : rest ∈ folders.rests text ↔
    rest = text ∨ ∃ run, text = run ++ '/' :: rest ∧ '\n' ∉ run := by
  rw [rests, List.mem_cons, mem_behindSlashes_iff]

theorem mem_rests_anything :
    rest ∈ anything.rests text ↔ ∃ run, text = run ++ rest ∧ '\n' ∉ run :=
  mem_behindRuns_iff

theorem mem_rests_segment :
    rest ∈ segment.rests text ↔ ∃ run, text = run ++ rest ∧ '/' ∉ run :=
  mem_behindRuns_iff

theorem mem_rests_one : rest ∈ one.rests text ↔ ∃ c, text = c :: rest ∧ c ≠ '/' := by
  cases text with
  | nil => simp [rests]
  | cons c text =>
    by_cases hc : c = '/'
    · simp [rests, hc]
    · rw [rests, if_neg hc, List.mem_singleton]
      constructor
      · rintro rfl
        exact ⟨c, rfl, hc⟩
      · rintro ⟨d, heq, -⟩
        exact (List.cons.inj heq).2.symm

theorem mem_rests_literal {d : Char} : rest ∈ (literal d).rests text ↔ text = d :: rest := by
  cases text with
  | nil => simp [rests]
  | cons c text =>
    by_cases hc : c = d
    · simp [rests, hc, eq_comm]
    · simp [rests, hc]

theorem suffix_of_mem_rests (h : rest ∈ t.rests text) : rest <:+ text := by
  cases t with
  | folders =>
    rcases mem_rests_folders.mp h with rfl | ⟨run, rfl, -⟩
    · exact List.suffix_refl rest
    · exact (List.suffix_cons '/' rest).trans (List.suffix_append run _)
  | anything =>
    obtain ⟨run, rfl, -⟩ := mem_rests_anything.mp h
    exact List.suffix_append run rest
  | segment =>
    obtain ⟨run, rfl, -⟩ := mem_rests_segment.mp h
    exact List.suffix_append run rest
  | one =>
    obtain ⟨c, rfl, -⟩ := mem_rests_one.mp h
    exact List.suffix_cons c rest
  | literal d =>
    obtain rfl := mem_rests_literal.mp h
    exact List.suffix_cons d rest

/-- What stands further behind is left as well. -/
theorem rests_append (h : rest ∈ t.rests text) (more : List Char) :
    rest ++ more ∈ t.rests (text ++ more) := by
  cases t with
  | folders =>
    refine mem_rests_folders.mpr ((mem_rests_folders.mp h).imp (congrArg (· ++ more)) ?_)
    rintro ⟨run, rfl, hrun⟩
    exact ⟨run, by simp, hrun⟩
  | anything =>
    obtain ⟨run, rfl, hrun⟩ := mem_rests_anything.mp h
    exact mem_rests_anything.mpr ⟨run, List.append_assoc run rest more, hrun⟩
  | segment =>
    obtain ⟨run, rfl, hrun⟩ := mem_rests_segment.mp h
    exact mem_rests_segment.mpr ⟨run, List.append_assoc run rest more, hrun⟩
  | one =>
    obtain ⟨c, rfl, hc⟩ := mem_rests_one.mp h
    exact mem_rests_one.mpr ⟨c, rfl, hc⟩
  | literal d =>
    obtain rfl := mem_rests_literal.mp h
    exact mem_rests_literal.mpr rfl

end Token

theorem accepts_cons : accepts (t :: ts) text = true ↔ ∃ r ∈ t.rests text, accepts ts r = true :=
  List.any_eq_true

/-! ## Stars -/

/-- Any token made of stars. -/
def Token.isWild : Token → Bool
  | folders | anything | segment => true
  | one | literal _ => false

/-- A token made of two stars, which goes over slashes but not over line breaks. -/
def Token.isDouble : Token → Bool
  | folders | anything => true
  | segment | one | literal _ => false

/-- A star may stand for nothing. -/
theorem mem_rests_self (h : t.isWild = true) (text : List Char) : text ∈ t.rests text := by
  cases t with
  | folders => exact Token.mem_rests_folders.mpr (.inl rfl)
  | anything => exact Token.mem_rests_anything.mpr ⟨[], rfl, List.not_mem_nil⟩
  | segment => exact Token.mem_rests_segment.mpr ⟨[], rfl, List.not_mem_nil⟩
  | one => cases h
  | literal d => cases h

theorem accepts_nil (ts : List Token) : accepts ts [] = ts.all Token.isWild := by
  induction ts with
  | nil => rfl
  | cons t ts ih =>
    rw [accepts, List.all_cons, ← ih]
    cases t with
    | folders => exact Bool.or_false _
    | anything => exact Bool.or_false _
    | segment => exact Bool.or_false _
    | one => rfl
    | literal d => rfl

/-- Two stars take whatever stands on one line. -/
theorem nil_mem_rests_anything (h : '\n' ∉ text) : [] ∈ Token.anything.rests text :=
  Token.mem_rests_anything.mpr ⟨text, (List.append_nil text).symm, h⟩

/-- Stars take a name, if the last of them is no folder's. -/
theorem accepts_name (hne : ts ≠ []) (hwild : ts.all Token.isWild = true)
    (hlast : ¬[Token.folders] <:+ ts) (hname : '/' ∉ text)
    (hline : ts.any Token.isDouble = true → '\n' ∉ text) : accepts ts text = true := by
  induction ts with
  | nil => exact absurd rfl hne
  | cons t ts ih =>
    rw [List.all_cons, Bool.and_eq_true] at hwild
    rw [List.any_cons, Bool.or_eq_true] at hline
    by_cases hnil : ts = []
    · subst hnil
      refine accepts_cons.mpr ⟨[], ?_, rfl⟩
      cases t with
      | folders => exact absurd (List.suffix_refl _) hlast
      | anything => exact nil_mem_rests_anything (hline (.inl rfl))
      | segment => exact Token.mem_rests_segment.mpr ⟨text, (List.append_nil text).symm, hname⟩
      | one => cases hwild.1
      | literal d => cases hwild.1
    · refine accepts_cons.mpr ⟨text, mem_rests_self hwild.1 text, ?_⟩
      exact ih hnil hwild.2 (fun h => hlast (h.trans (List.suffix_cons t ts)))
        fun h => hline (.inr h)

theorem exists_folder_name (text : List Char) : ∃ name, '/' ∉ name ∧
    (text = name ∨ ∃ folder, text = folder ++ '/' :: name) := by
  by_cases hslash : '/' ∈ text
  · obtain ⟨name, folder, hsplit, hname⟩ := List.eq_append_cons_of_mem (List.mem_reverse.mpr hslash)
    refine ⟨name.reverse, by simpa using hname, .inr ⟨folder.reverse, ?_⟩⟩
    rw [← List.reverse_reverse text, hsplit]
    simp
  · exact ⟨text, hslash, .inl rfl⟩

/-! ## Folders and what is below them -/

/-- A slash that stands for itself, and a single star behind it, end the pattern. -/
def EndsInStar (ts : List Token) : Prop := [.literal '/', .segment] <:+ ts

/-- The end of the pattern goes on over what is below a folder, and no two stars in a row are read
as two single ones. -/
structure Covers (ts : List Token) : Prop where
  slash : ¬[Token.literal '/'] <:+ ts
  folders : ¬[Token.folders] <:+ ts
  star : ¬EndsInStar ts
  single : ∀ u : Token, u.isWild = true → ¬[.segment, u] <:+: ts

theorem Covers.tail (h : Covers (t :: ts)) : Covers ts where
  slash hs := h.slash (hs.trans (List.suffix_cons t ts))
  folders hs := h.folders (hs.trans (List.suffix_cons t ts))
  star hs := h.star (List.IsSuffix.trans hs (List.suffix_cons t ts))
  single u hu hs := h.single u hu (hs.trans (List.suffix_cons t ts).isInfix)

/-- Stars that go on over slashes take everything. -/
theorem Covers.accepts_of_wild (h : Covers ts) (hne : ts ≠ []) (hstar : ts ≠ [.segment])
    (hwild : ts.all Token.isWild = true) (hline : ts.any Token.isDouble = true → '\n' ∉ text) :
    accepts ts text = true := by
  obtain ⟨t, ts, rfl⟩ := List.exists_cons_of_ne_nil hne
  have hwild' := hwild
  rw [List.all_cons, Bool.and_eq_true] at hwild'
  cases t with
  | folders =>
    have hne' : ts ≠ [] := fun hnil => h.folders (hnil ▸ List.suffix_refl _)
    have hnot : '\n' ∉ text := hline rfl
    obtain ⟨name, hname, htext⟩ := exists_folder_name text
    have hrest : name ∈ Token.folders.rests text ∧ '\n' ∉ name := by
      rcases htext with rfl | ⟨folder, rfl⟩
      · exact ⟨Token.mem_rests_folders.mpr (.inl rfl), hnot⟩
      · simp only [List.mem_append, List.mem_cons, not_or] at hnot
        exact ⟨Token.mem_rests_folders.mpr (.inr ⟨folder, rfl, hnot.1⟩), hnot.2.2⟩
    exact accepts_cons.mpr ⟨name, hrest.1,
      accepts_name hne' hwild'.2 h.tail.folders hname fun _ => hrest.2⟩
  | anything =>
    exact accepts_cons.mpr ⟨[], nil_mem_rests_anything (hline rfl), (accepts_nil ts).trans hwild'.2⟩
  | segment =>
    -- a single star stands alone, or the next token is none
    cases ts with
    | nil => exact absurd rfl hstar
    | cons u ts =>
      have hu : u.isWild = true := by
        rw [List.all_cons, Bool.and_eq_true] at hwild'
        exact hwild'.2.1
      exact absurd ⟨[], ts, rfl⟩ (h.single u hu)
  | one => cases hwild'.1
  | literal d => cases hwild'.1

/-- What takes a text up to a slash takes it with whatever stands behind. -/
theorem Covers.accepts_append (h : Covers ts) {below : List Char} (hslash : text.getLast? = some '/')
    (hline : ts.any Token.isDouble = true → '\n' ∉ text ++ below) (haccepts : accepts ts text = true) :
    accepts ts (text ++ below) = true := by
  induction ts generalizing text with
  | nil =>
    rw [accepts, List.isEmpty_iff] at haccepts
    rw [haccepts] at hslash
    cases hslash
  | cons t ts ih =>
    obtain ⟨r, hr, hrest⟩ := accepts_cons.mp haccepts
    by_cases hnil : r = []
    · -- the token takes the slash, so the others are stars
      subst hnil
      have hwild : ts.all Token.isWild = true := (accepts_nil ts).symm.trans hrest
      have hwild' : t.isWild = true → (t :: ts).all Token.isWild = true := fun ht => by
        rw [List.all_cons, ht, hwild]
        rfl
      cases t with
      | folders => exact h.accepts_of_wild (by simp) (by simp) (hwild' rfl) hline
      | anything => exact h.accepts_of_wild (by simp) (by simp) (hwild' rfl) hline
      | segment =>
        obtain ⟨run, hrun, hnot⟩ := Token.mem_rests_segment.mp hr
        rw [List.append_nil] at hrun
        exact absurd (hrun ▸ List.mem_of_getLast? hslash) hnot
      | one =>
        obtain ⟨c, rfl, hc⟩ := Token.mem_rests_one.mp hr
        exact absurd (Option.some.inj hslash) hc
      | literal d =>
        -- the others are not a single star, which would stop at the next slash
        obtain rfl := Token.mem_rests_literal.mp hr
        obtain rfl : d = '/' := Option.some.inj hslash
        have hbelow : accepts ts below = true := by
          refine h.tail.accepts_of_wild ?_ ?_ hwild fun hdouble hmem => ?_
          · exact fun hnil => h.slash (hnil ▸ List.suffix_refl _)
          · exact fun hone => h.star (hone ▸ List.suffix_refl _)
          · refine hline ?_ (List.mem_append_right _ hmem)
            rw [List.any_cons, hdouble, Bool.or_true]
        exact accepts_cons.mpr ⟨below, Token.mem_rests_literal.mpr rfl, hbelow⟩
    · obtain ⟨run, rfl⟩ := Token.suffix_of_mem_rests hr
      have hlast : r.getLast? = some '/' := by
        rw [List.getLast?_append, List.getLast?_eq_some_getLast hnil, Option.some_or] at hslash
        rw [List.getLast?_eq_some_getLast hnil, hslash]
      refine accepts_cons.mpr ⟨r ++ below, Token.rests_append hr below, ih h.tail hlast ?_ hrest⟩
      intro hdouble hmem
      refine hline (by rw [List.any_cons, hdouble, Bool.or_true]) ?_
      rw [List.append_assoc]
      exact List.mem_append_right _ hmem

/-! ## Tokens of a text -/

theorem eq_nil_of_tokens_eq_nil (h : tokens text = []) : text = [] := by
  unfold tokens at h
  split at h
  · rfl
  all_goals cases h

/-- The last token of a pattern stands at its end. -/
theorem getLast?_of_suffix_cons {u : Token} {front rest : List Char}
    (hu : u = t → front.getLast? = some '/')
    (hrest : [t] <:+ tokens rest → rest.getLast? = some '/') (h : [t] <:+ u :: tokens rest) :
    (front ++ rest).getLast? = some '/' := by
  rcases List.suffix_cons_iff.mp h with heq | hsuffix
  · obtain ⟨rfl, hnil⟩ := List.cons.inj heq
    rw [eq_nil_of_tokens_eq_nil hnil.symm, List.append_nil]
    exact hu rfl
  · rw [List.getLast?_append, hrest hsuffix]
    rfl

/-- A pattern whose last token takes a slash ends in one. -/
theorem getLast?_of_suffix_tokens (ht : t = .literal '/' ∨ t = .folders) (h : [t] <:+ tokens text) :
    text.getLast? = some '/' := by
  have hne : t ≠ .anything ∧ t ≠ .segment ∧ t ≠ .one := by rcases ht with rfl | rfl <;> simp
  fun_induction tokens text with
  | case1 => exact absurd (List.suffix_nil.mp h) (by simp)
  | case2 rest ih => exact @getLast?_of_suffix_cons t _ "**/".toList rest (fun _ => rfl) ih h
  | case3 rest _ ih =>
    exact @getLast?_of_suffix_cons t _ "**".toList rest (fun hu => absurd hu.symm hne.1) ih h
  | case4 rest _ _ ih =>
    exact @getLast?_of_suffix_cons t _ ['*'] rest (fun hu => absurd hu.symm hne.2.1) ih h
  | case5 rest ih =>
    exact @getLast?_of_suffix_cons t _ ['?'] rest (fun hu => absurd hu.symm hne.2.2) ih h
  | case6 c rest _ _ _ _ ih =>
    refine @getLast?_of_suffix_cons t _ [c] rest (fun hu => ?_) ih h
    rcases ht with rfl | rfl <;> cases hu
    rfl

theorem head?_of_tokens_wild (ht : t.isWild = true) (h : (tokens text).head? = some t) :
    text.head? = some '*' := by
  unfold tokens at h
  split at h
  · cases h
  · rfl
  · rfl
  · rfl
  all_goals
    cases h
    cases ht

/-- Of two stars in a row neither is read as a single one. -/
theorem not_infix_tokens (ht : t.isWild = true) : ¬[.segment, t] <:+: tokens text := by
  have hcons : ∀ {u : Token} {us : List Token}, (u = .segment → us.head? ≠ some t) →
      ¬[.segment, t] <:+: us → ¬[.segment, t] <:+: u :: us := by
    intro u us hu hus hinside
    rcases List.infix_cons_iff.mp hinside with ⟨more, hmore⟩ | hinside
    · obtain ⟨rfl, rfl⟩ := List.cons.inj hmore
      exact hu rfl rfl
    · exact hus hinside
  fun_induction tokens text with
  | case1 => exact fun h => absurd (List.infix_nil.mp h) (by simp)
  | case2 rest ih => exact hcons (fun hu => by cases hu) ih
  | case3 rest _ ih => exact hcons (fun hu => by cases hu) ih
  | case4 rest hfolders hdouble ih =>
    refine hcons (fun _ hhead => ?_) ih
    obtain ⟨more, rfl⟩ := List.head?_eq_some_iff.mp (head?_of_tokens_wild ht hhead)
    exact hdouble more rfl
  | case5 rest ih => exact hcons (fun hu => by cases hu) ih
  | case6 c rest _ _ _ _ ih => exact hcons (fun hu => by cases hu) ih

theorem covers_tokens (hslash : text.getLast? ≠ some '/') (hstar : ¬EndsInStar (tokens text)) :
    Covers (tokens text) where
  slash h := hslash (getLast?_of_suffix_tokens (.inl rfl) h)
  folders h := hslash (getLast?_of_suffix_tokens (.inr rfl) h)
  star := hstar
  single _ hu := not_infix_tokens hu

end DelayInjection.Glob
