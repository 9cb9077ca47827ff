import DelayInjection.Proofs.Injection.Prefix
import DelayInjection.Proofs.Recovery.Literal

/-! A line that is kept, broken in two. A word ends where the break comes, and so the front half holds no
delay call and no import that the line did not hold. Of the other half only a comment is left, and what
stands behind the opening of a comment is no code. -/

namespace DelayInjection.Recovery

open Text (isBlank isWordChar mark strip)

variable {k : Classifier} {front text rest : List Char}

/-! ## Stripped halves -/

theorem dropWhile_of_head {p : Char → Bool} (h : ∀ c ∈ rest.head?, p c = false) :
    rest.dropWhile p = rest := by
  cases rest with
  | nil => rfl
  | cons c rest => exact List.dropWhile_cons_of_neg (by simp [h c rfl])

theorem dropWhile_append_of_head {p : Char → Bool} (h : ∀ c ∈ rest.head?, p c = false) :
    (text ++ rest).dropWhile p = text.dropWhile p ++ rest := by
  rw [List.dropWhile_append]
  split
  next hnil => rw [List.isEmpty_iff.mp hnil, List.nil_append, dropWhile_of_head h]
  next => rfl

theorem head?_dropWhile_of {p : Char → Bool} (text : List Char) :
    ∀ c ∈ (text.dropWhile p).head?, p c = false := by
  intro c hc
  have hne : text.dropWhile p ≠ [] := fun hnil => by rw [hnil] at hc; cases hc
  obtain rfl : (text.dropWhile p).head hne = c := by
    rw [List.head?_eq_some_head hne] at hc
    exact Option.some.inj hc
  simpa using List.head_dropWhile_not p hne

/-- The blanks around a text, and its ends. -/
theorem exists_strip (text : List Char) : ∃ before behind, text = before ++ (strip text ++ behind) ∧
    (∀ c ∈ before, isBlank c = true) ∧ (∀ c ∈ behind, isBlank c = true) ∧
    (∀ c ∈ (strip text).head?, isBlank c = false) ∧
    ∀ c ∈ (strip text).reverse.head?, isBlank c = false := by
  have hbehind := List.takeWhile_append_dropWhile (p := isBlank) (l := (text.dropWhile isBlank).reverse)
  have hsplit : text.dropWhile isBlank =
      strip text ++ ((text.dropWhile isBlank).reverse.takeWhile isBlank).reverse := by
    rw [strip, ← List.reverse_append, hbehind, List.reverse_reverse]
  refine ⟨text.takeWhile isBlank, ((text.dropWhile isBlank).reverse.takeWhile isBlank).reverse,
    ?_, fun c hc => List.all_eq_true.mp List.all_takeWhile c hc,
    fun c hc => List.all_eq_true.mp List.all_takeWhile c (List.mem_reverse.mp hc), ?_, ?_⟩
  · rw [← hsplit, List.takeWhile_append_dropWhile]
  · intro c hc
    refine head?_dropWhile_of text c ?_
    rw [hsplit, List.head?_append, Option.mem_def.mp hc]
    rfl
  · intro c hc
    rw [strip, List.reverse_reverse] at hc
    exact head?_dropWhile_of _ c hc

/-- A line starts with what its front half is without the blanks around it. -/
theorem exists_strip_append_front (h : strip text ≠ []) (rest : List Char) : ∃ more,
    strip (text ++ rest) = strip text ++ more ∧
      ((∀ c ∈ rest.head?, isWordChar c = false) → ∀ c ∈ more.head?, isWordChar c = false) := by
  obtain ⟨before, behind, htext, hbefore, hbehind, hhead, hlast⟩ := exists_strip text
  generalize strip text = core at *
  have hfront : ∀ c ∈ (core ++ (behind ++ rest)).head?, isBlank c = false := by
    rw [List.head?_append, List.head?_eq_some_head h, Option.some_or, ← List.head?_eq_some_head h]
    exact hhead
  refine ⟨((behind ++ rest).reverse.dropWhile isBlank).reverse, ?_, fun hrest c hc => ?_⟩
  · rw [htext, List.append_assoc, List.append_assoc, strip, List.dropWhile_append_of_pos hbefore]
    rw [dropWhile_of_head hfront, List.reverse_append, dropWhile_append_of_head hlast,
      List.reverse_append, List.reverse_reverse]
  · have hmore : ((behind ++ rest).reverse.dropWhile isBlank).reverse <+: behind ++ rest := by
      simpa using List.reverse_prefix.mpr (List.dropWhile_suffix (l := (behind ++ rest).reverse) isBlank)
    obtain ⟨last, hlast'⟩ := hmore
    have hc' : c ∈ (behind ++ rest).head? := by
      rw [← hlast', List.head?_append, Option.mem_def.mp hc]
      rfl
    cases behind with
    | nil => exact hrest c hc'
    | cons b behind =>
      cases hc'
      exact not_isWordChar_of_isBlank (hbehind c List.mem_cons_self)

/-- A line ends with what its second half is without the blanks around it. -/
theorem exists_strip_append_behind (h : strip text ≠ []) (front : List Char) :
    ∃ above, strip (front ++ text) = above ++ strip text := by
  obtain ⟨before, behind, htext, -, hbehind, hhead, hlast⟩ := exists_strip text
  generalize strip text = core at *
  have hfront : ∀ c ∈ (core ++ behind).head?, isBlank c = false := by
    rw [List.head?_append, List.head?_eq_some_head h, Option.some_or, ← List.head?_eq_some_head h]
    exact hhead
  have hends : ∀ c ∈ (core.reverse ++ ((front ++ before).dropWhile isBlank).reverse).head?,
      isBlank c = false := by
    have hne : core.reverse ≠ [] := by simpa using h
    rw [List.head?_append, List.head?_eq_some_head hne, Option.some_or, ← List.head?_eq_some_head hne]
    exact hlast
  refine ⟨(front ++ before).dropWhile isBlank, ?_⟩
  have hblank : ∀ c ∈ behind.reverse, isBlank c = true := fun c hc => hbehind c (List.mem_reverse.mp hc)
  rw [htext, ← List.append_assoc, strip, dropWhile_append_of_head hfront, List.reverse_append,
    List.reverse_append, List.append_assoc, List.dropWhile_append_of_pos hblank, dropWhile_of_head hends,
    List.reverse_append, List.reverse_reverse, List.reverse_reverse]

/-! ## Words and calls of a half -/

theorem hasImportWord_append {before : Option Char} (hrest : startsWord rest.head? = true)
    (h : hasImportWord before text = true) : hasImportWord before (text ++ rest) = true := by
  induction text generalizing before with
  | nil => cases h
  | cons c text ih =>
    rw [hasImportWord, Bool.or_eq_true] at h
    rw [List.cons_append, hasImportWord, Bool.or_eq_true]
    refine h.imp (fun hword => ?_) ih
    rw [Bool.and_eq_true, List.any_eq_true] at hword ⊢
    obtain ⟨hstarts, w, hw, hbehind⟩ := hword
    refine ⟨hstarts, w, hw, ?_⟩
    cases hdrop : dropPrefix? w.toList (c :: text) with
    | none =>
      rw [hdrop] at hbehind
      cases hbehind
    | some behind =>
      rw [hdrop, Option.any_some] at hbehind
      rw [← List.cons_append, dropPrefix?_eq_some hdrop, List.append_assoc, dropPrefix?_append,
        Option.any_some]
      cases behind with
      | nil => exact hrest
      | cons b behind => exact hbehind

/-- What stands before a text does not matter to its words where the text starts with none. -/
theorem hasImportWord_behind (htext : startsWord text.head? = true) (h : hasImportWord none text = true)
    (before : Option Char) : hasImportWord before (front ++ text) = true := by
  induction front generalizing before with
  | nil =>
    cases text with
    | nil => cases h
    | cons c text =>
      have hc : isWordChar c = false := by simpa [startsWord] using htext
      have hnone : (importWords.any fun w =>
          (dropPrefix? w.toList (c :: text)).any fun behind => startsWord behind.head?) = false := by
        have hw : ∀ w ∈ importWords, ∃ d part, w.toList = d :: part ∧ isWordChar d = true := by
          intro w hw
          simp only [importWords, List.mem_cons, List.not_mem_nil, or_false] at hw
          rcases hw with rfl | rfl | rfl <;> exact ⟨_, _, rfl, by decide⟩
        refine List.any_eq_false.mpr fun w hmem => ?_
        obtain ⟨d, part, hpart, hd⟩ := hw w hmem
        have hne : c ≠ d := by
          rintro rfl
          rw [hc] at hd
          cases hd
        rw [hpart, dropPrefix?_of_ne hne]
        exact Bool.false_ne_true
      rw [hasImportWord, hnone, Bool.and_false, Bool.false_or] at h
      rw [List.nil_append, hasImportWord, h, Bool.or_true]
  | cons c front ih => rw [List.cons_append, hasImportWord, ih (some c), Bool.or_true]

theorem hasCall_append (hword : ∀ c ∈ k.identifier.toList, isWordChar c = true)
    (h : hasCall k text = true) : hasCall k (text ++ rest) = true := by
  rw [hasCall_iff hword] at h ⊢
  obtain ⟨call, hcode⟩ := h
  obtain ⟨gap, space, htext, hcall⟩ := call.isCall
  refine ⟨⟨call.before, call.text ++ rest, call.behind ++ rest, ?_, call.starts, gap, space, ?_, hcall⟩,
    hcode⟩
  · rw [← List.append_assoc, ← call.line_eq]
  · rw [htext]
    simp only [List.append_assoc, List.cons_append]

/-- What a character is no part of, it stands behind. -/
theorem exists_behind {c : Char} {part : List Char} (h : front ++ c :: text = part ++ rest)
    (hc : c ∉ part) : ∃ front', front = part ++ front' ∧ front' ++ c :: text = rest := by
  rcases List.append_eq_append_iff.mp h with ⟨inside, hpart, htext⟩ | ⟨front', hfront, hrest⟩
  · cases inside with
    | nil => exact ⟨[], by rw [hpart, List.append_nil, List.append_nil], htext⟩
    | cons d inside =>
      obtain ⟨rfl, -⟩ := List.cons.inj htext
      exact absurd (hpart ▸ List.mem_append_right front List.mem_cons_self) hc
  · exact ⟨front', hfront, hrest.symm⟩

/-! ## The verdict on a half -/

theorem classify_eq_none_iff_parts : classify k text = none ↔ ¬stamp.toList <:+: text ∧
    ¬hasCall k text = true ∧ ¬(k.supportFragment.toList <:+: text ∧ hasImportWord none text = true) := by
  rw [classify, ← Text.contains_iff, ← Text.contains_iff, ← Bool.and_eq_true]
  split
  next h => simp [h]
  next hstamp =>
    split
    next h => simp [h]
    next hcall =>
      split
      next h => simp [h]
      next himport => exact iff_of_true rfl ⟨hstamp, hcall, himport⟩

/-- The front half of a kept line is kept, if no word crosses the break. -/
theorem verdict_of_append_front (hword : ∀ c ∈ k.identifier.toList, isWordChar c = true)
    (hrest : ∀ c ∈ rest.head?, isWordChar c = false) (h : verdict k (text ++ rest) = none) :
    verdict k text = none := by
  by_cases hnil : strip text = []
  · rw [verdict, hnil]
    exact verdict_nil k
  · obtain ⟨more, hstrip, hmore⟩ := exists_strip_append_front hnil rest
    have hends : startsWord more.head? = true := by
      cases more with
      | nil => rfl
      | cons c more => simp [startsWord, hmore hrest c rfl]
    rw [verdict, hstrip, classify_eq_none_iff_parts] at h
    obtain ⟨hstamp, hcall, himport⟩ := h
    have hprefix := List.prefix_append (strip text) more
    exact classify_eq_none_iff_parts.mpr ⟨fun hin => hstamp (hin.trans hprefix.isInfix),
      fun hin => hcall (hasCall_append hword hin),
      fun hin => himport ⟨hin.1.trans hprefix.isInfix, hasImportWord_append hends hin.2⟩⟩

/-- Comments open with something else than blanks and words. -/
def PlainOpenings (k : Classifier) : Prop :=
  ∀ o ∈ k.commentOpenings, o.toList ≠ [] ∧
    ∀ c ∈ o.toList, isBlank c = false ∧ c ≠ mark ∧ isWordChar c = false

/-- No word, and then nothing more or a comment. -/
def OnlyComment (k : Classifier) (text : List Char) : Prop :=
  ∃ gaps comment, text = gaps ++ comment ∧ (∀ c ∈ gaps, isWordChar c = false) ∧
    (comment = [] ∨ ∃ o ∈ k.commentOpenings, o.toList <+: comment)

namespace OnlyComment

/-- Every word stands behind the opening of the comment. -/
theorem exists_opening (h : OnlyComment k text) (hk : PlainOpenings k) {c : Char}
    (hc : isWordChar c = true) (htext : text = front ++ c :: rest) :
    ∃ o ∈ k.commentOpenings, o.toList <:+: front := by
  obtain ⟨gaps, comment, hsplit, hgaps, hcomment⟩ := h
  have hnot : ∀ {part : List Char}, (∀ d ∈ part, isWordChar d = false) → c ∉ part := by
    intro part hpart hmem
    rw [hpart c hmem] at hc
    cases hc
  obtain ⟨front', rfl, hbehind⟩ := exists_behind (htext.symm.trans hsplit) (hnot hgaps)
  rcases hcomment with rfl | ⟨o, ho, more, hmore⟩
  · exact absurd (List.append_eq_nil_iff.mp hbehind).2 (List.cons_ne_nil c rest)
  · obtain ⟨inside, rfl, -⟩ := exists_behind (hbehind.trans hmore.symm)
      (hnot fun d hd => ((hk o ho).2 d hd).2.2)
    exact ⟨o, ho, gaps, inside, by rw [List.append_assoc]⟩

theorem startsWord_head? (h : OnlyComment k text) (hk : PlainOpenings k) :
    startsWord text.head? = true := by
  cases htext : text with
  | nil => rfl
  | cons c rest =>
    cases hc : isWordChar c with
    | false => simp [startsWord, hc]
    | true =>
      obtain ⟨o, ho, hinside⟩ := h.exists_opening hk hc (htext.trans (List.nil_append _).symm)
      exact absurd (List.infix_nil.mp hinside) (hk o ho).1

/-- All blanks in front of the comment may be left out. -/
theorem startsWord_strip (h : OnlyComment k text) (hk : PlainOpenings k) :
    startsWord (strip text).head? = true := by
  obtain ⟨before, behind, htext, hbefore, -, -, -⟩ := exists_strip text
  cases hstrip : strip text with
  | nil => rfl
  | cons c core =>
    cases hc : isWordChar c with
    | false => simp [startsWord, hc]
    | true =>
      rw [hstrip] at htext
      obtain ⟨o, ho, hinside⟩ := h.exists_opening hk hc htext
      obtain ⟨d, hd⟩ := List.exists_mem_of_ne_nil _ (hk o ho).1
      have hblank := hbefore d (hinside.subset hd)
      rw [((hk o ho).2 d hd).1] at hblank
      cases hblank

theorem not_hasCall (h : OnlyComment k text) (hk : PlainOpenings k)
    (hword : ∀ c ∈ k.identifier.toList, isWordChar c = true) : ¬hasCall k text = true := by
  rw [hasCall_iff hword]
  rintro ⟨call, hcode⟩
  obtain ⟨gap, space, htext, -⟩ := call.isCall
  have hline : text = call.before ++ 'a' :: ("wait".toList ++
      (gap ++ (k.identifier.toList ++ (space ++ '(' :: call.behind)))) :=
    call.line_eq.trans (congrArg (call.before ++ ·) htext)
  obtain ⟨o, ho, hinside⟩ := h.exists_opening hk (by decide) hline
  exact ((isCodePosition_iff _ _).mp hcode).1 o ho hinside

/-- The second half of a kept line is kept, if it holds nothing but a comment. -/
theorem verdict_of_append_behind (h : OnlyComment k text) (hk : PlainOpenings k)
    (hword : ∀ c ∈ k.identifier.toList, isWordChar c = true)
    (hkept : verdict k (front ++ text) = none) : verdict k text = none := by
  by_cases hnil : strip text = []
  · rw [verdict, hnil]
    exact verdict_nil k
  · obtain ⟨above, hstrip⟩ := exists_strip_append_behind hnil front
    rw [verdict, hstrip, classify_eq_none_iff_parts] at hkept
    obtain ⟨hstamp, -, himport⟩ := hkept
    have hsuffix := List.suffix_append above (strip text)
    refine classify_eq_none_iff_parts.mpr ⟨fun hin => hstamp (hin.trans hsuffix.isInfix), fun hcall => ?_,
      fun hin => himport ⟨hin.1.trans hsuffix.isInfix,
        hasImportWord_behind (h.startsWord_strip hk) hin.2 none⟩⟩
    obtain ⟨before, behind, htext, hbefore, -, -, -⟩ := exists_strip text
    have hinked : InkedOpenings k := fun o ho c hc => ⟨((hk o ho).2 c hc).1, ((hk o ho).2 c hc).2.1⟩
    have hfaint : Faint before := fun c hc => .inl (hbefore c hc)
    rw [← hasCall_faint hfaint hinked] at hcall
    refine h.not_hasCall hk hword ?_
    rw [htext, ← List.append_assoc]
    exact hasCall_append hword hcall

end OnlyComment

/-! ## A text with a line broken in two -/

open Injection (firstLine)
open Text (lastLine splitLines)

/-- The lines of a text with something in front are its own lines, but for the first one. -/
theorem exists_splitLines_append (text : List Char) : ∃ below, ∀ front : List Char, '\n' ∉ front →
    splitLines (front ++ text) = (front ++ firstLine text) :: below := by
  have hsplit : text = firstLine text ++ text.dropWhile (· != '\n') :=
    List.takeWhile_append_dropWhile.symm
  have hfirst : ∀ {front : List Char}, '\n' ∉ front → '\n' ∉ front ++ firstLine text := by
    intro front hfront hmem
    refine (List.mem_append.mp hmem).elim hfront fun hin => ?_
    simpa using List.all_eq_true.mp List.all_takeWhile _ hin
  cases hrest : text.dropWhile (· != '\n') with
  | nil =>
    rw [hrest, List.append_nil] at hsplit
    refine ⟨[], fun front hfront => ?_⟩
    calc splitLines (front ++ text) = splitLines (front ++ firstLine text) := by rw [← hsplit]
      _ = [front ++ firstLine text] := Text.splitLines_of_not_mem (hfirst hfront)
  | cons c rest =>
    obtain rfl : c = '\n' := by
      have hhead := head?_dropWhile_of (p := (· != '\n')) text c (by rw [hrest]; rfl)
      simpa using hhead
    refine ⟨splitLines rest, fun front hfront => ?_⟩
    calc splitLines (front ++ text) = splitLines ((front ++ firstLine text) ++ '\n' :: rest) := by
          rw [List.append_assoc, ← hrest, ← hsplit]
      _ = (front ++ firstLine text) :: splitLines rest := Text.splitLines_line (hfirst hfront) rest

/-- A clean text stays clean when a line is broken before its comment. -/
theorem verdict_of_break {before behind : List Char} (hk : PlainOpenings k)
    (hword : ∀ c ∈ k.identifier.toList, isWordChar c = true)
    (hbehind : OnlyComment k (firstLine behind))
    (hclean : ∀ l ∈ splitLines (before ++ behind), verdict k l = none) :
    ∀ l ∈ splitLines (before ++ '\n' :: behind), verdict k l = none := by
  obtain ⟨above, habove, hends⟩ := Text.exists_eq_append_lastLine before
  obtain ⟨below, hbelow⟩ := exists_splitLines_append behind
  have hline := Text.newline_not_mem_lastLine before
  have hwhole : splitLines (before ++ behind) = (splitLines above).dropLast ++
      (lastLine before ++ firstLine behind) :: below := by
    rw [← hbelow _ hline, ← Text.splitLines_append hends, ← List.append_assoc, ← habove]
  have hbroken : splitLines (before ++ '\n' :: behind) = (splitLines above).dropLast ++
      lastLine before :: firstLine behind :: below := by
    have hfirst := hbelow [] List.not_mem_nil
    rw [List.nil_append, List.nil_append] at hfirst
    rw [← hfirst, ← Text.splitLines_line hline, ← Text.splitLines_append hends, ← List.append_assoc,
      ← habove]
  rw [hwhole] at hclean
  rw [hbroken]
  intro l hl
  have hbreak := hclean _ (List.mem_append_right _ List.mem_cons_self)
  rcases List.mem_append.mp hl with hl | hl
  · exact hclean l (List.mem_append_left _ hl)
  rcases List.mem_cons.mp hl with rfl | hl
  · refine verdict_of_append_front hword (fun c hc => ?_) hbreak
    have hstarts := hbehind.startsWord_head? hk
    rw [Option.mem_def.mp hc] at hstarts
    simpa [startsWord] using hstarts
  rcases List.mem_cons.mp hl with rfl | hl
  · exact hbehind.verdict_of_append_behind hk hword hbreak
  · exact hclean l (List.mem_append_right _ (List.mem_cons_of_mem _ hl))

end DelayInjection.Recovery
