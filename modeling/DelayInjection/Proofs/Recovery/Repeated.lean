import DelayInjection.JavaScript.Layout
import DelayInjection.Proofs.Recovery.Call

/-! Recovery of what recovery left. Each line that stays was read with no bracket open and is clean, and
the lines stay as they are, so nothing is found in them again. The one line that changes is a first line
with a mark in front: it loses the mark. The mark, and blanks behind it, are no part of a word, open no
comment and no string, and so the verdict is the same with and without them. Hence several classifiers
can be applied in turn, and again. -/

namespace DelayInjection.Recovery

open Text (isBlank isWordChar joinLines mark splitLines splitMark strip)

variable {k : Classifier} {c : Char} {front text : List Char}

/-! ## A mark and blanks -/

/-- The mark or a blank. -/
def IsFaint (c : Char) : Prop := isBlank c = true ∨ c = mark

def blankCodes : List Nat := [9, 10, 11, 12, 13, 28, 29, 30, 31, 32, 0x85, 0xA0, 0x1680, 0x2000,
  0x2001, 0x2002, 0x2003, 0x2004, 0x2005, 0x2006, 0x2007, 0x2008, 0x2009, 0x200A, 0x2028, 0x2029,
  0x202F, 0x205F, 0x3000]

theorem toNat_mem_of_isBlank (h : isBlank c = true) : c.toNat ∈ blankCodes := by
  simp only [isBlank, Bool.or_eq_true, Bool.and_eq_true, decide_eq_true_eq, beq_iff_eq] at h
  simp only [blankCodes, List.mem_cons, List.not_mem_nil, or_false]
  omega

namespace IsFaint

theorem toNat_mem (h : IsFaint c) : c.toNat ∈ 0xFEFF :: blankCodes := by
  rcases h with h | rfl
  · exact List.mem_cons_of_mem _ (toNat_mem_of_isBlank h)
  · exact List.mem_cons_self

/-- What holds of the few characters by their codes holds of each. -/
theorem of_codes {p : Char → Bool} (hp : (0xFEFF :: blankCodes).all (fun n => p (Char.ofNat n)) = true)
    (h : IsFaint c) : p c = true := by
  have hc := List.all_eq_true.mp hp c.toNat h.toNat_mem
  rwa [Char.ofNat_toNat] at hc

theorem not_isWordChar (h : IsFaint c) : isWordChar c = false := by
  simpa using h.of_codes (p := fun c => !isWordChar c) (by decide +kernel)

theorem ne (h : IsFaint c) {d : Char} (hd : (0xFEFF :: blankCodes).all (· != d.toNat) = true) :
    c ≠ d := by
  rintro rfl
  simpa using List.all_eq_true.mp hd c.toNat h.toNat_mem

end IsFaint

/-- Faint characters in front of a text. -/
def Faint (front : List Char) : Prop := ∀ c ∈ front, IsFaint c

theorem startsWord_reverse (h : Faint front) : startsWord front.reverse.head? = true := by
  rw [List.head?_reverse]
  cases hlast : front.getLast? with
  | none => rfl
  | some c => simp [startsWord, (h c (List.mem_of_getLast? hlast)).not_isWordChar]

/-! ## The verdict on a line with faint characters in front -/

theorem dropPrefix?_of_ne {d : Char} {part : List Char} (hd : c ≠ d) :
    dropPrefix? (d :: part) (c :: text) = none := by
  have hpart : (d :: part).isPrefixOf (c :: text) = false := by
    rw [List.isPrefixOf, beq_false_of_ne (Ne.symm hd), Bool.false_and]
  rw [dropPrefix?, hpart]
  rfl

theorem callPrefixes_faint (h : Faint front) (identifier before : List Char) :
    callPrefixes identifier before 0 (front ++ text) =
      callPrefixes identifier (front.reverse ++ before) 0 text := by
  induction front generalizing before with
  | nil => rfl
  | cons c front ih =>
    have hne : c ≠ 'a' := (h c List.mem_cons_self).ne (by decide)
    have hcall : call? identifier (c :: (front ++ text)) = none := by
      show (dropPrefix? ('a' :: "wait".toList) _).bind _ = none
      rw [dropPrefix?_of_ne hne]
      rfl
    rw [List.cons_append, callPrefixes, hcall, ite_self]
    dsimp only
    rw [ih (fun d hd => h d (List.mem_cons_of_mem _ hd))]
    simp

/-- What stands further in front is part of every prefix, and no more. -/
theorem callPrefixes_append {above : List Char} (habove : startsWord above.head? = true)
    (identifier before : List Char) (skip : Nat) (text : List Char) :
    callPrefixes identifier (before ++ above) skip text =
      (callPrefixes identifier before skip text).map (· ++ above) := by
  induction text generalizing before skip with
  | nil => rfl
  | cons c text ih =>
    cases skip with
    | succ skip => exact ih (c :: before) skip
    | zero =>
      -- a word starts behind `above` as it starts at the front of a text
      have hword : startsWord (before ++ above).head? = startsWord before.head? := by
        cases before with
        | nil => exact habove
        | cons b before => rfl
      rw [callPrefixes, callPrefixes, hword]
      split
      next behind _ =>
        rw [List.map_cons]
        exact congrArg ((before ++ above) :: ·) (ih (c :: before) _)
      next => exact ih (c :: before) 0

/-- No comment opening holds a blank or the mark. -/
def InkedOpenings (k : Classifier) : Prop :=
  ∀ o ∈ k.commentOpenings, ∀ c ∈ o.toList, isBlank c = false ∧ c ≠ mark

theorem contains_faint (h : Faint front) {part : List Char}
    (hpart : ∀ c ∈ part, isBlank c = false ∧ c ≠ mark) :
    Text.contains (front ++ text) part = Text.contains text part := by
  rw [Bool.eq_iff_iff, Text.contains_iff, Text.contains_iff]
  constructor
  · intro hinside
    by_cases hnil : part = []
    · exact hnil ▸ List.nil_infix
    · refine Text.infix_of_append hnil (fun c hc hmem => ?_) hinside
      obtain ⟨hblank, hmark⟩ := hpart c hmem
      rcases h c hc with hc | hc
      · rw [hblank] at hc
        cases hc
      · exact hmark hc
  · exact fun hinside => hinside.trans (List.suffix_append front text).isInfix

theorem isCodePosition_faint (h : Faint front) (hk : InkedOpenings k) :
    isCodePosition k.commentOpenings (front ++ text) = isCodePosition k.commentOpenings text := by
  have hcomment : (k.commentOpenings.any fun o => Text.contains (front ++ text) o.toList) =
      k.commentOpenings.any fun o => Text.contains text o.toList := by
    rw [Bool.eq_iff_iff, List.any_eq_true, List.any_eq_true]
    exact exists_congr fun o => and_congr_right fun ho => by rw [contains_faint h (hk o ho)]
  have hcodes : (quotes.all fun q => (0xFEFF :: blankCodes).all (· != q.toNat)) = true := by decide
  have hcount : ∀ q ∈ quotes, (front ++ text).count q = text.count q := by
    intro q hq
    have hne := List.all_eq_true.mp hcodes q hq
    rw [List.count_append, List.count_eq_zero.mpr fun hmem => (h q hmem).ne hne rfl, Nat.zero_add]
  have hquote : (quotes.any fun q => (front ++ text).count q % 2 == 1) =
      quotes.any fun q => text.count q % 2 == 1 := by
    rw [Bool.eq_iff_iff, List.any_eq_true, List.any_eq_true]
    exact exists_congr fun q => and_congr_right fun hq => by rw [hcount q hq]
  rw [isCodePosition, isCodePosition, hcomment, hquote]

theorem hasCall_faint (h : Faint front) (hk : InkedOpenings k) :
    hasCall k (front ++ text) = hasCall k text := by
  have hprefixes := callPrefixes_append (startsWord_reverse h) k.identifier.toList [] 0 text
  rw [List.nil_append] at hprefixes
  unfold hasCall
  rw [callPrefixes_faint h, List.append_nil, hprefixes, List.any_map]
  refine congrArg (List.any _) (funext fun before => ?_)
  rw [Function.comp_apply, List.reverse_append, List.reverse_reverse, isCodePosition_faint h hk]

theorem hasImportWord_faint (h : Faint front) (before : Option Char)
    (hword : hasImportWord none text = true) (hbefore : startsWord before = true) :
    hasImportWord before (front ++ text) = true := by
  induction front generalizing before with
  | nil =>
    cases text with
    | nil => cases hword
    | cons c text =>
      rw [hasImportWord, show startsWord none = true from rfl] at hword
      rw [List.nil_append, hasImportWord, hbefore]
      exact hword
  | cons c front ih =>
    have hstarts : startsWord (some c) = true := by
      simp [startsWord, (h c List.mem_cons_self).not_isWordChar]
    rw [List.cons_append, hasImportWord, ih (fun d hd => h d (List.mem_cons_of_mem _ hd)) (some c) hstarts,
      Bool.or_true]

theorem classify_of_faint (h : Faint front) (hk : InkedOpenings k)
    (hclean : classify k (front ++ text) = none) : classify k text = none := by
  have hinside : ∀ {part}, Text.contains text part = true → Text.contains (front ++ text) part = true := by
    intro part hpart
    rw [Text.contains_iff] at hpart ⊢
    exact hpart.trans (List.suffix_append front text).isInfix
  unfold classify at hclean ⊢
  rw [hasCall_faint h hk] at hclean
  split at hclean
  · cases hclean
  next hstamp =>
    rw [if_neg fun hpart => hstamp (hinside hpart)]
    split at hclean
    · cases hclean
    next hcall =>
      rw [if_neg hcall]
      split at hclean
      · cases hclean
      next himport =>
        refine if_neg fun hboth => himport ?_
        rw [Bool.and_eq_true] at hboth ⊢
        exact ⟨hinside hboth.1, hasImportWord_faint h none hboth.2 rfl⟩

/-- Behind a mark a line is stripped to itself, with the blanks that the mark protects. -/
theorem exists_strip_mark (line : List Char) :
    ∃ front, Faint front ∧ strip (mark :: line) = front ++ strip line := by
  have hmark : isBlank mark = false := by decide
  have hblanks : ∀ c ∈ (line.takeWhile isBlank).reverse, isBlank c = true := fun c hc =>
    List.all_eq_true.mp List.all_takeWhile c (List.mem_reverse.mp hc)
  have hreverse : (mark :: line).reverse = (line.dropWhile isBlank).reverse ++
      ((line.takeWhile isBlank).reverse ++ [mark]) := by
    calc (mark :: line).reverse
        = (mark :: (line.takeWhile isBlank ++ line.dropWhile isBlank)).reverse := by
          rw [List.takeWhile_append_dropWhile]
      _ = _ := by rw [List.reverse_cons, List.reverse_append, List.append_assoc]
  have hstrip : strip (mark :: line) = ((mark :: line).reverse.dropWhile isBlank).reverse := by
    rw [strip, List.dropWhile_cons_of_neg (by simp [hmark])]
  rw [hstrip, hreverse, List.dropWhile_append]
  by_cases hnil : ((line.dropWhile isBlank).reverse.dropWhile isBlank).isEmpty
  · refine ⟨[mark], fun c hc => .inr (List.mem_singleton.mp hc), ?_⟩
    have hline : strip line = [] := by rw [strip, List.isEmpty_iff.mp hnil]; rfl
    rw [if_pos hnil, List.dropWhile_append_of_pos hblanks, hline,
      List.dropWhile_cons_of_neg (by simp [hmark])]
    rfl
  · refine ⟨mark :: line.takeWhile isBlank, fun c hc => ?_, ?_⟩
    · rcases List.mem_cons.mp hc with rfl | hc
      · exact .inr rfl
      · exact .inl (hblanks c (List.mem_reverse.mpr hc))
    · rw [if_neg hnil, strip]
      simp

theorem verdict_of_mark (hk : InkedOpenings k) {line : List Char}
    (hclean : verdict k (mark :: line) = none) : verdict k line = none := by
  obtain ⟨front, hfront, hstrip⟩ := exists_strip_mark line
  rw [verdict, hstrip] at hclean
  exact classify_of_faint hfront hk hclean

/-! ## What recovery left -/

/-- The lines of joined lines behind a mark or nothing are these lines, but for a mark in front of the
first one. -/
theorem mem_lines_joinLines {ls : List (List Char)} (hls : ∀ l ∈ ls, '\n' ∉ l)
    (hfront : front = [mark] ∨ front = []) {line : List Char}
    (hline : line ∈ lines (front ++ joinLines ls)) :
    line = [] ∨ line ∈ ls ∨ mark :: line ∈ ls := by
  have hjoined : ∀ {ms : List (List Char)}, (∀ l ∈ ms, '\n' ∉ l) →
      line ∈ splitLines (joinLines ms) → line = [] ∨ line ∈ ms := by
    intro ms hms hmem
    by_cases hnil : ms = []
    · subst hnil
      exact .inl (List.mem_singleton.mp hmem)
    · rw [Text.splitLines_joinLines hnil hms] at hmem
      exact .inr hmem
  rw [lines] at hline
  -- only a first line that brings a mark of its own is read otherwise than it was written
  by_cases hfirst : front = [] ∧ ∃ l ms, ls = (mark :: l) :: ms
  · obtain ⟨rfl, l, ms, rfl⟩ := hfirst
    have hjoin : joinLines ((mark :: l) :: ms) = mark :: joinLines (l :: ms) := by
      cases ms with
      | nil => rfl
      | cons m ms => rfl
    rw [List.nil_append, hjoin, show splitMark (mark :: joinLines (l :: ms)) = ([mark], _) from rfl] at hline
    have hms : ∀ m ∈ l :: ms, '\n' ∉ m := by
      intro m hm
      rcases List.mem_cons.mp hm with rfl | hm
      · exact fun hnl => hls (mark :: m) List.mem_cons_self (List.mem_cons_of_mem _ hnl)
      · exact hls m (List.mem_cons_of_mem _ hm)
    refine (hjoined hms hline).imp_right fun hmem => ?_
    rcases List.mem_cons.mp hmem with rfl | hmem
    · exact .inr List.mem_cons_self
    · exact .inl (List.mem_cons_of_mem _ hmem)
  · have hsplit : splitMark (front ++ joinLines ls) = (front, joinLines ls) := by
      refine Text.splitMark_of_cases (hfront.imp_right fun hnil => ⟨hnil, ?_⟩)
      refine Text.head?_joinLines_ne_mark fun l hl hmark => hfirst ⟨hnil, ?_⟩
      obtain ⟨ms, rfl⟩ := List.head?_eq_some_iff.mp hl
      obtain ⟨l, rfl⟩ := List.head?_eq_some_iff.mp hmark
      exact ⟨l, ms, rfl⟩
    rw [hsplit] at hline
    exact (hjoined hls hline).imp_right .inl

/-- The lines of what recovery left are lines that it kept, but for a mark in front of the first one. -/
theorem of_mem_lines_remove {source line : List Char} (hline : line ∈ lines (remove k source).source) :
    line = [] ∨ (line ∈ lines source ∧ verdict k line = none) ∨
      (mark :: line ∈ lines source ∧ verdict k (mark :: line) = none) := by
  have hfront : (splitMark source).1 = [mark] ∨ (splitMark source).1 = [] :=
    (Text.splitMark_cases source).imp_right And.left
  have hkept : ∀ l ∈ (((lines source).zip (reasons k 0 (lines source))).filter
      fun p => p.2.isNone).map (·.1), l ∈ lines source ∧ verdict k l = none := by
    intro l hl
    obtain ⟨p, hp, rfl⟩ := List.mem_map.mp hl
    obtain ⟨hmem, hnone⟩ := List.mem_filter.mp hp
    exact ⟨(List.of_mem_zip hmem).1, verdict_of_kept p hmem hnone⟩
  rw [remove] at hline
  refine (mem_lines_joinLines (fun l hl => ?_) hfront hline).imp_right (Or.imp (hkept _) (hkept _))
  exact Text.newline_not_mem_of_mem_splitLines (hkept l hl).1

/-- A text that is clean for one classifier stays so when another one has its lines removed. -/
theorem scan_remove_of_scan_eq_nil {other : Classifier} (hk : InkedOpenings k) {source : List Char}
    (hclean : scan k source = []) : scan k (remove other source).source = [] := by
  rw [scan_eq_nil_iff] at hclean ⊢
  intro line hline
  rcases of_mem_lines_remove hline with rfl | ⟨hmem, -⟩ | ⟨hmem, -⟩
  · exact verdict_nil k
  · exact hclean line hmem
  · exact verdict_of_mark hk (hclean _ hmem)

theorem scan_source_remove (hk : InkedOpenings k) (source : List Char) :
    scan k (remove k source).source = [] := by
  rw [scan_eq_nil_iff]
  intro line hline
  rcases of_mem_lines_remove hline with rfl | ⟨-, hclean⟩ | ⟨-, hclean⟩
  · exact verdict_nil k
  · exact hclean
  · exact verdict_of_mark hk hclean

/-- One pass of recovery leaves nothing for another one. -/
theorem scan_remove_eq_nil (hk : InkedOpenings k) (source : List Char) :
    scan k (remove k source).source = [] ∧
      remove k (remove k source).source = ⟨(remove k source).source, 0⟩ := by
  have hscan := scan_source_remove hk source
  exact ⟨hscan, remove_of_scan_eq_nil hscan⟩

/-- The second line comes to the front, and loses its mark when it is read again. -/
theorem scan_remove_eq_nil_of_mark :
    InkedOpenings JavaScript.adapter.classifier ∧
      (remove JavaScript.adapter.classifier
        "// jt92-se2j!\n\uFEFF // await __FlakeMonster__(1);".toList).source =
        "\uFEFF // await __FlakeMonster__(1);".toList ∧
      scan JavaScript.adapter.classifier "\uFEFF // await __FlakeMonster__(1);".toList = [] := by
  have hk : InkedOpenings JavaScript.adapter.classifier := by
    have hall : (["//", "/*"].all fun o => o.toList.all fun c => !isBlank c && c != mark) = true := by
      decide
    intro o ho c hc
    simpa using List.all_eq_true.mp (List.all_eq_true.mp hall o ho) c hc
  have hsource : (remove JavaScript.adapter.classifier
      "// jt92-se2j!\n\uFEFF // await __FlakeMonster__(1);".toList).source =
      "\uFEFF // await __FlakeMonster__(1);".toList := by
    decide +kernel
  exact ⟨hk, hsource, hsource ▸ (scan_remove_eq_nil hk _).1⟩

/-! ## Several classifiers in turn -/

/-- What the removals of the classifiers leave, one behind the other. -/
def passes (ks : List Classifier) (source : List Char) : List Char :=
  ks.foldl (fun text k => (remove k text).source) source

theorem passes_append (ks others : List Classifier) (source : List Char) :
    passes (ks ++ others) source = passes others (passes ks source) :=
  List.foldl_append

theorem passes_eq_self {ks : List Classifier} {source : List Char}
    (hclean : ∀ k ∈ ks, scan k source = []) : passes ks source = source := by
  induction ks with
  | nil => rfl
  | cons k ks ih =>
    have hself : (remove k source).source = source :=
      congrArg Removal.source (remove_of_scan_eq_nil (hclean k List.mem_cons_self))
    rw [passes, List.foldl_cons, hself]
    exact ih fun other hother => hclean other (List.mem_cons_of_mem _ hother)

theorem scan_passes_of_scan_eq_nil (hk : InkedOpenings k) {source : List Char} (ks : List Classifier)
    (hclean : scan k source = []) : scan k (passes ks source) = [] := by
  induction ks generalizing source with
  | nil => exact hclean
  | cons other ks ih => exact ih (scan_remove_of_scan_eq_nil hk hclean)

/-- Nothing is left for any of the classifiers, whatever the others removed behind it. -/
theorem scan_passes (hk : InkedOpenings k) {ks : List Classifier} (hmem : k ∈ ks) (source : List Char) :
    scan k (passes ks source) = [] := by
  obtain ⟨before, behind, rfl⟩ := List.append_of_mem hmem
  rw [passes_append]
  exact scan_passes_of_scan_eq_nil hk behind (scan_source_remove hk _)

end DelayInjection.Recovery
