import DelayInjection.JavaScript.Layout
import DelayInjection.Proofs.Recovery.Call
import DelayInjection.Proofs.Text.Numeral
import DelayInjection.Python.Layout

/-! Every line that injection writes is one that recovery takes out, in both languages and whatever the
id, the seed, the mode, the delay and the path of the file. -/

namespace DelayInjection

open Injection (commentLine callLine marker idOfKey)
open Recovery (Recognised bracketDepth bracketStep)
open Text (isBlank)

namespace Spelling

/-! ## Printed text -/

/-- The text is printed ASCII, and closes as many brackets as it opens. -/
structure Printed (t : List Char) : Prop where
  ascii : ∀ c ∈ t, 32 ≤ c.toNat ∧ c.toNat < 127
  level : bracketDepth t = 0

theorem Printed.append {s t : List Char} (hs : Printed s) (ht : Printed t) : Printed (s ++ t) where
  ascii c hc := (List.mem_append.mp hc).elim (hs.ascii c) (ht.ascii c)
  level := by rw [Recovery.bracketDepth_append, hs.level, ht.level]; rfl

/-- A digit, a small letter or a hyphen. -/
def isGlyph (c : Char) : Bool :=
  (48 ≤ c.toNat && c.toNat ≤ 57) || (97 ≤ c.toNat && c.toNat ≤ 122) || c.toNat == 45

theorem isGlyph_range {c : Char} (h : isGlyph c = true) :
    45 ≤ c.toNat ∧ c.toNat ≤ 122 ∧ bracketStep c = 0 ∧ isBlank c = false := by
  simp only [isGlyph, Bool.or_eq_true, Bool.and_eq_true, decide_eq_true_eq, beq_iff_eq] at h
  have hne : ∀ d : Char, c = d → c.toNat = d.toNat := fun d hd => congrArg Char.toNat hd
  refine ⟨by omega, by omega, ?_, ?_⟩
  · rw [bracketStep, if_neg, if_neg]
    · rintro (hd | hd)
      · have := hne _ hd
        simp at this
        omega
      · have := hne _ hd
        simp at this
        omega
    · rintro (hd | hd)
      · have := hne _ hd
        simp at this
        omega
      · have := hne _ hd
        simp at this
        omega
  · simp only [isBlank, Bool.or_eq_false_iff, Bool.and_eq_false_iff, decide_eq_false_iff_not,
      beq_eq_false_iff_ne]
    omega

theorem printed_of_steps {t : List Char}
    (h : ∀ c ∈ t, (32 ≤ c.toNat ∧ c.toNat < 127) ∧ bracketStep c = 0) : Printed t where
  ascii c hc := (h c hc).1
  level := by
    induction t with
    | nil => rfl
    | cons c t ih =>
      calc bracketDepth (c :: t) = bracketStep c + bracketDepth t := rfl
        _ = 0 := by
          rw [(h c List.mem_cons_self).2, ih fun d hd => h d (List.mem_cons_of_mem _ hd)]
          rfl

theorem printed_of_glyphs {t : List Char} (h : ∀ c ∈ t, isGlyph c = true) : Printed t :=
  printed_of_steps fun c hc => by
    obtain ⟨hlow, hhigh, hstep, -⟩ := isGlyph_range (h c hc)
    exact ⟨by omega, hstep⟩

theorem glyphs_of_key (key : String) : ∀ c ∈ (idOfKey key).toList, isGlyph c = true := by
  intro c hc
  have hdigit : ∀ n, n < 16 → isGlyph (Text.Utf8.hexDigit n) = true := by decide
  rw [idOfKey, String.toList_ofList] at hc
  obtain ⟨b, -, hb⟩ := List.mem_flatMap.mp (List.mem_of_mem_take hc)
  have hlt : b.toNat < 256 := b.toNat_lt
  rw [Text.Utf8.hexByte, List.mem_cons, List.mem_singleton] at hb
  rcases hb with rfl | rfl
  · exact hdigit _ (by omega)
  · exact hdigit _ (by omega)

theorem glyphs_of_int (n : Int) : ∀ c ∈ (toString n).toList, isGlyph c = true := by
  intro c hc
  rcases Text.of_mem_toString_int hc with rfl | hc
  · rfl
  · obtain ⟨hlow, hhigh⟩ := Text.toNat_of_isAsciiDigit hc
    simp [isGlyph, hlow, hhigh]

theorem glyphs_of_mode {mode : String} (h : mode ∈ Mode.all) :
    mode.toList ≠ [] ∧ ∀ c ∈ mode.toList, isGlyph c = true := by
  have hall : ∀ t ∈ ["light".toList, "medium".toList, "hardcore".toList],
      t ≠ [] ∧ t.all isGlyph = true := by decide
  simp only [Mode.all, List.mem_cons, List.not_mem_nil, or_false] at h
  have hmem : mode.toList ∈ ["light".toList, "medium".toList, "hardcore".toList] := by
    rcases h with rfl | rfl | rfl <;> simp [Mode.light, Mode.medium, Mode.hardcore]
  exact ⟨(hall _ hmem).1, List.all_eq_true.mp (hall _ hmem).2⟩

/-! ## Comments and calls -/

def isPrinted (c : Char) : Bool := 32 ≤ c.toNat && c.toNat < 127

theorem ascii_of_all {t : List Char} (h : t.all isPrinted = true) :
    ∀ c ∈ t, 32 ≤ c.toNat ∧ c.toNat < 127 := fun c hc => by
  simpa [isPrinted] using List.all_eq_true.mp h c hc

theorem printed_of_all {t : List Char} (h : t.all isPrinted = true) (hlevel : bracketDepth t = 0) :
    Printed t := ⟨ascii_of_all h, hlevel⟩

/-- The comments open with a glyph and close with one, or with nothing, and calls are written as
recovery reads them. -/
structure Readable (k : Classifier) (s : Spelling) : Prop where
  opening : Printed s.commentOpening.toList
  head : ∃ c, s.commentOpening.toList.head? = some c ∧ isBlank c = false
  closing : Printed s.commentClosing.toList
  last : (s.commentClosing.toList.getLast?.any isBlank) = false
  call : s.callOpening = "await " ++ delayIdentifier ++ "("
  ends : s.callClosing = ")" ∨ s.callClosing = ");"
  identifier : k.identifier = delayIdentifier
  openings : k.commentOpenings.all (fun o => !o.toList.isEmpty) = true

section Written

variable {k : Classifier} {s : Spelling} (h : Readable k s)

include h

theorem Readable.comment {id seed mode : String} (hid : ∀ c ∈ id.toList, isGlyph c = true)
    (hseed : ∀ c ∈ seed.toList, isGlyph c = true)
    (hmode : mode.toList ≠ [] ∧ ∀ c ∈ mode.toList, isGlyph c = true) :
    Recognised k .stamp (commentLine s id seed mode).toList := by
  have hline : (commentLine s id seed mode).toList =
      s.commentOpening.toList ++ ("@flake-monster[".toList ++ (stamp.toList ++ ("] v1 id=".toList ++
        (id.toList ++ (" seed=".toList ++ (seed.toList ++ (" mode=".toList ++
          (mode.toList ++ s.commentClosing.toList)))))))) := by
    simp [commentLine, marker, markerOpening, stamp]
  have hprinted : Printed (commentLine s id seed mode).toList := by
    have h1 : Printed "@flake-monster[".toList := printed_of_all (by decide) (by decide)
    have h2 : Printed stamp.toList := printed_of_all (by decide) (by decide)
    have h3 : Printed "] v1 id=".toList := printed_of_all (by decide) (by decide)
    have h4 : Printed " seed=".toList := printed_of_all (by decide) (by decide)
    have h5 : Printed " mode=".toList := printed_of_all (by decide) (by decide)
    rw [hline]
    exact h.opening.append (h1.append (h2.append (h3.append ((printed_of_glyphs hid).append
      (h4.append ((printed_of_glyphs hseed).append (h5.append
        ((printed_of_glyphs hmode.2).append h.closing))))))))
  refine ⟨hprinted.ascii, ?_, ?_, ?_, hprinted.level⟩
  · obtain ⟨c, hc, hblank⟩ := h.head
    intro d hd
    rw [hline, List.head?_append, hc, Option.some_or] at hd
    cases hd
    exact hblank
  · intro c hc
    simp only [hline, ← List.append_assoc] at hc
    rw [List.getLast?_append] at hc
    cases hclosing : s.commentClosing.toList.getLast? with
    | some d =>
      have hlast := h.last
      rw [hclosing] at hc hlast
      cases hc
      exact hlast
    | none =>
      obtain ⟨d, hd⟩ := Option.ne_none_iff_exists'.mp (mt List.getLast?_eq_none_iff.mp hmode.1)
      rw [hclosing, Option.none_or, List.getLast?_append, hd] at hc
      cases hc
      exact (isGlyph_range (hmode.2 c (List.mem_of_getLast? hd))).2.2.2
  · have hstamp : Text.contains (commentLine s id seed mode).toList stamp.toList = true := by
      rw [Text.contains_iff, hline]
      exact (List.infix_append' _ _ _).trans (List.suffix_append _ _).isInfix
    rw [Recovery.classify, if_pos hstamp]

theorem Readable.hasCall_of_call? {line behind : List Char}
    (hcall : Recovery.call? delayIdentifier.toList line = some behind) :
    Recovery.hasCall k line = true := by
  have hnone : k.commentOpenings.any (fun o => Text.contains [] o.toList) = false := by
    rw [List.any_eq_false]
    intro o ho hc
    rw [Text.contains_iff, List.infix_nil] at hc
    have hopen := List.all_eq_true.mp h.openings o ho
    rw [hc] at hopen
    cases hopen
  have hcode : Recovery.isCodePosition k.commentOpenings [] = true := by
    simp [Recovery.isCodePosition, hnone, Recovery.quotes]
  cases line with
  | nil => cases hcall
  | cons c rest =>
    simp [Recovery.hasCall, Recovery.callPrefixes, Recovery.startsWord, h.identifier, hcall, hcode]

theorem Readable.delayCall (delay : Int) :
    Recognised k .identifier (callLine s delay).toList := by
  have hline : (callLine s delay).toList =
      "await __FlakeMonster__(".toList ++ ((toString delay).toList ++ s.callClosing.toList) := by
    simp [callLine, h.call, delayIdentifier]
  have hdelay := printed_of_glyphs (glyphs_of_int delay)
  have hends : s.callClosing.toList = [')'] ∨ s.callClosing.toList = [')', ';'] := by
    rcases h.ends with he | he <;> rw [he] <;> simp
  have hchars : ∀ c ∈ s.callClosing.toList, c = ')' ∨ c = ';' := by
    rcases hends with he | he <;> rw [he] <;> simp
  have hstamp : Text.contains (callLine s delay).toList stamp.toList = false := by
    refine @Text.contains_eq_false_of_not_mem _ _ '!' (by decide) fun hmem => ?_
    rw [hline, List.mem_append, List.mem_append] at hmem
    rcases hmem with hmem | hmem | hmem
    · exact absurd hmem (by decide)
    · exact absurd (glyphs_of_int delay _ hmem) (by decide)
    · exact absurd (hchars _ hmem) (by decide)
  refine ⟨?_, ?_, ?_, ?_, ?_⟩
  · have hopen := @ascii_of_all "await __FlakeMonster__(".toList (by decide)
    intro c hc
    rw [hline, List.mem_append, List.mem_append] at hc
    rcases hc with hc | hc | hc
    · exact hopen c hc
    · exact hdelay.ascii c hc
    · rcases hchars c hc with rfl | rfl <;> decide
  · intro c hc
    rw [hline, List.head?_append] at hc
    cases hc
    rfl
  · intro c hc
    have hlast : ∃ t, (callLine s delay).toList = t ++ [')'] ∨
        (callLine s delay).toList = t ++ [';'] := by
      rcases hends with he | he
      · exact ⟨_, .inl (by rw [hline, he, ← List.append_assoc])⟩
      · refine ⟨"await __FlakeMonster__(".toList ++ ((toString delay).toList ++ [')']), .inr ?_⟩
        rw [hline, he]
        simp
    obtain ⟨t, ht | ht⟩ := hlast <;> rw [ht, List.getLast?_concat] at hc <;> cases hc <;> rfl
  · have hcall : Recovery.call? delayIdentifier.toList (callLine s delay).toList =
        some ((toString delay).toList ++ s.callClosing.toList) := by
      rw [hline]
      rfl
    rw [Recovery.classify, if_neg (by simp [hstamp]), if_pos (h.hasCall_of_call? hcall)]
  · have hlevel : bracketDepth s.callClosing.toList = -1 := by
      rcases hends with he | he <;> rw [he] <;> rfl
    have hopen : bracketDepth "await __FlakeMonster__(".toList = 1 := by decide
    rw [hline, Recovery.bracketDepth_append, Recovery.bracketDepth_append, hdelay.level, hlevel, hopen]
    rfl

end Written

theorem readable_javascript : Readable JavaScript.adapter.classifier JavaScript.adapter.spelling where
  opening := printed_of_all (by decide) (by decide)
  head := ⟨'/', by decide, by decide⟩
  closing := printed_of_all (by decide) (by decide)
  last := by decide
  call := rfl
  ends := .inr rfl
  identifier := rfl
  openings := by decide

theorem readable_python : Readable Python.adapter.classifier Python.adapter.spelling where
  opening := printed_of_all (by decide) (by decide)
  head := ⟨'#', by decide, by decide⟩
  closing := printed_of_all (by decide) (by decide)
  last := by decide
  call := rfl
  ends := .inl rfl
  identifier := rfl
  openings := by decide


/-! ## Imports -/

theorem classify_import {k : Classifier} {line : List Char} (hbang : '!' ∉ line) (hw : 'w' ∉ line)
    (hfragment : k.supportFragment.toList <:+: line)
    (hword : Recovery.hasImportWord none line = true) :
    Recovery.classify k line = some .supportImport := by
  have hstamp : Text.contains line stamp.toList = false :=
    @Text.contains_eq_false_of_not_mem _ _ '!' (by decide) hbang
  have hcall : ¬Recovery.hasCall k line = true := fun hc =>
    hw ((Recovery.infix_of_hasCall hc).1.subset (by decide))
  rw [Recovery.classify, if_neg (by simp [hstamp]), if_neg hcall, if_pos]
  rw [Bool.and_eq_true, Text.contains_iff]
  exact ⟨hfragment, hword⟩

theorem recognised_import_python (file : String) :
    Recognised Python.adapter.classifier .supportImport (Python.adapter.importLine file).toList := by
  have hline : (Python.adapter.importLine file).toList =
      "from flake_monster_runtime import __FlakeMonster__".toList := by
    simp [Python.adapter, Python.importLine, SupportModule.pythonModule, delayIdentifier]
  have hclassify := @classify_import Python.adapter.classifier
    "from flake_monster_runtime import __FlakeMonster__".toList (by decide) (by decide)
    ⟨"from ".toList, " import __FlakeMonster__".toList, by decide⟩ (by decide)
  rw [hline]
  refine ⟨ascii_of_all (by decide), fun c hc => ?_, fun c hc => ?_, hclassify, by decide⟩
  · cases hc
    rfl
  · cases hc
    rfl

/-- The path to the support module goes up, or stays. -/
theorem supportPath_eq (file : String) : ∃ up : List Char, (∀ c ∈ up, c = '.' ∨ c = '/') ∧
    (JavaScript.supportPath file).toList = up ++ "flake-monster.runtime.js".toList := by
  unfold JavaScript.supportPath
  generalize ((Disk.pieces file.toList).filter fun p => !p.isEmpty).length - 1 = depth
  simp only
  split
  · exact ⟨"./".toList, by simp, by simp [SupportModule.javascriptName]⟩
  · refine ⟨(String.join (List.replicate depth "../")).toList, ?_, by
      simp [SupportModule.javascriptName]⟩
    intro c hc
    rw [String.toList_join] at hc
    obtain ⟨t, ht, hc⟩ := List.mem_flatMap.mp hc
    rw [List.eq_of_mem_replicate ht] at hc
    simpa [or_comm] using hc

theorem recognised_import_javascript (file : String) : Recognised JavaScript.adapter.classifier
    .supportImport (JavaScript.adapter.importLine file).toList := by
  obtain ⟨up, hup, hpath⟩ := supportPath_eq file
  have hline : (JavaScript.adapter.importLine file).toList =
      "import \x7b __FlakeMonster__ \x7d from '".toList ++
        (up ++ ("flake-monster.runtime.js".toList ++ "';".toList)) := by
    simp [JavaScript.adapter, JavaScript.importLine, delayIdentifier, hpath]
  have hprinted : Printed (JavaScript.adapter.importLine file).toList := by
    have h1 : Printed "import \x7b __FlakeMonster__ \x7d from '".toList :=
      printed_of_all (by decide) (by decide)
    have h2 : Printed up := printed_of_steps fun c hc => by
      rcases hup c hc with rfl | rfl <;> decide
    have h3 : Printed "flake-monster.runtime.js".toList := printed_of_all (by decide) (by decide)
    have h4 : Printed "';".toList := printed_of_all (by decide) (by decide)
    rw [hline]
    exact h1.append (h2.append (h3.append h4))
  have hnot : ∀ c : Char, (c ≠ '.' ∧ c ≠ '/') → c ∉ "import \x7b __FlakeMonster__ \x7d from '".toList →
      c ∉ "flake-monster.runtime.js".toList ++ "';".toList →
      c ∉ (JavaScript.adapter.importLine file).toList := by
    intro c hc hfront hback hmem
    rw [hline, List.mem_append, List.mem_append] at hmem
    rcases hmem with hmem | hmem | hmem
    · exact hfront hmem
    · exact (hup c hmem).elim hc.1 hc.2
    · exact hback hmem
  refine ⟨hprinted.ascii, ?_, ?_, ?_, hprinted.level⟩
  · intro c hc
    rw [hline, List.head?_append] at hc
    cases hc
    rfl
  · intro c hc
    rw [hline, ← List.append_assoc, ← List.append_assoc, List.getLast?_append] at hc
    cases hc
    rfl
  · refine classify_import (hnot '!' (by decide) (by decide) (by decide))
      (hnot 'w' (by decide) (by decide) (by decide)) ?_ ?_
    · have hname : "flake-monster.runtime.js".toList =
          JavaScript.supportFragment.toList ++ ".js".toList := by simp [JavaScript.supportFragment]
      rw [hline, hname]
      refine ⟨"import \x7b __FlakeMonster__ \x7d from '".toList ++ up, ".js".toList ++ "';".toList, ?_⟩
      change _ ++ JavaScript.supportFragment.toList ++ _ = _
      simp only [List.append_assoc]
    · rw [hline]
      rfl

end Spelling
end DelayInjection
