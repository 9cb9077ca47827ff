import DelayInjection.Proofs.Injection.Merge
import DelayInjection.Proofs.JavaScript.Statement
import DelayInjection.Proofs.LineBreaks
import DelayInjection.Proofs.Recovery.Halves

/-! Imports with a comment behind them on their line. The comment is taken for code: the import of the
support module breaks the line in front of it, and removal does not join the halves again. Only where
nothing but the blanks of ASCII follow the imports does the round trip give back the module. -/

namespace DelayInjection

open Adapter (isInline_eq_false_of_indent)
open Injection (choices firstLine isIndentByte isInline linePrefix lineRest placements splice
  startsWithMark)
open Text (Inked isWordChar lastLine)
open Text.Utf8 (Boundary encode)

namespace JavaScript

/-- The characters between tokens, by their codes. -/
def gapCodes : List Nat := 0x200B :: 0x2060 :: 0xFEFF :: Recovery.blankCodes

theorem not_isWordChar_of_isGap {c : Char} (h : isGap c = true) : isWordChar c = false := by
  have hmem : c.toNat ∈ gapCodes := by
    simp only [isGap, Bool.or_eq_true, Bool.and_eq_true, decide_eq_true_eq, beq_iff_eq] at h
    simp only [gapCodes, Recovery.blankCodes, List.mem_cons, List.not_mem_nil, or_false]
    omega
  have hall : (gapCodes.all fun n => !isWordChar (Char.ofNat n)) = true := by decide +kernel
  have hc := List.all_eq_true.mp hall _ hmem
  rw [Char.ofNat_toNat] at hc
  simpa using hc

/-- Blanks, and then nothing more or a comment. -/
def IsRemark (text : List Char) : Prop :=
  ∃ gaps comment, text = gaps ++ comment ∧ (∀ c ∈ gaps, isGap c = true) ∧
    (comment = [] ∨ "//".toList <+: comment ∨ "/*".toList <+: comment)

theorem IsRemark.onlyComment {text : List Char} (h : IsRemark text) :
    Recovery.OnlyComment adapter.classifier text := by
  obtain ⟨gaps, comment, htext, hgaps, hcomment⟩ := h
  refine ⟨gaps, comment, htext, fun c hc => not_isWordChar_of_isGap (hgaps c hc), ?_⟩
  rcases hcomment with hnil | hline | hblock
  · exact .inl hnil
  · exact .inr ⟨"//", List.mem_cons_self, hline⟩
  · exact .inr ⟨"/*", List.mem_cons_of_mem _ List.mem_cons_self, hblock⟩

theorem plainOpenings : Recovery.PlainOpenings adapter.classifier := by
  have hall : (adapter.classifier.commentOpenings.all fun o => !o.toList.isEmpty &&
      o.toList.all fun c => !Text.isBlank c && c != Text.mark && !isWordChar c) = true := by decide
  intro o ho
  have hopening := List.all_eq_true.mp hall o ho
  rw [Bool.and_eq_true, List.all_eq_true] at hopening
  refine ⟨by simpa using hopening.1, fun c hc => ?_⟩
  simpa [and_assoc] using hopening.2 c hc

theorem legible : adapter.Legible := by
  have hmem : ("javascript", adapter) ∈ Program.registry.adapters := by simp [Program.registry, adapter]
  exact Adapter.legible_of_mem hmem

theorem isWordChar_identifier : ∀ c ∈ adapter.classifier.identifier.toList, isWordChar c = true :=
  List.all_eq_true.mp (by decide)

/-- In a module without a mark every statement with a delay stands behind indent only, and of the last
import's line only blanks and comments follow the import. -/
structure Remarked (source : List Char) (options : Options) (program : Tree) (found : Layout) : Prop where
  outline : outline? source = some program
  found_eq : found = layout (encode source) options.skipGenerators program
  unmarked : startsWithMark (encode source) = false
  alone : ∀ c ∈ choices (encode source) options adapter.spelling
      found.bodies,
    (linePrefix (encode source) c.site.offset).all isIndentByte = true
  remark : ∀ t ∈ lastImport? program, ∃ text,
    (lineRest (encode source) t.stop).1 = encode text ∧ IsRemark text

section Remarked

variable {source : List Char} {options : Options} {program : Tree} {found : Layout}

/-- The text with a line break in place of the import. -/
def broken (source : List Char) (layout : Layout) : Text.Utf8.Bytes :=
  if Adapter.breaksAnchor (encode source) layout
    then splice (encode source) ⟨layout.importAnchor, ['\n']⟩
  else encode source

variable (h : Remarked source options program found)

include h

theorem Remarked.locate : JavaScript.locate (encode source) options = .ok found := by
  rw [JavaScript.locate, Text.Utf8.decode?, Text.Utf8.decode_encode, h.found_eq]
  simp [Except.toOption, h.outline]

/-- No mark stands in front of the lines. -/
theorem Remarked.lines_append {before behind text : List Char} (hsource : source = before ++ behind)
    (hne : before ≠ []) : Recovery.lines (before ++ text) = Text.splitLines (before ++ text) := by
  have hhead : (before ++ text).head? ≠ some Text.mark := by
    obtain ⟨c, rest, rfl⟩ := List.exists_cons_of_ne_nil hne
    rintro ⟨⟩
    have hmark := (startsWithMark_encode source).mpr (by rw [hsource]; rfl)
    rw [h.unmarked] at hmark
    cases hmark
  have hsplit : Text.splitMark (before ++ text) = ([], before ++ text) :=
    Text.splitMark_of_cases (.inr ⟨rfl, hhead⟩)
  rw [Recovery.lines, hsplit]

/-- The text in front of the anchor and behind it. -/
theorem Remarked.exists_anchor
    (hanchor : found.importAnchor ≠ 0) :
    ∃ before behind, source = before ++ behind ∧ Inked (lastLine before) ∧
      (encode before).length = found.importAnchor ∧ IsRemark (firstLine behind) := by
  rw [h.found_eq] at hanchor ⊢
  obtain ⟨before, behind, hsource, hink, hlength, hkind⟩ := exists_before_importAnchor h.outline hanchor
  refine ⟨before, behind, hsource, hink, hlength, ?_⟩
  rcases hkind with ⟨t, ht, hstop⟩ | hend
  · obtain ⟨text, htext, hremark⟩ := h.remark t ht
    rw [hstop, ← hlength] at htext
    conv at htext in encode source => rw [hsource]
    rw [Injection.lineRest_encode] at htext
    rwa [Text.Utf8.encode_injective htext]
  · exact ⟨[], [], hend, by simp, .inl rfl⟩

theorem Remarked.boundary : ∀ c ∈ choices (encode source) options adapter.spelling
    found.bodies, Boundary source c.site.offset := by
  intro c hc
  obtain ⟨body, hbody, hs⟩ := Injection.exists_body_of_mem_choices hc
  exact boundary_of_mem_statements h.outline (h.found_eq ▸ hbody) hs

/-- If the import goes to the very end, its line holds the imports, and so no statement stands alone
there. -/
theorem Remarked.inside (line : List Char)
    (hfinal : (importEdit (encode source)
      found.importAnchor line).IsFinal) :
    ∀ c ∈ choices (encode source) options adapter.spelling
        found.bodies,
      c.site.offset < (encode source).length := by
  have hanchor : found.importAnchor ≠ 0 := by
    intro hzero
    obtain ⟨n, l, hnl⟩ := hfinal
    rw [hzero] at hnl
    cases hnl
  obtain ⟨before, behind, hsource, hink, hlength, -⟩ := h.exists_anchor hanchor
  have hopen : (lineRest (encode source)
      found.importAnchor).2 = false := by
    obtain ⟨n, l, hnl⟩ := hfinal
    unfold importEdit at hnl
    rw [if_neg hanchor] at hnl
    simp only at hnl
    split at hnl
    · cases hnl
    · split at hnl
      · cases hnl
      next hended => simpa using hended
  rw [← hlength] at hopen
  conv at hopen in encode source => rw [hsource]
  rw [Injection.lineRest_encode] at hopen
  have hwhole : '\n' ∉ behind := by
    intro hmem
    have hfirst : firstLine behind = behind := by simpa using hopen
    rw [← hfirst] at hmem
    simpa using List.all_eq_true.mp List.all_takeWhile _ hmem
  intro c hc
  refine Nat.lt_of_le_of_ne (h.boundary c hc).le_length fun hend => ?_
  have halone := h.alone c hc
  rw [hend] at halone
  have hinked : Inked (lastLine source) := by
    rw [hsource, Text.lastLine_append_of_not_mem hwhole]
    exact hink.append_right
  have hinline := (Injection.isInline_encode source []).mpr hinked
  rw [List.append_nil, isInline_eq_false_of_indent halone] at hinline
  cases hinline

theorem Remarked.verdict (hclean : adapter.scan source = []) {kept : List Char}
    (hkept : broken source found = encode kept) :
    ∀ l ∈ Recovery.lines kept, Recovery.verdict adapter.classifier l = none := by
  rw [broken] at hkept
  split at hkept
  next hbreaks =>
    have hne : found.importAnchor ≠ 0 := by
      simp only [Adapter.breaksAnchor, Bool.and_eq_true, bne_iff_ne] at hbreaks
      exact hbreaks.1.2
    obtain ⟨before, behind, hsource, ⟨x, hx, -⟩, hlength, hremark⟩ := h.exists_anchor hne
    have hbroken : kept = before ++ '\n' :: behind := by
      refine (Text.Utf8.encode_injective ?_).symm
      rw [← hkept, splice, ← hlength, hsource]
      simp
    have hne' : before ≠ [] := by
      rintro rfl
      cases hx
    rw [hbroken, h.lines_append hsource hne']
    have hlines := Recovery.scan_eq_nil_iff.mp hclean
    rw [hsource, h.lines_append hsource hne'] at hlines
    exact Recovery.verdict_of_break plainOpenings isWordChar_identifier hremark.onlyComment hlines
  next =>
    rw [← Text.Utf8.encode_injective hkept]
    exact Recovery.scan_eq_nil_iff.mp hclean

variable {placed : List (Insertion × InjectionPoint)}
  (hplaced : placements (encode source) options adapter.spelling
    found.bodies = .ok placed)

include hplaced

theorem Remarked.suits : ∀ e ∈ adapter.edits (encode source) options
    found placed, e.Suits source := by
  intro e he
  rcases List.mem_append.mp he with he | he
  · obtain ⟨p, hp, rfl⟩ := List.mem_map.mp he
    obtain ⟨c, hc, hpc⟩ := Injection.exists_choice hplaced hp
    have halone := h.alone c hc
    rw [(Injection.insertion_of_place (i := p.1) (p := p.2) hpc).1, pointEdit,
      isInline_eq_false_of_indent halone]
    exact suits_of_indent (h.boundary c hc).le_length (fun hm => absurd hm (by simp [h.unmarked]))
      halone rfl
  · split at he
    · cases he
    · rw [List.mem_singleton] at he
      refine he ▸ suits_importEdit fun hpos _ => ?_
      obtain ⟨before, behind, hsource, hink, hlength, -⟩ := h.exists_anchor (Nat.ne_of_gt hpos)
      obtain ⟨front, rest, hsplit, hsource', hlength'⟩ := exists_split ⟨before, behind, hsource, hlength⟩
        fun hm => absurd hm (by simp [h.unmarked])
      have hbefore : (Text.splitMark source).1 ++ front = before :=
        Text.Utf8.eq_of_append_eq (hsource'.symm.trans hsource) (hlength'.trans hlength.symm)
      refine ⟨front, rest, hsplit, hlength', ?_⟩
      rw [← hbefore] at hink
      exact hink

/-- What the edits leave is the text, perhaps with a line break. -/
theorem Remarked.apply_remainder : Injection.apply (encode source)
    ((adapter.edits (encode source) options
      found placed).map Edit.remainder) =
    broken source found := by
  have hnone : (choices (encode source) options adapter.spelling
      found.bodies).filter
        (fun c => isInline (encode source) c.site.offset) = [] := by
    refine List.filter_eq_nil_iff.mpr fun c hc => ?_
    rw [isInline_eq_false_of_indent (h.alone c hc)]
    exact Bool.false_ne_true
  have hlen : ∀ i ∈ (adapter.edits (encode source) options
      found placed).map Edit.remainder,
      i.offset ≤ (encode source).length := by
    intro i hi
    obtain ⟨e, he, rfl⟩ := List.mem_map.mp hi
    exact (h.suits hplaced e he).boundary_source.le_length
  have hanchor : Adapter.breaksAnchor (encode source) found = true →
      found.importAnchor ≤ (encode source).length := by
    intro hbreaks
    have hne : found.importAnchor ≠ 0 := by
      simp only [Adapter.breaksAnchor, Bool.and_eq_true, bne_iff_ne] at hbreaks
      exact hbreaks.1.2
    obtain ⟨before, behind, hsource, -, hlength, -⟩ := h.exists_anchor hne
    exact Boundary.le_length ⟨before, behind, hsource, hlength⟩
  rw [Injection.apply_eq_weave hlen, Adapter.weave_remainder hplaced, Adapter.breaks, hnone, broken]
  split
  next hbreaks =>
    have hone : Injection.apply (encode source) [⟨found.importAnchor, ['\n']⟩] =
        splice (encode source) ⟨found.importAnchor, ['\n']⟩ := by simp [Injection.apply]
    rw [← hone, Injection.apply_eq_weave (by simpa using hanchor hbreaks)]
    rfl
  next =>
    have hself := @Injection.apply_eq_weave (encode source) [] (by simp)
    exact hself.symm.trans (Injection.apply_eq_self (by simp))

theorem Remarked.undo (hclean : adapter.scan source = []) {result : InjectionResult}
    (houtput : Text.Utf8.decode (Injection.apply (encode source)
      (adapter.insertions (encode source) options found placed)) = .ok result.source) :
    encode (adapter.remove result.source).source = broken source found ∧
      (adapter.remove result.source).removed =
        2 * placed.length + if found.hasSupportImport then 0 else 1 := by
  obtain ⟨kept, hkept, hall⟩ := Adapter.remove_of_suits hplaced legible (h.inside _) (h.suits hplaced)
    houtput
  rw [h.apply_remainder hplaced] at hkept
  obtain ⟨hremove, -⟩ := hall (h.verdict hclean hkept)
  rw [hremove]
  exact ⟨hkept.symm, rfl⟩

end Remarked

theorem broken_eq_iff {source : List Char} {found : Layout} : broken source found = encode source ↔
    Adapter.breaksAnchor (encode source) found = false := by
  rw [broken]
  split
  next hbreaks =>
    refine iff_of_false (fun heq => ?_) (by simp [hbreaks])
    have hlength := congrArg List.length heq
    rw [Injection.length_splice] at hlength
    exact absurd hlength (Nat.ne_of_gt (Nat.lt_add_of_pos_right Nat.zero_lt_one))
  next hbreaks => exact iff_of_true rfl (by simpa using hbreaks)

section EndOfLine

variable {source : List Char} {options : Options} {found : Layout}

theorem exists_remarked (hsource : source = "import a from 'a'; // c\nawait f();\n".toList)
    (hoptions : options = { filePath := "a.js" })
    (hfound : found = ⟨[⟨topLevel, [⟨.plain, 24, 2, 0⟩]⟩], 18, false⟩) :
    (∃ program, Remarked source options program found) ∧ adapter.scan source = [] ∧
      Adapter.breaksAnchor (encode source) found = true ∧
      (choices (encode source) options adapter.spelling found.bodies).length = 1 := by
  have hprogram : (outline? source).map
      (fun p => (layout (encode source) options.skipGenerators p, (lastImport? p).map (·.stop))) =
        some (found, some 18) := by
    subst hsource hoptions hfound
    decide +kernel
  obtain ⟨program, houtline, heq⟩ := Option.map_eq_some_iff.mp hprogram
  have hchoices : choices (encode source) options adapter.spelling found.bodies =
      [⟨topLevel, 0, ⟨.plain, 24, 2, 0⟩⟩] := by
    subst hsource hoptions hfound
    decide +kernel
  have hmark : startsWithMark (encode source) = false := by
    subst hsource
    decide +kernel
  have halone : (linePrefix (encode source) 24).all isIndentByte = true := by
    subst hsource
    decide +kernel
  have hrest : (lineRest (encode source) 18).1 = encode " // c".toList := by
    subst hsource
    decide +kernel
  refine ⟨⟨program, houtline, (congrArg Prod.fst heq).symm, hmark, ?_, ?_⟩, ?_, ?_, ?_⟩
  · rw [hchoices]
    simpa using halone
  · intro t ht
    have hstop := congrArg Prod.snd heq
    rw [Option.mem_def.mp ht] at hstop
    have hanchor : t.stop = 18 := Option.some.inj hstop
    rw [hanchor]
    exact ⟨_, hrest, [' '], "// c".toList, rfl, by simp [isGap], .inr (.inl ⟨" c".toList, rfl⟩)⟩
  · subst hsource
    decide +kernel
  · subst hsource hfound
    decide +kernel
  · rw [hchoices]
    rfl

/-- A delay goes in front of the second line. -/
theorem exists_inject_of_remarked (hsource : source = "import a from 'a'; // c\nawait f();\n".toList)
    (hoptions : options = { filePath := "a.js" }) :
    ∃ program found placed result, Remarked source options program found ∧ adapter.scan source = [] ∧
      Adapter.breaksAnchor (encode source) found = true ∧
      placements (encode source) options adapter.spelling found.bodies = .ok placed ∧
      adapter.inject source options = .ok result ∧ result.points ≠ [] ∧
      Text.Utf8.decode (Injection.apply (encode source)
        (adapter.insertions (encode source) options found placed)) = .ok result.source := by
  obtain ⟨found, hfound⟩ : ∃ l : Layout, l = ⟨[⟨topLevel, [⟨.plain, 24, 2, 0⟩]⟩], 18, false⟩ := ⟨_, rfl⟩
  obtain ⟨⟨program, h⟩, hclean, hbreaks, hone⟩ := exists_remarked hsource hoptions hfound
  have hok : (placements (encode source) options adapter.spelling
      found.bodies).toOption.isSome = true := by
    subst hsource hoptions hfound
    decide +kernel
  cases hplaced : placements (encode source) options adapter.spelling found.bodies with
  | error e =>
    rw [hplaced] at hok
    cases hok
  | ok placed =>
    have hlength := (Injection.length_of_placements hplaced).trans hone
    have hne : placed ≠ [] := fun h => by rw [h] at hlength; cases hlength
    have hstamp : Text.contains source stamp.toList = false := by
      subst hsource
      decide +kernel
    obtain ⟨output, -, htext, -⟩ := Edit.remove_apply (Adapter.known_edits hplaced legible)
      (h.suits hplaced) (Adapter.final_edits hplaced (h.inside _))
    have houtput : Injection.apply (encode source) (adapter.insertions (encode source) options found
        placed) = encode output := by rw [Adapter.insertions_eq_edits hplaced, htext]
    have hinject := Adapter.inject_eq_ok hstamp h.locate hplaced hne houtput
    refine ⟨program, found, placed, _, h, hclean, hbreaks, hplaced, hinject, by simpa, ?_⟩
    rw [houtput, Text.Utf8.decode_encode]

end EndOfLine

end JavaScript
end DelayInjection
