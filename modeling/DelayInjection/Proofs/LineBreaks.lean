import DelayInjection.Proofs.RoundTrip
import DelayInjection.Proofs.Injection.Indent

/-! Injection followed by removal where statements share their lines with other code. What is left are
the line breaks of the statements that were split off, and the one behind imports that do not end their
line. -/

namespace DelayInjection

open Injection (Choice choices indent indentText isIndentByte isIndentChar isInline linePrefix lineRest
  placements startsWithMark textsAt weave)
open Text.Utf8 (Boundary Bytes encode)

namespace Adapter

/-- More than blanks follow imports that do not end at the start of the file. -/
def breaksAnchor (source : Bytes) (layout : Layout) : Bool :=
  !layout.hasSupportImport && layout.importAnchor != 0 &&
    (lineRest source layout.importAnchor).1.any fun b => !Text.isBlankByte b

/-- The line breaks that injection and removal leave: one with the indent of the line in front of each
statement that shared its line, and one behind the imports. -/
def breaks (a : Adapter) (source : Bytes) (options : Options) (layout : Layout) : List Insertion :=
  ((choices source options a.spelling layout.bodies).filter
      fun c => isInline source c.site.offset).map
    (fun c => ⟨c.site.offset, '\n' :: indentText (indent source c.site.offset)⟩) ++
    if breaksAnchor source layout then [⟨layout.importAnchor, ['\n']⟩] else []

/-! ## What is left of the edits -/

theorem textsAt_filter (insertions : List Insertion) (n : Nat) :
    textsAt (insertions.filter fun i => !i.text.isEmpty) n = textsAt insertions n := by
  induction insertions with
  | nil => rfl
  | cons i insertions ih =>
    rw [textsAt, textsAt] at ih
    by_cases hi : i.text = []
    · rw [List.filter_cons_of_neg (by simp [hi]), textsAt, textsAt, List.filter_cons, ih]
      split
      · simp [hi]
      · rfl
    · rw [List.filter_cons_of_pos (by simp [hi]), textsAt, textsAt, List.filter_cons,
        List.filter_cons]
      split
      · rw [List.flatMap_cons, List.flatMap_cons, ih]
      · exact ih

theorem text_remainder_pointEdit (source : Bytes) (options : Options) (spelling : Spelling)
    (offset : Nat) (point : InjectionPoint) :
    (pointEdit source options spelling offset point).remainder =
      ⟨offset, if isInline source offset then '\n' :: indentText (indent source offset) else []⟩ := by
  unfold pointEdit
  cases isInline source offset <;> rfl

theorem remainder_importEdit_filter (source : Bytes) (anchor : Nat) (line : List Char) :
    [(importEdit source anchor line).remainder].filter (fun i => !i.text.isEmpty) =
      if anchor != 0 && (lineRest source anchor).1.any (fun b => !Text.isBlankByte b)
        then [⟨anchor, ['\n']⟩] else [] := by
  unfold importEdit
  by_cases hzero : anchor = 0
  · simp [hzero, Edit.remainder, Edit.trace]
  · cases hany : (lineRest source anchor).1.any fun b => !Text.isBlankByte b with
    | true => simp [hzero, hany, Edit.remainder, Edit.trace, Edit.offset]
    | false =>
      simp only [hzero, hany, Bool.false_eq_true, if_false, Bool.and_false]
      split <;> rfl

theorem remainder_edits_filter {a : Adapter} {source : Bytes} {options : Options} {layout : Layout}
    {placed : List (Insertion × InjectionPoint)}
    (hplaced : placements source options a.spelling layout.bodies = .ok placed) :
    ((a.edits source options layout placed).map Edit.remainder).filter (fun i => !i.text.isEmpty) =
      a.breaks source options layout := by
  rw [edits, breaks, List.map_append, List.filter_append]
  congr 1
  · have hoffsets := Injection.offsets_of_placements hplaced
    have hmap : (placed.map fun p => pointEdit source options a.spelling p.1.offset p.2).map
        Edit.remainder = (placed.map (·.1.offset)).map fun offset =>
          ⟨offset, if isInline source offset then '\n' :: indentText (indent source offset)
            else []⟩ := by
      rw [List.map_map, List.map_map]
      exact List.map_congr_left fun p _ => text_remainder_pointEdit _ _ _ _ _
    rw [hmap, hoffsets, List.map_map, List.filter_map]
    have hfilter : ((fun i : Insertion => !i.text.isEmpty) ∘ ((fun offset : Nat =>
        (⟨offset, if isInline source offset then '\n' :: indentText (indent source offset)
          else []⟩ : Insertion)) ∘ fun c : Choice => c.site.offset)) =
        fun c : Choice => isInline source c.site.offset := by
      funext c
      cases hi : isInline source c.site.offset <;> simp [hi]
    rw [hfilter]
    refine List.map_congr_left fun c hc => ?_
    simp [(List.mem_filter.mp hc).2]
  · unfold breaksAnchor
    cases layout.hasSupportImport with
    | true => rfl
    | false => exact remainder_importEdit_filter _ _ _

/-- The edits leave the line breaks. -/
theorem weave_remainder {a : Adapter} {source : Bytes} {options : Options} {layout : Layout}
    {placed : List (Insertion × InjectionPoint)}
    (hplaced : placements source options a.spelling layout.bodies = .ok placed) :
    weave ((a.edits source options layout placed).map Edit.remainder).reverse 0 source =
      weave (a.breaks source options layout).reverse 0 source := by
  rw [← remainder_edits_filter hplaced]
  refine Injection.weave_congr (fun n => ?_) 0 source
  rw [← List.filter_reverse, textsAt_filter]

/-! ## Clean pieces -/

theorem remainder_text_chars {a : Adapter} {source : Bytes} {options : Options} {layout : Layout}
    {placed : List (Insertion × InjectionPoint)} :
    ∀ i ∈ (a.edits source options layout placed).map Edit.remainder,
      ∀ c ∈ i.text, c = '\n' ∨ isIndentChar c = true := by
  intro i hi c hc
  obtain ⟨e, he, rfl⟩ := List.mem_map.mp hi
  rcases List.mem_append.mp he with he | he
  · obtain ⟨p, -, rfl⟩ := List.mem_map.mp he
    rw [text_remainder_pointEdit] at hc
    simp only at hc
    split at hc
    · rcases List.mem_cons.mp hc with rfl | hc
      · exact .inl rfl
      · exact .inr (isIndentChar_of_mem_indent hc)
    · cases hc
  · split at he
    · cases he
    · rw [List.mem_singleton] at he
      subst he
      unfold importEdit at hc
      split at hc
      · cases hc
      · simp only at hc
        split at hc
        · exact .inl (List.mem_singleton.mp hc)
        · split at hc <;> cases hc

/-- Line breaks make no fragment where there was none. -/
theorem verdict_of_free {a : Adapter} (ha : a.Legible) {source kept : List Char} {is : List Insertion}
    (hfree : Recovery.Free a.classifier source)
    (hboundary : ∀ i ∈ is, Boundary source i.offset)
    (hchars : ∀ i ∈ is, ∀ c ∈ i.text, c = '\n' ∨ isIndentChar c = true)
    (hkept : Injection.apply (encode source) is = encode kept) :
    ∀ l ∈ Recovery.lines kept, Recovery.verdict a.classifier l = none := by
  intro l hl
  refine Recovery.verdict_eq_none_of_free fun f hf hpart => hfree f hf ?_
  have hfragment := List.all_eq_true.mp ha.fragments f hf
  rw [Bool.and_eq_true, Bool.not_eq_true', List.isEmpty_eq_false_iff] at hfragment
  have hline : l <:+: kept := (Text.infix_of_mem_splitLines hl).trans
    ⟨(Text.splitMark kept).1, [], by rw [List.append_nil, Text.splitMark_append]⟩
  refine Injection.infix_of_apply hfragment.1 hboundary (fun i hi c hc hmem => ?_) hkept
    (hpart.trans hline)
  have hnot := List.all_eq_true.mp hfragment.2 c hmem
  rcases hchars i hi c hc with rfl | hindent
  · simp at hnot
  · simp [hindent] at hnot

/-! ## Statements among other code -/

/-- The places of a layout lie between characters, inside of the source and behind its mark, and no
carriage return stands before a statement that is not split off. -/
structure Among (source : List Char) (options : Options) (spelling : Spelling) (layout : Layout) :
    Prop where
  boundary : ∀ c ∈ choices (encode source) options spelling layout.bodies,
    Boundary source c.site.offset
  inside : ∀ c ∈ choices (encode source) options spelling layout.bodies,
    c.site.offset < (encode source).length
  behind : startsWithMark (encode source) = true →
    ∀ c ∈ choices (encode source) options spelling layout.bodies, 3 ≤ c.site.offset
  anchor : Boundary source layout.importAnchor
  anchorBehind : startsWithMark (encode source) = true → layout.importAnchor ≠ 0 →
    3 ≤ layout.importAnchor
  noReturn : ∀ c ∈ choices (encode source) options spelling layout.bodies,
    isInline (encode source) c.site.offset = false → 13 ∉ linePrefix (encode source) c.site.offset

/-- In front of a statement that is not split off there is nothing but indent. -/
theorem indent_of_not_inline {source : Bytes} {offset : Nat} (h : isInline source offset = false)
    (hreturn : 13 ∉ linePrefix source offset) :
    (linePrefix source offset).all isIndentByte = true := by
  rw [isInline, List.any_eq_false] at h
  refine List.all_eq_true.mpr fun b hb => ?_
  have hnl : b ≠ Injection.newline := by
    rintro rfl
    rw [Injection.linePrefix_eq] at hb
    exact Injection.newline_not_mem_openLine _ hb
  rw [Injection.isIndentByte_of_blank (by simpa using h b hb) hnl, bne_iff_ne]
  rintro rfl
  exact hreturn hb

section Among

variable {a : Adapter} {source : List Char} {options : Options} {layout : Layout}
  {placed : List (Insertion × InjectionPoint)}
  (hplaced : placements (encode source) options a.spelling layout.bodies = .ok placed)
  (hamong : Among source options a.spelling layout)
  (hink : breaksAnchor (encode source) layout = true →
    isInline (encode source) layout.importAnchor = true)

include hplaced hamong hink

theorem suits_of_among :
    ∀ e ∈ a.edits (encode source) options layout placed, e.Suits source := by
  intro e he
  rcases List.mem_append.mp he with he | he
  · obtain ⟨p, hp, rfl⟩ := List.mem_map.mp he
    obtain ⟨c, hc, hpc⟩ := Injection.exists_choice hplaced hp
    have hoffset : p.1.offset = c.site.offset := by
      rw [(Injection.insertion_of_place (i := p.1) (p := p.2) hpc).1]
    rw [hoffset, pointEdit]
    cases hinline : isInline (encode source) c.site.offset with
    | true =>
      exact suits_of_inline (hamong.boundary c hc) (fun hm => hamong.behind hm c hc) hinline rfl
    | false =>
      exact suits_of_indent (Nat.le_of_lt (hamong.inside c hc)) (fun hm => hamong.behind hm c hc)
        (indent_of_not_inline hinline (hamong.noReturn c hc hinline)) rfl
  · split at he
    · cases he
    next himport =>
      rw [List.mem_singleton] at he
      refine he ▸ suits_importEdit fun hpos hany => ?_
      have hbreaks : breaksAnchor (encode source) layout = true := by
        simp [breaksAnchor, himport, Nat.ne_of_gt hpos, hany]
      have hinline := hink hbreaks
      obtain ⟨before, behind, hsplit, hsource, hoffset⟩ := exists_split hamong.anchor
        fun hm => hamong.anchorBehind hm (Nat.ne_of_gt hpos)
      refine ⟨before, behind, hsplit, hoffset, ?_⟩
      rw [← hoffset] at hinline
      conv at hinline in encode source => rw [hsource]
      exact (Injection.isInline_encode _ behind).mp hinline

theorem exists_output_of_among (ha : a.Legible) : ∃ output, Injection.apply (encode source)
    (a.insertions (encode source) options layout placed) = encode output := by
  obtain ⟨output, -, htext, -⟩ := Edit.remove_apply (known_edits hplaced ha)
    (suits_of_among hplaced hamong hink) (final_edits hplaced fun _ => hamong.inside)
  exact ⟨output, by rw [insertions_eq_edits hplaced, htext]⟩

/-- Removal leaves the source with the line breaks. -/
theorem undo_of_among (ha : a.Legible) (hfree : Recovery.Free a.classifier source)
    {result : InjectionResult} (houtput : Text.Utf8.decode (Injection.apply (encode source)
      (a.insertions (encode source) options layout placed)) = .ok result.source) :
    encode (a.remove result.source).source =
        weave (a.breaks (encode source) options layout).reverse 0 (encode source) ∧
      (a.remove result.source).removed =
        2 * placed.length + if layout.hasSupportImport then 0 else 1 := by
  have hsuits := suits_of_among hplaced hamong hink
  obtain ⟨kept, hkept, hall⟩ := remove_of_suits hplaced ha (fun _ => hamong.inside) hsuits houtput
  have hboundary : ∀ i ∈ (a.edits (encode source) options layout placed).map Edit.remainder,
      Boundary source i.offset := by
    intro i hi
    obtain ⟨e, he, rfl⟩ := List.mem_map.mp hi
    exact (hsuits e he).boundary_source
  obtain ⟨hremove, -⟩ := hall (verdict_of_free ha hfree hboundary remainder_text_chars hkept)
  rw [hremove]
  refine ⟨?_, rfl⟩
  rw [← hkept, Injection.apply_eq_weave fun i hi => (hboundary i hi).le_length,
    weave_remainder hplaced]

end Among
end Adapter
end DelayInjection
