import DelayInjection.Main
import DelayInjection.Proofs.Injection.Placement
import DelayInjection.Proofs.Injection.Prefix
import DelayInjection.Proofs.Recovery.Edit
import DelayInjection.Proofs.Recovery.Spelling

/-! What an adapter inserts, as edits: which of them leave nothing behind, and when their places in the
source suit them. -/

namespace DelayInjection

open Injection (Choice choices commentLine callLine idOfKey indent indentText isIndentByte
  isIndentChar isInline linePrefix lineRest newline place startsWithMark)
open Text (Inked lastLine splitMark)
open Text.Utf8 (Boundary Bytes encode)

/-- The edit in front of a statement. -/
def pointEdit (source : Bytes) (options : Options) (spelling : Spelling) (offset : Nat)
    (point : InjectionPoint) : Edit :=
  let comment := (commentLine spelling point.id (toString options.seed) options.mode).toList
  let call := (callLine spelling point.delay).toList
  if isInline source offset
    then .split offset (indentText (indent source offset)) comment call
  else .own offset (indentText (indent source offset)) comment call

/-- The edit that brings in the support module. -/
def importEdit (source : Bytes) (anchor : Nat) (line : List Char) : Edit :=
  if anchor = 0 then .between (if startsWithMark source then 3 else 0) line
  else
    let (rest, ended) := lineRest source anchor
    if rest.any fun b => !Text.isBlankByte b then .breaking anchor line
    else if ended then .between (anchor + rest.length + 1) line
    else .final source.length line

theorem insertion_pointEdit (source : Bytes) (options : Options) (spelling : Spelling) (offset : Nat)
    (point : InjectionPoint) : (pointEdit source options spelling offset point).insertion =
      ⟨offset, Injection.written source options spelling offset point⟩ := by
  unfold pointEdit Injection.written Injection.insertedText
  cases isInline source offset <;> rfl

theorem insertion_importEdit (source : Bytes) (anchor : Nat) (line : List Char) :
    (importEdit source anchor line).insertion = Injection.importInsertion source anchor line := by
  unfold importEdit Injection.importInsertion
  split
  · rfl
  · simp only
    split
    · rfl
    · split <;> rfl

theorem offset_pointEdit (source : Bytes) (options : Options) (spelling : Spelling) (offset : Nat)
    (point : InjectionPoint) : (pointEdit source options spelling offset point).offset = offset := by
  unfold pointEdit
  cases isInline source offset <;> rfl

theorem not_isFinal_pointEdit (source : Bytes) (options : Options) (spelling : Spelling)
    (offset : Nat) (point : InjectionPoint) :
    ¬(pointEdit source options spelling offset point).IsFinal := by
  rintro ⟨n, line, h⟩
  unfold pointEdit at h
  cases hi : isInline source offset <;> rw [hi] at h <;> cases h

theorem offset_of_importEdit_eq_final {source : Bytes} {anchor n : Nat} {line l : List Char}
    (h : importEdit source anchor line = .final n l) : n = source.length := by
  unfold importEdit at h
  split at h
  · cases h
  · simp only at h
    split at h
    · cases h
    · split at h
      · cases h
      · cases h
        rfl

/-! ## Known lines -/

/-- The adapter writes what its classifier reads. -/
structure Adapter.Legible (a : Adapter) : Prop where
  readable : Spelling.Readable a.classifier a.spelling
  imports : ∀ file, Recovery.Recognised a.classifier .supportImport (a.importLine file).toList
  fragments : (Recovery.fragments a.classifier).all (fun f =>
    !f.isEmpty && f.all fun c => c != '\n' && !isIndentChar c) = true

theorem Adapter.legible_of_mem {name : String} {a : Adapter}
    (h : (name, a) ∈ Program.registry.adapters) : a.Legible := by
  simp only [Program.registry, List.map_cons, List.map_nil, List.mem_cons, Prod.mk.injEq,
    List.not_mem_nil, or_false] at h
  rcases h with ⟨-, rfl⟩ | ⟨-, rfl⟩
  · exact ⟨Spelling.readable_javascript, Spelling.recognised_import_javascript, by decide⟩
  · exact ⟨Spelling.readable_python, Spelling.recognised_import_python, by decide⟩

theorem isIndentChar_of_mem_indent {source : Bytes} {offset : Nat} {c : Char}
    (h : c ∈ indentText (indent source offset)) : isIndentChar c = true := by
  obtain ⟨b, hb, rfl⟩ := List.mem_map.mp h
  have hindent := List.all_eq_true.mp List.all_takeWhile b hb
  simp only [isIndentByte, Bool.or_eq_true, beq_iff_eq] at hindent
  rcases hindent with ((rfl | rfl) | rfl) | rfl <;> rfl

/-- Each line of the edit is an indent with a line behind it that recovery recognises. -/
def Edit.Written (k : Classifier) (e : Edit) : Prop :=
  ∀ r ∈ e.lines, ∃ indent line, r.2 = indent ++ line ∧ (∀ c ∈ indent, isIndentChar c = true) ∧
    Recovery.Recognised k r.1 line

theorem Edit.Written.known {k : Classifier} {e : Edit} (h : e.Written k) : e.Known k := by
  intro r hr
  obtain ⟨indent, line, hline, hindent, hrecognised⟩ := h r hr
  have hblank : ∀ c ∈ indent, Text.isBlank c = true := fun c hc =>
    Injection.isBlank_of_isIndentChar (hindent c hc)
  rw [hline]
  refine ⟨⟨fun hc => ?_, fun hc => ?_⟩, hrecognised.verdict_eq hblank, hrecognised.settled hblank⟩
  · exact (List.mem_append.mp hc).elim (fun hc => absurd (hindent _ hc) (by decide))
      hrecognised.newline_not_mem
  · exact (List.mem_append.mp hc).elim (fun hc => absurd (hindent _ hc) (by decide))
      hrecognised.mark_not_mem

theorem lines_pointEdit (source : Bytes) (options : Options) (spelling : Spelling) (offset : Nat)
    (point : InjectionPoint) : (pointEdit source options spelling offset point).lines =
      [(.stamp, indentText (indent source offset) ++
          (commentLine spelling point.id (toString options.seed) options.mode).toList),
        (.identifier, indentText (indent source offset) ++
          (callLine spelling point.delay).toList)] := by
  unfold pointEdit
  cases isInline source offset <;> rfl

theorem written_pointEdit {a : Adapter} (ha : a.Legible) {source : Bytes} {options : Options}
    {offset : Nat} {point : InjectionPoint} (hmode : options.mode ∈ Mode.all)
    (hid : ∃ key, point.id = idOfKey key) :
    (pointEdit source options a.spelling offset point).Written a.classifier := by
  obtain ⟨key, hkey⟩ := hid
  have hindent : ∀ c ∈ indentText (indent source offset), isIndentChar c = true :=
    fun c hc => isIndentChar_of_mem_indent hc
  have hcomment := ha.readable.comment (hkey ▸ Spelling.glyphs_of_key key)
    (Spelling.glyphs_of_int options.seed) (Spelling.glyphs_of_mode hmode)
  have hcall := ha.readable.delayCall point.delay
  intro r hr
  rw [lines_pointEdit, List.mem_cons, List.mem_singleton] at hr
  rcases hr with rfl | rfl
  · exact ⟨_, _, rfl, hindent, hcomment⟩
  · exact ⟨_, _, rfl, hindent, hcall⟩

theorem known_pointEdit {a : Adapter} (ha : a.Legible) {source : Bytes} {options : Options}
    {offset : Nat} {point : InjectionPoint} (hmode : options.mode ∈ Mode.all)
    (hid : ∃ key, point.id = idOfKey key) :
    (pointEdit source options a.spelling offset point).Known a.classifier :=
  (written_pointEdit ha hmode hid).known

theorem lines_importEdit (source : Bytes) (anchor : Nat) (line : List Char) :
    (importEdit source anchor line).lines = [(.supportImport, line)] := by
  unfold importEdit
  split
  · rfl
  · simp only
    split
    · rfl
    · split <;> rfl

theorem written_importEdit {a : Adapter} (ha : a.Legible) (source : Bytes) (anchor : Nat)
    (file : String) :
    (importEdit source anchor (a.importLine file).toList).Written a.classifier := by
  intro r hr
  rw [lines_importEdit, List.mem_singleton] at hr
  subst hr
  exact ⟨[], _, rfl, (fun c hc => nomatch hc), ha.imports file⟩

/-! ## Places -/

theorem startsWithMark_encode (t : List Char) :
    startsWithMark (encode t) = true ↔ (splitMark t).1 = [Text.mark] := by
  have hmark : encode [Text.mark] = Text.Utf8.byteOrderMark := by decide
  rw [startsWithMark, List.isPrefixOf_iff_prefix, ← hmark]
  constructor
  · rintro ⟨rest, hrest⟩
    have hdecode := Text.Utf8.decodeFrom_encode 0 t
    rw [← hrest, Text.Utf8.encode_cons, Text.Utf8.encode_nil, List.append_nil,
      Text.Utf8.decodeFrom_encodeChar] at hdecode
    cases hd : Text.Utf8.decodeFrom (0 + (Text.Utf8.encodeChar Text.mark).length) rest with
    | error e =>
      rw [hd] at hdecode
      cases hdecode
    | ok u =>
      rw [hd] at hdecode
      cases hdecode
      rfl
  · intro h
    refine ⟨encode (splitMark t).2, ?_⟩
    rw [← h, ← Text.Utf8.encode_append, Text.splitMark_append]

/-- A place behind the mark splits the text behind the mark. -/
theorem exists_split {source : List Char} {offset : Nat} (h : Boundary source offset)
    (hmark : startsWithMark (encode source) = true → 3 ≤ offset) :
    ∃ before behind, (splitMark source).2 = before ++ behind ∧
      source = ((splitMark source).1 ++ before) ++ behind ∧
      (encode ((splitMark source).1 ++ before)).length = offset := by
  obtain ⟨b, behind, hb, hlen⟩ := h
  have hfront : (encode (splitMark source).1).length ≤ offset := by
    rcases Text.splitMark_cases source with hc | ⟨hc, -⟩
    · rw [hc]
      exact hmark ((startsWithMark_encode source).mpr hc)
    · rw [hc]
      exact Nat.zero_le _
  have hsplit := Text.splitMark_append source
  rcases List.append_eq_append_iff.mp (hsplit.trans hb) with ⟨u, hu, hu'⟩ | ⟨u, hu, hu'⟩
  · refine ⟨u, behind, hu', ?_, by rw [← hu, hlen]⟩
    rw [List.append_assoc, ← hu', hsplit]
  · have hb : b = (splitMark source).1 := by
      refine Text.Utf8.eq_of_append_eq (hb.symm.trans hsplit.symm) ?_
      rw [hu, Text.Utf8.encode_append, List.length_append] at hfront ⊢
      omega
    refine ⟨[], (splitMark source).2, rfl, by rw [List.append_nil, hsplit], ?_⟩
    rw [List.append_nil, ← hb, hlen]

/-- Behind nothing but indent, on a line that the mark does not open, a statement stands alone. -/
theorem suits_of_indent {source : List Char} {offset : Nat} {indent comment call : List Char}
    (hlen : offset ≤ (encode source).length)
    (hmark : startsWithMark (encode source) = true → 3 ≤ offset)
    (hindent : (linePrefix (encode source) offset).all isIndentByte = true)
    (heq : indent = indentText (Injection.indent (encode source) offset)) :
    (Edit.own offset indent comment call).Suits source := by
  obtain ⟨before, behind, hsplit, hsource, hoffset⟩ :=
    exists_split (Injection.boundary_of_indent hlen hindent) hmark
  refine ⟨before, behind, hsplit, hoffset, ?_⟩
  have hline : lastLine ((splitMark source).1 ++ before) = indent ∧
      ∀ c ∈ lastLine ((splitMark source).1 ++ before), isIndentChar c = true := by
    rw [← hoffset] at hindent heq
    conv at hindent in encode source => rw [hsource]
    conv at heq in encode source => rw [hsource]
    rw [heq]
    exact Injection.lastLine_eq_indent _ behind hindent
  refine ⟨?_, Injection.not_inked_of_indent hline.2⟩
  rcases Text.splitMark_cases source with hc | ⟨hc, -⟩
  · by_cases hnl : '\n' ∈ before
    · rw [← hline.1, Text.lastLine_append_of_mem hnl]
    · have hmem : Text.mark ∈ lastLine ((splitMark source).1 ++ before) := by
        rw [Text.lastLine_append_of_not_mem hnl, hc]
        exact List.mem_append_left _ (by decide)
      exact absurd (hline.2 _ hmem) (by decide)
  · rw [← hline.1, hc, List.nil_append]

/-- Behind other code a statement may be split off. -/
theorem suits_of_inline {source : List Char} {offset : Nat} {indent comment call : List Char}
    (hboundary : Boundary source offset)
    (hmark : startsWithMark (encode source) = true → 3 ≤ offset)
    (hinline : isInline (encode source) offset = true)
    (heq : indent = indentText (Injection.indent (encode source) offset)) :
    (Edit.split offset indent comment call).Suits source := by
  obtain ⟨before, behind, hsplit, hsource, hoffset⟩ := exists_split hboundary hmark
  refine ⟨before, behind, hsplit, hoffset, ?_, ?_⟩
  · rw [← hoffset] at hinline
    conv at hinline in encode source => rw [hsource]
    exact (Injection.isInline_encode _ behind).mp hinline
  · rintro rfl
    rw [← hoffset] at heq
    conv at heq in encode source => rw [hsource]
    rw [heq, Injection.indent_encode]
    rcases Text.splitMark_cases source with hc | ⟨hc, -⟩ <;> rw [hc] <;> decide

/-- A line may go between two lines. -/
theorem suits_of_newline {source : List Char} {offset : Nat} {line : List Char}
    (h : (encode source)[offset]? = some newline) :
    (Edit.between (offset + 1) line).Suits source := by
  have hmark : startsWithMark (encode source) = true → 3 ≤ offset + 1 := by
    intro hm
    obtain ⟨rest, hrest⟩ := List.isPrefixOf_iff_prefix.mp hm
    rw [← hrest] at h
    match offset, h with
    | 0, h => simp [Text.Utf8.byteOrderMark, newline] at h
    | 1, h => simp [Text.Utf8.byteOrderMark, newline] at h
    | n + 2, _ => omega
  obtain ⟨before, behind, hsplit, hsource, hoffset⟩ :=
    exists_split (Text.Utf8.boundary_of_ascii h (by decide)) hmark
  refine ⟨before, behind, hsplit, hoffset, ?_⟩
  conv at h in encode source => rw [hsource]
  have hline := Injection.lastLine_eq_nil_of_newline hoffset h
  rcases Text.splitMark_cases source with hc | ⟨hc, -⟩
  · by_cases hnl : '\n' ∈ before
    · rwa [Text.lastLine_append_of_mem hnl] at hline
    · rw [Text.lastLine_append_of_not_mem hnl, hc] at hline
      exact absurd (List.append_eq_nil_iff.mp hline).1 (by decide)
  · rwa [hc] at hline

/-- The newline that ends the line of an anchor. -/
theorem getElem?_lineRest {source : Bytes} {anchor : Nat} (h : (lineRest source anchor).2 = true) :
    source[anchor + (lineRest source anchor).1.length]? = some newline := by
  simp only [lineRest, decide_eq_true_eq] at h ⊢
  have hsplit := List.takeWhile_append_dropWhile (p := (· != newline)) (l := source.drop anchor)
  have hne : (source.drop anchor).dropWhile (· != newline) ≠ [] := by
    intro hnil
    rw [hnil, List.append_nil] at hsplit
    rw [hsplit] at h
    exact Nat.lt_irrefl _ h
  rw [← List.getElem?_drop]
  conv in source.drop anchor => rw [← hsplit]
  rw [List.getElem?_append_right (Nat.le_refl _), Nat.sub_self]
  have hhead := List.head_dropWhile_not (· != newline) hne
  rw [← List.head?_eq_getElem?, List.head?_eq_some_head hne]
  simpa using hhead

theorem suits_importEdit {source : List Char} {anchor : Nat} {line : List Char}
    (hbreak : 0 < anchor → (lineRest (encode source) anchor).1.any (fun b => !Text.isBlankByte b) = true →
      (Edit.breaking anchor line).Suits source) :
    (importEdit (encode source) anchor line).Suits source := by
  unfold importEdit
  split
  next =>
    refine ⟨[], (splitMark source).2, rfl, ?_, rfl⟩
    rw [List.append_nil]
    rcases Text.splitMark_cases source with hc | ⟨hc, -⟩
    · rw [hc]
      exact (if_pos ((startsWithMark_encode source).mpr hc)).symm
    · have hnot : ¬startsWithMark (encode source) = true := by
        rw [startsWithMark_encode, hc]
        exact List.ne_cons_self
      rw [hc]
      exact (if_neg hnot).symm
  next hpos =>
    simp only
    split
    next hany => exact hbreak (Nat.pos_of_ne_zero hpos) hany
    next =>
      split
      next hended => exact suits_of_newline (getElem?_lineRest hended)
      next =>
        refine ⟨(splitMark source).2, [], by rw [List.append_nil], ?_, rfl⟩
        rw [Text.splitMark_append]
        rfl

end DelayInjection
