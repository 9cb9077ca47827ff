import Mathlib.Data.List.Flatten
import Mathlib.Data.List.Perm.Subperm
import DelayInjection.Proofs.RoundTrip
import DelayInjection.Proofs.Injection.Indent

/-! Injection followed by removal of statements that have their lines for themselves, whatever blanks stand
in front of them. A carriage return there goes with the line of the marker, and nothing brings it back, so
that the round trip is exact if and only if the indents are what stands in front of the statements. -/

namespace DelayInjection

open Text (joinLines lastLine mark splitLines splitMark)
open Text.Utf8 (Boundary Bytes encode)

/-! ## Characters that are written and removed -/

namespace Recovery

variable {k : Classifier} {c : Char} {line source : List Char}

/-- A character other than a newline is lost with its line. -/
theorem count_remove_lt (hc : c ≠ '\n') (hline : line ∈ lines source) (hmem : c ∈ line)
    (hgoes : verdict k line ≠ none) : (remove k source).source.count c < source.count c := by
  obtain ⟨marked, hmarked⟩ : ∃ m, m = (lines source).zip (reasons k 0 (lines source)) := ⟨_, rfl⟩
  obtain ⟨kept, hkept⟩ : ∃ ls, ls = (marked.filter fun m => m.2.isNone).map (·.1) := ⟨_, rfl⟩
  have hsub : kept.Sublist (lines source) := by
    have hfst : marked.map (·.1) = lines source := by
      rw [hmarked, List.map_fst_zip (Nat.le_of_eq (length_reasons k 0 _).symm)]
    rw [hkept, ← hfst]
    exact List.filter_sublist.map _
  -- a line that stays has no verdict, even if a span is open there, so that this one goes
  have hnot : line ∉ kept := by
    intro hin
    obtain ⟨p, hp, rfl⟩ := List.mem_map.mp (hkept ▸ hin)
    obtain ⟨hp, hnone⟩ := List.mem_filter.mp hp
    exact hgoes (verdict_of_kept p (hmarked ▸ hp) hnone)
  have hlost : kept.flatten.count c < (lines source).flatten.count c := by
    obtain ⟨ls, hperm, hls⟩ := List.cons_subperm_of_not_mem_of_mem hnot hline hsub.subperm
    calc kept.flatten.count c < line.count c + kept.flatten.count c :=
          Nat.lt_add_of_pos_left (List.count_pos_iff.mpr hmem)
      _ = ls.flatten.count c := by
          rw [hperm.flatten.count_eq, List.flatten_cons, List.count_append]
      _ ≤ (lines source).flatten.count c := hls.flatten.count_le c
  have hsource : source = (splitMark source).1 ++ joinLines (lines source) := by
    rw [lines, Text.joinLines_splitLines, Text.splitMark_append]
  rw [remove_of_marked rfl hmarked.symm, ← hkept]
  conv_rhs => rw [hsource]
  simp only [List.count_append, Text.count_joinLines hc]
  omega

end Recovery

namespace Edit

/-- An edit brings no carriage return. -/
theorem Written.return_not_mem_text {k : Classifier} {e : Edit} (h : e.Written k) : '\r' ∉ e.text := by
  intro hmem
  obtain ⟨r, hr, hc⟩ := (mem_text hmem).resolve_left (by decide)
  obtain ⟨indent, line, hline, hindent, hrecognised⟩ := h r hr
  rw [hline] at hc
  rcases List.mem_append.mp hc with hc | hc
  · exact absurd (hindent _ hc) (by decide)
  · exact absurd (hrecognised.ascii _ hc).1 (by decide)

end Edit

/-! ## Carriage returns in front of a statement -/

open Injection (carriageReturn joined linePrefix)

theorem return_mem_linePrefix_iff {source before behind : List Char}
    (hsplit : (splitMark source).2 = before ++ behind) :
    carriageReturn ∈ linePrefix (encode source) (encode ((splitMark source).1 ++ before)).length ↔
      '\r' ∈ lastLine before := by
  have hfront : '\r' ∉ lastLine (splitMark source).1 := by
    rcases Text.splitMark_cases source with h | ⟨h, -⟩ <;> rw [h] <;> decide
  have hsource : source = ((splitMark source).1 ++ before) ++ behind := by
    rw [List.append_assoc, ← hsplit, Text.splitMark_append]
  conv in encode source => rw [hsource]
  rw [Injection.linePrefix_encode]
  refine (Injection.mem_encode_iff (d := '\r') (by decide)).trans ⟨fun h => ?_, fun h => ?_⟩
  · by_contra hnot
    exact Text.not_mem_lastLine_append hfront hnot h
  · exact Text.mem_lastLine_append h

/-- The output is the source, cut where the edits go, with their texts between the pieces. -/
structure Interleaved (source output : List Char) (es : List Edit) (cuts : List (List Char × Edit))
    (tail : List Char) : Prop where
  order : cuts.map (·.2) = Injection.inOrder Edit.offset es
  source_eq : (splitMark source).2 = joined (fun _ => []) cuts tail
  placed : Injection.Placed Edit.offset (encode (splitMark source).1).length cuts
  output_eq : output = (splitMark source).1 ++ joined Edit.text cuts tail

namespace Interleaved

variable {k : Classifier} {source output tail : List Char} {es : List Edit}
  {cuts above below : List (List Char × Edit)} {cut : List Char × Edit}

theorem exists_of_boundary (hboundary : ∀ e ∈ es, (encode (splitMark source).1).length ≤ e.offset ∧
      Boundary (splitMark source).2 (e.offset - (encode (splitMark source).1).length))
    (houtput : Injection.apply (encode source) (es.map Edit.insertion) = encode output) :
    ∃ cuts tail, Interleaved source output es cuts tail := by
  obtain ⟨cuts, tail, hcuts, hsource, hplaced, happly⟩ :=
    Injection.exists_apply_eq_joined Edit.offset hboundary
  refine ⟨cuts, tail, hcuts, hsource, hplaced, ?_⟩
  have htext := happly Edit.text
  rw [Text.splitMark_append] at htext
  exact Text.Utf8.encode_injective (houtput.symm.trans htext)

theorem mem_of_mem (h : Interleaved source output es cuts tail) (hcut : cut ∈ cuts) : cut.2 ∈ es := by
  rw [← Injection.mem_inOrder Edit.offset, ← h.order]
  exact List.mem_map_of_mem hcut

theorem exists_cut (h : Interleaved source output es cuts tail) {e : Edit} (he : e ∈ es) :
    ∃ above cut below, cuts = above ++ cut :: below ∧ cut.2 = e := by
  rw [← Injection.mem_inOrder Edit.offset, ← h.order] at he
  obtain ⟨cut, hcut, rfl⟩ := List.mem_map.mp he
  obtain ⟨above, below, hsplit⟩ := List.append_of_mem hcut
  exact ⟨above, cut, below, hsplit, rfl⟩

theorem lines_eq (h : Interleaved source output es cuts tail) (hwritten : ∀ e ∈ es, e.Written k) :
    Recovery.lines output = splitLines (joined Edit.text cuts tail) := by
  rw [h.output_eq, Recovery.lines, Edit.splitMark_joined h.source_eq fun cut hcut =>
    Edit.head?_text (hwritten cut.2 (h.mem_of_mem hcut)).known]

theorem count_return (h : Interleaved source output es cuts tail)
    (hwritten : ∀ e ∈ es, e.Written k) : output.count '\r' = source.count '\r' := by
  conv_rhs => rw [← Text.splitMark_append source, h.source_eq]
  rw [h.output_eq, List.count_append, List.count_append, Injection.count_joined tail
    fun cut hcut => (hwritten cut.2 (h.mem_of_mem hcut)).return_not_mem_text]

theorem offset_le (h : Interleaved source output es (above ++ cut :: below) tail)
    {cut' : List Char × Edit} (hcut' : cut' ∈ above ++ [cut]) : cut'.2.offset ≤ cut.2.offset := by
  have hsorted := Injection.pairwise_inOrder Edit.offset es
  rw [← h.order, List.pairwise_map, List.pairwise_append] at hsorted
  rcases List.mem_append.mp hcut' with habove | hsame
  · exact hsorted.2.2 cut' habove cut List.mem_cons_self
  · exact Nat.le_of_eq (List.mem_singleton.mp hsame ▸ rfl)

theorem return_mem_linePrefix_iff (h : Interleaved source output es (above ++ cut :: below) tail) :
    carriageReturn ∈ linePrefix (encode source) cut.2.offset ↔
      '\r' ∈ lastLine (joined (fun _ => []) above cut.1) := by
  have hsource := h.source_eq
  rw [Injection.joined_split] at hsource
  rw [h.placed.offset_eq, ← List.length_append, ← Text.Utf8.encode_append]
  exact DelayInjection.return_mem_linePrefix_iff hsource

end Interleaved

namespace Adapter

open Injection (carriageReturn choices indent isInline linePrefix lineRest placements
  startsWithMark)

/-! ## Statements that have their lines for themselves -/

/-- Every statement with a delay stands inside of the source and behind its mark, after nothing but
blanks on its line, and only blanks follow the imports on theirs. -/
structure Lone (source : Bytes) (options : Options) (spelling : Spelling) (layout : Layout) :
    Prop where
  inside : ∀ c ∈ choices source options spelling layout.bodies, c.site.offset < source.length
  behind : startsWithMark source = true →
    ∀ c ∈ choices source options spelling layout.bodies, 3 ≤ c.site.offset
  lone : ∀ c ∈ choices source options spelling layout.bodies,
    isInline source c.site.offset = false
  anchor : layout.hasSupportImport = false → 0 < layout.importAnchor →
    (lineRest source layout.importAnchor).1.all Text.isBlankByte = true

/-- They stand alone if their indents are what stands in front of them. -/
theorem apart_iff {source : Bytes} {options : Options} {spelling : Spelling} {layout : Layout} :
    Apart source options spelling layout ↔ Lone source options spelling layout ∧
      ∀ c ∈ choices source options spelling layout.bodies,
        indent source c.site.offset = linePrefix source c.site.offset := by
  constructor
  · intro h
    refine ⟨⟨h.inside, h.behind, fun c hc => isInline_eq_false_of_indent (h.alone c hc), h.anchor⟩,
      fun c hc => ?_⟩
    exact List.takeWhile_eq_self_iff.mpr (List.all_eq_true.mp (h.alone c hc))
  · rintro ⟨h, hindent⟩
    refine ⟨h.inside, h.behind, fun c hc => ?_, h.anchor⟩
    rw [← hindent c hc, indent]
    exact List.all_takeWhile

/-- The edits of such a source: a delay in front of a statement, or an import that breaks no line. -/
inductive Breakless (k : Classifier) (source : List Char) : Edit → Prop
  | own {offset : Nat} {indent comment call : List Char}
    (hinside : offset < (encode source).length)
    (hbehind : startsWithMark (encode source) = true → 3 ≤ offset)
    (hlone : isInline (encode source) offset = false)
    (hcomment : Recovery.Recognised k .stamp comment) :
    Breakless k source (.own offset indent comment call)
  | between {offset : Nat} {line : List Char} (hsuits : (Edit.between offset line).Suits source) :
    Breakless k source (.between offset line)
  | final {line : List Char} (hsuits : (Edit.final (encode source).length line).Suits source) :
    Breakless k source (.final (encode source).length line)

theorem breakless_importEdit {k : Classifier} {source line : List Char} {anchor : Nat}
    (h : 0 < anchor → (lineRest (encode source) anchor).1.all Text.isBlankByte = true) :
    Breakless k source (importEdit (encode source) anchor line) := by
  have hsuits : (importEdit (encode source) anchor line).Suits source :=
    suits_importEdit fun hpos hany => by
      rw [not_inkedRest (h hpos)] at hany
      cases hany
  unfold importEdit at hsuits ⊢
  by_cases hanchor : anchor = 0
  · rw [if_pos hanchor] at hsuits ⊢
    exact .between hsuits
  · simp only [if_neg hanchor, not_inkedRest (h (Nat.pos_of_ne_zero hanchor)), Bool.false_eq_true,
      if_false] at hsuits ⊢
    cases hended : (lineRest (encode source) anchor).2 with
    | true =>
      rw [hended] at hsuits
      exact .between hsuits
    | false =>
      rw [hended] at hsuits
      exact .final hsuits

theorem Breakless.boundary {k : Classifier} {source : List Char} {e : Edit}
    (h : Breakless k source e) :
    (encode (splitMark source).1).length ≤ e.offset ∧
      Boundary (splitMark source).2 (e.offset - (encode (splitMark source).1).length) := by
  cases h with
  | @own offset _ _ _ hinside hbehind hlone =>
    obtain ⟨before, behind, hsplit, -, hlength⟩ :=
      exists_split (Injection.boundary_of_not_inline (Nat.le_of_lt hinside) hlone) hbehind
    rw [Text.Utf8.encode_append, List.length_append] at hlength
    exact ⟨hlength ▸ Nat.le_add_right _ _, before, behind, hsplit, by
      rw [Edit.offset, ← hlength, Nat.add_sub_cancel_left]⟩
  | between hsuits => exact hsuits.boundary
  | final hsuits => exact hsuits.boundary

theorem exists_edit_of_choice {a : Adapter} {source : Bytes} {options : Options} {layout : Layout}
    {placed : List (Insertion × InjectionPoint)}
    (hplaced : placements source options a.spelling layout.bodies = .ok placed)
    {c : Injection.Choice} (hc : c ∈ choices source options a.spelling layout.bodies) :
    ∃ e ∈ a.edits source options layout placed, e.offset = c.site.offset := by
  have hoffset : c.site.offset ∈ placed.map (·.1.offset) := by
    rw [Injection.offsets_of_placements hplaced]
    exact List.mem_map_of_mem hc
  obtain ⟨p, hp, hpc⟩ := List.mem_map.mp hoffset
  refine ⟨_, List.mem_append_left _ (List.mem_map_of_mem hp), ?_⟩
  rw [offset_pointEdit, hpc]

/-- Only a delay has a carriage return in front of it, as long as it is not at the very end. -/
theorem Breakless.exists_comment {k : Classifier} {source : List Char} {e : Edit}
    (h : Breakless k source e) (hinside : e.offset < (encode source).length)
    (hreturn : carriageReturn ∈ linePrefix (encode source) e.offset) :
    ∃ comment rest, Recovery.Recognised k .stamp comment ∧ e.text = comment ++ '\n' :: rest := by
  cases h with
  | @own _ indent comment call _ _ _ hcomment =>
    exact ⟨comment, indent ++ call ++ '\n' :: indent, hcomment, by simp [Edit.text]⟩
  | between hsuits =>
    obtain ⟨before, behind, hsplit, hoffset, hempty⟩ := hsuits
    rw [← hoffset, return_mem_linePrefix_iff hsplit, show lastLine before = [] from hempty] at hreturn
    cases hreturn
  | final => exact absurd hinside (Nat.lt_irrefl _)

/-- A delay with a carriage return in front of it, or one further up on the line, takes it along. -/
theorem exists_lost_line {k : Classifier} {source output : List Char} {es : List Edit}
    (hbreakless : ∀ e ∈ es, Breakless k source e) (hwritten : ∀ e ∈ es, e.Written k)
    (houtput : Injection.apply (encode source) (es.map Edit.insertion) = encode output) {e : Edit}
    (he : e ∈ es) (hinside : e.offset < (encode source).length)
    (hreturn : carriageReturn ∈ linePrefix (encode source) e.offset) :
    output.count '\r' = source.count '\r' ∧
      ∃ line ∈ Recovery.lines output, '\r' ∈ line ∧ Recovery.verdict k line = some .stamp := by
  obtain ⟨cuts, tail, h⟩ :=
    Interleaved.exists_of_boundary (fun e he => (hbreakless e he).boundary) houtput
  refine ⟨h.count_return hwritten, ?_⟩
  obtain ⟨above, cut, below, rfl, rfl⟩ := h.exists_cut he
  -- other delays may stand between the carriage return and this one: the first of them takes it
  obtain ⟨above', cut', below', hsplit, hcut', hbefore⟩ :=
    @Injection.exists_cut_of_mem_lastLine _ _ above below cut (h.return_mem_linePrefix_iff.mp hreturn)
  have hinside' := Nat.lt_of_le_of_lt (h.offset_le hbefore) hinside
  rw [hsplit] at h
  have hreturn' := h.return_mem_linePrefix_iff.mpr (Injection.mem_lastLine_joined hcut')
  obtain ⟨comment, rest, hcomment, htext⟩ :=
    (hbreakless cut'.2 (h.mem_of_mem (by simp))).exists_comment hinside' hreturn'
  obtain ⟨start, hstart, hline⟩ := @Injection.exists_line_of_joined _ _ _ above' below' _ _ _ tail
    hcut' hcomment.newline_not_mem htext
  rw [h.lines_eq hwritten]
  exact ⟨_, hline, List.mem_append_left _ hstart,
    Recovery.verdict_of_stamp (hcomment.stamp_infix.trans (List.suffix_append _ _).isInfix)⟩

/-- Every edit of a source whose statements have their lines for themselves breaks no line. -/
theorem breakless_edits {a : Adapter} {source : List Char} {options : Options} {layout : Layout}
    {placed : List (Insertion × InjectionPoint)}
    (hplaced : placements (encode source) options a.spelling layout.bodies = .ok placed)
    (hlone : Lone (encode source) options a.spelling layout) (ha : a.Legible) :
    ∀ e ∈ a.edits (encode source) options layout placed, Breakless a.classifier source e := by
  intro e he
  rcases List.mem_append.mp he with he | he
  · obtain ⟨p, hp, rfl⟩ := List.mem_map.mp he
    obtain ⟨c, hc, hpc⟩ := Injection.exists_choice hplaced hp
    obtain ⟨n, hn⟩ := Injection.selects_of_mem_choices hc
    obtain ⟨hi, key, hkey⟩ := Injection.insertion_of_place (i := p.1) (p := p.2) hpc
    have hoffset : p.1.offset = c.site.offset := by rw [hi]
    have hcomment := ha.readable.comment (hkey ▸ Spelling.glyphs_of_key key)
      (Spelling.glyphs_of_int options.seed)
      (Spelling.glyphs_of_mode (Injection.mode_mem_of_selects hn))
    rw [hoffset, pointEdit, hlone.lone c hc]
    exact .own (hlone.inside c hc) (fun hm => hlone.behind hm c hc) (hlone.lone c hc) hcomment
  · split at he
    · cases he
    next himport =>
      rw [List.mem_singleton] at he
      exact he ▸ breakless_importEdit (hlone.anchor (by simpa using himport))

/-- Statements that have their lines for themselves: removal gives back a clean source if and only if their
indents are what stands in front of them. -/
theorem source_remove_inject_eq_iff {name : String} {a : Adapter}
    (ha : (name, a) ∈ Program.registry.adapters)
    (locate : Bytes → Options → Except ParseFault Layout) {source : List Char} {options : Options}
    {layout : Layout} {result : InjectionResult} (hclean : a.scan source = [])
    (hlocate : locate (encode source) options = .ok layout)
    (hlone : Lone (encode source) options a.spelling layout)
    (hinject : { a with locate := locate }.inject source options = .ok result)
    (hpoints : result.points ≠ []) :
    (a.remove result.source).source = source ↔
      ∀ c ∈ choices (encode source) options a.spelling layout.bodies,
        indent (encode source) c.site.offset = linePrefix (encode source) c.site.offset := by
  have hlegible : { a with locate := locate }.Legible :=
    ⟨(legible_of_mem ha).readable, (legible_of_mem ha).imports, (legible_of_mem ha).fragments⟩
  rcases of_inject_eq_ok hinject with ⟨hnil, -⟩ | ⟨layout', placed, hlayout, hplaced, -, -, -, -,
    houtput⟩
  · exact absurd hnil hpoints
  cases hlocate.symm.trans hlayout
  constructor
  · intro hsource c hc
    obtain ⟨above, behind, hcut⟩ := Injection.exists_cutAt (Nat.le_of_lt (hlone.inside c hc))
    refine (hcut.indent_eq_iff (hlone.lone c hc)).mpr fun hreturn => ?_
    obtain ⟨e, he, hoffset⟩ := exists_edit_of_choice hplaced hc
    rw [← hoffset] at hreturn
    rw [insertions_eq_edits hplaced] at houtput
    obtain ⟨hcount, line, hline, hmem, hverdict⟩ :=
      exists_lost_line (breakless_edits hplaced hlone hlegible) (written_edits hplaced hlegible)
        (Text.Utf8.encode_of_decode houtput).symm he (hoffset ▸ hlone.inside c hc) hreturn
    have hlost := Recovery.count_remove_lt (by decide) hline hmem (hverdict ▸ Option.some_ne_none _)
    exact Nat.lt_irrefl _ (hcount ▸ hsource ▸ hlost)
  · intro hindent
    have hapart := apart_iff.mpr ⟨hlone, hindent⟩
    exact congrArg Removal.source (undo_of_apart hplaced hapart hlegible hclean houtput).1

end Adapter
end DelayInjection
