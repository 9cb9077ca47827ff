import DelayInjection.Proofs.JavaScript.Shift.Layout
import DelayInjection.Proofs.Python.Marked
import DelayInjection.Proofs.Recovery.Renamed
import DelayInjection.Proofs.SupportModule.Reference

/-! Injection and removal behind a byte order mark. Delays and the import go to the same places, three bytes
further behind, and nothing but the ids differs, so removal leaves the same. The bytes of the mark count as
code, though: a delay that goes to the first line leaves a line break there, even where it does not
without the mark. -/

namespace DelayInjection

open Injection (Choice LayoutTrails Undisturbed choices importInsertion indentText isInline place
  placements startsWithMark)
open Recovery (Exchangeable)
open Text.Utf8 (Boundary byteOrderMark encode)

theorem encode_mark (text : List Char) : encode (Text.mark :: text) = byteOrderMark ++ encode text := rfl

theorem startsWithMark_encode_eq_false {source : List Char} (h : source.head? ≠ some Text.mark) :
    startsWithMark (encode source) = false := by
  have hsplit : Text.splitMark source = ([], source) := @Text.splitMark_of_cases [] source (.inr ⟨rfl, h⟩)
  rw [Bool.eq_false_iff, ne_eq, startsWithMark_encode, hsplit]
  exact List.ne_cons_self

/-! ## Insertions -/

/-- The second insertion may be made behind a mark where the first one is made without it. -/
structure Insertion.Stands (k : Classifier) (source : List Char) (i i' : Insertion) : Prop where
  offset : i'.offset = i.offset + 3
  boundary : Boundary source i.offset
  exchangeable : ∀ before behind, source = before ++ behind → (encode before).length = i.offset →
    Exchangeable k before i.text i'.text
  head : i.text.head? ≠ some Text.mark

/-- Behind the mark recovery leaves what it leaves without. -/
theorem source_remove_of_stands {k : Classifier} {source output output' : List Char}
    {insertions insertions' : List Insertion}
    (h : List.Forall₂ (Insertion.Stands k source) insertions insertions')
    (hmark : source.head? ≠ some Text.mark)
    (houtput : Injection.apply (encode source) insertions = encode output)
    (houtput' : Injection.apply (encode (Text.mark :: source)) insertions' = encode output') :
    (Recovery.remove k output').source = Text.mark :: (Recovery.remove k output).source := by
  -- the pairs are edits at the places of the first ones, with one text for each of the two sources
  obtain ⟨hlength, hstands⟩ := List.forall₂_iff_zip.mp h
  have hfirst : (insertions.zip insertions').map (fun e => ⟨e.1.offset, e.1.text⟩) = insertions :=
    List.map_fst_zip (Nat.le_of_eq hlength)
  have hsecond : ((insertions.zip insertions').map (fun e => ⟨e.1.offset, e.2.text⟩)).map
      (Insertion.behind 3) = insertions' := by
    rw [List.map_map]
    refine (List.map_congr_left fun e he => ?_).trans (List.map_snd_zip (Nat.le_of_eq hlength.symm))
    have hoffset := (hstands (a := e.1) (b := e.2) he).offset
    rw [Function.comp_apply, Insertion.behind, ← hoffset]
  obtain ⟨text, text', htext, htext', hkept, hhead⟩ :=
    @Recovery.exists_kept_apply k _ (fun e : Insertion × Insertion => e.1.text) (fun e => e.2.text)
      (fun e => e.1.offset) source (insertions.zip insertions') (fun e he => (hstands he).boundary)
      (fun e he => (hstands he).exchangeable) (fun e he => (hstands he).head) hmark
  rw [hfirst, houtput] at htext
  obtain rfl := Text.Utf8.encode_injective htext
  have hbehind := Injection.apply_behind byteOrderMark (encode source)
    ((insertions.zip insertions').map fun e => ⟨e.1.offset, e.2.text⟩)
  rw [show byteOrderMark.length = 3 from rfl, hsecond, ← encode_mark, houtput', htext', ← encode_mark]
    at hbehind
  obtain rfl := Text.Utf8.encode_injective hbehind
  have hplain := @Recovery.source_remove_eq_kept k [] output (.inr ⟨rfl, hhead⟩)
  have hmarked := @Recovery.source_remove_eq_kept k [Text.mark] text' (.inl rfl)
  rw [List.nil_append, List.nil_append] at hplain
  rw [List.singleton_append, List.singleton_append] at hmarked
  rw [hmarked, hplain, hkept]

namespace Adapter

variable {name : String} {a : Adapter} {source : List Char} {options : Options} {layout layout' : Layout}
  {placed placed' : List (Insertion × InjectionPoint)}

/-! ## Delays -/

/-- A delay leaves the same behind the mark, if the mark disturbs nothing. -/
theorem stands_of_place (ha : a.Legible) {c c' : Choice} {p p' : Insertion × InjectionPoint}
    (hmode : options.mode ∈ Mode.all) (htrails : c.Trails (encode source) a.spelling c')
    (hboundary : Boundary source c.site.offset)
    (hundisturbed : Undisturbed (encode source) c.site.offset)
    (hp : place (encode source) options a.spelling c = .ok p)
    (hp' : place (encode (Text.mark :: source)) options a.spelling c' = .ok p') :
    Insertion.Stands a.classifier source p.1 p'.1 := by
  obtain ⟨i, point⟩ := p
  obtain ⟨i', point'⟩ := p'
  obtain ⟨rfl, key, hid⟩ := Injection.insertion_of_place hp
  obtain ⟨rfl, key', hid'⟩ := Injection.insertion_of_place hp'
  have hdelay : point'.delay = point.delay := by
    have hfirst := (Injection.place_eq_ok_iff.mp hp).delay
    have hsecond := (Injection.place_eq_ok_iff.mp hp').delay
    rw [htrails.container, htrails.index, hfirst] at hsecond
    exact (Except.ok.inj hsecond).symm
  have hcomment := ha.readable.comment (hid ▸ Spelling.glyphs_of_key key)
    (Spelling.glyphs_of_int options.seed) (Spelling.glyphs_of_mode hmode)
  have hcomment' := ha.readable.comment (hid' ▸ Spelling.glyphs_of_key key')
    (Spelling.glyphs_of_int options.seed) (Spelling.glyphs_of_mode hmode)
  have hindent : ∀ d ∈ indentText (Injection.indent (encode source) c.site.offset),
      Text.isAsciiBlank d = true := fun d hd =>
    Injection.isAsciiBlank_of_isIndentChar (isIndentChar_of_mem_indent hd)
  refine ⟨htrails.offset, hboundary, fun before behind hsource hlength => ?_, ?_⟩
  · simp only [Injection.written, htrails.offset, encode_mark,
      Injection.isInline_mark fun hfirst => (hundisturbed hfirst).1,
      Injection.indent_mark hundisturbed, hdelay]
    -- both texts are of the same form, and differ in the marker only
    cases hinline : isInline (encode source) c.site.offset with
    | true => exact Recovery.exchangeable_split hcomment hcomment' hindent before _
    | false =>
      refine Recovery.exchangeable_own hcomment hcomment' hindent
        (Recovery.bare_of_not_inked fun hink => ?_) _
      rw [← show (encode before).length = c.site.offset from hlength, hsource,
        (Injection.isInline_encode before behind).mpr hink] at hinline
      cases hinline
  · have hknown := @known_pointEdit a ha (encode source) options c.site.offset point hmode ⟨key, hid⟩
    have hhead := Edit.head?_text hknown
    rwa [← congrArg Insertion.text (insertion_pointEdit (encode source) options a.spelling
      c.site.offset point)]

/-- Where lines are not split, no code stands in front of a delay. -/
theorem boundary_of_whole {c : Choice} (hwhole : a.spelling.splitsLines = false)
    (hinside : c.site.offset ≤ (encode source).length)
    (hc : c ∈ choices (encode source) options a.spelling layout.bodies) :
    Boundary source c.site.offset := by
  obtain ⟨n, hselects⟩ := Injection.selects_of_mem_choices hc
  rw [Injection.selects, hwhole, Bool.and_eq_true] at hselects
  exact Injection.boundary_of_not_inline hinside (by simpa using hselects.2)

/-- Where lines are split, a statement starts with a character. -/
theorem boundary_of_splits (ha : (name, a) ∈ Program.registry.adapters)
    (hlocate : a.locate (encode source) options = .ok layout) (hsplits : a.spelling.splitsLines = true)
    {c : Choice} (hc : c ∈ choices (encode source) options a.spelling layout.bodies) :
    Boundary source c.site.offset := by
  rcases locate_cases ha hlocate with ⟨-, program, hprogram, rfl⟩ | ⟨rfl, -⟩
  · obtain ⟨body, hbody, hs⟩ := Injection.exists_body_of_mem_choices hc
    exact JavaScript.boundary_of_mem_statements hprogram hbody hs
  · cases hsplits

/-- Behind the mark the same delays go in front of the same statements. -/
theorem forall₂_stands (ha : a.Legible) (hbodies : List.Forall₂ (Injection.BodyTrails (encode source)
      (encode (Text.mark :: source)) options a.spelling) layout.bodies layout'.bodies)
    (hplaced : placements (encode source) options a.spelling layout.bodies = .ok placed)
    (hplaced' : placements (encode (Text.mark :: source)) options a.spelling layout'.bodies = .ok placed')
    (hsplits : a.spelling.splitsLines = true →
      ∀ c ∈ choices (encode source) options a.spelling layout.bodies,
        Boundary source c.site.offset ∧ Undisturbed (encode source) c.site.offset) :
    List.Forall₂ (Insertion.Stands a.classifier source) (placed.map (·.1)) (placed'.map (·.1)) := by
  have htrails := Injection.trails_choices hbodies
  have hplaces := Injection.forall₂_of_placements hplaced
  have hplaces' := Injection.forall₂_of_placements hplaced'
  have hstands : ∀ c ∈ choices (encode source) options a.spelling layout.bodies, ∀ c' p p',
      c.Trails (encode source) a.spelling c' → place (encode source) options a.spelling c = .ok p →
      place (encode (Text.mark :: source)) options a.spelling c' = .ok p' →
        Insertion.Stands a.classifier source p.1 p'.1 := by
    intro c hc c' p p' htrail
    obtain ⟨n, hselects⟩ := Injection.selects_of_mem_choices hc
    have hmode := Injection.mode_mem_of_selects hselects
    cases hwhole : a.spelling.splitsLines with
    | true =>
      obtain ⟨hboundary, hundisturbed⟩ := hsplits hwhole c hc
      exact stands_of_place ha hmode htrail hboundary hundisturbed
    | false =>
      exact stands_of_place ha hmode htrail (boundary_of_whole hwhole htrail.inside hc)
        (htrail.undisturbed hwhole)
  clear hbodies hplaced hplaced' hsplits
  generalize choices (encode source) options a.spelling layout.bodies = cs at *
  generalize choices (encode (Text.mark :: source)) options a.spelling layout'.bodies = cs' at *
  induction htrails generalizing placed placed' with
  | nil =>
    cases hplaces
    cases hplaces'
    exact .nil
  | cons hfirst _ ih =>
    cases hplaces with
    | cons hp hrest =>
      cases hplaces' with
      | cons hp' hrest' =>
        refine .cons (hstands _ List.mem_cons_self _ _ _ hfirst hp hp') ?_
        exact ih hrest (fun c hc => hstands c (List.mem_cons_of_mem _ hc)) hrest'

/-! ## The import -/

theorem boundary_importAnchor (ha : (name, a) ∈ Program.registry.adapters)
    (hlocate : a.locate (encode source) options = .ok layout) :
    Boundary source layout.importAnchor := by
  rcases locate_cases ha hlocate with ⟨-, program, hprogram, rfl⟩ | ⟨-, statements, -, rfl⟩
  · by_cases hzero : (JavaScript.layout (encode source) options.skipGenerators program).importAnchor = 0
    · rw [hzero]
      exact Text.Utf8.boundary_zero source
    · obtain ⟨before, behind, hsource, -, hlength, -⟩ :=
        JavaScript.exists_before_importAnchor hprogram hzero
      exact ⟨before, behind, hsource, hlength⟩
  · exact Python.boundary_importAnchor source statements

/-- The import leaves the same behind the mark. -/
theorem stands_importInsertion (ha : (name, a) ∈ Program.registry.adapters)
    (hmark : startsWithMark (encode source) = false)
    (hlocate : a.locate (encode source) options = .ok layout) {line : List Char}
    (hline : line.head? ≠ some Text.mark) :
    Insertion.Stands a.classifier source (importInsertion (encode source) layout.importAnchor line)
      ((importInsertion (encode source) layout.importAnchor line).behind 3) := by
  have hboundary := boundary_importAnchor ha hlocate
  have hinline := isInline_anchor_of_mem ha hlocate
  generalize layout.importAnchor = anchor at hboundary hinline ⊢
  have hhead : ∀ t : List Char, (line ++ '\n' :: t).head? ≠ some Text.mark := by
    intro t
    cases line with
    | nil => exact fun h => absurd (Option.some.inj h) (by decide)
    | cons c line => exact hline
  have hbreak : ∀ t : List Char, ('\n' :: t).head? ≠ some Text.mark := fun t h =>
    absurd (Option.some.inj h) (by decide)
  unfold importInsertion
  split
  next =>
    rw [hmark]
    exact ⟨rfl, Text.Utf8.boundary_zero source, fun before _ _ _ => Recovery.exchangeable_line _ _ _,
      hhead []⟩
  next hanchor =>
    simp only
    split
    next =>
      exact ⟨rfl, hboundary, fun before _ _ _ => Recovery.exchangeable_line _ _ _, hbreak _⟩
    next =>
      split
      next hended =>
        exact ⟨rfl, Text.Utf8.boundary_of_ascii (getElem?_lineRest hended) (by decide),
          fun before _ _ _ => Recovery.exchangeable_line _ _ _, hhead []⟩
      next hopen =>
        -- no newline ends this text, but it stands behind the code of the last line
        refine ⟨rfl, ⟨source, [], (List.append_nil source).symm, rfl⟩, ?_, hbreak _⟩
        intro before behind hsource hlength
        refine Recovery.exchangeable_of_not_bare _ (Recovery.not_bare_of_inked ?_) _
        have hend := Injection.isInline_of_unended (hinline hanchor) (by simpa using hopen)
          hboundary.le_length
        rw [← show (encode before).length = (encode source).length from hlength, hsource] at hend
        exact (Injection.isInline_encode before behind).mp hend

/-! ## Both languages -/

theorem layoutTrails_of_mem (ha : (name, a) ∈ Program.registry.adapters)
    (hmark : source.head? ≠ some Text.mark)
    (hlocate : a.locate (encode source) options = .ok layout)
    (hlocate' : a.locate (encode (Text.mark :: source)) options = .ok layout') :
    LayoutTrails (encode source) (encode (Text.mark :: source)) options a.spelling layout layout' := by
  have hcases := locate_cases ha hlocate
  rcases hcases with ⟨rfl, program, hprogram, hlayout⟩ | ⟨rfl, -⟩
  · have hbehind := JavaScript.locate_mark hmark hlocate
    obtain rfl := Except.ok.inj (hbehind.symm.trans hlocate')
    refine ⟨?_, rfl, rfl⟩
    rw [List.forall₂_map_right_iff, List.forall₂_same]
    intro body hbody
    refine ⟨rfl, ?_⟩
    rw [JavaScript.Body.behind, List.forall₂_map_right_iff, List.forall₂_same]
    intro s hs
    have hboundary := JavaScript.boundary_of_mem_statements hprogram (hlayout ▸ hbody) hs
    exact ⟨fun n => rfl, fun _ _ => rfl, hboundary.le_length, fun hwhole => nomatch hwhole⟩
  · exact Python.locate_mark (startsWithMark_encode_eq_false hmark) hlocate hlocate'

/-- Behind the mark as many delays are placed, and all insertions leave the same. -/
theorem forall₂_stands_insertions (ha : (name, a) ∈ Program.registry.adapters)
    (hmark : source.head? ≠ some Text.mark)
    (hlocate : a.locate (encode source) options = .ok layout)
    (hlocate' : a.locate (encode (Text.mark :: source)) options = .ok layout')
    (hplaced : placements (encode source) options a.spelling layout.bodies = .ok placed)
    (hplaced' : placements (encode (Text.mark :: source)) options a.spelling layout'.bodies = .ok placed')
    (hundisturbed : a.spelling.splitsLines = true →
      ∀ c ∈ choices (encode source) options a.spelling layout.bodies,
        Undisturbed (encode source) c.site.offset) :
    placed.length = placed'.length ∧ List.Forall₂ (Insertion.Stands a.classifier source)
      (a.insertions (encode source) options layout placed)
      (a.insertions (encode (Text.mark :: source)) options layout' placed') := by
  have hlegible := legible_of_mem ha
  have hstarts := startsWithMark_encode_eq_false hmark
  obtain ⟨hbodies, hanchor, himport⟩ := layoutTrails_of_mem ha hmark hlocate hlocate'
  have hstands := forall₂_stands hlegible hbodies hplaced hplaced' fun hsplits c hc =>
    ⟨boundary_of_splits ha hlocate hsplits hc, hundisturbed hsplits c hc⟩
  refine ⟨by simpa using hstands.length_eq, ?_⟩
  rw [insertions, insertions, himport]
  refine List.rel_append hstands ?_
  split
  · exact .nil
  · rw [hanchor, encode_mark, Injection.importInsertion_mark hstarts]
    refine .cons (stands_importInsertion ha hstarts hlocate fun hhead => ?_) .nil
    exact (hlegible.imports options.filePath).mark_not_mem (List.mem_of_head? hhead)

/-- Injection into a text that can be parsed, where the delays are found from the back to the front. -/
theorem exists_inject {p : List Char → Bool}
    (hstamp : Text.contains source stamp.toList = false)
    (hlocate : a.locate (encode source) options = .ok layout)
    (hruns : ((placements (encode source) options a.spelling layout.bodies).toOption.any fun placed =>
      !placed.isEmpty &&
        decide ((a.insertions (encode source) options layout placed).Pairwise
          fun i j => j.offset ≤ i.offset) &&
        (Text.Utf8.decode ((a.insertions (encode source) options layout placed).foldl Injection.splice
          (encode source))).toOption.any p) = true) :
    ∃ result, a.inject source options = .ok result ∧ result.points ≠ [] ∧ result.fault = none ∧
      p result.source = true := by
  cases hplaced : placements (encode source) options a.spelling layout.bodies with
  | error e =>
    rw [hplaced] at hruns
    cases hruns
  | ok placed =>
    rw [hplaced, Except.toOption, Option.any_some, Bool.and_eq_true, Bool.and_eq_true] at hruns
    obtain ⟨⟨hne, hback⟩, hsource⟩ := hruns
    cases houtput : Text.Utf8.decode ((a.insertions (encode source) options layout placed).foldl
        Injection.splice (encode source)) with
    | error e =>
      rw [houtput] at hsource
      cases hsource
    | ok output =>
      rw [houtput] at hsource
      have hnil : placed ≠ [] := by simpa using hne
      have happly := Injection.apply_eq_foldl (encode source) (of_decide_eq_true hback)
      rw [← Text.Utf8.encode_of_decode houtput] at happly
      exact ⟨_, inject_eq_ok hstamp hlocate hplaced hnil happly, by simpa using hnil, rfl, hsource⟩

end Adapter
end DelayInjection
