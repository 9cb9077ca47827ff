import DelayInjection.Proofs.Recovery.Insertion

/-! Injection followed by removal. Where every statement stands alone on its line, removal gives back
the source; else it leaves the line breaks. -/

namespace DelayInjection

open Injection (Choice choices indent indentText isIndentByte isInline linePrefix lineRest placements
  startsWithMark)
open Text.Utf8 (Boundary Bytes encode)

namespace Adapter

/-- All edits of a source, in the order of its insertions. -/
def edits (a : Adapter) (source : Bytes) (options : Options) (layout : Layout)
    (placed : List (Insertion × InjectionPoint)) : List Edit :=
  placed.map (fun p => pointEdit source options a.spelling p.1.offset p.2) ++
    if layout.hasSupportImport then []
    else [importEdit source layout.importAnchor (a.importLine options.filePath).toList]

/-- The ways in which injection succeeds. It leaves a text as it is that holds a stamp already, that cannot
be parsed, or in which no statement is selected. -/
inductive Injects (a : Adapter) (source : List Char) (options : Options) : InjectionResult → Prop
  | stamped (hstamp : Text.contains source stamp.toList = true) :
    Injects a source options ⟨source, [], false, none⟩
  | faulty {fault : ParseFault} (hstamp : Text.contains source stamp.toList = false)
    (hlocate : a.locate (encode source) options = .error fault) :
    Injects a source options ⟨source, [], false, some fault⟩
  | unselected {layout : Layout} (hstamp : Text.contains source stamp.toList = false)
    (hlocate : a.locate (encode source) options = .ok layout)
    (hplaced : placements (encode source) options a.spelling layout.bodies = .ok []) :
    Injects a source options ⟨source, [], false, none⟩
  | selected {layout : Layout} {placed : List (Insertion × InjectionPoint)} {output : List Char}
    (hstamp : Text.contains source stamp.toList = false)
    (hlocate : a.locate (encode source) options = .ok layout)
    (hplaced : placements (encode source) options a.spelling layout.bodies = .ok placed)
    (hne : placed ≠ [])
    (houtput : Text.Utf8.decode (Injection.apply (encode source)
      (a.insertions (encode source) options layout placed)) = .ok output) :
    Injects a source options ⟨output, placed.map (·.2), !layout.hasSupportImport, none⟩

theorem injects_of_inject {a : Adapter} {source : List Char} {options : Options}
    {result : InjectionResult} (h : a.inject source options = .ok result) :
    a.Injects source options result := by
  unfold inject at h
  split at h
  next hstamp =>
    cases h
    exact .stamped hstamp
  next hstamp =>
    rw [Bool.not_eq_true] at hstamp
    simp only at h
    split at h
    next fault hlocate =>
      cases h
      exact .faulty hstamp hlocate
    next layout hlocate =>
      cases hplaced : placements (encode source) options a.spelling layout.bodies with
      | error e =>
        rw [hplaced] at h
        cases h
      | ok placed =>
        rw [hplaced] at h
        change (if placed.isEmpty = true then _ else _) = _ at h
        split at h
        next hempty =>
          cases h
          exact .unselected hstamp hlocate (hplaced.trans (congrArg _ (List.isEmpty_iff.mp hempty)))
        next hne =>
          split at h
          next => cases h
          next output houtput =>
            cases h
            exact .selected hstamp hlocate hplaced (by simpa using hne) houtput

/-- Injection changed the text if and only if it reports points. -/
theorem of_inject_eq_ok {a : Adapter} {source : List Char} {options : Options}
    {result : InjectionResult} (h : a.inject source options = .ok result) :
    (result.points = [] ∧ result.source = source ∧ result.referenceAdded = false) ∨
      ∃ layout placed, a.locate (encode source) options = .ok layout ∧
        placements (encode source) options a.spelling layout.bodies = .ok placed ∧
        placed ≠ [] ∧ result.points = placed.map (·.2) ∧ result.fault = none ∧
        result.referenceAdded = !layout.hasSupportImport ∧
        Text.Utf8.decode (Injection.apply (encode source)
          (a.insertions (encode source) options layout placed)) = .ok result.source := by
  cases injects_of_inject h with
  | stamped => exact .inl ⟨rfl, rfl, rfl⟩
  | faulty => exact .inl ⟨rfl, rfl, rfl⟩
  | unselected => exact .inl ⟨rfl, rfl, rfl⟩
  | selected _ hlocate hplaced hne houtput =>
    exact .inr ⟨_, _, hlocate, hplaced, hne, rfl, rfl, rfl, houtput⟩

theorem length_lines_edits (a : Adapter) (source : Bytes) (options : Options) (layout : Layout)
    (placed : List (Insertion × InjectionPoint)) :
    ((a.edits source options layout placed).flatMap Edit.lines).length =
      2 * placed.length + if layout.hasSupportImport then 0 else 1 := by
  rw [edits, List.flatMap_append, List.length_append]
  congr 1
  · induction placed with
    | nil => rfl
    | cons p placed ih =>
      rw [List.map_cons, List.flatMap_cons, List.length_append, ih, lines_pointEdit]
      simp only [List.length_cons, List.length_nil]
      omega
  · cases layout.hasSupportImport with
    | true => rfl
    | false => simp [lines_importEdit]

/-- Injection succeeds where a text without a stamp gets points and the output is a text. -/
theorem inject_eq_ok {a : Adapter} {source output : List Char} {options : Options} {layout : Layout}
    {placed : List (Insertion × InjectionPoint)}
    (hstamp : Text.contains source stamp.toList = false)
    (hlocate : a.locate (encode source) options = .ok layout)
    (hplaced : placements (encode source) options a.spelling layout.bodies = .ok placed)
    (hne : placed ≠ [])
    (houtput : Injection.apply (encode source)
      (a.insertions (encode source) options layout placed) = encode output) :
    a.inject source options =
      .ok ⟨output, placed.map (·.2), !layout.hasSupportImport, none⟩ := by
  have hempty : placed.isEmpty = false := by simpa using hne
  simp only [inject, hstamp, hlocate, hplaced, Bool.false_eq_true, if_false]
  change (if placed.isEmpty = true then _ else _) = _
  rw [hempty, houtput, Text.Utf8.decode_encode]
  rfl

section Core

variable {a : Adapter} {source : List Char} {options : Options} {layout : Layout}
  {placed : List (Insertion × InjectionPoint)}
  (hplaced : placements (encode source) options a.spelling layout.bodies = .ok placed)

include hplaced

theorem insertions_eq_edits : a.insertions (encode source) options layout placed =
    (a.edits (encode source) options layout placed).map Edit.insertion := by
  have hpoints : placed.map (·.1) = placed.map fun p =>
      (pointEdit (encode source) options a.spelling p.1.offset p.2).insertion := by
    refine List.map_congr_left fun p hp => ?_
    obtain ⟨c, -, hc⟩ := Injection.exists_choice hplaced hp
    rw [insertion_pointEdit, (Injection.insertion_of_place (i := p.1) (p := p.2) hc).1]
  rw [insertions, edits, List.map_append, List.map_map, hpoints]
  congr 1
  cases layout.hasSupportImport with
  | true => rfl
  | false => exact congrArg (fun i => [i]) (insertion_importEdit _ _ _).symm

theorem written_edits (ha : a.Legible) :
    ∀ e ∈ a.edits (encode source) options layout placed, e.Written a.classifier := by
  intro e he
  rcases List.mem_append.mp he with he | he
  · obtain ⟨p, hp, rfl⟩ := List.mem_map.mp he
    obtain ⟨c, hc, hpc⟩ := Injection.exists_choice hplaced hp
    obtain ⟨n, hn⟩ := Injection.selects_of_mem_choices hc
    exact written_pointEdit ha (Injection.mode_mem_of_selects hn)
      (Injection.insertion_of_place (i := p.1) (p := p.2) hpc).2
  · split at he
    · cases he
    · rw [List.mem_singleton] at he
      exact he ▸ written_importEdit ha _ _ _

theorem known_edits (ha : a.Legible) :
    ∀ e ∈ a.edits (encode source) options layout placed, e.Known a.classifier :=
  fun e he => (written_edits hplaced ha e he).known

/-- An import at the very end stands behind all statements, if they start before the end. -/
theorem final_edits
    (hinside : (importEdit (encode source) layout.importAnchor
        (a.importLine options.filePath).toList).IsFinal →
      ∀ c ∈ choices (encode source) options a.spelling layout.bodies,
        c.site.offset < (encode source).length) :
    ∀ e ∈ a.edits (encode source) options layout placed, e.IsFinal →
      ∃ others, (a.edits (encode source) options layout placed).Perm (e :: others) ∧
        ∀ o ∈ others, o.offset < e.offset := by
  intro e he hfinal
  rw [edits] at he ⊢
  rcases List.mem_append.mp he with he | he
  · obtain ⟨p, -, rfl⟩ := List.mem_map.mp he
    exact absurd hfinal (not_isFinal_pointEdit _ _ _ _ _)
  · split at he
    · cases he
    next himport =>
      rw [List.mem_singleton] at he
      rw [if_neg himport, ← he]
      refine ⟨_, List.perm_append_singleton _ _, fun o ho => ?_⟩
      have hoffset : e.offset = (encode source).length := by
        obtain ⟨n, l, hnl⟩ := hfinal
        rw [hnl]
        exact offset_of_importEdit_eq_final (he.symm.trans hnl)
      obtain ⟨p, hp, rfl⟩ := List.mem_map.mp ho
      obtain ⟨c, hc, hpc⟩ := Injection.exists_choice hplaced hp
      rw [hoffset, offset_pointEdit, (Injection.insertion_of_place (i := p.1) (p := p.2) hpc).1]
      exact hinside (he ▸ hfinal) c hc

/-- Recovery turns the output into what the edits leave, if that is clean. -/
theorem remove_of_suits (ha : a.Legible) {result : InjectionResult}
    (hinside : (importEdit (encode source) layout.importAnchor
        (a.importLine options.filePath).toList).IsFinal →
      ∀ c ∈ choices (encode source) options a.spelling layout.bodies,
        c.site.offset < (encode source).length)
    (hsuits : ∀ e ∈ a.edits (encode source) options layout placed, e.Suits source)
    (houtput : Text.Utf8.decode (Injection.apply (encode source)
      (a.insertions (encode source) options layout placed)) = .ok result.source) :
    ∃ kept, Injection.apply (encode source)
        ((a.edits (encode source) options layout placed).map Edit.remainder) = encode kept ∧
      ((∀ l ∈ Recovery.lines kept, Recovery.verdict a.classifier l = none) →
        a.remove result.source =
            ⟨kept, 2 * placed.length + if layout.hasSupportImport then 0 else 1⟩ ∧
          ((a.scan result.source).map fun m => (m.reason, m.content)).Perm
            ((a.edits (encode source) options layout placed).flatMap Edit.lines)) := by
  obtain ⟨output, kept, htext, htrace, hall⟩ :=
    Edit.remove_apply (known_edits hplaced ha) hsuits (final_edits hplaced hinside)
  rw [insertions_eq_edits hplaced, htext, Text.Utf8.decode_encode] at houtput
  cases houtput
  refine ⟨kept, htrace, fun hkept => ?_⟩
  obtain ⟨hremove, hscan⟩ := hall hkept
  refine ⟨?_, ?_⟩
  · rw [← length_lines_edits]
    exact hremove
  · rw [show a.scan _ = Recovery.scan a.classifier _ from rfl, hscan]
    exact (Injection.inOrder_perm _ _).flatMap_right _

end Core

/-! ## Statements that stand alone -/

/-- Every statement with a delay stands inside of the source and behind its mark, after nothing but
indent on its line, and only blanks follow the imports on theirs. -/
structure Apart (source : Bytes) (options : Options) (spelling : Spelling) (layout : Layout) :
    Prop where
  inside : ∀ c ∈ choices source options spelling layout.bodies, c.site.offset < source.length
  behind : startsWithMark source = true →
    ∀ c ∈ choices source options spelling layout.bodies, 3 ≤ c.site.offset
  alone : ∀ c ∈ choices source options spelling layout.bodies,
    (linePrefix source c.site.offset).all isIndentByte = true
  anchor : layout.hasSupportImport = false → 0 < layout.importAnchor →
    (lineRest source layout.importAnchor).1.all Text.isBlankByte = true

/-- The lines that injection writes: two for each point, and the import. -/
def writtenLines (a : Adapter) (source : Bytes) (options : Options) (layout : Layout)
    (points : List InjectionPoint) : List (Reason × List Char) :=
  ((choices source options a.spelling layout.bodies).zip points).flatMap (fun (c, p) =>
    [(.stamp, indentText (indent source c.site.offset) ++
        (Injection.commentLine a.spelling p.id (toString options.seed) options.mode).toList),
      (.identifier, indentText (indent source c.site.offset) ++
        (Injection.callLine a.spelling p.delay).toList)]) ++
    if layout.hasSupportImport then []
    else [(.supportImport, (a.importLine options.filePath).toList)]

theorem lines_edits {a : Adapter} {source : Bytes} {options : Options} {layout : Layout}
    {placed : List (Insertion × InjectionPoint)}
    (hplaced : placements source options a.spelling layout.bodies = .ok placed) :
    (a.edits source options layout placed).flatMap Edit.lines =
      a.writtenLines source options layout (placed.map (·.2)) := by
  rw [edits, writtenLines, List.flatMap_append]
  congr 1
  · have hf := Injection.forall₂_of_placements hplaced
    clear hplaced
    generalize choices source options a.spelling layout.bodies = cs at hf ⊢
    induction hf with
    | nil => rfl
    | cons hhead _ ih =>
      have hoffset := (Injection.insertion_of_place hhead).1
      rw [List.map_cons, List.map_cons, List.flatMap_cons, List.zip_cons_cons, List.flatMap_cons, ih,
        lines_pointEdit, hoffset]
  · cases layout.hasSupportImport with
    | true => rfl
    | false => simp [lines_importEdit]

theorem isInline_eq_false_of_indent {source : Bytes} {offset : Nat}
    (h : (linePrefix source offset).all isIndentByte = true) : isInline source offset = false := by
  rw [isInline, List.any_eq_false]
  intro b hb
  have hindent := List.all_eq_true.mp h b hb
  simp only [isIndentByte, Bool.or_eq_true, beq_iff_eq] at hindent
  rcases hindent with ((rfl | rfl) | rfl) | rfl <;> decide

theorem not_inkedRest {source : Bytes} {anchor : Nat}
    (h : (lineRest source anchor).1.all Text.isBlankByte = true) :
    ((lineRest source anchor).1.any fun b => !Text.isBlankByte b) = false := by
  rw [List.any_eq_false]
  intro b hb
  simp [List.all_eq_true.mp h b hb]

section Apart

variable {a : Adapter} {source : List Char} {options : Options} {layout : Layout}
  {placed : List (Insertion × InjectionPoint)}
  (hplaced : placements (encode source) options a.spelling layout.bodies = .ok placed)
  (hapart : Apart (encode source) options a.spelling layout)

include hplaced hapart

theorem suits_of_apart :
    ∀ e ∈ a.edits (encode source) options layout placed, e.Suits source := by
  intro e he
  rcases List.mem_append.mp he with he | he
  · obtain ⟨p, hp, rfl⟩ := List.mem_map.mp he
    obtain ⟨c, hc, hpc⟩ := Injection.exists_choice hplaced hp
    have hoffset : p.1.offset = c.site.offset := by
      rw [(Injection.insertion_of_place (i := p.1) (p := p.2) hpc).1]
    have halone := hapart.alone c hc
    rw [hoffset, pointEdit, isInline_eq_false_of_indent halone]
    exact suits_of_indent (Nat.le_of_lt (hapart.inside c hc)) (fun hm => hapart.behind hm c hc)
      halone rfl
  · split at he
    · cases he
    next himport =>
      rw [List.mem_singleton] at he
      refine he ▸ suits_importEdit fun hpos hany => ?_
      rw [not_inkedRest (hapart.anchor (by simpa using himport) hpos)] at hany
      cases hany

theorem remainder_of_apart : ∀ i ∈ (a.edits (encode source) options layout placed).map
    Edit.remainder, i.text = [] := by
  intro i hi
  obtain ⟨e, he, rfl⟩ := List.mem_map.mp hi
  rcases List.mem_append.mp he with he | he
  · obtain ⟨p, hp, rfl⟩ := List.mem_map.mp he
    obtain ⟨c, hc, hpc⟩ := Injection.exists_choice hplaced hp
    have hoffset : p.1.offset = c.site.offset := by
      rw [(Injection.insertion_of_place (i := p.1) (p := p.2) hpc).1]
    rw [hoffset, pointEdit, isInline_eq_false_of_indent (hapart.alone c hc)]
    rfl
  · split at he
    · cases he
    next himport =>
      rw [List.mem_singleton] at he
      rw [he, importEdit]
      split
      · rfl
      next hne =>
        have hblank := hapart.anchor (by simpa using himport) (Nat.pos_of_ne_zero hne)
        simp only [not_inkedRest hblank, Bool.false_eq_true, if_false]
        split <;> rfl

/-- The output is a text. -/
theorem exists_output_of_apart (ha : a.Legible) : ∃ output, Injection.apply (encode source)
    (a.insertions (encode source) options layout placed) = encode output := by
  obtain ⟨output, -, htext, -⟩ := Edit.remove_apply (known_edits hplaced ha)
    (suits_of_apart hplaced hapart) (final_edits hplaced fun _ => hapart.inside)
  exact ⟨output, by rw [insertions_eq_edits hplaced, htext]⟩

/-- Removal gives back a clean source whose statements stand alone, and a scan lists what was
written. -/
theorem undo_of_apart (ha : a.Legible) (hclean : a.scan source = []) {result : InjectionResult}
    (houtput : Text.Utf8.decode (Injection.apply (encode source)
      (a.insertions (encode source) options layout placed)) = .ok result.source) :
    a.remove result.source =
        ⟨source, 2 * placed.length + if layout.hasSupportImport then 0 else 1⟩ ∧
      ((a.scan result.source).map fun m => (m.reason, m.content)).Perm
        (a.writtenLines (encode source) options layout (placed.map (·.2))) := by
  obtain ⟨kept, hkept, hall⟩ := remove_of_suits hplaced ha (fun _ => hapart.inside)
    (suits_of_apart hplaced hapart) houtput
  rw [Injection.apply_eq_self (remainder_of_apart hplaced hapart)] at hkept
  rw [← Text.Utf8.encode_injective hkept, lines_edits hplaced] at hall
  exact hall (Recovery.scan_eq_nil_iff.mp hclean)

end Apart

/-- One delay and the import go into a small module. -/
theorem exists_inject_of_async_def {source : List Char}
    (hsource : source = "async def f():\n  g()\n".toList) :
    Python.adapter.scan source = [] ∧ ∃ layout placed output,
      Python.locate (encode source) { filePath := "a.py" } = .ok layout ∧
      Apart (encode source) { filePath := "a.py" } Python.adapter.spelling layout ∧
      (placed : List (Insertion × InjectionPoint)).length = 1 ∧
      Python.adapter.inject source { filePath := "a.py" } =
        .ok ⟨output, placed.map (·.2), true, none⟩ := by
  obtain ⟨options, hoptions⟩ : ∃ o : Options, o = { filePath := "a.py" } := ⟨_, rfl⟩
  obtain ⟨layout, hlayout⟩ : ∃ l : Layout, l = ⟨[⟨"f", [⟨.plain, 17, 2, 2⟩]⟩], 0, false⟩ := ⟨_, rfl⟩
  have hstamp : Text.contains source stamp.toList = false := by subst hsource; decide +kernel
  have hclean : Python.adapter.scan source = [] := by subst hsource; decide +kernel
  have hlocate : Python.locate (encode source) options = .ok layout := by
    subst hsource hoptions hlayout
    decide +kernel
  have hapart : Apart (encode source) options Python.adapter.spelling layout := by
    subst hsource hoptions hlayout
    exact ⟨by decide +kernel, by decide +kernel, by decide +kernel, by decide +kernel⟩
  have hchoices : (choices (encode source) options Python.adapter.spelling layout.bodies).length = 1 := by
    subst hsource hoptions hlayout
    decide +kernel
  have hok : (placements (encode source) options Python.adapter.spelling
      layout.bodies).toOption.isSome = true := by
    subst hsource hoptions hlayout
    decide +kernel
  have hmem : ("python", Python.adapter) ∈ Program.registry.adapters := by
    simp [Program.registry, Python.adapter]
  rw [← hoptions]
  cases hplaced : placements (encode source) options Python.adapter.spelling layout.bodies with
  | error e =>
    rw [hplaced] at hok
    cases hok
  | ok placed =>
    have hlength := (Injection.length_of_placements hplaced).trans hchoices
    have hne : placed ≠ [] := fun h => by rw [h] at hlength; cases hlength
    obtain ⟨output, houtput⟩ := exists_output_of_apart hplaced hapart (legible_of_mem hmem)
    have hadded : layout.hasSupportImport = false := by rw [hlayout]
    have hinject := inject_eq_ok hstamp hlocate hplaced hne houtput
    rw [hadded] at hinject
    exact ⟨hclean, layout, placed, output, hlocate, hapart, hlength, hinject⟩

/-- Exact round trip. -/
theorem remove_inject_eq {name : String} {a : Adapter}
    (ha : (name, a) ∈ Program.registry.adapters)
    (locate : Bytes → Options → Except ParseFault Layout) {source : List Char} {options : Options}
    {layout : Layout} {result : InjectionResult} (hclean : a.scan source = [])
    (hlocate : locate (encode source) options = .ok layout)
    (hapart : Apart (encode source) options a.spelling layout)
    (hinject : { a with locate := locate }.inject source options = .ok result)
    (hpoints : result.points ≠ []) :
    a.remove result.source =
        ⟨source, 2 * result.points.length + if result.referenceAdded then 1 else 0⟩ ∧
      ((a.scan result.source).map fun m => (m.reason, m.content)).Perm
        (a.writtenLines (encode source) options layout result.points) ∧
      ∀ m ∈ a.scan result.source,
        1 ≤ m.line ∧ (Recovery.lines result.source)[m.line - 1]? = some m.content := by
  have hlegible : { a with locate := locate }.Legible :=
    ⟨(legible_of_mem ha).readable, (legible_of_mem ha).imports, (legible_of_mem ha).fragments⟩
  rcases of_inject_eq_ok hinject with ⟨hnil, -⟩ | ⟨layout', placed, hlayout, hplaced, -, hresult, -,
    hadded, houtput⟩
  · exact absurd hnil hpoints
  · cases hlocate.symm.trans hlayout
    obtain ⟨hremove, hscan⟩ := undo_of_apart hplaced hapart hlegible hclean houtput
    refine ⟨?_, hresult ▸ hscan, fun m hm => Recovery.getElem_of_mem_scan hm⟩
    rw [hresult, List.length_map, hadded]
    refine hremove.trans ?_
    cases layout.hasSupportImport <;> rfl

theorem remove_inject_eq_of_async_def : ∃ result,
    Python.adapter.inject "async def f():\n  g()\n".toList { filePath := "a.py" } = .ok result ∧
      Python.adapter.remove result.source = ⟨"async def f():\n  g()\n".toList, 3⟩ := by
  have hmem : ("python", Python.adapter) ∈ Program.registry.adapters := by
    simp [Program.registry, Python.adapter]
  obtain ⟨source, hsource⟩ : ∃ t, t = "async def f():\n  g()\n".toList := ⟨_, rfl⟩
  obtain ⟨hclean, layout, placed, output, hlocate, hapart, hlength, hinject⟩ :=
    exists_inject_of_async_def hsource
  have hne : placed.map (·.2) ≠ [] := fun h => by
    rw [List.map_eq_nil_iff.mp h] at hlength
    cases hlength
  have hundo := remove_inject_eq hmem Python.locate hclean hlocate hapart hinject hne
  refine ⟨_, hsource ▸ hinject, ?_⟩
  rw [hundo.1, List.length_map, hlength, hsource]
  rfl

end Adapter
end DelayInjection
