import DelayInjection.Proofs.SharedLines

/-! The line that imports the support module. It is written where no import of the file names the module
yet, and then it is a line of the output: what is inserted around it ends lines of its own. -/

namespace DelayInjection

open Injection (choices inOrder isInline linePrefix lineRest newline placements splice startsWithMark)
open Text (EndsLine splitLines)
open Text.Utf8 (Boundary Bytes byteOrderMark encode)

namespace Injection

/-! ## The last of the insertions -/

variable {source above rest : Bytes} {lower upper : List Insertion} {n : Nat}

/-- Insertions further in front leave the end of a text as it is. -/
theorem foldr_splice_lower (hlower : ∀ i ∈ lower, i.offset ≤ n) (hn : n < above.length)
    (rest : Bytes) : ∃ front, lower.foldr (fun i s => splice s i) (above ++ rest) = front ++ rest ∧
      above.length ≤ front.length ∧ above.drop n <:+ front := by
  induction lower with
  | nil => exact ⟨above, rfl, Nat.le_refl _, List.drop_suffix _ _⟩
  | cons i lower ih =>
    obtain ⟨front, hfront, hlength, hend⟩ := ih fun j hj => hlower j (List.mem_cons_of_mem _ hj)
    have hi := hlower i List.mem_cons_self
    have hoffset : i.offset ≤ front.length := by omega
    refine ⟨front.take i.offset ++ encode i.text ++ front.drop i.offset, ?_, ?_, ?_⟩
    · rw [List.foldr_cons, hfront, splice, List.take_append_of_le_length hoffset,
        List.drop_append_of_le_length hoffset, List.append_assoc, List.append_assoc, List.append_assoc]
    · simp only [List.length_append, List.length_take, List.length_drop]
      omega
    · refine List.IsSuffix.trans ?_ (List.suffix_append _ _)
      refine List.suffix_of_suffix_length_le hend (List.drop_suffix _ _) ?_
      simp only [List.length_drop]
      omega

/-- Insertions at the very start stand one behind the other. -/
theorem foldr_splice_start (hlower : ∀ i ∈ lower, i.offset = 0) (bytes : Bytes) :
    lower.foldr (fun i s => splice s i) bytes = (lower.flatMap fun i => encode i.text) ++ bytes := by
  induction lower with
  | nil => rfl
  | cons i lower ih =>
    rw [List.foldr_cons, ih fun j hj => hlower j (List.mem_cons_of_mem _ hj), splice,
      hlower i List.mem_cons_self]
    simp

/-- Insertions further behind leave the beginning of a text as it is. -/
theorem take_foldr_splice_upper (hupper : ∀ i ∈ upper, n ≤ i.offset) (hn : n ≤ source.length) :
    (upper.foldr (fun i s => splice s i) source).take n = source.take n := by
  induction upper with
  | nil => rfl
  | cons i upper ih =>
    have hlength := length_le_foldr_splice source upper
    have hi := hupper i List.mem_cons_self
    rw [List.foldr_cons, splice, List.append_assoc, List.take_append_of_le_length (by
      rw [List.length_take]
      omega), List.take_take, Nat.min_eq_left hi]
    exact ih fun j hj => hupper j (List.mem_cons_of_mem _ hj)

/-- Behind an end all insertions start with the same byte, and so does what they make of nothing. -/
theorem head?_drop_foldr_splice {b : UInt8} (hupper : ∀ i ∈ upper, source.length ≤ i.offset)
    (htexts : ∀ i ∈ upper, (encode i.text).head? = some b) :
    ∀ x ∈ ((upper.foldr (fun i s => splice s i) source).drop source.length).head?, x = b := by
  induction upper with
  | nil => simp
  | cons i upper ih =>
    have hlength := length_le_foldr_splice source upper
    have hi := hupper i List.mem_cons_self
    have hih := ih (fun j hj => hupper j (List.mem_cons_of_mem _ hj))
      fun j hj => htexts j (List.mem_cons_of_mem _ hj)
    rw [List.foldr_cons]
    generalize upper.foldr (fun i s => splice s i) source = bytes at hlength hih ⊢
    intro x hx
    rw [splice, List.append_assoc, List.drop_append_of_le_length (by
      rw [List.length_take]
      omega), List.head?_append, List.head?_append, htexts i List.mem_cons_self, Option.some_or,
      List.drop_take] at hx
    cases hdrop : (bytes.drop source.length).take (i.offset - source.length) with
    | nil =>
      rw [hdrop] at hx
      exact (Option.some.inj hx).symm
    | cons y rest =>
      have hhead : (bytes.drop source.length).head? = some y := by
        rw [← List.take_append_drop (i.offset - source.length) (bytes.drop source.length), hdrop]
        rfl
      rw [hdrop] at hx
      obtain rfl : y = x := Option.some.inj hx
      exact hih y hhead

/-! ## The line of the import -/

/-- Above ends a line, or nothing stands there. -/
def Opens (above : Bytes) : Prop := above = [] ∨ above.getLast? = some newline

/-- The bytes stand in the whole with line breaks or its ends around them. -/
def HoldsLine (line whole : Bytes) : Prop :=
  ∃ above below, whole = above ++ (line ++ below) ∧ Opens above ∧ ∀ b ∈ below.head?, b = newline

theorem foldr_splice_newline (hlower : ∀ i ∈ lower, i.offset ≤ above.length) (rest : Bytes) :
    ∃ front, lower.foldr (fun i s => splice s i) (above ++ newline :: rest) = front ++ rest ∧
      Opens front := by
  have hn : above.length < (above ++ [newline]).length := by simp
  obtain ⟨front, hfront, -, hend⟩ := foldr_splice_lower hlower hn rest
  rw [List.append_assoc, List.singleton_append] at hfront
  rw [List.drop_left] at hend
  obtain ⟨before, rfl⟩ := hend
  exact ⟨_, hfront, .inr List.getLast?_concat⟩

section Last

variable (others : List Insertion) (text : List Char)

/-- Everything at lower offsets is spliced into what the last insertion makes of the source. -/
theorem exists_apply_concat (hn : n ≤ source.length) : ∃ (lower upper : List Insertion) (behind : Bytes),
    apply source (others ++ [⟨n, text⟩]) =
      lower.foldr (fun i s => splice s i) (source.take n ++ (encode text ++ behind)) ∧
    behind = (upper.foldr (fun i s => splice s i) source).drop n ∧
    (∀ i ∈ lower, i ∈ others ∧ i.offset < n) ∧ ∀ i ∈ upper, i ∈ others ∧ n ≤ i.offset := by
  obtain ⟨lower, upper, hordered, hperm, hlower, hupper⟩ :=
    exists_inOrder_concat Insertion.offset others ⟨n, text⟩
  refine ⟨lower, upper, _, ?_, rfl,
    fun i hi => ⟨hperm.subset (List.mem_append_left _ hi), hlower i hi⟩,
    fun i hi => ⟨hperm.subset (List.mem_append_right _ hi), hupper i hi⟩⟩
  rw [apply_eq_foldr, hordered, List.foldr_append, List.foldr_cons, splice, List.append_assoc,
    take_foldr_splice_upper hupper hn]

variable {others} {line : List Char}

theorem encode_newline : encode ['\n'] = [newline] := rfl

theorem holdsLine_between (hn : n ≤ source.length) (htake : source.take n = above ++ [newline]) :
    HoldsLine (encode line) (apply source (others ++ [⟨n, line ++ ['\n']⟩])) := by
  obtain ⟨lower, upper, behind, happly, -, hlower, -⟩ := exists_apply_concat others (line ++ ['\n']) hn
  have hlength : n = above.length + 1 := by
    have hboth := congrArg List.length htake
    rwa [List.length_take, Nat.min_eq_left hn, List.length_append] at hboth
  have habove : ∀ i ∈ lower, i.offset ≤ above.length := fun i hi => by
    have hi' := (hlower i hi).2
    omega
  obtain ⟨front, hfront, hopens⟩ :=
    foldr_splice_newline habove (encode line ++ newline :: behind)
  refine ⟨front, newline :: behind, ?_, hopens, by simp⟩
  rw [happly, htake, ← hfront, Text.Utf8.encode_append, encode_newline]
  simp

theorem holdsLine_breaking (hn : n ≤ source.length) :
    HoldsLine (encode line) (apply source (others ++ [⟨n, '\n' :: line ++ ['\n']⟩])) := by
  obtain ⟨lower, upper, behind, happly, -, hlower, -⟩ :=
    exists_apply_concat others ('\n' :: line ++ ['\n']) hn
  have habove : ∀ i ∈ lower, i.offset ≤ (source.take n).length := fun i hi => by
    rw [List.length_take, Nat.min_eq_left hn]
    exact Nat.le_of_lt (hlower i hi).2
  obtain ⟨front, hfront, hopens⟩ :=
    foldr_splice_newline habove (encode line ++ newline :: behind)
  refine ⟨front, newline :: behind, ?_, hopens, by simp⟩
  rw [happly, ← hfront, List.cons_append, ← List.singleton_append, Text.Utf8.encode_append,
    Text.Utf8.encode_append, encode_newline]
  simp

theorem holdsLine_final (htexts : ∀ i ∈ others, source.length ≤ i.offset →
      (encode i.text).head? = some newline) :
    HoldsLine (encode line) (apply source (others ++ [⟨source.length, '\n' :: line⟩])) := by
  obtain ⟨lower, upper, behind, happly, hbehind, hlower, hupper⟩ :=
    exists_apply_concat others ('\n' :: line) (Nat.le_refl source.length)
  obtain ⟨front, hfront, hopens⟩ := foldr_splice_newline
    (fun i hi => Nat.le_of_lt (hlower i hi).2) (encode line ++ behind)
  refine ⟨front, behind, ?_, hopens, ?_⟩
  · rw [happly, ← hfront, List.take_length, ← List.singleton_append, Text.Utf8.encode_append,
      encode_newline]
    simp
  · rw [hbehind]
    exact head?_drop_foldr_splice (fun i hi => (hupper i hi).2)
      fun i hi => htexts i (hupper i hi).1 (hupper i hi).2

theorem holdsLine_top :
    HoldsLine (encode line) (apply source (others ++ [⟨0, line ++ ['\n']⟩])) := by
  obtain ⟨lower, upper, behind, happly, -, hlower, -⟩ :=
    exists_apply_concat others (line ++ ['\n']) (Nat.zero_le source.length)
  have hnil : lower = [] := List.eq_nil_iff_forall_not_mem.mpr fun i hi =>
    absurd (hlower i hi).2 (Nat.not_lt_zero _)
  refine ⟨[], newline :: behind, ?_, .inl rfl, by simp⟩
  rw [happly, hnil, Text.Utf8.encode_append, encode_newline]
  simp

theorem holdsLine_marked (hmark : startsWithMark source = true) (htexts : ∀ i ∈ others,
      i.offset < 3 → i.offset = 0 ∧ (encode i.text).getLast? = some newline) :
    HoldsLine (byteOrderMark ++ encode line) (apply source (others ++ [⟨3, line ++ ['\n']⟩])) := by
  obtain ⟨rest, hrest⟩ := List.isPrefixOf_iff_prefix.mp hmark
  have hn : 3 ≤ source.length := by
    rw [← hrest, List.length_append]
    exact Nat.le_add_right _ _
  have htake : source.take 3 = byteOrderMark := by
    rw [← hrest]
    rfl
  obtain ⟨lower, upper, behind, happly, -, hlower, -⟩ := exists_apply_concat others (line ++ ['\n']) hn
  have hstart := fun i hi => htexts i (hlower i hi).1 (hlower i hi).2
  refine ⟨lower.flatMap fun i => encode i.text, newline :: behind, ?_, ?_, by simp⟩
  · rw [happly, foldr_splice_start fun i hi => (hstart i hi).1, htake, Text.Utf8.encode_append,
      encode_newline]
    simp
  · rcases List.eq_nil_or_concat lower with rfl | ⟨others', i, rfl⟩
    · exact .inl rfl
    · have hi := (hstart i (by simp)).2
      refine .inr ?_
      rw [List.concat_eq_append, List.flatMap_append, List.flatMap_singleton, List.getLast?_append, hi]
      rfl

end Last

/-- The line of the import is a line of the output, perhaps behind the mark of the source. The texts in
front of the mark end lines, and those behind the end of the source start with a line break. -/
theorem holdsLine_apply {anchor : Nat} {others : List Insertion}
    (hanchor : anchor ≤ source.length)
    (hstart : startsWithMark source = true → ∀ i ∈ others, i.offset < 3 →
      i.offset = 0 ∧ (encode i.text).getLast? = some newline)
    (hfinal : anchor ≠ 0 → (lineRest source anchor).2 = false → ∀ i ∈ others,
      source.length ≤ i.offset → (encode i.text).head? = some newline) (line : List Char) :
    HoldsLine (encode line) (apply source (others ++ [importInsertion source anchor line])) ∨
      HoldsLine (byteOrderMark ++ encode line)
        (apply source (others ++ [importInsertion source anchor line])) := by
  unfold importInsertion
  split
  next =>
    split
    next hmark => exact .inr (holdsLine_marked hmark (hstart hmark))
    next => exact .inl holdsLine_top
  next hpos =>
    simp only
    split
    next => exact .inl (holdsLine_breaking hanchor)
    next =>
      split
      next hended =>
        have hget := getElem?_lineRest hended
        have hlt := (List.getElem?_eq_some_iff.mp hget).1
        have htake : source.take (anchor + (lineRest source anchor).1.length + 1) =
            source.take (anchor + (lineRest source anchor).1.length) ++ [newline] := by
          rw [List.take_add_one, hget]
          rfl
        exact .inl (holdsLine_between hlt htake)
      next hended => exact .inl (holdsLine_final (hfinal hpos (by simpa using hended)))

/-- What the bytes hold as a line, the text has as a line. -/
theorem mem_splitLines_of_holdsLine {text line : List Char} (hline : '\n' ∉ line)
    (h : HoldsLine (encode line) (encode text)) : line ∈ splitLines text := by
  obtain ⟨above, below, htext, habove, hbelow⟩ := h
  obtain ⟨front, rest, rfl, hrest, hends⟩ : ∃ front rest, text = front ++ rest ∧
      encode rest = encode line ++ below ∧ EndsLine front := by
    rcases habove with rfl | hlast
    · exact ⟨[], text, rfl, htext, .inl rfl⟩
    · obtain ⟨before, rfl⟩ := List.getLast?_eq_some_iff.mp hlast
      have hget : (encode text)[before.length]? = some newline := by
        rw [htext, List.append_assoc, List.getElem?_append_right (Nat.le_refl _)]
        simp
      obtain ⟨front, rest, rfl, hlength⟩ := Text.Utf8.boundary_of_ascii hget (by decide)
      have hlast' := lastLine_eq_nil_of_newline hlength hget
      rw [Text.Utf8.encode_append] at htext
      obtain ⟨front', hfront, hends⟩ := Text.exists_eq_append_lastLine front
      rw [hlast', List.append_nil] at hfront
      refine ⟨front, rest, rfl, ?_, hfront ▸ hends⟩
      exact (List.append_inj htext (by rw [hlength, List.length_append]; rfl)).2
  obtain ⟨behind, rfl, hbehind⟩ := Text.Utf8.exists_of_encode_eq_append hrest
  rw [Text.splitLines_append hends, List.mem_append]
  refine .inr ?_
  cases behind with
  | nil =>
    rw [List.append_nil, Text.splitLines_of_not_mem hline]
    exact List.mem_singleton_self line
  | cons c behind =>
    obtain ⟨b, bytes, hb⟩ := List.exists_cons_of_ne_nil (Text.Utf8.encodeChar_ne_nil c)
    obtain rfl : b = newline := by
      refine hbelow b ?_
      rw [← hbehind, Text.Utf8.encode_cons, hb]
      rfl
    obtain rfl : c = '\n' := by
      have hsame := agrees_newline.of_mem (c := c) (b := newline) (by rw [hb]; exact List.mem_cons_self)
      simpa using hsame
    rw [Text.splitLines_line hline]
    exact List.mem_cons_self

/-- Where no line ends behind an offset, everything further behind shares its line. -/
theorem isInline_of_unended {anchor offset : Nat} (h : isInline source anchor = true)
    (hopen : (lineRest source anchor).2 = false) (hle : anchor ≤ offset) :
    isInline source offset = true := by
  have hpiece : newline ∉ (source.drop anchor).take (offset - anchor) := by
    intro hmem
    have hwhole : (source.drop anchor).takeWhile (· != newline) = source.drop anchor := by
      refine (List.takeWhile_prefix _).eq_of_length_le ?_
      simpa [lineRest] using hopen
    have hrest := List.mem_of_mem_take hmem
    rw [← hwhole] at hrest
    exact absurd (List.all_eq_true.mp List.all_takeWhile newline hrest) (by decide)
  have htake : source.take offset = source.take anchor ++ (source.drop anchor).take (offset - anchor) := by
    rw [← List.take_add, Nat.add_sub_cancel' hle]
  rw [isInline, linePrefix_eq, htake, openLine_append_of_not_mem hpiece, List.any_append,
    Bool.or_eq_true]
  exact .inl h

end Injection

/-! ## The import of an adapter -/

/-- An import statement of the file, however deep it stands, names the support module. -/
inductive Adapter.Mentions (a : Adapter) (source : List Char) : Prop where
  | javascript {program t : JavaScript.Tree} (ha : a = JavaScript.adapter)
    (hprogram : JavaScript.outline? source = some program) (ht : t ∈ program.preorder)
    (hkind : t.kind = .importStatement)
    (hname : encode JavaScript.supportFragment.toList <:+: JavaScript.slice (encode source) t)
  | python {statements : List Python.Statement} {s : Python.Statement} (ha : a = Python.adapter)
    (hstatements : Python.outline (encode source) = .ok statements)
    (hs : s ∈ Python.Statement.inBlock statements)
    (hname : (∃ names, s.kind = .imports names ∧ ∃ n ∈ names, Python.namesSupport n.name = true) ∨
      ∃ module names, s.kind = .importsFrom module names ∧ Python.namesSupport module = true)

namespace Adapter

variable {name : String} {a : Adapter} {source : List Char} {options : Options} {layout : Layout}

theorem mentions_iff (ha : (name, a) ∈ Program.registry.adapters)
    (hlocate : a.locate (encode source) options = .ok layout) :
    a.Mentions source ↔ layout.hasSupportImport = true := by
  rcases locate_cases ha hlocate with ⟨rfl, program, hprogram, rfl⟩ | ⟨rfl, statements, hstatements, rfl⟩
  · rw [JavaScript.layout_eq, List.any_eq_true]
    constructor
    · intro h
      cases h with
      | javascript _ hprogram' ht hkind hname =>
        cases hprogram.symm.trans hprogram'
        exact ⟨_, ht, by simp [JavaScript.isSupportImport, hkind, Text.containsPart_iff, hname]⟩
      | python ha => exact absurd (congrArg Adapter.id ha) (by decide)
    · rintro ⟨t, ht, himport⟩
      simp only [JavaScript.isSupportImport, Bool.and_eq_true, decide_eq_true_eq,
        Text.containsPart_iff] at himport
      exact .javascript rfl hprogram ht himport.1 himport.2
  · have hmentions : ∀ s : Python.Statement, Python.isSupportImport s = true ↔
        (∃ names, s.kind = .imports names ∧ ∃ n ∈ names, Python.namesSupport n.name = true) ∨
          ∃ module names, s.kind = .importsFrom module names ∧
            Python.namesSupport module = true := by
      intro s
      unfold Python.isSupportImport
      cases s.kind <;> simp
    rw [Python.layout, List.any_eq_true]
    constructor
    · intro h
      cases h with
      | javascript ha => exact absurd (congrArg Adapter.id ha) (by decide)
      | python _ hstatements' hs hname =>
        cases hstatements.symm.trans hstatements'
        exact ⟨_, hs, (hmentions _).mpr hname⟩
    · rintro ⟨s, hs, himport⟩
      exact .python rfl hstatements hs ((hmentions s).mp himport)

theorem importAnchor_le (ha : (name, a) ∈ Program.registry.adapters)
    (hlocate : a.locate (encode source) options = .ok layout) :
    layout.importAnchor ≤ (encode source).length := by
  rcases locate_cases ha hlocate with ⟨-, program, hprogram, rfl⟩ | ⟨-, statements, -, rfl⟩
  · by_cases hzero : (JavaScript.layout (encode source) options.skipGenerators program).importAnchor = 0
    · rw [hzero]
      exact Nat.zero_le _
    · obtain ⟨before, behind, hsource, -, hlength, -⟩ :=
        JavaScript.exists_before_importAnchor hprogram hzero
      exact Boundary.le_length ⟨before, behind, hsource, hlength⟩
  · rw [Python.layout, Python.importAnchor]
    refine Nat.le_trans (List.dropWhile_suffix _).length_le ?_
    rw [List.length_reverse, List.length_take]
    exact Nat.min_le_right _ _

/-- In front of a mark, or in it, only its very start is taken for a statement. -/
theorem offset_eq_zero_of_mark (ha : (name, a) ∈ Program.registry.adapters)
    (hlocate : a.locate (encode source) options = .ok layout)
    (hmark : startsWithMark (encode source) = true) {c : Injection.Choice}
    (hc : c ∈ choices (encode source) options a.spelling layout.bodies) (hlt : c.site.offset < 3) :
    c.site.offset = 0 := by
  rcases locate_cases ha hlocate with ⟨-, program, hprogram, rfl⟩ | ⟨rfl, statements, -, rfl⟩
  · -- between characters there is only the place behind the mark
    obtain ⟨body, hbody, hs⟩ := Injection.exists_body_of_mem_choices hc
    obtain ⟨before, behind, hsource, hlength⟩ := JavaScript.boundary_of_mem_statements hprogram hbody hs
    rw [← hlength] at hlt ⊢
    cases before with
    | nil => rfl
    | cons x before =>
      have hx : x = Text.mark := by
        have hsplit := (startsWithMark_encode source).mp hmark
        rw [hsource, List.cons_append, Text.splitMark] at hsplit
        split at hsplit
        · assumption
        · cases hsplit
      rw [hx, Text.Utf8.encode_cons, List.length_append] at hlt
      have hthree : (Text.Utf8.encodeChar Text.mark).length = 3 := by decide
      omega
  · -- what stands in the mark shares its line with a byte of it
    obtain ⟨n, hselects⟩ := Injection.selects_of_mem_choices hc
    have hinline : isInline (encode source) c.site.offset = false := by
      simp only [Injection.selects, Bool.and_eq_true] at hselects
      simpa [Python.adapter] using hselects.2
    obtain ⟨rest, hrest⟩ := List.isPrefixOf_iff_prefix.mp hmark
    obtain hzero | hone | htwo : c.site.offset = 0 ∨ c.site.offset = 1 ∨ c.site.offset = 2 := by omega
    · exact hzero
    · rw [hone, ← hrest] at hinline
      exact absurd hinline (by simp [isInline, linePrefix, byteOrderMark]; decide)
    · rw [htwo, ← hrest] at hinline
      exact absurd hinline (by simp [isInline, linePrefix, byteOrderMark]; decide)

section Placed

variable {placed : List (Insertion × InjectionPoint)}

theorem exists_written (hplaced : placements (encode source) options a.spelling layout.bodies =
    .ok placed) {i : Insertion} (hi : i ∈ placed.map (·.1)) :
    ∃ c ∈ choices (encode source) options a.spelling layout.bodies, ∃ point,
      i = ⟨c.site.offset, Injection.written (encode source) options a.spelling c.site.offset point⟩ := by
  obtain ⟨p, hp, rfl⟩ := List.mem_map.mp hi
  obtain ⟨c, hc, hpc⟩ := Injection.exists_choice hplaced hp
  exact ⟨c, hc, p.2, (Injection.insertion_of_place (i := p.1) (p := p.2) hpc).1⟩

/-- What is written at the very start ends a line. -/
theorem getLast?_written_zero (spelling : Spelling) (source : Bytes) (point : InjectionPoint) :
    (encode (Injection.written source options spelling 0 point)).getLast? = some newline := by
  have hprefix : linePrefix source 0 = [] := rfl
  rw [Injection.written, Injection.insertedText, isInline, Injection.indent, hprefix]
  simp only [List.any_nil, Bool.false_eq_true, if_false, List.takeWhile_nil, Injection.indentText,
    List.map_nil]
  rw [Text.Utf8.encode_append, Injection.encode_newline]
  exact List.getLast?_concat

/-- What is written behind other code starts with a line break. -/
theorem head?_written_inline (spelling : Spelling) {source : Bytes} {offset : Nat}
    (hinline : isInline source offset = true) (point : InjectionPoint) :
    (encode (Injection.written source options spelling offset point)).head? = some newline := by
  rw [Injection.written, hinline]
  rfl

end Placed

end Adapter

namespace Python

/-- The statement makes the delay function of the support module known under its name. -/
def bindsDelay (s : Statement) : Bool :=
  match s.kind with
  | .importsFrom module names => namesSupport module && names.any fun n => n.bound == delayIdentifier
  | _ => false

end Python
end DelayInjection
