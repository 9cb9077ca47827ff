import DelayInjection.Proofs.Injection.Placement
import DelayInjection.Proofs.Injection.Prefix
import DelayInjection.Python.Layout

/-! What stands in front of a statement on its line, and what of it is written again in front of its delay
call. Of the blanks that do not count as code a carriage return alone does not indent, so the two are the
same exactly if no carriage return stands there. -/

namespace DelayInjection.Injection

open Text.Utf8 (Bytes encode)

def carriageReturn : UInt8 := 13

/-- A source around an offset: whole lines, what stands in front of the offset on its line, and what
stands behind it. -/
structure CutAt (source : Bytes) (offset : Nat) (above line behind : Bytes) : Prop where
  source_eq : source = above ++ line ++ behind
  offset_eq : (above ++ line).length = offset
  above_ends : above = [] ∨ ∃ s, above = s ++ [newline]
  line_open : newline ∉ line

variable {source above line behind : Bytes} {offset : Nat}

theorem exists_cutAt (h : offset ≤ source.length) :
    ∃ above behind, CutAt source offset above (linePrefix source offset) behind := by
  obtain ⟨above, habove, hends⟩ := exists_eq_append_openLine (source.take offset)
  refine ⟨above, source.drop offset, ?_, ?_, hends, newline_not_mem_openLine _⟩
  · rw [linePrefix_eq, ← habove, List.take_append_drop]
  · rw [linePrefix_eq, ← habove, List.length_take, Nat.min_eq_left h]

theorem CutAt.linePrefix_eq (h : CutAt source offset above line behind) :
    linePrefix source offset = line := by
  rw [Injection.linePrefix_eq, ← h.offset_eq, h.source_eq, List.take_left,
    openLine_append_of_not_mem h.line_open, openLine_of_ends h.above_ends, List.nil_append]

/-! ## The indent -/

/-- Of the blanks of a line only a carriage return does not indent. -/
theorem isIndentByte_of_blank {b : UInt8} (hblank : Text.isBlankByte b = true) (hne : b ≠ newline) :
    isIndentByte b = (b != carriageReturn) := by
  rw [Bool.eq_iff_iff]
  simp only [Text.isBlankByte, Bool.or_eq_true, beq_iff_eq, Bool.and_eq_true, decide_eq_true_eq,
    UInt8.le_iff_toNat_le, ← UInt8.toNat_inj] at hblank
  simp only [isIndentByte, bne_iff_ne, Bool.or_eq_true, beq_iff_eq, ← UInt8.toNat_inj, newline,
    carriageReturn, ne_eq] at hne ⊢
  simp only [UInt8.reduceToNat] at hblank hne ⊢
  omega

/-- In front of a statement that has its line for itself, the indent ends at the first carriage return. -/
theorem CutAt.indent_eq (h : CutAt source offset above line behind)
    (hinline : isInline source offset = false) :
    indent source offset = line.takeWhile (· != carriageReturn) := by
  rw [isInline, h.linePrefix_eq, List.any_eq_false] at hinline
  rw [indent, h.linePrefix_eq]
  -- with no code on the line both tests say the same of each of its bytes
  have hbytes : ∀ b ∈ line, isIndentByte b = (b != carriageReturn) := fun b hb =>
    isIndentByte_of_blank (by simpa using hinline b hb) fun hn => h.line_open (hn ▸ hb)
  clear hinline h
  induction line with
  | nil => rfl
  | cons b line ih =>
    rw [List.takeWhile_cons, List.takeWhile_cons, hbytes b List.mem_cons_self,
      ih fun c hc => hbytes c (List.mem_cons_of_mem _ hc)]

theorem CutAt.indent_eq_iff (h : CutAt source offset above line behind)
    (hinline : isInline source offset = false) :
    indent source offset = line ↔ carriageReturn ∉ line := by
  rw [h.indent_eq hinline, List.takeWhile_eq_self_iff]
  simp only [bne_iff_ne, List.forall_mem_ne']

/-- An indent is written as it was read. -/
theorem encode_indentText {bytes : Bytes} (h : ∀ b ∈ bytes, isIndentByte b = true) :
    encode (indentText bytes) = bytes := by
  induction bytes with
  | nil => rfl
  | cons b bytes ih =>
    have hb := h b List.mem_cons_self
    have hone : encode [Char.ofNat b.toNat] = [b] := by
      simp only [isIndentByte, Bool.or_eq_true, beq_iff_eq] at hb
      rcases hb with ((rfl | rfl) | rfl) | rfl <;> decide
    rw [indentText, List.map_cons, ← List.singleton_append, Text.Utf8.encode_append, hone]
    exact congrArg (b :: ·) (ih fun c hc => h c (List.mem_cons_of_mem _ hc))

/-! ## The lines of a delay -/

/-- The file with a delay in front of a statement: `front` stands in front of the marker, and `again` in
front of the call and of the statement itself. -/
def delayed (above front again behind : Bytes) (comment call : String) : Bytes :=
  above ++ (front ++ encode comment.toList) ++ newline :: (again ++ encode call.toList) ++
    newline :: (again ++ behind)

/-- The marker comes behind what stands in front of the statement, the call and the statement behind the
indent. -/
theorem CutAt.splice_written (h : CutAt source offset above line behind)
    (hinline : isInline source offset = false) (options : Options) (spelling : Spelling)
    (point : InjectionPoint) :
    splice source ⟨offset, written source options spelling offset point⟩ =
      delayed above line (indent source offset) behind
        (commentLine spelling point.id (toString options.seed) options.mode)
        (callLine spelling point.delay) := by
  have htake : source.take offset = above ++ line := by
    rw [← h.offset_eq, h.source_eq, List.take_left]
  have hdrop : source.drop offset = behind := by
    rw [← h.offset_eq, h.source_eq, List.drop_left]
  have hindent : encode (indentText (indent source offset)) = indent source offset :=
    encode_indentText fun b hb => List.all_eq_true.mp List.all_takeWhile b hb
  have hnewline : ∀ t, encode ('\n' :: t) = newline :: encode t := fun _ => rfl
  rw [splice, htake, hdrop, written, hinline, insertedText]
  simp only [Bool.false_eq_true, if_false, List.append_assoc, List.cons_append,
    Text.Utf8.encode_append, hnewline, hindent, delayed]

/-- Without the two lines the source is left exactly if the indent is all that stands in front of the
statement. -/
theorem CutAt.without_lines_eq_iff (h : CutAt source offset above line behind) {again : Bytes} :
    above ++ again ++ behind = source ↔ again = line := by
  rw [h.source_eq, List.append_left_inj, List.append_right_inj]

/-- In front of a statement that has its line for itself, the indent is what stands there up to the first
carriage return, and so all of it exactly if there is none. With a delay the marker comes behind all of
it and the call and the statement behind the indent, so that the source is left without the two lines
exactly if there is none. -/
theorem indent_eq_line_iff (hwithin : offset ≤ source.length)
    (hinline : isInline source offset = false) :
    ∃ above line behind, CutAt source offset above line behind ∧
      indent source offset = line.takeWhile (· != carriageReturn) ∧
      (indent source offset = line ↔ carriageReturn ∉ line) ∧
      (above ++ indent source offset ++ behind = source ↔ carriageReturn ∉ line) ∧
      ∀ options spelling bodies placed, placements source options spelling bodies = .ok placed →
        ∀ answer ∈ placed, answer.1.offset = offset →
          splice source answer.1 = delayed above line (indent source offset) behind
            (commentLine spelling answer.2.id (toString options.seed) options.mode)
            (callLine spelling answer.2.delay) := by
  obtain ⟨above, behind, h⟩ := exists_cutAt hwithin
  have hagree := h.indent_eq_iff hinline
  refine ⟨above, _, behind, h, h.indent_eq hinline, hagree, h.without_lines_eq_iff.trans hagree, ?_⟩
  intro options spelling bodies placed hplaced answer hmem hoffset
  obtain ⟨c, -, hplace⟩ := exists_choice hplaced hmem
  obtain ⟨hi, -⟩ := insertion_of_place (i := answer.1) (p := answer.2) hplace
  have hsite : c.site.offset = offset := by rw [← hoffset, hi]
  rw [hi, hsite]
  exact h.splice_written hinline options spelling answer.2

/-- Lines that end in a newline and a carriage return: the carriage return comes to stand in front of the
next statement. -/
theorem exists_placed_behind_return {source : List Char}
    (hsource : source = "async def f():\n\r    g()\n\r".toList) :
    Python.locate (encode source) { filePath := "a.py" } = .ok ⟨[⟨"f", [⟨.plain, 20, 3, 4⟩]⟩], 0, false⟩ ∧
      isInline (encode source) 20 = false ∧
      ∃ answer, placements (encode source) { filePath := "a.py" } Python.adapter.spelling
        [⟨"f", [⟨.plain, 20, 3, 4⟩]⟩] = .ok [answer] ∧ answer.1.offset = 20 := by
  have hlocate : Python.locate (encode source) { filePath := "a.py" } =
      .ok ⟨[⟨"f", [⟨.plain, 20, 3, 4⟩]⟩], 0, false⟩ := by
    subst hsource
    decide +kernel
  have hinline : isInline (encode source) 20 = false := by
    subst hsource
    decide +kernel
  have hok : (placements (encode source) { filePath := "a.py" } Python.adapter.spelling
      [⟨"f", [⟨.plain, 20, 3, 4⟩]⟩]).toOption.any (fun placed =>
        placed.map (·.1.offset) == [20]) = true := by
    subst hsource
    decide +kernel
  refine ⟨hlocate, hinline, ?_⟩
  cases hplaced : placements (encode source) { filePath := "a.py" } Python.adapter.spelling
      [⟨"f", [⟨.plain, 20, 3, 4⟩]⟩] with
  | error e =>
    rw [hplaced] at hok
    cases hok
  | ok placed =>
    rw [hplaced] at hok
    obtain ⟨answer, rfl, hoffset⟩ := List.map_eq_singleton_iff.mp (beq_iff_eq.mp hok)
    exact ⟨answer, rfl, hoffset⟩

theorem indent_eq_line_iff_of_return : ∃ answer above line behind,
    placements (encode "async def f():\n\r    g()\n\r".toList) { filePath := "a.py" }
        Python.adapter.spelling [⟨"f", [⟨.plain, 20, 3, 4⟩]⟩] = .ok [answer] ∧
      CutAt (encode "async def f():\n\r    g()\n\r".toList) 20 above line behind ∧
      carriageReturn ∈ line ∧ splice (encode "async def f():\n\r    g()\n\r".toList) answer.1 =
        delayed above line [] behind
          (commentLine Python.adapter.spelling answer.2.id (toString (0 : Int)) Mode.medium)
          (callLine Python.adapter.spelling answer.2.delay) := by
  obtain ⟨source, hsource⟩ : ∃ t, t = "async def f():\n\r    g()\n\r".toList := ⟨_, rfl⟩
  rw [← hsource]
  obtain ⟨-, hinline, answer, hplaced, hoffset⟩ := exists_placed_behind_return hsource
  have hwithin : 20 ≤ (encode source).length := by
    subst hsource
    decide +kernel
  obtain ⟨above, line, behind, hcut, -, hiff, -, hwritten⟩ := indent_eq_line_iff hwithin hinline
  have hindent : indent (encode source) 20 = [] := by
    subst hsource
    decide +kernel
  have hreturn : carriageReturn ∈ line := by
    rw [← hcut.linePrefix_eq]
    subst hsource
    decide +kernel
  have hsplice := hwritten _ _ _ _ hplaced answer List.mem_cons_self hoffset
  rw [hindent] at hsplice
  exact ⟨answer, above, line, behind, hplaced, hcut, hreturn, hsplice⟩

/-- The two are not the same: a statement that the locator finds, with a carriage return and blanks in
front of it, gets no indent. -/
theorem indent_ne_of_return : ∃ source above line behind,
    Python.locate source { filePath := "a.py" } = .ok ⟨[⟨"f", [⟨.plain, 20, 3, 4⟩]⟩], 0, false⟩ ∧
      CutAt source 20 above line behind ∧ isInline source 20 = false ∧
      line = encode "\r    ".toList ∧ indent source 20 = [] := by
  obtain ⟨source, hsource⟩ : ∃ t, t = "async def f():\n\r    g()\n\r".toList := ⟨_, rfl⟩
  obtain ⟨hlocate, hinline, -⟩ := exists_placed_behind_return hsource
  refine ⟨encode source, encode "async def f():\n".toList, _, encode "g()\n\r".toList, hlocate,
    ⟨?_, ?_, .inr ⟨encode "async def f():".toList, ?_⟩, ?_⟩, hinline, rfl, ?_⟩
  all_goals
    subst hsource
    decide +kernel

end DelayInjection.Injection
