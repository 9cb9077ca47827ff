import DelayInjection.Proofs.Injection.Prefix
import DelayInjection.Proofs.Python.Block
import DelayInjection.Python.Layout

/-! Where the import of the support module goes in a Python module: behind something other than blanks, or
at the very top. Tokens count lines in the text that was decoded with unified line ends, the anchor counts
them in the bytes of the file. -/

namespace DelayInjection.Python

open Injection (isInline newline)
open Text (isAsciiBlank isBlankByte)
open Text.Utf8 (Bytes encode encodeChar)

/-- Line number `n` holds more than blanks. -/
def InkedBytes (bytes : Bytes) (n : Nat) : Prop :=
  ∃ before b behind, bytes = before ++ b :: behind ∧ isBlankByte b = false ∧
    n = before.count newline + 1

theorem ne_newline {b : UInt8} (h : isBlankByte b = false) : b ≠ newline := by
  rintro rfl
  exact absurd h (by decide)

/-! ## From characters to bytes -/

theorem count_encode (t : List Char) : (encode t).count newline = t.count '\n' := by
  induction t with
  | nil => rfl
  | cons c t ih =>
    rw [Text.Utf8.encode_cons, List.count_append, ih, List.count_cons, Nat.add_comm]
    congr 1
    by_cases hc : c = '\n'
    · rw [hc]
      rfl
    · have hnot : newline ∉ encodeChar c := by
        intro hmem
        have hagree := Injection.agrees_newline.of_mem hmem
        simp [hc] at hagree
      rw [List.count_eq_zero_of_not_mem hnot]
      simp [hc]

theorem inkedBytes_encode {text : List Char} {n : Nat} (h : InkedLine text n) :
    InkedBytes (encode text) n := by
  obtain ⟨before, x, behind, rfl, hx, rfl⟩ := h
  obtain ⟨b, more, hchar⟩ := List.exists_cons_of_ne_nil (Text.Utf8.encodeChar_ne_nil x)
  refine ⟨encode before, b, more ++ encode behind, ?_, ?_, ?_⟩
  · rw [Text.Utf8.encode_append, Text.Utf8.encode_cons, hchar, List.cons_append]
  · rw [← Injection.agrees_blank.of_mem (hchar ▸ List.mem_cons_self), hx]
  · rw [count_encode]

theorem toNat_ofNat_toNat (b : UInt8) : (Char.ofNat b.toNat).toNat = b.toNat := by
  refine Text.Utf8.toNat_ofNat_valid ?_
  have := b.toNat_lt
  omega

theorem ofNat_eq_newline {b : UInt8} : Char.ofNat b.toNat = '\n' ↔ b = newline := by
  refine ⟨fun h => ?_, fun h => by rw [h]; rfl⟩
  have hnat := congrArg Char.toNat h
  rw [toNat_ofNat_toNat] at hnat
  exact UInt8.toNat_inj.mp hnat

theorem isAsciiBlank_ofNat (b : UInt8) : isAsciiBlank (Char.ofNat b.toNat) = isBlankByte b := by
  rw [Bool.eq_iff_iff]
  simp only [isAsciiBlank, isBlankByte, toNat_ofNat_toNat, UInt8.le_iff_toNat_le,
    ← UInt8.toNat_inj, UInt8.reduceToNat, Bool.or_eq_true, Bool.and_eq_true, beq_iff_eq,
    decide_eq_true_eq]

theorem inkedBytes_of_map {bytes : Bytes} {n : Nat}
    (h : InkedLine (bytes.map fun b => Char.ofNat b.toNat) n) : InkedBytes bytes n := by
  obtain ⟨before, x, behind, hbytes, hx, rfl⟩ := h
  obtain ⟨front, back, rfl, rfl, hback⟩ := List.map_eq_append_iff.mp hbytes
  obtain ⟨b, back, rfl, rfl, rfl⟩ := List.map_eq_cons_iff.mp hback
  refine ⟨front, b, back, rfl, isAsciiBlank_ofNat b ▸ hx, ?_⟩
  rw [List.count_eq_countP, List.countP_map, List.count_eq_countP]
  congr 2
  funext c
  simp [ofNat_eq_newline]

theorem inkedBytes_of_decodeAs {encoding : Encoding} {bytes : Bytes} {text : List Char} {n : Nat}
    (hdecode : decodeAs encoding bytes = some text) (h : InkedLine text n) :
    InkedBytes bytes n := by
  unfold decodeAs at hdecode
  split at hdecode
  · unfold Text.Utf8.decode? at hdecode
    cases hd : Text.Utf8.decode bytes with
    | error e =>
      rw [hd] at hdecode
      cases hdecode
    | ok t =>
      rw [hd] at hdecode
      cases hdecode
      rw [← Text.Utf8.encode_of_decode hd]
      exact inkedBytes_encode h
  · cases hdecode
    exact inkedBytes_of_map h
  · split at hdecode <;> cases hdecode
    exact inkedBytes_of_map h

theorem inkedBytes_of_characters {source : Bytes} {text : List Char} {n : Nat}
    (hcharacters : characters? source = some text) (h : InkedLine text n) :
    InkedBytes (unifyNewlines source) n := by
  have hunmarked : ∀ bytes : Bytes, InkedBytes
      (if Text.Utf8.byteOrderMark.isPrefixOf bytes then bytes.drop 3 else bytes) n →
      InkedBytes bytes n := by
    intro bytes hink
    split at hink
    -- the mark holds no newline, so the lines keep their numbers behind it
    next hmark =>
      obtain ⟨rest, rfl⟩ := List.isPrefixOf_iff_prefix.mp hmark
      obtain ⟨before, b, behind, hrest, hb, rfl⟩ := hink
      have hdrop : rest = before ++ b :: behind := hrest
      refine ⟨Text.Utf8.byteOrderMark ++ before, b, behind, by simp [hdrop], hb, ?_⟩
      rw [List.count_append]
      simp [Text.Utf8.byteOrderMark, newline]
    · exact hink
  have hended : ∀ bytes : Bytes, InkedBytes (endLine bytes) n → InkedBytes bytes n := by
    intro bytes hink
    unfold endLine at hink
    split at hink
    · obtain ⟨before, b, behind, hbytes, hb, rfl⟩ := hink
      rcases List.eq_nil_or_concat behind with rfl | ⟨behind, last, rfl⟩
      · -- the newline that is added to the last line is no ink
        have hlast := (List.append_inj' hbytes rfl).2
        rw [List.cons.injEq] at hlast
        exact absurd hlast.1.symm (ne_newline hb)
      · rw [List.concat_eq_append, ← List.cons_append, ← List.append_assoc] at hbytes
        exact ⟨before, b, behind, (List.append_inj' hbytes rfl).1, hb, rfl⟩
    · exact hink
  refine hended _ (hunmarked _ ?_)
  unfold characters? at hcharacters
  simp only at hcharacters
  split at hcharacters
  · exact inkedBytes_of_decodeAs hcharacters h
  · split at hcharacters
    · cases hcharacters
    · split at hcharacters
      · cases hcharacters
      · exact inkedBytes_of_decodeAs hcharacters h

/-! ## Lines of bytes -/

theorem flatten_byteLines (source : Bytes) : (byteLines source).flatten = source := by
  induction source using byteLines.induct with
  | case1 => rfl
  | case2 rest ih => simp [byteLines, ih]
  | case3 b rest hne hb ih => rw [byteLines.eq_3 _ _ hne, if_pos hb, List.flatten_cons, ih]; rfl
  | case4 b rest hne hb hrest ih =>
    rw [hrest] at ih
    rw [byteLines.eq_3 _ _ hne, if_neg hb, hrest, ← ih]
    rfl
  | case5 b rest hne hb line others hrest ih =>
    rw [hrest] at ih
    rw [byteLines.eq_3 _ _ hne, if_neg hb, hrest, ← ih]
    rfl

def EndsLine (b : UInt8) : Prop := b = 10 ∨ b = 13

/-- Only at its end is a line ended. -/
theorem exists_content {source line : Bytes} (h : line ∈ byteLines source) :
    ∃ content ending, line = content ++ ending ∧ (∀ b ∈ content, ¬EndsLine b) ∧
      ∀ b ∈ ending, EndsLine b := by
  induction source using byteLines.induct generalizing line with
  | case1 => cases h
  | case2 rest ih =>
    rcases List.mem_cons.mp h with rfl | h
    · exact ⟨[], [13, 10], rfl, by simp, by simp [EndsLine]⟩
    · exact ih h
  | case3 b rest hne hb ih =>
    rw [byteLines.eq_3 _ _ hne, if_pos hb] at h
    rcases List.mem_cons.mp h with rfl | h
    · exact ⟨[], [b], rfl, by simp, by simpa [EndsLine] using hb⟩
    · exact ih h
  | case4 b rest hne hb hrest ih =>
    rw [byteLines.eq_3 _ _ hne, if_neg hb, hrest, List.mem_singleton] at h
    exact ⟨[b], [], by simp [h], by simpa [EndsLine] using hb, by simp⟩
  | case5 b rest hne hb first others hrest ih =>
    rw [hrest] at ih
    rw [byteLines.eq_3 _ _ hne, if_neg hb, hrest] at h
    rcases List.mem_cons.mp h with rfl | h
    · obtain ⟨content, ending, rfl, hcontent, hending⟩ := ih List.mem_cons_self
      refine ⟨b :: content, ending, rfl, ?_, hending⟩
      rintro c hc
      rcases List.mem_cons.mp hc with rfl | hc
      · simpa [EndsLine] using hb
      · exact hcontent c hc
    · exact ih (List.mem_cons_of_mem _ h)

def InkedAt (lines : List Bytes) (i : Nat) : Prop :=
  ∃ line, lines[i]? = some line ∧ ∃ b ∈ line, isBlankByte b = false

theorem inkedBytes_cons {b : UInt8} {bytes : Bytes} {n : Nat} (h : InkedBytes (b :: bytes) n) :
    (isBlankByte b = false ∧ n = 1) ∨
      ∃ m, InkedBytes bytes (m + 1) ∧ n = m + 1 + if b = newline then 1 else 0 := by
  obtain ⟨before, c, behind, hbytes, hc, rfl⟩ := h
  rcases List.cons_eq_append_iff.mp hbytes with ⟨rfl, h⟩ | ⟨before, rfl, rfl⟩
  · rw [List.cons.injEq] at h
    exact .inl ⟨h.1 ▸ hc, rfl⟩
  · refine .inr ⟨before.count newline, ⟨before, c, behind, rfl, hc, rfl⟩, ?_⟩
    rw [List.count_cons]
    by_cases hb : b = newline <;> simp [hb]

theorem unifyNewlines_cons {b : UInt8} (rest : Bytes) (hb : ¬(b = 10 || b = 13) = true) :
    b ≠ newline ∧ unifyNewlines (b :: rest) = b :: unifyNewlines rest := by
  simp only [Bool.or_eq_true, decide_eq_true_eq, not_or] at hb
  exact ⟨hb.1, unifyNewlines.eq_4 _ _ (fun _ h _ => hb.2 h) hb.2⟩

/-- Behind the end of a line the numbers go on by one. -/
theorem inkedAt_of_ended {rest line : Bytes} {i : Nat}
    (h : InkedBytes (newline :: unifyNewlines rest) (i + 1))
    (ih : ∀ {j}, InkedBytes (unifyNewlines rest) (j + 1) → InkedAt (byteLines rest) j) :
    InkedAt (line :: byteLines rest) i := by
  rcases inkedBytes_cons h with ⟨hb, -⟩ | ⟨m, hm, hi⟩
  · exact absurd rfl (ne_newline hb)
  · rw [if_pos rfl, Nat.add_right_cancel_iff] at hi
    subst hi
    exact ih hm

/-- A line has the same number whether or not its end was unified. -/
theorem inkedAt_byteLines {source : Bytes} {i : Nat} (h : InkedBytes (unifyNewlines source) (i + 1)) :
    InkedAt (byteLines source) i := by
  -- a byte that ends no line goes to the front of the line behind it, and is counted with it
  induction source using byteLines.induct generalizing i with
  | case1 =>
    obtain ⟨before, b, behind, hnil, -⟩ := h
    simp [unifyNewlines] at hnil
  | case2 rest ih => exact inkedAt_of_ended h ih
  | case3 b rest hne hb ih =>
    rw [byteLines.eq_3 _ _ hne, if_pos hb]
    refine inkedAt_of_ended ?_ ih
    rcases Decidable.em (b = 13) with rfl | hb13
    · rwa [unifyNewlines.eq_3 _ (fun r hr => hne r rfl hr)] at h
    · rw [unifyNewlines.eq_4 _ _ (fun r h13 _ => hb13 h13) (fun h13 => hb13 h13)] at h
      have hb10 : b = 10 := by simpa [hb13] using hb
      rwa [hb10] at h
  | case4 b rest hne hb hrest ih =>
    obtain ⟨hnl, hunify⟩ := unifyNewlines_cons rest hb
    rw [byteLines.eq_3 _ _ hne, if_neg hb, hrest]
    rcases inkedBytes_cons (hunify ▸ h) with ⟨hblank, hi⟩ | ⟨m, hm, hi⟩
    · obtain rfl : i = 0 := by omega
      exact ⟨[b], rfl, b, List.mem_cons_self, hblank⟩
    · obtain ⟨line, hline, -⟩ := ih hm
      rw [hrest] at hline
      cases hline
  | case5 b rest hne hb line others hrest ih =>
    obtain ⟨hnl, hunify⟩ := unifyNewlines_cons rest hb
    rw [byteLines.eq_3 _ _ hne, if_neg hb, hrest]
    rcases inkedBytes_cons (hunify ▸ h) with ⟨hblank, hi⟩ | ⟨m, hm, hi⟩
    · obtain rfl : i = 0 := by omega
      exact ⟨b :: line, rfl, b, List.mem_cons_self, hblank⟩
    · obtain rfl : i = m := by simpa [hnl] using hi
      obtain ⟨inked, hline, c, hc, hblank⟩ := ih hm
      rw [hrest] at hline
      cases i with
      | zero =>
        cases hline
        exact ⟨b :: line, rfl, c, List.mem_cons_of_mem _ hc, hblank⟩
      | succ i => exact ⟨inked, hline, c, hc, hblank⟩

/-! ## Where lines start -/

theorem lineStart_byteLines (source : Bytes) (n : Nat) :
    lineStart (byteLines source) n = ((byteLines source).take (n - 1)).flatten.length := by
  rw [lineStart, List.length_flatten, List.sum_eq_foldr, List.foldr_map]

theorem take_lineStart (source : Bytes) (n : Nat) :
    source.take (lineStart (byteLines source) n) = ((byteLines source).take (n - 1)).flatten := by
  have hprefix : ((byteLines source).take (n - 1)).flatten <+: source := by
    refine ⟨((byteLines source).drop (n - 1)).flatten, ?_⟩
    rw [← List.flatten_append, List.take_append_drop, flatten_byteLines]
  rw [lineStart_byteLines]
  exact (List.prefix_iff_eq_take.mp hprefix).symm

/-- A delay for a decorated statement goes behind the blanks of the line in which the first of its
decorators starts, whatever stands in the lines before. -/
theorem take_offset_site_of_decorated {source line : Bytes} {s : Statement} {n : Nat}
    (hfirst : (s.decorators.map (·.line)).min? = some n)
    (hline : (byteLines source)[n - 1]? = some line) :
    source.take (site (byteLines source) s).offset =
      ((byteLines source).take (n - 1)).flatten ++ line.takeWhile isLineGap := by
  obtain ⟨hlt, rfl⟩ := List.getElem?_eq_some_iff.mp hline
  have hsource : source = ((byteLines source).take (n - 1)).flatten ++
      ((byteLines source)[n - 1] ++ ((byteLines source).drop (n - 1 + 1)).flatten) := by
    rw [← List.flatten_cons, ← List.drop_eq_getElem_cons, ← List.flatten_append,
      List.take_append_drop, flatten_byteLines]
  have hoffset : (site (byteLines source) s).offset = ((byteLines source).take (n - 1)).flatten.length +
      ((byteLines source)[n - 1].takeWhile isLineGap).length := by
    unfold site
    rw [hfirst]
    simp only [lineStart_byteLines, hline, Option.getD_some]
  generalize ((byteLines source).take (n - 1)).flatten = above at hsource hoffset ⊢
  generalize (byteLines source)[n - 1] = line at hsource hoffset ⊢
  have hgap : line.takeWhile isLineGap <+: line ++ ((byteLines source).drop (n - 1 + 1)).flatten :=
    (List.takeWhile_prefix _).trans (List.prefix_append _ _)
  rw [hoffset]
  conv_lhs => rw [hsource]
  rw [List.take_length_add_append, ← List.prefix_iff_eq_take.mp hgap]

/-! ## The anchor -/

/-- Without the end of its last line a head ends behind what the line holds. -/
theorem isInline_of_inkedAt {source : Bytes} {k : Nat} (h : InkedAt (byteLines source) k) :
    isInline source (((source.take (lineStart (byteLines source) (k + 2))).reverse.dropWhile
      fun b => b == 10 || b == 13).length) = true := by
  obtain ⟨line, hline, b, hb, hblank⟩ := h
  obtain ⟨content, ending, rfl, hcontent, hending⟩ :=
    exists_content (List.mem_of_getElem? hline)
  have hmem : b ∈ content := by
    rcases List.mem_append.mp hb with hb | hb
    · exact hb
    · rcases hending b hb with rfl | rfl <;> exact absurd hblank (by decide)
  generalize hfront : ((byteLines source).take k).flatten = front
  have hhead : source.take (lineStart (byteLines source) (k + 2)) = front ++ content ++ ending := by
    rw [take_lineStart, Nat.add_sub_cancel (m := 1), List.take_add_one, hline, List.flatten_append, hfront,
      List.append_assoc]
    simp
  -- all that ends the line is stripped, and nothing of what it holds
  have hstrip : (front ++ content ++ ending).reverse.dropWhile (fun b => b == 10 || b == 13) =
      (front ++ content).reverse := by
    have hlast : ∀ c ∈ content.reverse, (c == 10 || c == 13) = false := fun c hc => by
      simpa [EndsLine] using hcontent c (List.mem_reverse.mp hc)
    rw [List.reverse_append, List.dropWhile_append_of_pos, List.reverse_append]
    · cases hreverse : content.reverse with
      | nil => simp [List.reverse_eq_nil_iff.mp hreverse] at hmem
      | cons c more =>
        rw [List.cons_append, List.dropWhile_cons_of_neg]
        simp [hlast c (hreverse ▸ List.mem_cons_self)]
    · intro c hc
      simpa [EndsLine] using hending c (List.mem_reverse.mp hc)
  have hprefix : source.take (front ++ content).length = front ++ content := by
    have : front ++ content <+: source :=
      ⟨_, by rw [← List.append_assoc, ← hhead, List.take_append_drop]⟩
    exact (List.prefix_iff_eq_take.mp this).symm
  rw [hhead, hstrip, List.length_reverse, isInline, List.any_eq_true]
  refine ⟨b, ?_, by rw [hblank]; rfl⟩
  have hopen : newline ∉ content := fun hnewline => hcontent newline hnewline (.inl rfl)
  rw [Injection.linePrefix_eq, hprefix, Injection.openLine_append_of_not_mem hopen]
  exact List.mem_append_right _ hmem

theorem mem_takeWhile_opens {statements : List Statement} {s : Statement}
    (h : s ∈ statements.takeWhile isImport) : s ∈ statements.takeWhile (·.kind.opens) := by
  induction statements with
  | nil => cases h
  | cons t statements ih =>
    rw [List.takeWhile_cons] at h
    split at h
    next himport =>
      have hopens : t.kind.opens = true := by
        unfold isImport at himport
        split at himport <;> simp_all [StatementKind.opens]
      rw [List.takeWhile_cons_of_pos (p := fun s : Statement => s.kind.opens) hopens]
      rcases List.mem_cons.mp h with rfl | h
      · exact List.mem_cons_self
      · exact List.mem_cons_of_mem _ (ih h)
    · cases h

/-- The statement that ends the head is one of those that open the module. -/
theorem exists_opening {statements : List Statement} {n : Nat} (h : headLine? statements = some n) :
    ∃ s ∈ statements.takeWhile (·.kind.opens), s.kind.opens = true ∧ s.extent.endLine = n := by
  obtain ⟨s, hs, rfl⟩ := Option.map_eq_some_iff.mp h
  suffices hmem : s ∈ statements.takeWhile (·.kind.opens) from
    ⟨s, hmem, List.all_eq_true.mp List.all_takeWhile s hmem, rfl⟩
  have hs := List.mem_of_getLast? hs
  cases statements with
  | nil => cases hs
  | cons t statements =>
    -- only a first statement is taken for a description
    cases htext : t.isText with
    | true =>
      have hopens : t.kind.opens = true := by
        rw [of_decide_eq_true htext]
        rfl
      simp only [List.head?_cons, Option.any_some, htext, if_true, withoutDescription,
        List.take_succ_cons, List.take_zero, List.singleton_append] at hs
      rw [List.takeWhile_cons_of_pos (p := fun s : Statement => s.kind.opens) hopens]
      rcases List.mem_cons.mp hs with rfl | hs
      · exact List.mem_cons_self
      · exact List.mem_cons_of_mem _ (mem_takeWhile_opens hs)
    | false =>
      simp only [List.head?_cons, Option.any_some, htext, Bool.false_eq_true, if_false,
        withoutDescription, List.nil_append] at hs
      exact mem_takeWhile_opens hs

theorem ink_of_isCommentLine {line : Bytes} (h : isCommentLine line = true) :
    ∃ b ∈ line, isBlankByte b = false := by
  have hmem : ∀ bytes : Bytes, (bytes.dropWhile isBlankByte).head? = some 35 → 35 ∈ bytes :=
    fun bytes hb => (List.dropWhile_suffix _).subset (List.mem_of_head? hb)
  refine ⟨35, ?_, by decide⟩
  unfold isCommentLine at h
  simp only [decide_eq_true_eq] at h
  split at h
  · exact List.mem_of_mem_drop (hmem _ h)
  · exact hmem _ h

/-- The line up to which the head of a module goes holds more than blanks. -/
theorem inkedAt_of_head {source : Bytes} {statements : List Statement} {k : Nat}
    (h : outline source = .ok statements)
    (hline : (headLine? statements).getD (commentLines (byteLines source)) = k + 1) :
    InkedAt (byteLines source) k := by
  obtain ⟨text, htext, hread⟩ := read_of_outline h
  cases hhead : headLine? statements with
  | some n =>
    -- the head ends with the last line of a statement, and so of a token
    obtain ⟨s, hs, hopens, rfl⟩ := exists_opening hhead
    obtain ⟨rest, taken, t, htokens, hend, hfinal⟩ :=
      (hread s ((List.takeWhile_sublist _).subset hs)).settled hopens
    have hmem : t ∈ tokens text := by
      rw [htokens]
      simp
    have hinked := inkedLine_of_mem_tokens hmem hfinal
    rw [hend] at hinked
    rw [hhead, Option.getD_some] at hline
    exact inkedAt_byteLines (inkedBytes_of_characters htext (hline ▸ hinked))
  | none =>
    -- the head is the comment lines, if there are any
    rw [hhead, Option.getD_none, commentLines] at hline
    have hk : k < ((byteLines source).takeWhile isCommentLine).length := by omega
    have hcomment := List.all_eq_true.mp List.all_takeWhile _ (List.getElem_mem hk)
    refine ⟨_, ?_, ink_of_isCommentLine hcomment⟩
    obtain ⟨others, hothers⟩ := List.takeWhile_prefix (l := byteLines source) isCommentLine
    conv_lhs => rw [← hothers]
    rw [List.getElem?_append_left hk, List.getElem?_eq_getElem hk]

/-- The import of the support module goes to the top, or behind more than blanks. -/
theorem isInline_importAnchor {source : Bytes} {statements : List Statement}
    (h : outline source = .ok statements)
    (hanchor : importAnchor source (byteLines source) statements ≠ 0) :
    isInline source (importAnchor source (byteLines source) statements) = true := by
  unfold importAnchor at hanchor ⊢
  cases hline : (headLine? statements).getD (commentLines (byteLines source)) with
  | zero => simp [hline, lineStart] at hanchor
  | succ k => exact isInline_of_inkedAt (inkedAt_of_head h hline)

/-! ## The layout -/

/-- What the layout of a file is made of. -/
theorem outline_of_locate {source : Bytes} {layout : DelayInjection.Layout} {options : Options}
    (h : locate source options = .ok layout) : ∃ statements, outline source = .ok statements ∧
      layout = Python.layout source options.skipGenerators statements := by
  unfold locate at h
  split at h
  · cases h
  · cases houtline : outline source with
    | error fault =>
      rw [houtline] at h
      cases h
    | ok statements =>
      rw [houtline] at h
      cases h
      exact ⟨statements, rfl, rfl⟩

end DelayInjection.Python
