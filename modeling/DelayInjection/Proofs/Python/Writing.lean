import DelayInjection.Proofs.Delay
import DelayInjection.Proofs.Python.Plain
import DelayInjection.Proofs.Python.Woven
import DelayInjection.Proofs.RoundTrip

/-! What injection writes into a Python source, and where: the comments and the calls go in front of lines,
and the import goes in front of the first line below the head. -/

namespace DelayInjection.Python

open Text.Utf8 (Bytes encode)

variable {source : List Char}

/-! ## Places in the bytes -/

/-- The bytes in front of a place are those of the text in front of it. -/
theorem IsPlain.offset_eq {front : List Char} {line column : Nat} (h : IsPlain source)
    (hfront : front <+: source) (hnames : Names front line column) :
    lineStart (byteLines (encode source)) line + column = (encode front).length := by
  have hnot : 13 ∉ encode source := fun hmem =>
    h.returns ((Injection.mem_encode_iff (d := '\r') (by decide)).mp hmem)
  have hprefix : encode front <+: encode source := by
    obtain ⟨rest, rfl⟩ := hfront
    rw [Text.Utf8.encode_append]
    exact List.prefix_append _ _
  obtain ⟨hle, htake⟩ := unifyNewlines_take_placeBehind ((unifyNewlines_of_not_mem hnot).symm ▸ hprefix)
  rw [unifyNewlines_of_not_mem fun hmem => hnot (List.mem_of_mem_take hmem)] at htake
  rw [placeBehind_of_names hnames, ← htake, List.length_take, Nat.min_eq_left hle, htake]

theorem exists_place (lines : List Bytes) (s : Statement) : ∃ line column : Nat,
    (site lines s).line = line ∧ (site lines s).column = column ∧
      (site lines s).offset = lineStart lines line + column := by
  unfold site
  split
  · exact ⟨_, _, rfl, rfl, rfl⟩
  · exact ⟨_, _, rfl, rfl, rfl⟩

/-- A statement that is selected stands where its line and its column say, with no code in front of it. -/
theorem place_of_choice {options : Options} {layout : DelayInjection.Layout} {c : Injection.Choice}
    (hlocate : locate (encode source) options = .ok layout)
    (hc : c ∈ Injection.choices (encode source) options adapter.spelling layout.bodies) :
    (∃ line column : Nat, c.site.line = line ∧ c.site.column = column ∧
      c.site.offset = lineStart (byteLines (encode source)) line + column) ∧
      Injection.isInline (encode source) c.site.offset = false := by
  obtain ⟨n, hselects⟩ := Injection.selects_of_mem_choices hc
  obtain ⟨body, hbody, hsite⟩ := Injection.exists_body_of_mem_choices hc
  obtain ⟨statements, -, rfl⟩ := outline_of_locate hlocate
  obtain ⟨s, -, hs⟩ := List.mem_filterMap.mp hbody
  refine ⟨?_, ?_⟩
  · unfold asyncBody? at hs
    split at hs
    · simp only at hs
      split at hs
      · cases hs
      · cases hs
        obtain ⟨t, -, ht⟩ := List.mem_map.mp hsite
        exact ht ▸ exists_place _ t
    · cases hs
  · rw [Injection.selects, Bool.and_eq_true] at hselects
    simpa [adapter] using hselects.2

/-! ## What is written -/

/-- The point is that of the first token of a line outside of all brackets. -/
def StartsLine (text : List Char) (p : InjectionPoint) : Prop :=
  ∃ above gap us o ds o', Scanner.Run (Scanner.start text) above us o ∧ o.Indents gap ds o' ∧
    ∃ line column : Nat, p.line = line ∧ p.column = column ∧ Names (above ++ gap) line column

theorem declared?_gap {gap t : List Char} {c : Char} (hgap : ∀ d ∈ gap, isGap d = true)
    (hc : c.toNat < 128) (hcode : isLineGap (UInt8.ofNat c.toNat) = false) :
    declared? (encode (gap ++ c :: t)) =
      if UInt8.ofNat c.toNat == 35 then declaredIn (encode (c :: t)) else none := by
  rw [declared?, dropWhile_encode_gap hgap hc hcode, Text.Utf8.encode_cons, Text.Utf8.encodeChar_ascii hc]
  rfl

/-- No marker declares an encoding: neither is there a `c` in what opens it, nor an `n` in what follows. -/
theorem exists_comment {id seed mode : String} (hid : ∃ key, id = Injection.idOfKey key)
    (hseed : ∃ n : Int, seed = toString n) (hmode : mode ∈ Mode.all) :
    ∃ comment, (Injection.commentLine adapter.spelling id seed mode).toList = '#' :: comment ∧
      declaredIn (encode ('#' :: comment)) = none := by
  obtain ⟨key, rfl⟩ := hid
  obtain ⟨n, rfl⟩ := hseed
  have hline : (Injection.commentLine adapter.spelling (Injection.idOfKey key) (toString n) mode).toList =
      '#' :: (" @flake-monster[jt92-se2j!] v1 id=".toList ++ ((Injection.idOfKey key).toList ++
        " seed=".toList ++ (toString n).toList ++ " mode=".toList ++ mode.toList)) := by
    simp [Injection.commentLine, Injection.marker, adapter, markerOpening]
  have hdigits : 'n' ∉ (Injection.idOfKey key).toList := by
    intro hmem
    have hdigit : ∀ n, n < 16 → Text.Utf8.hexDigit n ≠ 'n' := by decide
    rw [Injection.idOfKey, String.toList_ofList] at hmem
    obtain ⟨b, -, hb⟩ := List.mem_flatMap.mp (List.mem_of_mem_take hmem)
    have hlt : b.toNat < 256 := b.toNat_lt
    rw [Text.Utf8.hexByte, List.mem_cons, List.mem_singleton] at hb
    rcases hb with hb | hb
    · exact hdigit _ (by omega) hb.symm
    · exact hdigit _ (by omega) hb.symm
  have hnumber : 'n' ∉ (toString n).toList := by
    intro hmem
    rcases Text.of_mem_toString_int hmem with h | h <;> exact absurd h (by decide)
  have hname : 'n' ∉ mode.toList := by
    simp only [Mode.all, List.mem_cons, List.not_mem_nil, or_false] at hmode
    rcases hmode with rfl | rfl | rfl <;> decide
  refine ⟨_, hline, ?_⟩
  rw [← List.cons_append, Text.Utf8.encode_append, declaredIn_append (by decide +kernel)]
  refine declaredIn_eq_none fun hmem => ?_
  have hn := (Injection.mem_encode_iff (d := 'n') (by decide)).mp hmem
  simp only [List.mem_append] at hn
  rcases hn with (((hn | hn) | hn) | hn) | hn
  · exact hdigits hn
  · exact absurd hn (by decide)
  · exact hnumber hn
  · exact absurd hn (by decide)
  · exact hname hn

/-- What is written behind `front` for a point. It fits a line of the text, and leaves the encoding as it is. -/
structure WrittenAt (text front : List Char) (p : InjectionPoint) (written : List Char) : Prop where
  fits : Scanner.Fits text front p written
  undeclared : Undeclared front written
  ascii : ∀ c ∈ written, c.toNat < 128 ∧ c ≠ '\r'

/-- In front of such a line the comment and the call stand on lines of their own. -/
theorem writtenAt_of_place {options : Options} {layout : DelayInjection.Layout} {c : Injection.Choice}
    {i : Insertion} {p : InjectionPoint} (hplain : IsPlain source)
    (hlocate : locate (encode source) options = .ok layout)
    (hc : c ∈ Injection.choices (encode source) options adapter.spelling layout.bodies)
    (hplace : Injection.place (encode source) options adapter.spelling c = .ok (i, p))
    (hstarts : StartsLine source p) :
    ∃ front, i.offset = (encode front).length ∧ WrittenAt source front p i.text := by
  obtain ⟨⟨line, column, hline, hcolumn, hoffset⟩, halone⟩ := place_of_choice hlocate hc
  obtain ⟨n, hselects⟩ := Injection.selects_of_mem_choices hc
  obtain ⟨hinsertion, key, hkey⟩ := Injection.insertion_of_place hplace
  have hanswered := Injection.place_eq_ok_iff.mp hplace
  obtain ⟨above, gap, us, o, ds, o', hrun, hindents, line', column', hline', hcolumn', hnames⟩ := hstarts
  obtain rfl : line' = line := by
    have heq := hline'.symm.trans (hanswered.line.trans hline)
    exact_mod_cast heq
  obtain rfl : column' = column := by
    have heq := hcolumn'.symm.trans (hanswered.column.trans hcolumn)
    exact_mod_cast heq
  have hpassed := (hrun.trans hindents.run).passes.rest
  have hplaced : c.site.offset = (encode (above ++ gap)).length :=
    hoffset.trans (hplain.offset_eq ⟨_, hpassed.symm⟩ hnames)
  -- the line up to the point is its indent
  have hindent : ∀ c ∈ gap, Injection.isIndentChar c = true ∧ c.toNat < 128 ∧ c ≠ '\r' := fun c hc => by
    have hgap := hindents.blanks c hc
    simp only [isGap, Bool.or_eq_true, beq_iff_eq] at hgap
    rcases hgap with (rfl | rfl) | rfl <;> decide
  have hopen : '\n' ∉ gap := fun hmem => absurd (hindent _ hmem).1 (by decide)
  have hends : Text.EndsLine above :=
    (hrun.opening_cases hindents.opening).imp And.right And.left
  have hwritten : Injection.indentText (Injection.indent (encode source) c.site.offset) = gap := by
    have htext : source = (above ++ gap) ++ o'.lexer.rest := hpassed
    rw [hplaced, htext, Injection.indent_encode, Text.lastLine_append_of_endsLine hends hopen]
    exact List.takeWhile_eq_self_iff.mpr fun c hc => (hindent c hc).1
  have hlegible : adapter.Legible :=
    @Adapter.legible_of_mem "python" adapter (by simp [Program.registry, adapter])
  have hmode := Injection.mode_mem_of_selects hselects
  have hcomment := hlegible.readable.comment (hkey ▸ Spelling.glyphs_of_key key)
    (Spelling.glyphs_of_int options.seed) (Spelling.glyphs_of_mode hmode)
  have hcall := hlegible.readable.delayCall p.delay
  obtain ⟨comment, hopening, hundeclared⟩ := exists_comment ⟨key, hkey⟩ ⟨options.seed, rfl⟩ hmode
  obtain ⟨call, hcode⟩ : ∃ call, (Injection.callLine adapter.spelling p.delay).toList = 'a' :: call := by
    rw [Injection.callLine, String.toList_append, String.toList_append]
    exact ⟨_, rfl⟩
  have htext : i.text = '#' :: comment ++ '\n' :: (gap ++ ('a' :: call ++ '\n' :: gap)) := by
    simp only [hinsertion, Injection.written, Injection.insertedText, halone, hwritten, hopening, hcode,
      Bool.false_eq_true, if_false, List.append_assoc, List.cons_append]
  rw [hopening] at hcomment
  rw [hcode] at hcall
  have hlexes := lexes_callLine (Delay.isShort_of_milliseconds hanswered.delay)
  rw [hcode] at hlexes
  refine ⟨above ++ gap, by rw [hinsertion, hplaced], ?_, ?_, ?_⟩
  · exact ⟨above, gap, us, o, ds, o', comment, _, rfl, hrun, hindents,
      ⟨line', column', hline', hcolumn', hnames⟩,
      fun hmem => hcomment.newline_not_mem (List.mem_cons_of_mem _ hmem), hlexes, rfl, htext⟩
  · have hfree : '\n' ∉ gap ++ ('a' :: call) := fun hmem =>
      (List.mem_append.mp hmem).elim hopen hcall.newline_not_mem
    refine ⟨above, gap, '#' :: comment, _, rfl, hends, fun hmem =>
      (List.mem_append.mp hmem).elim hopen hcomment.newline_not_mem, htext, ?_, fun _ =>
      ⟨gap ++ 'a' :: call, gap, by simp, hfree, ?_⟩⟩
    · rw [declared?_gap hindents.blanks (by decide) (by decide)]
      exact hundeclared
    · rw [declared?_gap hindents.blanks (by decide) (by decide)]
      rfl
  · have hprinted : ∀ {c : Char}, 32 ≤ c.toNat ∧ c.toNat < 127 → c.toNat < 128 ∧ c ≠ '\r' := fun h =>
      ⟨by omega, by rintro rfl; exact absurd h.1 (by decide)⟩
    rw [htext]
    intro c hc
    rcases List.mem_append.mp hc with hc | hc
    · exact hprinted (hcomment.ascii c hc)
    rcases List.mem_cons.mp hc with rfl | hc
    · decide
    rcases List.mem_append.mp hc with hc | hc
    · exact (hindent c hc).2
    rcases List.mem_append.mp hc with hc | hc
    · exact hprinted (hcall.ascii c hc)
    rcases List.mem_cons.mp hc with rfl | hc
    · decide
    · exact (hindent c hc).2

/-! ## Where the import goes -/

/-- The first line below the head of the module. -/
def lineBelowHead (source : Bytes) (statements : List Statement) : Nat :=
  (headLine? statements).getD (commentLines (byteLines source)) + 1

theorem take_encode {front : List Char} (h : front <+: source) :
    (encode source).take (encode front).length = encode front := by
  obtain ⟨rest, rfl⟩ := h
  rw [Text.Utf8.encode_append, List.take_left]

/-- A line starts behind the bytes of the lines above it. -/
theorem IsPlain.lineStart_eq {above : List Char} (h : IsPlain source) (habove : above <+: source)
    (hends : Text.EndsLine above) :
    lineStart (byteLines (encode source)) (above.count '\n' + 1) = (encode above).length := by
  have hlast := Text.lastLine_append_of_endsLine hends (t := []) List.not_mem_nil
  rw [List.append_nil] at hlast
  have hnames : Names above (above.count '\n' + 1) 0 := ⟨rfl, by rw [hlast]; rfl⟩
  exact h.offset_eq habove hnames

/-- A line with ink does not end in an empty one. -/
theorem IsPlain.anchor_eq {v rest : List Char} (h : IsPlain source) (hsource : source = v ++ '\n' :: rest)
    (hinked : InkedAt (byteLines (encode source)) (v.count '\n')) :
    ((encode (v ++ ['\n'])).reverse.dropWhile fun b => b == 10 || b == 13) = (encode v).reverse ∧
      v ≠ [] := by
  obtain ⟨line, hline, b, hb, hblank⟩ := hinked
  obtain ⟨w, hw, hends⟩ := Text.exists_eq_append_lastLine v
  have hopen := Text.newline_not_mem_lastLine v
  have hcount : w.count '\n' = v.count '\n' := by
    conv_rhs => rw [hw]
    rw [List.count_append, List.count_eq_zero_of_not_mem hopen, Nat.add_zero]
  have hvs : v ++ ['\n'] <+: source := ⟨rest, by rw [hsource]; simp⟩
  have hws : w <+: source := by
    refine List.IsPrefix.trans ?_ hvs
    conv_rhs => rw [hw]
    rw [List.append_assoc]
    exact List.prefix_append _ _
  -- the bytes of the line
  have hfront := take_lineStart (encode source) (w.count '\n' + 1)
  rw [h.lineStart_eq hws hends, take_encode hws, Nat.add_sub_cancel] at hfront
  have hhead := take_lineStart (encode source) ((v ++ ['\n']).count '\n' + 1)
  rw [h.lineStart_eq hvs (.inr ⟨v, rfl⟩), take_encode hvs, Nat.add_sub_cancel, List.count_append,
    List.count_singleton_self, List.take_add_one, hline, List.flatten_append, ← hcount, ← hfront,
    Option.toList_some, List.flatten_singleton] at hhead
  conv_lhs at hhead => rw [hw]
  rw [List.append_assoc, Text.Utf8.encode_append] at hhead
  have hbytes := List.append_cancel_left hhead
  rw [← hbytes, Text.Utf8.encode_append, List.mem_append] at hb
  have hmem : b ∈ encode (Text.lastLine v) := hb.resolve_right fun hb => by
    rw [List.mem_singleton.mp (show b ∈ [10] from hb)] at hblank
    exact absurd hblank (by decide)
  obtain ⟨c, more, hc⟩ := List.exists_cons_of_ne_nil (List.ne_nil_of_mem (List.mem_reverse.mpr hmem))
  have hlast : ¬(c == 10 || c == 13) = true := by
    have hcv : c ∈ encode (Text.lastLine v) := List.mem_reverse.mp (hc ▸ List.mem_cons_self)
    rw [Bool.or_eq_true, beq_iff_eq, beq_iff_eq]
    rintro (rfl | rfl)
    · exact hopen ((Injection.mem_encode_iff (d := '\n') (by decide)).mp hcv)
    · have hreturn := (Injection.mem_encode_iff (d := '\r') (by decide)).mp hcv
      refine h.returns (hvs.subset (List.mem_append_left _ ?_))
      rw [hw]
      exact List.mem_append_right _ hreturn
  refine ⟨?_, fun hnil => by rw [hnil] at hmem; cases hmem⟩
  have hreverse : (encode v).reverse = c :: (more ++ (encode w).reverse) := by
    conv_lhs => rw [hw]
    rw [Text.Utf8.encode_append, List.reverse_append, hc]
    rfl
  rw [Text.Utf8.encode_append, List.reverse_append, show (encode ['\n']).reverse = [10] from rfl,
    List.singleton_append, List.dropWhile_cons_of_pos (by decide), hreverse,
    List.dropWhile_cons, if_neg hlast]

open Injection in
/-- The import goes in front of the first line below the head, if that starts a line. -/
theorem importInsertion_eq {above : List Char} {us : List Token} {o : Scanner}
    {statements : List Statement} (hplain : IsPlain source)
    (houtline : outline (encode source) = .ok statements) (hrun : Scanner.Run (Scanner.start source) above us o)
    (hopening : o.opening = true) (hline : o.lexer.line = lineBelowHead (encode source) statements)
    (text : List Char) :
    importInsertion (encode source) (importAnchor (encode source) (byteLines (encode source)) statements) text =
      ⟨(encode above).length, text ++ ['\n']⟩ := by
  have hstands := hrun.stands (Scanner.stands_start source)
  rw [List.nil_append] at hstands
  have hcount := hstands.2.1.symm.trans hline
  have hends : Text.EndsLine above :=
    (hrun.opening_cases hopening).imp And.right And.left
  have hstart := hplain.lineStart_eq hstands.passed hends
  rw [lineBelowHead, Nat.add_right_cancel_iff] at hcount
  unfold importAnchor
  simp only [← hcount, hstart, take_encode hstands.passed]
  rcases hends with rfl | ⟨v, rfl⟩
  · rw [importInsertion, if_pos (by rfl), hplain.unmarked]
    rfl
  · have hsource : source = v ++ '\n' :: o.lexer.rest := by
      obtain ⟨rest, hrest⟩ := hstands.passed
      have hpassed := hrun.passes.rest
      rw [show (Scanner.start source).lexer.rest = source from rfl] at hpassed
      rw [hpassed, List.append_assoc, List.singleton_append]
    rw [List.count_append, List.count_singleton_self] at hcount
    obtain ⟨hstrip, hne⟩ := hplain.anchor_eq hsource (inkedAt_of_head houtline hcount.symm)
    rw [hstrip, List.length_reverse]
    have hpos : (encode v).length ≠ 0 := fun hzero => hne (by
      have hle := length_le_encode v
      rw [hzero] at hle
      exact List.length_eq_zero_iff.mp (Nat.le_zero.mp hle))
    have hbehind : lineRest (encode source) (encode v).length = ([], true) := by
      have hfirst : Injection.firstLine ('\n' :: o.lexer.rest) = [] := rfl
      rw [hsource, lineRest_encode, hfirst]
      rfl
    rw [importInsertion, if_neg hpos, hbehind, Text.Utf8.encode_append, List.length_append]
    rfl

end DelayInjection.Python
