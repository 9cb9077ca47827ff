import DelayInjection.Proofs.Injection.Marked
import DelayInjection.Proofs.Python.Place

/-! Python files behind a byte order mark. The mark is no part of the text that is parsed, so the first line
keeps its columns although it starts three bytes further behind; on that line no delay is placed. -/

namespace DelayInjection.Python

open Injection (isInline newline startsWithMark)
open Text.Utf8 (Bytes byteOrderMark encode)

variable {source : Bytes} {text : List Char}

/-! ## The text -/

theorem unifyNewlines_mark (source : Bytes) :
    unifyNewlines (byteOrderMark ++ source) = byteOrderMark ++ unifyNewlines source := by
  simp [byteOrderMark, unifyNewlines]

theorem unifyNewlines_ne_nil (h : source ≠ []) : unifyNewlines source ≠ [] := by
  cases source using unifyNewlines.fun_cases_unfolding with
  | case1 => exact absurd rfl h
  | case2 => exact List.cons_ne_nil _ _
  | case3 => exact List.cons_ne_nil _ _
  | case4 => exact List.cons_ne_nil _ _

/-- Only where a line ends is anything unified. -/
theorem unifyNewlines_eq_self (h : newline ∉ unifyNewlines source) : unifyNewlines source = source := by
  induction source using unifyNewlines.induct with
  | case1 => rfl
  | case2 rest ih => exact absurd List.mem_cons_self h
  | case3 rest hne ih =>
    rw [unifyNewlines.eq_3 _ hne] at h
    exact absurd List.mem_cons_self h
  | case4 c rest hne hc ih =>
    rw [unifyNewlines.eq_4 _ _ hne hc] at h ⊢
    rw [ih fun hmem => h (List.mem_cons_of_mem _ hmem)]

theorem endLine_mark (h : source ≠ []) :
    endLine (unifyNewlines (byteOrderMark ++ source)) =
      byteOrderMark ++ endLine (unifyNewlines source) := by
  obtain ⟨b, rest, hcons⟩ := List.exists_cons_of_ne_nil (unifyNewlines_ne_nil h)
  have hlast : (byteOrderMark ++ unifyNewlines source).getLast? = (unifyNewlines source).getLast? := by
    rw [hcons, List.getLast?_append, List.getLast?_cons]
    rfl
  rw [unifyNewlines_mark, endLine, endLine, hlast]
  split
  · rw [List.append_assoc]
  · rfl

theorem not_prefix_endLine (hmark : startsWithMark source = false) :
    byteOrderMark.isPrefixOf (endLine (unifyNewlines source)) = false := by
  refine Bool.eq_false_iff.mpr fun hprefix => ?_
  rw [List.isPrefixOf_iff_prefix] at hprefix
  have hunified : byteOrderMark <+: unifyNewlines source := by
    unfold endLine at hprefix
    split at hprefix
    · refine (List.prefix_concat_iff.mp hprefix).resolve_left fun heq => ?_
      have hlast := congrArg List.getLast? heq
      rw [List.getLast?_concat] at hlast
      exact absurd hlast (by decide)
    · exact hprefix
  obtain ⟨-, htake⟩ := unifyNewlines_take_placeBehind hunified
  have hself := unifyNewlines_eq_self (htake ▸ (by decide : newline ∉ byteOrderMark))
  rw [startsWithMark, Bool.eq_false_iff] at hmark
  refine hmark (List.isPrefixOf_iff_prefix.mpr ?_)
  rw [← htake, hself]
  exact List.take_prefix _ _

/-- The mark asks for UTF-8, and is no part of the text. -/
theorem characters?_mark {text' : List Char} (hne : source ≠ []) (hmark : startsWithMark source = false)
    (h : characters? source = some text)
    (h' : characters? (byteOrderMark ++ source) = some text') :
    text' = text ∧ encode text = endLine (unifyNewlines source) := by
  have hmarked : byteOrderMark.isPrefixOf (byteOrderMark ++ endLine (unifyNewlines source)) = true :=
    List.isPrefixOf_iff_prefix.mpr (List.prefix_append _ _)
  have hdrop : (byteOrderMark ++ endLine (unifyNewlines source)).drop 3 =
      endLine (unifyNewlines source) := rfl
  unfold characters? at h h'
  simp only [endLine_mark hne, hmarked, hdrop, not_prefix_endLine hmark, if_true, Bool.false_eq_true,
    if_false, Bool.false_and, Bool.true_and] at h h'
  generalize endLine (unifyNewlines source) = bytes at h h' ⊢
  have hdecoded : ∀ {t : List Char}, decodeAs .utf8 bytes = some t → encode t = bytes := by
    intro t ht
    unfold decodeAs Text.Utf8.decode? at ht
    cases hd : Text.Utf8.decode bytes with
    | error e =>
      rw [hd] at ht
      cases ht
    | ok u =>
      rw [hd] at ht
      cases ht
      exact Text.Utf8.encode_of_decode hd
  split at h
  next hnone =>
    rw [hnone] at h'
    exact ⟨Option.some.inj (h'.symm.trans h), hdecoded h⟩
  next name hname =>
    rw [hname] at h'
    simp only at h'
    split at h
    · cases h
    next encoding hencoding =>
      rw [hencoding] at h'
      simp only at h'
      split at h'
      · cases h'
      next hstarts =>
        have hutf : startsAs (String.ofList ((name.map lowerByte).take 12)) "utf-8" = true := by
          simpa using hstarts
        simp only [encodingNamed, hutf, if_true, Option.some.injEq] at hencoding
        subst hencoding
        exact ⟨Option.some.inj (h'.symm.trans h), hdecoded h⟩

/-- Behind the mark the same statements are found. -/
theorem outline_mark {statements statements' : List Statement} (hne : source ≠ [])
    (hmark : startsWithMark source = false) (h : outline source = .ok statements)
    (h' : outline (byteOrderMark ++ source) = .ok statements') :
    statements' = statements ∧
      ∃ text, encode text = endLine (unifyNewlines source) ∧
        ∀ s ∈ statements, s.Read (tokens text) := by
  obtain ⟨text, htext, hread⟩ := read_of_outline h
  obtain ⟨text', htext', -⟩ := read_of_outline h'
  obtain ⟨rfl, hencode⟩ := characters?_mark hne hmark htext htext'
  have hzero : (byteOrderMark ++ source).contains 0 = source.contains 0 := by
    simp [byteOrderMark]
  refine ⟨?_, text', hencode, hread⟩
  unfold outline at h h'
  rw [htext', hzero] at h'
  rw [htext] at h
  exact Except.ok.inj (h'.symm.trans h)

/-! ## Lines -/

theorem byteLines_mark (source : Bytes) : byteLines (byteOrderMark ++ source) =
    (byteOrderMark ++ (byteLines source).head?.getD []) :: (byteLines source).tail := by
  have hcons : ∀ (b : UInt8) (rest : Bytes), (b = 10 || b = 13) = false →
      byteLines (b :: rest) = (b :: (byteLines rest).head?.getD []) :: (byteLines rest).tail := by
    intro b rest hb
    rw [byteLines.eq_3 _ _ (by rintro r rfl; cases hb), if_neg (by rw [hb]; exact Bool.false_ne_true)]
    cases byteLines rest <;> rfl
  change byteLines (0xEF :: 0xBB :: 0xBF :: source) = _
  rw [hcons _ _ rfl, hcons _ _ rfl, hcons _ _ rfl]
  rfl

/-- All lines but the first one start three bytes further behind. -/
theorem lineStart_mark (hne : source ≠ []) (n : Nat) :
    lineStart (byteLines (byteOrderMark ++ source)) (n + 2) =
      lineStart (byteLines source) (n + 2) + 3 := by
  rw [byteLines_mark]
  cases hlines : byteLines source with
  | nil =>
    rw [← flatten_byteLines source, hlines] at hne
    exact absurd rfl hne
  | cons line lines =>
    have hlength : byteOrderMark.length = 3 := rfl
    rw [List.head?_cons, Option.getD_some, List.tail_cons, lineStart_cons, lineStart_cons,
      List.length_append, hlength]
    omega

theorem getElem?_byteLines_mark (source : Bytes) (n : Nat) :
    (byteLines (byteOrderMark ++ source))[n + 1]? = (byteLines source)[n + 1]? := by
  rw [byteLines_mark]
  cases byteLines source <;> rfl

/-- The blanks a line starts with are in the file. -/
theorem length_takeWhile_isLineGap_le (source : Bytes) (n : Nat) :
    lineStart (byteLines source) n +
      (((byteLines source)[n - 1]?.getD []).takeWhile isLineGap).length ≤ source.length := by
  have hsplit : ((byteLines source).take (n - 1)).flatten.length +
      ((byteLines source).drop (n - 1)).flatten.length = source.length := by
    rw [← List.length_append, ← List.flatten_append, List.take_append_drop, flatten_byteLines]
  have hgap : ((byteLines source)[n - 1]?.getD []).takeWhile isLineGap <+:
      ((byteLines source).drop (n - 1)).flatten := by
    rw [← List.head?_drop]
    cases (byteLines source).drop (n - 1) with
    | nil => exact List.nil_prefix
    | cons line lines => exact (List.takeWhile_prefix _).trans (List.prefix_append _ _)
  rw [lineStart_byteLines]
  exact (Nat.add_le_add_left hgap.length_le _).trans_eq hsplit

/-! ## Statements -/

/-- What holds of a place in a file that is the place of a statement in a block. It lies in the file, and
no line starts in front of it but behind code. With the mark it is three bytes further behind, or the mark
is one more reason why no delay is placed there. -/
structure Follows (source : Bytes) (offset offset' : Nat) : Prop where
  le : offset ≤ source.length
  inline : newline ∉ source.take offset → isInline source offset = true
  moves : offset' = offset + 3 ∨
    isInline source offset = true ∧ isInline (byteOrderMark ++ source) offset' = true

/-- On the first line of the file, a colon in front is code. -/
theorem isInline_of_colon {offset : Nat} (hcolon : 58 ∈ source.take offset)
    (hfirst : newline ∉ source.take offset) : isInline source offset = true := by
  rw [isInline, Injection.linePrefix_eq, Injection.openLine_of_not_mem hfirst, List.any_eq_true]
  exact ⟨58, hcolon, by decide⟩

theorem follows_of_moved {offset offset' : Nat} (hle : offset ≤ source.length)
    (hcolon : 58 ∈ source.take offset) (hmoves : offset' = offset + 3) :
    Follows source offset offset' :=
  ⟨hle, isInline_of_colon hcolon, .inl hmoves⟩

/-- On the first line the mark stands in front, wherever the place is. -/
theorem follows_of_first {offset : Nat} (hle : offset ≤ source.length)
    (hcolon : 58 ∈ source.take offset) (hfirst : newline ∉ source.take offset) :
    Follows source offset offset := by
  have hinline := isInline_of_colon hcolon hfirst
  refine ⟨hle, fun _ => hinline, .inr ⟨hinline, ?_⟩⟩
  have hnot : newline ∉ (byteOrderMark ++ source).take offset := by
    intro hmem
    rw [List.take_append, List.mem_append] at hmem
    rcases hmem with hmem | hmem
    · exact absurd (List.mem_of_mem_take hmem) (by decide)
    · exact hfirst ((List.take_subset_take_left source (Nat.sub_le _ _)) hmem)
  cases offset with
  | zero => cases hcolon
  | succ offset =>
    rw [isInline, Injection.linePrefix_eq, Injection.openLine_of_not_mem hnot, List.any_eq_true]
    exact ⟨0xEF, List.mem_cons_self, by decide⟩

theorem colon_mem_encode {front : List Char} (h : ':' ∈ front) : 58 ∈ encode front := by
  obtain ⟨before, behind, rfl⟩ := List.append_of_mem h
  rw [Text.Utf8.encode_append, Text.Utf8.encode_cons]
  exact List.mem_append_right _ (List.mem_append_left _ (by decide))

theorem follows_of_below {s : Statement} (hne : source ≠ [])
    (htext : encode text = endLine (unifyNewlines source)) (h : s.Below (tokens text)) :
    Follows source (site (byteLines source) s).offset
      (site (byteLines (byteOrderMark ++ source)) s).offset := by
  have hencode : ∀ {front : List Char}, front <+: text →
      encode front <+: endLine (unifyNewlines source) := by
    rintro front ⟨rest, hrest⟩
    rw [← htext, ← hrest, Text.Utf8.encode_append]
    exact List.prefix_append _ _
  have hordered := ordered_tokens text
  cases hfirst : (s.decorators.map (·.line)).min? with
  | none =>
    -- the statement may follow its colon on the first line, where its column does not count the mark
    obtain ⟨u, rest, hu, hcolon, t, ht, hline, hcolumn⟩ := h.colon
    obtain ⟨front, hfront, hnames, hmem⟩ := hordered.exists_behind_colon hu hcolon ht
    rw [hline, hcolumn] at hnames
    obtain ⟨hle, hheld, hnewline⟩ := of_prefix_endLine (hencode hfront)
    have hsite : ∀ lines, (site lines s).offset =
        lineStart lines s.extent.line + s.extent.column := by
      intro lines
      rw [site, hfirst]
    have hplace : (site (byteLines source) s).offset = placeBehind (byteLines source) (encode front) :=
      (hsite _).trans (placeBehind_of_names hnames _)
    have hcode := hheld 58 (colon_mem_encode hmem) (by decide)
    rw [← hplace] at hle hcode hnewline
    obtain ⟨n, hn⟩ : ∃ n, s.extent.line = n + 1 := ⟨_, hnames.1⟩
    cases n with
    | zero =>
      have hsame : (site (byteLines (byteOrderMark ++ source)) s).offset =
          (site (byteLines source) s).offset := by
        rw [hsite, hsite, hn]
        rfl
      rw [hsame]
      refine follows_of_first hle hcode (hnewline ?_)
      rw [← List.count_eq_zero, count_encode]
      have hcount := hnames.1
      omega
    | succ n =>
      refine follows_of_moved hle hcode ?_
      replace hn : s.extent.line = n + 2 := hn
      rw [hsite, hsite, hn, lineStart_mark hne n]
      exact Nat.add_right_comm _ _ _
  | some n =>
    -- a decorator stands on a line below the colon, and that line is moved as a whole
    obtain ⟨d, hd, rfl⟩ := List.mem_map.mp (List.min?_mem hfirst)
    obtain ⟨u, rest, v, behind, hu, hcolon, hv, hnewline, t, ht, hline⟩ := h.decorators d hd
    obtain ⟨above, line, hfront, hnames, hmem, hopen⟩ :=
      hordered.exists_below_colon hu hcolon hv hnewline ht
    obtain ⟨m, hm⟩ : ∃ m, d.line = m + 2 := by
      have hcount := hnames.1
      rw [hline, List.count_append, List.count_cons_self] at hcount
      exact ⟨_, hcount⟩
    have habove : above ++ ['\n'] <+: text :=
      List.IsPrefix.trans ⟨line, by rw [List.append_assoc]; rfl⟩ hfront
    have hstart : placeBehind (byteLines source) (encode (above ++ ['\n'])) =
        lineStart (byteLines source) d.line := by
      rw [placeBehind_above hopen, ← hnames.1, hline]
    obtain ⟨-, hheld, -⟩ := of_prefix_endLine (hencode habove)
    have hcode := hheld 58 (colon_mem_encode (List.mem_append_left _ hmem)) (by decide)
    rw [hstart] at hcode
    have hsite : ∀ lines, (site lines s).offset = lineStart lines d.line +
        ((lines[d.line - 1]?.getD []).takeWhile isLineGap).length := by
      intro lines
      rw [site, hfirst]
    have hle : (site (byteLines source) s).offset ≤ source.length := by
      rw [hsite]
      exact length_takeWhile_isLineGap_le source d.line
    refine follows_of_moved hle ?_ ?_
    · rw [hsite]
      exact List.take_subset_take_left source (Nat.le_add_right _ _) hcode
    · have hlast : d.line - 1 = m + 1 := by omega
      have hmoved := lineStart_mark hne m
      rw [hsite, hsite, hlast, getElem?_byteLines_mark, hm]
      omega

/-! ## The layout -/

theorem withoutDescription_suffix (block : List Statement) : withoutDescription block <:+ block := by
  cases block with
  | nil => exact List.suffix_refl _
  | cons s rest =>
    rw [withoutDescription]
    split
    · exact List.suffix_cons s rest
    · exact List.suffix_refl _

section Layout

variable (hne : source ≠ []) (htext : encode text = endLine (unifyNewlines source)) (options : Options)

include hne htext

/-- A statement in a block gets a delay with the mark if it gets one without. -/
theorem trails_site {s : Statement} (h : s.Below (tokens text)) :
    Injection.Trails source (byteOrderMark ++ source) options adapter.spelling
      (site (byteLines source) s) (site (byteLines (byteOrderMark ++ source)) s) := by
  have hfollows := follows_of_below hne htext h
  have hkind : ∀ lines, (site lines s).kind = siteKind s.kind := fun lines => by
    rw [site]
    split <;> rfl
  have hinline : isInline (byteOrderMark ++ source) (site (byteLines (byteOrderMark ++ source)) s).offset =
      isInline source (site (byteLines source) s).offset := by
    rcases hfollows.moves with hmoved | ⟨hinline, hinline'⟩
    · rw [hmoved, Injection.isInline_mark hfollows.inline]
    · rw [hinline, hinline']
  have halone : ∀ n, Injection.selects source options adapter.spelling n
      (site (byteLines source) s) = true → isInline source (site (byteLines source) s).offset = false := by
    intro n hselects
    rw [Injection.selects, Bool.and_eq_true] at hselects
    simpa [adapter] using hselects.2
  refine ⟨fun n => ?_, fun n hselects => ?_, hfollows.le, fun _ n hselects hfirst => ?_⟩
  · rw [Injection.selects, Injection.selects, hkind, hkind, hinline]
  · exact hfollows.moves.resolve_right fun hboth =>
      Bool.false_ne_true ((halone n hselects).symm.trans hboth.1)
  · exact absurd ((halone n hselects).symm.trans (hfollows.inline hfirst)) Bool.false_ne_true

/-- So do all statements of an async function. -/
theorem trails_asyncBody? {s : Statement} (skipGenerators : Bool)
    (h : ∀ c ∈ s.clauses, ∀ b ∈ c.block, b.Below (tokens text)) :
    Option.Rel (Injection.BodyTrails source (byteOrderMark ++ source) options adapter.spelling)
      (asyncBody? (byteLines source) skipGenerators s)
      (asyncBody? (byteLines (byteOrderMark ++ source)) skipGenerators s) := by
  unfold asyncBody?
  split
  · simp only
    split
    · exact .none
    · refine .some ⟨rfl, ?_⟩
      rw [List.forall₂_map_left_iff, List.forall₂_map_right_iff, List.forall₂_same]
      intro b hb
      obtain ⟨c, hc, hblock⟩ := List.mem_flatMap.mp ((withoutDescription_suffix _).subset hb)
      exact trails_site hne htext options (h c hc b hblock)
  · exact .none

end Layout

theorem isCommentLine_mark {line : Bytes} (h : startsWithMark line = false) :
    isCommentLine (byteOrderMark ++ line) = isCommentLine line := by
  have hmarked : byteOrderMark.isPrefixOf (byteOrderMark ++ line) = true :=
    List.isPrefixOf_iff_prefix.mpr (List.prefix_append _ _)
  have hdrop : (byteOrderMark ++ line).drop 3 = line := rfl
  rw [startsWithMark] at h
  simp only [isCommentLine, hmarked, h, hdrop, if_true, Bool.false_eq_true, if_false]

theorem commentLines_mark (hne : source ≠ []) (hmark : startsWithMark source = false) :
    commentLines (byteLines (byteOrderMark ++ source)) = commentLines (byteLines source) := by
  rw [byteLines_mark]
  cases hlines : byteLines source with
  | nil =>
    rw [← flatten_byteLines source, hlines] at hne
    exact absurd rfl hne
  | cons line lines =>
    have hfirst : startsWithMark line = false := by
      rw [startsWithMark, Bool.eq_false_iff, ne_eq, List.isPrefixOf_iff_prefix] at hmark ⊢
      intro hline
      refine hmark (hline.trans ?_)
      rw [← flatten_byteLines source, hlines]
      exact List.prefix_append _ _
    simp only [commentLines, List.head?_cons, Option.getD_some, List.tail_cons, List.takeWhile_cons,
      isCommentLine_mark hfirst]
    split <;> rfl

/-- The import goes to the top, or to a place that is three bytes further behind with the mark. -/
theorem importAnchor_mark {statements : List Statement} (hne : source ≠ [])
    (hmark : startsWithMark source = false) (h : outline source = .ok statements) :
    importAnchor (byteOrderMark ++ source) (byteLines (byteOrderMark ++ source)) statements =
      if importAnchor source (byteLines source) statements = 0 then 0
      else importAnchor source (byteLines source) statements + 3 := by
  unfold importAnchor
  rw [commentLines_mark hne hmark]
  cases hline : (headLine? statements).getD (commentLines (byteLines source)) with
  | zero => rfl
  | succ k =>
    have hinline := isInline_of_inkedAt (inkedAt_of_head h hline)
    have htake : (byteOrderMark ++ source).take (lineStart (byteLines source) (k + 2) + 3) =
        byteOrderMark ++ source.take (lineStart (byteLines source) (k + 2)) := by
      rw [Nat.add_comm]
      exact @List.take_length_add_append _ byteOrderMark source _
    simp only [lineStart_mark hne k, htake, List.reverse_append, List.dropWhile_append]
    generalize (source.take (lineStart (byteLines source) (k + 2))).reverse.dropWhile
      (fun b => b == 10 || b == 13) = head at hinline ⊢
    -- the head holds ink, so what is stripped of its end never reaches the mark
    cases head with
    | nil => cases hinline
    | cons b head => simp [byteOrderMark]

/-- Behind a mark the same statements of a file get their delays. -/
theorem locate_mark {layout layout' : DelayInjection.Layout} {options : Options}
    (hmark : startsWithMark source = false) (h : locate source options = .ok layout)
    (h' : locate (byteOrderMark ++ source) options = .ok layout') :
    Injection.LayoutTrails source (byteOrderMark ++ source) options adapter.spelling layout layout' := by
  obtain ⟨statements, houtline, rfl⟩ := outline_of_locate h
  obtain ⟨statements', houtline', rfl⟩ := outline_of_locate h'
  rcases eq_or_ne source [] with rfl | hne
  · -- an empty file has no lines that the mark could open
    have hnil : (outline []).toOption.map List.isEmpty = some true := by decide +kernel
    have hnil' : (outline (byteOrderMark ++ [])).toOption.map List.isEmpty = some true := by
      decide +kernel
    rw [houtline] at hnil
    rw [houtline'] at hnil'
    obtain rfl := List.isEmpty_iff.mp (Option.some.inj hnil)
    obtain rfl := List.isEmpty_iff.mp (Option.some.inj hnil')
    exact ⟨.nil, rfl, rfl⟩
  · obtain ⟨rfl, text, htext, hread⟩ := outline_mark hne hmark houtline houtline'
    refine ⟨?_, importAnchor_mark hne hmark houtline, rfl⟩
    have hsame : List.Forall₂ (fun s s' => s' = s ∧ s ∈ Statement.inBlock statements')
        (Statement.inBlock statements') (Statement.inBlock statements') :=
      List.forall₂_same.mpr fun s hs => ⟨rfl, hs⟩
    refine List.rel_filterMap ?_ hsame
    rintro s s' ⟨rfl, hs⟩
    obtain ⟨t, ht, hsub⟩ := Statement.mem_inBlock.mp hs
    exact trails_asyncBody? hne htext options _ fun c hc b hb => (hread t ht).nested _ hsub c hc b hb

end DelayInjection.Python
