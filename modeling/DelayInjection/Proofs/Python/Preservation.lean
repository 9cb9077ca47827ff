import DelayInjection.Proofs.Python.Output
import DelayInjection.Proofs.Python.Writing

/-! Injection into a Python source. The output has the tokens of the source, with those of the calls in front
of the statements that get them, and with those of the import behind the head. -/

set_option mvcgen.warning false

namespace DelayInjection.Python

open Text.Utf8 (Bytes encode)

variable {source : List Char}

/-! ## Sources that are parsed -/

open Std.Do in
theorem exists_of_seesKind (kind : TokenKind) (r₀ : Reader) :
    ⦃fun r => ⌜r = r₀⌝⦄ Parse.seesKind kind
    ⦃⇓? seen r => ⌜r.rest = r₀.rest ∧ (seen = true → ∃ t ∈ r₀.rest, t.kind = kind)⌝⦄ := by
  mvcgen [-Parse.seesKind_spec, Parse.seesKind] with grind -linarith [List.mem_of_head?]

open Std.Do in
/-- A module is read up to the end of its text. -/
theorem exists_finish_spec {statements : Parse (List Statement)}
    (hstatements : ∀ r₀, ⦃fun r => ⌜r = r₀⌝⦄ statements ⦃⇓? _ r => ⌜r.rest <:+ r₀.rest⌝⦄)
    (fuel : Nat) (r₀ : Reader) :
    ⦃fun r => ⌜r = r₀⌝⦄ moduleStatements statements fuel
    ⦃⇓? _ _ => ⌜∃ t ∈ r₀.rest, t.kind = .finish⌝⦄ := by
  have hsees := exists_of_seesKind .finish
  induction fuel generalizing r₀ with
  | zero => mvcgen [moduleStatements]
  | succ fuel ih =>
    refine triple_of fun Q hQ => ?_
    mvcgen [moduleStatements, hstatements, ih, -Parse.seesKind_spec, hsees] with grind -linarith

/-- The lexer finds no fault in a source that is parsed. -/
theorem isFault_eq_false_of_outline {bytes : Bytes} {text : List Char} {statements : List Statement}
    (htext : characters? bytes = some text) (h : outline bytes = .ok statements) :
    ∀ t ∈ tokens text, t.isFault = false := by
  have := steady_parsePart (text.length + 4) (4 * (text.length + 4))
  have hfinish : ∃ t ∈ tokens text, t.kind = .finish := by
    unfold outline at h
    rw [htext] at h
    split at h
    · cases h
    · unfold parseTokens at h
      simp only at h
      split at h
      next hrun =>
        refine of_triple (exists_finish_spec (fun r₀ => triple_of_ok fun ss r hok => ?_) _ _) hrun
        exact (of_triple (parseStatements_spec _ r₀) hok).1
      · cases h
  rw [Scanner.tokens_eq_all] at hfinish ⊢
  exact Scanner.isFault_eq_false hfinish

/-! ## The cuts -/

section Placed

open Injection (Placed joined)

variable {options : Options} {layout : DelayInjection.Layout} {placed : List (Insertion × InjectionPoint)}
  (hplain : IsPlain source) (hlocate : locate (encode source) options = .ok layout)
  (hplaced : Injection.placements (encode source) options adapter.spelling layout.bodies = .ok placed)
  (hlines : ∀ q ∈ placed, StartsLine source q.2)

include hplain hlocate hplaced hlines

theorem writtenAt_of_mem {q : Insertion × InjectionPoint} (hq : q ∈ placed) :
    ∃ front, q.1.offset = (encode front).length ∧ WrittenAt source front q.2 q.1.text := by
  obtain ⟨c, hc, hplace⟩ := Injection.exists_choice hplaced hq
  exact writtenAt_of_place hplain hlocate hc hplace (hlines q hq)

theorem boundary_of_mem {q : Insertion × InjectionPoint} (hq : q ∈ placed) :
    Text.Utf8.Boundary source q.1.offset := by
  obtain ⟨front, hfront, hwritten⟩ := writtenAt_of_mem hplain hlocate hplaced hlines hq
  obtain ⟨rest, hrest⟩ := hwritten.fits.at.passed
  exact ⟨front, rest, hrest.symm, hfront.symm⟩

theorem offset_ne_of_places (hplaces : (placed.map fun q => (q.2.line, q.2.column)).Nodup) :
    placed.Pairwise fun q r => q.1.offset ≠ r.1.offset := by
  refine (List.pairwise_map.mp hplaces).imp_of_mem fun {q r} hq hr hne heq => hne ?_
  obtain ⟨front, hfront, hwritten⟩ := writtenAt_of_mem hplain hlocate hplaced hlines hq
  obtain ⟨front', hfront', hwritten'⟩ := writtenAt_of_mem hplain hlocate hplaced hlines hr
  obtain ⟨⟨rest, hrest⟩, line, column, hline, hcolumn, hnames⟩ := hwritten.fits.at
  obtain ⟨⟨rest', hrest'⟩, line', column', hline', hcolumn', hnames'⟩ := hwritten'.fits.at
  obtain rfl := Text.Utf8.eq_of_append_eq (hrest.trans hrest'.symm)
    (hfront.symm.trans (heq.trans hfront'))
  rw [hline, hcolumn, hline', hcolumn', hnames.1, hnames.2, hnames'.1, hnames'.2]

/-- Where the text is cut for a delay, it goes in front of its line. -/
theorem writtenAt_of_cut {ε : Type} {offset : ε → Nat} {q : Insertion × InjectionPoint} {tail : List Char}
    {above below : List (List Char × ε)} {cut : List Char × ε}
    (hsource : source = joined (fun _ => []) (above ++ cut :: below) tail)
    (hcuts : Placed offset 0 (above ++ cut :: below)) (hq : q ∈ placed) (hcut : offset cut.2 = q.1.offset) :
    WrittenAt source (joined (fun _ => []) above cut.1) q.2 q.1.text := by
  obtain ⟨front, hfront, hwritten⟩ := writtenAt_of_mem hplain hlocate hplaced hlines hq
  have hoffset := hcuts.offset_eq
  rw [hcut, Nat.zero_add] at hoffset
  obtain ⟨rest, hrest⟩ := hwritten.fits.at.passed
  rw [Injection.joined_split] at hsource
  obtain rfl := Text.Utf8.eq_of_append_eq (hrest.trans hsource) (hfront.symm.trans hoffset)
  exact hwritten

variable (hread : characters? (encode source) = some source)
  (hplaces : (placed.map fun q => (q.2.line, q.2.column)).Nodup)
  (hclean : ∀ t ∈ tokens source, t.isFault = false)

include hread hplaces hclean

/-- The output without an import. -/
theorem words_of_points {output : List Char}
    (houtput : Injection.apply (encode source) (placed.map (·.1)) = encode output) :
    characters? (encode output) = some output ∧
      (tokens output).map Token.word = delayedWords (placed.map (·.2)) (tokens source) := by
  obtain ⟨cuts, tail, hmap, hsource, hcuts, happly⟩ := @Injection.exists_apply_eq_joined _
    (fun q : Insertion × InjectionPoint => q.1.offset) placed [] source fun q hq =>
      ⟨Nat.zero_le _, boundary_of_mem hplain hlocate hplaced hlines hq⟩
  have hperm : (cuts.map (·.2)).Perm placed := hmap ▸ Injection.inOrder_perm _ placed
  have hordered := Injection.pairwise_lt _ hperm (hmap ▸ Injection.pairwise_inOrder _ placed)
    (offset_ne_of_places hplain hlocate hplaced hlines hplaces)
  obtain rfl : output = joined (fun q => q.1.text) cuts tail :=
    Text.Utf8.encode_injective (houtput.symm.trans (happly fun q => q.1.text))
  have hwritten : ∀ above cut below, cuts = above ++ cut :: below →
      WrittenAt source (joined (fun _ => []) above cut.1) cut.2.2 cut.2.1.text := by
    rintro above cut below rfl
    exact writtenAt_of_cut hplain hlocate hplaced hlines hsource hcuts
      (hperm.subset (List.mem_map_of_mem (List.mem_append_right _ List.mem_cons_self))) rfl
  refine ⟨?_, ?_⟩
  · have hread' := hread
    rw [hsource] at hread'
    refine @characters?_joined _ (fun q : Insertion × InjectionPoint => q.1.text) cuts tail
      (fun cut hcut => ?_) hread'
      (fun cut below heq => (hwritten [] cut below heq).undeclared) fun htail above cut heq => ?_
    · obtain ⟨above, below, heq⟩ := List.append_of_mem hcut
      exact (hwritten above cut below heq).ascii
    · refine absurd ?_ (hwritten above cut [] heq).fits.ne
      rw [hsource, heq, htail, Injection.joined_split, Injection.joined_nil, List.append_nil, List.append_nil]
  · rw [Scanner.tokens_eq_all] at hclean
    have hfits : ∀ above cut below, cuts = above ++ cut :: below →
        Scanner.Fits source ([] ++ joined (fun _ => []) above cut.1) cut.2.2 cut.2.1.text :=
      fun above cut below heq => (hwritten above cut below heq).fits
    have hwords : (Scanner.start (joined (fun q => q.1.text) cuts tail)).all.map Token.word =
        delayedWords (cuts.map fun cut => cut.2.2) (Scanner.start source).all :=
      Scanner.all_of_cuts (f := fun q => q.1.text) (.refl _) hclean hsource hfits (.inl rfl)
        (hcuts.ne_nil hordered) ⟨rfl, rfl, rfl, rfl⟩ rfl
    rw [Scanner.tokens_eq_all, Scanner.tokens_eq_all, hwords]
    refine delayedWords_congr fun t _ => filter_isAt_eq ?_ ?_ fun _ hp => (List.not_mem_nil hp).elim
    · have hpoints := hperm.map Prod.snd
      rw [List.map_map] at hpoints
      rw [List.append_nil]
      exact hpoints
    · rw [List.map_map]
      exact hplaces

/-- What is put in: the import, or the delay of a placement. -/
def insertionOf (reference : Insertion) (e : Option (Insertion × InjectionPoint)) : Insertion :=
  e.elim reference Prod.fst

/-- The point of a delay; the import has none, so any other stands for it. -/
def pointOf (other : InjectionPoint) (e : Option (Insertion × InjectionPoint)) : InjectionPoint :=
  e.elim other Prod.snd

/-- A text that is cut for delays, and behind `piece` for an import. -/
structure CutForImport (source output : List Char) (placed : List (Insertion × InjectionPoint))
    (reference : Insertion) (other : InjectionPoint)
    (above below : List (List Char × Option (Insertion × InjectionPoint))) (piece tail : List Char) :
    Prop where
  source_eq : source = joined (fun _ => []) (above ++ (piece, none) :: below) tail
  output_eq : output = joined (fun e => (insertionOf reference e).text) (above ++ (piece, none) :: below) tail
  offset : (encode (joined (fun _ => []) above piece)).length = reference.offset
  points : ((above.map fun cut => pointOf other cut.2) ++ below.map fun cut => pointOf other cut.2).Perm
    (placed.map (·.2))
  written : ∀ above' cut below', above = above' ++ cut :: below' →
    WrittenAt source (joined (fun _ => []) above' cut.1) (pointOf other cut.2)
      (insertionOf reference cut.2).text
  written_below : ∀ above' cut below', below = above' ++ cut :: below' →
    WrittenAt source (joined (fun _ => []) above piece ++ joined (fun _ => []) above' cut.1)
      (pointOf other cut.2) (insertionOf reference cut.2).text
  lt : ∀ above' cut below', above = above' ++ cut :: below' →
    (joined (fun _ => []) above' cut.1).length < (joined (fun _ => []) above piece).length
  last : above ≠ [] → piece ≠ []
  later : ∀ cut ∈ above.tail, cut.1 ≠ []
  later_below : ∀ cut ∈ below.tail, cut.1 ≠ []

omit hread hclean in
theorem exists_cutForImport {reference : Insertion} {output : List Char}
    (hboundary : Text.Utf8.Boundary source reference.offset)
    (houtput : Injection.apply (encode source) (placed.map (·.1) ++ [reference]) = encode output)
    (other : InjectionPoint) :
    ∃ above below piece tail, CutForImport source output placed reference other above below piece tail := by
  obtain ⟨above, piece, below, tail, hsource, hcuts, hperm, hlt, hlast, hlater, happly⟩ :=
    @Injection.exists_cuts_concat _ (fun e => (insertionOf reference e).offset) (placed.map some) none source
      (List.pairwise_map.mpr (offset_ne_of_places hplain hlocate hplaced hlines hplaces)) (by
        intro e he
        rcases List.mem_append.mp he with he | he
        · obtain ⟨q, hq, rfl⟩ := List.mem_map.mp he
          exact boundary_of_mem hplain hlocate hplaced hlines hq
        · exact List.mem_singleton.mp he ▸ hboundary)
  have hmem : ∀ cut ∈ above ++ below, ∃ q ∈ placed, cut.2 = some q := by
    intro cut hcut
    have hsome : cut.2 ∈ placed.map some := by
      refine hperm.subset ?_
      rw [← List.map_append]
      exact List.mem_map_of_mem hcut
    obtain ⟨q, hq, heq⟩ := List.mem_map.mp hsome
    exact ⟨q, hq, heq.symm⟩
  have hwritten : ∀ above' cut below', above ++ (piece, none) :: below = above' ++ cut :: below' →
      cut ∈ above ++ below → WrittenAt source (joined (fun _ => []) above' cut.1) (pointOf other cut.2)
        (insertionOf reference cut.2).text := by
    intro above' cut below' heq hcut
    obtain ⟨q, hq, hcut⟩ := hmem cut hcut
    rw [heq] at hsource hcuts
    rw [hcut]
    exact writtenAt_of_cut hplain hlocate hplaced hlines hsource hcuts hq
      (show (insertionOf reference cut.2).offset = q.1.offset by rw [hcut]; rfl)
  have hoffset := hcuts.offset_eq
  rw [Nat.zero_add] at hoffset
  refine ⟨above, below, piece, tail, hsource, ?_, hoffset.symm, ?_, ?_, ?_, ?_, fun habove =>
    hlast (piece, none) ?_, fun cut hcut => hlast cut ?_, hlater⟩
  · have hedits : (placed.map some ++ [none]).map (insertionOf reference) = placed.map (·.1) ++ [reference] := by
      rw [List.map_append, List.map_map]
      rfl
    have hjoined : Injection.apply (encode source) ((placed.map some ++ [none]).map (insertionOf reference)) = _ :=
      happly fun e => (insertionOf reference e).text
    rw [hedits, houtput] at hjoined
    exact Text.Utf8.encode_injective hjoined
  · have hpoints := hperm.map (pointOf other)
    rw [List.map_append, List.map_map, List.map_map, List.map_map] at hpoints
    exact hpoints
  · rintro above' cut below' rfl
    exact hwritten above' cut (below' ++ (piece, none) :: below) (by simp) (by simp)
  · rintro above' cut below' rfl
    have hat := hwritten (above ++ (piece, none) :: above') cut below' (by simp) (by simp)
    rwa [Injection.joined_split, List.nil_append] at hat
  · rintro above' cut below' rfl
    have hless := hlt cut (List.mem_append_right _ List.mem_cons_self)
    rw [hoffset, Injection.joined_split, List.nil_append] at hless
    rw [List.append_assoc, List.cons_append] at hcuts
    rw [hcuts.offset_eq, Nat.zero_add, Text.Utf8.encode_append, List.length_append] at hless
    rw [Injection.joined_split, List.nil_append, List.length_append]
    refine Nat.lt_add_of_pos_right (List.length_pos_iff.mpr fun hnil => ?_)
    rw [hnil] at hless
    exact absurd hless (Nat.lt_irrefl _)
  · rw [List.tail_append_of_ne_nil habove]
    exact List.mem_append_right _ (List.mem_singleton_self _)
  · rw [List.tail_append_of_ne_nil fun hnil => by rw [hnil] at hcut; cases hcut]
    exact List.mem_append_left _ hcut

omit hplain hlocate hplaced hlines hplaces hclean in
/-- With the import the output is still read as it stands. -/
theorem CutForImport.characters?_eq {n : Nat} {output : List Char} {other : InjectionPoint}
    {above below : List (List Char × Option (Insertion × InjectionPoint))} {piece tail : List Char}
    (h : CutForImport source output placed ⟨n, importLine.toList ++ ['\n']⟩ other above below piece tail)
    (hends : Text.EndsLine (joined (fun _ => []) above piece)) :
    characters? (encode output) = some output := by
  rw [h.output_eq]
  have hsource := h.source_eq
  have hread' := hread
  rw [hsource] at hread'
  refine @characters?_joined _ (fun e => (insertionOf ⟨n, importLine.toList ++ ['\n']⟩ e).text) _ tail
    (fun cut hcut => ?_) hread'
    (fun cut rest heq => ?_) fun htail above' cut heq => ?_
  · rcases List.mem_append.mp hcut with hcut | hcut
    · obtain ⟨above', below', heq⟩ := List.append_of_mem hcut
      exact (h.written above' cut below' heq).ascii
    rcases List.mem_cons.mp hcut with rfl | hcut
    · have hall : (importLine.toList ++ ['\n']).all (fun c => c.toNat < 128 && c != '\r') = true := by
        decide +kernel
      intro c hc
      simpa using List.all_eq_true.mp hall c hc
    · obtain ⟨above', below', heq⟩ := List.append_of_mem hcut
      exact (h.written_below above' cut below' heq).ascii
  · cases above with
    | nil =>
      obtain ⟨rfl, -⟩ := List.cons.inj heq
      exact ⟨piece, [], importLine.toList, [], (List.append_nil _).symm, hends, by decide +kernel, rfl,
        by decide +kernel, fun hprecede => absurd hprecede (by decide +kernel)⟩
    | cons first above =>
      obtain ⟨rfl, -⟩ := List.cons.inj heq
      exact (h.written [] first above rfl).undeclared
  · rcases below.eq_nil_or_concat' with rfl | ⟨below', last, rfl⟩
    · obtain ⟨-, hcut⟩ := List.append_inj' heq rfl
      obtain ⟨rfl, -⟩ := List.cons.inj hcut
      exact ⟨importLine.toList, rfl⟩
    · refine absurd ?_ (h.written_below below' last [] rfl).fits.ne
      rw [hsource, htail, Injection.joined_split, List.nil_append, Injection.joined_split,
        Injection.joined_nil, List.append_nil, List.append_nil]

/-- The output with an import, which goes in front of a line that is in no block. -/
theorem words_of_points_and_import {statements : List Statement} {front : List Char} {us : List Token}
    {o : Scanner} (houtline : outline (encode source) = .ok statements) (hne : placed ≠ [])
    (hrun : Scanner.Run (Scanner.start source) front us o) (hopening : o.opening = true)
    (hbrackets : o.lexer.brackets = []) (hindents : o.lexer.indents = [(0, 0)])
    (hline : o.lexer.line = lineBelowHead (encode source) statements) {output : List Char}
    (houtput : Injection.apply (encode source) (placed.map (·.1) ++ [Injection.importInsertion (encode source)
      (importAnchor (encode source) (byteLines (encode source)) statements) importLine.toList]) =
        encode output) :
    characters? (encode output) = some output ∧ tokens source = us ++ o.all ∧
      (tokens output).map Token.word = delayedWords (placed.map (·.2)) us ++
        (importWords ++ [(.newline, "")]) ++ delayedWords (placed.map (·.2)) o.all := by
  rw [importInsertion_eq hplain houtline hrun hopening hline] at houtput
  obtain ⟨q₀, -⟩ := List.exists_mem_of_ne_nil placed hne
  have hpassed : source = front ++ o.lexer.rest := hrun.passes.rest
  obtain ⟨above, below, piece, tail, hcuts⟩ := exists_cutForImport hplain hlocate hplaced hlines hplaces
    ⟨front, _, hpassed, rfl⟩ houtput q₀.2
  obtain rfl : front = joined (fun _ => []) above piece :=
    Text.Utf8.eq_of_append_eq (hpassed.symm.trans
      (hcuts.source_eq.trans (Injection.joined_split _ _ _ _ _))) hcuts.offset.symm
  have hblank : o.blank = false := by
    rcases hrun.opening_cases hopening with ⟨rfl, -⟩ | ⟨-, hblank⟩
    · rfl
    · exact hblank
  obtain ⟨hall, hwords⟩ := Scanner.tokens_of_line (f := fun e => (insertionOf _ e).text) hcuts.source_eq
    hclean hrun hopening hblank hbrackets hindents lexes_importLine (by decide +kernel) rfl
    (fun above' cut below' heq => (hcuts.written above' cut below' heq).fits)
    (fun above' cut below' heq => (hcuts.written_below above' cut below' heq).fits)
    hcuts.last hcuts.later hcuts.later_below
  have hplaces' : ((placed.map (·.2)).map fun p => (p.line, p.column)).Nodup := by
    rwa [List.map_map]
  have habove : ∀ t ∈ us, (above.map fun cut => pointOf q₀.2 cut.2).filter (isAt t) =
      (placed.map (·.2)).filter (isAt t) := fun t ht => by
    refine filter_isAt_eq hcuts.points hplaces' fun p hp => ?_
    obtain ⟨cut, hcut, rfl⟩ := List.mem_map.mp hp
    obtain ⟨above', below', heq⟩ := List.append_of_mem hcut
    exact hrun.isAt_eq_false hopening (hcuts.written_below above' cut below' heq).fits.at ht
  have hbelow : ∀ t ∈ o.all, (below.map fun cut => pointOf q₀.2 cut.2).filter (isAt t) =
      (placed.map (·.2)).filter (isAt t) := fun t ht => by
    refine filter_isAt_eq (List.perm_append_comm.trans hcuts.points) hplaces' fun p hp => ?_
    obtain ⟨cut, hcut, rfl⟩ := List.mem_map.mp hp
    obtain ⟨above', below', heq⟩ := List.append_of_mem hcut
    exact hrun.isAt_eq_false_of_lt (hcuts.written above' cut below' heq).fits.at
      (hcuts.lt above' cut below' heq) ht
  refine ⟨hcuts.characters?_eq hread ((hrun.opening_cases hopening).imp And.right And.left), hall, ?_⟩
  rw [hcuts.output_eq, hwords, delayedWords_congr habove, delayedWords_congr hbelow]

end Placed

/-! ## Where lines start -/

namespace Scanner

/-- The scanners at which lines start, as far as the steps go. -/
def openings : Nat → Scanner → List Scanner
  | 0, _ => []
  | fuel + 1, s => (if s.opening then [s] else []) ++
    match s.step with
    | .error _ => []
    | .ok (_, s') => openings fuel s'

/-- The place of the first token of the line, outside of all brackets. -/
def place? (o : Scanner) : Option (Nat × Nat) :=
  match o.step with
  | .error _ => none
  | .ok (_, o') =>
    if o.opening && o.lexer.brackets.isEmpty && startsToken o'.lexer.rest && o'.lexer.line == o.lexer.line
      then some (o'.lexer.line, o'.lexer.column)
    else none

theorem exists_run_of_mem_openings {fuel : Nat} {s o : Scanner} (h : o ∈ openings fuel s) :
    o.opening = true ∧ ∃ u ts, Run s u ts o := by
  induction fuel generalizing s with
  | zero => cases h
  | succ fuel ih =>
    rw [openings, List.mem_append] at h
    rcases h with h | h
    · split at h
      next hopening =>
        rw [List.mem_singleton.mp h]
        exact ⟨hopening, [], [], .refl s⟩
      · cases h
    · split at h
      · cases h
      next hstep =>
        obtain ⟨hopening, u, us, hrun⟩ := ih h
        obtain ⟨v, hpasses, -, -, -⟩ := exists_move hstep
        exact ⟨hopening, _, _, .step hstep hpasses hrun⟩

end Scanner

/-- Such places are found by making the steps. -/
theorem startsLine_of_mem {fuel line column : Nat} {p : InjectionPoint} {text : List Char}
    (hline : p.line = line) (hcolumn : p.column = column)
    (h : (line, column) ∈ (Scanner.openings fuel (Scanner.start text)).filterMap Scanner.place?) :
    StartsLine text p := by
  obtain ⟨o, ho, hplace⟩ := List.mem_filterMap.mp h
  obtain ⟨hopening, above, us, hrun⟩ := Scanner.exists_run_of_mem_openings ho
  unfold Scanner.place? at hplace
  split at hplace
  · cases hplace
  next ds o' hstep =>
    split at hplace
    next hstarts =>
      cases hplace
      simp only [Bool.and_eq_true, List.isEmpty_iff, beq_iff_eq] at hstarts
      obtain ⟨gap, hgap, hrest⟩ := Scanner.exists_gap hopening hstep hstarts.2
      have hindents : o.Indents gap ds o' := ⟨hopening, hstarts.1.1.2, hstep, hgap, hrest, hstarts.1.2⟩
      have hstands := (hrun.trans hindents.run).stands (Scanner.stands_start text)
      exact ⟨above, gap, us, o, ds, o', hrun, hindents, _, _, hline, hcolumn, hstands.2⟩
    · cases hplace

/-! ## Injection -/

/-- The line starts outside of all blocks and brackets. -/
def StartsOuterLine (text : List Char) (line : Nat) : Prop :=
  ∃ above us o, Scanner.Run (Scanner.start text) above us o ∧ o.opening = true ∧ o.lexer.brackets = [] ∧
    o.lexer.indents = [(0, 0)] ∧ o.lexer.line = line

end DelayInjection.Python
