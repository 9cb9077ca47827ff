import DelayInjection.Proofs.Injection.Splice
import DelayInjection.Proofs.Recovery.Call

/-! Edits of a source together with what recovery makes of them. Some leave nothing behind; one that
splits a line leaves the line break. The pieces of the source between them stay as they are as long as
an edit that starts no line of its own finds nothing but its indent in front of it. -/

namespace DelayInjection

open Text (splitLines lastLine Inked)
open Injection (joined)

/-- What one insertion does to the lines around it. -/
inductive Edit where
  /-- Two lines in front of a statement that has its line for itself. -/
  | own (offset : Nat) (indent comment call : List Char)
  /-- Two lines in front of a statement that goes to a new line. -/
  | split (offset : Nat) (indent comment call : List Char)
  /-- A line between two lines. -/
  | between (offset : Nat) (line : List Char)
  /-- A line that breaks another one. -/
  | breaking (offset : Nat) (line : List Char)
  /-- A line at the very end. -/
  | final (offset : Nat) (line : List Char)
deriving DecidableEq

namespace Edit

def offset : Edit → Nat
  | own offset _ _ _ | split offset _ _ _ | between offset _ | breaking offset _ | final offset _ =>
    offset

/-- What is written into the source. -/
def text : Edit → List Char
  | own _ indent comment call => comment ++ '\n' :: indent ++ call ++ '\n' :: indent
  | split _ indent comment call =>
    '\n' :: indent ++ (comment ++ '\n' :: indent ++ call ++ '\n' :: indent)
  | between _ line => line ++ ['\n']
  | breaking _ line => '\n' :: line ++ ['\n']
  | final _ line => '\n' :: line

/-- What is left of it behind recovery. -/
def trace : Edit → List Char
  | own _ _ _ _ => []
  | split _ indent _ _ => '\n' :: indent
  | between _ _ => []
  | breaking _ _ => ['\n']
  | final _ _ => []

/-- The lines that recovery takes out, each with its reason. -/
def lines : Edit → List (Reason × List Char)
  | own _ indent comment call | split _ indent comment call =>
    [(.stamp, indent ++ comment), (.identifier, indent ++ call)]
  | between _ line | breaking _ line | final _ line => [(.supportImport, line)]

/-- What is written are the lines and newlines. -/
theorem mem_text {e : Edit} {c : Char} (h : c ∈ e.text) : c = '\n' ∨ ∃ r ∈ e.lines, c ∈ r.2 := by
  cases e
  all_goals
    simp only [text, lines, List.mem_append, List.mem_cons, List.not_mem_nil, or_false,
      exists_eq_or_imp, exists_eq_left] at h ⊢
    grind

/-- Recovery finds each line of the edit by itself, and no span goes on behind it. -/
def Known (k : Classifier) (e : Edit) : Prop :=
  ∀ r ∈ e.lines, ('\n' ∉ r.2 ∧ Text.mark ∉ r.2) ∧
    Recovery.verdict k r.2 = some r.1 ∧ Recovery.Settled k r.2

/-- The place in the source suits the edit; `before` stands in front of it, behind the mark of the
source, which counts as code on the first line. -/
def Sits (front before : List Char) (last : Prop) : Edit → Prop
  | own _ indent _ _ => lastLine before = indent ∧ ¬Inked (lastLine (front ++ before))
  | split _ indent _ _ => Inked (lastLine (front ++ before)) ∧ (before = [] → indent = [])
  | between _ _ => lastLine before = []
  | breaking _ _ => Inked (lastLine (front ++ before))
  | final _ _ => last

/-- The open line of the output is the one of the source, unless that one holds code already. -/
def Tracks (front output before : List Char) : Prop :=
  lastLine output = lastLine before ∨ (before ≠ [] ∧ Inked (lastLine (front ++ before)))

section Tracks

variable {front output before : List Char}

theorem Tracks.append (h : Tracks front output before) (piece : List Char) :
    Tracks front (output ++ piece) (before ++ piece) := by
  by_cases hnl : '\n' ∈ piece
  · exact .inl (by rw [Text.lastLine_append_of_mem hnl, Text.lastLine_append_of_mem hnl])
  · rcases h with h | ⟨hne, h⟩
    · refine .inl ?_
      rw [Text.lastLine_append_of_not_mem hnl, Text.lastLine_append_of_not_mem hnl, h]
    · refine .inr ⟨by simp [hne], ?_⟩
      rw [← List.append_assoc, Text.lastLine_append_of_not_mem hnl]
      exact h.append_right

theorem Tracks.lastLine_eq (h : Tracks front output before)
    (hblank : ¬Inked (lastLine (front ++ before))) : lastLine output = lastLine before :=
  h.resolve_right fun hinked => hblank hinked.2

theorem Tracks.lastLine_eq_nil (h : Tracks front output before) (hnil : lastLine before = []) :
    lastLine output = [] := by
  refine (h.resolve_right fun ⟨hne, hinked⟩ => ?_).trans hnil
  obtain ⟨above, habove, hends⟩ := Text.exists_eq_append_lastLine before
  rw [hnil, List.append_nil] at habove
  obtain ⟨s, hs⟩ := hends.resolve_left (habove ▸ hne)
  have hmem : '\n' ∈ before := by simp [habove, hs]
  rw [Text.lastLine_append_of_mem hmem, hnil] at hinked
  exact Text.not_inked_nil hinked

theorem tracks_of_inked (hinked : Inked (lastLine (front ++ before)))
    (hnil : before = [] → lastLine output = []) : Tracks front output before := by
  by_cases hbefore : before = []
  · exact .inl (by rw [hnil hbefore, hbefore]; rfl)
  · exact .inr ⟨hbefore, hinked⟩

end Tracks

/-! ## One edit -/

/-- Two lines behind an indent, with the same indent behind them. -/
theorem splitLines_two {indent comment call : List Char} (hcomment : '\n' ∉ indent ++ comment)
    (hcall : '\n' ∉ indent ++ call) (t : List Char) :
    splitLines (indent ++ (comment ++ '\n' :: indent ++ call ++ '\n' :: indent) ++ t) =
      [indent ++ comment, indent ++ call] ++ splitLines (indent ++ t) := by
  calc splitLines (indent ++ (comment ++ '\n' :: indent ++ call ++ '\n' :: indent) ++ t)
      = splitLines ((indent ++ comment) ++ '\n' :: ((indent ++ call) ++ '\n' :: (indent ++ t))) := by
        simp
    _ = [indent ++ comment, indent ++ call] ++ splitLines (indent ++ t) := by
      rw [Text.splitLines_line hcomment, Text.splitLines_line hcall]
      rfl

/-- Behind an edit the output and what recovery leaves go on alike, behind lines that stay and lines
that go. -/
theorem leaves {k : Classifier} {e : Edit} {front output before : List Char} {last : Prop}
    (hknown : e.Known k) (hsits : e.Sits front before last) (htracks : Tracks front output before)
    (hlast : ¬last) :
    ∃ above next, Tracks front next before ∧
      (∀ t, splitLines (output ++ e.text ++ t) =
        above ++ e.lines.map (·.2) ++ splitLines (next ++ t)) ∧
      ∀ t, splitLines (output ++ e.trace ++ t) = above ++ splitLines (next ++ t) := by
  cases e with
  | own offset indent comment call =>
    obtain ⟨hindent, hblank⟩ := hsits
    have hcomment : '\n' ∉ indent ++ comment := (hknown (.stamp, _) (by simp [lines])).1.1
    have hcall : '\n' ∉ indent ++ call := (hknown (.identifier, _) (by simp [lines])).1.1
    have hnl : '\n' ∉ indent := fun h => hcall (List.mem_append_left _ h)
    have hopen : lastLine output = indent := by
      rw [htracks.lastLine_eq hblank, hindent]
    obtain ⟨above, habove, hends⟩ := Text.exists_eq_append_lastLine output
    rw [hopen] at habove
    have hnext : lastLine indent = indent := Text.lastLine_of_not_mem hnl
    refine ⟨(splitLines above).dropLast, indent, .inl (hnext.trans hindent.symm), fun t => ?_,
      fun t => ?_⟩
    · rw [habove, List.append_assoc, List.append_assoc, Text.splitLines_append hends,
        ← List.append_assoc, text, splitLines_two hcomment hcall, List.append_assoc]
      rfl
    · rw [habove, trace, List.append_nil, List.append_assoc, Text.splitLines_append hends]
  | split offset indent comment call =>
    have hcomment : '\n' ∉ indent ++ comment := (hknown (.stamp, _) (by simp [lines])).1.1
    have hcall : '\n' ∉ indent ++ call := (hknown (.identifier, _) (by simp [lines])).1.1
    have hnext : Tracks front indent before :=
      tracks_of_inked hsits.1 fun h => by rw [hsits.2 h]; rfl
    refine ⟨splitLines output, indent, hnext, fun t => ?_, fun t => ?_⟩
    · rw [text, List.cons_append, List.append_assoc, List.cons_append, Text.splitLines_newline,
        splitLines_two hcomment hcall, List.append_assoc]
      rfl
    · rw [trace, List.append_assoc, List.cons_append, Text.splitLines_newline]
  | between offset line =>
    have hline : '\n' ∉ line := (hknown (.supportImport, _) (by simp [lines])).1.1
    have hopen : lastLine output = [] := htracks.lastLine_eq_nil hsits
    obtain ⟨above, habove, hends⟩ := Text.exists_eq_append_lastLine output
    rw [hopen, List.append_nil] at habove
    refine ⟨(splitLines above).dropLast, [], .inl hsits.symm, fun t => ?_, fun t => ?_⟩
    · rw [habove, List.append_assoc, Text.splitLines_append hends, text, List.append_assoc,
        List.singleton_append, Text.splitLines_line hline, List.append_assoc]
      rfl
    · rw [habove, trace, List.append_nil, Text.splitLines_append hends, List.nil_append]
  | breaking offset line =>
    have hline : '\n' ∉ line := (hknown (.supportImport, _) (by simp [lines])).1.1
    refine ⟨splitLines output, [], tracks_of_inked hsits fun _ => rfl, fun t => ?_, fun t => ?_⟩
    · rw [text, List.cons_append, List.append_assoc, List.cons_append, Text.splitLines_newline,
        List.append_assoc, List.singleton_append, Text.splitLines_line hline, List.append_assoc]
      rfl
    · rw [trace, List.append_assoc, List.singleton_append, Text.splitLines_newline, List.nil_append]
  | final offset line => exact absurd hsits hlast

/-! ## All edits of a source -/

/-- Every edit sits well in the source that its cuts put together. -/
def AllSit (front before tail : List Char) : List (List Char × Edit) → Prop
  | [] => True
  | (piece, e) :: rest =>
    e.Sits front (before ++ piece) (rest = [] ∧ tail = []) ∧ AllSit front (before ++ piece) tail rest

open Recovery (Sorts verdict)

/-- Recovery sorts the lines of the output into those of what the edits leave and those of the
edits. -/
theorem sorts_joined {k : Classifier} {cuts : List (List Char × Edit)}
    {tail front output before : List Char} (htracks : Tracks front output before)
    (hsit : AllSit front before tail cuts)
    (hknown : ∀ cut ∈ cuts, cut.2.Known k)
    (hkept : ∀ l ∈ splitLines (output ++ joined trace cuts tail), verdict k l = none) :
    Sorts k (splitLines (output ++ joined text cuts tail))
      (splitLines (output ++ joined trace cuts tail)) (cuts.flatMap (·.2.lines)) := by
  induction cuts generalizing output before with
  | nil => exact Sorts.of_kept hkept
  | cons cut rest ih =>
    obtain ⟨piece, e⟩ := cut
    obtain ⟨he, hrest⟩ := hsit
    have hk : e.Known k := hknown (piece, e) List.mem_cons_self
    have hlines : Sorts k (e.lines.map (·.2)) [] e.lines := Sorts.of_removed fun r hr => (hk r hr).2
    by_cases hfinal : (∃ offset line, e = .final offset line) ∧ rest = [] ∧ tail = []
    · obtain ⟨⟨offset, line, rfl⟩, rfl, rfl⟩ := hfinal
      have hline : '\n' ∉ line := (hk (.supportImport, _) (by simp [lines])).1.1
      have hsplit : splitLines (output ++ joined text [(piece, .final offset line)] []) =
          splitLines (output ++ piece) ++ [line] := by
        simp only [Injection.joined_cons, Injection.joined_nil, text, List.append_nil]
        rw [← List.append_assoc, Text.splitLines_newline, Text.splitLines_of_not_mem hline]
      have hstay : joined trace [(piece, .final offset line)] [] = piece := by simp [trace]
      rw [hstay] at hkept ⊢
      rw [hsplit]
      simpa [lines] using (Sorts.of_kept hkept).append hlines
    · have hsits : e.Sits front (before ++ piece) False := by
        cases e with
        | final offset line => exact hfinal ⟨⟨offset, line, rfl⟩, he⟩
        | own => exact he
        | split => exact he
        | between => exact he
        | breaking => exact he
      obtain ⟨above, next, hnext, htext, htrace⟩ := leaves hk hsits (htracks.append piece) not_false
      have htext' := htext (joined text rest tail)
      have htrace' := htrace (joined trace rest tail)
      simp only [List.append_assoc] at htext' htrace'
      simp only [Injection.joined_cons, List.append_assoc, List.flatMap_cons] at hkept ⊢
      rw [htrace'] at hkept ⊢
      rw [htext']
      have hih := ih hnext hrest (fun cut hcut => hknown cut (List.mem_cons_of_mem _ hcut))
        fun l hl => hkept l (List.mem_append_right _ hl)
      have habove : Sorts k above above [] :=
        Sorts.of_kept fun l hl => hkept l (List.mem_append_left _ hl)
      simpa using habove.append (hlines.append hih)

/-! ## A source with its mark -/

/-- The place of the edit is in the source behind its mark, and suits it. -/
def Suits (source : List Char) (e : Edit) : Prop :=
  ∃ before behind, (Text.splitMark source).2 = before ++ behind ∧
    (Text.Utf8.encode ((Text.splitMark source).1 ++ before)).length = e.offset ∧
    e.Sits (Text.splitMark source).1 before (behind = [])

def IsFinal (e : Edit) : Prop := ∃ offset line, e = .final offset line

theorem Sits.imp {e : Edit} {front before : List Char} {last last' : Prop}
    (h : e.Sits front before last) (hlast : e.IsFinal → last → last') :
    e.Sits front before last' := by
  cases e with
  | final offset line => exact hlast ⟨offset, line, rfl⟩ h
  | own => exact h
  | split => exact h
  | between => exact h
  | breaking => exact h

theorem joined_eq_nil {cuts : List (List Char × Edit)} {tail : List Char}
    (h : joined (fun _ => []) cuts tail = []) : tail = [] := by
  induction cuts with
  | nil => exact h
  | cons cut cuts ih =>
    rw [Injection.joined_cons, List.append_eq_nil_iff] at h
    exact ih h.2

theorem allSit_of_suits {source before tail : List Char} {cuts : List (List Char × Edit)}
    (hplaced : Injection.Placed offset
      (Text.Utf8.encode ((Text.splitMark source).1 ++ before)).length cuts)
    (hsource : (Text.splitMark source).2 = before ++ joined (fun _ => []) cuts tail)
    (hsuits : ∀ cut ∈ cuts, cut.2.Suits source)
    (hfinal : ∀ above cut below, cuts = above ++ cut :: below → cut.2.IsFinal → below = []) :
    AllSit (Text.splitMark source).1 before tail cuts := by
  induction cuts generalizing before with
  | nil => exact trivial
  | cons cut rest ih =>
    obtain ⟨piece, e⟩ := cut
    obtain ⟨hoffset, hrest⟩ := hplaced
    obtain ⟨before', behind, hsplit, hlen, hsits⟩ := hsuits (piece, e) List.mem_cons_self
    have hsource' : (Text.splitMark source).2 =
        (before ++ piece) ++ joined (fun _ => []) rest tail := by
      rw [hsource, Injection.joined_cons, List.append_nil, List.append_assoc]
    have hlen' : (Text.Utf8.encode ((Text.splitMark source).1 ++ (before ++ piece))).length =
        e.offset := by
      rw [hoffset, ← List.append_assoc, Text.Utf8.encode_append, List.length_append]
    have hbefore : before' = before ++ piece := by
      refine Text.Utf8.eq_of_append_eq (hsplit.symm.trans hsource') ?_
      rw [Text.Utf8.encode_append, List.length_append] at hlen hlen'
      exact Nat.add_left_cancel (hlen.trans hlen'.symm)
    subst hbefore
    have hbehind : behind = joined (fun _ => []) rest tail :=
      List.append_cancel_left (hsplit.symm.trans hsource')
    refine ⟨hsits.imp fun hf hnil => ⟨hfinal [] (piece, e) rest rfl hf, ?_⟩, ?_⟩
    · exact joined_eq_nil (hbehind.symm.trans hnil)
    · exact ih (by rwa [hlen']) hsource' (fun cut hcut => hsuits cut (List.mem_cons_of_mem _ hcut))
        fun above cut below h => hfinal ((piece, e) :: above) cut below (by rw [h]; rfl)

theorem head?_text {k : Classifier} {e : Edit} (h : e.Known k) : e.text.head? ≠ some Text.mark := by
  have hline : ∀ (r : Reason × List Char) (t : List Char), r ∈ e.lines →
      (∀ i l, r.2 = i ++ l → (l ++ '\n' :: t).head? ≠ some Text.mark) := by
    intro r t hr i l hrl hhead
    have hmark := (h r hr).1.2
    cases l with
    | nil => cases hhead
    | cons c l =>
      cases hhead
      exact hmark (by simp [hrl])
  cases e with
  | own offset indent comment call =>
    simpa [text] using hline (.stamp, indent ++ comment) (indent ++ call ++ '\n' :: indent)
      (by simp [lines]) indent comment rfl
  | split => simp [text, Text.mark]
  | between offset line =>
    simpa [text] using hline (.supportImport, line) [] (by simp [lines]) [] line rfl
  | breaking => simp [text, Text.mark]
  | final => simp [text, Text.mark]

theorem head?_trace (e : Edit) : e.trace.head? ≠ some Text.mark := by
  cases e <;> simp [trace, Text.mark]

/-- Edits that do not start with a mark leave the one of the source where it is. -/
theorem splitMark_joined {source tail : List Char} {cuts : List (List Char × Edit)}
    {f : Edit → List Char} (hsource : (Text.splitMark source).2 = joined (fun _ => []) cuts tail)
    (hf : ∀ cut ∈ cuts, (f cut.2).head? ≠ some Text.mark) :
    Text.splitMark ((Text.splitMark source).1 ++ joined f cuts tail) =
      ((Text.splitMark source).1, joined f cuts tail) := by
  refine Text.splitMark_of_cases ((Text.splitMark_cases source).imp_right fun h => ⟨h.1, ?_⟩)
  exact fun hhead => h.2 (hsource ▸ Injection.head?_joined hf hhead)

/-- What is written and what is left of it, as insertions. -/
def insertion (e : Edit) : Insertion := ⟨e.offset, e.text⟩

def remainder (e : Edit) : Insertion := ⟨e.offset, e.trace⟩

theorem Suits.boundary {source : List Char} {e : Edit} (h : e.Suits source) :
    (Text.Utf8.encode (Text.splitMark source).1).length ≤ e.offset ∧
      Text.Utf8.Boundary (Text.splitMark source).2
        (e.offset - (Text.Utf8.encode (Text.splitMark source).1).length) := by
  obtain ⟨before, behind, hsplit, hlen, -⟩ := h
  rw [Text.Utf8.encode_append, List.length_append] at hlen
  exact ⟨by omega, before, behind, hsplit, by omega⟩

theorem Suits.boundary_source {source : List Char} {e : Edit} (h : e.Suits source) :
    Text.Utf8.Boundary source e.offset := by
  obtain ⟨before, behind, hsplit, hlen, -⟩ := h
  refine ⟨(Text.splitMark source).1 ++ before, behind, ?_, hlen⟩
  rw [List.append_assoc, ← hsplit, Text.splitMark_append]

/-- Nothing is put behind an edit at the very end. -/
theorem eq_nil_of_isFinal {es above below : List Edit} {e : Edit}
    (h : Injection.inOrder offset es = above ++ e :: below)
    (hfinal : ∃ others, es.Perm (e :: others) ∧ ∀ o ∈ others, o.offset < e.offset) :
    below = [] := by
  obtain ⟨others, hothers, hlt⟩ := hfinal
  have hsorted := Injection.pairwise_inOrder offset es
  rw [h] at hsorted
  have hge := (List.pairwise_cons.mp (List.pairwise_append.mp hsorted).2.1).1
  have hperm : (above ++ below).Perm others := by
    have hall := (Injection.inOrder_perm offset es).trans hothers
    rw [h] at hall
    exact (List.perm_middle.symm.trans hall).cons_inv
  refine List.eq_nil_iff_forall_not_mem.mpr fun o ho => ?_
  have hle := hge o ho
  have hlt' := hlt o (hperm.mem_iff.mp (List.mem_append_right _ ho))
  omega

/-- Recovery turns the output of the edits into what they leave, provided that nothing in what they
leave looks like an edit. -/
theorem remove_apply {k : Classifier} {source : List Char} {es : List Edit}
    (hknown : ∀ e ∈ es, e.Known k) (hsuits : ∀ e ∈ es, e.Suits source)
    (hfinal : ∀ e ∈ es, e.IsFinal →
      ∃ others, es.Perm (e :: others) ∧ ∀ o ∈ others, o.offset < e.offset) :
    ∃ output kept, Injection.apply (Text.Utf8.encode source) (es.map insertion) =
        Text.Utf8.encode output ∧
      Injection.apply (Text.Utf8.encode source) (es.map remainder) = Text.Utf8.encode kept ∧
      ((∀ l ∈ Recovery.lines kept, verdict k l = none) →
        Recovery.remove k output = ⟨kept, (es.flatMap lines).length⟩ ∧
          (Recovery.scan k output).map (fun m => (m.reason, m.content)) =
            (Injection.inOrder offset es).flatMap lines) := by
  obtain ⟨cuts, tail, hcuts, hsource, hplaced, happly⟩ :=
    Injection.exists_apply_eq_joined offset fun e he => (hsuits e he).boundary
  have hmem : ∀ cut ∈ cuts, cut.2 ∈ es := fun cut hcut => by
    rw [← Injection.mem_inOrder offset, ← hcuts]
    exact List.mem_map_of_mem hcut
  have hsplit := Text.splitMark_append source
  have hsit : AllSit (Text.splitMark source).1 [] tail cuts := by
    refine @allSit_of_suits source [] tail cuts (by rwa [List.append_nil]) hsource
      (fun cut hcut => hsuits cut.2 (hmem cut hcut)) fun above cut below h hf => ?_
    have hin := hmem cut (h ▸ by simp)
    rw [h, List.map_append, List.map_cons] at hcuts
    exact List.map_eq_nil_iff.mp (eq_nil_of_isFinal hcuts.symm (hfinal cut.2 hin hf))
  have htext := splitMark_joined hsource fun cut hcut => head?_text (hknown cut.2 (hmem cut hcut))
  have htrace := splitMark_joined hsource fun cut _ => head?_trace cut.2
  refine ⟨_, _, by rw [← happly text, hsplit]; rfl, by rw [← happly trace, hsplit]; rfl,
    fun hkept => ?_⟩
  have hkept' : ∀ l ∈ splitLines ([] ++ joined trace cuts tail), verdict k l = none := by
    rwa [Recovery.lines, htrace] at hkept
  have hsorts := sorts_joined (.inl rfl) hsit (fun cut hcut => hknown cut.2 (hmem cut hcut)) hkept'
  have hlines : cuts.flatMap (·.2.lines) = (Injection.inOrder offset es).flatMap lines := by
    rw [← hcuts, List.flatMap_map]
  have hlength : ((Injection.inOrder offset es).flatMap lines).length = (es.flatMap lines).length :=
    ((Injection.inOrder_perm offset es).flatMap_right lines).length_eq
  rw [List.nil_append, List.nil_append, hlines] at hsorts
  have hout : Sorts k (Recovery.lines ((Text.splitMark source).1 ++ joined text cuts tail))
      (splitLines (joined trace cuts tail)) ((Injection.inOrder offset es).flatMap lines) := by
    rwa [Recovery.lines, htext]
  refine ⟨?_, hout.scan_content⟩
  rw [hout.remove_eq, htext, Text.joinLines_splitLines, hlength]

end Edit
end DelayInjection
