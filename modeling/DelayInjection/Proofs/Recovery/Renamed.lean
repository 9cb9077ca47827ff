import DelayInjection.Proofs.Injection.Splice
import DelayInjection.Proofs.Recovery.LineEndings
import DelayInjection.Proofs.Recovery.Span

/-! What recovery leaves of a text does not depend on what its markers say. A recognised line goes at any
depth and leaves the depth as it is, so one marker may be put in the place of another, as long as only
blanks stand in front of it. -/

namespace DelayInjection.Recovery

open Injection (joined)
open Text (isAsciiBlank isBlank joinLines lastLine splitLines)
open Text.Utf8 (Boundary encode)

variable {k : Classifier} {depth : Nat} {reason : Reason} {line indent comment comment' : List Char}

/-! ## Lines -/

/-- The lines that stay, with so many brackets open in front of them. -/
def staying (k : Classifier) (depth : Nat) (ls : List (List Char)) : List (List Char) :=
  keptOf (ls.zip (reasons k depth ls))

theorem staying_cons (k : Classifier) (depth : Nat) (line : List Char) (ls : List (List Char)) :
    staying k depth (line :: ls) =
      (if (reasonAt k depth line).isNone then [line] else []) ++
        staying k (depthAfter k depth line) ls := by
  rw [staying, reasons_cons, List.zip_cons_cons, keptOf, List.filter_cons]
  split <;> rfl

theorem staying_append (k : Classifier) (depth : Nat) (ls ms : List (List Char)) :
    staying k depth (ls ++ ms) = staying k depth ls ++ staying k (depthBehind k depth ls) ms := by
  induction ls generalizing depth with
  | nil => rfl
  | cons l ls ih =>
    rw [List.cons_append, staying_cons, staying_cons, ih, List.append_assoc]
    rfl

theorem staying_recognised (h : Recognised k reason line)
    (hindent : ∀ c ∈ indent, isBlank c = true) (ls : List (List Char)) :
    staying k depth ((indent ++ line) :: ls) = staying k depth ls := by
  have hlevel : bracketDepth (indent ++ line) = 0 := by
    rw [bracketDepth_append, bracketDepth_of_blank hindent, h.level]
    rfl
  have hgoes : (reasonAt k depth (indent ++ line)).isNone = false := by
    rw [reasonAt, h.verdict_eq hindent]
    split <;> rfl
  have hdepth : depthAfter k depth (indent ++ line) = depth := by
    rw [depthAfter, hlevel]
    split
    next hzero => rw [hzero, Int.toNat_zero, ite_self]
    next => omega
  rw [staying_cons, hgoes, hdepth]
  rfl

/-! ## Texts -/

/-- What recovery leaves of a text, a byte order mark apart. -/
def kept (k : Classifier) (text : List Char) : List Char := joinLines (staying k 0 (splitLines text))

theorem source_remove_eq_kept (k : Classifier) {front text : List Char}
    (hfront : front = [Text.mark] ∨ (front = [] ∧ text.head? ≠ some Text.mark)) :
    (remove k (front ++ text)).source = front ++ kept k text := by
  have hlines : lines (front ++ text) = splitLines text := by
    rw [lines, Text.splitMark_of_cases hfront]
  rw [remove_of_marked (congrArg Prod.fst (Text.splitMark_of_cases hfront)) rfl, hlines]
  rfl

/-- Only blanks stand on the line that is open behind the text. -/
def Bare (text : List Char) : Prop := ∀ c ∈ lastLine text, isAsciiBlank c = true

theorem bare_of_not_inked {text : List Char} (h : ¬Text.Inked (lastLine text)) : Bare text :=
  fun c hc => Bool.of_not_eq_false fun hc' => h ⟨c, hc, hc'⟩

theorem not_bare_of_inked {text : List Char} (h : Text.Inked (lastLine text)) : ¬Bare text := by
  obtain ⟨c, hc, hink⟩ := h
  exact fun hbare => Bool.false_ne_true (hink.symm.trans (hbare c hc))

theorem isBlank_of_isAsciiBlank {c : Char} (h : isAsciiBlank c = true) : isBlank c = true := by
  simp only [isAsciiBlank, isBlank, Bool.or_eq_true, Bool.and_eq_true, beq_iff_eq,
    decide_eq_true_eq] at *
  omega

theorem mem_of_mem_lastLine {text : List Char} {c : Char} (h : c ∈ lastLine text) :
    c ∈ text ∧ c ≠ '\n' := by
  obtain ⟨above, habove, -⟩ := Text.exists_eq_append_lastLine text
  refine ⟨habove ▸ List.mem_append_right above h, ?_⟩
  rintro rfl
  exact Text.newline_not_mem_lastLine text h

theorem bare_newline (text : List Char) (hindent : ∀ c ∈ indent, isAsciiBlank c = true) :
    Bare (text ++ '\n' :: indent) := by
  intro c hc
  rw [Text.lastLine_append_of_mem List.mem_cons_self] at hc
  obtain ⟨hmem, hne⟩ := mem_of_mem_lastLine hc
  exact hindent c ((List.mem_cons.mp hmem).resolve_left hne)

theorem Bare.append {before output : List Char} (h : Bare before → Bare output) (piece : List Char) :
    Bare (before ++ piece) → Bare (output ++ piece) := by
  by_cases hnewline : '\n' ∈ piece
  · rw [Bare, Bare, Text.lastLine_append_of_mem hnewline, Text.lastLine_append_of_mem hnewline]
    exact id
  · rw [Bare, Bare, Text.lastLine_append_of_not_mem hnewline,
      Text.lastLine_append_of_not_mem hnewline]
    intro hbare c hc
    rcases List.mem_append.mp hc with hc | hc
    · exact h (fun d hd => hbare d (List.mem_append_left _ hd)) c hc
    · exact hbare c (List.mem_append_right _ hc)

/-- One marker may be put in the place of another. -/
theorem kept_marker {before : List Char} (hbare : Bare before) (h : Recognised k .stamp comment)
    (h' : Recognised k .stamp comment') (behind : List Char) :
    kept k (before ++ comment ++ '\n' :: behind) = kept k (before ++ comment' ++ '\n' :: behind) := by
  obtain ⟨above, habove, hends⟩ := Text.exists_eq_append_lastLine before
  have hsplit : ∀ line : List Char, '\n' ∉ line →
      splitLines (before ++ line ++ '\n' :: behind) =
        (splitLines above).dropLast ++ (lastLine before ++ line) :: splitLines behind := by
    intro line hline
    conv in before ++ line => rw [habove]
    rw [List.append_assoc, List.append_assoc, Text.splitLines_append hends, ← List.append_assoc,
      Text.splitLines_line]
    exact fun hmem => (List.mem_append.mp hmem).elim (Text.newline_not_mem_lastLine before) hline
  have hblank : ∀ c ∈ lastLine before, isBlank c = true := fun c hc =>
    isBlank_of_isAsciiBlank (hbare c hc)
  rw [kept, kept, hsplit _ h.newline_not_mem, hsplit _ h'.newline_not_mem, staying_append,
    staying_append, staying_recognised h hblank, staying_recognised h' hblank]

/-! ## Insertions -/

/-- Behind `before` in a source the second text may be written in the place of the first one: whatever
was inserted further up, as long as it keeps a line of blanks one, recovery leaves the same. -/
def Exchangeable (k : Classifier) (before text text' : List Char) : Prop :=
  ∀ output : List Char, (Bare before → Bare output) →
    (∀ behind, kept k (output ++ text ++ behind) = kept k (output ++ text' ++ behind)) ∧
      (Bare before → Bare (output ++ text'))

section Exchangeable

variable {before call : List Char} (hcomment : Recognised k .stamp comment)
  (hcomment' : Recognised k .stamp comment') (hindent : ∀ c ∈ indent, isAsciiBlank c = true)

include hcomment hcomment' hindent

/-- In front of a statement that has its line for itself. -/
theorem exchangeable_own (hbare : Bare before) (call : List Char) :
    Exchangeable k before (comment ++ '\n' :: indent ++ call ++ '\n' :: indent)
      (comment' ++ '\n' :: indent ++ call ++ '\n' :: indent) := by
  intro output houtput
  refine ⟨fun behind => ?_, fun _ => ?_⟩
  · have hmarker := kept_marker (houtput hbare) hcomment hcomment'
      (indent ++ call ++ '\n' :: indent ++ behind)
    simpa using hmarker
  · rw [← List.append_assoc]
    exact bare_newline _ hindent

/-- In front of a statement that goes to a new line. -/
theorem exchangeable_split (before call : List Char) :
    Exchangeable k before ('\n' :: indent ++ (comment ++ '\n' :: indent ++ call ++ '\n' :: indent))
      ('\n' :: indent ++ (comment' ++ '\n' :: indent ++ call ++ '\n' :: indent)) := by
  intro output _
  refine ⟨fun behind => ?_, fun _ => ?_⟩
  · have hmarker := kept_marker (bare_newline output hindent) hcomment hcomment'
      (indent ++ call ++ '\n' :: indent ++ behind)
    simpa using hmarker
  · rw [← List.append_assoc, ← List.append_assoc]
    exact bare_newline _ hindent

end Exchangeable

/-- A text that ends a line may stay as it is. -/
theorem exchangeable_line (k : Classifier) (before text : List Char) :
    Exchangeable k before (text ++ ['\n']) (text ++ ['\n']) := by
  refine fun output _ => ⟨fun behind => rfl, fun _ => ?_⟩
  rw [← List.append_assoc]
  exact bare_newline _ (fun c hc => nomatch hc)

/-- So may any text behind code. -/
theorem exchangeable_of_not_bare (k : Classifier) {before : List Char} (h : ¬Bare before)
    (text : List Char) : Exchangeable k before text text :=
  fun _ _ => ⟨fun _ => rfl, fun hbare => absurd hbare h⟩

section Joined

variable {ε : Type} {f f' : ε → List Char}

/-- Every piece of a source can be followed by the one text or by the other. -/
def AllExchangeable (k : Classifier) (f f' : ε → List Char) (before : List Char) :
    List (List Char × ε) → Prop
  | [] => True
  | (piece, e) :: rest =>
    Exchangeable k (before ++ piece) (f e) (f' e) ∧ AllExchangeable k f f' (before ++ piece) rest

theorem kept_joined {cuts : List (List Char × ε)} {before output : List Char}
    (h : AllExchangeable k f f' before cuts) (hbare : Bare before → Bare output)
    (tail : List Char) :
    kept k (output ++ joined f cuts tail) = kept k (output ++ joined f' cuts tail) := by
  induction cuts generalizing before output with
  | nil => rfl
  | cons cut rest ih =>
    obtain ⟨piece, e⟩ := cut
    obtain ⟨he, hrest⟩ := h
    obtain ⟨hkept, hnext⟩ := he (output ++ piece) (Bare.append hbare piece)
    have hbehind := hkept (joined f rest tail)
    rw [Injection.joined_cons, Injection.joined_cons]
    simp only [List.append_assoc] at hbehind ⊢
    rw [hbehind]
    simpa using ih hrest hnext

theorem allExchangeable_of_placed {offset : ε → Nat} {source before tail : List Char}
    {cuts : List (List Char × ε)} (hplaced : Injection.Placed offset (encode before).length cuts)
    (hsource : source = before ++ joined (fun _ => []) cuts tail)
    (h : ∀ cut ∈ cuts, ∀ above below, source = above ++ below →
      (encode above).length = offset cut.2 → Exchangeable k above (f cut.2) (f' cut.2)) :
    AllExchangeable k f f' before cuts := by
  induction cuts generalizing before with
  | nil => exact trivial
  | cons cut rest ih =>
    obtain ⟨piece, e⟩ := cut
    obtain ⟨hoffset, hrest⟩ := hplaced
    have hsource' : source = (before ++ piece) ++ joined (fun _ => []) rest tail := by
      rw [hsource, Injection.joined_cons, List.append_nil, List.append_assoc]
    have hlength : (encode (before ++ piece)).length = offset e := by
      rw [hoffset, Text.Utf8.encode_append, List.length_append]
    refine ⟨h (piece, e) List.mem_cons_self _ _ hsource' hlength, ?_⟩
    rw [← hlength] at hrest
    exact ih hrest hsource' fun cut hcut => h cut (List.mem_cons_of_mem _ hcut)

/-- Whether the ones or the others are inserted, recovery leaves the same. -/
theorem exists_kept_apply {offset : ε → Nat} {source : List Char} {es : List ε}
    (hboundary : ∀ e ∈ es, Boundary source (offset e))
    (hexchange : ∀ e ∈ es, ∀ before behind, source = before ++ behind →
      (encode before).length = offset e → Exchangeable k before (f e) (f' e))
    (hhead : ∀ e ∈ es, (f e).head? ≠ some Text.mark) (hsource : source.head? ≠ some Text.mark) :
    ∃ output output',
      Injection.apply (encode source) (es.map fun e => ⟨offset e, f e⟩) = encode output ∧
        Injection.apply (encode source) (es.map fun e => ⟨offset e, f' e⟩) = encode output' ∧
        kept k output = kept k output' ∧ output.head? ≠ some Text.mark := by
  obtain ⟨cuts, tail, hcuts, hjoined, hplaced, happly⟩ :=
    @Injection.exists_apply_eq_joined _ offset es [] source fun e he =>
      ⟨Nat.zero_le _, hboundary e he⟩
  have hmem : ∀ cut ∈ cuts, cut.2 ∈ es := fun cut hcut => by
    rw [← Injection.mem_inOrder offset, ← hcuts]
    exact List.mem_map_of_mem hcut
  refine ⟨joined f cuts tail, joined f' cuts tail, happly f, happly f', ?_, fun hmark => ?_⟩
  · have hall : AllExchangeable k f f' [] cuts := allExchangeable_of_placed hplaced hjoined
      fun cut hcut => hexchange cut.2 (hmem cut hcut)
    exact kept_joined hall (@id (Bare [])) tail
  · exact hsource (hjoined ▸ Injection.head?_joined (fun cut hcut => hhead cut.2 (hmem cut hcut)) hmark)

end Joined

end DelayInjection.Recovery
