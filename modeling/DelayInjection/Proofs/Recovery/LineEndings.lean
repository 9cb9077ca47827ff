import DelayInjection.Proofs.Recovery.Preview
import DelayInjection.Proofs.Recovery.Span

/-! Recovery of a text whose lines end in two characters. The carriage return at the end of a line is one of
the blanks around it, which no verdict and no count of brackets sees, and it stays on the lines that are
kept. -/

namespace DelayInjection.Recovery

open Text (isBlank joinLines mark splitLines splitMark strip)

variable {k : Classifier} {source t : List Char} {above : List (List Char)} {last : List Char}

/-- The text with a carriage return in front of each newline. -/
def withReturns (t : List Char) : List Char :=
  t.flatMap fun c => if c = '\n' then ['\r', '\n'] else [c]

def returned (line : List Char) : List Char := line ++ ['\r']

theorem withReturns_of_not_mem (h : '\n' ∉ t) : withReturns t = t := by
  induction t with
  | nil => rfl
  | cons c t ih =>
    have hc : c ≠ '\n' := fun e => h (e ▸ List.mem_cons_self)
    have ht : withReturns t = t := ih fun hmem => h (List.mem_cons_of_mem c hmem)
    unfold withReturns at ht ⊢
    rw [List.flatMap_cons, if_neg hc, ht, List.singleton_append]

theorem withReturns_append (s t : List Char) : withReturns (s ++ t) = withReturns s ++ withReturns t :=
  List.flatMap_append

/-- All lines but the last one get a carriage return. -/
theorem withReturns_joinLines (habove : ∀ l ∈ above, '\n' ∉ l) (hlast : '\n' ∉ last) :
    withReturns (joinLines (above ++ [last])) = joinLines (above.map returned ++ [last]) := by
  induction above with
  | nil => simpa [joinLines] using withReturns_of_not_mem hlast
  | cons l above ih =>
    have hl : withReturns l = l := withReturns_of_not_mem (habove l List.mem_cons_self)
    have hrest := ih fun m hm => habove m (List.mem_cons_of_mem l hm)
    have hbreak : ∀ s, withReturns ('\n' :: s) = '\r' :: '\n' :: withReturns s := fun s => rfl
    rw [List.cons_append, Text.joinLines_cons l (by simp), withReturns_append, hl, hbreak, hrest,
      List.map_cons, List.cons_append, Text.joinLines_cons _ (by simp), returned, List.append_assoc,
      List.singleton_append]

theorem splitMark_withReturns (source : List Char) :
    splitMark (withReturns source) = ((splitMark source).1, withReturns (splitMark source).2) := by
  cases source with
  | nil => rfl
  | cons c t =>
    by_cases hmark : c = mark
    · subst hmark
      rfl
    · by_cases hbreak : c = '\n'
      · subst hbreak
        rfl
      · have hfirst : withReturns (c :: t) = c :: withReturns t := by
          rw [withReturns, List.flatMap_cons, if_neg hbreak, List.singleton_append, ← withReturns]
        rw [hfirst, splitMark, if_neg hmark, splitMark, if_neg hmark, hfirst]

theorem lines_withReturns (h : lines source = above ++ [last]) :
    lines (withReturns source) = above.map returned ++ [last] := by
  have hline : ∀ l ∈ above ++ [last], '\n' ∉ l := fun l hl =>
    Text.newline_not_mem_of_mem_splitLines (h.symm ▸ hl : l ∈ lines source)
  have habove : ∀ l ∈ above, '\n' ∉ l := fun l hl => hline l (List.mem_append_left _ hl)
  have hlast : '\n' ∉ last := hline last (List.mem_append_right _ (List.mem_singleton_self last))
  have htext : (splitMark source).2 = joinLines (above ++ [last]) := by
    rw [← h, lines, Text.joinLines_splitLines]
  rw [lines, splitMark_withReturns, htext, withReturns_joinLines habove hlast]
  apply Text.splitLines_joinLines (by simp)
  intro l hl
  rcases List.mem_append.mp hl with hl | hl
  · obtain ⟨m, hm, rfl⟩ := List.mem_map.mp hl
    simpa [returned] using habove m hm
  · exact hline l (List.mem_append_right _ hl)

/-! ## Reasons -/

theorem strip_returned (line : List Char) : strip (returned line) = strip line := by
  have hblank : isBlank '\r' = true := by decide
  unfold strip returned
  rw [List.dropWhile_append]
  split
  next hnil => rw [List.isEmpty_iff.mp hnil, List.dropWhile_cons_of_pos hblank, List.dropWhile_nil]
  next => rw [List.reverse_append, List.reverse_singleton, List.singleton_append,
      List.dropWhile_cons_of_pos hblank]

/-- The blanks around the lines have no part in the reasons. -/
theorem reasons_congr {depth : Nat} {ls ms : List (List Char)} (h : ls.map strip = ms.map strip) :
    reasons k depth ls = reasons k depth ms := by
  induction ls generalizing depth ms with
  | nil => rw [List.map_eq_nil_iff.mp h.symm]
  | cons l ls ih =>
    obtain ⟨m, ms, rfl, hfirst, hrest⟩ := List.map_eq_cons_iff.mp h.symm
    have hverdict : verdict k m = verdict k l := congrArg (classify k) hfirst
    have hdepth : bracketDepth m = bracketDepth l := by
      rw [← bracketDepth_strip m, hfirst, bracketDepth_strip]
    rw [reasons_cons, reasons_cons, reasonAt, reasonAt, depthAfter, depthAfter, hverdict, hdepth,
      hfirst, ih hrest.symm]

theorem reasons_returned (depth : Nat) (above : List (List Char)) (last : List Char) :
    reasons k depth (above.map returned ++ [last]) = reasons k depth (above ++ [last]) := by
  apply reasons_congr
  rw [List.map_append, List.map_append, List.map_map]
  exact congrArg (· ++ _) (List.map_congr_left fun l _ => strip_returned l)

/-- Where the matches are, and why, depends on the reasons alone. -/
theorem places_matchesFrom (n : Nat) (marked : List (List Char × Option Reason)) :
    (matchesFrom n marked).map (fun m => (m.line, m.reason)) =
      ((marked.map (·.2)).zipIdx n).filterMap fun (reason, number) => reason.map (number, ·) := by
  rw [matchesFrom_eq, List.map_filterMap, List.zipIdx_map, List.filterMap_map]
  refine congrArg (List.filterMap · _) (funext fun p => ?_)
  rw [Option.map_map]
  rfl

/-! ## Removal -/

/-- If the last line is kept, the change of the line endings changes the lines above it, and no reason. -/
theorem exists_marked (hlast : ∀ m ∈ scan k source, m.line ≠ (lines source).length) :
    ∃ marked last,
      (lines source).zip (reasons k 0 (lines source)) = marked ++ [(last, none)] ∧
      (lines (withReturns source)).zip (reasons k 0 (lines (withReturns source))) =
        marked.map (Prod.map returned id) ++ [(last, none)] := by
  obtain ⟨above, last, hlines⟩ :=
    (List.eq_nil_or_concat (lines source)).resolve_left (Text.splitLines_ne_nil _)
  rw [List.concat_eq_append] at hlines
  have hnone : reasonAt k (depthBehind k 0 above) last = none := by
    refine Classical.byContradiction fun hreason => ?_
    obtain ⟨m, hm, hnumber⟩ := (exists_mem_scan_iff hlines).mpr hreason
    apply hlast m hm
    rw [hlines, hnumber, List.length_append, List.length_singleton]
  have hreasons : reasons k 0 (above ++ [last]) = reasons k 0 above ++ [none] := by
    rw [reasons_append, reasons_cons, hnone]
    rfl
  have hlength : above.length = (reasons k 0 above).length := (length_reasons k 0 above).symm
  refine ⟨above.zip (reasons k 0 above), last, ?_, ?_⟩
  · rw [hlines, hreasons, List.zip_append hlength]
    rfl
  · rw [lines_withReturns hlines, reasons_returned, hreasons,
      List.zip_append (by rw [List.length_map, hlength]), List.zip_map_left]
    rfl

/-- The lines without a reason. -/
def keptOf (marked : List (List Char × Option Reason)) : List (List Char) :=
  (marked.filter fun m => m.2.isNone).map (·.1)

theorem keptOf_concat (marked : List (List Char × Option Reason)) (last : List Char) :
    keptOf (marked ++ [(last, none)]) = keptOf marked ++ [last] := by
  unfold keptOf
  rw [List.filter_append, List.map_append]
  rfl

theorem keptOf_returned (marked : List (List Char × Option Reason)) :
    keptOf (marked.map (Prod.map returned id)) = (keptOf marked).map returned := by
  unfold keptOf
  rw [List.filter_map, List.map_map, List.map_map]
  rfl

/-- Removal commutes with the change of the line endings, and finds the same lines for the same reasons, if
the last line is kept. Carriage returns that the text has of its own do no harm. -/
theorem remove_withReturns
    (hlast : ∀ m ∈ scan k source, m.line ≠ (lines source).length) :
    remove k (withReturns source) =
        ⟨withReturns (remove k source).source, (remove k source).removed⟩ ∧
      (scan k (withReturns source)).map (fun m => (m.line, m.reason)) =
        (scan k source).map (fun m => (m.line, m.reason)) := by
  obtain ⟨marked, last, hmarked, hmarked'⟩ := exists_marked hlast
  have hplaces : (scan k (withReturns source)).map (fun m => (m.line, m.reason)) =
      (scan k source).map (fun m => (m.line, m.reason)) := by
    rw [scan, scan, places_matchesFrom, places_matchesFrom, hmarked, hmarked', List.map_append,
      List.map_append, List.map_map]
    rfl
  have hremoved : (remove k (withReturns source)).removed = (remove k source).removed := by
    have hlengths := congrArg List.length hplaces
    rwa [List.length_map, List.length_map, ← removed_eq_length_scan, ← removed_eq_length_scan] at hlengths
  have hsource : (remove k (withReturns source)).source = withReturns (remove k source).source := by
    -- neither the mark nor a line holds a newline, so only the joints between the lines change
    have hfront : '\n' ∉ (splitMark source).1 := by
      rcases Text.splitMark_cases source with h | ⟨h, -⟩ <;> rw [h] <;> decide
    have hmark : (splitMark (withReturns source)).1 = (splitMark source).1 := by
      rw [splitMark_withReturns]
    have hline : ∀ m ∈ marked ++ [(last, none)], '\n' ∉ m.1 := fun m hm =>
      Text.newline_not_mem_of_mem_splitLines (List.of_mem_zip (hmarked ▸ hm)).1
    have hkept : ∀ l ∈ keptOf marked, '\n' ∉ l := by
      intro l hl
      obtain ⟨m, hm, rfl⟩ := List.mem_map.mp hl
      exact hline m (List.mem_append_left _ (List.mem_filter.mp hm).1)
    have hend : '\n' ∉ last := hline (last, none) (List.mem_append_right _ (List.mem_singleton_self _))
    rw [remove_of_marked hmark hmarked', remove_of_marked rfl hmarked, ← keptOf, ← keptOf,
      keptOf_concat, keptOf_concat, keptOf_returned, withReturns_append,
      withReturns_of_not_mem hfront, withReturns_joinLines hkept hend]
  exact ⟨by rw [← hremoved, ← hsource], hplaces⟩

/-- A call that goes on over the next line, which ends in two characters too. -/
theorem remove_withReturns_of_spread :
    (∀ m ∈ scan JavaScript.adapter.classifier "a();\nawait __FlakeMonster__(\n  1);\nb();\n".toList,
        m.line ≠ (lines "a();\nawait __FlakeMonster__(\n  1);\nb();\n".toList).length) ∧
      remove JavaScript.adapter.classifier
          (withReturns "a();\nawait __FlakeMonster__(\n  1);\nb();\n".toList) =
        ⟨"a();\r\nb();\r\n".toList, 2⟩ := by
  have hlast : ∀ m ∈ scan JavaScript.adapter.classifier
      "a();\nawait __FlakeMonster__(\n  1);\nb();\n".toList,
      m.line ≠ (lines "a();\nawait __FlakeMonster__(\n  1);\nb();\n".toList).length := by
    decide +kernel
  refine ⟨hlast, (remove_withReturns hlast).1.trans ?_⟩
  decide +kernel

end DelayInjection.Recovery
