import DelayInjection.Proofs.Recovery.Line

/-! The preview of a recovery beside the recovery itself. The matches stand in the order of their lines,
each shows its line as it is, and the lines that they name are the ones that removal takes out. -/

namespace DelayInjection.Recovery

variable {k : Classifier} {source : List Char} {marked : List (List Char × Option Reason)}

/-- The lines, counted from one, that no match names. -/
def unlisted (found : List RecoveryMatch) (ls : List (List Char)) : List (List Char) :=
  ((ls.zipIdx 1).filter fun (_, number) => number ∉ found.map (·.line)).map (·.1)

theorem pairwise_matchesFrom (n : Nat) (marked : List (List Char × Option Reason)) :
    (matchesFrom n marked).Pairwise fun m m' => m.line < m'.line := by
  have hnumbers : (marked.zipIdx n).Pairwise fun p p' => p.2 < p'.2 := by
    have hrange := @List.pairwise_lt_range' n marked.length 1
    rw [← List.zipIdx_map_snd, List.pairwise_map] at hrange
    exact hrange
  have hline : ∀ {p : (List Char × Option Reason) × Nat} {m : RecoveryMatch},
      (p.1.2.map fun reason => (⟨p.2, reason, p.1.1⟩ : RecoveryMatch)) = some m → m.line = p.2 := by
    intro p m hm
    obtain ⟨reason, -, rfl⟩ := Option.map_eq_some_iff.mp hm
    rfl
  rw [matchesFrom_eq, List.pairwise_filterMap]
  refine hnumbers.imp fun hlt m hm m' hm' => ?_
  rw [hline hm, hline hm']
  exact hlt

/-- What removal keeps is what the preview does not list. -/
theorem unlisted_matchesFrom (marked : List (List Char × Option Reason)) :
    unlisted (matchesFrom 1 marked) (marked.map (·.1)) =
      (marked.filter fun (_, reason) => reason.isNone).map (·.1) := by
  -- a number is listed exactly if its line has a reason
  have hlisted : ∀ p ∈ marked.zipIdx 1, p.2 ∉ (matchesFrom 1 marked).map (·.line) ↔ p.1.2.isNone := by
    rintro ⟨⟨line, reason⟩, number⟩ hp
    have hat := List.mk_mem_zipIdx_iff_le_and_getElem?_sub.mp hp
    rw [List.mem_map]
    cases reason with
    | none =>
      refine iff_of_true ?_ rfl
      rintro ⟨m, hm, rfl⟩
      have hget := (mem_matchesFrom_iff.mp hm).2
      rw [hat.2] at hget
      cases hget
    | some reason =>
      refine iff_of_false (fun hnot => hnot ?_) (by simp)
      exact ⟨⟨number, reason, line⟩, mem_matchesFrom_iff.mpr hat, rfl⟩
  have hfilter : (marked.zipIdx 1).filter (fun p => p.2 ∉ (matchesFrom 1 marked).map (·.line)) =
      (marked.zipIdx 1).filter fun p => p.1.2.isNone :=
    List.filter_congr fun p hp => Bool.eq_iff_iff.mpr (decide_eq_true_iff.trans (hlisted p hp))
  have hkept : ((marked.zipIdx 1).filter fun p => p.1.2.isNone).map (·.1) =
      marked.filter fun p => p.2.isNone := by
    have hfst := congrArg (List.filter fun p => p.2.isNone) (List.zipIdx_map_fst 1 marked)
    rw [List.filter_map] at hfst
    exact hfst
  calc unlisted (matchesFrom 1 marked) (marked.map (·.1))
      = (((marked.zipIdx 1).filter fun p => p.2 ∉ (matchesFrom 1 marked).map (·.line)).map (·.1)).map
          (·.1) := by
        rw [unlisted, List.zipIdx_map, List.filter_map, List.map_map, List.map_map]
        rfl
    _ = _ := by rw [hfilter, hkept]

/-- The text without the lines that matches name. -/
def withoutLines (found : List RecoveryMatch) (source : List Char) : List Char :=
  (Text.splitMark source).1 ++ Text.joinLines (unlisted found (lines source))

theorem withoutLines_nil (source : List Char) : withoutLines [] source = source := by
  have hall : unlisted [] (lines source) = lines source := by
    rw [unlisted, List.filter_eq_self.mpr (by simp), List.zipIdx_map_fst]
  rw [withoutLines, hall, lines, Text.joinLines_splitLines, Text.splitMark_append]

/-- Removal leaves what the preview does not list. -/
theorem source_remove (k : Classifier) (source : List Char) :
    (remove k source).source = withoutLines (scan k source) source := by
  have hmarked : ((lines source).zip (reasons k 0 (lines source))).map (·.1) = lines source :=
    List.map_fst_zip (Nat.le_of_eq (length_reasons k 0 _).symm)
  have hunlisted := unlisted_matchesFrom ((lines source).zip (reasons k 0 (lines source)))
  rw [hmarked] at hunlisted
  rw [withoutLines, scan, hunlisted]
  rfl

/-- Removal takes out as many lines as the preview lists. -/
theorem removed_eq_length_scan (k : Classifier) (source : List Char) :
    (remove k source).removed = (scan k source).length := by
  rw [remove_of_marked rfl rfl, scan, ← List.length_map (fun m : RecoveryMatch => (m.reason, m.content)),
    matchesFrom_content, List.length_filterMap_eq_countP]
  exact congrArg (List.countP · _) (funext fun p => Option.isSome_map.symm)

/-- The preview names its lines from the top down and shows each of them as it is. Removal takes out as many
lines as the preview lists, and leaves the others in their order behind the mark. -/
theorem remove_eq_unlisted (k : Classifier) (source : List Char) :
    (scan k source).Pairwise (fun m m' => m.line < m'.line) ∧
      (lines source).length = (Text.splitMark source).2.count '\n' + 1 ∧
      (∀ m ∈ scan k source, 1 ≤ m.line ∧ m.line ≤ (lines source).length ∧
        (lines source)[m.line - 1]? = some m.content) ∧
      (remove k source).removed = (scan k source).length ∧
      (remove k source).source =
        (Text.splitMark source).1 ++ Text.joinLines (unlisted (scan k source) (lines source)) ∧
      (scan k source = [] ↔ remove k source = ⟨source, 0⟩) := by
  refine ⟨pairwise_matchesFrom 1 _, Text.length_splitLines _, fun m hm => ?_,
    removed_eq_length_scan k source, source_remove k source, ?_⟩
  · obtain ⟨hfirst, hline⟩ := getElem_of_mem_scan hm
    have hlt := (List.getElem?_eq_some_iff.mp hline).1
    exact ⟨hfirst, by omega, hline⟩
  · refine ⟨remove_of_scan_eq_nil, fun h => ?_⟩
    have hnone := removed_eq_length_scan k source
    rw [h] at hnone
    exact List.length_eq_zero_iff.mp hnone.symm

end DelayInjection.Recovery
