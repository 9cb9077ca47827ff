import DelayInjection.Proofs.Text.Lines
import DelayInjection.Recovery

/-! Recovery line by line. As long as no delay call leaves a bracket open, the verdict on a line
depends on that line alone, and removal is a filter. -/

namespace DelayInjection.Recovery

/-- Why a line is taken out if no span is open before it. -/
def verdict (k : Classifier) (line : List Char) : Option Reason := classify k (Text.strip line)

/-- No span is open behind the line. -/
def Settled (k : Classifier) (line : List Char) : Prop :=
  ∀ reason ∈ verdict k line, carriesCall k (Text.strip line) reason = true →
    bracketDepth (Text.strip line) ≤ 0

/-- The line with the reason for which it is taken out, if it is. -/
def hit (k : Classifier) (line : List Char) : Option (Reason × List Char) :=
  (verdict k line).map (·, line)

/-- The empty line is clean. -/
theorem verdict_nil (k : Classifier) : verdict k [] = none := by
  have hstamp : Text.contains [] stamp.toList = false := by decide
  unfold verdict classify
  simp [Text.strip, hstamp, hasCall, callPrefixes, hasImportWord]

theorem settled_of_verdict_eq_none {k : Classifier} {line : List Char}
    (h : verdict k line = none) : Settled k line := by
  intro reason hr
  rw [h] at hr
  cases hr

theorem reasons_cons_of_settled {k : Classifier} {line : List Char} (h : Settled k line)
    (ls : List (List Char)) : reasons k 0 (line :: ls) = verdict k line :: reasons k 0 ls := by
  rw [reasons, if_pos rfl, ← verdict]
  cases hv : verdict k line with
  | none => rfl
  | some reason =>
    have hdepth : (if carriesCall k (Text.strip line) reason then
        (bracketDepth (Text.strip line)).toNat else 0) = 0 := by
      split
      next hc => exact Int.toNat_of_nonpos (h reason hv hc)
      next => rfl
    simp only [hdepth]

theorem reasons_of_settled {k : Classifier} {ls : List (List Char)}
    (h : ∀ l ∈ ls, Settled k l) : reasons k 0 ls = ls.map (verdict k) := by
  induction ls with
  | nil => rfl
  | cons l ls ih =>
    rw [reasons_cons_of_settled (h l List.mem_cons_self), List.map_cons,
      ih fun m hm => h m (List.mem_cons_of_mem _ hm)]

theorem length_reasons (k : Classifier) (depth : Nat) (ls : List (List Char)) :
    (reasons k depth ls).length = ls.length := by
  induction ls generalizing depth with
  | nil => rfl
  | cons l ls ih =>
    rw [reasons]
    split
    · split <;> simp [ih]
    · simp [ih]

/-! ## Scan and removal -/

theorem matchesFrom_content (n : Nat) (marked : List (List Char × Option Reason)) :
    (matchesFrom n marked).map (fun m => (m.reason, m.content)) =
      marked.filterMap fun (line, reason) => reason.map (·, line) := by
  induction marked generalizing n with
  | nil => rfl
  | cons m ms ih =>
    obtain ⟨line, reason⟩ := m
    cases reason with
    | none => exact ih (n + 1)
    | some reason =>
      rw [matchesFrom, List.map_cons, ih (n + 1)]
      rfl

/-- The matches are the lines with a reason, each under its number. -/
theorem matchesFrom_eq (n : Nat) (marked : List (List Char × Option Reason)) :
    matchesFrom n marked =
      (marked.zipIdx n).filterMap fun (m, i) => m.2.map fun reason => ⟨i, reason, m.1⟩ := by
  induction marked generalizing n with
  | nil => rfl
  | cons m ms ih =>
    obtain ⟨line, reason⟩ := m
    cases reason with
    | none => exact ih (n + 1)
    | some reason =>
      rw [matchesFrom, ih (n + 1)]
      rfl

/-- A match names the line that it shows. -/
theorem mem_matchesFrom_iff {n : Nat} {marked : List (List Char × Option Reason)}
    {m : RecoveryMatch} : m ∈ matchesFrom n marked ↔
      n ≤ m.line ∧ marked[m.line - n]? = some (m.content, some m.reason) := by
  rw [matchesFrom_eq, List.mem_filterMap, ← List.mk_mem_zipIdx_iff_le_and_getElem?_sub]
  constructor
  · rintro ⟨⟨⟨content, reason?⟩, i⟩, hmem, hmatch⟩
    obtain ⟨reason, rfl, rfl⟩ := Option.map_eq_some_iff.mp hmatch
    exact hmem
  · intro hmem
    exact ⟨_, hmem, rfl⟩

theorem getElem_of_mem_scan {k : Classifier} {source : List Char} {m : RecoveryMatch}
    (h : m ∈ scan k source) : 1 ≤ m.line ∧ (lines source)[m.line - 1]? = some m.content := by
  obtain ⟨hle, hget⟩ := mem_matchesFrom_iff.mp h
  refine ⟨hle, ?_⟩
  rw [List.getElem?_zip_eq_some] at hget
  exact hget.1

/-- Removal keeps the lines without a reason. -/
theorem remove_of_marked {k : Classifier} {source front : List Char}
    {marked : List (List Char × Option Reason)} (hmark : (Text.splitMark source).1 = front)
    (hmarked : (lines source).zip (reasons k 0 (lines source)) = marked) :
    remove k source = ⟨front ++ Text.joinLines ((marked.filter fun m => m.2.isNone).map (·.1)),
      marked.countP fun m => m.2.isSome⟩ := by
  have hlength := marked.length_eq_countP_add_countP fun m => m.2.isNone
  have hsome : (marked.countP fun m => ¬m.2.isNone = true) = marked.countP fun m => m.2.isSome :=
    List.countP_congr fun m _ => by cases m.2 <;> simp
  unfold remove
  rw [hmarked, hmark]
  dsimp only
  rw [← List.countP_eq_length_filter]
  congr 1
  omega

theorem filterMap_zip_verdict (k : Classifier) (ls : List (List Char)) :
    (ls.zip (ls.map (verdict k))).filterMap (fun (line, reason) => reason.map (·, line)) =
      ls.filterMap (hit k) := by
  induction ls with
  | nil => rfl
  | cons l ls ih =>
    rw [List.map_cons, List.zip_cons_cons, List.filterMap_cons, List.filterMap_cons, ih]
    rfl

theorem filter_zip_verdict (k : Classifier) (ls : List (List Char)) :
    ((ls.zip (ls.map (verdict k))).filter fun (_, reason) => reason.isNone).map (·.1) =
      ls.filter fun l => (verdict k l).isNone := by
  induction ls with
  | nil => rfl
  | cons l ls ih =>
    rw [List.map_cons, List.zip_cons_cons, List.filter_cons, List.filter_cons]
    cases hv : (verdict k l).isNone with
    | true => simp [hv, ih]
    | false => simp [hv, ih]

/-- A clean text is one of whose lines none is taken out. -/
theorem scan_eq_nil_iff {k : Classifier} {source : List Char} :
    scan k source = [] ↔ ∀ l ∈ lines source, verdict k l = none := by
  constructor
  · unfold scan
    generalize lines source = ls
    suffices ∀ n, matchesFrom n (ls.zip (reasons k 0 ls)) = [] → ∀ l ∈ ls, verdict k l = none from
      this 1
    induction ls with
    | nil => simp
    | cons l ls ih =>
      intro n h
      have hl : verdict k l = none := by
        cases hv : verdict k l with
        | none => rfl
        | some reason =>
          have hc : classify k (Text.strip l) = some reason := hv
          simp [reasons, hc, matchesFrom] at h
      rw [reasons_cons_of_settled (settled_of_verdict_eq_none hl), hl, List.zip_cons_cons,
        matchesFrom] at h
      intro m hm
      rcases List.mem_cons.mp hm with rfl | hm
      · exact hl
      · exact ih (n + 1) h m hm
  · intro h
    have hset : ∀ l ∈ lines source, Settled k l := fun l hl => settled_of_verdict_eq_none (h l hl)
    have hmatch := matchesFrom_content 1 ((lines source).zip (reasons k 0 (lines source)))
    rw [reasons_of_settled hset, filterMap_zip_verdict,
      List.filterMap_eq_nil_iff.mpr fun l hl => by simp [hit, h l hl]] at hmatch
    rw [scan, reasons_of_settled hset]
    exact List.map_eq_nil_iff.mp hmatch

/-! ## Lines sorted into kept and removed ones -/

/-- Of the lines, exactly `kept` stay and exactly `removed` go, each list in order, and no line
opens a span. -/
structure Sorts (k : Classifier) (ls kept : List (List Char))
    (removed : List (Reason × List Char)) : Prop where
  settled : ∀ l ∈ ls, Settled k l
  stay : (ls.filter fun l => (verdict k l).isNone) = kept
  go : ls.filterMap (hit k) = removed

namespace Sorts

variable {k : Classifier} {ls ms kept kept' : List (List Char)}
  {removed removed' : List (Reason × List Char)}

theorem append (h : Sorts k ls kept removed) (h' : Sorts k ms kept' removed') :
    Sorts k (ls ++ ms) (kept ++ kept') (removed ++ removed') where
  settled l hl := (List.mem_append.mp hl).elim (h.settled l) (h'.settled l)
  stay := by rw [List.filter_append, h.stay, h'.stay]
  go := by rw [List.filterMap_append, h.go, h'.go]

theorem of_kept (h : ∀ l ∈ ls, verdict k l = none) : Sorts k ls ls [] where
  settled l hl := settled_of_verdict_eq_none (h l hl)
  stay := List.filter_eq_self.mpr fun l hl => by simp [h l hl]
  go := List.filterMap_eq_nil_iff.mpr fun l hl => by simp [hit, h l hl]

theorem of_removed (h : ∀ r ∈ removed, verdict k r.2 = some r.1 ∧ Settled k r.2) :
    Sorts k (removed.map (·.2)) [] removed where
  settled l hl := by
    obtain ⟨r, hr, rfl⟩ := List.mem_map.mp hl
    exact (h r hr).2
  stay := List.filter_eq_nil_iff.mpr fun l hl => by
    obtain ⟨r, hr, rfl⟩ := List.mem_map.mp hl
    simp [(h r hr).1]
  go := by
    induction removed with
    | nil => rfl
    | cons r rs ih =>
      rw [List.map_cons, List.filterMap_cons, hit, (h r List.mem_cons_self).1, Option.map_some,
        ih fun q hq => h q (List.mem_cons_of_mem _ hq)]

theorem length_eq (h : Sorts k ls kept removed) : ls.length = kept.length + removed.length := by
  have hcount : ∀ ms : List (List Char), ms.length =
      (ms.filter fun l => (verdict k l).isNone).length + (ms.filterMap (hit k)).length := by
    intro ms
    induction ms with
    | nil => rfl
    | cons m ms ih =>
      rw [List.filter_cons, List.filterMap_cons, List.length_cons, ih]
      cases hv : verdict k m with
      | none => simp [hit, hv]; omega
      | some reason => simp [hit, hv]; omega
  rw [← h.stay, ← h.go]
  exact hcount ls

variable {source : List Char}

theorem scan_content (h : Sorts k (lines source) kept removed) :
    (scan k source).map (fun m => (m.reason, m.content)) = removed := by
  rw [scan, matchesFrom_content, reasons_of_settled h.settled, filterMap_zip_verdict, h.go]

theorem remove_eq (h : Sorts k (lines source) kept removed) :
    remove k source =
      ⟨(Text.splitMark source).1 ++ Text.joinLines kept, removed.length⟩ := by
  have hstay := filter_zip_verdict k (lines source)
  rw [h.stay] at hstay
  have hlen := congrArg List.length hstay
  rw [List.length_map] at hlen
  have htotal := h.length_eq
  unfold remove
  simp only [reasons_of_settled h.settled]
  rw [hstay, hlen]
  simp only [List.length_zip, List.length_map, Nat.min_self]
  rw [show (lines source).length - kept.length = removed.length by omega]

end Sorts

/-- A text in which nothing is found stays as it is. -/
theorem remove_of_scan_eq_nil {k : Classifier} {source : List Char} (h : scan k source = []) :
    remove k source = ⟨source, 0⟩ := by
  rw [(Sorts.of_kept (scan_eq_nil_iff.mp h)).remove_eq, lines, Text.joinLines_splitLines,
    Text.splitMark_append]
  rfl

/-! ## What removal leaves -/

/-- A line that is kept would be kept anywhere. -/
theorem verdict_of_kept {k : Classifier} {depth : Nat} {ls : List (List Char)} :
    ∀ p ∈ ls.zip (reasons k depth ls), p.2.isNone = true → verdict k p.1 = none := by
  induction ls generalizing depth with
  | nil => simp
  | cons l ls ih =>
    intro p hp hnone
    rw [reasons] at hp
    split at hp
    · split at hp
      next hclassify =>
        rcases List.mem_cons.mp hp with rfl | hp
        · exact hclassify
        · exact ih p hp hnone
      next =>
        rcases List.mem_cons.mp hp with rfl | hp
        · cases hnone
        · exact ih p hp hnone
    · rcases List.mem_cons.mp hp with rfl | hp
      · cases hnone
      · exact ih p hp hnone

theorem stamp_chars : stamp.toList ≠ [] ∧ '\n' ∉ stamp.toList ∧ Text.mark ∉ stamp.toList ∧
    ∀ c ∈ stamp.toList, Text.isBlank c = false := by
  have hnone : stamp.toList.any Text.isBlank = false := by decide
  refine ⟨by decide, by decide, by decide, fun c hc => ?_⟩
  simpa using List.any_eq_false.mp hnone c hc

theorem verdict_of_stamp {k : Classifier} {line : List Char} (h : stamp.toList <:+: line) : verdict k line = some .stamp := by
  obtain ⟨hne, -, -, hink⟩ := stamp_chars
  rw [verdict, classify, if_pos (Text.contains_iff.mpr (Text.infix_strip hne hink h))]

/-- No stamp is left, whatever the text. -/
theorem not_contains_stamp_remove (k : Classifier) (source : List Char) :
    Text.contains (remove k source).source stamp.toList = false := by
  obtain ⟨hne, hnewline, hmark, -⟩ := stamp_chars
  rw [← Bool.not_eq_true, Text.contains_iff]
  intro hstamp
  have hfront : ∀ c ∈ (Text.splitMark source).1, c ∉ stamp.toList := by
    intro c hc
    rcases Text.splitMark_cases source with h | ⟨h, -⟩
    · rw [h, List.mem_singleton] at hc
      exact hc ▸ hmark
    · rw [h] at hc
      cases hc
  obtain ⟨line, hline, hstamp⟩ :=
    Text.exists_infix_of_joinLines hne hnewline (Text.infix_of_append hne hfront hstamp)
  obtain ⟨p, hp, rfl⟩ := List.mem_map.mp hline
  obtain ⟨hmem, hkept⟩ := List.mem_filter.mp hp
  have hverdict := verdict_of_kept p hmem hkept
  rw [verdict_of_stamp hstamp] at hverdict
  cases hverdict

end DelayInjection.Recovery
