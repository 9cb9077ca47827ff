import DelayInjection.JavaScript.Layout
import DelayInjection.Proofs.Recovery.Call

/-! Recovery as a walk over the lines that keeps the number of brackets a delay call has left open.
What it says of lines in a row is what it says of the first ones and then, at the depth that they
leave, of the others. A delay call that is closed on its line leaves open what the rest of that line
leaves open, comments and strings included. -/

namespace DelayInjection.Recovery

open Text (isBlank strip)

variable {k : Classifier} {depth : Nat} {line next : List Char} {source : List Char}

/-! ## One line -/

/-- Why a line is taken out at a depth. -/
def reasonAt (k : Classifier) (depth : Nat) (line : List Char) : Option Reason :=
  if depth = 0 then verdict k line else some .identifier

/-- The line is taken out because of a delay call. -/
structure Calls (k : Classifier) (line : List Char) (reason : Reason) : Prop where
  verdict_eq : verdict k line = some reason
  carries : carriesCall k (strip line) reason = true

/-- The depth behind a line. -/
def depthAfter (k : Classifier) (depth : Nat) (line : List Char) : Nat :=
  if depth = 0 then
    if (verdict k line).any (carriesCall k (strip line)) then (bracketDepth line).toNat else 0
  else (depth + bracketDepth line).toNat

theorem bracketStep_of_isBlank {c : Char} (h : isBlank c = true) : bracketStep c = 0 := by
  unfold bracketStep
  split
  next hopen => rcases hopen with rfl | rfl <;> cases h
  next =>
    split
    next hclose => rcases hclose with rfl | rfl <;> cases h
    next => rfl

theorem bracketDepth_of_blank {s : List Char} (h : ∀ c ∈ s, isBlank c = true) :
    bracketDepth s = 0 := by
  induction s with
  | nil => rfl
  | cons c s ih =>
    have hc := bracketStep_of_isBlank (h c List.mem_cons_self)
    have hs := ih fun d hd => h d (List.mem_cons_of_mem _ hd)
    show bracketStep c + bracketDepth s = 0
    rw [hc, hs]
    rfl

theorem bracketDepth_reverse (s : List Char) : bracketDepth s.reverse = bracketDepth s := by
  induction s with
  | nil => rfl
  | cons c s ih =>
    rw [List.reverse_cons, bracketDepth_append, ih]
    show bracketDepth s + (bracketStep c + 0) = bracketStep c + bracketDepth s
    omega

theorem bracketDepth_dropWhile (s : List Char) :
    bracketDepth (s.dropWhile isBlank) = bracketDepth s := by
  have hblank : bracketDepth (s.takeWhile isBlank) = 0 :=
    bracketDepth_of_blank fun c hc => List.all_eq_true.mp List.all_takeWhile c hc
  calc bracketDepth (s.dropWhile isBlank)
      = bracketDepth (s.takeWhile isBlank) + bracketDepth (s.dropWhile isBlank) := by
        rw [hblank, Int.zero_add]
    _ = bracketDepth s := by rw [← bracketDepth_append, List.takeWhile_append_dropWhile]

/-- Blanks around a line open and close nothing. -/
@[simp] theorem bracketDepth_strip (s : List Char) : bracketDepth (strip s) = bracketDepth s := by
  rw [strip, bracketDepth_reverse, bracketDepth_dropWhile, bracketDepth_reverse,
    bracketDepth_dropWhile]

/-! ## Lines in a row -/

/-- The depth behind all lines. -/
def depthBehind (k : Classifier) (depth : Nat) (ls : List (List Char)) : Nat :=
  ls.foldl (depthAfter k) depth

theorem reasons_cons (k : Classifier) (depth : Nat) (line : List Char) (ls : List (List Char)) :
    reasons k depth (line :: ls) =
      reasonAt k depth line :: reasons k (depthAfter k depth line) ls := by
  rw [reasons, reasonAt, depthAfter, bracketDepth_strip, ← verdict]
  by_cases hdepth : depth = 0
  · -- only a line that goes can open brackets, so the verdict decides the depth behind it too
    simp only [if_pos hdepth]
    cases hv : verdict k line with
    | none => rfl
    | some reason => rfl
  · simp only [if_neg hdepth]

theorem reasons_append (k : Classifier) (depth : Nat) (ls ms : List (List Char)) :
    reasons k depth (ls ++ ms) = reasons k depth ls ++ reasons k (depthBehind k depth ls) ms := by
  induction ls generalizing depth with
  | nil => rfl
  | cons l ls ih =>
    rw [List.cons_append, reasons_cons, reasons_cons, ih, List.cons_append]
    rfl

/-- A line is found if there is a reason for it at the depth that the lines above leave. -/
theorem exists_mem_scan_iff {above below : List (List Char)}
    (hlines : lines source = above ++ line :: below) :
    (∃ m ∈ scan k source, m.line = above.length + 1) ↔
      reasonAt k (depthBehind k 0 above) line ≠ none := by
  have hreason : (reasons k 0 (lines source))[above.length]? =
      some (reasonAt k (depthBehind k 0 above) line) := by
    rw [hlines, reasons_append, reasons_cons,
      List.getElem?_append_right (Nat.le_of_eq (length_reasons k 0 above)), length_reasons,
      Nat.sub_self]
    rfl
  have hcontent : (lines source)[above.length]? = some line := by simp [hlines]
  constructor
  · rintro ⟨m, hm, hnumber⟩
    obtain ⟨-, hget⟩ := mem_matchesFrom_iff.mp hm
    rw [hnumber, Nat.add_sub_cancel, List.getElem?_zip_eq_some, hreason] at hget
    rw [Option.some.inj hget.2]
    exact Option.some_ne_none m.reason
  · intro hne
    obtain ⟨reason, hsome⟩ := Option.ne_none_iff_exists'.mp hne
    refine ⟨⟨above.length + 1, reason, line⟩, mem_matchesFrom_iff.mpr ⟨Nat.le_add_left 1 _, ?_⟩, rfl⟩
    rw [Nat.add_sub_cancel, List.getElem?_zip_eq_some]
    exact ⟨hcontent, hreason.trans (congrArg some hsome)⟩

/-! ## Closed calls -/

/-- A delay call of a line together with a parenthesis behind it, which closes its arguments. -/
structure ClosedCall (k : Classifier) (line : List Char) where
  before : List Char
  words : List Char
  arguments : List Char
  after : List Char
  line_eq : strip line = before ++ words ++ '(' :: arguments ++ ')' :: after
  call_eq : call? k.identifier.toList (words ++ ['(']) = some []

namespace ClosedCall

/-- The line without the two parentheses of the call. -/
def rest (c : ClosedCall k line) : List Char := c.before ++ c.words ++ c.arguments ++ c.after

theorem bracketDepth_eq (c : ClosedCall k line) : bracketDepth line = bracketDepth c.rest := by
  have hopen : ∀ s, bracketDepth ('(' :: s) = 1 + bracketDepth s := fun _ => rfl
  have hclose : ∀ s, bracketDepth (')' :: s) = -1 + bracketDepth s := fun _ => rfl
  rw [← bracketDepth_strip, c.line_eq, rest]
  simp only [bracketDepth_append, hopen, hclose, List.append_assoc, List.cons_append]
  omega

end ClosedCall

/-- A line with a closed delay call leaves open what the rest of it leaves open. Behind it a line goes
for a reason of its own, or together with the call if that rest opens more brackets than it closes. -/
theorem found_behind_closed_call {above below : List (List Char)} {reason : Reason}
    (hlines : lines source = above ++ line :: next :: below) (hopen : depthBehind k 0 above = 0)
    (hcalls : Calls k line reason) (c : ClosedCall k line) :
    depthBehind k 0 (above ++ [line]) = (bracketDepth c.rest).toNat ∧
      ((∃ m ∈ scan k source, m.line = above.length + 2) ↔
        verdict k next ≠ none ∨ 0 < bracketDepth c.rest) := by
  have hdepth : depthBehind k 0 (above ++ [line]) = (bracketDepth c.rest).toNat := by
    unfold depthBehind at hopen ⊢
    rw [List.foldl_append, hopen, List.foldl_cons, List.foldl_nil, depthAfter, if_pos rfl,
      hcalls.verdict_eq, Option.any_some, if_pos hcalls.carries, c.bracketDepth_eq]
  have hscan := @exists_mem_scan_iff k next source (above ++ [line]) below (by simp [hlines])
  rw [List.length_append, List.length_singleton, Nat.add_assoc] at hscan
  refine ⟨hdepth, ?_⟩
  rw [hscan, hdepth, reasonAt]
  -- a depth below zero is none, so only a positive rest changes what happens to the next line
  by_cases hrest : 0 < bracketDepth c.rest
  · rw [if_neg (by omega)]
    simp [hrest]
  · rw [if_pos (by omega)]
    simp [hrest]

/-- Brackets in a comment do no harm if they are closed there, and neither do open ones further up. -/
theorem found_behind_closed_call_of_comment :
    Calls JavaScript.adapter.classifier "await __FlakeMonster__(5); // (see)".toList .identifier ∧
      ¬∃ m ∈ scan JavaScript.adapter.classifier
        "run(\nawait __FlakeMonster__(5); // (see)\nkeep());".toList, m.line = 3 := by
  have hcalls : Calls JavaScript.adapter.classifier "await __FlakeMonster__(5); // (see)".toList
      .identifier := ⟨by decide +kernel, by decide +kernel⟩
  have hopen : depthBehind JavaScript.adapter.classifier 0 ["run(".toList] = 0 := by decide +kernel
  obtain ⟨c, hrest⟩ : ∃ c : ClosedCall JavaScript.adapter.classifier
      "await __FlakeMonster__(5); // (see)".toList, bracketDepth c.rest = 0 := by
    refine ⟨⟨[], "await __FlakeMonster__".toList, ['5'], "; // (see)".toList, ?_, ?_⟩, ?_⟩ <;>
      decide +kernel
  have hfound := (@found_behind_closed_call _ _ "keep());".toList
    "run(\nawait __FlakeMonster__(5); // (see)\nkeep());".toList ["run(".toList] [] _
    (by decide +kernel) hopen hcalls c).2
  have hclean : verdict JavaScript.adapter.classifier "keep());".toList = none := by decide +kernel
  refine ⟨hcalls, ?_⟩
  rw [show 3 = ["run(".toList].length + 2 from rfl, hfound, hclean, hrest]
  simp

/-- A bracket in a comment behind a closed delay call takes the next line along. -/
theorem swallowed_behind_closed_call :
    ∃ c : ClosedCall JavaScript.adapter.classifier "await __FlakeMonster__(5); // see (".toList,
      c.arguments = ['5'] ∧
      Calls JavaScript.adapter.classifier "await __FlakeMonster__(5); // see (".toList .identifier ∧
      verdict JavaScript.adapter.classifier "keep();".toList = none ∧
      remove JavaScript.adapter.classifier "await __FlakeMonster__(5); // see (\nkeep();".toList =
        ⟨[], 2⟩ := by
  refine ⟨⟨[], "await __FlakeMonster__".toList, ['5'], "; // see (".toList, ?_, ?_⟩, rfl,
    ⟨?_, ?_⟩, ?_, ?_⟩ <;> decide +kernel

end DelayInjection.Recovery
