import DelayInjection.JavaScript.Layout
import DelayInjection.Proofs.Recovery.Span

/-! Recovery of a text that was edited or reformatted behind an injection. Such a text is a sequence of
blocks in any order: lines to be kept, markers, imports of the support module, delay calls that close on
their line, and delay calls that go on over further lines, whatever these hold. Each block is recovered
at depth zero and leaves depth zero, so recovery takes them one by one. -/

namespace DelayInjection.Recovery

open Text (joinLines mark splitLines splitMark strip)

variable {k : Classifier} {depth : Nat} {source : List Char}

/-- The depth that lines add up to. -/
def runningDepth (ls : List (List Char)) : Int := bracketDepth ls.flatten

@[simp] theorem runningDepth_nil : runningDepth [] = 0 := rfl

@[simp] theorem runningDepth_cons (line : List Char) (ls : List (List Char)) :
    runningDepth (line :: ls) = bracketDepth line + runningDepth ls :=
  bracketDepth_append line ls.flatten

@[simp] theorem runningDepth_append (ls ms : List (List Char)) :
    runningDepth (ls ++ ms) = runningDepth ls + runningDepth ms := by
  unfold runningDepth
  rw [List.flatten_append, bracketDepth_append]

/-- What recovery can meet at depth zero. -/
inductive Block (k : Classifier) where
  /-- A line that no rule takes out. -/
  | clean (line : List Char) (h : verdict k line = none)
  /-- The stamp, and no delay call behind the comment that holds it. -/
  | marker (line : List Char) (h : verdict k line = some .stamp)
      (hcall : stampCarriesCall k (strip line) = false)
  /-- An import of the support module. -/
  | support (line : List Char) (h : verdict k line = some .supportImport)
  /-- A delay call, perhaps behind the stamp, that leaves no bracket open. -/
  | call (line : List Char) (reason : Reason) (h : Calls k line reason)
      (hdepth : bracketDepth line ≤ 0)
  /-- A delay call, perhaps behind the stamp, whose brackets are all closed first on the last line. -/
  | spread (first : List Char) (inner : List (List Char)) (last : List Char) (reason : Reason)
      (h : Calls k first reason)
      (hopen : ∀ n ≤ inner.length, 0 < runningDepth (first :: inner.take n))
      (hclose : runningDepth (first :: inner ++ [last]) ≤ 0)

namespace Block

/-- The lines of a block, each with the reason for which it goes. -/
def marked : Block k → List (List Char × Option Reason)
  | clean line _ => [(line, none)]
  | marker line _ _ => [(line, some .stamp)]
  | support line _ => [(line, some .supportImport)]
  | call line reason _ _ => [(line, some reason)]
  | spread first inner last reason _ _ _ =>
    (first, some reason) :: (inner ++ [last]).map fun line => (line, some .identifier)

def lines (b : Block k) : List (List Char) := b.marked.map (·.1)

/-- The lines of a block that stay. -/
def kept : Block k → List (List Char)
  | clean line _ => [line]
  | _ => []

theorem lines_ne_nil (b : Block k) : b.lines ≠ [] := by cases b <;> simp [lines, marked]

theorem kept_eq (b : Block k) : b.kept = (b.marked.filter fun m => m.2.isNone).map (·.1) := by
  cases b with
  | clean => rfl
  | marker => rfl
  | support => rfl
  | call => rfl
  | spread first inner last =>
    have hnone : ((inner ++ [last]).map fun l => (l, some Reason.identifier)).filter
        (fun m => m.2.isNone) = [] := by
      simp [List.filter_eq_nil_iff]
    show [] = _
    rw [marked, List.filter_cons_of_neg (by simp), hnone]
    rfl

end Block

/-! ## One block -/

/-- While the depth stays positive every line goes, and so does the one that closes it. -/
theorem reasons_spread {inner : List (List Char)} {last : List Char}
    (hopen : ∀ n ≤ inner.length, 0 < depth + runningDepth (inner.take n))
    (hclose : depth + runningDepth inner + bracketDepth last ≤ 0) :
    reasons k depth (inner ++ [last]) = (inner ++ [last]).map (fun _ => some .identifier) ∧
      depthBehind k depth (inner ++ [last]) = 0 := by
  -- no line is read yet: the bound says that a bracket is open, and each line passes this on
  have hpos : 0 < (depth : Int) := by simpa using hopen 0 (Nat.zero_le _)
  induction inner generalizing depth with
  | nil =>
    have hdepth : depthAfter k depth last = 0 := by
      rw [runningDepth_nil] at hclose
      rw [depthAfter, if_neg (by omega)]
      omega
    rw [List.nil_append, reasons_cons, reasonAt, if_neg (by omega)]
    exact ⟨rfl, hdepth⟩
  | cons line inner ih =>
    have hline : 0 < (depth : Int) + bracketDepth line := by simpa using hopen 1 (by simp)
    have hdepth : (depthAfter k depth line : Int) = depth + bracketDepth line := by
      rw [depthAfter, if_neg (by omega), Int.toNat_of_nonneg (by omega)]
    obtain ⟨hreasons, hbehind⟩ := @ih (depthAfter k depth line)
      (fun n hn => by
        have hnext := hopen (n + 1) (Nat.succ_le_succ hn)
        rw [List.take_succ_cons, runningDepth_cons] at hnext
        omega)
      (by rw [runningDepth_cons] at hclose; omega) (by omega)
    rw [List.cons_append, reasons_cons, reasonAt, if_neg (by omega), hreasons]
    exact ⟨rfl, hbehind⟩

/-- A block is recovered as it is marked, and no bracket is open behind it. -/
theorem reasons_block (b : Block k) :
    reasons k 0 b.lines = b.marked.map (·.2) ∧ depthBehind k 0 b.lines = 0 := by
  have hone : ∀ line, reasons k 0 [line] = [verdict k line] := fun line => by
    rw [reasons_cons]
    rfl
  have hdepth : ∀ line, depthBehind k 0 [line] =
      if (verdict k line).any (carriesCall k (strip line)) then (bracketDepth line).toNat else 0 :=
    fun line => rfl
  cases b with
  | clean line h =>
    refine ⟨(hone line).trans (by rw [h]; rfl), (hdepth line).trans ?_⟩
    rw [h]
    rfl
  | marker line h hcall =>
    refine ⟨(hone line).trans (by rw [h]; rfl), (hdepth line).trans ?_⟩
    rw [h, Option.any_some, show carriesCall k (strip line) .stamp = false from hcall]
    rfl
  | support line h =>
    refine ⟨(hone line).trans (by rw [h]; rfl), (hdepth line).trans ?_⟩
    rw [h]
    rfl
  | call line reason h hclosed =>
    refine ⟨(hone line).trans (by rw [h.verdict_eq]; rfl), (hdepth line).trans ?_⟩
    rw [Int.toNat_of_nonpos hclosed]
    exact ite_self 0
  | spread first inner last reason h hopen hclose =>
    have hfirst : 0 < bracketDepth first := by simpa using hopen 0 (Nat.zero_le _)
    have hafter : (depthAfter k 0 first : Int) = bracketDepth first := by
      rw [depthAfter, if_pos rfl, h.verdict_eq, Option.any_some, if_pos h.carries,
        Int.toNat_of_nonneg (by omega)]
    have hlines : (Block.spread first inner last reason h hopen hclose).lines =
        first :: (inner ++ [last]) := by
      simp [Block.lines, Block.marked, Function.comp_def]
    have htotal : runningDepth (first :: inner ++ [last]) =
        bracketDepth first + runningDepth inner + bracketDepth last := by
      simp [Int.add_assoc]
    obtain ⟨hreasons, hbehind⟩ := @reasons_spread k (depthAfter k 0 first) inner last
      (fun n hn => by rw [hafter, ← runningDepth_cons]; exact hopen n hn)
      (by rw [hafter, ← htotal]; exact hclose)
    rw [hlines, reasons_cons, reasonAt, if_pos rfl, h.verdict_eq, hreasons]
    refine ⟨?_, hbehind⟩
    rw [Block.marked, List.map_cons, List.map_map]
    rfl

/-! ## All blocks -/

theorem reasons_blocks (blocks : List (Block k)) :
    reasons k 0 (blocks.flatMap Block.lines) = (blocks.flatMap Block.marked).map (·.2) := by
  induction blocks with
  | nil => rfl
  | cons b blocks ih =>
    obtain ⟨hreasons, hdepth⟩ := reasons_block b
    rw [List.flatMap_cons, List.flatMap_cons, reasons_append, hdepth, ih, hreasons, List.map_append]

section

variable {front : List Char} {blocks : List (Block k)}

theorem flatMap_kept (blocks : List (Block k)) : blocks.flatMap Block.kept =
    ((blocks.flatMap Block.marked).filter fun m => m.2.isNone).map (·.1) := by
  rw [List.filter_flatMap, List.map_flatMap]
  exact congrArg (List.flatMap · blocks) (funext Block.kept_eq)

theorem flatMap_lines (blocks : List (Block k)) :
    blocks.flatMap Block.lines = (blocks.flatMap Block.marked).map (·.1) := by
  rw [List.map_flatMap]
  rfl

theorem recover_blocks_of_ne_nil (hne : blocks ≠ [])
    (hlines : ∀ line ∈ blocks.flatMap Block.lines, '\n' ∉ line)
    (hfront : front = [mark] ∨
      front = [] ∧ ∀ line ∈ (blocks.flatMap Block.lines).head?, line.head? ≠ some mark) :
    remove k (front ++ joinLines (blocks.flatMap Block.lines)) =
        ⟨front ++ joinLines (blocks.flatMap Block.kept),
          (blocks.flatMap Block.marked).countP fun m => m.2.isSome⟩ ∧
      scan k (front ++ joinLines (blocks.flatMap Block.lines)) =
        ((blocks.flatMap Block.marked).zipIdx 1).filterMap fun (m, number) =>
          m.2.map fun reason => ⟨number, reason, m.1⟩ := by
  have hsplit : splitMark (front ++ joinLines (blocks.flatMap Block.lines)) =
      (front, joinLines (blocks.flatMap Block.lines)) := by
    refine Text.splitMark_of_cases (hfront.imp_right fun ⟨hnil, hfirst⟩ => ⟨hnil, ?_⟩)
    exact Text.head?_joinLines_ne_mark hfirst
  have hls : lines (front ++ joinLines (blocks.flatMap Block.lines)) =
      blocks.flatMap Block.lines := by
    obtain ⟨b, bs, rfl⟩ := List.exists_cons_of_ne_nil hne
    have hcons : (b :: bs).flatMap Block.lines ≠ [] := by simp [b.lines_ne_nil]
    rw [lines, hsplit, Text.splitLines_joinLines hcons hlines]
  have hzip : (lines (front ++ joinLines (blocks.flatMap Block.lines))).zip
      (reasons k 0 (lines (front ++ joinLines (blocks.flatMap Block.lines)))) =
      blocks.flatMap Block.marked := by
    rw [hls, reasons_blocks, flatMap_lines]
    exact (List.zip_of_prod rfl rfl).symm
  constructor
  · rw [remove_of_marked (congrArg Prod.fst hsplit) hzip, flatMap_kept]
  · rw [scan, hzip, matchesFrom_eq]

/-- From blocks in any order, with a mark in front or not, recovery takes out all lines but the clean
ones, and it finds each of them under its number. -/
theorem recover_blocks (blocks : List (Block k))
    (hlines : ∀ line ∈ blocks.flatMap Block.lines, '\n' ∉ line)
    (hfront : front = [mark] ∨
      front = [] ∧ ∀ line ∈ (blocks.flatMap Block.lines).head?, line.head? ≠ some mark) :
    remove k (front ++ joinLines (blocks.flatMap Block.lines)) =
        ⟨front ++ joinLines (blocks.flatMap Block.kept),
          (blocks.flatMap Block.marked).countP fun m => m.2.isSome⟩ ∧
      scan k (front ++ joinLines (blocks.flatMap Block.lines)) =
        ((blocks.flatMap Block.marked).zipIdx 1).filterMap fun (m, number) =>
          m.2.map fun reason => ⟨number, reason, m.1⟩ := by
  by_cases hne : blocks = []
  · -- the empty text is one line, and a clean one
    subst hne
    refine @recover_blocks_of_ne_nil k front [.clean [] (verdict_nil k)] (by simp) ?_ ?_
    · simp [Block.lines, Block.marked]
    · exact hfront.imp_right fun ⟨hnil, _⟩ => ⟨hnil, by simp [Block.lines, Block.marked]⟩
  · exact recover_blocks_of_ne_nil hne hlines hfront

end

/-- A call behind the stamp, spread over a line that looks like an import, between two lines of code. -/
def aroundSpread : List (Block JavaScript.adapter.classifier) := [
  .clean "run();".toList (by decide +kernel),
  .spread "/* jt92-se2j! */ await __FlakeMonster__(".toList
    ["import 'flake-monster.runtime'".toList] [')'] .stamp
    ⟨by decide +kernel, by decide +kernel⟩ (by decide) (by decide),
  .clean "end();".toList (by decide +kernel)]

theorem recover_aroundSpread :
    remove JavaScript.adapter.classifier (mark :: joinLines (aroundSpread.flatMap Block.lines)) =
      ⟨"\uFEFFrun();\nend();".toList, 3⟩ ∧
    scan JavaScript.adapter.classifier (mark :: joinLines (aroundSpread.flatMap Block.lines)) =
      [⟨2, .stamp, "/* jt92-se2j! */ await __FlakeMonster__(".toList⟩,
        ⟨3, .identifier, "import 'flake-monster.runtime'".toList⟩, ⟨4, .identifier, [')']⟩] := by
  obtain ⟨hremove, hscan⟩ := @recover_blocks _ [mark] aroundSpread (by decide) (.inl rfl)
  refine ⟨hremove.trans ?_, hscan.trans ?_⟩ <;> decide +kernel

end DelayInjection.Recovery
