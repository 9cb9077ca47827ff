import DelayInjection.JavaScript.Scan
import DelayInjection.Proofs.Text.Lines
import DelayInjection.Proofs.Text.Utf8
import Mathlib.Data.List.Basic

/-! How a cursor moves over a text: forward, and by as many bytes as the characters that it passes take. -/

namespace DelayInjection.JavaScript

open Text (Inked lastLine)
open Text.Utf8 (encode)

namespace Cursor

/-- The second cursor stands behind the text that the first one has in front of it. -/
def Passes (passed : List Char) (c c' : Cursor) : Prop :=
  c.rest = passed ++ c'.rest ∧ c'.place.offset = c.place.offset + (encode passed).length

def Reaches (c c' : Cursor) : Prop := ∃ passed, Passes passed c c'

/-- Something other than blanks was passed on the line that the second cursor stands in. -/
def Inks (c c' : Cursor) : Prop := ∃ passed, Passes passed c c' ∧ Inked (lastLine passed)

variable {a b c : Cursor} {s t : List Char} {n : Nat}

theorem Passes.append (h : Passes s a b) (k : Passes t b c) : Passes (s ++ t) a c := by
  refine ⟨by rw [h.1, k.1, List.append_assoc], ?_⟩
  rw [k.2, h.2, Text.Utf8.encode_append, List.length_append, Nat.add_assoc]

theorem Reaches.refl : c.Reaches c := ⟨[], rfl, rfl⟩

@[grind →] theorem Reaches.trans (h : a.Reaches b) (k : b.Reaches c) : a.Reaches c := by
  obtain ⟨s, hs⟩ := h
  obtain ⟨t, ht⟩ := k
  exact ⟨s ++ t, hs.append ht⟩

@[grind →] theorem Inks.reaches (h : a.Inks b) : a.Reaches b := by
  obtain ⟨s, hs, -⟩ := h
  exact ⟨s, hs⟩

@[grind →] theorem Reaches.inks (h : a.Reaches b) (k : b.Inks c) : a.Inks c := by
  obtain ⟨s, hs⟩ := h
  obtain ⟨t, ht, hink⟩ := k
  refine ⟨s ++ t, hs.append ht, ?_⟩
  by_cases hnewline : '\n' ∈ t
  · rwa [Text.lastLine_append_of_mem hnewline]
  · -- the line of the second cursor began earlier, and what was passed before stands on it too
    have hwhole : lastLine t = t := by
      have := Text.lastLine_append_of_not_mem (s := []) hnewline
      rwa [List.nil_append] at this
    rw [hwhole] at hink
    obtain ⟨x, hx, hblank⟩ := hink
    rw [Text.lastLine_append_of_not_mem hnewline]
    exact ⟨x, List.mem_append_right _ hx, hblank⟩

/-! ## Steps -/

theorem length_encodeChar (x : Char) : (Text.Utf8.encodeChar x).length = x.utf8Size := by
  simp [Text.Utf8.encodeChar]

theorem offset_step (p : Place) (x : Char) : (step p x).offset = p.offset + x.utf8Size := by
  unfold step
  split
  next h => rw [h]; rfl
  next => rfl

theorem passes_advance (n : Nat) (c : Cursor) : Passes (c.rest.take n) c (c.advance n) := by
  induction n generalizing c with
  | zero => exact ⟨rfl, rfl⟩
  | succ n ih =>
    obtain ⟨rest, p⟩ := c
    cases rest with
    | nil => simpa [advance] using ih ⟨[], p⟩
    | cons x rest =>
      obtain ⟨hrest, hoffset⟩ := ih ⟨rest, step p x⟩
      refine ⟨by simpa [advance] using hrest, ?_⟩
      rw [advance, hoffset, offset_step, List.take_succ_cons, Text.Utf8.encode_cons,
        List.length_append, length_encodeChar, Nat.add_assoc]

theorem rest_advance (n : Nat) (c : Cursor) : (c.advance n).rest = c.rest.drop n := by
  have h := (passes_advance n c).1
  conv_lhs at h => rw [← List.take_append_drop n c.rest]
  exact (List.append_cancel_left h).symm

theorem reaches_advance (n : Nat) (c : Cursor) : c.Reaches (c.advance n) :=
  ⟨_, passes_advance n c⟩

theorem inks_advance (h : Inked (lastLine (c.rest.take n))) : c.Inks (c.advance n) :=
  ⟨_, passes_advance n c, h⟩

theorem reaches_skipGaps (c : Cursor) : c.Reaches c.skipGaps := reaches_advance _ c

theorem reaches_skipTrivia (operand : Bool) (fuel : Nat) (c : Cursor) :
    c.Reaches (c.skipTrivia operand fuel).2 := by
  induction fuel generalizing c with
  | zero => exact .refl
  | succ fuel ih =>
    rw [skipTrivia]
    split
    · exact reaches_skipGaps c
    · exact (reaches_skipGaps c).trans ((reaches_advance _ _).trans (ih _))

theorem kind_of_mem_skipTrivia {operand : Bool} {fuel : Nat} {c : Cursor} {t : Tree}
    (h : t ∈ (c.skipTrivia operand fuel).1) : t.kind = .comment := by
  induction fuel generalizing c with
  | zero => cases h
  | succ fuel ih =>
    rw [skipTrivia] at h
    split at h
    · cases h
    · rcases List.mem_cons.mp h with rfl | h
      · rfl
      · exact ih h

end Cursor

/-! ## Ink -/

theorem inked_of_last {t : List Char} {x : Char} (h : Text.isAsciiBlank x = false) :
    Inked (lastLine (t ++ [x])) := by
  have hx : '\n' ∉ [x] := by
    rintro hmem
    rw [List.mem_singleton.mp hmem |>.symm] at h
    exact absurd h (by decide)
  rw [Text.lastLine_append_of_not_mem hx]
  exact ⟨x, by simp, h⟩

theorem inked_of_front {t : List Char} {x : Char} (h : Text.isAsciiBlank x = false)
    (ht : '\n' ∉ x :: t) : Inked (lastLine (x :: t)) := by
  have hwhole := Text.lastLine_append_of_not_mem (s := []) ht
  rw [List.nil_append] at hwhole
  rw [hwhole]
  exact ⟨x, List.mem_append_right _ List.mem_cons_self, h⟩

/-- The line in which the text ends holds more than blanks. -/
def Ink (text : String) : Prop := Inked (lastLine text.toList)

theorem take_blockCommentLength {text : List Char} {n : Nat} (h : blockCommentLength text = some n) :
    ∃ t, text.take n = t ++ ['/'] := by
  induction text generalizing n with
  | nil => simp [blockCommentLength] at h
  | cons x text ih =>
    unfold blockCommentLength at h
    split at h
    · simp_all
    · next hslash =>
      rw [Option.some.injEq] at h
      rw [hslash, ← h]
      exact ⟨['*'], rfl⟩
    · next heq =>
      obtain ⟨-, rfl⟩ := List.cons.inj heq
      obtain ⟨m, hm, rfl⟩ := Option.map_eq_some_iff.mp h
      obtain ⟨t, ht⟩ := ih hm
      exact ⟨x :: t, by rw [List.take_succ_cons, ht, List.cons_append]⟩

/-- A comment leaves ink on the line in which it ends. -/
theorem inked_of_comment {text : List Char} {n : Nat} (h : commentLength? text = some n) :
    Inked (lastLine (text.take n)) := by
  unfold commentLength? at h
  split at h
  · -- a comment up to the end of its line holds no newline, and stands on one line with its slashes
    next rest =>
    rw [Option.some.injEq] at h
    have htake : ('/' :: '/' :: rest).take n =
        '/' :: '/' :: rest.takeWhile fun c => !(c == '\r' || isLineBreak c) := by
      rw [← h, Nat.add_comm, List.take_succ_cons, List.take_succ_cons,
        ← List.prefix_iff_eq_take.mp (List.takeWhile_prefix _)]
    rw [htake]
    refine inked_of_front (by decide) fun hmem => ?_
    simp only [List.mem_cons, Char.reduceEq, false_or] at hmem
    have := List.all_eq_true.mp List.all_takeWhile _ hmem
    simp [isLineBreak] at this
  · -- other comments may end lines, but their last character is a slash
    next rest =>
    obtain ⟨m, hm, rfl⟩ := Option.map_eq_some_iff.mp h
    obtain ⟨t, ht⟩ := take_blockCommentLength hm
    rw [List.take_succ_cons, List.take_succ_cons, ht, ← List.cons_append, ← List.cons_append]
    exact inked_of_last (by decide)
  · cases h

end DelayInjection.JavaScript
