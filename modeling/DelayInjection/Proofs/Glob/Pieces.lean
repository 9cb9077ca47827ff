import DelayInjection.Proofs.Glob
import Mathlib.Data.List.Forall2

/-! What a pattern means, told without the search for a match. A pattern can be read as tokens in one way
only, if each token is as long as it can be, and a path matches if it can be cut into pieces such that each
token takes its own. -/

namespace DelayInjection.Glob

variable {t : Token} {ts : List Token} {text rest : List Char}

namespace Token

def spelling : Token → List Char
  | folders => ['*', '*', '/']
  | anything => ['*', '*']
  | segment => ['*']
  | one => ['?']
  | literal c => [c]

/-- A star or a question mark in a pattern never stands for itself. -/
def IsPlain : Token → Prop
  | literal c => c ≠ '*' ∧ c ≠ '?'
  | _ => True

/-- No token that the text begins with is written with more characters. -/
def IsLongest (t : Token) (text : List Char) : Prop :=
  ∀ u : Token, u.spelling <+: text → u.spelling.length ≤ t.spelling.length

/-- The texts that a token takes. -/
def Takes : Token → List Char → Prop
  | folders, piece => piece = [] ∨ ∃ run, piece = run ++ ['/'] ∧ '\n' ∉ run
  | anything, piece => '\n' ∉ piece
  | segment, piece => '/' ∉ piece
  | one, piece => ∃ c, piece = [c] ∧ c ≠ '/'
  | literal c, piece => piece = [c]

end Token

/-- The text is read as the tokens, from left to right, each of them the longest that the rest of the text
begins with. -/
inductive Reads : List Char → List Token → Prop where
  | nil : Reads [] []
  | cons {t : Token} {rest : List Char} {ts : List Token} (hplain : t.IsPlain)
      (hlongest : t.IsLongest (t.spelling ++ rest)) (hrest : Reads rest ts) :
      Reads (t.spelling ++ rest) (t :: ts)

/-! ## Tokens of a pattern -/

/-- The longest token at the front is the one that is read first. -/
theorem tokens_spelling_append (hplain : t.IsPlain) (hlongest : t.IsLongest (t.spelling ++ rest)) :
    tokens (t.spelling ++ rest) = t :: tokens rest := by
  cases t with
  | folders => rfl
  | anything =>
    have hslash : ∀ more, rest ≠ '/' :: more := by
      rintro more rfl
      exact absurd (hlongest .folders ⟨more, rfl⟩) (by decide)
    show tokens ('*' :: '*' :: rest) = _
    rw [tokens]
    exact hslash
  | segment =>
    have hstar : ∀ more, rest ≠ '*' :: more := by
      rintro more rfl
      exact absurd (hlongest .anything ⟨more, rfl⟩) (by decide)
    show tokens ('*' :: rest) = _
    rw [tokens]
    · exact fun more heq => hstar _ heq
    · exact hstar
  | one => rfl
  | literal c =>
    show tokens (c :: rest) = _
    rw [tokens]
    · exact fun more hc _ => hplain.1 hc
    · exact fun more hc _ => hplain.1 hc
    · exact hplain.1
    · exact hplain.2

theorem reads_tokens (text : List Char) : Reads text (tokens text) := by
  -- a longer token would need the character that the case before it asks for
  induction text using tokens.induct with
  | case1 =>
    rw [tokens]
    exact .nil
  | case2 rest ih =>
    rw [tokens]
    refine .cons (t := .folders) trivial (fun u _ => ?_) ih
    cases u <;> simp [Token.spelling]
  | case3 rest hslash ih =>
    rw [tokens]
    · refine .cons (t := .anything) trivial (fun u hu => ?_) ih
      cases u with
      | folders =>
        obtain ⟨more, rfl⟩ : ['/'] <+: rest := by simpa [Token.spelling] using hu
        exact absurd rfl (hslash more)
      | _ => simp [Token.spelling]
    · exact hslash
  | case4 rest hfolders hstar ih =>
    rw [tokens]
    · refine .cons (t := .segment) trivial (fun u hu => ?_) ih
      cases u with
      | folders =>
        obtain ⟨more, rfl⟩ : ['*', '/'] <+: rest := by simpa [Token.spelling] using hu
        exact absurd rfl (hfolders more)
      | anything =>
        obtain ⟨more, rfl⟩ : ['*'] <+: rest := by simpa [Token.spelling] using hu
        exact absurd rfl (hstar more)
      | _ => simp [Token.spelling]
    · exact hfolders
    · exact hstar
  | case5 rest ih =>
    rw [tokens]
    refine .cons (t := .one) trivial (fun u hu => ?_) ih
    cases u with
    | folders => exact absurd (List.cons_prefix_cons.mp hu).1 (by decide)
    | anything => exact absurd (List.cons_prefix_cons.mp hu).1 (by decide)
    | _ => simp [Token.spelling]
  | case6 c rest hfolders hanything hstar hone ih =>
    rw [tokens]
    · refine .cons (t := .literal c) ⟨hstar, hone⟩ (fun u hu => ?_) ih
      cases u with
      | folders => exact absurd (List.cons_prefix_cons.mp hu).1.symm hstar
      | anything => exact absurd (List.cons_prefix_cons.mp hu).1.symm hstar
      | _ => simp [Token.spelling]
    · exact hfolders
    · exact hanything
    · exact hstar
    · exact hone

/-- There is one way to read a text. -/
theorem reads_iff : Reads text ts ↔ ts = tokens text := by
  constructor
  · intro h
    induction h with
    | nil => rfl
    | cons hplain hlongest _ ih => rw [tokens_spelling_append hplain hlongest, ih]
  · rintro rfl
    exact reads_tokens text

/-! ## Pieces of a path -/

/-- The rests that a token leaves are those behind the texts that it takes. -/
theorem mem_rests_iff : rest ∈ t.rests text ↔ ∃ piece, t.Takes piece ∧ text = piece ++ rest := by
  cases t with
  | folders =>
    rw [Token.mem_rests_folders]
    constructor
    · rintro (rfl | ⟨run, rfl, hrun⟩)
      · exact ⟨[], .inl rfl, rfl⟩
      · exact ⟨run ++ ['/'], .inr ⟨run, rfl, hrun⟩, by simp⟩
    · rintro ⟨piece, rfl | ⟨run, rfl, hrun⟩, rfl⟩
      · exact .inl rfl
      · exact .inr ⟨run, by simp, hrun⟩
  | anything =>
    rw [Token.mem_rests_anything]
    exact exists_congr fun run => and_comm
  | segment =>
    rw [Token.mem_rests_segment]
    exact exists_congr fun run => and_comm
  | one =>
    rw [Token.mem_rests_one]
    constructor
    · rintro ⟨c, rfl, hc⟩
      exact ⟨[c], ⟨c, rfl, hc⟩, rfl⟩
    · rintro ⟨piece, ⟨c, rfl, hc⟩, rfl⟩
      exact ⟨c, rfl, hc⟩
  | literal c =>
    rw [Token.mem_rests_literal]
    constructor
    · rintro rfl
      exact ⟨[c], rfl, rfl⟩
    · rintro ⟨piece, rfl, rfl⟩
      rfl

theorem accepts_iff_pieces : accepts ts text = true ↔
    ∃ pieces, List.Forall₂ Token.Takes ts pieces ∧ text = pieces.flatten := by
  induction ts generalizing text with
  | nil =>
    rw [accepts, List.isEmpty_iff]
    constructor
    · rintro rfl
      exact ⟨[], .nil, rfl⟩
    · rintro ⟨pieces, hpieces, rfl⟩
      cases hpieces
      rfl
  | cons t ts ih =>
    rw [accepts_cons]
    constructor
    · rintro ⟨rest, hrest, haccepts⟩
      obtain ⟨piece, hpiece, rfl⟩ := mem_rests_iff.mp hrest
      obtain ⟨pieces, hpieces, rfl⟩ := ih.mp haccepts
      exact ⟨piece :: pieces, .cons hpiece hpieces, rfl⟩
    · rintro ⟨pieces, hpieces, rfl⟩
      cases hpieces with
      | cons hpiece hpieces =>
        exact ⟨_, mem_rests_iff.mpr ⟨_, hpiece, rfl⟩, ih.mpr ⟨_, hpieces, rfl⟩⟩

/-- A pattern is read in one way, and takes the paths that can be cut into a piece for each token. -/
theorem isMatch_iff_pieces (pattern path : List Char) :
    ∃ ts, (∀ us, Reads pattern us ↔ us = ts) ∧
      (isMatch pattern path = true ↔
        ∃ pieces, List.Forall₂ Token.Takes ts pieces ∧ path = pieces.flatten) :=
  ⟨tokens pattern, fun _ => reads_iff, accepts_iff_pieces⟩

end DelayInjection.Glob
