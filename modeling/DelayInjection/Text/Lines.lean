/-! Texts as lines between newline characters. -/

namespace DelayInjection.Text

/-- The pieces of a text between newlines: one more than there are newlines. -/
def splitLines : List Char → List (List Char)
  | [] => [[]]
  | c :: rest =>
    if c = '\n' then [] :: splitLines rest
    else match splitLines rest with
      | [] => [[c]]
      | line :: lines => (c :: line) :: lines

def joinLines (lines : List (List Char)) : List Char := List.intercalate ['\n'] lines

theorem splitLines_ne_nil (text : List Char) : splitLines text ≠ [] := by
  cases text with
  | nil => simp [splitLines]
  | cons c rest =>
    unfold splitLines
    split
    · simp
    · split <;> simp

/-- `part` stands somewhere in `whole`. -/
def containsPart {α : Type} [BEq α] (whole part : List α) : Bool :=
  part.isPrefixOf whole || match whole with
    | [] => false
    | _ :: rest => containsPart rest part

def contains (text part : List Char) : Bool := containsPart text part

/-- The text after the first place where `part` stands, with the number of characters before it. -/
def find? (text part : List Char) : Option Nat :=
  if part.isPrefixOf text then some 0
  else match text with
    | [] => none
    | _ :: rest => (find? rest part).map (· + 1)

/-- The byte order mark as a character. -/
def mark : Char := '\uFEFF'

/-- A leading byte order mark, and the text behind it. -/
def splitMark : List Char → List Char × List Char
  | [] => ([], [])
  | c :: rest => if c = mark then ([c], rest) else ([], c :: rest)

end DelayInjection.Text
