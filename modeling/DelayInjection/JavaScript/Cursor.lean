import DelayInjection.JavaScript.Tree
import DelayInjection.Text.Word

/-! A place in JavaScript text with what follows it; blanks, comments, and where a semicolon may be left out. -/

namespace DelayInjection.JavaScript

structure Cursor where
  rest : List Char
  place : Place
deriving Inhabited

namespace Cursor

def ofText (text : List Char) : Cursor := ⟨text, ⟨0, 0, 0⟩⟩

def step (p : Place) (c : Char) : Place :=
  if c = '\n' then ⟨p.offset + 1, p.row + 1, 0⟩
  else ⟨p.offset + c.utf8Size, p.row, p.column + c.utf8Size⟩

def advance : Nat → Cursor → Cursor
  | 0, c => c
  | n + 1, ⟨[], p⟩ => advance n ⟨[], p⟩
  | n + 1, ⟨x :: rest, p⟩ => advance n ⟨rest, step p x⟩

def startsWith (c : Cursor) (part : String) : Bool := part.toList.isPrefixOf c.rest

end Cursor

/-- Blanks between tokens. -/
def isGap (c : Char) : Bool :=
  let n := c.toNat
  (9 ≤ n && n ≤ 13) || n == 32 || n == 0x85 || n == 0xA0 || n == 0x1680 ||
    (0x2000 ≤ n && n ≤ 0x200B) || n == 0x2028 || n == 0x2029 || n == 0x202F || n == 0x205F ||
    n == 0x2060 || n == 0x3000 || n == 0xFEFF

/-- Blanks as the search for a missing semicolon knows them: the ones that do not break a line are
left out. -/
def isSpace (c : Char) : Bool :=
  let n := c.toNat
  (9 ≤ n && n ≤ 13) || n == 32 || n == 0x1680 || (0x2000 ≤ n && n ≤ 0x200A && n != 0x2007) ||
    n == 0x2028 || n == 0x2029 || n == 0x205F || n == 0x3000

def isLineBreak (c : Char) : Bool := c == '\n' || c.toNat == 0x2028 || c.toNat == 0x2029

def isLetter (c : Char) : Bool :=
  c.isAlpha || (128 ≤ c.toNat && Text.isWordChar c)

/-- The number of characters up to and with the first `*/`. -/
def blockCommentLength : List Char → Option Nat
  | [] => none
  | '*' :: '/' :: _ => some 2
  | _ :: rest => (blockCommentLength rest).map (· + 1)

/-- The length of the comment that stands first, if one does. -/
def commentLength? : List Char → Option Nat
  | '/' :: '/' :: rest =>
    some (2 + (rest.takeWhile fun c => !(c == '\r' || isLineBreak c)).length)
  | '/' :: '*' :: rest => (blockCommentLength rest).map (· + 2)
  | _ => none

/-- A line that opens with an arrow of a markup comment is one as a whole. -/
def markupCommentLength? (text : List Char) : Option Nat :=
  if "<!--".toList.isPrefixOf text || "-->".toList.isPrefixOf text
    then some (text.takeWhile fun c => !isLineBreak c).length
  else none

namespace Cursor

def skipGaps (c : Cursor) : Cursor := c.advance (c.rest.takeWhile isGap).length

/-- Goes to the next token and gathers the comments before it. Where an operand may stand, markup
comments count too. -/
def skipTrivia (operand : Bool) : Nat → Cursor → List Tree × Cursor
  | 0, c => ([], c)
  | fuel + 1, c =>
    let c := c.skipGaps
    let length? := match commentLength? c.rest with
      | some n => some n
      | none => if operand then markupCommentLength? c.rest else none
    match length? with
    | none => ([], c)
    | some n =>
      let behind := c.advance n
      let (comments, final) := skipTrivia operand fuel behind
      (.node .comment .plain c.place behind.place.offset [] :: comments, final)

end Cursor

/-- What a search through blanks and comments ends with. -/
inductive TriviaEnd where
  /-- A slash that opens no comment. -/
  | slash
  /-- The end of a block comment on one line. -/
  | sameLine
  | found
deriving DecidableEq, Repr

/-- What is left behind a block comment, and whether it held a line break. -/
def behindBlock (broken : Bool) : List Char → List Char × Bool × Bool
  | [] => ([], broken, false)
  | '*' :: '/' :: rest => (rest, broken, true)
  | c :: rest => behindBlock (broken || isLineBreak c) rest

/-- Goes over blanks and comments; unless `through`, it stops behind a block comment that no slash
follows. -/
def searchTrivia (through : Bool) : Nat → Bool → List Char → TriviaEnd × List Char
  | 0, _, text => (.found, text)
  | fuel + 1, broken, text =>
    match text.dropWhile isSpace with
    | '/' :: '/' :: rest => searchTrivia through fuel broken (rest.dropWhile fun c => !isLineBreak c)
    | '/' :: '*' :: rest =>
      let (behind, broken, closed) := behindBlock broken rest
      if closed && !through && behind.head? != some '/'
        then (if broken then .found else .sameLine, behind)
      else searchTrivia through fuel broken behind
    | '/' :: rest => (.slash, rest)
    | text => (.found, text)

/-- A new line that starts with this text cannot continue the statement before. -/
def startsStatement : List Char → Bool
  | '+' :: rest => rest.head? == some '+'
  | '-' :: rest => rest.head? == some '-'
  | '!' :: rest => rest.head? != some '='
  | '.' :: rest => rest.head?.any Char.isDigit
  | 'i' :: 'n' :: rest =>
    if rest.head?.any isLetter then
      if "stanceof".toList.isPrefixOf rest then (rest.drop 8).head?.any isLetter else true
    else false
  | c :: _ => !("\x60,:;*%><=[(?^|&/".toList.contains c)
  | [] => true

/-- A semicolon may be left out before a closing brace, or where a new line starts that cannot continue
the statement; behind a blank it depends on what comes next. -/
def semicolonMayMissAt (limit : Nat) (onwards : List Char → Bool) (c : Char) (rest : List Char) :
    Bool :=
  if c = '\x7d' then true
  else if isLineBreak c then
    match searchTrivia true limit false rest with
    | (.slash, _) => false
    | (_, behind) => startsStatement behind
  else isSpace c && onwards rest

/-- A semicolon may be left out here: at the end, before a closing brace, or where a new line starts
that cannot continue the statement. `afterComment` says that a comment may end the statement too. -/
def semicolonMayMiss (afterComment : Bool) (limit : Nat) : Nat → List Char → Bool
  | 0, _ => false
  | _ + 1, [] => true
  | fuel + 1, '/' :: rest =>
    match searchTrivia false limit false ('/' :: rest) with
    | (.slash, _) => false
    | (reached, behind) =>
      if reached = .found && afterComment && behind.head? != some ',' && behind.head? != some '='
        then true
      else match behind with
        | [] => false
        | c :: rest => semicolonMayMissAt limit (semicolonMayMiss afterComment limit fuel) c rest
  | fuel + 1, c :: rest =>
    semicolonMayMissAt limit (semicolonMayMiss afterComment limit fuel) c rest

end DelayInjection.JavaScript
