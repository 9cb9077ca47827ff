import DelayInjection.Adapter
import DelayInjection.Text.Name
import DelayInjection.Text.Printable

/-! The tokens of Python, with the indentation of lines as tokens of their own. -/

namespace DelayInjection.Python

inductive TokenKind where
  | name
  | number
  | text
  | mark
  | newline
  | indent
  | dedent
  | finish
  /-- Nothing can be read from here on. `reported` faults are found by any later search, the others
  only when the parse comes to them. -/
  | fault (fault : ParseFault) (reported : Bool)
deriving DecidableEq, Repr

structure Token where
  kind : TokenKind
  text : String
  line : Nat
  column : Nat
  endLine : Nat
deriving Repr

/-- A place in a source with what follows it, the columns of the open blocks and the open brackets. -/
structure Lexer where
  rest : List Char
  line : Nat
  column : Nat
  indents : List (Nat × Nat)
  brackets : List Char

namespace Lexer

def start (text : List Char) : Lexer := ⟨text, 1, 0, [(0, 0)], []⟩

def advance : Nat → Lexer → Lexer
  | 0, l => l
  | n + 1, l =>
    match l.rest with
    | [] => l
    | c :: rest =>
      if c = '\n' then advance n { l with rest := rest, line := l.line + 1, column := 0 }
      else advance n { l with rest := rest, column := l.column + c.utf8Size }

def faultAt (l : Lexer) (fault : ParseFault) (reported : Bool) : List Token :=
  [⟨.fault fault reported, "", l.line, l.column, l.line⟩]

def invalid (l : Lexer) : List Token := l.faultAt .invalidSyntax true

def unreadable (l : Lexer) : List Token := l.faultAt .invalidSyntax false

def marker (l : Lexer) (kind : TokenKind) : Token := ⟨kind, "", l.line, l.column, l.line⟩

end Lexer

/-- The columns of a line's first character: with tabs to the next multiple of eight, and with tabs as
one; and the column in front of the first backslash that joins lines. -/
structure Indentation where
  column : Nat
  alternative : Nat
  joined : Nat

/-- Goes over the blanks that open a line; `none` if a backslash does not end a line, or the last. -/
def indentation : Nat → Lexer → Indentation → Option (Lexer × Indentation)
  | 0, l, i => some (l, i)
  | fuel + 1, l, i =>
    match l.rest with
    | ' ' :: _ => indentation fuel (l.advance 1) ⟨i.column + 1, i.alternative + 1, i.joined⟩
    | '\t' :: _ =>
      indentation fuel (l.advance 1) ⟨(i.column / 8 + 1) * 8, i.alternative + 1, i.joined⟩
    | '\x0c' :: _ => indentation fuel (l.advance 1) ⟨0, 0, i.joined⟩
    | '\\' :: '\n' :: _ :: _ =>
      indentation fuel (l.advance 2)
        ⟨i.column, i.alternative, if i.joined = 0 then i.column else i.joined⟩
    | '\\' :: _ => none
    | _ => some (l, i)

def maxIndents : Nat := 100

def maxBrackets : Nat := 200

/-- The tokens that a change of indentation makes; a fault if it fits no open block, or if it depends
on the width of tabs. -/
def changeIndent (l : Lexer) (column alternative : Nat) : Except (List Token) (List Token × Lexer) :=
  match l.indents with
  | [] => .error l.unreadable
  | (top, altTop) :: _ =>
    if column = top then
      if alternative = altTop then .ok ([], l) else .error (l.faultAt .mixedTabs false)
    else if top < column then
      if maxIndents ≤ l.indents.length then .error (l.faultAt .badIndentation false)
      else if alternative ≤ altTop then .error (l.faultAt .mixedTabs false)
      else .ok ([l.marker .indent], { l with indents := (column, alternative) :: l.indents })
    else
      let closed := (l.indents.takeWhile fun (c, _) => column < c).length
      match l.indents.drop closed with
      | (c, a) :: others =>
        if c ≠ column then .error (l.faultAt .badIndentation false)
        else if a ≠ alternative then .error (l.faultAt .mixedTabs false)
        else .ok (List.replicate closed (l.marker .dedent), { l with indents := (c, a) :: others })
      | [] => .error l.unreadable

def isNameStartChar (c : Char) : Bool := c.isAlpha || c == '_' || 128 ≤ c.toNat

def isNameChar (c : Char) : Bool := isNameStartChar c || c.isDigit

def isName : List Char → Bool
  | [] => false
  | c :: rest => Text.isNameStart c && rest.all Text.isNameContinue

/-- Letters that may stand before a quote, at most one of a kind, in the orders that are allowed. -/
def prefixLength (b u r f : Bool) : List Char → Nat
  | [] => 0
  | c :: rest =>
    let c := c.toLower
    if c == 'b' && !(b || u || f) then 1 + prefixLength true u r f rest
    else if c == 'u' && !(b || u || r || f) then 1 + prefixLength b true r f rest
    else if c == 'r' && !(r || u) then 1 + prefixLength b u true f rest
    else if c == 'f' && !(f || b || u) then 1 + prefixLength b u r true rest
    else 0

def opensText (text : List Char) : Option Nat :=
  let candidates := List.range (prefixLength false false false false text + 1)
  candidates.find? fun n => (text.drop n).head?.any fun c => c == '"' || c == '\''

/-- The length of a quoted text up to and with its closing quotes. -/
def closeText (quote : Char) (triple : Bool) : Nat → List Char → Option Nat
  | 0, _ => none
  | fuel + 1, text =>
    match text with
    | [] => none
    | '\\' :: _ :: rest => (closeText quote triple fuel rest).map (· + 2)
    | c :: rest =>
      if c = quote then
        if !triple then some 1
        else if rest.take 2 = [quote, quote] then some 3
        else (closeText quote triple fuel rest).map (· + 1)
      else if c = '\n' && !triple then none
      else (closeText quote triple fuel rest).map (· + 1)

/-- The length of a text that opens with a quote. -/
def textLength (text : List Char) : Option Nat :=
  match text with
  | a :: b :: c :: rest =>
    if a = b && b = c then (closeText a true (rest.length + 1) rest).map (· + 3)
    else (closeText a false (text.length + 1) (b :: c :: rest)).map (· + 1)
  | a :: rest => (closeText a false (text.length + 1) rest).map (· + 1)
  | [] => none

def isHex (c : Char) : Bool := c.isDigit || ('a' ≤ c && c ≤ 'f') || ('A' ≤ c && c ≤ 'F')

/-- Words that may follow a number without a blank. -/
def followers : List String := ["and", "else", "for", "if", "in", "is", "or", "not"]

/-- Nothing that could belong to a name may follow a number, unless it opens one of a few words. -/
def endsNumber (text : List Char) : Bool :=
  (followers.any fun w => w.toList.isPrefixOf text) || !(text.head?.any isNameChar)

/-- Digits with single underscores between them, from the first digit on; `none` if an underscore is
followed by something else. -/
def digitRun (p : Char → Bool) : Nat → List Char → Option Nat
  | 0, _ => none
  | fuel + 1, text =>
    let n := (text.takeWhile p).length
    match text.drop n with
    | '_' :: c :: rest =>
      if p c then (digitRun p fuel (c :: rest)).map (n + 1 + ·) else none
    | ['_'] => none
    | _ => some n

def digitsOf (p : Char → Bool) (text : List Char) : Option Nat := digitRun p (text.length + 1) text

/-- What follows the digits of a number: an exponent, the sign of an imaginary number, or neither. -/
def numberTail (text : List Char) : Option Nat :=
  let imaginary (n : Nat) : Option Nat :=
    match text.drop n with
    | c :: rest =>
      if c == 'j' || c == 'J' then (if endsNumber rest then some (n + 1) else none)
      else if endsNumber (c :: rest) then some n else none
    | [] => some n
  match text with
  | e :: rest =>
    if e == 'e' || e == 'E' then
      let sign := match rest with
        | '+' :: _ => 1
        | '-' :: _ => 1
        | _ => 0
      if (rest.drop sign).head?.any Char.isDigit then
        (digitsOf Char.isDigit (rest.drop sign)).bind fun n => imaginary (1 + sign + n)
      else if sign = 1 then none
      else if endsNumber text then some 0 else none
    else imaginary 0
  | [] => some 0

/-- A point with its digits, and what follows. -/
def fractionTail (text : List Char) : Option Nat :=
  match text with
  | '.' :: rest =>
    let digits? := if rest.head?.any Char.isDigit then digitsOf Char.isDigit rest else some 0
    digits?.bind fun n => (numberTail (rest.drop n)).map (1 + n + ·)
  | _ => numberTail text

/-- The length of the number that stands first; `none` if it is malformed. A whole number does not
start with a zero, unless it is zero, and has a limited number of digits. -/
def numberLength (text : List Char) : Option Nat :=
  let based (p : Char → Bool) : Option Nat :=
    let body := text.drop 2
    let (underscore, digits) := match body with
      | '_' :: rest => (1, rest)
      | rest => (0, rest)
    if digits.head?.any p then
      (digitsOf p digits).bind fun n =>
        let rest := digits.drop n
        if rest.head?.any Char.isDigit || !endsNumber rest then none else some (2 + underscore + n)
    else none
  match text with
  | '0' :: 'x' :: _ | '0' :: 'X' :: _ => based isHex
  | '0' :: 'o' :: _ | '0' :: 'O' :: _ => based fun c => '0' ≤ c && c < '8'
  | '0' :: 'b' :: _ | '0' :: 'B' :: _ => based fun c => c == '0' || c == '1'
  | _ =>
    (if text.head? == some '.' then some 0 else digitsOf Char.isDigit text).bind fun n =>
      let rest := text.drop n
      let whole := (text.take n).filter Char.isDigit
      (fractionTail rest).bind fun m =>
        let isWhole := m = 0
        let zeroed := whole.head? == some '0' && whole.any (· != '0')
        if isWhole && (zeroed || Text.maxDigits < whole.length) then none else some (n + m)

def threeMarks : List String := ["**=", "...", "//=", "<<=", ">>="]

def twoMarks : List String := [
  "!=", "%=", "&=", "**", "*=", "+=", "-=", "->", "//", "/=", ":=", "<<", "<=", "<>", "==", ">=",
  ">>", "@=", "^=", "|="]

/-- The number of characters of the mark that stands first. -/
def markLength (text : List Char) : Nat :=
  if threeMarks.any fun m => m.toList.isPrefixOf text then 3
  else if twoMarks.any fun m => m.toList.isPrefixOf text then 2
  else 1

def closes (opening closing : Char) : Bool :=
  (opening == '(' && closing == ')') || (opening == '[' && closing == ']') ||
    (opening == '\x7b' && closing == '\x7d')

/-- The open brackets behind a mark; `none` if it closes what is not open, or opens too many. -/
def bracketsBehind (brackets : List Char) (c : Char) : Option (List Char) :=
  if c == '(' || c == '[' || c == '\x7b' then
    if maxBrackets ≤ brackets.length then none else some (c :: brackets)
  else if c == ')' || c == ']' || c == '\x7d' then
    match brackets with
    | opening :: rest => if closes opening c then some rest else none
    | [] => none
  else some brackets

def tokenOf (l : Lexer) (kind : TokenKind) (n : Nat) : Token × Lexer :=
  let behind := l.advance n
  (⟨kind, String.ofList (l.rest.take n), l.line, l.column, behind.line⟩, behind)

/-- The tokens from a place on. `opening` says that a line starts here, and `blank` that the line
holds nothing but a comment. -/
def tokensFrom : Nat → Bool → Bool → Lexer → List Token
  | 0, _, _, l => l.unreadable
  | fuel + 1, true, _, l =>
    match indentation (l.rest.length + 1) l ⟨0, 0, 0⟩ with
    | none => l.unreadable
    | some (l, i) =>
      let blank := match l.rest with
        | '#' :: _ => true
        | '\n' :: _ => true
        | _ => false
      if blank || !l.brackets.isEmpty then tokensFrom fuel false blank l
      else
        let column := if i.joined = 0 then i.column else i.joined
        let alternative := if i.joined = 0 then i.alternative else i.joined
        match changeIndent l column alternative with
        | .error tokens => tokens
        | .ok (tokens, l) => tokens ++ tokensFrom fuel false false l
  | fuel + 1, false, blank, l =>
    let l := l.advance (l.rest.takeWhile fun c => c == ' ' || c == '\t' || c == '\x0c').length
    let l := if l.rest.head? == some '#'
      then l.advance (l.rest.takeWhile (· != '\n')).length else l
    match l.rest with
    | [] => if l.brackets.isEmpty then [l.marker .finish] else l.unreadable
    | '\n' :: _ =>
      if blank || !l.brackets.isEmpty then tokensFrom fuel true false (l.advance 1)
      else l.marker .newline :: tokensFrom fuel true false (l.advance 1)
    | '\\' :: '\n' :: rest =>
      if rest.isEmpty then l.unreadable else tokensFrom fuel false blank (l.advance 2)
    | '\\' :: _ => l.unreadable
    | c :: rest =>
      match opensText l.rest with
      | some n =>
        match textLength (l.rest.drop n) with
        | some m =>
          let (t, l) := tokenOf l .text (n + m)
          t :: tokensFrom fuel false blank l
        | none => l.invalid
      | none =>
        if isNameStartChar c then
          let n := (l.rest.takeWhile isNameChar).length
          let name := l.rest.take n
          if name.all (·.toNat < 128) || isName name then
            let (t, l) := tokenOf l .name n
            t :: tokensFrom fuel false blank l
          else l.invalid
        else if c.isDigit || (c == '.' && rest.head?.any Char.isDigit) then
          match numberLength l.rest with
          | some n =>
            let (t, l) := tokenOf l .number n
            t :: tokensFrom fuel false blank l
          | none => l.invalid
        else
          let n := markLength l.rest
          match if n = 1 then bracketsBehind l.brackets c else some l.brackets with
          | none => l.invalid
          | some brackets =>
            if n = 1 && !Text.isPrintable c then l.invalid
            else
              let (t, l) := tokenOf l .mark n
              t :: tokensFrom fuel false blank { l with brackets := brackets }

def tokens (text : List Char) : List Token :=
  tokensFrom (2 * text.length + 4) true false (Lexer.start text)

end DelayInjection.Python
