import DelayInjection.JavaScript.Cursor

/-! Names, numbers, texts and patterns of JavaScript, by their length. -/

namespace DelayInjection.JavaScript

def isHexDigit (c : Char) : Bool :=
  c.isDigit || ('a' ≤ c && c ≤ 'f') || ('A' ≤ c && c ≤ 'F')

def isOctalDigit (c : Char) : Bool := '0' ≤ c && c ≤ '7'

/-- Every character that is neither a control, nor blank, nor a mark of the language. -/
def isNameChar (c : Char) : Bool :=
  31 < c.toNat && !isGap c && !(":;\x60\"'@#.,|^&<=>+-*/\\%?!~()[]\x7b\x7d".toList.contains c)

/-- The length of an escaped code point: four digits, or any number of them in braces. -/
def unicodeEscapeLength? : List Char → Option Nat
  | '\\' :: 'u' :: '\x7b' :: rest =>
    let n := (rest.takeWhile isHexDigit).length
    if 0 < n && (rest.drop n).head? == some '\x7d' then some (n + 4) else none
  | '\\' :: 'u' :: a :: b :: c :: d :: _ => if [a, b, c, d].all isHexDigit then some 6 else none
  | _ => none

/-- The length of the name that stands first; zero if none does. -/
def nameLength (first : Bool) : Nat → List Char → Nat
  | 0, _ => 0
  | _ + 1, [] => 0
  | fuel + 1, c :: rest =>
    if c = '\\' then
      match unicodeEscapeLength? (c :: rest) with
      | some n => n + nameLength false fuel (rest.drop (n - 1))
      | none => 0
    else if isNameChar c && !(first && c.isDigit) then 1 + nameLength false fuel rest
    else 0

/-- Words that are never names. -/
def reservedWords : List String := [
  "break", "case", "catch", "class", "const", "continue", "debugger", "default", "delete", "do",
  "else", "export", "extends", "false", "finally", "for", "function", "if", "import", "in",
  "instanceof", "new", "null", "return", "super", "switch", "this", "throw", "true", "try",
  "typeof", "var", "void", "while", "with"]

/-- Digits with single underscores between them. -/
def moreDigits (p : Char → Bool) : List Char → Nat
  | [] => 0
  | [c] => if p c then 1 else 0
  | c :: d :: rest =>
    if p c then 1 + moreDigits p (d :: rest)
    else if c == '_' && p d then 2 + moreDigits p rest
    else 0

def digitsLength (p : Char → Bool) (text : List Char) : Nat :=
  if text.head?.any p then moreDigits p text else 0

def exponentLength : List Char → Nat
  | e :: rest =>
    if e == 'e' || e == 'E' then
      let sign := if rest.head? == some '+' || rest.head? == some '-' then 1 else 0
      let n := digitsLength Char.isDigit (rest.drop sign)
      if n = 0 then 0 else 1 + sign + n
    else 0
  | [] => 0

/-- One more if the letter of unbounded integers follows. -/
def withUnbounded (n : Nat) (text : List Char) : Nat :=
  if (text.drop n).head? == some 'n' then n + 1 else n

def numberLength (text : List Char) : Nat :=
  let radix (p : Char → Bool) : Nat :=
    let n := digitsLength p (text.drop 2)
    if n = 0 then 1 else withUnbounded (n + 2) text
  match text with
  | '0' :: 'x' :: _ | '0' :: 'X' :: _ => radix isHexDigit
  | '0' :: 'b' :: _ | '0' :: 'B' :: _ => radix fun c => c == '0' || c == '1'
  | '0' :: 'o' :: _ | '0' :: 'O' :: _ => radix isOctalDigit
  | '.' :: rest =>
    let n := digitsLength Char.isDigit rest
    if n = 0 then 0 else 1 + n + exponentLength (rest.drop n)
  | _ =>
    let n := digitsLength Char.isDigit text
    if n = 0 then 0
    else match text.drop n with
      | '.' :: rest =>
        let m := n + 1 + digitsLength Char.isDigit rest
        m + exponentLength (text.drop m)
      | 'n' :: _ => n + 1
      | rest => n + exponentLength rest

/-- The length of an escape in a text; `none` if it is malformed. -/
def escapeLength? : List Char → Option Nat
  | '\\' :: 'x' :: a :: b :: _ => if isHexDigit a && isHexDigit b then some 4 else none
  | '\\' :: 'x' :: _ => none
  | '\\' :: 'u' :: rest => unicodeEscapeLength? ('\\' :: 'u' :: rest)
  | '\\' :: c :: rest =>
    if isOctalDigit c then some (1 + ((c :: rest).take 3 |>.takeWhile isOctalDigit).length)
    else if (c == '\r' || c == '?') && rest.head?.any isLineBreak then some 3
    else some 2
  | _ => none

/-- The length of a regular expression without its opening slash; slashes in classes do not end it. -/
def patternLength? (inClass : Bool) : Nat → List Char → Option Nat
  | 0, _ => none
  | fuel + 1, text =>
    match text with
    | [] | '\n' :: _ => none
    | '\\' :: '\n' :: _ => none
    | '\\' :: _ :: rest => (patternLength? inClass fuel rest).map (· + 2)
    | ['\\'] => none
    | '/' :: rest =>
      if inClass then (patternLength? true fuel rest).map (· + 1)
      else some (1 + (rest.takeWhile fun c => 'a' ≤ c && c ≤ 'z').length)
    | '[' :: rest => (patternLength? true fuel rest).map (· + 1)
    | ']' :: rest => (patternLength? false fuel rest).map (· + 1)
    | _ :: rest => (patternLength? inClass fuel rest).map (· + 1)

/-- Character references of markup. -/
def referenceLength? : List Char → Option Nat
  | '&' :: '#' :: x :: rest =>
    if x == 'x' || x == 'X' then close 3 ((rest.takeWhile isHexDigit).length) 6 rest
    else close 2 (((x :: rest).takeWhile Char.isDigit).length) 5 (x :: rest)
  | '&' :: rest => close 1 ((rest.takeWhile Char.isAlpha).length) 30 rest
  | _ => none
where
  close (opening n most : Nat) (rest : List Char) : Option Nat :=
    if 0 < n && n ≤ most && (rest.drop n).head? == some ';' then some (opening + n + 1) else none

end DelayInjection.JavaScript
