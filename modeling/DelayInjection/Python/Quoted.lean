import DelayInjection.Python.Token

/-! Quoted texts: their prefixes and escapes, and the expressions in the braces of a formatted one. -/

namespace DelayInjection.Python

structure Quoted where
  isBytes : Bool
  isRaw : Bool
  isFormatted : Bool
  body : List Char

namespace Quoted

def isQuote (c : Char) : Bool := c == '"' || c == '\''

/-- Takes a text apart that is closed as it is opened. -/
def ofToken (token : List Char) : Quoted :=
  let letters := (token.takeWhile fun c => !isQuote c).map Char.toLower
  let text := token.drop letters.length
  let marks := match text with
    | a :: b :: c :: rest => if a = b && b = c && 3 ≤ rest.length then 3 else 1
    | _ => 1
  ⟨letters.contains 'b', letters.contains 'r', letters.contains 'f',
    (text.drop marks).take (text.length - 2 * marks)⟩

def hexNumber (digits : List Char) : Nat :=
  digits.foldl (fun n c =>
    16 * n + if c.isDigit then c.toNat - 48 else c.toLower.toNat - 87) 0

/-- The digits of an escape are there, and name a character. -/
def isCode (digits : Nat) (text : List Char) : Bool :=
  let code := text.take digits
  code.length = digits && code.all isHex && hexNumber code ≤ 0x10FFFF

def isNameCharacter (c : Char) : Bool := c.isAlphanum || c == ' ' || c == '-'

/-- A character by its name, of which only the form is checked. -/
def isNamed : List Char → Bool
  | '\x7b' :: rest =>
    let name := rest.takeWhile (· != '\x7d')
    !name.isEmpty && name.all isNameCharacter && name.length < rest.length
  | _ => false

/-- No escape lacks what it needs. One that has no meaning stays as it is. -/
def escapesFit (isBytes : Bool) : List Char → Bool
  | [] => true
  | '\\' :: c :: rest =>
    (if c = 'x' then isCode 2 rest
      else if isBytes then true
      else if c = 'u' then isCode 4 rest
      else if c = 'U' then isCode 8 rest
      else if c = 'N' then isNamed rest
      else true) && escapesFit isBytes rest
  | _ :: rest => escapesFit isBytes rest

def isBrace (c : Char) : Bool := c == '\x7b' || c == '\x7d'

/-- The characters up to a brace, what is left, and whether the brace was doubled, which makes it one
of the characters. Only outside of all fields may a brace be doubled. -/
def literal (isRaw outside : Bool) : Nat → List Char → Option (List Char × List Char × Bool)
  | 0, _ => none
  | _ + 1, [] => some ([], [], false)
  | fuel + 1, c :: rest =>
    let behind (taken rest : List Char) :=
      (literal isRaw outside fuel rest).map fun (text, rest, doubled) =>
        (taken ++ text, rest, doubled)
    let atBrace (taken : List Char) (brace : Char) (rest : List Char) :=
      if outside && rest.head? == some brace then some (taken ++ [brace], rest.drop 1, true)
      else if outside && brace == '\x7d' then none
      else some (taken, brace :: rest, false)
    if c = '\\' && !isRaw then
      match rest with
      | [] => some (['\\'], [], false)
      | 'N' :: '\x7b' :: more =>
        let n := (more.takeWhile (· != '\x7d')).length + 1
        behind ('\\' :: 'N' :: '\x7b' :: more.take n) (more.drop n)
      | d :: more => if isBrace d then atBrace ['\\'] d more else behind ['\\', d] more
    else if isBrace c then atBrace [] c rest
    else behind [c] rest

def maxNesting : Nat := 200

/-- The length of the expression of a field. It ends at a mark outside of all quotes and brackets that
is no comparison; a backslash or a hash must not stand in it. -/
def fieldLength : Nat → Option (Char × Bool) → List Char → List Char → Option Nat
  | 0, _, _, _ => none
  | _ + 1, _, _, [] => none
  | fuel + 1, some (quote, isTriple), opened, c :: rest =>
    if c = '\\' then none
    else if c ≠ quote then (fieldLength fuel (some (quote, isTriple)) opened rest).map (· + 1)
    else if !isTriple then (fieldLength fuel none opened rest).map (· + 1)
    else if rest.take 2 = [quote, quote] then
      (fieldLength fuel none opened (rest.drop 2)).map (· + 3)
    else (fieldLength fuel (some (quote, isTriple)) opened rest).map (· + 1)
  | fuel + 1, none, opened, c :: rest =>
    if c = '\\' || c = '#' then none
    else if isQuote c then
      if rest.take 2 = [c, c] then
        (fieldLength fuel (some (c, true)) opened (rest.drop 2)).map (· + 3)
      else (fieldLength fuel (some (c, false)) opened rest).map (· + 1)
    else if c = '(' || c = '[' || c = '\x7b' then
      if maxNesting ≤ opened.length then none
      else (fieldLength fuel none (c :: opened) rest).map (· + 1)
    else if opened.isEmpty && "!:\x7d=<>".toList.contains c then
      if rest.head? == some '=' && c != ':' && c != '\x7d' then
        (fieldLength fuel none opened (rest.drop 1)).map (· + 2)
      else if c = '<' || c = '>' then (fieldLength fuel none opened rest).map (· + 1)
      else some 0
    else if c = ')' || c = ']' || c = '\x7d' then
      match opened with
      | [] => none
      | o :: outer =>
        if (o = '(' && c = ')') || (o = '[' && c = ']') || (o = '\x7b' && c = '\x7d') then
          (fieldLength fuel none outer rest).map (· + 1)
        else none
    else (fieldLength fuel none opened rest).map (· + 1)

def isFieldGap (c : Char) : Bool := c == ' ' || c == '\t' || c == '\n' || c == '\x0c'

def isAsciiBlank (c : Char) : Bool := isFieldGap c || c == '\x0d' || c == '\x0b'

/-- What may stand between an expression and its format: an equals sign, and a conversion. -/
def afterExpression (text : List Char) : Option (List Char) :=
  let text := match text with
    | '=' :: rest => rest.dropWhile isAsciiBlank
    | text => text
  match text with
  | '!' :: c :: rest => if c = 's' || c = 'r' || c = 'a' then some rest else none
  | '!' :: [] => none
  | text => some text

/-- The expressions in a text up to its end, or in a format up to the brace that closes its field. A
format may hold fields, but the formats of these none. -/
def expressionsFrom (isRaw : Bool) : Nat → Nat → List Char → Option (List (List Char) × List Char)
  | 0, _, _ => none
  | fuel + 1, level, text =>
    match literal isRaw (level = 0) (text.length + 1) text with
    | none => none
    | some (characters, rest, doubled) =>
      if !isRaw && !escapesFit false characters then none
      else if doubled then expressionsFrom isRaw fuel level rest
      else match rest with
        | '\x7b' :: field =>
          if 2 ≤ level then none
          else do
            let n ← fieldLength (field.length + 1) none [] field
            let expression := field.take n
            if expression.all isFieldGap then none
            let behind ← afterExpression (field.drop n)
            let (inFormat, behind) ← match behind with
              | ':' :: format => expressionsFrom isRaw fuel (level + 1) format
              | behind => some ([], behind)
            if behind.head? ≠ some '\x7d' then none
            let (others, rest) ← expressionsFrom isRaw fuel level (behind.drop 1)
            some (expression :: inFormat ++ others, rest)
        | rest => some ([], rest)

/-- The expressions of a formatted text in order; `none` if it is malformed. -/
def expressions? (q : Quoted) : Option (List (List Char)) :=
  if q.isFormatted then
    (expressionsFrom q.isRaw (q.body.length + 2) 0 q.body).bind fun (inner, rest) =>
      if rest.isEmpty then some inner else none
  else if q.isBytes && q.body.any (128 ≤ ·.toNat) then none
  else if !q.isRaw && !escapesFit q.isBytes q.body then none
  else some []

end Quoted
end DelayInjection.Python
