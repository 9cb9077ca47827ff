import DelayInjection.Json

/-! JSON text as a value, and where and why a text is none. -/

namespace DelayInjection.Json

inductive Fault where
  | value
  | name
  | colon
  | comma
  | unterminated
  | control
  | escape
  | unicodeEscape
  | extra
  | mark
deriving DecidableEq, Repr

/-- A fault at a character of the text, or a number with too many digits. -/
inductive ReadError where
  | syntaxAt (fault : Fault) (position : Nat)
  | number (digits : Nat)
deriving DecidableEq, Repr

def Fault.text : Fault → String
  | .value => "Expecting value"
  | .name => "Expecting property name enclosed in double quotes"
  | .colon => "Expecting ':' delimiter"
  | .comma => "Expecting ',' delimiter"
  | .unterminated => "Unterminated string starting at"
  | .control => "Invalid control character at"
  | .escape => "Invalid \\escape"
  | .unicodeEscape => "Invalid \\uXXXX escape"
  | .extra => "Extra data"
  | .mark => "Unexpected UTF-8 BOM (decode using utf-8-sig)"

/-- The rest of a text and the number of characters before it. -/
structure Place where
  rest : List Char
  position : Nat

def Place.advance (p : Place) (n : Nat) : Place := ⟨p.rest.drop n, p.position + n⟩

def isGap (c : Char) : Bool := c == ' ' || c == '\t' || c == '\n' || c == '\r'

def Place.skipGaps (p : Place) : Place := p.advance (p.rest.takeWhile isGap).length

def fail {α : Type} (fault : Fault) (p : Place) : Except ReadError α :=
  .error (.syntaxAt fault p.position)

def hexValue? (c : Char) : Option Nat :=
  if '0' ≤ c && c ≤ '9' then some (c.toNat - 48)
  else if 'a' ≤ c && c ≤ 'f' then some (c.toNat - 87)
  else if 'A' ≤ c && c ≤ 'F' then some (c.toNat - 55)
  else none

def hexNumber? (digits : List Char) : Option Nat :=
  digits.foldl (fun n? c => n?.bind fun n => (hexValue? c).map (16 * n + ·)) (some 0)

/-- A unit that is no code point by itself becomes the replacement character. -/
def ofUnit (n : Nat) : Char := if 0xD800 ≤ n ∧ n < 0xE000 then '\uFFFD' else Char.ofNat n

def simpleEscape? : Char → Option Char
  | '"' => some '"'
  | '\\' => some '\\'
  | '/' => some '/'
  | 'b' => some '\x08'
  | 'f' => some '\x0c'
  | 'n' => some '\n'
  | 'r' => some '\r'
  | 't' => some '\t'
  | _ => none

/-- The four digits behind `\u`, which must not be the last of the text. A leading half of a pair
takes a following escape with it if that is a trailing half. `p` stands at the `u`. -/
def readUnicode (p : Place) : Except ReadError (Char × Place) :=
  let digits := p.advance 1
  if digits.rest.length ≤ 4 then fail .unicodeEscape p
  else match hexNumber? (digits.rest.take 4) with
  | none => fail .unicodeEscape p
  | some high =>
    let next := digits.advance 4
    match next.rest with
    | '\\' :: 'u' :: rest =>
      if 0xD800 ≤ high ∧ high < 0xDC00 ∧ 4 < rest.length then
        match hexNumber? (rest.take 4) with
        | none => fail .unicodeEscape (next.advance 1)
        | some low =>
          if 0xDC00 ≤ low ∧ low < 0xE000 then
            .ok (Char.ofNat (0x10000 + (high - 0xD800) * 0x400 + (low - 0xDC00)), next.advance 6)
          else .ok (ofUnit high, next)
      else .ok (ofUnit high, next)
    | _ => .ok (ofUnit high, next)

/-- The rest of a text between quotes that was opened at `start`. -/
def readString (start : Place) : Nat → Place → List Char → Except ReadError (String × Place)
  | 0, _, _ => fail .unterminated start
  | fuel + 1, p, done =>
    match p.rest with
    | [] => fail .unterminated start
    | '"' :: _ => .ok (String.ofList done.reverse, p.advance 1)
    | '\\' :: 'u' :: _ => do
      let (c, p) ← readUnicode (p.advance 1)
      readString start fuel p (c :: done)
    | '\\' :: c :: _ =>
      match simpleEscape? c with
      | some c => readString start fuel (p.advance 2) (c :: done)
      | none => fail .escape p
    | ['\\'] => fail .unterminated start
    | c :: _ => if c.toNat < 32 then fail .control p else readString start fuel (p.advance 1) (c :: done)

def isDigit (c : Char) : Bool := '0' ≤ c && c ≤ '9'

/-- The digits after a point, if there is one with a digit behind it. -/
def fraction : List Char → List Char × List Char
  | '.' :: rest =>
    let digits := rest.takeWhile isDigit
    if digits.isEmpty then ([], '.' :: rest) else (digits, rest.drop digits.length)
  | rest => ([], rest)

/-- The exponent and the number of characters it takes, zero if there is none. -/
def exponentPart : List Char → Int × Nat
  | e :: rest =>
    if e == 'e' || e == 'E' then
      let (negative, rest, sign) := match rest with
        | '-' :: rest => (true, rest, 1)
        | '+' :: rest => (false, rest, 1)
        | rest => (false, rest, 0)
      let digits := rest.takeWhile isDigit
      if digits.isEmpty then (0, 0)
      else
        let n : Int := Text.digitsValue digits
        (if negative then -n else n, 1 + sign + digits.length)
    else (0, 0)
  | [] => (0, 0)

def readNumber (p : Place) : Except ReadError (Json × Place) :=
  let (negative, body) := match p.rest with
    | '-' :: rest => (true, rest)
    | rest => (false, rest)
  let whole := match body with
    | '0' :: _ => ['0']
    | _ => body.takeWhile isDigit
  if whole.isEmpty then fail .value p
  else
    let (places, rest) := fraction (body.drop whole.length)
    let (exponent, taken) := exponentPart rest
    let width := (if negative then 1 else 0) + whole.length +
      (if places.isEmpty then 0 else 1 + places.length) + taken
    if places.isEmpty && taken == 0 then
      if Text.maxDigits < whole.length then .error (.number whole.length)
      else
        let n : Int := Text.digitsValue whole
        .ok (int (if negative then -n else n), p.advance width)
    else
      let d : Number.Decimal := ⟨Text.digitsValue (whole ++ places), exponent - places.length⟩
      .ok (float (d.toBinary64 negative), p.advance width)

def words : List (String × Json) := [
  ("null", null), ("true", bool true), ("false", bool false), ("NaN", float .nan),
  ("Infinity", float (.infinite false)), ("-Infinity", float (.infinite true))]

def readScalar (p : Place) : Except ReadError (Json × Place) :=
  match words.find? fun (word, _) => word.toList.isPrefixOf p.rest with
  | some (word, value) => .ok (value, p.advance word.length)
  | none => readNumber p

mutual

def readValue : Nat → Place → Except ReadError (Json × Place)
  | 0, p => fail .value p
  | fuel + 1, p =>
    match p.rest with
    | '"' :: rest => do
      let (s, p) ← readString p (rest.length + 1) (p.advance 1) []
      .ok (str s, p)
    | '[' :: _ =>
      let p := (p.advance 1).skipGaps
      match p.rest with
      | ']' :: _ => .ok (arr [], p.advance 1)
      | _ => do
        let (items, p) ← readItems fuel p
        .ok (arr items, p)
    | '\x7b' :: _ =>
      let p := (p.advance 1).skipGaps
      match p.rest with
      | '\x7d' :: _ => .ok (obj [], p.advance 1)
      | _ => do
        let (members, p) ← readMembers fuel p
        .ok (obj (ofPairs members), p)
    | _ => readScalar p

/-- The items of a list up to and with its closing bracket. -/
def readItems : Nat → Place → Except ReadError ((List Json) × Place)
  | 0, p => fail .value p
  | fuel + 1, p => do
    let (v, p) ← readValue fuel p
    let p := p.skipGaps
    match p.rest with
    | ']' :: _ => .ok ([v], p.advance 1)
    | ',' :: _ => do
      let (rest, p) ← readItems fuel (p.advance 1).skipGaps
      .ok (v :: rest, p)
    | _ => fail .comma p

/-- The members of an object up to and with its closing bracket. -/
def readMembers : Nat → Place → Except ReadError ((List (String × Json)) × Place)
  | 0, p => fail .name p
  | fuel + 1, p =>
    match p.rest with
    | '"' :: rest => do
      let (n, p) ← readString p (rest.length + 1) (p.advance 1) []
      let p := p.skipGaps
      match p.rest with
      | ':' :: _ => do
        let (v, p) ← readValue fuel (p.advance 1).skipGaps
        let p := p.skipGaps
        match p.rest with
        | '\x7d' :: _ => .ok ([(n, v)], p.advance 1)
        | ',' :: _ => do
          let (rest, p) ← readMembers fuel (p.advance 1).skipGaps
          .ok ((n, v) :: rest, p)
        | _ => fail .comma p
      | _ => fail .colon p
    | _ => fail .name p

end

/-- Reads one value with nothing but gaps around it. -/
def parse (text : List Char) : Except ReadError Json := do
  let start : Place := ⟨text, 0⟩
  if text.head? == some '\uFEFF' then fail .mark start
  else do
    let (v, p) ← readValue (text.length + 1) start.skipGaps
    let p := p.skipGaps
    if p.rest.isEmpty then .ok v else fail .extra p

/-- Line and column of a place, both from one. -/
def lineColumn (text : List Char) (position : Nat) : Nat × Nat :=
  let before := text.take position
  let line := (before.filter (· == '\n')).length
  let column := (before.reverse.takeWhile (· != '\n')).length
  (line + 1, column + 1)

def ReadError.message (text : List Char) : ReadError → String
  | .syntaxAt fault position =>
    let (line, column) := lineColumn text position
    fault.text ++ ": line " ++ toString line ++ " column " ++ toString column ++
      " (char " ++ toString position ++ ")"
  | .number digits =>
    "Exceeds the limit (" ++ toString Text.maxDigits ++ " digits) for integer string conversion: " ++
      "value has " ++ toString digits ++
      " digits; use sys.set_int_max_str_digits() to increase the limit"

end DelayInjection.Json
