import DelayInjection.Text.Blank
import DelayInjection.Text.Digit

/-! Integers as text: which texts are numerals, and the limit on their length. -/

namespace DelayInjection.Text

/-- The longest numeral that is read or written. -/
def maxDigits : Nat := 4300

inductive NumeralError where
  | malformed
  | tooLong (digits : Nat)
deriving DecidableEq, Repr

/-- A text beyond ASCII is first put into ASCII: digits of other scripts become their values and
blanks become spaces; what has no counterpart becomes a mark that no numeral holds. -/
def foldNumeral (text : List Char) : List Char :=
  if text.all (·.toNat < 128) then text
  else text.map fun c =>
    if c.toNat < 127 then c
    else if isBlank c then ' '
    else match digitValue? c with
      | some d => Char.ofNat (48 + d)
      | none => '?'

def isNumeralBlank (c : Char) : Bool := c == ' ' || (9 ≤ c.toNat && c.toNat ≤ 13)

def isAsciiDigit (c : Char) : Bool := '0' ≤ c && c ≤ '9'

/-- The number that ASCII digits spell. -/
def digitsValue (digits : List Char) : Nat :=
  digits.foldl (fun n c => 10 * n + (c.toNat - 48)) 0

/-- Single underscores may stand between two digits. -/
def underscoresSeparate : List Char → Bool
  | [] => false
  | [c] => c != '_'
  | c :: d :: rest => !(c == '_' && d == '_') && underscoresSeparate (d :: rest)

def parseMagnitude (text : List Char) : Except NumeralError Nat :=
  let body := text.takeWhile fun c => isAsciiDigit c || c == '_'
  let rest := (text.drop body.length).dropWhile isNumeralBlank
  let digits := body.filter isAsciiDigit
  if body.head? == some '_' || !underscoresSeparate body then .error .malformed
  else if maxDigits < digits.length then .error (.tooLong digits.length)
  else if rest.isEmpty then .ok (digitsValue digits)
  else .error .malformed

/-- Blanks around, one sign in front, digits with single underscores between them. -/
def parseInt (text : List Char) : Except NumeralError Int :=
  match (foldNumeral text).dropWhile isNumeralBlank with
  | '-' :: rest => (fun n : Nat => -(n : Int)) <$> parseMagnitude rest
  | '+' :: rest => Int.ofNat <$> parseMagnitude rest
  | text => Int.ofNat <$> parseMagnitude text

/-- The text of an integer, unless it is too long to be written. -/
def showInt? (n : Int) : Option String :=
  if n.natAbs < Nat.pow 10 maxDigits then some (toString n) else none

end DelayInjection.Text
