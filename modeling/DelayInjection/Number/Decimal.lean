import DelayInjection.Number.Binary64

/-! Decimal forms of 64-bit numbers: the fewest digits that read back. -/

namespace DelayInjection.Number

/-- A decimal `digits * 10 ^ exponent`. -/
structure Decimal where
  digits : Nat
  exponent : Int
deriving DecidableEq, Repr

namespace Decimal

/-- Zeros at the end of the digits move into the exponent. -/
def trim : Nat → Decimal → Decimal
  | 0, d => d
  | fuel + 1, d =>
    if d.digits ≠ 0 ∧ d.digits % 10 = 0 then trim fuel ⟨d.digits / 10, d.exponent + 1⟩ else d

/-- `m * 2 ^ e` lies in the interval of numbers that round to `mantissa * 2 ^ exponent`; its ends
belong to it if the mantissa is even. All sides are scaled to quarters of the last place. -/
def readsBack (mantissa : Nat) (exponent : Int) (d : Decimal) : Bool :=
  let quarter := exponent - 2
  let low := if mantissa = Nat.pow 2 52 ∧ Binary64.minExponent < exponent
    then 4 * mantissa - 1 else 4 * mantissa - 2
  let high := 4 * mantissa + 2
  let scaleLeft := Nat.pow 10 d.exponent.toNat * Nat.pow 2 (-quarter).toNat
  let scaleRight := Nat.pow 10 (-d.exponent).toNat * Nat.pow 2 quarter.toNat
  let x := d.digits * scaleLeft
  if mantissa % 2 = 0
    then low * scaleRight ≤ x && x ≤ high * scaleRight
    else low * scaleRight < x && x < high * scaleRight

/-- The two neighbours of `num / den` on the grid of tenths of order `exponent`, and whether the
upper one is the nearer; an exact half goes to the even neighbour. -/
def neighbours (num den : Nat) (exponent : Int) : Nat × Nat × Bool :=
  let n := num * Nat.pow 10 (-exponent).toNat
  let d := den * Nat.pow 10 exponent.toNat
  let q := n / d
  let r := n % d
  (q, if r = 0 then q else q + 1, d < 2 * r || (2 * r == d && q % 2 == 1))

/-- Tries the grids from the coarsest on; the first with a decimal that reads back wins, and of two
such decimals the nearer. -/
def search (mantissa : Nat) (exponent : Int) (num den : Nat) : Nat → Int → Decimal
  | 0, grid => ⟨(neighbours num den grid).1, grid⟩
  | fuel + 1, grid =>
    let (below, above, up) := neighbours num den grid
    let b := readsBack mantissa exponent ⟨below, grid⟩
    let a := readsBack mantissa exponent ⟨above, grid⟩
    if b && a then ⟨if up then above else below, grid⟩
    else if b then ⟨below, grid⟩
    else if a then ⟨above, grid⟩
    else search mantissa exponent num den fuel (grid - 1)

/-- Number of decimal digits of `n`, at least one. -/
def length (n : Nat) : Nat := (toString n).length

/-- The shortest decimal that reads back as `mantissa * 2 ^ exponent`. -/
def shortest (mantissa : Nat) (exponent : Int) : Decimal :=
  if mantissa = 0 then ⟨0, 0⟩
  else
    let num := mantissa * Nat.pow 2 exponent.toNat
    let den := Nat.pow 2 (-exponent).toNat
    let top : Int := if den ≤ num then length (num / den) else 1 - length (den / num)
    trim 20 (search mantissa exponent num den 20 (top - 1))

/-- The 64-bit number nearest to the decimal. Magnitudes far outside of the range are decided by the
position of the first digit. -/
def toBinary64 (negative : Bool) (d : Decimal) : Binary64 :=
  let top : Int := length d.digits + d.exponent
  if d.digits = 0 ∨ top < -400 then .finite negative 0 Binary64.minExponent
  else if 400 < top then .infinite negative
  else Binary64.ofQuotient negative (d.digits * Nat.pow 10 d.exponent.toNat) (Nat.pow 10 (-d.exponent).toNat)

end Decimal

/-- How a shortest decimal is written: positionally for exponents from `lowest` up to `highest`,
with an exponent of two digits or more elsewhere. -/
structure FloatStyle where
  lowest : Int
  highest : Int
  nan : String
  infinity : String

namespace FloatStyle

def zeros (n : Nat) : List Char := List.replicate n '0'

def exponentText (e : Int) : List Char :=
  let digits := (toString e.natAbs).toList
  'e' :: (if e < 0 then '-' else '+') :: (if digits.length < 2 then '0' :: digits else digits)

/-- The digits of a decimal with its point at `point` digits from their left end. -/
def positional (digits : List Char) (point : Int) : List Char :=
  if point ≤ 0 then '0' :: '.' :: zeros (-point).toNat ++ digits
  else if point < digits.length then digits.take point.toNat ++ '.' :: digits.drop point.toNat
  else digits ++ zeros (point.toNat - digits.length) ++ ['.', '0']

def scientific (digits : List Char) (point : Int) : List Char :=
  match digits with
  | [] => []
  | [c] => c :: exponentText (point - 1)
  | c :: rest => c :: '.' :: rest ++ exponentText (point - 1)

def render (style : FloatStyle) : Binary64 → List Char
  | .nan => style.nan.toList
  | .infinite s => (if s then ['-'] else []) ++ style.infinity.toList
  | .finite s m e =>
    let d := Decimal.shortest m e
    let digits := (toString d.digits).toList
    let point : Int := digits.length + d.exponent
    (if s then ['-'] else []) ++
      if m = 0 then ['0', '.', '0']
      else if style.lowest ≤ point - 1 ∧ point - 1 < style.highest then positional digits point
      else scientific digits point

end FloatStyle
end DelayInjection.Number
