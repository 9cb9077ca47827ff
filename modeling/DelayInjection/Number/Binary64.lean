/-! Binary floating-point numbers of 64 bits, as exact integers times powers of two. -/

namespace DelayInjection.Number

/-- A finite number is `mantissa * 2 ^ exponent`, negated if `negative`; zero keeps its sign. -/
inductive Binary64 where
  | nan
  | infinite (negative : Bool)
  | finite (negative : Bool) (mantissa : Nat) (exponent : Int)
deriving DecidableEq, Repr

namespace Binary64

def minExponent : Int := -1074

def maxExponent : Int := 971

/-- Half a unit and more goes up, an exact half to the even neighbour. -/
def divNearestEven (num den : Nat) : Nat :=
  let q := num / den
  let r := num % den
  if den < 2 * r || (2 * r == den && q % 2 == 1) then q + 1 else q

/-- The exponent at which `num / den` has a mantissa of 53 bits, but never below the least. -/
def exponentOf (num den : Nat) : Int :=
  let e : Int := (num.log2 : Int) - den.log2 - 53
  let quotient := num * Nat.pow 2 (-e).toNat / (den * Nat.pow 2 e.toNat)
  max minExponent (if quotient < Nat.pow 2 53 then e else e + 1)

/-- The number nearest to `num / den`; beyond the greatest finite number it is infinite. -/
def ofQuotient (negative : Bool) (num den : Nat) : Binary64 :=
  if num = 0 ∨ den = 0 then finite negative 0 minExponent
  else
    let e := exponentOf num den
    let m := divNearestEven (num * Nat.pow 2 (-e).toNat) (den * Nat.pow 2 e.toNat)
    let (m, e) := if m = Nat.pow 2 53 then (Nat.pow 2 52, e + 1) else (m, e)
    if maxExponent < e then infinite negative else finite negative m e

/-- The number nearest to `m * 2 ^ e`. -/
def ofScaled (m : Int) (e : Int) : Binary64 :=
  ofQuotient (decide (m < 0)) (m.natAbs * Nat.pow 2 e.toNat) (Nat.pow 2 (-e).toNat)

def ofInt (n : Int) : Binary64 := ofScaled n 0

def ofInt? (n : Int) : Option Binary64 :=
  match ofInt n with
  | infinite _ => none
  | x => some x

def signed (negative : Bool) (m : Nat) : Int := if negative then -(m : Int) else m

def mul : Binary64 → Binary64 → Binary64
  | nan, _ | _, nan => nan
  | infinite s, infinite t => infinite (s != t)
  | infinite s, finite t m _ | finite t m _, infinite s => if m = 0 then nan else infinite (s != t)
  | finite s m e, finite t n f =>
    let d := e + f
    ofQuotient (s != t) (m * n * Nat.pow 2 d.toNat) (Nat.pow 2 (-d).toNat)

def add : Binary64 → Binary64 → Binary64
  | nan, _ | _, nan => nan
  | infinite s, infinite t => if s = t then infinite s else nan
  | infinite s, finite .. | finite .., infinite s => infinite s
  | finite s m e, finite t n f =>
    if m = 0 ∧ n = 0 then finite (s && t) 0 minExponent
    else
      let d := min e f
      ofScaled (signed s m * Nat.pow 2 (e - d).toNat + signed t n * Nat.pow 2 (f - d).toNat) d

inductive NotInteger where
  | infinite
  | nan
deriving DecidableEq, Repr

/-- The integer part, toward zero. -/
def truncate : Binary64 → Except NotInteger Int
  | nan => .error .nan
  | infinite _ => .error .infinite
  | finite s m e => .ok (signed s (m * Nat.pow 2 e.toNat / Nat.pow 2 (-e).toNat))

def isZero : Binary64 → Bool
  | finite _ 0 _ => true
  | _ => false

/-- The value as an integer over a power of two. -/
def ratio? : Binary64 → Option (Int × Nat)
  | finite s m e => some (signed s (m * Nat.pow 2 e.toNat), Nat.pow 2 (-e).toNat)
  | _ => none

/-- The numbers as one compares them: a number that is not one equals nothing. -/
def equals (x y : Binary64) : Bool :=
  match x, y with
  | infinite s, infinite t => s == t
  | _, _ => match x.ratio?, y.ratio? with
    | some (m, d), some (n, f) => m * f == n * d
    | _, _ => false

def equalsInt (x : Binary64) (n : Int) : Bool :=
  match x.ratio? with
  | some (m, d) => m == n * d
  | none => false

/-- The bit pattern, sign first. -/
def bits : Binary64 → Nat
  | nan => 0x7FF8000000000000
  | infinite s => (if s then Nat.pow 2 63 else 0) + 0x7FF0000000000000
  | finite s m e =>
    (if s then Nat.pow 2 63 else 0) +
      if m < Nat.pow 2 52 then m else (e - minExponent + 1).toNat * Nat.pow 2 52 + (m - Nat.pow 2 52)

end Binary64
end DelayInjection.Number
