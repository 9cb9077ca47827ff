import DelayInjection.Failure
import DelayInjection.Text.Units

/-! Seeds: 32-bit words, the hash of a context, and the generator that a seed starts. -/

namespace DelayInjection

open Number (Binary64)

/-- Wraps an integer into the signed 32-bit range. -/
def toInt32 (n : Int) : Int := Int.bmod n 4294967296

/-- The word congruent to an integer. -/
def toWord (n : Int) : UInt32 := UInt32.ofNat (n % 4294967296).toNat

namespace Seed

def hashStart : UInt32 := 5381

def hashStep (h : UInt32) (unit : Nat) : UInt32 := (h <<< 5) + h + UInt32.ofNat unit

def hashUnits (units : List Nat) : UInt32 := units.foldl hashStep hashStart

/-- The hash of a text, taken over its 16-bit units. -/
def hash (text : String) : UInt32 := hashUnits (Text.allUnits16 text.toList)

/-- The seed of one context, from the seed of the run. -/
def derive (base : Int) (context : String) : Int := toInt32 (base + (hash context).toNat)

end Seed

/-- The state of a generator of 32-bit draws. -/
structure Generator where
  state : UInt32
deriving DecidableEq, Repr

namespace Generator

def increment : UInt32 := 0x6D2B79F5

def ofSeed (seed : Int) : Generator := ⟨toWord seed⟩

def next (g : Generator) : UInt32 × Generator :=
  let s := g.state + increment
  let t := (s ^^^ (s >>> 15)) * (1 ||| s)
  let t := (t + (t ^^^ (t >>> 7)) * (61 ||| t)) ^^^ t
  (t ^^^ (t >>> 14), ⟨s⟩)

def draws : Nat → Generator → List UInt32
  | 0, _ => []
  | n + 1, g => g.next.1 :: draws n g.next.2

end Generator

namespace Seed

/-- An integer, the integer part of a number, a truth value as 0 or 1, or a numeral. -/
def integer (value : Json) : Except Failure Int :=
  match value with
  | .bool b => .ok (if b then 1 else 0)
  | .int n => .ok n
  | .float x => x.truncate.mapError .notInteger
  | .str s => (Text.parseInt s.toList).mapError (.numeral s)
  | _ => .error .wrongType

/-- Reads a seed and wraps it; `auto` takes the one that was picked. Only an infinite number fails in
its own way. -/
def parse (picked : Int) (value : Json) : Except Failure Int :=
  if value.isStr "auto" then .ok picked
  else match integer value with
    | .ok n => .ok (toInt32 n)
    | .error (.notInteger .infinite) => .error (.notInteger .infinite)
    | .error _ => .error (.invalidSeed value)

end Seed
end DelayInjection
