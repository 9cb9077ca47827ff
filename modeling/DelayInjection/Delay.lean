import DelayInjection.Seed

/-! The delay of one injection point, in milliseconds. -/

namespace DelayInjection

open Number (Binary64)

namespace Delay

/-- What the seed of a point is derived from. An index too long to be written has no context. -/
def context? (file container : String) (index : Int) : Option String :=
  (Text.showInt? index).map fun i => file ++ ":" ++ container ++ ":" ++ i

/-- The draw as a fraction of one. -/
def fraction (draw : Nat) : Binary64 := Binary64.ofScaled draw (-32)

def half : Binary64 := Binary64.ofScaled 1 (-1)

def toFloat (n : Int) : Except Failure Binary64 :=
  match Binary64.ofInt? n with
  | some x => .ok x
  | none => .error .beyondFloat

/-- `low + fraction * (high - low)` in floating point, with halves rounded up. -/
def between (low high : Int) (fraction : Binary64) : Except Failure Int := do
  let span ← toFloat (high - low)
  let low ← toFloat low
  let value := (low.add (fraction.mul span)).add half
  value.truncate.mapError .notInteger

/-- The delay that belongs to the `index`-th point of a container of a file. -/
def milliseconds (seed : Int) (file container : String) (index low high : Int) : Except Failure Int :=
  match context? file container index with
  | none => .error .longInteger
  | some context =>
    between low high (fraction (Generator.ofSeed (Seed.derive seed context)).next.1.toNat)

end Delay
end DelayInjection
