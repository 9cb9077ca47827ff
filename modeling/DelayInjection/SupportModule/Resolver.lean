import DelayInjection.Delay

/-! The support module's own derivation of a delay, in residues modulo `2 ^ 32`, and its suspension. -/

namespace DelayInjection.SupportModule

open Number (Binary64)

def wordSize : Nat := 4294967296

/-- The range in force where a call names none. -/
structure Defaults where
  minDelay : Int := 0
  maxDelay : Int := 50
deriving DecidableEq, Repr

def Defaults.configure (d : Defaults) (minDelay maxDelay : Option Int) : Defaults :=
  ⟨minDelay.getD d.minDelay, maxDelay.getD d.maxDelay⟩

def hashText (text : String) : Nat :=
  (Text.allUnits16 text.toList).foldl (fun h unit => (h * 33 + unit) % wordSize) 5381

/-- The first draw of the generator that a residue starts. -/
def firstDraw (seed : Nat) : Nat :=
  let s := (seed + 0x6D2B79F5) % wordSize
  let t := (s ^^^ (s >>> 15)) * (1 ||| s) % wordSize
  let t := (t + (t ^^^ (t >>> 7)) * (61 ||| t) % wordSize) % wordSize ^^^ t
  (t ^^^ (t >>> 14)) % wordSize

/-- What a call may say about the delay that it stands for. -/
structure Request where
  seed : Int
  file : String
  function : String
  index : Int
  minDelay : Option Int := none
  maxDelay : Option Int := none
deriving DecidableEq, Repr

def Defaults.resolve (d : Defaults) (r : Request) : Except Failure Int :=
  match Delay.context? r.file r.function r.index with
  | none => .error .longInteger
  | some context =>
    let start := ((r.seed + hashText context) % wordSize).toNat
    Delay.between (r.minDelay.getD d.minDelay) (r.maxDelay.getD d.maxDelay)
      (Delay.fraction (firstDraw start))

/-- Milliseconds as seconds. -/
def seconds (milliseconds : Int) : Except Failure Binary64 :=
  match Binary64.ofQuotient (decide (milliseconds < 0)) milliseconds.natAbs 1000 with
  | .infinite _ => .error .beyondQuotient
  | x => .ok x

/-- How long a call suspends: a given delay is taken as it is. -/
def Defaults.suspension (d : Defaults) (delay : Option Int) (r : Request) : Except Failure Binary64 := do
  match delay with
  | some ms => seconds ms
  | none => seconds (← d.resolve r)

end DelayInjection.SupportModule
