import DelayInjection.Seed

/-! How densely delays are placed, and the settings of a run. -/

namespace DelayInjection

/-- What the policy needs to know of a statement: whether it leaves its function. -/
inductive Kind where
  | returns
  | throws
  | plain
deriving DecidableEq, Repr

namespace Kind

def name : Kind → String
  | returns => "return"
  | throws => "throw"
  | plain => "statement"

def ofName (name : String) : Kind :=
  if name = "return" then returns else if name = "throw" then throws else plain

end Kind

namespace Mode

def light : String := "light"

def medium : String := "medium"

def hardcore : String := "hardcore"

def all : List String := [light, medium, hardcore]

/-- Light takes the first statement of a body, medium all that do not leave, hardcore all. -/
def selects (mode : String) (kind : Kind) (position : Int) : Bool :=
  if mode = light then position == 0
  else if mode = medium then kind != .returns && kind != .throws
  else mode == hardcore

end Mode

/-- The settings for one file. -/
structure Options where
  filePath : String
  mode : String := Mode.medium
  seed : Int := 0
  minDelay : Int := 0
  maxDelay : Int := 50
  skipGenerators : Bool := true
deriving DecidableEq, Repr

/-- The settings of a run. -/
structure Profile where
  mode : String := Mode.medium
  minDelay : Int := 0
  maxDelay : Int := 50
  skipGenerators : Bool := true
deriving DecidableEq, Repr

namespace Profile

/-- A known mode, and a range that starts at zero or later and does not end before it starts. -/
def ofSettings (mode : Json) (minDelay maxDelay : Int) (skipGenerators : Bool) :
    Except Failure Profile :=
  match Mode.all.find? mode.isStr with
  | none => .error (.invalidMode mode)
  | some mode =>
    if minDelay < 0 then .error .negativeMinimum
    else if maxDelay < minDelay then .error .reversedRange
    else .ok ⟨mode, minDelay, maxDelay, skipGenerators⟩

/-- The profile that the members of a configuration describe; the numbers are read first. -/
def ofConfig (config : List (String × Json)) : Except Failure Profile := do
  let mode := (config.lookup "mode").getD .null
  let minDelay ← Seed.integer ((config.lookup "min_delay_ms").getD (.int 0))
  let maxDelay ← Seed.integer ((config.lookup "max_delay_ms").getD (.int 50))
  ofSettings (if mode.truthy then mode else .str Mode.medium) minDelay maxDelay
    ((config.lookup "skip_generators").getD (.bool true)).truthy

def options (profile : Profile) (filePath : String) (seed : Int) : Options :=
  ⟨filePath, profile.mode, seed, profile.minDelay, profile.maxDelay, profile.skipGenerators⟩

end Profile
end DelayInjection
