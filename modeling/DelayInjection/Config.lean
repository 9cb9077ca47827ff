import DelayInjection.Manifest
import DelayInjection.Profile

/-! The settings of a project: built-in values, what its file says, and what a command overrides. -/

namespace DelayInjection

abbrev Config := List (String × Json)

namespace Config

/-- Of these the first that holds an object is read. -/
def fileNames : List String := [".flakemonsterrc.json", "flakemonster.config.json"]

def texts (items : List String) : Json := .arr (items.map .str)

def defaults : Config := [
  ("include", texts ["src/**/*.js"]),
  ("exclude", texts ["**/node_modules/**", "**/dist/**", "**/build/**", "**/.venv/**"]),
  ("mode", .str Mode.medium),
  ("min_delay_ms", .int 0),
  ("max_delay_ms", .int 50),
  ("skip_generators", .bool true)]

/-- The other spelling of some keys. -/
def keyAliases : List (String × String) := [
  ("minDelayMs", "min_delay_ms"), ("maxDelayMs", "max_delay_ms"),
  ("skipGenerators", "skip_generators")]

/-- The name of a key, if it is one. -/
def keyName? (key : String) : Option String :=
  let name := (keyAliases.lookup key).getD key
  if (defaults.map (·.1)).contains name then some name else none

/-- The known keys under their names, and the unknown ones. -/
def normalize (members : List (String × Json)) : Config × List String :=
  (Json.ofPairs (members.filterMap fun (key, value) => (keyName? key).map (·, value)),
    (members.map (·.1)).filter fun key => (keyName? key).isNone)

/-- The settings with others laid over them. -/
def overlay (config others : Config) : Config := Json.ofPairs (config ++ others)

/-- What a command may override; `null` where it does not. -/
structure Overrides where
  mode : Json := .null
  minDelay : Json := .null
  maxDelay : Json := .null
  exclude : Json := .null
  includeGenerators : Json := .null

def isNull : Json → Bool
  | .null => true
  | _ => false

/-- Overrides win; further excludes come behind those that are there. -/
def merge (config : Config) (o : Overrides) : Except Failure Config := do
  let given := [("mode", o.mode), ("min_delay_ms", o.minDelay), ("max_delay_ms", o.maxDelay)]
  let merged := config.overlay (given.filter fun pair => !isNull pair.2)
  let merged ← if o.exclude.truthy then do
      let present ← ((merged.lookup "exclude").getD (.arr [])).items
      let further ← o.exclude.items
      pure (Json.put "exclude" (.arr (present ++ further)) merged)
    else pure merged
  .ok (if o.includeGenerators.truthy then Json.put "skip_generators" (.bool false) merged else merged)

end Config
end DelayInjection
