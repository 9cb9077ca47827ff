import DelayInjection.CommandLine.Arguments
import DelayInjection.Config

/-! The commands and their options. -/

namespace DelayInjection

open Arguments (Flag)

structure InjectArguments where
  root : String
  globs : List String
  mode : Option String
  seed : String
  minDelay : Option Int
  maxDelay : Option Int
  exclude : Option (List String)
  includeGenerators : Bool
  yes : Bool

structure RestoreArguments where
  root : String
  globs : List String
  recover : Bool
  folder : String
  yes : Bool

structure ScanArguments where
  root : String
  globs : List String

inductive Command where
  | inject (arguments : InjectArguments)
  | restore (arguments : RestoreArguments)
  | scan (arguments : ScanArguments)

/-- What a line of arguments asks for. -/
inductive Request where
  | run (command : Command)
  | version
  | help
  | refused (message : String)

namespace Command

def programName : String := "flakemonster"

def programVersion : String := "0.4.0"

def choices (names : List String) : String :=
  " (choose from " ++ String.intercalate ", " (names.map Arguments.quoted) ++ ")"

def modeFault (value : String) : Option String :=
  if Mode.all.contains value then none
  else some ("invalid choice: " ++ Arguments.quoted value ++ choices Mode.all)

/-- An integer in the form that settings have. -/
def integer? (value : String) : Option Int := (Text.parseInt value.toList).toOption

def integerFault (value : String) : Option String :=
  if (integer? value).isSome then none
  else some ("invalid int value: " ++ Arguments.quoted value)

def helpFlag : Flag := { names := ["-h", "--help"], arity := .none, stops := true }

def versionFlag : Flag := { names := ["--version"], arity := .none, stops := true }

def rootFlag : Flag := { names := ["--root"], arity := .one }

def yesFlag : Flag := { names := ["-y", "--yes"], arity := .none }

def injectFlags : List Flag := [
  helpFlag, rootFlag,
  { names := ["-m", "--mode"], arity := .one, fault := modeFault },
  { names := ["-s", "--seed"], arity := .one },
  { names := ["--min-delay"], arity := .one, fault := integerFault },
  { names := ["--max-delay"], arity := .one, fault := integerFault },
  { names := ["-e", "--exclude"], arity := .many },
  { names := ["--include-generators"], arity := .none },
  yesFlag]

def restoreFlags : List Flag := [
  helpFlag, rootFlag,
  { names := ["--recover"], arity := .none },
  { names := ["--dir"], arity := .one },
  yesFlag]

def scanFlags : List Flag := [helpFlag, rootFlag]

def rootOf (r : Arguments.Result) : String := (r.last "--root").getD "."

def globsOf (r : Arguments.Result) : List String := r.values.getD []

def ofInject (r : Arguments.Result) : Command :=
  .inject {
    root := rootOf r
    globs := globsOf r
    mode := r.last "--mode"
    seed := (r.last "--seed").getD "auto"
    minDelay := (r.last "--min-delay").bind integer?
    maxDelay := (r.last "--max-delay").bind integer?
    exclude := r.lookup "--exclude"
    includeGenerators := r.has "--include-generators"
    yes := r.has "--yes" }

def ofRestore (r : Arguments.Result) : Command :=
  .restore {
    root := rootOf r
    globs := globsOf r
    recover := r.has "--recover"
    folder := (r.last "--dir").getD ""
    yes := r.has "--yes" }

def ofScan (r : Arguments.Result) : Command := .scan ⟨rootOf r, globsOf r⟩

/-- The commands by name, with their options. -/
def all : List (String × List Flag × (Arguments.Result → Command)) := [
  ("inject", injectFlags, ofInject),
  ("restore", restoreFlags, ofRestore),
  ("scan", scanFlags, ofScan)]

def programFlags : List Flag := [helpFlag, versionFlag]

/-- The name of the command with its arguments, and the options in front of it that nothing knows. -/
def split : Nat → List String → List Arguments.Item →
    Except Arguments.Ending (String × List String × List String)
  | 0, _, _ => .error (.refused "")
  | _ + 1, _, [] => .error (.refused "the following arguments are required: command")
  | fuel + 1, unknown, i :: rest =>
    match i.reading with
    | .value => .ok (i.text, rest.map (·.text), unknown)
    | .dashes =>
      if rest.isEmpty then split fuel unknown rest else .ok (i.text, rest.map (·.text), unknown)
    | .option none _ _ => split fuel (unknown ++ [i.text]) rest
    | .option (some f) _ none => do
      let _ ← Arguments.takeFollowing {} f rest
      split fuel unknown rest
    | .option (some f) name (some joined) => do
      let _ ← Arguments.takeJoined programFlags {} f (!Arguments.isLong name) joined.toList
      split fuel unknown rest

/-- What an ending means to the user of the program, or of one of its commands. -/
def requestOf (program : String) : Arguments.Ending → Request
  | .refused message => .refused (program ++ ": error: " ++ message)
  | .stopped f => if f.names.contains "--version" then .version else .help

def ofNamed (name : String) (arguments unknown : List String) : Request :=
  match all.lookup name with
  | none => requestOf programName (.refused ("argument command: invalid choice: " ++
      Arguments.quoted name ++ choices (all.map (·.1))))
  | some (flags, command) =>
    match Arguments.parse flags arguments with
    | .error ending => requestOf (programName ++ " " ++ name) ending
    | .ok result =>
      let unknown := unknown ++ result.unknown
      if unknown.isEmpty then .run (command result)
      else requestOf programName
        (.refused ("unrecognized arguments: " ++ String.intercalate " " unknown))

def ofArguments (arguments : List String) : Request :=
  match Arguments.readAll programFlags arguments with
  | .error ending => requestOf programName ending
  | .ok items =>
    match split (items.length + 1) [] items with
    | .error ending => requestOf programName ending
    | .ok (name, arguments, unknown) => ofNamed name arguments unknown

end Command
end DelayInjection
