import DelayInjection.Text.Quoted

/-! Arguments of a command: options with their values, and what stands between them. -/

namespace DelayInjection.Arguments

/-- How many values an option takes. -/
inductive Arity where
  | none
  | one
  /-- One or more. -/
  | many
deriving DecidableEq, Repr

structure Flag where
  names : List String
  arity : Arity
  /-- What is wrong with a value, if something is. -/
  fault : String → Option String := fun _ => Option.none
  /-- Nothing behind it is looked at. -/
  stops : Bool := false

/-- Why arguments do not make a command. -/
inductive Ending where
  | refused (message : String)
  /-- An option was given that asks for something else. -/
  | stopped (option : Flag)

/-- The names of an option, as a message gives them. -/
def Flag.label (f : Flag) : String := String.intercalate "/" f.names

/-- What an argument is on its own: a value, two dashes, or an option with the value that is joined
to it. An option without a flag is unknown. -/
inductive Reading where
  | value
  | dashes
  | option (flag : Option Flag) (name : String) (joined : Option String)

structure Item where
  text : String
  reading : Reading

def quoted (text : String) : String := String.ofList (Text.quoted text.toList)

def isOptionText (text : List Char) : Bool :=
  match text with
  | '-' :: _ :: _ => true
  | _ => false

/-- A minus sign and a decimal number. -/
def isNegativeNumber (text : List Char) : Bool :=
  match text with
  | '-' :: digits =>
    let whole := digits.takeWhile Char.isDigit
    match digits.drop whole.length with
    | [] => !whole.isEmpty
    | '.' :: fraction => !fraction.isEmpty && fraction.all Char.isDigit
    | _ => false
  | _ => false

/-- The text before the first equals sign, and the text behind it. -/
def splitAtEquals (text : List Char) : List Char × Option (List Char) :=
  let before := text.takeWhile (· != '=')
  (before, match text.drop before.length with
    | _ :: behind => some behind
    | [] => none)

def flagNamed (flags : List Flag) (name : String) : Option Flag :=
  flags.find? fun f => f.names.contains name

/-- All names with their flags. -/
def allNames (flags : List Flag) : List (String × Flag) :=
  flags.flatMap fun f => f.names.map fun n => (n, f)

/-- The flags that an argument may stand for: a long name may be cut short, and a short one may be
joined to its value. -/
def candidates (flags : List Flag) (text : List Char) : List (String × Flag × Option String) :=
  match text with
  | '-' :: '-' :: _ =>
    let (name, joined) := splitAtEquals text
    ((allNames flags).filter fun n => name.isPrefixOf n.1.toList).map fun (n, f) =>
      (n, f, joined.map String.ofList)
  | _ =>
    ((allNames flags).filter fun n => n.1.toList = text.take 2).map fun (n, f) =>
      (n, f, some (String.ofList (text.drop 2)))

def read (flags : List Flag) (argument : String) : Except Ending Reading :=
  let text := argument.toList
  if !isOptionText text then .ok .value
  else match flagNamed flags argument with
    | some f => .ok (.option (some f) argument none)
    | none =>
      let (name, joined) := splitAtEquals text
      match if joined.isSome then flagNamed flags (String.ofList name) else none with
      | some f => .ok (.option (some f) (String.ofList name) (joined.map String.ofList))
      | none =>
        match candidates flags text with
        | [(name, f, joined)] => .ok (.option (some f) name joined)
        | [] =>
          if isNegativeNumber text || text.contains ' ' then .ok .value
          else .ok (.option none argument none)
        | several => .error (.refused ("ambiguous option: " ++ argument ++ " could match " ++
            String.intercalate ", " (several.map (·.1))))

/-- Behind two dashes there are only values. -/
def readAll (flags : List Flag) : List String → Except Ending (List Item)
  | [] => .ok []
  | "--" :: rest => .ok (⟨"--", .dashes⟩ :: rest.map fun a => ⟨a, .value⟩)
  | a :: rest => do
    let reading ← read flags a
    .ok (⟨a, reading⟩ :: (← readAll flags rest))

def Item.isOption (i : Item) : Bool :=
  match i.reading with
  | .option _ _ _ => true
  | _ => false

def Item.isValue (i : Item) : Bool :=
  match i.reading with
  | .value => true
  | _ => false

/-- What was read: options with their values in order, what stands between them, and what nothing
takes. -/
structure Result where
  options : List (Flag × List String) := []
  values : Option (List String) := none
  unknown : List String := []

/-- The values of the last option with a name, if it is there. -/
def Result.lookup (r : Result) (name : String) : Option (List String) :=
  (r.options.reverse.find? fun o => o.1.names.contains name).map (·.2)

def Result.has (r : Result) (name : String) : Bool := (r.lookup name).isSome

def Result.last (r : Result) (name : String) : Option String := (r.lookup name).bind (·.getLast?)

def flagFault {α : Type} (f : Flag) (text : String) : Except Ending α :=
  .error (.refused ("argument " ++ f.label ++ ": " ++ text))

/-- An option with its values, which have to be in order. -/
def Result.take (r : Result) (f : Flag) (values : List String) : Except Ending Result :=
  match values.findSome? f.fault with
  | some text => flagFault f text
  | none =>
    if f.stops then .error (.stopped f) else .ok { r with options := r.options ++ [(f, values)] }

/-- An option without values may be joined to others; the last of them may take a value. -/
def takeJoined (flags : List Flag) (r : Result) (f : Flag) (isShort : Bool) :
    List Char → Except Ending (Result × Option Flag)
  | [] => if f.arity = .none then flagFault f ("ignored explicit argument " ++ quoted "") else do
      .ok (← r.take f [""], none)
  | c :: rest =>
    if f.arity ≠ .none then do .ok (← r.take f [String.ofList (c :: rest)], none)
    else match if isShort then flagNamed flags (String.ofList ['-', c]) else none with
      | none => flagFault f ("ignored explicit argument " ++ quoted (String.ofList (c :: rest)))
      | some next => do
        let r ← r.take f []
        if rest.isEmpty then .ok (r, some next) else takeJoined flags r next true rest

/-- An option with the values that follow it, and what is left. -/
def takeFollowing (r : Result) (f : Flag) (rest : List Item) : Except Ending (Result × List Item) :=
  match f.arity with
  | .none => do .ok (← r.take f [], rest)
  | .one =>
    match rest with
    | i :: others =>
      if i.isValue then do .ok (← r.take f [i.text], others)
      else flagFault f "expected one argument"
    | [] => flagFault f "expected one argument"
  | .many =>
    let values := rest.takeWhile Item.isValue
    if values.isEmpty then flagFault f "expected at least one argument"
    else do .ok (← r.take f (values.map (·.text)), rest.drop values.length)

def isLong (name : String) : Bool := "--".toList.isPrefixOf name.toList

/-- The values of a run of arguments; of the dashes between them the first are left out. -/
def valuesOf (items : List Item) : List String := (items.map (·.text)).erase "--"

/-- Goes through the arguments. Only the first run of values counts. -/
def takeAll (flags : List Flag) : Nat → Result → List Item → Except Ending Result
  | 0, r, _ => .ok r
  | fuel + 1, r, items =>
    match items with
    | [] => .ok { r with values := some (r.values.getD []) }
    | i :: rest =>
      match i.reading with
      | .option none _ _ => takeAll flags fuel { r with unknown := r.unknown ++ [i.text] } rest
      | .option (some f) _ none => do
        let (r, rest) ← takeFollowing r f rest
        takeAll flags fuel r rest
      | .option (some f) name (some joined) => do
        match ← takeJoined flags r f (!isLong name) joined.toList with
        | (r, none) => takeAll flags fuel r rest
        | (r, some next) =>
          let (r, rest) ← takeFollowing r next rest
          takeAll flags fuel r rest
      | _ =>
        let run := items.takeWhile fun i => !i.isOption
        let behind := items.drop run.length
        match r.values with
        | none => takeAll flags fuel { r with values := some (valuesOf run) } behind
        | some _ =>
          takeAll flags fuel { r with unknown := r.unknown ++ run.map (·.text) } behind

/-- The arguments of a command with the given flags. -/
def parse (flags : List Flag) (arguments : List String) : Except Ending Result := do
  let items ← readAll flags arguments
  takeAll flags (items.length + 1) {} items

end DelayInjection.Arguments
