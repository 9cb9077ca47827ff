import DelayInjection.JavaScript.Token

/-! Steps of a JavaScript parse: a cursor that moves on or a refusal, and the single tokens. -/

namespace DelayInjection.JavaScript

abbrev Scan := StateT Cursor Option

/-- What the tokens of an expression allow to be done with it. -/
structure Shape where
  /-- It has a value. -/
  value : Bool := false
  /-- It can be assigned to. -/
  target : Bool := false
  /-- It is an object or a list, and assigning to it takes it apart. -/
  pattern : Bool := false
  /-- It is a target with an initial value. -/
  initialised : Bool := false
  /-- It stands in parentheses. -/
  grouped : Bool := false
deriving DecidableEq, Repr

namespace Shape

def plain : Shape := ⟨true, false, false, false, false⟩

def reference : Shape := ⟨true, true, false, false, false⟩

/-- It may stand in a list of parameters. -/
def parameter (s : Shape) : Bool := s.target || s.initialised

end Shape

/-- The nodes inside of what was parsed, in order, and its shape. -/
structure Piece where
  forest : List Tree
  shape : Shape

/-- The parts of the grammar that hold one another. `ends` says that a statement may end behind. -/
inductive Part where
  | statement
  | expression (ends : Bool)
  | operand (ends : Bool)
  | element
deriving DecidableEq, Repr

/-- A bound on the number of repetitions, and the parse of the parts. -/
structure Rules where
  limit : Nat
  parse : Part → Scan Piece

def refuse {α : Type} : Scan α := failure

def rest : Scan (List Char) := return (← get).rest

def place : Scan Place := return (← get).place

def skip (n : Nat) : Scan Unit := modify (Cursor.advance n)

namespace Rules

variable (g : Rules)

def toOperand : Scan Unit := modify fun c => (c.skipTrivia true g.limit).2

def toOperator : Scan Unit := modify fun c => (c.skipTrivia false g.limit).2

/-- The text comes next. -/
def sees (text : String) : Scan Bool := return (← get).startsWith text

/-- Takes the text if it comes next. -/
def takes (text : String) : Scan Bool := do
  g.toOperator
  if (← get).startsWith text then
    skip text.length
    return true
  else return false

def need (text : String) : Scan Unit := do
  if !(← g.takes text) then refuse

/-- The name that comes next, empty if none does. -/
def word : Scan String := do
  let text ← rest
  return String.ofList (text.take (nameLength true g.limit text))

def takesWord (w : String) : Scan Bool := do
  g.toOperator
  if (← g.word) = w then
    skip w.length
    return true
  else return false

def needWord (w : String) : Scan Unit := do
  if !(← g.takesWord w) then refuse

/-- A node from `start` to where the cursor is. -/
def close (kind : NodeKind) (start : Place) (children : List Tree) : Scan Tree :=
  return .node kind .plain start (← place).offset children

def single (t : Tree) : Piece := ⟨[t], .plain⟩

/-- A name, reserved or not. -/
def anyName : Scan Tree := do
  g.toOperator
  let start ← place
  let n := nameLength true g.limit (← rest)
  if n = 0 then refuse
  skip n
  return (← close .name start []).inRole .name

def identifier : Scan Tree := do
  g.toOperator
  if reservedWords.contains (← g.word) then refuse
  g.anyName

/-- Goes on to the token behind. `false` if the statement ends here without a semicolon; each
comment gives it another chance to. -/
def continues (ends afterComment : Bool) : Nat → Scan Bool
  | 0 => return false
  | fuel + 1 => do
    if ends && semicolonMayMiss afterComment g.limit g.limit (← rest) then return false
    modify Cursor.skipGaps
    match commentLength? (← rest) with
    | some n =>
      skip n
      continues ends afterComment fuel
    | none => return true

def goesOn (ends afterComment : Bool) : Scan Bool := g.continues ends afterComment g.limit

/-- A semicolon, or a place where it may be left out. -/
def semicolon (afterComment : Bool) : Scan Unit := do
  if ← g.goesOn true afterComment then g.need ";"

/-- The rest of a quoted text. A line break ends its characters; only blanks and comments may follow
up to the closing quote. -/
def closeQuote (quote : Char) : Nat → Scan Unit
  | 0 => refuse
  | fuel + 1 => do
    let text ← rest
    let n := (text.takeWhile fun c => c != quote && c != '\\' && c != '\n' && c != '\r').length
    skip n
    match text.drop n with
    | [] => refuse
    | '\\' :: more =>
      match escapeLength? ('\\' :: more) with
      | some n => do
        skip n
        closeQuote quote fuel
      | none => refuse
    | c :: _ =>
      if c = quote then skip 1
      else g.need (String.singleton quote)

def quotedText : Scan Unit := do
  g.toOperator
  match ← rest with
  | '"' :: _ => do
    skip 1
    g.closeQuote '"' g.limit
  | '\'' :: _ => do
    skip 1
    g.closeQuote '\'' g.limit
  | _ => refuse

end Rules
end DelayInjection.JavaScript
