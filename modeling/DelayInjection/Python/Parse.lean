import DelayInjection.Python.Syntax
import DelayInjection.Python.Token

/-! Steps of a Python parse: a reader that moves on, a refusal that lets another rule be tried, or a fault that ends the parse. -/

namespace DelayInjection.Python

/-- The tokens to come, the number of those before, the number of the furthest one looked at, and the
line in which the last one taken ends. -/
structure Reader where
  rest : List Token
  index : Nat
  furthest : Nat
  line : Nat

def Reader.ofTokens (tokens : List Token) : Reader := ⟨tokens, 0, 0, 1⟩

/-- Why a parse stops. -/
inductive Stop where
  /-- No rule fits. -/
  | stuck
  | broken (fault : ParseFault)
  /-- A header is not followed by an indented block. -/
  | blockMissing
deriving DecidableEq, Repr

abbrev Parse := EStateM Stop Reader

namespace Parse

def refuse {α : Type} : Parse α := throw .stuck

def invalid {α : Type} : Parse α := throw (.broken .invalidSyntax)

/-- Tries the second from the same place if the first is stuck. -/
def orElse {α : Type} (first second : Parse α) : Parse α := fun r =>
  match first r with
  | .error .stuck after => second { r with furthest := after.furthest }
  | result => result

/-- Runs a parse, and goes back to where it began. -/
def ahead {α : Type} (p : Parse α) : Parse α := fun r =>
  match p r with
  | .ok value after => .ok value { r with furthest := after.furthest }
  | result => result

/-- The token that comes next. A fault is found when it is looked at. -/
def peek : Parse Token := fun r =>
  match r.rest with
  | [] => .error .stuck r
  | t :: _ =>
    let r := { r with furthest := max r.furthest r.index }
    match t.kind with
    | .fault fault _ => .error (.broken fault) r
    | _ => .ok t r

/-- Moves behind the next token. -/
def take : Parse Unit := modify fun r =>
  match r.rest with
  | [] => r
  | t :: rest => { r with rest := rest, index := r.index + 1, line := t.endLine }

def sees (text : String) : Parse Bool := return (← peek).text = text

def seesKind (kind : TokenKind) : Parse Bool := return (← peek).kind = kind

def takes (text : String) : Parse Bool := do
  if (← peek).text = text then
    take
    return true
  else return false

def need (text : String) : Parse Unit := do
  if !(← takes text) then refuse

def needKind (kind : TokenKind) : Parse Unit := do
  if (← peek).kind = kind then take else refuse

/-- Where the next token starts. -/
def line : Parse Nat := return (← peek).line

/-- The texts of the tokens from an earlier reader up to here. -/
def wordsFrom (start : Reader) : Parse (List String) :=
  return (start.rest.take ((← get).index - start.index)).map (·.text)

end Parse

def keywords : List String := [
  "False", "None", "True", "and", "as", "assert", "async", "await", "break", "class", "continue",
  "def", "del", "elif", "else", "except", "finally", "for", "from", "global", "if", "import", "in",
  "is", "lambda", "nonlocal", "not", "or", "pass", "raise", "return", "try", "while", "with",
  "yield"]

def Token.isName (t : Token) : Bool := t.kind = .name && !keywords.contains t.text

namespace Parse

/-- A name that is no keyword, as written. -/
def name : Parse String := do
  let t ← peek
  if t.isName then
    take
    return t.text
  else refuse

/-- Names that differ only in how they are encoded are equal. -/
def normalName : Parse String := return Text.Normalization.normalize (← name)

/-- A name with the given mark behind it comes next; both are taken. -/
def takesNameWith (mark : String) : Parse Bool := do
  if !(← peek).isName then return false
  let follows ← ahead do
    take
    sees mark
  if follows then
    take
    take
  return follows

/-- One or more of a kind between commas. -/
def separated {α : Type} (item : Parse α) : Nat → Parse (List α)
  | 0 => refuse
  | fuel + 1 => do
    let first ← item
    if ← takes "," then return first :: (← separated item fuel)
    return [first]

end Parse
end DelayInjection.Python
