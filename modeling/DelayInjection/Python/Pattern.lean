import DelayInjection.Python.Expression

/-! The patterns of a Python match statement. -/

namespace DelayInjection.Python

open Parse

def Token.isImaginary (t : Token) : Bool :=
  t.text.toList.getLast?.any fun c => c == 'j' || c == 'J'

def opensPattern (t : Token) : Bool :=
  t.isName || t.kind = .number || t.kind = .text ||
    ["None", "True", "False", "-", "(", "[", "\x7b", "*"].contains t.text

namespace Rules

variable (g : Rules)

def pattern : Parse (List Inner) := return (← g.parse .pattern).inner

/-- Behind a name that stands for what is matched, nothing follows that would make it a reference. -/
def goesOnAsReference : Parse Bool := do
  let t ← peek
  return t.text = "." || t.text = "(" || t.text = "="

/-- A name for what is matched. -/
def capture : Parse Unit := do
  if ← sees "_" then refuse
  let _ ← name
  if ← goesOnAsReference then refuse

/-- A number, or the sum of a real and an imaginary one. -/
def numberPattern : Parse Unit := do
  let _ ← takes "-"
  let real ← peek
  needKind .number
  let t ← peek
  if t.text = "+" || t.text = "-" then
    take
    let imaginary ← peek
    needKind .number
    if real.isImaginary || !imaginary.isImaginary then invalid

def opensLiteral (t : Token) : Bool :=
  t.kind = .number || t.kind = .text || ["-", "None", "True", "False"].contains t.text

def literal : Parse (List Inner) := do
  let t ← peek
  if t.kind = .text then return (← g.quoted t.line).inner
  else if t.kind = .number || t.text = "-" then
    numberPattern
    return []
  else
    take
    return []

/-- Further names of a reference, and how many. -/
def members : Nat → Parse Nat
  | 0 => refuse
  | fuel + 1 => do
    if ← takes "." then
      let _ ← name
      return (← members fuel) + 1
    else return 0

def starredPattern : Parse Piece := do
  let line ← line
  if ← takes "*" then
    if !(← takes "_") then capture
    return ⟨[], .star .value, line⟩
  else g.parse .pattern

/-- Patterns between commas, and whether there was a comma. -/
def patternItems : Nat → Parse (List Piece × Bool)
  | 0 => refuse
  | fuel + 1 => do
    let first ← g.starredPattern
    if ← takes "," then
      if opensPattern (← peek) then
        let (others, _) ← patternItems fuel
        return (first :: others, true)
      else return ([first], true)
    else return ([first], false)

/-- A pattern, or a sequence of them; a star alone is neither. -/
def openPattern : Parse (List Inner) := do
  match ← g.patternItems g.limit with
  | ([p], false) => if p.shape.starred then refuse else return p.inner
  | (pieces, _) => return innerOf pieces

def listPattern : Parse (List Inner) := do
  if ← takes "]" then return []
  let (pieces, _) ← g.patternItems g.limit
  need "]"
  return innerOf pieces

def keyPattern : Parse (List Inner) := do
  if opensLiteral (← peek) then g.literal
  else
    let _ ← name
    if (← members g.limit) = 0 then refuse else return []

def mappingFrom : Nat → Parse (List Inner)
  | 0 => refuse
  | fuel + 1 => do
    if ← takes "\x7d" then return []
    if ← takes "**" then
      capture
      let _ ← takes ","
      need "\x7d"
      return []
    let key ← g.keyPattern
    need ":"
    let inner := key ++ (← g.pattern)
    if ← takes "," then return inner ++ (← mappingFrom fuel)
    need "\x7d"
    return inner

/-- Patterns for the parts of an object; those with names come last. -/
def partsFrom (named : Bool) : Nat → Parse (List Inner)
  | 0 => refuse
  | fuel + 1 => do
    if ← takes ")" then return []
    let isNamed ← takesNameWith "="
    if named && !isNamed then refuse
    let inner ← g.pattern
    if ← takes "," then return inner ++ (← partsFrom isNamed fuel)
    need ")"
    return inner

/-- A name that stands for what is matched, a reference, or the class of an object with its parts. -/
def namePattern : Parse (List Inner) := do
  if ← takes "_" then return []
  let _ ← name
  let _ ← members g.limit
  if ← takes "(" then g.partsFrom false g.limit
  else if ← sees "=" then refuse
  else return []

def closedPattern : Parse (List Inner) := do
  let t ← peek
  if opensLiteral t then g.literal
  else if t.isName then g.namePattern
  else if ← takes "(" then
    if ← takes ")" then return []
    let inner ← g.openPattern
    need ")"
    return inner
  else if ← takes "[" then g.listPattern
  else if ← takes "\x7b" then g.mappingFrom g.limit
  else refuse

def choices : Nat → Parse (List Inner)
  | 0 => refuse
  | fuel + 1 => do
    let first ← g.closedPattern
    if ← takes "|" then return first ++ (← choices fuel)
    return first

def patternRule : Parse Piece := do
  let line ← line
  let inner ← g.choices g.limit
  if ← takes "as" then capture
  return ⟨inner, .value, line⟩

def rule : Part → Parse Piece
  | .expression => g.expressionRule
  | .factor => g.factorRule
  | .pattern => g.patternRule

end Rules

/-- The parse of a part whose parts nest no deeper than the second number. -/
def parsePart (limit : Nat) : Nat → Part → Parse Piece
  | 0, _ => Parse.refuse
  | depth + 1, part => Rules.rule ⟨limit, parsePart limit depth⟩ part

end DelayInjection.Python
