import DelayInjection.Python.Parse
import DelayInjection.Python.Quoted

/-! Expressions of Python. Operators of one kind are read without their ranks, which do not change what an expression holds. -/

namespace DelayInjection.Python

/-- What the tokens of an expression allow to be done with it. -/
structure Shape where
  /-- It can be assigned to. -/
  target : Bool := false
  /-- It names one thing, which can also be changed or annotated. -/
  single : Bool := false
  /-- It can be deleted. -/
  deletable : Bool := false
  /-- It stands behind a star. -/
  starred : Bool := false
  /-- It is a text without fields. -/
  text : Bool := false
deriving DecidableEq, Repr

namespace Shape

def value : Shape := ⟨false, false, false, false, false⟩

def reference : Shape := ⟨true, true, true, false, false⟩

/-- A list or a tuple can be taken apart if its items can be assigned to. -/
def collection (items : List Shape) : Shape :=
  ⟨items.all (·.target), false, items.all fun s => s.deletable && !s.starred, false, false⟩

def star (s : Shape) : Shape := ⟨s.target, false, false, true, false⟩

end Shape

/-- What stands in an expression, its shape, and the line in which it starts; parentheses that only
group it do not count. -/
structure Piece where
  inner : List Inner
  shape : Shape
  line : Nat

/-- The parts of the grammar that hold one another. -/
inductive Part where
  | expression
  | factor
  | pattern
deriving DecidableEq, Repr

/-- A bound on the number of repetitions, and the parse of the parts. -/
structure Rules where
  limit : Nat
  parse : Part → Parse Piece

open Parse

/-- Words that open an expression. -/
def openingWords : List String := ["False", "None", "True", "await", "lambda", "not"]

def openingMarks : List String := ["(", "[", "\x7b", "-", "+", "~", "..."]

/-- An expression starts here, perhaps behind a star. -/
def opensItem (t : Token) : Bool :=
  t.isName || t.kind = .number || t.kind = .text || openingWords.contains t.text ||
    openingMarks.contains t.text || t.text = "*"

def innerOf (pieces : List Piece) : List Inner := pieces.flatMap (·.inner)

namespace Rules

variable (g : Rules)

def expression : Parse Piece := g.parse .expression

def binaryMarks : List String := ["|", "^", "&", "<<", ">>", "+", "-", "*", "/", "//", "%", "@"]

def operands : Nat → Parse (List Piece)
  | 0 => refuse
  | fuel + 1 => do
    if binaryMarks.contains (← peek).text then
      take
      let first ← g.parse .factor
      return first :: (← operands fuel)
    else return []

/-- One operand alone, or a value that is made of several. -/
def combined (line : Nat) (first : Piece) (others : List Piece) : Piece :=
  if others.isEmpty then first else ⟨innerOf (first :: others), .value, line⟩

/-- An expression without comparisons. -/
def arithmetic : Parse Piece := do
  let line ← line
  let first ← g.parse .factor
  return combined line first (← g.operands g.limit)

def comparisonMarks : List String := ["==", "!=", "<=", "<", ">=", ">"]

def takesComparison : Parse Bool := do
  let t ← peek
  if comparisonMarks.contains t.text || t.text = "in" then
    take
    return true
  else if t.text = "is" then
    take
    let _ ← takes "not"
    return true
  else if t.text = "not" then
    take
    need "in"
    return true
  else return false

def compared : Nat → Parse (List Piece)
  | 0 => refuse
  | fuel + 1 => do
    if ← takesComparison then
      let first ← g.arithmetic
      return first :: (← compared fuel)
    else return []

def negations : Nat → Parse Bool
  | 0 => refuse
  | fuel + 1 => do
    if ← takes "not" then
      let _ ← negations fuel
      return true
    else return false

def comparison : Parse Piece := do
  let line ← line
  let negated ← negations g.limit
  let first ← g.arithmetic
  let whole := combined line first (← g.compared g.limit)
  return if negated then ⟨whole.inner, .value, line⟩ else whole

def alternatives : Nat → Parse (List Piece)
  | 0 => refuse
  | fuel + 1 => do
    let t ← peek
    if t.text = "and" || t.text = "or" then
      take
      let first ← g.comparison
      return first :: (← alternatives fuel)
    else return []

/-- An expression without a condition. -/
def disjunction : Parse Piece := do
  let line ← line
  let first ← g.comparison
  return combined line first (← g.alternatives g.limit)

/-- An expression, or a name with the value that it gets. -/
def namedExpression : Parse Piece := do
  let line ← line
  if ← takesNameWith ":=" then
    return ⟨(← g.expression).inner, .value, line⟩
  else
    let p ← g.expression
    if ← sees ":=" then refuse
    return p

def starred : Parse Piece := do
  let line ← line
  need "*"
  let p ← g.arithmetic
  return ⟨p.inner, p.shape.star, line⟩

/-- An item of a list that may be unpacked, or get a name. -/
def namedItem : Parse Piece := do
  if ← sees "*" then g.starred else g.namedExpression

def item : Parse Piece := do
  if ← sees "*" then g.starred else g.expression

/-- Items between commas, and whether there was a comma. -/
def items (item : Parse Piece) : Nat → Parse (List Piece × Bool)
  | 0 => refuse
  | fuel + 1 => do
    let first ← item
    if ← takes "," then
      if opensItem (← peek) then
        let (others, _) ← items item fuel
        return (first :: others, true)
      else return ([first], true)
    else return ([first], false)

def collection (line : Nat) (pieces : List Piece) : Piece :=
  ⟨innerOf pieces, .collection (pieces.map (·.shape)), line⟩

/-- One item, or several as a tuple. -/
def itemsAsOne (item : Parse Piece) : Parse Piece := do
  let line ← line
  match ← items item g.limit with
  | ([p], false) => return p
  | (pieces, _) => return collection line pieces

def expressions : Parse Piece := g.itemsAsOne g.item

/-- What is assigned to in a loop. -/
def targets : Parse Piece := do
  let target : Parse Piece := do
    if ← sees "*" then g.starred else g.arithmetic
  let p ← g.itemsAsOne target
  if p.shape.target then return p else refuse

def yieldExpression : Parse Piece := do
  let line ← line
  need "yield"
  let inner ← do
    if ← takes "from" then pure (← g.expression).inner
    else if opensItem (← peek) then pure (← g.expressions).inner
    else pure []
  return ⟨[.yields inner], .value, line⟩

/-- A yield, or expressions. -/
def assigned : Parse Piece := do
  if ← sees "yield" then g.yieldExpression else g.expressions

def conditions : Nat → Parse (List Inner)
  | 0 => refuse
  | fuel + 1 => do
    if ← takes "if" then
      let p ← g.disjunction
      return p.inner ++ (← conditions fuel)
    else return []

def opensLoop : Parse Bool := do
  let t ← peek
  return t.text = "for" || t.text = "async"

/-- The loops of a comprehension, up to the mark that closes it. -/
def loops : Nat → Parse (List Inner)
  | 0 => refuse
  | fuel + 1 => do
    if !(← opensLoop) then return []
    let _ ← takes "async"
    need "for"
    let target ← g.targets
    need "in"
    let source ← g.disjunction
    let inner := target.inner ++ source.inner ++ (← g.conditions g.limit)
    return inner ++ (← loops fuel)

/-- How far a list of arguments has come: names may follow positions, and behind two stars there may be
only names. -/
inductive ArgumentStage where
  | positions
  | names
  | unpacked
deriving DecidableEq

/-- An argument, the stage behind it, and whether it is given by position alone. -/
def argument (stage : ArgumentStage) : Parse (List Inner × ArgumentStage × Bool) := do
  if ← takes "**" then return ((← g.expression).inner, .unpacked, false)
  if ← takes "*" then
    if stage = .unpacked then refuse
    return ((← g.expression).inner, stage, false)
  if ← takesNameWith "=" then
    return ((← g.expression).inner, if stage = .positions then .names else stage, false)
  if stage ≠ .positions then refuse
  return ((← g.namedExpression).inner, stage, true)

def argumentsFrom : Nat → ArgumentStage → Parse (List Inner)
  | 0, _ => refuse
  | fuel + 1, stage => do
    if ← takes ")" then return []
    let (inner, stage, _) ← g.argument stage
    if ← takes "," then return inner ++ (← argumentsFrom fuel stage)
    need ")"
    return inner

def arguments : Parse (List Inner) := g.argumentsFrom g.limit .positions

/-- The arguments of a call; alone, a comprehension needs no parentheses of its own. -/
def callArguments : Parse (List Inner) := do
  if ← takes ")" then return []
  let (inner, stage, positional) ← g.argument .positions
  if positional && (← opensLoop) then
    let more ← g.loops g.limit
    need ")"
    return inner ++ more
  if ← takes "," then return inner ++ (← g.argumentsFrom g.limit stage)
  need ")"
  return inner

def closesBound (t : Token) : Bool := t.text = ":" || t.text = "," || t.text = "]"

/-- A bound of a slice, which may be left out. -/
def bound : Parse (List Inner) := do
  if closesBound (← peek) then return [] else return (← g.expression).inner

/-- What follows the first bound of a slice. -/
def sliceRest : Parse (List Inner) := do
  need ":"
  let upper ← g.bound
  if ← takes ":" then return upper ++ (← g.bound) else return upper

def subscript : Parse (List Inner) := do
  if ← takes "*" then return (← g.expression).inner
  if ← sees ":" then g.sliceRest
  else if ← takesNameWith ":=" then return (← g.expression).inner
  else
    let first ← g.expression
    if ← sees ":" then return first.inner ++ (← g.sliceRest)
    if ← sees ":=" then refuse
    return first.inner

def subscripts : Nat → Parse (List Inner)
  | 0 => refuse
  | fuel + 1 => do
    let first ← g.subscript
    if ← takes "," then
      if ← takes "]" then return first
      return first ++ (← subscripts fuel)
    need "]"
    return first

/-- Attributes, calls and subscripts behind an operand. -/
def suffixes (line : Nat) : Nat → Piece → Parse Piece
  | 0, _ => refuse
  | fuel + 1, p => do
    let t ← peek
    if t.text = "." then
      take
      let _ ← name
      suffixes line fuel ⟨p.inner, .reference, line⟩
    else if t.text = "(" then
      take
      let inner ← g.callArguments
      suffixes line fuel ⟨p.inner ++ inner, .value, line⟩
    else if t.text = "[" then
      take
      let inner ← g.subscripts g.limit
      suffixes line fuel ⟨p.inner ++ inner, .reference, line⟩
    else return p

/-- What stands between parentheses: a tuple, a group, or a comprehension. -/
def parenthesised (line : Nat) : Parse Piece := do
  if ← takes ")" then return collection line []
  if ← sees "yield" then
    let p ← g.yieldExpression
    need ")"
    return p
  let (pieces, isTuple) ← items g.namedItem g.limit
  match pieces, isTuple with
  | [p], false =>
    if p.shape.starred then refuse
    if ← opensLoop then
      let inner ← g.loops g.limit
      need ")"
      return ⟨p.inner ++ inner, .value, line⟩
    need ")"
    return p
  | pieces, _ =>
    need ")"
    return collection line pieces

def bracketed (line : Nat) : Parse Piece := do
  if ← takes "]" then return collection line []
  let (pieces, isList) ← items g.namedItem g.limit
  match pieces, isList with
  | [p], false =>
    if !p.shape.starred && (← opensLoop) then
      let inner ← g.loops g.limit
      need "]"
      return ⟨p.inner ++ inner, .value, line⟩
    need "]"
    return collection line [p]
  | pieces, _ =>
    need "]"
    return collection line pieces

/-- An entry of a dictionary. -/
def entry : Parse (List Inner) := do
  if ← takes "**" then return (← g.arithmetic).inner
  let key ← g.expression
  need ":"
  return key.inner ++ (← g.expression).inner

def entriesFrom : Nat → Parse (List Inner)
  | 0 => refuse
  | fuel + 1 => do
    if ← takes "\x7d" then return []
    let first ← g.entry
    if ← takes "," then return first ++ (← entriesFrom fuel)
    need "\x7d"
    return first

/-- The rest of a set behind its first item. -/
def setRest (first : Piece) : Parse (List Inner) := do
  if !first.shape.starred && (← opensLoop) then
    let inner ← g.loops g.limit
    need "\x7d"
    return first.inner ++ inner
  if ← takes "," then
    if opensItem (← peek) then
      let (others, _) ← items g.namedItem g.limit
      need "\x7d"
      return first.inner ++ innerOf others
  need "\x7d"
  return first.inner

/-- The rest of a dictionary behind its first key. -/
def dictionaryRest (key : List Inner) : Parse (List Inner) := do
  need ":"
  let inner := key ++ (← g.expression).inner
  if ← opensLoop then
    let more ← g.loops g.limit
    need "\x7d"
    return inner ++ more
  if ← takes "," then return inner ++ (← g.entriesFrom g.limit)
  need "\x7d"
  return inner

/-- A set or a dictionary. -/
def braced : Parse (List Inner) := do
  let t ← peek
  if t.text = "\x7d" || t.text = "**" then g.entriesFrom g.limit
  else if t.text = "*" then g.setRest (← g.starred)
  else if ← takesNameWith ":=" then g.setRest (← g.expression)
  else
    let first ← g.expression
    if ← sees ":" then g.dictionaryRest first.inner
    else if ← sees ":=" then refuse
    else g.setRest first

/-- The expression of a field in a formatted text, which is read as if it stood in parentheses. -/
def field (text : List Char) : Parse (List Inner) := fun r =>
  match g.expressions (Reader.ofTokens (tokens ('(' :: text ++ [')']))) with
  | .ok p _ => .ok p.inner r
  | .error _ _ => .error (.broken .invalidSyntax) r

def fields : List (List Char) → Parse (List Inner)
  | [] => return []
  | f :: rest => return (← g.field f) ++ (← fields rest)

def quotedTexts : Nat → Parse (List Quoted)
  | 0 => refuse
  | fuel + 1 => do
    let t ← peek
    if t.kind = .text then
      take
      return Quoted.ofToken t.text.toList :: (← quotedTexts fuel)
    else return []

/-- Texts that follow each other are one. Bytes do not mix with characters. -/
def quoted (line : Nat) : Parse Piece := do
  let texts ← quotedTexts g.limit
  let someBytes := texts.any (·.isBytes)
  if someBytes && texts.any (fun q => !q.isBytes) then invalid
  match texts.mapM Quoted.expressions? with
  | none => invalid
  | some expressions =>
    let inner ← g.fields expressions.flatten
    let isText := !someBytes && texts.all fun q => !q.isFormatted
    return ⟨inner, { text := isText }, line⟩

def atom : Parse Piece := do
  let line ← line
  let t ← peek
  if t.isName then
    take
    return ⟨[], .reference, line⟩
  else if t.kind = .number || t.text = "True" || t.text = "False" || t.text = "None" ||
      t.text = "..." then
    take
    return ⟨[], .value, line⟩
  else if t.kind = .text then g.quoted line
  else if t.text = "(" then
    take
    g.parenthesised line
  else if t.text = "[" then
    take
    g.bracketed line
  else if t.text = "\x7b" then
    take
    return ⟨← g.braced, .value, line⟩
  else refuse

def primary : Parse Piece := do
  let line ← line
  g.suffixes line g.limit (← g.atom)

def signs : Nat → Parse Bool
  | 0 => refuse
  | fuel + 1 => do
    let t ← peek
    if t.text = "+" || t.text = "-" || t.text = "~" then
      take
      let _ ← signs fuel
      return true
    else return false

def factorRule : Parse Piece := do
  let line ← line
  let signed ← signs g.limit
  let awaited ← takes "await"
  let base ← g.primary
  if ← takes "**" then
    let power ← g.parse .factor
    return ⟨base.inner ++ power.inner, .value, line⟩
  return if signed || awaited then ⟨base.inner, .value, line⟩ else base

/-- How far a list of parameters has come. -/
inductive ParameterStage where
  /-- `any` says that there is one, `split` that those by position alone are done, and `preset` that
  the last one has a default. -/
  | positions (any split preset : Bool)
  /-- Behind a star; `pending` says that a name has to follow. -/
  | names (pending : Bool)

def declaredType (annotated starred : Bool) : Parse (List Inner) := do
  if !annotated then return []
  if ← takes ":" then
    if starred then return (← g.item).inner else return (← g.expression).inner
  else return []

/-- A parameter is followed by a comma, or by the closing mark, which is not taken. -/
def behindParameter (closing : String) : Parse Unit := do
  if !(← takes ",") then
    if !(← sees closing) then refuse

/-- Parameters up to the closing mark, which is not taken. -/
def parametersFrom (annotated : Bool) (closing : String) : Nat → ParameterStage → Parse (List Inner)
  | 0, _ => refuse
  | fuel + 1, stage => do
    if ← sees closing then
      match stage with
      | .names true => refuse
      | _ => return []
    if ← takes "/" then
      match stage with
      | .positions true false preset =>
        behindParameter closing
        parametersFrom annotated closing fuel (.positions true true preset)
      | _ => refuse
    else if ← takes "**" then
      if let .names true := stage then refuse
      let _ ← name
      let inner ← g.declaredType annotated false
      let _ ← takes ","
      if ← sees closing then return inner else refuse
    else if ← takes "*" then
      if let .names _ := stage then refuse
      if ← takes "," then parametersFrom annotated closing fuel (.names true)
      else
        let _ ← name
        let inner ← g.declaredType annotated true
        behindParameter closing
        return inner ++ (← parametersFrom annotated closing fuel (.names false))
    else
      let _ ← name
      let declared ← g.declaredType annotated false
      let preset ← takes "="
      let inner ← if preset then pure (declared ++ (← g.expression).inner) else pure declared
      behindParameter closing
      let stage ← match stage with
        | .positions _ split before =>
          if before && !preset then refuse
          pure (ParameterStage.positions true split preset)
        | .names _ => pure (ParameterStage.names false)
      return inner ++ (← parametersFrom annotated closing fuel stage)

def parameters (annotated : Bool) (closing : String) : Parse (List Inner) :=
  g.parametersFrom annotated closing g.limit (.positions false false false)

def lambda : Parse Piece := do
  let line ← line
  need "lambda"
  let defaults ← g.parameters false ":"
  need ":"
  let body ← g.expression
  return ⟨[.lambda defaults body.inner], .value, line⟩

def expressionRule : Parse Piece := do
  if ← sees "lambda" then g.lambda
  else
    let line ← line
    let first ← g.disjunction
    if ← takes "if" then
      let condition ← g.disjunction
      need "else"
      let other ← g.expression
      return ⟨first.inner ++ condition.inner ++ other.inner, .value, line⟩
    else return first

end Rules
end DelayInjection.Python
