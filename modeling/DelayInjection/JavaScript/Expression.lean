import DelayInjection.JavaScript.Scan

/-! Expressions of JavaScript, and the functions and classes that stand in them. Operators are read without their ranks, which do not change what an expression holds. -/

namespace DelayInjection.JavaScript

namespace Rules

variable (g : Rules)

/-- An expression with a value. -/
def value (ends : Bool) : Scan (List Tree) := do
  let p ← g.parse (.expression ends)
  if p.shape.value then return p.forest else refuse

def moreValues (ends : Bool) : Nat → Scan (List Tree)
  | 0 => refuse
  | fuel + 1 => do
    if !(← g.goesOn ends false) then return []
    if !(← g.takes ",") then return []
    let first ← g.value ends
    return first ++ (← moreValues ends fuel)

/-- One or more expressions between commas. -/
def values (ends : Bool) : Scan (List Tree) := do
  let first ← g.value ends
  return first ++ (← g.moreValues ends g.limit)

/-- What stands between two commas of a list. -/
inductive Slot where
  | empty
  | spread (piece : Piece)
  | item (piece : Piece)

namespace Slot

def forest : Slot → List Tree
  | empty => []
  | spread p => p.forest
  | item p => p.forest

/-- It may be left out, spread, or a value. -/
def isArgument : Slot → Bool
  | empty => true
  | spread p => p.shape.value
  | item p => p.shape.value

def isParameter : Slot → Bool
  | empty => false
  | spread p => p.shape.target
  | item p => p.shape.parameter

def isItem : Slot → Bool
  | item p => p.shape.value
  | _ => false

end Slot

/-- The slots up to the closing mark, which is not taken. -/
def slots (closing : String) : Nat → Scan (List Slot)
  | 0 => refuse
  | fuel + 1 => do
    g.toOperand
    if ← sees closing then return [.empty]
    if ← g.takes "," then return .empty :: (← slots closing fuel)
    let slot ← do
      if ← g.takes "..." then
        let p ← g.parse (.expression false)
        pure (Slot.spread p)
      else
        let p ← g.parse (.expression false)
        pure (Slot.item p)
    if ← g.takes "," then return slot :: (← slots closing fuel)
    if ← sees closing then return [slot] else refuse

def forestOf (slots : List Slot) : List Tree := slots.flatMap Slot.forest

/-- The slots without the empty one behind a last comma. -/
def withoutLastEmpty : List Slot → List Slot
  | [] => []
  | [.empty] => []
  | s :: rest => s :: withoutLastEmpty rest

def areParameters (slots : List Slot) : Bool := (withoutLastEmpty slots).all Slot.isParameter

def areArguments (slots : List Slot) : Bool := slots.all Slot.isArgument

def areGroup (slots : List Slot) : Bool := slots.all Slot.isItem

def arguments : Scan (List Tree) := do
  g.need "("
  let found ← g.slots ")" g.limit
  g.need ")"
  if areArguments found then return forestOf found else refuse

def parameters : Scan (List Tree) := do
  g.need "("
  let found ← g.slots ")" g.limit
  g.need ")"
  if areParameters found then return forestOf found else refuse

/-- Statements up to a closing brace, the end, or the next case of a switch, with the comments
between them. -/
def statements : Nat → Scan (List Tree)
  | 0 => refuse
  | fuel + 1 => do
    let (comments, c) := (← get).skipTrivia true g.limit
    set c
    match c.rest with
    | [] => return comments
    | '\x7d' :: _ => return comments
    | _ => do
      let w ← g.word
      if w = "case" || w = "default" then return comments
      let s ← g.parse .statement
      return comments ++ s.forest ++ (← statements fuel)

def block : Scan Tree := do
  g.toOperator
  let start ← place
  g.need "\x7b"
  let inner ← g.statements g.limit
  g.need "\x7d"
  close .block start inner

def body : Scan Tree := return (← g.block).inRole .body

/-- A word as a node of its own. -/
def mark (kind : NodeKind) (text : String) : Scan Tree := do
  g.toOperator
  let start ← place
  g.need text
  close kind start []

/-- The star of a generator, if it is there. -/
def star : Scan (List Tree) := do
  g.toOperator
  if ← sees "*" then return [← g.mark .star "*"] else return []

/-- A function from its keyword on. Only one with a name can be a declaration. -/
def functionFrom (start : Place) (asyncWord : List Tree) (declared : Bool) : Scan Tree := do
  g.needWord "function"
  let star ← g.star
  g.toOperator
  let name ← if ← sees "(" then pure [] else pure [← g.identifier]
  if declared && name.isEmpty then refuse
  let inner ← g.parameters
  let body ← g.body
  let kind : NodeKind := match declared, star.isEmpty with
    | true, true => .functionDeclaration
    | true, false => .generatorDeclaration
    | false, true => .functionExpression
    | false, false => .generatorExpression
  close kind start (asyncWord ++ star ++ name ++ inner ++ [body])

/-- A member access behind a name, as often as one follows. -/
def moreMembers : Nat → Scan Unit
  | 0 => refuse
  | fuel + 1 => do
    if ← g.takes "." then
      let _ ← g.anyName
      moreMembers fuel

def decorator : Scan (List Tree) := do
  g.need "@"
  let _ ← g.identifier
  g.moreMembers g.limit
  g.toOperator
  if ← sees "(" then g.arguments else return []

def decorators : Nat → Scan (List Tree)
  | 0 => refuse
  | fuel + 1 => do
    g.toOperator
    if ← sees "@" then
      let first ← g.decorator
      return first ++ (← decorators fuel)
    else return []

/-- A word that changes the member behind it, unless it is that member's own name: `stops` are the
marks that follow a name, and in a class a statement may end behind one. -/
def modifier? (kind : NodeKind) (w : String) (inClass : Bool) : Scan (Option Tree) := do
  g.toOperator
  if (← g.word) ≠ w then return none
  let before ← get
  let start := before.place
  skip w.length
  let node ← close kind start []
  let goesOn ← g.goesOn inClass true
  let stops := if inClass then ["(", "=", ";", "\x7d"] else ["(", "=", ",", ":", "\x7d"]
  let behind ← rest
  if !goesOn || (stops.any fun s => s.toList.isPrefixOf behind) then
    set before
    return none
  else return some node

/-- The word `static` with `get` behind it on the same line and a line break behind both. -/
def staticGetLength? (text : List Char) : Option Nat :=
  if "static".toList.isPrefixOf text then
    let gap := ((text.drop 6).takeWhile isGap).length
    let behind := text.drop (6 + gap)
    let tail := (behind.drop 3).takeWhile isGap
    if 0 < gap && "get".toList.isPrefixOf behind && tail.contains '\n' then some (9 + gap) else none
  else none

/-- The name of a member, and whether it is a plain word. -/
def memberName : Scan (Tree × Bool) := do
  g.toOperator
  let start ← place
  match ← rest with
  | '[' :: _ => do
    skip 1
    let inner ← g.value false
    g.need "]"
    return ((← close .name start inner).inRole .name, false)
  | '#' :: _ => do
    skip 1
    let n := nameLength true g.limit (← rest)
    if n = 0 then refuse
    skip n
    return ((← close .name start []).inRole .name, false)
  | c :: more => do
    if c = '"' || c = '\'' then
      g.quotedText
      return ((← close .name start []).inRole .name, false)
    else
      let n := numberLength (c :: more)
      if 0 < n then
        skip n
        return ((← close .name start []).inRole .name, false)
      else return (← g.anyName, true)
  | [] => refuse

/-- What stands in front of a member's name, and the nodes of it. -/
structure MemberHead where
  forest : List Tree
  isStatic : Bool
  /-- Only a method can follow. -/
  isMethod : Bool

def memberHead (inClass : Bool) : Scan MemberHead := do
  let decorated ← g.decorators g.limit
  g.toOperator
  let static ← match staticGetLength? (← rest) with
    | some n => do
      skip n
      pure true
    | none => pure (← g.modifier? .name "static" inClass).isSome
  let asyncWord ← g.modifier? .asyncWord "async" inClass
  let getter ← g.modifier? .name "get" inClass
  let setter ← if getter.isSome then pure none else g.modifier? .name "set" inClass
  let star ← if getter.isSome || setter.isSome then pure [] else g.star
  return ⟨decorated ++ asyncWord.toList ++ star, static,
    asyncWord.isSome || getter.isSome || setter.isSome || !star.isEmpty⟩

/-- The parameters and the body of a method. -/
def methodFrom (start : Place) (head : List Tree) (name : Tree) : Scan Tree := do
  let inner ← g.parameters
  let body ← g.body
  close .method start (head ++ [name] ++ inner ++ [body])

def objectMember : Scan Piece := do
  if ← g.takes "..." then
    let p ← g.parse (.expression false)
    return ⟨p.forest, ⟨p.shape.value, p.shape.target, false, false, false⟩⟩
  g.toOperator
  let start ← place
  let head ← g.memberHead false
  let w ← g.word
  let (name, isWord) ← g.memberName
  let isShort := isWord && (!reservedWords.contains w || w = "export")
  g.toOperator
  if ← sees "(" then
    return single (← g.methodFrom start head.forest name)
  else if head.isStatic || head.isMethod then refuse
  else if ← g.takes ":" then
    let p ← g.parse (.expression false)
    return ⟨name.children ++ p.forest, ⟨p.shape.value, p.shape.parameter, false, false, false⟩⟩
  else if !isShort then refuse
  else if ← g.takes "=" then
    let inner ← g.value false
    return ⟨inner, ⟨false, true, false, false, false⟩⟩
  else return ⟨[], .reference⟩

def objectMembers : Nat → Scan (List Piece)
  | 0 => refuse
  | fuel + 1 => do
    g.toOperator
    if ← sees "\x7d" then return []
    if ← g.takes "," then objectMembers fuel
    else
      let first ← g.objectMember
      if ← g.takes "," then return first :: (← objectMembers fuel)
      if ← sees "\x7d" then return [first] else refuse

/-- An object, or the pattern that takes one apart. -/
def object : Scan Piece := do
  g.need "\x7b"
  let members ← g.objectMembers g.limit
  g.need "\x7d"
  return ⟨members.flatMap Piece.forest,
    ⟨members.all (·.shape.value), members.all (·.shape.target), true, false, false⟩⟩

/-- A list, or the pattern that takes one apart. -/
def list : Scan Piece := do
  g.need "["
  let found ← g.slots "]" g.limit
  g.need "]"
  return ⟨forestOf found, ⟨areArguments found,
    found.all fun
      | .empty => true
      | s => s.isParameter, true, false, false⟩⟩

/-- A member of a class with what ends it. -/
def classMember : Scan (List Tree) := do
  g.toOperator
  let start ← place
  let head ← g.memberHead true
  g.toOperator
  if head.isStatic && !head.isMethod && head.forest.isEmpty && (← sees "\x7b") then
    return [← g.block]
  let (name, _) ← g.memberName
  let goesOn ← g.goesOn true true
  if goesOn && (← sees "(") then
    return [← g.methodFrom start head.forest name]
  if head.isMethod then refuse
  if !goesOn then
    return head.forest ++ name.children
  if ← g.takes "=" then
    let inner ← g.value true
    g.semicolon false
    return head.forest ++ name.children ++ inner
  g.need ";"
  return head.forest ++ name.children

def classMembers : Nat → Scan (List Tree)
  | 0 => refuse
  | fuel + 1 => do
    g.toOperator
    if ← sees "\x7d" then return []
    if ← g.takes ";" then classMembers fuel
    else
      let first ← g.classMember
      return first ++ (← classMembers fuel)

/-- A class from its keyword on; whether it has a name, and the nodes in it. -/
def classFrom : Scan (Bool × List Tree) := do
  g.needWord "class"
  g.toOperator
  let w ← g.word
  let named ← if w.isEmpty || w = "extends" then pure false
    else
      let _ ← g.identifier
      pure true
  let base ← if ← g.takesWord "extends" then g.value false else pure []
  g.need "\x7b"
  let members ← g.classMembers g.limit
  g.need "\x7d"
  return (named, base ++ members)

/-- The rest of a template, with the expressions in it. -/
def templateRest : Nat → Scan (List Tree)
  | 0 => refuse
  | fuel + 1 => do
    let text ← rest
    let n := (text.takeWhile fun c => c != '\x60' && c != '$' && c != '\\').length
    skip n
    match text.drop n with
    | [] => refuse
    | '\x60' :: _ => do
      skip 1
      return []
    | '$' :: '\x7b' :: _ => do
      skip 2
      let inner ← g.values false
      g.need "\x7d"
      return inner ++ (← templateRest fuel)
    | '\\' :: more =>
      match escapeLength? ('\\' :: more) with
      | some n => do
        skip n
        templateRest fuel
      | none => refuse
    | _ => do
      skip 1
      templateRest fuel

def template : Scan (List Tree) := do
  skip 1
  g.templateRest g.limit

/-- The labelled form that a block and an object share: a name and a colon. -/
def looksLabelled : Scan Bool := do
  let before ← get
  g.need "\x7b"
  g.toOperator
  let w ← g.word
  skip w.length
  g.toOperator
  let colon ← sees ":"
  set before
  return !w.isEmpty && colon

/-- The body of an arrow function. Braces hold statements, unless they can hold members that start
with a name and a colon. -/
def arrowBody (ends : Bool) : Scan (List Tree) := do
  g.toOperand
  if ← sees "\x7b" then
    let braced : Scan (List Tree) := do return [← g.body]
    if ← g.looksLabelled then g.value ends <|> braced
    else braced <|> g.value ends
  else g.value ends

def arrowFrom (start : Place) (head : List Tree) (ends : Bool) : Scan Piece := do
  g.need "=>"
  let body ← g.arrowBody ends
  return single (← close .arrow start (head ++ body))

/-- An arrow follows on the same statement. -/
def seesArrow (ends : Bool) : Scan Bool := do
  let before ← get
  let found ← do
    if ← g.goesOn ends false then sees "=>" else pure false
  set before
  return found

/-- A name as an operand, or as the only parameter of an arrow function. -/
def reference (ends : Bool) : Scan Piece := do
  let start ← place
  let name ← g.anyName
  if ← g.seesArrow ends then g.arrowFrom start [name.inRole .plain] ends
  else return ⟨[], .reference⟩

/-- Parentheses around an expression, or around the parameters of an arrow function. -/
def parenthesised (ends : Bool) : Scan Piece := do
  let start ← place
  g.need "("
  let found ← g.slots ")" g.limit
  g.need ")"
  if ← g.seesArrow ends then
    if areParameters found then g.arrowFrom start (forestOf found) ends else refuse
  else if areGroup found then return ⟨forestOf found, ⟨true, false, false, false, true⟩⟩
  else refuse

/-- What starts with the word `async`: a function, an arrow function, a call, or a mere name. -/
def asyncOperand (ends : Bool) : Scan Piece := do
  let start ← place
  let before ← get
  let asyncWord ← g.mark .asyncWord "async"
  let after ← get
  if !(← g.goesOn ends false) then
    set after
    return ⟨[], .reference⟩
  let w ← g.word
  if w = "function" then
    return single (← g.functionFrom start [asyncWord] false)
  else if ← sees "(" then
    g.need "("
    let found ← g.slots ")" g.limit
    g.need ")"
    if ← g.seesArrow ends then
      if areParameters found then g.arrowFrom start (asyncWord :: forestOf found) ends else refuse
    else if areArguments found then return ⟨forestOf found, .plain⟩
    else refuse
  else if w.isEmpty || reservedWords.contains w then
    set before
    g.reference ends
  else
    let name ← g.identifier
    if ← g.seesArrow ends then g.arrowFrom start [asyncWord, name.inRole .plain] ends
    else
      set after
      return ⟨[], .reference⟩

/-- The name of a private member, a word, or what a chain of them starts with. -/
def memberBehindDot : Scan Unit := do
  g.toOperator
  if ← sees "#" then skip 1
  let _ ← g.anyName

def prefixed (width : Nat) (ends : Bool) : Scan Piece := do
  skip width
  let p ← g.parse (.operand ends)
  return p

/-- Marks of operators, longer ones before those that they start with. -/
def operatorMarks : List String := [
  ">>>=", "===", "!==", "**=", "<<=", ">>=", ">>>", "&&=", "||=", "??=", "...",
  "=>", "==", "!=", "<=", ">=", "&&", "||", "??", "?.", "++", "--", "+=", "-=", "*=", "/=", "%=",
  "&=", "|=", "^=", "<<", ">>", "**",
  "=", "<", ">", "&", "|", "^", "+", "-", "*", "/", "%", "?", ".", "[", "(", "\x60"]

def compoundMarks : List String := [
  "+=", "-=", "*=", "/=", "%=", "^=", "&=", "|=", ">>=", ">>>=", "<<=", "**=", "&&=", "||=", "??="]

def binaryMarks : List String := [
  "&&", "||", ">>", ">>>", "<<", "&", "^", "|", "+", "-", "*", "/", "%", "**", "<", "<=", "==",
  "===", "!=", "!==", ">=", ">", "??"]

/-- The operator mark that comes next. A point behind a question mark belongs to a number if a digit
follows. -/
def operatorMark (text : List Char) : Option String :=
  match operatorMarks.find? fun m => m.toList.isPrefixOf text with
  | some "?." => if (text.drop 2).head?.any Char.isDigit then some "?" else some "?."
  | found => found

def prefixWords : List String := ["typeof", "void", "delete", "await"]

def valueWords : List String := ["this", "super", "true", "false", "null"]

def newOperand (ends : Bool) : Scan Piece := do
  g.needWord "new"
  if ← g.takes "." then
    g.needWord "target"
    return ⟨[], .plain⟩
  else
    g.toOperand
    let p ← g.parse (.operand ends)
    if p.shape.value then return ⟨p.forest, .plain⟩ else refuse

/-- A name is bound to a resource; or the word is a name itself. -/
def usingOperand (ends : Bool) : Scan Piece := do
  let before ← get
  skip "using".length
  if ← g.goesOn ends false then
    let w ← g.word
    skip w.length
    let bound := !w.isEmpty && !reservedWords.contains w
    g.toOperator
    if bound && operatorMark (← rest) = some "=" then
      skip 1
      return ⟨← g.value ends, .plain⟩
  set before
  g.reference ends

/-- An expression after `yield`, if there is one. -/
def yieldOperand (ends : Bool) : Scan Piece := do
  g.needWord "yield"
  if !(← g.goesOn ends false) then return ⟨[], .plain⟩
  if ← g.takes "*" then return ⟨← g.value ends, .plain⟩
  (return ⟨← g.value ends, .plain⟩) <|> return ⟨[], .plain⟩

def importOperand : Scan Piece := do
  g.needWord "import"
  g.toOperator
  if (← sees "(") || (← sees ".") then return ⟨[], .plain⟩ else refuse

def wordOperand (ends : Bool) : Scan Piece := do
  let start ← place
  let w ← g.word
  if w = "async" then g.asyncOperand ends
  else if w = "function" then return single (← g.functionFrom start [] false)
  else if w = "class" then return ⟨(← g.classFrom).2, .plain⟩
  else if w = "new" then g.newOperand ends
  else if w = "import" then g.importOperand
  else if w = "yield" then g.yieldOperand ends
  else if w = "using" then g.usingOperand ends
  else if prefixWords.contains w then
    let p ← g.prefixed w.length ends
    return ⟨p.forest, p.shape⟩
  else if valueWords.contains w then
    skip w.length
    return ⟨[], .plain⟩
  else if w.isEmpty || (reservedWords.contains w && w ≠ "export") then refuse
  else g.reference ends

/-- Words and marks that stand before an operand, and change what may be done with the whole. -/
def isPrefixed : Scan Bool := do
  match ← rest with
  | c :: _ => do
    if c = '!' || c = '~' || c = '+' || c = '-' then return true
    return prefixWords.contains (← g.word)
  | [] => return false

def operandRule (ends : Bool) : Scan Piece := do
  g.toOperand
  match ← rest with
  | [] => refuse
  | '+' :: '+' :: _ => g.prefixed 2 ends
  | '-' :: '-' :: _ => g.prefixed 2 ends
  | c :: more => do
    if c = '(' then g.parenthesised ends
    else if c = '[' then g.list
    else if c = '\x7b' then g.object
    else if c = '\x60' then return ⟨← g.template, .plain⟩
    else if c = '"' || c = '\'' then
      g.quotedText
      return ⟨[], .plain⟩
    else if c = '/' then
      match patternLength? false g.limit more with
      | some n =>
        if n ≤ 1 then refuse
        skip (n + 1)
        return ⟨[], .plain⟩
      | none => refuse
    else if c = '<' then g.parse .element
    else if c = '@' then
      let decorated ← g.decorators g.limit
      let (_, inner) ← g.classFrom
      return ⟨decorated ++ inner, .plain⟩
    else if c = '#' then
      skip 1
      let _ ← g.anyName
      g.toOperator
      if (← g.word) = "in" then return ⟨[], .plain⟩ else refuse
    else if c = '!' || c = '~' || c = '+' || c = '-' then g.prefixed 1 ends
    else
      let n := numberLength (c :: more)
      if 0 < n then
        skip n
        return ⟨[], .plain⟩
      else g.wordOperand ends

/-- What follows an operand and still belongs to it: a member, an index, a call or a template. -/
def suffix? (m : String) : Scan (Option Piece) := do
  if m = "." then
    skip 1
    g.memberBehindDot
    return some ⟨[], .reference⟩
  else if m = "?." then
    skip 2
    g.toOperator
    if ← sees "(" then return some ⟨← g.arguments, .plain⟩
    else if ← g.takes "[" then
      let inner ← g.values false
      g.need "]"
      return some ⟨inner, .reference⟩
    else
      g.memberBehindDot
      return some ⟨[], .reference⟩
  else if m = "[" then
    skip 1
    let inner ← g.values false
    g.need "]"
    return some ⟨inner, .reference⟩
  else if m = "(" then return some ⟨← g.arguments, .plain⟩
  else if m = "\x60" then return some ⟨← g.template, .plain⟩
  else if m = "++" || m = "--" then
    skip 2
    return some ⟨[], .plain⟩
  else return none

/-- What follows an operand: suffixes, operators with their operands, a choice, an assignment.
`last` is the shape of the last operand, and `bare` says that there is only this one. -/
def operators (ends : Bool) : Nat → List Tree → Shape → Bool → Scan Piece
  | 0, _, _, _ => refuse
  | fuel + 1, forest, last, bare => do
    let finish : Scan Piece :=
      if bare then return ⟨forest, last⟩
      else if last.value then return ⟨forest, .plain⟩
      else refuse
    if !(← g.goesOn ends false) then finish
    else match operatorMark (← rest) with
      | none => do
        let w ← g.word
        if (w = "in" || w = "instanceof") && last.value then
          skip w.length
          let p ← g.parse (.operand ends)
          operators ends fuel (forest ++ p.forest) p.shape false
        else finish
      | some m => do
        if m = "=" then
          if !(last.target || last.grouped) then refuse
          skip 1
          let inner ← g.value ends
          return ⟨forest ++ inner, ⟨true, false, false, bare && last.target, false⟩⟩
        else if compoundMarks.contains m then
          if !((last.target && !last.pattern) || last.grouped) then refuse
          skip m.length
          return ⟨forest ++ (← g.value ends), .plain⟩
        else if !last.value then finish
        else match ← g.suffix? m with
          | some p => operators ends fuel (forest ++ p.forest) p.shape bare
          | none =>
            if m = "?" then
              skip 1
              let first ← g.value false
              g.need ":"
              let second ← g.value ends
              return ⟨forest ++ first ++ second, .plain⟩
            else if binaryMarks.contains m then
              skip m.length
              let p ← g.parse (.operand ends)
              operators ends fuel (forest ++ p.forest) p.shape false
            else finish

def expressionRule (ends : Bool) : Scan Piece := do
  g.toOperand
  let isBare := !(← g.isPrefixed)
  let first ← g.parse (.operand ends)
  g.operators ends g.limit first.forest first.shape isBare

/-- An operand with its suffixes, as the left side of a loop over a collection. -/
def suffixes : Nat → Piece → Scan Piece
  | 0, _ => refuse
  | fuel + 1, p => do
    g.toOperator
    match operatorMark (← rest) with
    | none => return p
    | some m => do
      match ← g.suffix? m with
      | some q => suffixes fuel ⟨p.forest ++ q.forest, q.shape⟩
      | none => return p

/-- Braces around expressions in markup; they may be empty. -/
def embedded : Scan (List Tree) := do
  g.need "\x7b"
  g.toOperand
  if ← g.takes "\x7d" then return []
  let inner ← do
    if ← g.takes "..." then g.value false else g.values false
  g.need "\x7d"
  return inner

/-- A name in markup, which may hold hyphens. -/
def markupWord : Scan Unit := do
  g.toOperator
  let text ← rest
  let n := nameLength true g.limit text
  if n = 0 then refuse
  let more := (text.drop n).takeWhile fun c =>
    c == '-' || c == '$' || c == '_' || c.isAlphanum
  skip (if more.head? == some '-' then n + more.length else n)

def markupMembers : Nat → Scan Unit
  | 0 => refuse
  | fuel + 1 => do
    if ← g.takes "." then
      g.markupWord
      markupMembers fuel

def markupName : Scan Unit := do
  g.markupWord
  if ← g.takes ":" then g.markupWord else g.markupMembers g.limit

def markupText (quote : Char) : Scan Unit := do
  skip 1
  let n := ((← rest).takeWhile (· != quote)).length
  skip n
  g.need (String.singleton quote)

def attributes : Nat → Scan (List Tree)
  | 0 => refuse
  | fuel + 1 => do
    g.toOperator
    if (← sees "/>") || (← sees ">") then return []
    if ← sees "\x7b" then
      let inner ← g.embedded
      return inner ++ (← attributes fuel)
    g.markupName
    if ← g.takes "=" then
      g.toOperator
      let inner ← match ← rest with
        | '"' :: _ => do
          g.markupText '"'
          pure []
        | '\'' :: _ => do
          g.markupText '\''
          pure []
        | '<' :: _ => pure (← g.parse .element).forest
        | _ => g.embedded
      return inner ++ (← attributes fuel)
    attributes fuel

/-- What stands in an element up to and with the tag that closes it. -/
def elementChildren : Nat → Scan (List Tree)
  | 0 => refuse
  | fuel + 1 => do
    match ← rest with
    | '<' :: '/' :: _ => do
      skip 2
      g.toOperator
      if !(← sees ">") then g.markupName
      g.need ">"
      return []
    | '<' :: _ => do
      let inner ← g.parse .element
      return inner.forest ++ (← elementChildren fuel)
    | '\x7b' :: _ => do
      let inner ← g.embedded
      return inner ++ (← elementChildren fuel)
    | '&' :: more => do
      match referenceLength? ('&' :: more) with
      | some n => do
        skip n
        elementChildren fuel
      | none => refuse
    | text => do
      let n := (text.takeWhile fun c => !"<>\x7b\x7d&".toList.contains c).length
      if n = 0 then refuse
      skip n
      elementChildren fuel

def elementRule : Scan Piece := do
  g.need "<"
  g.toOperator
  if ← g.takes ">" then return ⟨← g.elementChildren g.limit, .plain⟩
  g.markupName
  let inner ← g.attributes g.limit
  if ← g.takes "/>" then return ⟨inner, .plain⟩
  g.need ">"
  return ⟨inner ++ (← g.elementChildren g.limit), .plain⟩

end Rules
end DelayInjection.JavaScript
