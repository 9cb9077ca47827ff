import DelayInjection.JavaScript.Expression
import DelayInjection.Text.Lines

/-! Statements of JavaScript, and the outline of a whole module. -/

namespace DelayInjection.JavaScript

namespace Rules

variable (g : Rules)

def alone (t : Tree) : Piece := ⟨[t], ⟨false, false, false, false, false⟩⟩

def condition : Scan (List Tree) := do
  g.need "("
  let inner ← g.values false
  g.need ")"
  return inner

/-- One statement, whatever it is. -/
def inner : Scan (List Tree) := return (← g.parse .statement).forest

/-- A name to be bound, or a pattern of them. -/
def binding : Scan (List Tree) := do
  g.toOperator
  if (← sees "[") || (← sees "\x7b") then
    let p ← g.parse (.operand false)
    if p.shape.target then return p.forest else refuse
  else
    let _ ← g.identifier
    return []

/-- Declared names with their values, up to and with the semicolon. -/
def declarators : Nat → Scan (List Tree)
  | 0 => refuse
  | fuel + 1 => do
    let target ← g.binding
    if !(← g.goesOn true true) then return target
    let valued := operatorMark (← rest) = some "="
    let initial ← if valued then do
      skip 1
      g.value true
    else pure []
    if !(← g.goesOn true (!valued)) then return target ++ initial
    if ← g.takes "," then return target ++ initial ++ (← declarators fuel)
    g.need ";"
    return target ++ initial

/-- The word `let` opens a declaration only before a name or a pattern. -/
def opensDeclaration : Scan Bool := do
  let before ← get
  skip 3
  let goesOn ← g.goesOn true false
  let w ← g.word
  let opens := goesOn && ((← sees "[") || (← sees "\x7b") ||
    (!w.isEmpty && !reservedWords.contains w))
  set before
  return opens

def declaredVariables : Scan Tree := do
  g.toOperator
  let start ← place
  let w ← g.word
  if w = "var" || w = "const" then skip w.length
  else if w = "let" then
    if ← g.opensDeclaration then skip 3 else refuse
  else refuse
  let inner ← g.declarators g.limit
  close .statement start inner

def functionDeclaration : Scan Tree := do
  g.toOperator
  let start ← place
  if (← g.word) = "async" then
    let asyncWord ← g.mark .asyncWord "async"
    if !(← g.goesOn true false) then refuse
    g.functionFrom start [asyncWord] true
  else g.functionFrom start [] true

/-- The keyword has a name behind it, and so opens a declaration where a statement may stand. -/
def seesNamed (keyword : String) : Scan Bool := do
  let before ← get
  g.needWord keyword
  let _ ← g.star
  g.toOperator
  let w ← g.word
  set before
  return !w.isEmpty && w ≠ "extends"

/-- An async function with a name comes next. -/
def seesAsyncDeclaration : Scan Bool := do
  let before ← get
  skip "async".length
  let found ← do
    if !(← g.goesOn true false) then pure false
    else if (← g.word) = "function" then g.seesNamed "function"
    else pure false
  set before
  return found

def classDeclaration (start : Place) (decorated : List Tree) : Scan Tree := do
  let (named, inner) ← g.classFrom
  if !named then refuse
  close .statement start (decorated ++ inner)

/-- A function, a class or variables. -/
def declaration : Scan Tree := do
  g.toOperator
  let start ← place
  if ← sees "@" then
    let decorated ← g.decorators g.limit
    g.classDeclaration start decorated
  else
    let w ← g.word
    if w = "function" || w = "async" then g.functionDeclaration
    else if w = "class" then g.classDeclaration start []
    else g.declaredVariables

/-- The name or text under which a module lists something. -/
def listedName : Scan Bool := do
  g.toOperator
  if (← sees "\"") || (← sees "'") then
    g.quotedText
    return false
  else
    let w ← g.word
    let _ ← g.anyName
    return !reservedWords.contains w

/-- One entry of an import list: a name, or a name with another to be bound. -/
def importEntry : Scan Unit := do
  let isName ← g.listedName
  if ← g.takesWord "as" then
    let _ ← g.identifier
  else if !isName then refuse

def exportEntry : Scan Unit := do
  let _ ← g.listedName
  if ← g.takesWord "as" then
    let _ ← g.listedName

def entries (entry : Scan Unit) : Nat → Scan Unit
  | 0 => refuse
  | fuel + 1 => do
    if ← g.takes "\x7d" then return ()
    entry
    if ← g.takes "," then entries entry fuel else g.need "\x7d"

def importList : Scan Unit := do
  if ← g.takes "*" then
    g.needWord "as"
    let _ ← g.identifier
  else
    g.need "\x7b"
    g.entries g.importEntry g.limit

def importClause : Scan Unit := do
  g.toOperator
  if (← sees "*") || (← sees "\x7b") then g.importList
  else
    let _ ← g.identifier
    if ← g.takes "," then g.importList

def source : Scan Unit := do
  g.needWord "from"
  g.quotedText

/-- The attributes of an import, if there are any, and its semicolon. -/
def importTail : Scan (List Tree) := do
  if !(← g.goesOn true true) then return []
  if ← g.takesWord "with" then
    g.toOperator
    let attributes ← g.object
    if !attributes.shape.value then refuse
    g.semicolon true
    return attributes.forest
  g.need ";"
  return []

def importRule (start : Place) : Scan Tree := do
  g.needWord "import"
  g.toOperator
  if (← sees "\"") || (← sees "'") then g.quotedText
  else
    g.importClause
    g.source
  let inner ← g.importTail
  close .importStatement start inner

/-- What a module exports by default: a declaration, or a value with a semicolon. -/
def exportedDefault : Scan (List Tree) := do
  (do
    let d ← g.declaration
    return [d.inRole .declaration]) <|> (do
    let inner ← g.value true
    g.semicolon false
    return inner)

def exported (start : Place) (decorated : List Tree) : Scan Tree := do
  g.needWord "export"
  g.toOperator
  if ← g.takes "*" then
    if ← g.takesWord "as" then
      let _ ← g.listedName
    g.source
    let inner ← g.importTail
    close .exportStatement start inner
  else if ← g.takes "\x7b" then
    g.entries g.exportEntry g.limit
    if !(← g.goesOn true true) then close .exportStatement start []
    else if (← g.word) = "from" then
      g.source
      let inner ← g.importTail
      close .exportStatement start inner
    else
      g.need ";"
      close .exportStatement start []
  else if ← g.takesWord "default" then
    let inner ← g.exportedDefault
    close .exportStatement start (decorated ++ inner)
  else
    let d ← g.declaration
    close .exportStatement start (decorated ++ [d.inRole .declaration])

def expressionStatement (start : Place) : Scan Tree := do
  let inner ← g.values true
  g.semicolon false
  close .statement start inner

def operandWithSuffixes : Scan Piece := do
  g.suffixes g.limit (← g.parse (.operand false))

/-- Where a loop goes through a collection: the target, the collection and the closing parenthesis. -/
def collectionHeader : Scan (List Tree) := do
  g.toOperand
  let w ← g.word
  let declared : Scan (List Tree) := do
    skip w.length
    g.toOperator
    if w = "let" && (← g.word) = "of" then refuse
    g.binding
  let initialised : Scan (List Tree) := do
    let target ← declared
    g.need "="
    return target ++ (← g.operandWithSuffixes).forest
  let assigned : Scan (List Tree) := do
    let p ← g.operandWithSuffixes
    if p.shape.target || p.shape.grouped then return p.forest else refuse
  let behind (target : Scan (List Tree)) : Scan (List Tree) := do
    let left ← target
    if !(← g.takesWord "in") then g.needWord "of"
    let right ← g.values false
    g.need ")"
    return left ++ right
  if w = "var" then behind declared <|> behind initialised <|> behind assigned
  else if w = "let" || w = "const" then behind declared <|> behind assigned
  else behind assigned

/-- The three parts of a counting loop and the closing parenthesis. -/
def countingHeader : Scan (List Tree) := do
  g.toOperand
  let initial ← if ← g.takes ";" then pure []
    else (do pure [← g.declaredVariables]) <|> (do
      let inner ← g.values false
      g.need ";"
      pure inner)
  g.toOperand
  let condition ← if ← g.takes ";" then pure [] else do
    let inner ← g.values false
    g.need ";"
    pure inner
  g.toOperand
  if ← g.takes ")" then return initial ++ condition
  let step ← g.values false
  g.need ")"
  return initial ++ condition ++ step

def forRule (start : Place) : Scan Tree := do
  g.needWord "for"
  let awaited ← g.takesWord "await"
  g.need "("
  let header ← if awaited then g.collectionHeader else g.collectionHeader <|> g.countingHeader
  close .statement start (header ++ (← g.inner))

def switchCases : Nat → Scan (List Tree)
  | 0 => refuse
  | fuel + 1 => do
    if ← g.takes "\x7d" then return []
    let label ← if ← g.takesWord "case" then g.values false else do
      g.needWord "default"
      pure []
    g.need ":"
    let inner ← g.statements g.limit
    return label ++ inner ++ (← switchCases fuel)

def tryRule (start : Place) : Scan Tree := do
  g.needWord "try"
  let tried ← g.block
  let caught ← if ← g.takesWord "catch" then do
    let bound ← if ← g.takes "(" then do
      let target ← g.binding
      g.need ")"
      pure target
    else pure []
    pure (bound ++ [← g.block])
  else pure []
  let after ← if ← g.takesWord "finally" then pure [← g.block] else pure []
  close .statement start (tried :: caught ++ after)

/-- A statement of a word with an optional label. -/
def jump (start : Place) (w : String) : Scan Tree := do
  g.needWord w
  if ← g.goesOn true true then
    if ← g.takes ";" then close .statement start []
    else
      let _ ← g.identifier
      g.semicolon true
      close .statement start []
  else close .statement start []

def returnRule (start : Place) : Scan Tree := do
  g.needWord "return"
  if !(← g.goesOn true true) then close .returnStatement start []
  else if ← g.takes ";" then close .returnStatement start []
  else
    let inner ← g.values true
    g.semicolon false
    close .returnStatement start inner

/-- A name with a colon behind it. -/
def labelled (start : Place) : Scan Tree := do
  let w ← g.word
  if w.isEmpty || (reservedWords.contains w && w ≠ "export") then refuse
  skip w.length
  g.need ":"
  close .statement start (← g.inner)

def doRule (start : Place) : Scan Tree := do
  g.needWord "do"
  let body ← g.inner
  g.needWord "while"
  let condition ← g.condition
  let ended ← close .statement start (body ++ condition)
  (do
    g.semicolon true
    close .statement start (body ++ condition)) <|> return ended

def ifRule (start : Place) : Scan Tree := do
  g.needWord "if"
  let condition ← g.condition
  let first ← g.inner
  let second ← if ← g.takesWord "else" then g.inner else pure []
  close .statement start (condition ++ first ++ second)

def exportRule (start : Place) : Scan Tree := do
  let before ← get
  skip 6
  let goesOn ← g.goesOn true false
  set before
  if goesOn then g.exported start [] <|> g.expressionStatement start
  else g.expressionStatement start

def decoratedRule (start : Place) : Scan Tree := do
  (do
    let decorated ← g.decorators g.limit
    g.toOperator
    if (← g.word) = "export" then g.exported start decorated
    else g.classDeclaration start decorated) <|> g.expressionStatement start

def wordStatement (start : Place) : Scan Tree := do
  let w ← g.word
  if w = "import" then
    g.importRule start <|> g.expressionStatement start
  else if w = "export" then g.exportRule start
  else if w = "var" || w = "const" then g.declaredVariables
  else if w = "let" then
    g.labelled start <|> g.declaredVariables <|> g.expressionStatement start
  else if w = "function" then
    if ← g.seesNamed "function" then g.functionDeclaration else g.expressionStatement start
  else if w = "async" then
    if ← g.seesAsyncDeclaration then g.functionDeclaration
    else g.labelled start <|> g.expressionStatement start
  else if w = "class" then
    if ← g.seesNamed "class" then g.classDeclaration start [] else g.expressionStatement start
  else if w = "if" then g.ifRule start
  else if w = "switch" then
    skip w.length
    let value ← g.condition
    g.need "\x7b"
    close .statement start (value ++ (← g.switchCases g.limit))
  else if w = "for" then g.forRule start
  else if w = "while" || w = "with" then
    skip w.length
    let condition ← g.condition
    close .statement start (condition ++ (← g.inner))
  else if w = "do" then g.doRule start
  else if w = "try" then g.tryRule start
  else if w = "break" || w = "continue" then g.jump start w
  else if w = "debugger" then
    skip w.length
    g.semicolon true
    close .statement start []
  else if w = "return" then g.returnRule start
  else if w = "throw" then
    skip w.length
    let inner ← g.values true
    g.semicolon false
    close .throwStatement start inner
  else g.labelled start <|> g.expressionStatement start

def statementRule : Scan Piece := do
  g.toOperand
  let start ← place
  match ← rest with
  | '\x7b' :: _ => return alone (← g.block <|> g.expressionStatement start)
  | ';' :: _ => do
    skip 1
    return alone (← close .statement start [])
  | '@' :: _ => return alone (← g.decoratedRule start)
  | _ => return alone (← g.wordStatement start)

def rule : Part → Scan Piece
  | .statement => g.statementRule
  | .expression ends => g.expressionRule ends
  | .operand ends => g.operandRule ends
  | .element => g.elementRule

end Rules

/-- The parse of a part whose parts nest no deeper than the first number. -/
def parsePart (limit : Nat) : Nat → Part → Scan Piece
  | 0, _ => failure
  | depth + 1, part => Rules.rule ⟨limit, parsePart limit depth⟩ part

/-- The line that names the program to run a file with. -/
def hashBang : Scan (List Tree) := do
  let text ← rest
  if "#!".toList.isPrefixOf text then
    let start ← place
    skip (text.takeWhile (· != '\n')).length
    return [← Rules.close .hashBang start []]
  else return []

def programRule (g : Rules) : Scan Tree := do
  let start ← place
  let (comments, c) := (← get).skipTrivia true g.limit
  set c
  let opening ← hashBang
  let statements ← g.statements g.limit
  if (← rest).isEmpty then Rules.close .program start (comments ++ opening ++ statements)
  else failure

/-- The outline of a module; `none` if the text is none. A leading byte order mark is a blank, and
nothing has to be repeated for it. -/
def outline? (text : List Char) : Option Tree :=
  let limit := (Text.splitMark text).2.length + 1
  if text.contains '\x00' then none
  else (programRule ⟨limit, parsePart limit (4 * limit)⟩ (Cursor.ofText text)).map (·.1)

end DelayInjection.JavaScript
