import DelayInjection.Python.Pattern
import DelayInjection.Python.Source

/-! Statements of Python, and the outline of a whole module. -/

namespace DelayInjection.Python

open Parse

namespace Rules

variable (g : Rules)

/-- What a simple statement is, and what stands in it. -/
abbrev Simple := StatementKind × List Inner

def other (inner : List Inner) : Simple := (.other, inner)

def changingMarks : List String := [
  "+=", "-=", "*=", "/=", "//=", "%=", "@=", "&=", "|=", "^=", ">>=", "<<=", "**="]

/-- The values behind equals signs; all but the last one have to be targets. -/
def assignedValues : Nat → Parse (List Inner)
  | 0 => refuse
  | fuel + 1 => do
    if ← sees "yield" then return (← g.yieldExpression).inner
    let p ← g.expressions
    if ← takes "=" then
      if p.shape.target then return p.inner ++ (← assignedValues fuel) else refuse
    return p.inner

/-- An expression alone, or an assignment to it. -/
def expressionStatement : Parse Simple := do
  let p ← g.expressions
  let t ← peek
  if t.text = "=" then
    if !p.shape.target then refuse
    take
    return other (p.inner ++ (← g.assignedValues g.limit))
  else if t.text = ":" && p.shape.single then
    take
    let inner := p.inner ++ (← g.expression).inner
    if ← takes "=" then return other (inner ++ (← g.assigned).inner) else return other inner
  else if changingMarks.contains t.text && p.shape.single then
    take
    return other (p.inner ++ (← g.assigned).inner)
  else return (if p.shape.text then .text else .other, p.inner)

/-- The names between dots. -/
def dottedName : Nat → Parse (List String)
  | 0 => refuse
  | fuel + 1 => do
    let first ← normalName
    if ← takes "." then return first :: (← dottedName fuel)
    return [first]

def dotted : Parse String := return String.intercalate "." (← dottedName g.limit)

def boundAs (name : String) : Parse ImportedName := do
  if ← takes "as" then return ⟨name, ← normalName⟩ else return ⟨name, name⟩

def importStatement : Parse Simple := do
  need "import"
  let names ← separated (do boundAs (← g.dotted)) g.limit
  return (.imports names, [])

def dots : Nat → Parse Bool
  | 0 => refuse
  | fuel + 1 => do
    let t ← peek
    if t.text = "." || t.text = "..." then
      take
      let _ ← dots fuel
      return true
    else return false

/-- Names in parentheses, with a comma behind the last one perhaps. -/
def namesInParentheses : Nat → Parse (List ImportedName)
  | 0 => refuse
  | fuel + 1 => do
    let first ← do boundAs (← normalName)
    if ← takes "," then
      if ← takes ")" then return [first]
      return first :: (← namesInParentheses fuel)
    need ")"
    return [first]

def importFromStatement : Parse Simple := do
  need "from"
  let relative ← dots g.limit
  let module ← do
    if relative && (← sees "import") then pure "" else g.dotted
  need "import"
  let names ← do
    if ← takes "*" then pure [⟨"*", "*"⟩]
    else if ← takes "(" then namesInParentheses g.limit
    else separated (do boundAs (← normalName)) g.limit
  return (.importsFrom module names, [])

def endsStatement (t : Token) : Bool := t.text = ";" || t.kind = .newline

def deleteStatement : Parse Simple := do
  need "del"
  let (pieces, _) ← items g.arithmetic g.limit
  if pieces.all fun p => p.shape.deletable && !p.shape.starred then return other (innerOf pieces)
  else refuse

/-- An expression, and another one behind the word or mark. -/
def oneOrTwo (between : String) : Parse (List Inner) := do
  let first ← g.expression
  if ← takes between then return first.inner ++ (← g.expression).inner else return first.inner

def simple : Parse Simple := do
  let w := (← peek).text
  if w = "return" then
    take
    if opensItem (← peek) then return (.returns, (← g.expressions).inner) else return (.returns, [])
  else if w = "raise" then
    take
    if opensItem (← peek) then return (.raises, ← g.oneOrTwo "from") else return (.raises, [])
  else if w = "import" then g.importStatement
  else if w = "from" then g.importFromStatement
  else if w = "pass" || w = "break" || w = "continue" then
    take
    return other []
  else if w = "del" then g.deleteStatement
  else if w = "yield" then return other (← g.yieldExpression).inner
  else if w = "assert" then
    take
    return other (← g.oneOrTwo ",")
  else if w = "global" || w = "nonlocal" then
    take
    let _ ← separated name g.limit
    return other []
  else g.expressionStatement

/-- A statement on one line. -/
def simpleStatement : Parse Statement := do
  let start ← get
  let t ← peek
  let (kind, inner) ← g.simple
  let words ← wordsFrom start
  return .node kind ⟨t.line, t.column, (← get).line⟩ [] [.clause words inner []]

/-- Statements between semicolons, up to the end of the line. -/
def simpleStatements : Nat → Parse (List Statement)
  | 0 => refuse
  | fuel + 1 => do
    let first ← g.simpleStatement
    if ← takes ";" then
      if ← seesKind .newline then
        take
        return [first]
      return first :: (← simpleStatements fuel)
    needKind .newline
    return [first]

end Rules

/-- The rules with the parse of the statements that come next, which blocks hold. -/
structure BlockRules extends Rules where
  statements : Unit → Parse (List Statement)

namespace BlockRules

variable (g : BlockRules)

def blockItems : Nat → Parse (List Statement)
  | 0 => refuse
  | fuel + 1 => do
    let first ← g.statements ()
    if ← seesKind .dedent then
      take
      return first
    return first ++ (← blockItems fuel)

/-- The end of a header, which an indented block has to follow. -/
def openBlock : Parse Unit := do
  needKind .newline
  if ← seesKind .indent then take else throw .blockMissing

/-- Statements behind a header: on its line, or on lines of their own. -/
def block : Parse (List Statement) := do
  if ← seesKind .newline then
    openBlock
    g.blockItems g.limit
  else g.simpleStatements g.limit

/-- The rest of a clause behind its header. -/
def clauseFrom (start : Reader) (inner : List Inner) : Parse Clause := do
  need ":"
  let words ← wordsFrom start
  return .clause words inner (← g.block)

/-- A clause that opens with a word and, in between, what is given. -/
def clauseOf (word : String) (header : Parse (List Inner)) : Parse Clause := do
  let start ← get
  need word
  let inner ← header
  g.clauseFrom start inner

/-- A clause that opens with a word, if it comes next. -/
def clauseIf (word : String) (header : Parse (List Inner)) : Parse (List Clause) := do
  if ← sees word then return [← g.clauseOf word header] else return []

def nothing : Parse (List Inner) := return []

def condition : Parse (List Inner) := return (← g.namedExpression).inner

def otherwise : Parse (List Clause) := g.clauseIf "else" nothing

def elseIfs : Nat → Parse (List Clause)
  | 0 => refuse
  | fuel + 1 => do
    if ← sees "elif" then
      let first ← g.clauseOf "elif" g.condition
      return first :: (← elseIfs fuel)
    else return []

def ifStatement : Parse (List Clause) := do
  let first ← g.clauseOf "if" g.condition
  let others ← g.elseIfs g.limit
  return first :: others ++ (← g.otherwise)

def whileStatement : Parse (List Clause) := do
  let first ← g.clauseOf "while" g.condition
  return first :: (← g.otherwise)

def loopHeader : Parse (List Inner) := do
  let target ← g.targets
  need "in"
  return target.inner ++ (← g.expressions).inner

def forStatement (start : Reader) : Parse (List Clause) := do
  need "for"
  let inner ← g.loopHeader
  let first ← g.clauseFrom start inner
  return first :: (← g.otherwise)

/-- What is entered, and perhaps a target for it. -/
def entered : Parse (List Inner) := do
  let p ← g.expression
  if ← takes "as" then
    let target ← do
      if ← sees "*" then g.starred else g.arithmetic
    if target.shape.target then return p.inner ++ target.inner else refuse
  else return p.inner

def enteredInParentheses : Nat → Parse (List Inner)
  | 0 => refuse
  | fuel + 1 => do
    let first ← g.entered
    if ← takes "," then
      if ← takes ")" then return first
      return first ++ (← enteredInParentheses fuel)
    need ")"
    return first

def withHeader : Parse (List Inner) :=
  orElse
    (do
      need "("
      let inner ← g.enteredInParentheses g.limit
      if ← sees ":" then return inner else refuse)
    (do return (← separated g.entered g.limit).flatten)

def withStatement (start : Reader) : Parse (List Clause) := do
  need "with"
  let inner ← g.withHeader
  return [← g.clauseFrom start inner]

/-- What a handler is for, and perhaps a name for it. -/
def handled : Parse (List Inner) := do
  let inner := (← g.expression).inner
  if ← takes "as" then
    let _ ← name
    return inner
  else return inner

/-- Handlers, all of them with a star or none. -/
def handlers (grouped : Bool) : Nat → Parse (List Clause)
  | 0 => refuse
  | fuel + 1 => do
    if !(← sees "except") then return []
    let first ← g.clauseOf "except" do
      if grouped then
        need "*"
        g.handled
      else if ← sees ":" then nothing
      else g.handled
    return first :: (← handlers grouped fuel)

def opensGroup : Parse Bool :=
  ahead do
    if ← takes "except" then takes "*" else return false

def tryStatement : Parse (List Clause) := do
  let first ← g.clauseOf "try" nothing
  if ← sees "finally" then return [first, ← g.clauseOf "finally" nothing]
  if !(← sees "except") then invalid
  let handlers ← g.handlers (← opensGroup) g.limit
  let others ← g.otherwise
  return first :: handlers ++ others ++ (← g.clauseIf "finally" nothing)

def caseHeader : Parse (List Inner) := do
  let inner ← g.openPattern
  if ← takes "if" then return inner ++ (← g.condition) else return inner

def cases : Nat → Parse (List Clause)
  | 0 => refuse
  | fuel + 1 => do
    let first ← g.clauseOf "case" g.caseHeader
    if ← seesKind .dedent then
      take
      return [first]
    return first :: (← cases fuel)

/-- What is matched: one expression, or several as a tuple. -/
def subject : Parse (List Inner) := do
  match ← Rules.items g.namedItem g.limit with
  | ([p], false) => if p.shape.starred then refuse else return p.inner
  | (pieces, _) => return innerOf pieces

def matchStatement : Parse (List Clause) := do
  let start ← get
  need "match"
  let inner ← g.subject
  need ":"
  let words ← wordsFrom start
  openBlock
  return .clause words inner [] :: (← g.cases g.limit)

/-- A function behind its decorators and the word `async`. -/
def functionDefinition (start : Reader) (isAsync : Bool) : Parse (StatementKind × List Clause) := do
  need "def"
  let name ← normalName
  need "("
  let inner ← g.parameters true ")"
  need ")"
  let result ← do
    if ← takes "->" then pure (← g.expression).inner else pure []
  return (.function isAsync name, [← g.clauseFrom start (inner ++ result)])

def classDefinition (start : Reader) : Parse (StatementKind × List Clause) := do
  need "class"
  let _ ← name
  let inner ← do
    if ← takes "(" then g.arguments else pure []
  return (.classDefinition, [← g.clauseFrom start inner])

def decoratorList : Nat → Parse (List Decorator)
  | 0 => refuse
  | fuel + 1 => do
    if ← takes "@" then
      let start ← get
      let p ← g.namedExpression
      let words ← wordsFrom start
      needKind .newline
      return ⟨p.line, p.inner, words⟩ :: (← decoratorList fuel)
    else return []

def plain (clauses : Parse (List Clause)) : Parse (StatementKind × List Clause) :=
  return (.other, ← clauses)

/-- What may follow the word `async`. -/
def asyncStatement (start : Reader) (decorated : Bool) : Parse (StatementKind × List Clause) := do
  need "async"
  let w := (← peek).text
  if w = "def" then g.functionDefinition start true
  else if w = "for" && !decorated then plain (g.forStatement start)
  else if w = "with" && !decorated then plain (g.withStatement start)
  else refuse

/-- Words that open statements with blocks. -/
def compoundWords : List String := ["if", "while", "for", "with", "try"]

/-- A statement with blocks. -/
def compound (decorated : Bool) : Parse (StatementKind × List Clause) := do
  let start ← get
  let w := (← peek).text
  if w = "async" then g.asyncStatement start decorated
  else if w = "def" then g.functionDefinition start false
  else if w = "class" then g.classDefinition start
  else if decorated then refuse
  else if w = "if" then plain g.ifStatement
  else if w = "while" then plain g.whileStatement
  else if w = "for" then plain (g.forStatement start)
  else if w = "with" then plain (g.withStatement start)
  else if w = "try" then plain g.tryStatement
  else plain g.matchStatement

def compoundStatement : Parse (List Statement) := do
  let decorators ← g.decoratorList g.limit
  let t ← peek
  let (kind, clauses) ← g.compound (!decorators.isEmpty)
  return [.node kind ⟨t.line, t.column, (← get).line⟩ decorators clauses]

/-- A statement with blocks, or the simple statements of a line. -/
def statementRule : Parse (List Statement) := do
  let w := (← peek).text
  if w = "@" || w = "async" || w = "def" || w = "class" || compoundWords.contains w then
    g.compoundStatement
  else if w = "match" then orElse g.compoundStatement (g.simpleStatements g.limit)
  else g.simpleStatements g.limit

end BlockRules

/-- The parse of the next statements, whose blocks nest no deeper than the number. -/
def parseStatements (rules : Rules) : Nat → Unit → Parse (List Statement)
  | 0, _ => refuse
  | depth + 1, _ => BlockRules.statementRule ⟨rules, parseStatements rules depth⟩

def moduleStatements (statements : Parse (List Statement)) : Nat → Parse (List Statement)
  | 0 => refuse
  | fuel + 1 => do
    if ← seesKind .finish then return []
    let first ← statements
    return first ++ (← moduleStatements statements fuel)

def isReported (t : Token) : Bool :=
  match t.kind with
  | .fault _ reported => reported
  | _ => false

def changesIndent (t : Token) : Bool := t.kind = .indent || t.kind = .dedent

/-- A parse that is stuck where the indentation changes has a fault in the indentation. So has one
that misses a block, unless a fault is reported further on. -/
def faultOf (tokens : List Token) (stop : Stop) (furthest : Nat) : ParseFault :=
  match stop with
  | .broken fault => fault
  | .blockMissing => if tokens.getLast?.any isReported then .invalidSyntax else .badIndentation
  | .stuck => if tokens[furthest]?.any changesIndent then .badIndentation else .invalidSyntax

def parseTokens (limit : Nat) (tokens : List Token) : Except ParseFault (List Statement) :=
  let rules : Rules := ⟨limit, parsePart limit (4 * limit)⟩
  match moduleStatements (parseStatements rules limit ()) limit (Reader.ofTokens tokens) with
  | .ok statements _ => .ok statements
  | .error stop r => .error (faultOf tokens stop r.furthest)

/-- The statements of a module. -/
def outline (source : Text.Utf8.Bytes) : Except ParseFault (List Statement) :=
  if source.contains 0 then .error .nulByte
  else match characters? source with
    | none => .error .invalidSyntax
    | some text => parseTokens (text.length + 4) (tokens text)

end DelayInjection.Python
