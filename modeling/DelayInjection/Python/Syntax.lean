import DelayInjection.Text.Normalization

/-! The outline of a Python module: its statements with their blocks, and the parts of expressions that decide whether a function is a generator. -/

namespace DelayInjection.Python

/-- What stands in an expression: yields, and functions without a name. -/
inductive Inner where
  | yields (inner : List Inner)
  | lambda (defaults body : List Inner)

/-- What an import binds, name by name: what it is called in its module, and in this one. -/
structure ImportedName where
  name : String
  bound : String
deriving DecidableEq, Repr

inductive StatementKind where
  /-- A text that stands alone. -/
  | text
  | returns
  | raises
  | imports (names : List ImportedName)
  | importsFrom (module : String) (names : List ImportedName)
  | function (isAsync : Bool) (name : String)
  | classDefinition
  | other
deriving DecidableEq, Repr

/-- Where a statement starts, and the line in which it ends. Lines count from one, columns are bytes. -/
structure Extent where
  line : Nat
  column : Nat
  endLine : Nat
deriving DecidableEq, Repr

/-- The expression of a decorator, the line in which it starts, and its tokens. -/
structure Decorator where
  line : Nat
  inner : List Inner
  words : List String

mutual

/-- A statement has a clause for each of its headers. -/
inductive Statement where
  | node (kind : StatementKind) (extent : Extent) (decorators : List Decorator)
      (clauses : List Clause)

/-- The tokens of a header, what stands in its expressions, and the block below it. -/
inductive Clause where
  | clause (words : List String) (inner : List Inner) (block : List Statement)

end

namespace Statement

def kind : Statement → StatementKind
  | node kind _ _ _ => kind

def extent : Statement → Extent
  | node _ extent _ _ => extent

def decorators : Statement → List Decorator
  | node _ _ decorators _ => decorators

def clauses : Statement → List Clause
  | node _ _ _ clauses => clauses

mutual

/-- The statement and all statements below it, each before its blocks. -/
def preorder : Statement → List Statement
  | node kind extent decorators clauses =>
    node kind extent decorators clauses :: inClauses clauses

def inClauses : List Clause → List Statement
  | [] => []
  | .clause _ _ block :: rest => inBlock block ++ inClauses rest

def inBlock : List Statement → List Statement
  | [] => []
  | s :: rest => preorder s ++ inBlock rest

end

/-- A function or a class, which has a scope of its own. -/
def opensScope (s : Statement) : Bool :=
  match s.kind with
  | .function _ _ => true
  | .classDefinition => true
  | _ => false

end Statement

namespace Clause

def words : Clause → List String
  | clause words _ _ => words

def inner : Clause → List Inner
  | clause _ inner _ => inner

def block : Clause → List Statement
  | clause _ _ block => block

end Clause

/-- Functions without a name are left out as a whole. -/
def Inner.isYield : Inner → Bool
  | yields _ => true
  | lambda _ _ => false

mutual

/-- A yield stands in the statement. Definitions of functions and classes are left out as a whole. -/
def Statement.hasYield : Statement → Bool
  | .node (.function _ _) _ _ _ => false
  | .node .classDefinition _ _ _ => false
  | .node _ _ _ clauses => clausesHaveYield clauses

def clausesHaveYield : List Clause → Bool
  | [] => false
  | .clause _ inner block :: rest =>
    inner.any Inner.isYield || blockHasYield block || clausesHaveYield rest

def blockHasYield : List Statement → Bool
  | [] => false
  | s :: rest => s.hasYield || blockHasYield rest

end
end DelayInjection.Python
