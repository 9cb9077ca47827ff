import DelayInjection.Text.Utf8

/-! The outline of a JavaScript module: its statements, functions and blocks, with expressions reduced to what stands inside of them. -/

namespace DelayInjection.JavaScript

/-- A place in a file: bytes from its start, line breaks before, bytes from the start of the line. -/
structure Place where
  offset : Nat
  row : Nat
  column : Nat
deriving DecidableEq, Repr, Inhabited

inductive NodeKind where
  | program
  | comment
  | hashBang
  | importStatement
  | exportStatement
  | functionDeclaration
  | generatorDeclaration
  | functionExpression
  | generatorExpression
  | method
  | arrow
  | block
  | returnStatement
  | throwStatement
  | statement
  | asyncWord
  | star
  | name
deriving DecidableEq, Repr, Inhabited

/-- What a node is to the node above it. -/
inductive Role where
  | plain
  | name
  | body
  | declaration
deriving DecidableEq, Repr, Inhabited

inductive Tree where
  | node (kind : NodeKind) (role : Role) (start : Place) (stop : Nat) (children : List Tree)
deriving Inhabited

namespace Tree

def kind : Tree → NodeKind
  | node kind _ _ _ _ => kind

def role : Tree → Role
  | node _ role _ _ _ => role

def start : Tree → Place
  | node _ _ start _ _ => start

def stop : Tree → Nat
  | node _ _ _ stop _ => stop

def children : Tree → List Tree
  | node _ _ _ _ children => children

def inRole (r : Role) : Tree → Tree
  | node kind _ start stop children => node kind r start stop children

/-- The first child with the role. -/
def childIn? (t : Tree) (r : Role) : Option Tree := t.children.find? (·.role = r)

mutual

/-- The node and all nodes below it, each before its children. -/
def preorder : Tree → List Tree
  | node kind role start stop children =>
    node kind role start stop children :: preorderAll children

def preorderAll : List Tree → List Tree
  | [] => []
  | t :: rest => preorder t ++ preorderAll rest

end

mutual

/-- The number of nodes. -/
def size : Tree → Nat
  | node _ _ _ _ children => sizeAll children + 1

def sizeAll : List Tree → Nat
  | [] => 0
  | t :: rest => size t + sizeAll rest

end

end Tree
end DelayInjection.JavaScript
