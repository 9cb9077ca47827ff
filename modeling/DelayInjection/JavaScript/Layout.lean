import DelayInjection.Adapter
import DelayInjection.JavaScript.Statement
import DelayInjection.SupportModule.Text

/-! Where delays may go in a JavaScript module: at its top level, and in the blocks of its async functions. -/

namespace DelayInjection.JavaScript

open Text.Utf8 (Bytes)

def topLevel : String := "<top-level>"

def anonymous : String := "<anonymous>"

def arrowName : String := "<arrow>"

/-- A part of the support module's name that every import of it holds. -/
def supportFragment : String := "flake-monster.runtime"

def slice (source : Bytes) (t : Tree) : Bytes :=
  (source.drop t.start.offset).take (t.stop - t.start.offset)

def isStatement (t : Tree) : Bool := t.kind != .comment && t.kind != .hashBang

def siteKind : NodeKind → Kind
  | .returnStatement => .returns
  | .throwStatement => .throws
  | _ => .plain

def site (t : Tree) : Site :=
  ⟨siteKind t.kind, t.start.offset, t.start.row + 1, t.start.column⟩

def isFunction : NodeKind → Bool
  | .functionDeclaration | .generatorDeclaration | .functionExpression | .generatorExpression
  | .method | .arrow => true
  | _ => false

def isAsync (t : Tree) : Bool := t.children.any (·.kind = .asyncWord)

def isGenerator (t : Tree) : Bool :=
  t.kind = .generatorDeclaration || t.kind = .generatorExpression ||
    (t.kind = .method && t.children.any (·.kind = .star))

def isHoistedKind (k : NodeKind) : Bool := k = .functionDeclaration || k = .generatorDeclaration

/-- Nothing is evaluated where a function is declared. -/
def isHoisted (t : Tree) : Bool :=
  isHoistedKind t.kind ||
    (t.kind = .exportStatement && (t.childIn? .declaration).any fun d => isHoistedKind d.kind)

def containerName (source : Bytes) (t : Tree) : String :=
  if t.kind = .arrow then arrowName
  else match t.childIn? .name with
    | none => anonymous
    | some name => String.ofList ((Text.Utf8.decode? (slice source name)).getD [])

/-- The block of an async function; with `skipGenerators` a generator has none. -/
def asyncBlock? (skipGenerators : Bool) (t : Tree) : Option Tree :=
  if !isFunction t.kind || !isAsync t || (skipGenerators && isGenerator t) then none
  else (t.childIn? .body).filter (·.kind = .block)

def functionBody? (source : Bytes) (skipGenerators : Bool) (t : Tree) : Option Body :=
  (asyncBlock? skipGenerators t).map fun block =>
    ⟨containerName source t, (block.children.filter isStatement).map site⟩

def isSupportImport (source : Bytes) (t : Tree) : Bool :=
  t.kind = .importStatement &&
    Text.containsPart (slice source t) (Text.Utf8.encode supportFragment.toList)

/-- The top level of a module: what follows its leading imports and is evaluated. -/
def topLevelBody (statements : List Tree) : List Body :=
  let evaluated := (statements.dropWhile (·.kind = .importStatement)).filter fun t => !isHoisted t
  if evaluated.isEmpty then [] else [⟨topLevel, evaluated.map site⟩]

/-- The end of the last leading import; without one, the end of the opening line. -/
def importAnchor (program : Tree) (statements : List Tree) : Nat :=
  match (statements.takeWhile (·.kind = .importStatement)).getLast? with
  | some t => t.stop
  | none => match program.children.find? (·.kind = .hashBang) with
    | some t => t.stop
    | none => 0

/-- What has been found so far: bodies in their order, and whether an import of the support module was
among the nodes. -/
structure Found where
  bodies : List Body
  hasSupportImport : Bool
deriving DecidableEq, Repr

def Found.note (source : Bytes) (skipGenerators : Bool) (found : Found) (t : Tree) : Found :=
  ⟨found.bodies ++ (functionBody? source skipGenerators t).toList,
    found.hasSupportImport || isSupportImport source t⟩

/-- Notes the nodes on a stack; in place of a node its children are put there, the first one on top. -/
def walk (source : Bytes) (skipGenerators : Bool) : Nat → List Tree → Found → Found
  | fuel + 1, t :: stack, found =>
    walk source skipGenerators fuel (t.children ++ stack) (found.note source skipGenerators t)
  | _, _, found => found

/-- The imports that the module starts with are looked at first, then all nodes of the tree. -/
def layout (source : Bytes) (skipGenerators : Bool) (program : Tree) : Layout :=
  let statements := program.children.filter isStatement
  let imports := statements.takeWhile (·.kind = .importStatement)
  let found := walk source skipGenerators program.size [program]
    ⟨topLevelBody statements, imports.any (isSupportImport source)⟩
  ⟨found.bodies, importAnchor program statements, found.hasSupportImport⟩

def locate (source : Bytes) (options : Options) : Except ParseFault Layout :=
  match (Text.Utf8.decode? source).bind outline? with
  | some program => .ok (layout source options.skipGenerators program)
  | none => .error .syntaxError

/-- The path from a file to the support module at the root. -/
def supportPath (file : String) : String :=
  let depth := ((Disk.pieces file.toList).filter fun p => !p.isEmpty).length - 1
  if depth = 0 then "./" ++ SupportModule.javascriptName
  else String.join (List.replicate depth "../") ++ SupportModule.javascriptName

def importLine (file : String) : String :=
  "import \x7b " ++ delayIdentifier ++ " \x7d from '" ++ supportPath file ++ "';"

def adapter : Adapter where
  id := "javascript"
  displayName := "JavaScript (ESM)"
  extensions := [".js", ".mjs"]
  spelling := ⟨"/* ", " */", "await " ++ delayIdentifier ++ "(", ");", true⟩
  classifier := ⟨supportFragment, ["//", "/*"], delayIdentifier⟩
  moduleName := SupportModule.javascriptName
  moduleText := SupportModule.text SupportModule.javascriptLines
  importLine := importLine
  locate := locate

end DelayInjection.JavaScript
