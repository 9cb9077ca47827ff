import DelayInjection.Adapter
import DelayInjection.Python.Statement
import DelayInjection.SupportModule.Text

/-! Where delays may go in a Python module: in the bodies of its async functions. -/

namespace DelayInjection.Python

open Text.Utf8 (Bytes)

/-- The lines of a text with what ends them: a newline, a carriage return, or both. -/
def byteLines : Bytes → List Bytes
  | [] => []
  | 13 :: 10 :: rest => [13, 10] :: byteLines rest
  | b :: rest =>
    if b = 10 || b = 13 then [b] :: byteLines rest
    else match byteLines rest with
      | [] => [[b]]
      | line :: others => (b :: line) :: others

/-- The offset at which a line starts; the first line is number one. -/
def lineStart (lines : List Bytes) (line : Nat) : Nat :=
  (lines.take (line - 1)).foldr (fun l n => l.length + n) 0

def siteKind : StatementKind → Kind
  | .returns => .returns
  | .raises => .throws
  | _ => .plain

/-- Where a delay goes in front of a statement. A decorator starts behind its mark, so the first
character of its line counts, not its own. -/
def site (lines : List Bytes) (s : Statement) : Site :=
  match (s.decorators.map (·.line)).min? with
  | some line =>
    let column := ((lines[line - 1]?.getD []).takeWhile isLineGap).length
    ⟨siteKind s.kind, lineStart lines line + column, line, column⟩
  | none =>
    let { line, column, .. } := s.extent
    ⟨siteKind s.kind, lineStart lines line + column, line, column⟩

def Statement.isText (s : Statement) : Bool := s.kind = .text

/-- The statements of a block behind a text that describes it. -/
def withoutDescription (block : List Statement) : List Statement :=
  match block with
  | [] => []
  | s :: rest => if s.isText then rest else s :: rest

/-- The body of an async function; with `skipGenerators` a generator has none. -/
def asyncBody? (lines : List Bytes) (skipGenerators : Bool) (s : Statement) : Option Body :=
  match s.kind with
  | .function true name =>
    let block := s.clauses.flatMap Clause.block
    let statements := withoutDescription block
    if (skipGenerators && blockHasYield block) || statements.isEmpty then none
    else some ⟨name, statements.map (site lines)⟩
  | _ => none

/-- The last of the names between dots is the support module's. -/
def namesSupport (name : String) : Bool :=
  String.ofList (name.toList.reverse.takeWhile (· != '.')).reverse = SupportModule.pythonModule

def isSupportImport (s : Statement) : Bool :=
  match s.kind with
  | .imports names => names.any fun n => namesSupport n.name
  | .importsFrom module _ => namesSupport module
  | _ => false

def isImport (s : Statement) : Bool :=
  match s.kind with
  | .imports _ => true
  | .importsFrom _ _ => true
  | _ => false

/-- The last line of a leading description and the imports behind it. -/
def headLine? (statements : List Statement) : Option Nat :=
  let imports := (withoutDescription statements).takeWhile isImport
  let description := if (statements.head?.any Statement.isText) then statements.take 1 else []
  (description ++ imports).getLast?.map (·.extent.endLine)

def isCommentLine (line : Bytes) : Bool :=
  let line := if Text.Utf8.byteOrderMark.isPrefixOf line then line.drop 3 else line
  (line.dropWhile Text.isBlankByte).head? = some 35

/-- Leading comment lines name the interpreter or the encoding, and stay first. -/
def commentLines (lines : List Bytes) : Nat := (lines.takeWhile isCommentLine).length

/-- The end of the line up to which the head of the module goes, without what ends the line. -/
def importAnchor (source : Bytes) (lines : List Bytes) (statements : List Statement) : Nat :=
  let line := (headLine? statements).getD (commentLines lines)
  let head := source.take (lineStart lines (line + 1))
  (head.reverse.dropWhile fun b => b == 10 || b == 13).length

def layout (source : Bytes) (skipGenerators : Bool) (statements : List Statement) : Layout :=
  let lines := byteLines source
  let all := Statement.inBlock statements
  ⟨all.filterMap (asyncBody? lines skipGenerators), importAnchor source lines statements,
    all.any isSupportImport⟩

/-- Neither the source nor the name of the file may hold a zero. -/
def locate (source : Bytes) (options : Options) : Except ParseFault Layout :=
  if options.filePath.toList.contains '\x00' then .error .nulByte
  else (outline source).map (layout source options.skipGenerators)

def importLine : String :=
  "from " ++ SupportModule.pythonModule ++ " import " ++ delayIdentifier

def adapter : Adapter where
  id := "python"
  displayName := "Python (asyncio)"
  extensions := [".py"]
  spelling := ⟨"# ", "", "await " ++ delayIdentifier ++ "(", ")", false⟩
  classifier := ⟨SupportModule.pythonModule, ["#"], delayIdentifier⟩
  moduleName := SupportModule.pythonName
  moduleText := SupportModule.text SupportModule.pythonLines
  importLine := fun _ => importLine
  locate := locate

end DelayInjection.Python
