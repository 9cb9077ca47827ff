import DelayInjection.Delay
import DelayInjection.Profile
import DelayInjection.Sha256
import DelayInjection.Text.Lines

/-! Delay calls as insertions into the bytes of a file: which statements get one, what is written, and how the insertions are applied. -/

namespace DelayInjection

open Text.Utf8 (Bytes)

/-- What opens every marker comment. -/
def markerOpening : String := "@flake-monster[jt92-se2j!] v1"

/-- The part of a marker by which it is found again. -/
def stamp : String := "jt92-se2j!"

/-- The function that a delay call calls. -/
def delayIdentifier : String := "__FlakeMonster__"

/-- Where a statement starts: bytes from the start of the file, line from one, bytes in its line. -/
structure Site where
  kind : Kind
  offset : Nat
  line : Int
  column : Int
deriving DecidableEq, Repr

/-- The statements of one function, or of the module itself. -/
structure Body where
  name : String
  statements : List Site
deriving DecidableEq, Repr

/-- What is known of a file: its bodies, where its leading imports end, and whether it already
imports the support module. -/
structure Layout where
  bodies : List Body
  importAnchor : Nat
  hasSupportImport : Bool
deriving DecidableEq, Repr

/-- How a language writes a comment and a delay call, and whether a statement that shares its line
with other code may be moved to a line of its own. -/
structure Spelling where
  commentOpening : String
  commentClosing : String
  callOpening : String
  callClosing : String
  splitsLines : Bool
deriving DecidableEq, Repr

structure Insertion where
  offset : Nat
  text : List Char
deriving DecidableEq, Repr

/-- One delay call, by where it stands in the file as it was. -/
structure InjectionPoint where
  id : String
  container : String
  index : Int
  line : Int
  column : Int
  delay : Int
deriving DecidableEq, Repr

namespace Injection

def newline : UInt8 := 10

/-- The bytes between the last newline before `offset` and `offset`. -/
def linePrefix (source : Bytes) (offset : Nat) : Bytes :=
  ((source.take offset).reverse.takeWhile (· != newline)).reverse

/-- Space, tab, form feed and vertical tab; a carriage return does not indent. -/
def isIndentByte (b : UInt8) : Bool := b == 32 || b == 9 || b == 12 || b == 11

/-- The blanks that open the line of `offset`, up to `offset`. -/
def indent (source : Bytes) (offset : Nat) : Bytes :=
  (linePrefix source offset).takeWhile isIndentByte

/-- Other code stands before `offset` on its line. -/
def isInline (source : Bytes) (offset : Nat) : Bool :=
  (linePrefix source offset).any fun b => !Text.isBlankByte b

/-- The text that a point's id is a digest of. -/
def pointKey? (file container : String) (index line column : Int) : Option String := do
  let i ← Text.showInt? index
  let l ← Text.showInt? line
  let c ← Text.showInt? column
  some (file ++ ":" ++ container ++ ":" ++ i ++ ":" ++ l ++ ":" ++ c)

def idOfKey (key : String) : String :=
  String.ofList ((Sha256.hex (Text.Utf8.encode key.toList)).take 8)

def pointId (file container : String) (index line column : Int) : Except Failure String :=
  match pointKey? file container index line column with
  | none => .error .longInteger
  | some key => .ok (idOfKey key)

def marker (id seed mode : String) : String :=
  markerOpening ++ " id=" ++ id ++ " seed=" ++ seed ++ " mode=" ++ mode

def commentLine (spelling : Spelling) (id seed mode : String) : String :=
  spelling.commentOpening ++ marker id seed mode ++ spelling.commentClosing

def callLine (spelling : Spelling) (delay : Int) : String :=
  spelling.callOpening ++ toString delay ++ spelling.callClosing

/-- A marker line and a call line, both indented like the statement that they precede; a statement
behind other code is moved to a new line first. -/
def insertedText (indent : List Char) (inline : Bool) (comment call : String) : List Char :=
  let lines := comment.toList ++ '\n' :: indent ++ call.toList ++ '\n' :: indent
  if inline then '\n' :: indent ++ lines else lines

/-- The bytes of an indent as characters. -/
def indentText (bytes : Bytes) : List Char := bytes.map fun b => Char.ofNat b.toNat

def placeAt (source : Bytes) (options : Options) (spelling : Spelling) (container : String)
    (index : Nat) (site : Site) : Except Failure (Insertion × InjectionPoint) := do
  let delay ← Delay.milliseconds options.seed options.filePath container index
    options.minDelay options.maxDelay
  let id ← pointId options.filePath container index site.line site.column
  let some seed := Text.showInt? options.seed | .error .longInteger
  let text := insertedText (indentText (indent source site.offset)) (isInline source site.offset)
    (commentLine spelling id seed options.mode) (callLine spelling delay)
  .ok (⟨site.offset, text⟩, ⟨id, container, index, site.line, site.column, delay⟩)

/-- Whether a delay goes in front of the statement at `position` of its body. -/
def selects (source : Bytes) (options : Options) (spelling : Spelling) (position : Nat)
    (site : Site) : Bool :=
  Mode.selects options.mode site.kind position &&
    (spelling.splitsLines || !isInline source site.offset)

/-- Goes through a body; a statement without a delay keeps its position but takes no index. -/
def placeInBody (source : Bytes) (options : Options) (spelling : Spelling) (container : String)
    (position index : Nat) : List Site → Except Failure (List (Insertion × InjectionPoint))
  | [] => .ok []
  | site :: rest =>
    if selects source options spelling position site then do
      let placed ← placeAt source options spelling container index site
      let others ← placeInBody source options spelling container (position + 1) (index + 1) rest
      .ok (placed :: others)
    else placeInBody source options spelling container (position + 1) index rest

/-- The insertions and points of all bodies in order. -/
def placements (source : Bytes) (options : Options) (spelling : Spelling) :
    List Body → Except Failure (List (Insertion × InjectionPoint))
  | [] => .ok []
  | body :: rest => do
    let first ← placeInBody source options spelling body.name 0 0 body.statements
    let others ← placements source options spelling rest
    .ok (first ++ others)

def startsWithMark (source : Bytes) : Bool := Text.Utf8.byteOrderMark.isPrefixOf source

/-- The bytes from `anchor` to the end of its line, and whether a newline ends it. -/
def lineRest (source : Bytes) (anchor : Nat) : Bytes × Bool :=
  let rest := source.drop anchor
  let line := rest.takeWhile (· != newline)
  (line, line.length < rest.length)

/-- The import goes on a line of its own right behind the anchor, or at the very top when the
anchor is zero. -/
def importInsertion (source : Bytes) (anchor : Nat) (line : List Char) : Insertion :=
  if anchor = 0 then ⟨if startsWithMark source then 3 else 0, line ++ ['\n']⟩
  else
    let (rest, ended) := lineRest source anchor
    if rest.any fun b => !Text.isBlankByte b then ⟨anchor, '\n' :: line ++ ['\n']⟩
    else if ended then ⟨anchor + rest.length + 1, line ++ ['\n']⟩
    else ⟨source.length, '\n' :: line⟩

def splice (source : Bytes) (i : Insertion) : Bytes :=
  source.take i.offset ++ Text.Utf8.encode i.text ++ source.drop i.offset

/-- From the back to the front, so that earlier offsets stay valid; of two insertions at one offset
the later one comes to stand first. -/
def apply (source : Bytes) (insertions : List Insertion) : Bytes :=
  (insertions.mergeSort fun i j => decide (j.offset ≤ i.offset)).foldl splice source

end Injection
end DelayInjection
