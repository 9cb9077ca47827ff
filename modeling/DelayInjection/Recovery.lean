import DelayInjection.Injection
import DelayInjection.Text.Word

/-! Injected lines found again by their text alone, and their removal. -/

namespace DelayInjection

/-- Why a line is taken for an injected one. -/
inductive Reason where
  | stamp
  | identifier
  | supportImport
deriving DecidableEq, Repr

def Reason.name : Reason → String
  | stamp => "stamp"
  | identifier => "identifier"
  | supportImport => "import"

/-- What one language's injected lines are known by. -/
structure Classifier where
  /-- A part of the support module's name that every import of it holds. -/
  supportFragment : String
  commentOpenings : List String := ["//", "/*"]
  identifier : String := delayIdentifier
deriving DecidableEq, Repr

/-- A line that recovery takes out. -/
structure RecoveryMatch where
  line : Nat
  reason : Reason
  content : List Char
deriving DecidableEq, Repr

structure Removal where
  source : List Char
  removed : Nat
deriving DecidableEq, Repr

namespace Recovery

open Text (isBlank isWordChar)

def bracketStep (c : Char) : Int :=
  if c = '\x7b' ∨ c = '(' then 1 else if c = '\x7d' ∨ c = ')' then -1 else 0

/-- Opening minus closing braces and parentheses. -/
def bracketDepth (line : List Char) : Int := line.foldr (fun c n => bracketStep c + n) 0

def dropPrefix? (part text : List Char) : Option (List Char) :=
  if part.isPrefixOf text then some (text.drop part.length) else none

/-- The identifier, blanks and an opening parenthesis; what is left behind them. -/
def afterIdentifier? (identifier text : List Char) : Option (List Char) :=
  (dropPrefix? identifier text).bind fun rest => dropPrefix? ['('] (rest.dropWhile isBlank)

/-- Blanks, as many as the rest allows, and then the identifier with its parenthesis. -/
def afterBlanks? (identifier : List Char) : List Char → Option (List Char)
  | [] => none
  | c :: rest =>
    if isBlank c then
      match afterBlanks? identifier rest with
      | some r => some r
      | none => afterIdentifier? identifier rest
    else none

/-- A delay call up to its parenthesis, and what is left behind it. -/
def call? (identifier text : List Char) : Option (List Char) :=
  (dropPrefix? "await".toList text).bind (afterBlanks? identifier)

/-- A word starts where the character before is not part of one. -/
def startsWord (before : Option Char) : Bool := !before.any isWordChar

/-- The text before each delay call of a line, read backwards. `skip` characters still belong to the
call before. -/
def callPrefixes (identifier : List Char) (before : List Char) (skip : Nat) :
    List Char → List (List Char)
  | [] => []
  | c :: rest =>
    match skip with
    | skip + 1 => callPrefixes identifier (c :: before) skip rest
    | 0 =>
      match if startsWord before.head? then call? identifier (c :: rest) else none with
      | some behind =>
        before :: callPrefixes identifier (c :: before) (rest.length - behind.length) rest
      | none => callPrefixes identifier (c :: before) 0 rest

def quotes : List Char := ['\'', '"', '\x60']

/-- No comment is opened in the text, and no quote is left open. -/
def isCodePosition (commentOpenings : List String) (text : List Char) : Bool :=
  !(commentOpenings.any fun o => Text.contains text o.toList) &&
    !(quotes.any fun q => text.count q % 2 == 1)

def hasCall (k : Classifier) (line : List Char) : Bool :=
  (callPrefixes k.identifier.toList [] 0 line).any fun before =>
    isCodePosition k.commentOpenings before.reverse

def importWords : List String := ["import", "from", "require"]

/-- One of the words that import stands as a word of its own. -/
def hasImportWord (before : Option Char) : List Char → Bool
  | [] => false
  | c :: rest =>
    (startsWord before && importWords.any fun w =>
      (dropPrefix? w.toList (c :: rest)).any fun behind => startsWord behind.head?) ||
    hasImportWord (some c) rest

/-- A delay call follows the end of the comment that carries the stamp. -/
def stampCarriesCall (k : Classifier) (line : List Char) : Bool :=
  let fromStamp := line.drop ((Text.find? line stamp.toList).getD (line.length - 1))
  match Text.find? fromStamp "*/".toList with
  | some n => hasCall k (fromStamp.drop (n + 2))
  | none => false

/-- Why a line, without the blanks around it, is taken out; `none` if it is kept. -/
def classify (k : Classifier) (line : List Char) : Option Reason :=
  if Text.contains line stamp.toList then some .stamp
  else if hasCall k line then some .identifier
  else if Text.contains line k.supportFragment.toList && hasImportWord none line
    then some .supportImport
  else none

/-- A line that holds a delay call may open a span of lines. -/
def carriesCall (k : Classifier) (line : List Char) : Reason → Bool
  | .identifier => true
  | .stamp => stampCarriesCall k line
  | .supportImport => false

/-- The reason for each line. `depth` is the number of brackets that are open behind a delay call;
while it is positive every line belongs to that call. -/
def reasons (k : Classifier) (depth : Nat) : List (List Char) → List (Option Reason)
  | [] => []
  | line :: rest =>
    let trimmed := Text.strip line
    if depth = 0 then
      match classify k trimmed with
      | none => none :: reasons k 0 rest
      | some reason =>
        some reason ::
          reasons k (if carriesCall k trimmed reason then (bracketDepth trimmed).toNat else 0) rest
    else some .identifier :: reasons k (depth + bracketDepth trimmed).toNat rest

def matchesFrom (number : Nat) : List (List Char × Option Reason) → List RecoveryMatch
  | [] => []
  | (_, none) :: rest => matchesFrom (number + 1) rest
  | (line, some reason) :: rest => ⟨number, reason, line⟩ :: matchesFrom (number + 1) rest

/-- The lines of a text behind a leading byte order mark. -/
def lines (source : List Char) : List (List Char) := Text.splitLines (Text.splitMark source).2

/-- The lines that removal would take out. -/
def scan (k : Classifier) (source : List Char) : List RecoveryMatch :=
  matchesFrom 1 ((lines source).zip (reasons k 0 (lines source)))

/-- The text without its injected lines. -/
def remove (k : Classifier) (source : List Char) : Removal :=
  let marked := (lines source).zip (reasons k 0 (lines source))
  let kept := marked.filter fun (_, reason) => reason.isNone
  ⟨(Text.splitMark source).1 ++ Text.joinLines (kept.map (·.1)), marked.length - kept.length⟩

end Recovery
end DelayInjection
