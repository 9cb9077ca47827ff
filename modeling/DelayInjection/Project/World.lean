import DelayInjection.Disk.Tree
import DelayInjection.Failure
import DelayInjection.Text.Blank

/-! What a command can see and change: the disk, what was typed, and what it has printed. A command that fails leaves all of it as far as it came. -/

namespace DelayInjection

open Text.Utf8 (Bytes)
open Disk (Path)

structure World where
  disk : Disk
  /-- What is yet to be read from the keyboard. -/
  typed : List Char := []
  printed : List Char := []
  /-- What was printed for the eyes of the user alone. -/
  warned : List Char := []

abbrev Run := EStateM Failure World

namespace Run

def ofExcept {α : Type} : Except Failure α → Run α
  | .ok value => return value
  | .error failure => throw failure

def printText (text : String) : Run Unit :=
  modify fun w => { w with printed := w.printed ++ text.toList }

def print (line : String) : Run Unit := printText (line ++ "\n")

def warn (line : String) : Run Unit :=
  modify fun w => { w with warned := w.warned ++ line.toList ++ ['\n'] }

/-- A path with a zero in it is refused before the disk is asked. -/
def checked {α : Type} (operation : Option String) (path : Path) (x : Except Disk.Error α) :
    Except Failure α :=
  if path.names.any fun n => n.toList.contains '\x00' then .error (.zeroInPath operation)
  else x.mapError .disk

/-- The result of a read from the disk, whatever it is. -/
def look {α : Type} (f : Disk → Except Failure α) : Run (Except Failure α) :=
  return f (← get).disk

def change (operation : Option String) (path : Path) (f : Disk → Except Disk.Error Disk) :
    Run Unit := do
  let disk ← ofExcept (checked operation path (f (← get).disk))
  modify fun w => { w with disk := disk }

def bytesAt (path : Path) (d : Disk) : Except Failure Bytes := checked none path (d.read path)

/-- The characters of a file, line ends as they are. -/
def textAt (path : Path) (d : Disk) : Except Failure (List Char) := do
  let bytes ← bytesAt path d
  (Text.Utf8.decode bytes).mapError .undecodable

/-- The text of a file, unless its path is refused. -/
def textUnless (refusal : Path → Option Disk.Error) (path : Path) (d : Disk) :
    Except Failure (List Char) :=
  match refusal path with
  | some e => .error (.disk e)
  | none => textAt path d

/-- A text with newlines for all line ends. -/
def unifyNewlines : List Char → List Char
  | [] => []
  | '\r' :: '\n' :: rest => '\n' :: unifyNewlines rest
  | '\r' :: rest => '\n' :: unifyNewlines rest
  | c :: rest => c :: unifyNewlines rest

def rewrite (path : Path) (text : List Char) : Run Unit :=
  change none path (·.rewrite path (Text.Utf8.encode text))

def remove (path : Path) : Run Unit := change (some "unlink") path (·.remove path)

/-- Asks a question. Only the letter y means yes. -/
def confirm (question : String) : Run Bool := do
  printText question
  let typed := (← get).typed
  let line := typed.takeWhile (· != '\n')
  modify fun w => { w with typed := typed.drop (line.length + 1) }
  let answer := Text.strip line
  return answer = ['y'] || answer = ['Y']

end Run
end DelayInjection
