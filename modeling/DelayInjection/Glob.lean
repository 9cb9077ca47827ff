/-! Glob patterns over relative paths with slashes. -/

namespace DelayInjection.Glob

inductive Token where
  /-- Nothing, or everything up to and with a slash. -/
  | folders
  /-- Any text on one line. -/
  | anything
  /-- Any text without a slash. -/
  | segment
  /-- One character other than a slash. -/
  | one
  | literal (c : Char)
deriving DecidableEq, Repr

/-- From left to right, the longest token first. -/
def tokens : List Char → List Token
  | [] => []
  | '*' :: '*' :: '/' :: rest => .folders :: tokens rest
  | '*' :: '*' :: rest => .anything :: tokens rest
  | '*' :: rest => .segment :: tokens rest
  | '?' :: rest => .one :: tokens rest
  | c :: rest => .literal c :: tokens rest

/-- What is left of a text behind each slash of its first line. -/
def behindSlashes : List Char → List (List Char)
  | [] => []
  | c :: rest =>
    if c = '\n' then []
    else if c = '/' then rest :: behindSlashes rest
    else behindSlashes rest

/-- What is left of a text behind each beginning of it without a character that `stop` names. -/
def behindRuns (stop : Char → Bool) : List Char → List (List Char)
  | [] => [[]]
  | c :: rest => (c :: rest) :: if stop c then [] else behindRuns stop rest

/-- Every rest that a token can leave of a text. -/
def Token.rests : Token → List Char → List (List Char)
  | folders, text => text :: behindSlashes text
  | anything, text => behindRuns (· == '\n') text
  | segment, text => behindRuns (· == '/') text
  | one, [] => []
  | one, c :: rest => if c = '/' then [] else [rest]
  | literal _, [] => []
  | literal d, c :: rest => if c = d then [rest] else []

def accepts : List Token → List Char → Bool
  | [], text => text.isEmpty
  | t :: ts, text => (t.rests text).any (accepts ts)

/-- The pattern takes the whole path. -/
def isMatch (pattern path : List Char) : Bool := accepts (tokens pattern) path

end DelayInjection.Glob
