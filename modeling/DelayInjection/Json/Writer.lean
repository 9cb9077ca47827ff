import DelayInjection.Json
import DelayInjection.Text.Units

/-! JSON as text in ASCII, on one line or indented. -/

namespace DelayInjection.Json

def escapeChar (c : Char) : List Char :=
  if c == '"' || c == '\\' then ['\\', c]
  else if c == '\n' then ['\\', 'n']
  else if c == '\r' then ['\\', 'r']
  else if c == '\t' then ['\\', 't']
  else if c.toNat == 8 then ['\\', 'b']
  else if c.toNat == 12 then ['\\', 'f']
  else if 32 ≤ c.toNat && c.toNat < 127 then [c]
  else (Text.units16 c).flatMap fun u => '\\' :: 'u' :: Text.hexDigits 4 u

def writeString (text : String) : List Char := '"' :: text.toList.flatMap escapeChar ++ ['"']

def writtenFloat : Number.FloatStyle := ⟨-4, 16, "NaN", "Infinity"⟩

mutual

/-- `gap depth` is what stands before an item at that depth, and before a closing bracket. -/
def write (gap : Nat → List Char) (depth : Nat) : Json → List Char
  | null => "null".toList
  | bool b => (if b then "true" else "false").toList
  | int n => (toString n).toList
  | float x => writtenFloat.render x
  | str s => writeString s
  | arr [] => ['[', ']']
  | arr (v :: items) =>
    '[' :: (gap (depth + 1) ++ (write gap (depth + 1) v ++ writeItems gap (depth + 1) items)) ++
      (gap depth ++ [']'])
  | obj [] => ['\x7b', '\x7d']
  | obj ((n, v) :: members) =>
    '\x7b' :: (gap (depth + 1) ++ (writeString n ++ ':' :: ' ' ::
      (write gap (depth + 1) v ++ writeMembers gap (depth + 1) members))) ++ (gap depth ++ ['\x7d'])

def writeItems (gap : Nat → List Char) (depth : Nat) : List Json → List Char
  | [] => []
  | v :: rest => ',' :: (gap depth ++ (write gap depth v ++ writeItems gap depth rest))

def writeMembers (gap : Nat → List Char) (depth : Nat) : List (String × Json) → List Char
  | [] => []
  | (n, v) :: rest => ',' :: (gap depth ++ (writeString n ++ ':' :: ' ' ::
      (write gap depth v ++ writeMembers gap depth rest)))

end

def oneLine (value : Json) : List Char := write (fun _ => []) 0 value

/-- Two spaces a level, one item a line. -/
def indented (value : Json) : List Char :=
  write (fun depth => '\n' :: List.replicate (2 * depth) ' ') 0 value

end DelayInjection.Json
