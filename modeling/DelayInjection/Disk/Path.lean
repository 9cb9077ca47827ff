/-! Slash-separated paths. -/

namespace DelayInjection.Disk

/-- The pieces between slashes. -/
def pieces : List Char → List (List Char)
  | [] => [[]]
  | c :: rest =>
    if c = '/' then [] :: pieces rest
    else match pieces rest with
      | [] => [[c]]
      | piece :: others => (c :: piece) :: others

/-- A path: whether it starts at the root, and its names. Names that are empty or a single dot are
left out; a pair of dots stays. -/
structure Path where
  absolute : Bool
  names : List String
deriving DecidableEq, Repr, Inhabited

namespace Path

def ofText (text : String) : Path :=
  ⟨text.toList.head? == some '/',
    ((pieces text.toList).filter fun p => p ≠ [] ∧ p ≠ ['.']).map String.ofList⟩

/-- The last name, empty if there is none. -/
def name (p : Path) : String := p.names.getLast?.getD ""

/-- A path that starts at the root replaces what it is joined to. -/
def join (p q : Path) : Path := if q.absolute then q else ⟨p.absolute, p.names ++ q.names⟩

def child (p : Path) (name : String) : Path := ⟨p.absolute, p.names ++ [name]⟩

/-- Pairs of dots lead back to the folder above, and there is none above the root. -/
def resolved (p : Path) : Path :=
  ⟨p.absolute, p.names.foldl (fun names n => if n = ".." then names.dropLast else names ++ [n]) []⟩

def text (p : Path) : String :=
  let names := "/".intercalate p.names
  if p.absolute then "/" ++ names else if p.names.isEmpty then "." else names

end Path
end DelayInjection.Disk
