import DelayInjection.Glob
import DelayInjection.Manifest
import DelayInjection.Project.World

/-! The files of a project that patterns select. -/

namespace DelayInjection

open Disk (Path)

/-- The folder with the ledger; nothing in it belongs to the project. -/
def stateFolder : String := ".flake-monster"

namespace Discovery

/-- The tokens of a pattern; a dot and a slash in front are left out. -/
def pattern (text : List Char) : List Glob.Token :=
  Glob.tokens (if "./".toList.isPrefixOf text then text.drop 2 else text)

/-- The patterns that a setting lists. -/
def patterns (setting : Json) : Except Failure (List (List Glob.Token)) := do
  (← setting.items).mapM fun
    | .str s => .ok (pattern s.toList)
    | _ => .error .noMember

/-- Patterns for the paths to be found, and for the ones to be left out. -/
structure Filter where
  included : List (List Glob.Token)
  excluded : List (List Glob.Token)

namespace Filter

def excludes (f : Filter) (path : List Char) : Bool := f.excluded.any (Glob.accepts · path)

def selects (f : Filter) (path : List Char) : Bool :=
  (f.included.any (Glob.accepts · path)) && !f.excludes path

/-- A folder is left out with all that it holds if its path with a slash is excluded. -/
def enters (f : Filter) (name : String) (path : List Char) : Bool :=
  name ≠ stateFolder && !f.excludes (path ++ ['/'])

end Filter

mutual

/-- The selected paths at and below a node with the given name and path. -/
def selectedAt (f : Filter) (name : String) (path : List Char) : Disk.Node → List (List Char)
  | .file _ => if f.selects path then [path] else []
  | .folder entries =>
    if f.enters name path then selectedIn f (path ++ ['/']) entries else []

/-- The selected paths among the entries of a folder; `above` stands in front of their names. -/
def selectedIn (f : Filter) (above : List Char) : List (String × Disk.Node) → List (List Char)
  | [] => []
  | (name, node) :: rest => selectedAt f name (above ++ name.toList) node ++ selectedIn f above rest

end

/-- In the order of their code points. -/
def sorted (paths : List (List Char)) : List String :=
  (paths.map String.ofList).mergeSort fun a b => decide (a ≤ b)

/-- The selected files below a folder of the disk. -/
def discover (d : Disk) (root : Path) (included excluded : Json) :
    Except Failure (List String) := do
  let f : Filter := ⟨← patterns included, ← patterns excluded⟩
  .ok (sorted (selectedIn f [] (d.entriesAt root)))

end Discovery
end DelayInjection
