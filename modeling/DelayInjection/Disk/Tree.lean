import DelayInjection.Disk.Error
import DelayInjection.Disk.Path
import DelayInjection.Text.Utf8

/-! A disk: a tree of folders and files, how a path leads through it, and what can be done at its end. -/

namespace DelayInjection

open Text.Utf8 (Bytes)

namespace Disk

inductive Node where
  | file (bytes : Bytes)
  | folder (entries : List (String × Node))
deriving Inhabited

namespace Node

/-- What lies below a folder at the end of the names. -/
def at? : List String → Node → Option Node
  | [], n => some n
  | _ :: _, file _ => none
  | name :: rest, folder entries => (entries.lookup name).bind (at? rest)

/-- Puts an entry in the place of the one with its name, or behind all others. -/
def putEntry (name : String) (node : Node) : List (String × Node) → List (String × Node)
  | [] => [(name, node)]
  | (n, old) :: rest =>
    if n = name then (name, node) :: rest else (n, old) :: putEntry name node rest

/-- Puts a node at the end of the names. Folders on the way that are missing are made. -/
def put (node : Node) : List String → Node → Node
  | [], _ => node
  | _ :: _, file bytes => file bytes
  | name :: rest, folder entries =>
    folder (putEntry name (put node rest ((entries.lookup name).getD (folder []))) entries)

/-- Takes out what is at the end of the names. -/
def erase : List String → Node → Node
  | [], n => n
  | _ :: _, file bytes => file bytes
  | [name], folder entries => folder (entries.filter fun e => e.1 ≠ name)
  | name :: next :: rest, folder entries =>
    match entries.lookup name with
    | none => folder entries
    | some inner => folder (putEntry name (erase (next :: rest) inner) entries)

end Node
end Disk

/-- The node at the root, and the files that refuse to be rewritten. -/
structure Disk where
  root : Disk.Node
  locked : List (List String) := []

namespace Disk

/-- The names from the root to where a path leads, with pairs of dots gone. All but the last name
have to be folders. -/
def follow (root : Node) (reached : List String) : List String → Except Fault (List String)
  | [] => .ok reached
  | name :: rest =>
    if name = ".." then follow root reached.dropLast rest
    else if rest.isEmpty then .ok (reached ++ [name])
    else match root.at? (reached ++ [name]) with
      | none => .error .missing
      | some (.file _) => .error .notDirectory
      | some (.folder _) => follow root (reached ++ [name]) rest

def failAt {α : Type} (path : Path) (fault : Fault) : Except Error α :=
  .error ⟨fault, path.text, none⟩

def locate (d : Disk) (path : Path) : Except Error (List String) :=
  (follow d.root [] path.names).mapError fun fault => ⟨fault, path.text, none⟩

def read (d : Disk) (path : Path) : Except Error Bytes := do
  match d.root.at? (← d.locate path) with
  | none => failAt path .missing
  | some (.folder _) => failAt path .isDirectory
  | some (.file bytes) => .ok bytes

/-- Makes a file, or replaces what one holds. -/
def write (d : Disk) (path : Path) (bytes : Bytes) : Except Error Disk := do
  let names ← d.locate path
  match d.root.at? names with
  | some (.folder _) => failAt path .isDirectory
  | _ => .ok { d with root := Node.put (.file bytes) names d.root }

/-- Replaces what a file holds, unless it is locked. -/
def rewrite (d : Disk) (path : Path) (bytes : Bytes) : Except Error Disk := do
  match d.locate path with
  | .ok names => if d.locked.contains names then failAt path .readOnly else d.write path bytes
  | .error e => .error e

/-- Takes a file out. One that is not there is no fault. -/
def remove (d : Disk) (path : Path) : Except Error Disk :=
  match d.locate path with
  | .error e => if e.fault = .missing then .ok d else .error e
  | .ok names =>
    if path.names.getLast? = some ".." then failAt path .isDirectory
    else match d.root.at? names with
      | none => .ok d
      | some (.folder _) => failAt path .isDirectory
      | some (.file _) => .ok { d with root := d.root.erase names }

/-- Makes a folder with all that lead to it. One that is there already is no fault. -/
def makeFolder (d : Disk) (path : Path) : Except Error Disk :=
  match d.locate path with
  | .error e =>
    if e.fault = .missing then .ok { d with root := Node.put (.folder []) path.names d.root }
    else .error e
  | .ok names =>
    match d.root.at? names with
    | none => .ok { d with root := Node.put (.folder []) names d.root }
    | some (.folder _) => .ok d
    | some (.file _) => failAt path .present

/-- Moves a file to where another one may be. -/
def move (d : Disk) (path target : Path) : Except Error Disk := do
  let source ← d.locate path
  let names ← d.locate target
  match d.root.at? source, d.root.at? names with
  | none, _ => .error ⟨.missing, path.text, some target.text⟩
  | some _, some (.folder _) => .error ⟨.isDirectory, path.text, some target.text⟩
  | some node, _ => .ok { d with root := Node.put node names (d.root.erase source) }

def isFile (d : Disk) (path : Path) : Bool :=
  match d.read path with
  | .ok _ => true
  | .error _ => false

/-- The folder at a path; anything else is as good as an empty one. -/
def entriesAt (d : Disk) (path : Path) : List (String × Node) :=
  match d.locate path with
  | .error _ => []
  | .ok names => match d.root.at? names with
    | some (.folder entries) => entries
    | _ => []

end Disk
end DelayInjection
