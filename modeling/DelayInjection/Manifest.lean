import DelayInjection.Injection
import DelayInjection.Json.Writer

/-! The ledger of a run: which files were injected, with which points, and which support modules were copied. Values read from disk pass through as they are. -/

namespace DelayInjection

/-- A point as the ledger keeps it. -/
structure PointEntry where
  id : Json
  container : Json
  index : Json
  line : Json
  column : Json
  delay : Json

/-- What the ledger keeps of a file. -/
structure FileRecord where
  adapterId : Json
  originalHash : Json
  modifiedHash : Json
  points : List PointEntry
  referenceAdded : Bool

structure Manifest where
  version : Json
  createdAt : Json
  seed : Json
  mode : Json
  files : List (String × FileRecord)
  supportFiles : List Json

/-- The digest of a text, for telling whether it changed. -/
def hashContent (text : List Char) : String :=
  "sha256:" ++ String.ofList (Sha256.hex (Text.Utf8.encode text))

namespace Json

/-- The items of a value that can be gone through: characters, items, or names of members. -/
def items : Json → Except Failure (List Json)
  | str s => .ok (s.toList.map fun c => str (String.singleton c))
  | arr items => .ok items
  | obj members => .ok (members.map fun m => str m.1)
  | _ => .error .wrongType

end Json

namespace PointEntry

def ofPoint (p : InjectionPoint) : PointEntry :=
  ⟨.str p.id, .str p.container, .int p.index, .int p.line, .int p.column, .int p.delay⟩

def toJson (p : PointEntry) : Json :=
  .obj [("id", p.id), ("containerName", p.container), ("indexWithinContainer", p.index),
    ("sourceLine", p.line), ("sourceColumn", p.column), ("delayMilliseconds", p.delay)]

def ofJson : Json → Except Failure PointEntry
  | .obj m => .ok {
      id := (m.lookup "id").getD (.str "")
      container := (m.lookup "containerName").getD (.str "")
      index := (m.lookup "indexWithinContainer").getD (.int 0)
      line := (m.lookup "sourceLine").getD (.int 0)
      column := (m.lookup "sourceColumn").getD (.int 0)
      delay := (m.lookup "delayMilliseconds").getD (.int 0) }
  | _ => .error .noMember

end PointEntry

namespace FileRecord

def toJson (r : FileRecord) : Json :=
  .obj [("adapterId", r.adapterId), ("originalContentHash", r.originalHash),
    ("modifiedContentHash", r.modifiedHash),
    ("injectionPoints", .arr (r.points.map PointEntry.toJson)),
    ("supportModuleReferenceAdded", .bool r.referenceAdded)]

def ofJson : Json → Except Failure FileRecord
  | .obj m => do
    let points ← ((m.lookup "injectionPoints").getD (.arr [])).items
    let points ← points.mapM PointEntry.ofJson
    .ok {
      adapterId := (m.lookup "adapterId").getD (.str "")
      originalHash := (m.lookup "originalContentHash").getD (.str "")
      modifiedHash := (m.lookup "modifiedContentHash").getD (.str "")
      points := points
      referenceAdded := ((m.lookup "supportModuleReferenceAdded").getD (.bool false)).truthy }
  | _ => .error .noMember

end FileRecord

namespace Manifest

def currentVersion : Int := 1

/-- The empty ledger of a run that starts at `now`. -/
def start (now : String) (seed mode : Json) : Manifest :=
  ⟨.int currentVersion, .str now, seed, mode, [], []⟩

def addFile (m : Manifest) (path : String) (record : FileRecord) : Manifest :=
  { m with files := Json.put path record m.files }

/-- A support module is listed once. -/
def addSupportFile (m : Manifest) (path : String) : Manifest :=
  if m.supportFiles.any (·.isStr path) then m
  else { m with supportFiles := m.supportFiles ++ [.str path] }

def totalPoints (m : Manifest) : Nat := m.files.foldr (fun f n => f.2.points.length + n) 0

/-- The file still holds what injection wrote. -/
def isUnmodified (m : Manifest) (path hash : String) : Bool :=
  match m.files.lookup path with
  | some record => record.modifiedHash.isStr hash
  | none => false

def toJson (m : Manifest) : Json :=
  .obj [("version", m.version), ("createdAt", m.createdAt), ("seed", m.seed), ("mode", m.mode),
    ("files", .obj (m.files.map fun f => (f.1, f.2.toJson))),
    ("supportFiles", .arr m.supportFiles)]

def readFiles : Json → Except Failure (List (String × FileRecord))
  | .obj members => members.mapM fun f => do .ok (f.1, ← FileRecord.ofJson f.2)
  | value => if value.truthy then .error .noMember else .ok []

def readSupportFiles (value : Json) : Except Failure (List Json) :=
  if value.truthy then value.items else .ok []

/-- Reads a ledger; what is missing is taken from an empty one that starts at `now`. -/
def ofJson (now : String) : Json → Except Failure Manifest
  | .obj m => do
    let files ← readFiles ((m.lookup "files").getD .null)
    let supportFiles ← readSupportFiles ((m.lookup "supportFiles").getD .null)
    .ok {
      version := (m.lookup "version").getD (.int currentVersion)
      createdAt := (m.lookup "createdAt").getD (.str now)
      seed := (m.lookup "seed").getD .null
      mode := (m.lookup "mode").getD .null
      files := files
      supportFiles := supportFiles }
  | _ => .error .noMember

end Manifest
end DelayInjection
