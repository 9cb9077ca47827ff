import DelayInjection.Disk.Path
import DelayInjection.Recovery

/-! What a language brings to injection: its file names, its spelling, and a locator of statements. -/

namespace DelayInjection

open Text.Utf8 (Bytes)

/-- Why a file cannot be split into statements. -/
inductive ParseFault where
  | syntaxError
  | invalidSyntax
  | badIndentation
  | mixedTabs
  | nulByte
deriving DecidableEq, Repr

def ParseFault.message : ParseFault → String
  | syntaxError => "syntax error"
  | invalidSyntax => "SyntaxError"
  | badIndentation => "IndentationError"
  | mixedTabs => "TabError"
  | nulByte => "ValueError"

structure Adapter where
  id : String
  displayName : String
  extensions : List String
  spelling : Spelling
  classifier : Classifier
  /-- The name and text of the support module. -/
  moduleName : String
  moduleText : List Char
  /-- The line that imports the support module into a file. -/
  importLine : String → String
  locate : Bytes → Options → Except ParseFault Layout

/-- What injection makes of a text. -/
structure InjectionResult where
  source : List Char
  points : List InjectionPoint := []
  referenceAdded : Bool := false
  fault : Option ParseFault := none
deriving DecidableEq, Repr

namespace Adapter

/-- The support module itself is never handled. -/
def handles (a : Adapter) (file : String) : Bool :=
  (Disk.Path.ofText file).name != a.moduleName &&
    a.extensions.any fun e => e.toList.isSuffixOf file.toList

/-- All insertions of a file; the import comes last, and only if the module is not imported yet. -/
def insertions (a : Adapter) (source : Bytes) (options : Options) (layout : Layout)
    (placed : List (Insertion × InjectionPoint)) : List Insertion :=
  placed.map (·.1) ++
    if layout.hasSupportImport then []
    else [Injection.importInsertion source layout.importAnchor
      (a.importLine options.filePath).toList]

/-- A text that holds a stamp already, that cannot be parsed, or in which no statement is selected,
stays as it is. -/
def inject (a : Adapter) (source : List Char) (options : Options) :
    Except Failure InjectionResult :=
  if Text.contains source stamp.toList then .ok ⟨source, [], false, none⟩
  else
    let bytes := Text.Utf8.encode source
    match a.locate bytes options with
    | .error fault => .ok ⟨source, [], false, some fault⟩
    | .ok layout => do
      let placed ← Injection.placements bytes options a.spelling layout.bodies
      if placed.isEmpty then .ok ⟨source, [], false, none⟩
      else
        match Text.Utf8.decode (Injection.apply bytes (a.insertions bytes options layout placed)) with
        | .error e => .error (.undecodable e)
        | .ok output => .ok ⟨output, placed.map (·.2), !layout.hasSupportImport, none⟩

def remove (a : Adapter) (source : List Char) : Removal := Recovery.remove a.classifier source

def scan (a : Adapter) (source : List Char) : List RecoveryMatch := Recovery.scan a.classifier source

end Adapter

/-- Adapters by id, in the order in which their ids were first registered. -/
structure Registry where
  adapters : List (String × Adapter) := []

namespace Registry

def register (r : Registry) (a : Adapter) : Except Failure Registry :=
  if a.id.isEmpty then .error .emptyAdapterId
  else if a.extensions.isEmpty then .error (.noExtensions a.id)
  else .ok ⟨Json.put a.id a r.adapters⟩

/-- The first adapter that handles a file. -/
def forFile (r : Registry) (file : String) : Option Adapter :=
  (r.adapters.map (·.2)).find? (·.handles file)

def get (r : Registry) (id : String) : Option Adapter := r.adapters.lookup id

def ids (r : Registry) : List String := r.adapters.map (·.1)

end Registry
end DelayInjection
