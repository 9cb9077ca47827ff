import DelayInjection.Text.Quoted

/-! Why an access to the disk failed. -/

namespace DelayInjection.Disk

inductive Fault where
  | missing
  | present
  | notDirectory
  | isDirectory
  | readOnly
deriving DecidableEq, Repr

/-- The fault, the path that was asked for and, when a file was to be moved, where to. -/
structure Error where
  fault : Fault
  path : String
  target : Option String := none
deriving DecidableEq, Repr

def Fault.number : Fault → Nat
  | .missing => 2
  | .present => 17
  | .notDirectory => 20
  | .isDirectory => 21
  | .readOnly => 13

def Fault.text : Fault → String
  | .missing => "No such file or directory"
  | .present => "File exists"
  | .notDirectory => "Not a directory"
  | .isDirectory => "Is a directory"
  | .readOnly => "read-only"

def quotedPath (path : String) : String := String.ofList (Text.quoted path.toList)

def Error.message (e : Error) : String :=
  if e.fault = .readOnly then e.fault.text
  else
    "[Errno " ++ toString e.fault.number ++ "] " ++ e.fault.text ++ ": " ++ quotedPath e.path ++
      match e.target with
      | none => ""
      | some target => " -> " ++ quotedPath target

end DelayInjection.Disk
