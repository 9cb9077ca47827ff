import DelayInjection.Number.Decimal
import DelayInjection.Text.Quoted
import DelayInjection.Text.Numeral

/-! JSON values. Integers are unbounded and kept apart from floating-point numbers; members keep the order in which their names first came. -/

namespace DelayInjection

open Number (Binary64)

inductive Json where
  | null
  | bool (value : Bool)
  | int (value : Int)
  | float (value : Binary64)
  | str (value : String)
  | arr (items : List Json)
  | obj (members : List (String × Json))
deriving Inhabited

namespace Json

/-- Replaces the value under a name that is there, or adds the pair at the end. -/
def put {α : Type} (name : String) (value : α) : List (String × α) → List (String × α)
  | [] => [(name, value)]
  | (n, v) :: rest => if n = name then (n, value) :: rest else (n, v) :: put name value rest

/-- A later pair replaces the value of an earlier one of the same name, and keeps its place. -/
def ofPairs {α : Type} (pairs : List (String × α)) : List (String × α) :=
  pairs.foldl (fun members (n, v) => put n v members) []

def member? : Json → String → Option Json
  | obj members, name => members.lookup name
  | _, _ => none

/-- Zero, the empty text and the empty collections count as false, and so do `null` and `false`. -/
def truthy : Json → Bool
  | null => false
  | bool b => b
  | int n => n != 0
  | float x => !x.isZero
  | str s => !s.isEmpty
  | arr items => !items.isEmpty
  | obj members => !members.isEmpty

def isStr (value : Json) (text : String) : Bool :=
  match value with
  | str s => s == text
  | _ => false

/-- How numbers with a fraction are shown in messages. -/
def messageFloat : Number.FloatStyle := ⟨-4, 16, "nan", "inf"⟩

mutual

/-- A value as messages show it: texts between single quotes, items between brackets. -/
def quotedForm : Json → List Char
  | null => "None".toList
  | bool b => (if b then "True" else "False").toList
  | int n => (toString n).toList
  | float x => messageFloat.render x
  | str s => Text.quoted s.toList
  | arr items => '[' :: quotedItems items ++ [']']
  | obj members => '\x7b' :: quotedMembers members ++ ['\x7d']

def quotedItems : List Json → List Char
  | [] => []
  | [v] => quotedForm v
  | v :: rest => quotedForm v ++ ',' :: ' ' :: quotedItems rest

def quotedMembers : List (String × Json) → List Char
  | [] => []
  | [(n, v)] => Text.quoted n.toList ++ ':' :: ' ' :: quotedForm v
  | (n, v) :: rest => Text.quoted n.toList ++ ':' :: ' ' :: quotedForm v ++ ',' :: ' ' :: quotedMembers rest

end

/-- A value inside of a sentence: a text stands as it is. -/
def plainForm : Json → List Char
  | str s => s.toList
  | v => quotedForm v

def quotedText (value : Json) : String := String.ofList value.quotedForm

def plainText (value : Json) : String := String.ofList value.plainForm

end Json
end DelayInjection
