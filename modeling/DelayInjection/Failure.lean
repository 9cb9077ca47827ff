import DelayInjection.Disk.Error
import DelayInjection.Json.Reader

/-! What can stop an operation, by cause. -/

namespace DelayInjection

inductive Failure where
  | invalidSeed (value : Json)
  | numeral (text : String) (error : Text.NumeralError)
  | notInteger (reason : Number.Binary64.NotInteger)
  /-- An integer beyond the greatest floating-point number. -/
  | beyondFloat
  /-- A quotient of integers beyond that number. -/
  | beyondQuotient
  /-- An integer with more digits than are ever written. -/
  | longInteger
  | invalidMode (value : Json)
  | negativeMinimum
  | reversedRange
  | emptyAdapterId
  | noExtensions (adapter : String)
  | undecodable (error : Text.Utf8.DecodeError)
  | longNumber (digits : Nat)
  | disk (error : Disk.Error)
  /-- A path with a zero character in it, and the operation that it was for. -/
  | zeroInPath (operation : Option String)
  /-- A value of a kind that the operation does not take. -/
  | wrongType
  /-- A value without the member or the method that is asked of it. -/
  | noMember

namespace Failure

/-- A malformed numeral is quoted up to two hundred characters. -/
def numeralText (text : String) : Text.NumeralError → String
  | .malformed =>
    "invalid literal for int() with base 10: " ++ String.ofList ((Text.quoted text.toList).take 200)
  | .tooLong digits => (Json.ReadError.number digits).message []

def message : Failure → Option String
  | invalidSeed value => some ("Invalid seed: " ++ value.quotedText)
  | numeral text error => some (numeralText text error)
  | notInteger .infinite => some "cannot convert float infinity to integer"
  | notInteger .nan => some "cannot convert float NaN to integer"
  | beyondFloat => some "int too large to convert to float"
  | beyondQuotient => some "integer division result too large for a float"
  | longInteger => some ("Exceeds the limit (" ++ toString Text.maxDigits ++
      " digits) for integer string conversion; use sys.set_int_max_str_digits() to increase the limit")
  | invalidMode value => some ("Invalid mode \"" ++ value.plainText ++
      "\". Must be one of: light, medium, hardcore")
  | negativeMinimum => some "min_delay_ms must be >= 0"
  | reversedRange => some "max_delay_ms must be >= min_delay_ms"
  | emptyAdapterId => some "Adapter id must be a non-empty string"
  | noExtensions adapter => some ("Adapter \"" ++ adapter ++ "\" must have at least one file extension")
  | undecodable error => some error.message
  | longNumber digits => some ((Json.ReadError.number digits).message [])
  | disk error => some error.message
  | zeroInPath none => some "embedded null byte"
  | zeroInPath (some operation) => some (operation ++ ": embedded null character in path")
  | wrongType => none
  | noMember => none

/-- Bad values and failed accesses end a command with a message; all else is beyond its handling. -/
def isReported : Failure → Bool
  | notInteger .infinite | beyondFloat | beyondQuotient | wrongType | noMember => false
  | _ => true

end Failure
end DelayInjection
