/-! UTF-8: characters as bytes, and bytes back as characters with the place and kind of the first fault. -/

namespace DelayInjection.Text.Utf8

abbrev Bytes := List UInt8

def encodeChar (c : Char) : Bytes := String.utf8EncodeChar c

def encode (text : List Char) : Bytes := text.flatMap encodeChar

/-- Number of bytes that a text takes. -/
def width (text : List Char) : Nat := text.foldr (fun c n => c.utf8Size + n) 0

inductive Fault where
  | invalidStart
  | invalidContinuation
  | unexpectedEnd
deriving DecidableEq, Repr

/-- A fault at byte `position` that covers `width` bytes, the first of which is `first`. -/
structure DecodeError where
  fault : Fault
  position : Nat
  width : Nat
  first : UInt8
deriving DecidableEq, Repr

def isContinuation (b : UInt8) : Bool := 0x80 ≤ b && b < 0xC0

/-- The second byte after lead `lead` leaves neither an overlong form, nor a surrogate, nor a code
point beyond the last. -/
def isSecond (lead second : UInt8) : Bool :=
  isContinuation second &&
    !(lead == 0xE0 && second < 0xA0) && !(lead == 0xED && 0xA0 ≤ second) &&
    !(lead == 0xF0 && second < 0x90) && !(lead == 0xF4 && 0x90 ≤ second)

def tail6 (b : UInt8) : Nat := b.toNat % 64

def decodeFrom (position : Nat) : Bytes → Except DecodeError (List Char)
  | [] => .ok []
  | a :: rest =>
    if a < 0x80 then
      (Char.ofNat a.toNat :: ·) <$> decodeFrom (position + 1) rest
    else if a < 0xC2 then .error ⟨.invalidStart, position, 1, a⟩
    else if a < 0xE0 then
      match rest with
      | [] => .error ⟨.unexpectedEnd, position, 1, a⟩
      | b :: rest =>
        if !isSecond a b then .error ⟨.invalidContinuation, position, 1, a⟩
        else (Char.ofNat (a.toNat % 32 * 64 + tail6 b) :: ·) <$> decodeFrom (position + 2) rest
    else if a < 0xF0 then
      match rest with
      | [] => .error ⟨.unexpectedEnd, position, 1, a⟩
      | b :: rest =>
        if !isSecond a b then .error ⟨.invalidContinuation, position, 1, a⟩
        else match rest with
          | [] => .error ⟨.unexpectedEnd, position, 2, a⟩
          | c :: rest =>
            if !isContinuation c then .error ⟨.invalidContinuation, position, 2, a⟩
            else (Char.ofNat ((a.toNat % 16 * 64 + tail6 b) * 64 + tail6 c) :: ·) <$>
              decodeFrom (position + 3) rest
    else if a < 0xF5 then
      match rest with
      | [] => .error ⟨.unexpectedEnd, position, 1, a⟩
      | b :: rest =>
        if !isSecond a b then .error ⟨.invalidContinuation, position, 1, a⟩
        else match rest with
          | [] => .error ⟨.unexpectedEnd, position, 2, a⟩
          | c :: rest =>
            if !isContinuation c then .error ⟨.invalidContinuation, position, 2, a⟩
            else match rest with
              | [] => .error ⟨.unexpectedEnd, position, 3, a⟩
              | d :: rest =>
                if !isContinuation d then .error ⟨.invalidContinuation, position, 3, a⟩
                else (Char.ofNat (((a.toNat % 8 * 64 + tail6 b) * 64 + tail6 c) * 64 + tail6 d) :: ·)
                  <$> decodeFrom (position + 4) rest
    else .error ⟨.invalidStart, position, 1, a⟩

def decode (bytes : Bytes) : Except DecodeError (List Char) := decodeFrom 0 bytes

def decode? (bytes : Bytes) : Option (List Char) := (decode bytes).toOption

/-- The bytes of U+FEFF, which may open a file. -/
def byteOrderMark : Bytes := [0xEF, 0xBB, 0xBF]

def Fault.reason : Fault → String
  | .invalidStart => "invalid start byte"
  | .invalidContinuation => "invalid continuation byte"
  | .unexpectedEnd => "unexpected end of data"

def hexDigit (n : Nat) : Char := Char.ofNat (if n < 10 then 48 + n else 87 + n)

/-- Two lower-case hexadecimal digits. -/
def hexByte (b : UInt8) : List Char := [hexDigit (b.toNat / 16), hexDigit (b.toNat % 16)]

/-- A single byte is named by its value, a run of bytes by its first and last position. -/
def DecodeError.message (e : DecodeError) : String :=
  let place := if e.width = 1
    then "byte 0x" ++ String.ofList (hexByte e.first) ++ " in position " ++ toString e.position
    else "bytes in position " ++ toString e.position ++ "-" ++ toString (e.position + e.width - 1)
  "'utf-8' codec can't decode " ++ place ++ ": " ++ e.fault.reason

end DelayInjection.Text.Utf8
