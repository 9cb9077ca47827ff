/-! Texts as 16-bit units. -/

namespace DelayInjection.Text

/-- The units of a character: one, or the leading and the trailing half of a pair. -/
def units16 (c : Char) : List Nat :=
  let n := c.toNat
  if n < 0x10000 then [n] else [0xD800 + (n - 0x10000) / 0x400, 0xDC00 + (n - 0x10000) % 0x400]

def allUnits16 (text : List Char) : List Nat := text.flatMap units16

end DelayInjection.Text
