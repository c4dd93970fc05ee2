namespace BoardNet.Text

/-- A natural number in decimal, without leading zeros. -/
def decimal (number : Nat) : String := number.repr

/-- The hexadecimal digits `0` to `9` and `a` to `f` of a value below sixteen. -/
def hexDigit (value : Nat) : Char := Nat.digitChar value

/-- The pieces in which a byte is written as two hexadecimal digits: a byte below sixteen is a zero
and then its digit, any other byte is one piece. -/
def hexPieces (byte : UInt8) : List String :=
  if byte < 0x10 then ["0", String.singleton (hexDigit byte.toNat)]
  else [String.ofList [hexDigit (byte.toNat / 16), hexDigit (byte.toNat % 16)]]

/-- Like `hexPieces`, with capital letters. -/
def capitalHexPieces (byte : UInt8) : List String :=
  (hexPieces byte).map fun piece => String.ofList (piece.toList.map Char.toUpper)

/-- A number below sixteen as `0x` and its digit. -/
def hexNibble (value : UInt8) : String := String.ofList ['0', 'x', hexDigit value.toNat]

def digitsValue (digits : List Char) : Nat :=
  digits.foldl (fun value digit => 10 * value + (digit.toNat - '0'.toNat)) 0

/-- Reads a decimal number below `2 ^ 64`: at least one character, digits `0` to `9` only. -/
def readWord? (text : String) : Option Nat :=
  let digits := text.toList
  if digits ≠ [] ∧ digits.all Char.isDigit ∧ digitsValue digits < UInt64.size then
    some (digitsValue digits)
  else none

end BoardNet.Text
