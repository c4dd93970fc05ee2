namespace BoardNet.Text

def sameIgnoringCase (left right : String) : Bool :=
  decide (left.toList.map Char.toLower = right.toList.map Char.toLower)

def startsIgnoringCase (start text : String) : Bool :=
  (start.toList.map Char.toLower).isPrefixOf (text.toList.map Char.toLower)

/-- The lower-case form of a byte that is an ASCII capital; any other byte as it is. -/
def lowerByte (byte : UInt8) : UInt8 :=
  if 0x41 ≤ byte ∧ byte ≤ 0x5A then byte + 0x20 else byte

/-- The bytes after `start`, if `data` begins with it up to the case of ASCII letters. -/
def afterIgnoringCase? : (start data : List UInt8) → Option (List UInt8)
  | [], rest => some rest
  | _ :: _, [] => none
  | wanted :: start, byte :: rest =>
    if lowerByte wanted = lowerByte byte then afterIgnoringCase? start rest else none

end BoardNet.Text
