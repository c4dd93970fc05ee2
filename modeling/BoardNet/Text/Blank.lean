namespace BoardNet.Text

/-- The characters with the Unicode property White_Space. -/
def isBlank (char : Char) : Bool :=
  let code := char.toNat
  (0x09 ≤ code && code ≤ 0x0D) || code = 0x20 || code = 0x85 || code = 0xA0 || code = 0x1680 ||
    (0x2000 ≤ code && code ≤ 0x200A) || code = 0x2028 || code = 0x2029 || code = 0x202F ||
    code = 0x205F || code = 0x3000

/-- The characters without the blanks at either end. -/
def trimBlanks (chars : List Char) : List Char :=
  (((chars.dropWhile isBlank).reverse).dropWhile isBlank).reverse

def trim (text : String) : String := String.ofList (trimBlanks text.toList)

end BoardNet.Text
