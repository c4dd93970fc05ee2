import BoardNet.Text.Bounded

namespace BoardNet.Base64

def digit (value : UInt8) : Char :=
  if value < 26 then Char.ofNat ('A'.toNat + value.toNat)
  else if value < 52 then Char.ofNat ('a'.toNat + (value.toNat - 26))
  else if value < 62 then Char.ofNat ('0'.toNat + (value.toNat - 52))
  else if value = 62 then '+'
  else '/'

/-- The digits of some bytes, padded to a multiple of four. -/
def encode : List UInt8 → List Char
  | [] => []
  | [a] => [digit (a >>> 2), digit ((a &&& 0x03) <<< 4), '=', '=']
  | [a, b] =>
    [digit (a >>> 2), digit ((a &&& 0x03) <<< 4 ||| b >>> 4), digit ((b &&& 0x0F) <<< 2), '=']
  | a :: b :: c :: rest =>
    digit (a >>> 2) :: digit ((a &&& 0x03) <<< 4 ||| b >>> 4) ::
      digit ((b &&& 0x0F) <<< 2 ||| c >>> 6) :: digit (c &&& 0x3F) :: encode rest

/-- Adds the digits of some bytes to a text, character by character, in a buffer of `capacity`
bytes. Characters that do not fit are left out. -/
def appendTo (capacity : Nat) (text : String) (data : List UInt8) : String :=
  (encode data).foldl (fun text char => Text.push capacity text (String.singleton char)) text

/-- Every group of up to three bytes has four digits. -/
theorem length_encode (data : List UInt8) : (encode data).length = (data.length + 2) / 3 * 4 := by
  fun_induction encode data with
  | case1 => rfl
  | case2 => simp
  | case3 => simp
  | case4 a b c rest next => simp only [List.length_cons, next]; omega

end BoardNet.Base64
