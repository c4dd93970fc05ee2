import BoardNet.Address
import BoardNet.Proofs.Text.Cutting

namespace BoardNet

namespace Text

def hexValue? (digit : Char) : Option Nat :=
  let value := "0123456789abcdef".toList.idxOf digit
  if value < 16 then some value else none

/-- The byte that two hexadecimal digits stand for. -/
def hexByte? : List Char → Option UInt8
  | [high, low] => do return .ofNat (16 * (← hexValue? high) + (← hexValue? low))
  | _ => none

def hexDigits (byte : UInt8) : List Char :=
  [hexDigit (byte.toNat / 16), hexDigit (byte.toNat % 16)]

theorem join_hexPieces (byte : UInt8) :
    String.join (hexPieces byte) = String.ofList (hexDigits byte) := by
  apply String.ext
  unfold hexPieces
  split
  · next small =>
    have below : byte.toNat < 16 := UInt8.lt_iff_toNat_lt.mp small
    simp [hexDigits, Nat.div_eq_of_lt below, Nat.mod_eq_of_lt below]
    rfl
  · simp [hexDigits]

theorem hexValue?_hexDigit : ∀ value < 16, hexValue? (hexDigit value) = some value := by
  decide

theorem hexByte?_hexDigits (byte : UInt8) : hexByte? (hexDigits byte) = some byte := by
  have high : byte.toNat / 16 < 16 := Nat.div_lt_of_lt_mul byte.toNat_lt
  have low : byte.toNat % 16 < 16 := Nat.mod_lt _ (by decide)
  simp only [hexByte?, hexDigits, hexValue?_hexDigit _ high, hexValue?_hexDigit _ low,
    Option.bind_eq_bind, Option.bind_some, Nat.div_add_mod, UInt8.ofNat_toNat]
  rfl

theorem isAlphanum_hexDigit : ∀ value < 16, (hexDigit value).isAlphanum := by
  decide

theorem isAlphanum_of_mem_hexDigits {char : Char} {byte : UInt8} (member : char ∈ hexDigits byte) :
    char.isAlphanum := by
  simp only [hexDigits, List.mem_cons, List.not_mem_nil, or_false] at member
  rcases member with rfl | rfl
  · exact isAlphanum_hexDigit _ (Nat.div_lt_of_lt_mul byte.toNat_lt)
  · exact isAlphanum_hexDigit _ (Nat.mod_lt _ (by decide))

theorem utf8Size_hexDigit : ∀ value < 16, (hexDigit value).utf8Size = 1 := by
  decide

def octet? (digits : List Char) : Option UInt8 := do
  let value ← readWord? (String.ofList digits)
  if value < UInt8.size then return .ofNat value else none

theorem octet?_decimal (byte : UInt8) : octet? (decimal byte.toNat).toList = some byte := by
  have read := isWord_iff.mp (isWord_decimal (Nat.lt_trans byte.toNat_lt (by decide)))
  simp [octet?, String.ofList_toList, read, byte.toNat_lt]

theorem utf8ByteSize_hexDigits (byte : UInt8) :
    (String.ofList (hexDigits byte)).utf8ByteSize = 2 := by
  have high := utf8Size_hexDigit (byte.toNat / 16) (Nat.div_lt_of_lt_mul byte.toNat_lt)
  have low := utf8Size_hexDigit (byte.toNat % 16) (Nat.mod_lt _ (by decide))
  rw [← length_bytes, bytes_eq_flatMap, String.toList_ofList]
  simp [hexDigits, String.length_utf8EncodeChar, high, low]

theorem utf8ByteSize_octet_le (byte : UInt8) : (decimal byte.toNat).utf8ByteSize ≤ 3 :=
  utf8ByteSize_decimal_le (by decide) (Nat.lt_trans byte.toNat_lt (by decide))

end Text

namespace Ipv4

/-- Reads four decimal numbers between dots. -/
def read? (text : String) : Option Ipv4 :=
  match (Text.splitAt '.' text.toList).map Text.octet? with
  | [some a, some b, some c, some d] => some ⟨a, b, c, d⟩
  | _ => none

/-- An address is written whole. -/
theorem text_eq_join (ip : Ipv4) : ip.text = String.join ip.pieces := by
  have octets (octet : UInt8) := Text.utf8ByteSize_octet_le octet
  have dot : ".".utf8ByteSize = 1 := by decide
  rw [text, Text.fitting, Text.appendFitting_eq_append, String.empty_append]
  simp only [pieces, String.join_cons, String.join_nil, String.utf8ByteSize_append, dot,
    String.utf8ByteSize_empty]
  have := octets ip.a
  have := octets ip.b
  have := octets ip.c
  have := octets ip.d
  omega

/-- The text of an address is its octets in decimal with dots between. -/
theorem toList_text (ip : Ipv4) : ip.text.toList =
    ['.'].intercalate (ip.octets.map fun octet => (Text.decimal octet.toNat).toList) := by
  simp [text_eq_join, pieces, octets, List.intercalate]

/-- An address is read back from its text. -/
theorem read?_text (ip : Ipv4) : read? ip.text = some ip := by
  have split : Text.splitAt '.' ip.text.toList =
      ip.octets.map fun octet => (Text.decimal octet.toNat).toList := by
    rw [toList_text]
    apply Text.splitAt_intercalate (by simp [octets])
    intro part member inside
    obtain ⟨octet, -, rfl⟩ := List.mem_map.mp member
    exact absurd (Text.isDigit_of_mem_decimal inside) (by decide)
  simp [read?, split, octets, Text.octet?_decimal]

theorem isDigit_or_dot {ip : Ipv4} {char : Char} (member : char ∈ ip.text.toList) :
    char.isDigit ∨ char = '.' := by
  rw [toList_text] at member
  rcases Text.mem_intercalate member with dot | ⟨part, listed, inside⟩
  · exact .inr (List.mem_singleton.mp dot)
  · obtain ⟨octet, -, rfl⟩ := List.mem_map.mp listed
    exact .inl (Text.isDigit_of_mem_decimal inside)

end Ipv4

namespace Mac

/-- Reads six pairs of hexadecimal digits between colons. -/
def read? (text : String) : Option Mac :=
  match (Text.splitAt ':' text.toList).map Text.hexByte? with
  | [some a, some b, some c, some d, some e, some f] => some ⟨a, b, c, d, e, f⟩
  | _ => none

/-- An address is written whole. -/
theorem text_eq_join (mac : Mac) : mac.text = String.join mac.pieces := by
  have colon : ":".utf8ByteSize = 1 := by decide
  rw [text, Text.fitting, Text.appendFitting_eq_append, String.empty_append]
  simp [pieces, octets, List.intercalate, Text.join_hexPieces, Text.utf8ByteSize_hexDigits, colon]

/-- The text of an address is pairs of digits with colons between. -/
theorem toList_text (mac : Mac) :
    mac.text.toList = [':'].intercalate (mac.octets.map Text.hexDigits) := by
  have pairs (octet : UInt8) : (Text.hexPieces octet).flatMap String.toList =
      Text.hexDigits octet := by
    rw [← String.toList_join, Text.join_hexPieces, String.toList_ofList]
  simp [text_eq_join, pieces, octets, List.intercalate, pairs]

/-- An address is read back from its text. -/
theorem read?_text (mac : Mac) : read? mac.text = some mac := by
  have split : Text.splitAt ':' mac.text.toList = mac.octets.map Text.hexDigits := by
    rw [toList_text]
    apply Text.splitAt_intercalate (by simp [octets])
    intro part member inside
    obtain ⟨octet, -, rfl⟩ := List.mem_map.mp member
    exact absurd (Text.isAlphanum_of_mem_hexDigits inside) (by decide)
  simp [read?, split, octets, Text.hexByte?_hexDigits]

theorem isAlphanum_or_colon {mac : Mac} {char : Char} (member : char ∈ mac.text.toList) :
    char.isAlphanum ∨ char = ':' := by
  rw [toList_text] at member
  rcases Text.mem_intercalate member with colon | ⟨part, listed, inside⟩
  · exact .inr (List.mem_singleton.mp colon)
  · obtain ⟨octet, -, rfl⟩ := List.mem_map.mp listed
    exact .inl (Text.isAlphanum_of_mem_hexDigits inside)

end Mac

end BoardNet
