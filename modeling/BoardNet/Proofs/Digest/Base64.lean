import BoardNet.Digest.Base64
import BoardNet.Text.Bytes
import Mathlib.Data.List.Induction
import Mathlib.Data.Nat.ModEq

namespace BoardNet

namespace Text

/-- Texts of the same bytes are the same. -/
theorem bytes_inj {first second : String} (same : bytes first = bytes second) : first = second := by
  have read := congrArg ofBytes? same
  rw [ofBytes?_bytes, ofBytes?_bytes] at read
  exact Option.some.inj read

theorem bytes_ofList_cons (char : Char) (chars : List Char) :
    bytes (String.ofList (char :: chars)) =
      bytes (String.singleton char) ++ bytes (String.ofList chars) := by
  rw [← bytes_append]
  congr 1
  apply String.ext
  simp

end Text

namespace Base64

section Bits

/-- The last `width` bits of a number, the most significant one first. -/
def bits : (width number : Nat) → List Bool
  | 0, _ => []
  | width + 1, number => bits width (number / 2) ++ [decide (number % 2 = 1)]

/-- The number that bits denote. -/
def value (row : List Bool) : Nat := row.foldl (fun value bit => 2 * value + bit.toNat) 0

theorem length_bits (width number : Nat) : (bits width number).length = width := by
  induction width generalizing number with
  | zero => rfl
  | succ width ih => rw [bits, List.length_append, ih, List.length_singleton]

/-- The bits of a number are the higher ones and then the lower ones. -/
theorem bits_add (width more number : Nat) :
    bits (width + more) number = bits width (number / 2 ^ more) ++ bits more number := by
  induction more generalizing number with
  | zero => simp [bits]
  | succ more ih =>
    rw [Nat.add_succ, bits, ih, Nat.div_div_eq_div_mul, ← Nat.pow_succ', List.append_assoc]
    rfl

theorem value_concat (row : List Bool) (bit : Bool) :
    value (row ++ [bit]) = 2 * value row + bit.toNat := by
  simp [value]

theorem value_append (row more : List Bool) :
    value (row ++ more) = value row * 2 ^ more.length + value more := by
  induction more using List.reverseRecOn with
  | nil => simp [value]
  | append_singleton more bit ih =>
    rw [← List.append_assoc, value_concat, value_concat, ih, List.length_append,
      List.length_singleton, Nat.pow_succ]
    grind

theorem value_lt (row : List Bool) : value row < 2 ^ row.length := by
  induction row using List.reverseRecOn with
  | nil => decide
  | append_singleton row bit ih =>
    have last := bit.toNat_lt
    rw [value_concat, List.length_append, List.length_singleton, Nat.pow_succ]
    omega

theorem value_bits (width number : Nat) : value (bits width number) = number % 2 ^ width := by
  induction width generalizing number with
  | zero => simp [bits, value, Nat.mod_one]
  | succ width ih =>
    rw [bits, value_concat, ih, Nat.pow_succ', Nat.mod_mul]
    have last : (decide (number % 2 = 1)).toNat = number % 2 := by
      rcases Nat.mod_two_eq_zero_or_one number with even | odd <;> simp [*]
    omega

/-- The bits of what bits denote are these bits. -/
theorem bits_value (row : List Bool) : bits row.length (value row) = row := by
  induction row using List.reverseRecOn with
  | nil => rfl
  | append_singleton row bit ih =>
    have half : (2 * value row + bit.toNat) / 2 = value row := by
      have last := bit.toNat_lt
      omega
    have last : decide ((2 * value row + bit.toNat) % 2 = 1) = bit := by
      cases bit <;> simp [Nat.add_mod]
    rw [value_concat, List.length_append, List.length_singleton, bits, half, ih, last]

end Bits

section Groups

variable {α : Type} {size : Nat} {group row rest : List α} {filler : α}

/-- A row cut into groups of `size`. The last group may be shorter. -/
def groups (size : Nat) : List α → List (List α)
  | [] => []
  | first :: rest => (first :: rest.take (size - 1)) :: groups size (rest.drop (size - 1))
termination_by row => row.length
decreasing_by simp only [List.length_drop, List.length_cons]; omega

/-- A row filled up to a multiple of `size`. -/
def filled (size : Nat) (filler : α) (row : List α) : List α :=
  row ++ List.replicate ((size - row.length % size) % size) filler

theorem groups_append (some : 0 < size) (length : group.length = size) (rest : List α) :
    groups size (group ++ rest) = group :: groups size rest := by
  obtain ⟨first, group, rfl⟩ := List.exists_cons_of_length_pos (length ▸ some)
  have whole : group.length = size - 1 := by
    rw [List.length_cons] at length
    omega
  rw [List.cons_append, groups, List.take_left' whole, List.drop_left' whole]

/-- Groups that are joined are cut as they were. -/
theorem groups_flatten (some : 0 < size) {parts : List (List α)}
    (length : ∀ part ∈ parts, part.length = size) : groups size parts.flatten = parts := by
  induction parts with
  | nil => rw [List.flatten_nil, groups]
  | cons part parts ih =>
    obtain ⟨here, others⟩ := List.forall_mem_cons.mp length
    rw [List.flatten_cons, groups_append some here, ih others]

/-- A row of a multiple of `size` is some groups of that size, joined. -/
theorem exists_parts (some : 0 < size) (multiple : row.length % size = 0) :
    ∃ parts : List (List α), parts.flatten = row ∧ ∀ part ∈ parts, part.length = size := by
  induction length : row.length using Nat.strong_induction_on generalizing row with
  | h count ih =>
    by_cases empty : row = []
    · exact ⟨[], empty.symm, nofun⟩
    · have pos := List.length_pos_iff.mpr empty
      have most : size ≤ row.length := Nat.le_of_dvd pos (Nat.dvd_of_mod_eq_zero multiple)
      have shorter : (row.drop size).length = row.length - size := List.length_drop
      obtain ⟨parts, joined, sizes⟩ := ih (row.drop size).length (by omega)
        (by rw [shorter, ← Nat.mod_eq_sub_mod most, multiple]) rfl
      refine ⟨row.take size :: parts, ?_, List.forall_mem_cons.mpr ⟨?_, sizes⟩⟩
      · rw [List.flatten_cons, joined, List.take_append_drop]
      · exact List.length_take_of_le most

theorem length_filled_mod (some : 0 < size) (row : List α) :
    (filled size filler row).length % size = 0 := by
  rw [filled, List.length_append, List.length_replicate, Nat.add_mod_mod]
  have below := Nat.mod_lt row.length some
  have whole := Nat.div_add_mod row.length size
  have sum : row.length + (size - row.length % size) = size * (row.length / size + 1) := by
    rw [Nat.mul_succ]
    omega
  rw [sum, Nat.mul_mod_right]

theorem filled_append (multiple : group.length % size = 0) (rest : List α) :
    filled size filler (group ++ rest) = group ++ filled size filler rest := by
  rw [filled, filled, List.length_append, Nat.add_mod, multiple, Nat.zero_add, Nat.mod_mod,
    List.append_assoc]

end Groups

section Standard

def alphabet : List Char :=
  "ABCDEFGHIJKLMNOPQRSTUVWXYZabcdefghijklmnopqrstuvwxyz0123456789+/".toList

def symbol (group : List Bool) : Char := alphabet.getD (value group) '='

def sextet? (char : Char) : Option (List Bool) := (alphabet.idxOf? char).map (bits 6)

/-- The bits of some bytes in one row. -/
def rowOf (data : List UInt8) : List Bool := data.flatMap fun byte => bits 8 byte.toNat

/-- The encoding of RFC 4648, section 4. The bits of all bytes are cut into groups of six, the last
one filled up with zeros. Each group is a digit, and the digits are filled up to a multiple of four
with the padding character. -/
def standard (data : List UInt8) : List Char :=
  filled 4 '=' ((groups 6 (filled 6 false (rowOf data))).map symbol)

/-- Reads an encoding: digits up to the padding, which has to be the right one, and the bytes that
their bits make. Bits that are left over have to be zeros and no more than were filled up. -/
def decode? (text : List Char) : Option (List UInt8) := do
  let digits := text.takeWhile (· ≠ '=')
  let sextets ← digits.mapM sextet?
  let row := sextets.flatten
  let whole := row.take (row.length / 8 * 8)
  if text = filled 4 '=' digits ∧ row = filled 6 false whole then
    return (groups 8 whole).map fun octet => UInt8.ofNat (value octet)
  else none

variable {group : List Bool} {data : List UInt8}

theorem getD_alphabet {number : Nat} (small : number < 64) :
    alphabet.getD number '=' ≠ '=' ∧
      alphabet.idxOf? (alphabet.getD number '=') = some number := by
  revert number
  decide +kernel

/-- A digit is not the padding character, and stands for the bits that it was made from. -/
theorem sextet?_symbol (six : group.length = 6) :
    symbol group ≠ '=' ∧ sextet? (symbol group) = some group := by
  obtain ⟨other, index⟩ := getD_alphabet (six ▸ value_lt group)
  refine ⟨other, ?_⟩
  rw [sextet?, symbol, index, Option.map_some, ← six, bits_value]

theorem length_rowOf (data : List UInt8) : (rowOf data).length = 8 * data.length := by
  induction data with
  | nil => rfl
  | cons byte data ih =>
    rw [rowOf, List.flatMap_cons, List.length_append, length_bits, ← rowOf, ih, List.length_cons]
    omega

theorem mapM_sextet? {parts : List (List Bool)} (six : ∀ part ∈ parts, part.length = 6) :
    (parts.map symbol).mapM sextet? = some parts := by
  induction parts with
  | nil => rfl
  | cons part parts ih =>
    obtain ⟨here, others⟩ := List.forall_mem_cons.mp six
    rw [List.map_cons, List.mapM_cons, (sextet?_symbol here).2, ih others]
    rfl

/-- The digits of an encoding end where it is filled up. -/
theorem takeWhile_filled {digits : List Char} (free : '=' ∉ digits) :
    (filled 4 '=' digits).takeWhile (· ≠ '=') = digits := by
  have others : ∀ char ∈ digits, decide (char ≠ '=') = true := by
    intro char member
    exact decide_eq_true (ne_of_mem_of_not_mem member free)
  rw [filled, List.takeWhile_append_of_pos others, List.takeWhile_replicate]
  simp

/-- The bits of bytes are cut into these bytes. -/
theorem groups_rowOf (data : List UInt8) :
    (groups 8 (rowOf data)).map (fun octet => UInt8.ofNat (value octet)) = data := by
  rw [rowOf, List.flatMap_def, groups_flatten (by decide) (by simp [length_bits]), List.map_map]
  have same (byte : UInt8) : UInt8.ofNat (value (bits 8 byte.toNat)) = byte := by
    rw [value_bits, Nat.mod_eq_of_lt byte.toNat_lt, UInt8.ofNat_toNat]
  simp [Function.comp_def, same]

/-- What was filled up to a multiple of six is no whole byte. -/
theorem take_filled (data : List UInt8) :
    (filled 6 false (rowOf data)).take ((filled 6 false (rowOf data)).length / 8 * 8) =
      rowOf data := by
  have length : (filled 6 false (rowOf data)).length / 8 * 8 = (rowOf data).length := by
    rw [filled, List.length_append, List.length_replicate, length_rowOf]
    omega
  rw [length]
  exact List.take_left

/-- Reading an encoding gives back the bytes. -/
theorem decode?_standard (data : List UInt8) : decode? (standard data) = some data := by
  have sixes : (filled 6 false (rowOf data)).length % 6 = 0 :=
    length_filled_mod (by decide) (rowOf data)
  obtain ⟨parts, joined, six⟩ := exists_parts (by decide) sixes
  have cut : groups 6 (filled 6 false (rowOf data)) = parts := by
    rw [← joined, groups_flatten (by decide) six]
  have free : '=' ∉ parts.map symbol := by
    intro member
    obtain ⟨part, inside, same⟩ := List.mem_map.mp member
    exact (sextet?_symbol (six part inside)).1 same
  rw [decode?, standard, cut]
  simp only [takeWhile_filled free, mapM_sextet? six, joined, take_filled, Option.bind_eq_bind,
    Option.bind_some, and_self, if_true, groups_rowOf]
  rfl

example : decode? "TWE=".toList = some [0x4D, 0x61] ∧ decode? "TWF=".toList = none := by
  decide +kernel

end Standard

section Groups

/-- The digit for a value is the symbol for its bits. -/
theorem digit_eq_symbol {number : UInt8} {group : List Bool} (same : number.toNat = value group)
    (six : group.length = 6) : digit number = symbol group := by
  have all : ∀ number < 64, digit (UInt8.ofNat number) = alphabet.getD number '=' := by
    decide +kernel
  have small := six ▸ value_lt group
  rw [symbol, ← all _ small, ← same, UInt8.ofNat_toNat]

/-- The last bits of one byte in front of the first bits of the next. -/
theorem toNat_joint (first second : UInt8) {mask shift down : UInt8} {width : Nat}
    (masked : mask.toNat = 2 ^ width - 1) (some : 0 < width) (within : width + shift.toNat ≤ 8)
    (rest : shift.toNat + down.toNat = 8) (more : 0 < shift.toNat) :
    ((first &&& mask) <<< shift ||| second >>> down).toNat =
      value (bits width first.toNat ++ bits shift.toNat (second.toNat / 2 ^ down.toNat)) := by
  have low : second.toNat / 2 ^ down.toNat < 2 ^ shift.toNat := by
    rw [Nat.div_lt_iff_lt_mul (Nat.two_pow_pos _), ← Nat.pow_add, rest]
    exact second.toNat_lt
  have high : first.toNat % 2 ^ width * 2 ^ shift.toNat < 2 ^ 8 := by
    calc first.toNat % 2 ^ width * 2 ^ shift.toNat
        < 2 ^ width * 2 ^ shift.toNat :=
          Nat.mul_lt_mul_of_pos_right (Nat.mod_lt _ (Nat.two_pow_pos _)) (Nat.two_pow_pos _)
      _ = 2 ^ (width + shift.toNat) := (Nat.pow_add ..).symm
      _ ≤ 2 ^ 8 := Nat.pow_le_pow_right (by decide) within
  rw [UInt8.toNat_or, UInt8.toNat_shiftLeft, UInt8.toNat_shiftRight, UInt8.toNat_and, masked,
    Nat.and_two_pow_sub_one_eq_mod, Nat.mod_eq_of_lt (by omega : shift.toNat < 8),
    Nat.mod_eq_of_lt (by omega : down.toNat < 8), Nat.shiftRight_eq_div_pow, Nat.shiftLeft_eq,
    Nat.mod_eq_of_lt high, ← Nat.shiftLeft_eq, ← Nat.shiftLeft_add_eq_or_of_lt low,
    Nat.shiftLeft_eq, value_append, value_bits, value_bits, length_bits, Nat.mod_eq_of_lt low]

/-- The digits that two bytes that follow one another have in common. -/
theorem digit_joint (first second : UInt8) :
    digit ((first &&& 0x03) <<< 4 ||| second >>> 4) =
        symbol (bits 2 first.toNat ++ bits 4 (second.toNat / 2 ^ 4)) ∧
      digit ((first &&& 0x0F) <<< 2 ||| second >>> 6) =
        symbol (bits 4 first.toNat ++ bits 2 (second.toNat / 2 ^ 6)) :=
  ⟨digit_eq_symbol (toNat_joint first second rfl (by decide) (by decide) rfl (by decide))
      (by simp [length_bits]),
    digit_eq_symbol (toNat_joint first second rfl (by decide) (by decide) rfl (by decide))
      (by simp [length_bits])⟩

/-- The digits within one byte. -/
theorem digit_within (byte : UInt8) :
    digit (byte >>> 2) = symbol (bits 6 (byte.toNat / 2 ^ 2)) ∧
      digit (byte &&& 0x3F) = symbol (bits 6 byte.toNat) := by
  constructor
  · refine digit_eq_symbol ?_ (length_bits _ _)
    have bound := byte.toNat_lt
    rw [value_bits, UInt8.toNat_shiftRight, Nat.shiftRight_eq_div_pow]
    exact (Nat.mod_eq_of_lt (a := byte.toNat / 2 ^ 2) (by omega)).symm
  · refine digit_eq_symbol ?_ (length_bits _ _)
    rw [value_bits, UInt8.toNat_and]
    exact Nat.and_two_pow_sub_one_eq_mod byte.toNat 6

/-- The first six bits of a row make the first digit. -/
theorem symbols_append {group : List Bool} (six : group.length = 6) (row : List Bool) :
    (groups 6 (filled 6 false (group ++ row))).map symbol =
      symbol group :: (groups 6 (filled 6 false row)).map symbol := by
  rw [filled_append (six ▸ Nat.mod_self _), groups_append (by decide) six, List.map_cons]

theorem bits_zero (width : Nat) : bits width 0 = List.replicate width false := by
  induction width with
  | zero => rfl
  | succ width ih => rw [bits, ih, List.replicate_succ']; rfl

/-- The last bits of a row make a digit with zeros behind them. -/
theorem symbols_last {group : List Bool} (more : Nat) (some : 0 < group.length)
    (six : group.length + more = 6) (few : 0 < more) :
    (groups 6 (filled 6 false group)).map symbol = [symbol (group ++ bits more 0)] := by
  have count : (6 - group.length % 6) % 6 = more := by omega
  have whole : (group ++ bits more 0).length = 6 := by
    rw [List.length_append, length_bits, six]
  rw [filled, count, ← bits_zero, ← List.append_nil (group ++ _), groups_append (by decide) whole,
    groups, List.append_nil, List.map_singleton]

/-- The digits of some bytes are their encoding. -/
theorem encode_eq_standard (data : List UInt8) : encode data = standard data := by
  have six (first second : UInt8) :
      (bits 2 first.toNat ++ bits 4 (second.toNat / 2 ^ 4)).length = 6 ∧
        (bits 4 first.toNat ++ bits 2 (second.toNat / 2 ^ 6)).length = 6 := by
    simp [length_bits]
  -- Three bytes are four sixes. Of one byte two bits are left over, and of two bytes four.
  fun_induction encode data with
  | case1 => simp [standard, rowOf, filled, groups]
  | case2 a =>
    have row : rowOf [a] = bits 6 (a.toNat / 2 ^ 2) ++ bits 2 a.toNat := by
      simp only [rowOf, List.flatMap_cons, List.flatMap_nil, bits_add 6 2 a.toNat, List.append_nil]
    have last : digit ((a &&& 0x03) <<< 4) = symbol (bits 2 a.toNat ++ bits 4 0) := by
      simpa using (digit_joint a 0).1
    rw [standard, row, symbols_append (length_bits _ _),
      symbols_last 4 (by simp [length_bits]) (by rw [length_bits]) (by decide),
      (digit_within a).1, last]
    rfl
  | case3 a b =>
    have row : rowOf [a, b] = bits 6 (a.toNat / 2 ^ 2) ++
        ((bits 2 a.toNat ++ bits 4 (b.toNat / 2 ^ 4)) ++ bits 4 b.toNat) := by
      simp only [rowOf, List.flatMap_cons, List.flatMap_nil, bits_add 6 2 a.toNat,
        bits_add 4 4 b.toNat, List.append_nil, List.append_assoc]
    have last : digit ((b &&& 0x0F) <<< 2) = symbol (bits 4 b.toNat ++ bits 2 0) := by
      simpa using (digit_joint b 0).2
    rw [standard, row, symbols_append (length_bits _ _), symbols_append (six a b).1,
      symbols_last 2 (by simp [length_bits]) (by rw [length_bits]) (by decide),
      (digit_within a).1, (digit_joint a b).1, last]
    rfl
  | case4 a b c rest ih =>
    have row : rowOf (a :: b :: c :: rest) = bits 6 (a.toNat / 2 ^ 2) ++
        ((bits 2 a.toNat ++ bits 4 (b.toNat / 2 ^ 4)) ++
          ((bits 4 b.toNat ++ bits 2 (c.toNat / 2 ^ 6)) ++ (bits 6 c.toNat ++ rowOf rest))) := by
      simp only [rowOf, List.flatMap_cons, bits_add 6 2 a.toNat, bits_add 4 4 b.toNat,
        bits_add 2 6 c.toNat, List.append_assoc]
    rw [standard, row, symbols_append (length_bits _ _), symbols_append (six a b).1,
      symbols_append (six b c).2, symbols_append (length_bits _ _), (digit_within a).1,
      (digit_joint a b).1, (digit_joint b c).2, (digit_within c).2, ih]
    change [_, _, _, _] ++ standard rest = filled 4 '=' ([_, _, _, _] ++ _)
    rw [filled_append (by simp)]
    rfl

end Groups

section Buffer

variable {capacity : Nat} {text : String} {chars : List Char} {char : Char} {data : List UInt8}

theorem mem_standard (member : char ∈ standard data) : char ∈ alphabet ∨ char = '=' := by
  rw [standard, filled, List.mem_append] at member
  rcases member with digit | padding
  · obtain ⟨group, -, rfl⟩ := List.mem_map.mp digit
    rw [symbol, List.getD_eq_getElem?_getD]
    cases found : alphabet[value group]? with
    | none => exact .inr rfl
    | some char => exact .inl (List.mem_of_getElem? found)
  · exact .inr (List.eq_of_mem_replicate padding)

/-- The characters of an encoding take up one byte each. -/
theorem length_bytes_of_mem_standard (member : char ∈ standard data) :
    (Text.bytes (String.singleton char)).length = 1 := by
  have all : ('=' :: alphabet).all fun char => (Text.bytes (String.singleton char)).length = 1 := by
    decide +kernel
  refine of_decide_eq_true (List.all_eq_true.mp all char ?_)
  rcases mem_standard member with digit | rfl
  · exact List.mem_cons_of_mem _ digit
  · exact List.mem_cons_self

/-- Characters of one byte fill up a buffer, and those that do not fit are left out. -/
theorem bytes_foldl_push
    (single : ∀ char ∈ chars, (Text.bytes (String.singleton char)).length = 1)
    (within : text.utf8ByteSize ≤ capacity) :
    Text.bytes
        (chars.foldl (fun text char => Text.push capacity text (String.singleton char)) text) =
      (Text.bytes text ++ Text.bytes (String.ofList chars)).take capacity := by
  induction chars generalizing text with
  | nil =>
    have nothing : Text.bytes (String.ofList []) = [] := rfl
    rw [List.foldl_nil, nothing, List.append_nil]
    exact (List.take_of_length_le within).symm
  | cons char chars ih =>
    obtain ⟨one, single⟩ := List.forall_mem_cons.mp single
    have size := Text.size_push (String.singleton char) within
    rw [List.foldl_cons, ih single size, Text.bytes_ofList_cons, ← List.append_assoc]
    by_cases fits : Text.Fits capacity text (String.singleton char)
    · rw [Text.push, if_pos fits, Text.bytes_append]
    · have full : (Text.bytes text).length = capacity := by
        rw [Text.Fits, ← Text.length_bytes, ← Text.length_bytes, one] at fits
        rw [← Text.length_bytes] at within
        omega
      rw [Text.push, if_neg fits, List.append_assoc, List.take_left' full, List.take_left' full]

/-- A buffer takes the bytes of an encoding up to its capacity. -/
theorem bytes_appendTo (data : List UInt8) (within : text.utf8ByteSize ≤ capacity) :
    Text.bytes (appendTo capacity text data) =
      (Text.bytes text ++ Text.bytes (String.ofList (standard data))).take capacity := by
  rw [appendTo, encode_eq_standard, bytes_foldl_push (fun _ => length_bytes_of_mem_standard) within]

theorem size_standard (data : List UInt8) :
    (String.ofList (standard data)).utf8ByteSize = (standard data).length := by
  have sum (chars : List Char)
      (single : ∀ char ∈ chars, (Text.bytes (String.singleton char)).length = 1) :
      (Text.bytes (String.ofList chars)).length = chars.length := by
    induction chars with
    | nil => rfl
    | cons char chars ih =>
      obtain ⟨one, single⟩ := List.forall_mem_cons.mp single
      rw [Text.bytes_ofList_cons, List.length_append, one, ih single, List.length_cons,
        Nat.add_comm]
  exact sum _ fun _ => length_bytes_of_mem_standard

/-- What fits is added whole. -/
theorem appendTo_of_fits (fits : text.utf8ByteSize + (standard data).length ≤ capacity) :
    appendTo capacity text data = text ++ String.ofList (standard data) := by
  apply Text.bytes_inj
  rw [bytes_appendTo data (by omega), ← Text.bytes_append]
  refine List.take_of_length_le ?_
  rwa [Text.length_bytes, String.utf8ByteSize_append, size_standard]

end Buffer

end Base64

end BoardNet
