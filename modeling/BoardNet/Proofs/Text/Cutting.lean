import BoardNet.Text.Blank
import BoardNet.Text.Bytes
import BoardNet.Text.Digits
import BoardNet.Text.Split
import Mathlib.Data.List.DropRight
import Mathlib.Data.List.Infix
import Mathlib.Data.Nat.Digits.Defs

namespace BoardNet.Text

section Divides

variable {α : Type} {separator text part rest : List α} {parts : List (List α)}

/-- The parts of a text between the occurrences of a separator: joined by it they make the text, and
no part has it inside. -/
structure Divides (separator text : List α) (parts : List (List α)) : Prop where
  nonempty : parts ≠ []
  joined : separator.intercalate parts = text
  free : ∀ part ∈ parts, ¬separator <:+: part

theorem Divides.whole (free : ¬separator <:+: text) : Divides separator text [text] := by
  constructor
  · exact List.cons_ne_nil _ _
  · exact List.intercalate_singleton
  · simpa using free

theorem Divides.cut (free : ¬separator <:+: part) (divides : Divides separator rest parts) :
    Divides separator (part ++ separator ++ rest) (part :: parts) := by
  constructor
  · exact List.cons_ne_nil _ _
  · rw [List.intercalate_cons_of_ne_nil divides.nonempty, divides.joined]
  · exact List.forall_mem_cons.mpr ⟨free, divides.free⟩

theorem intercalate_concat (separator part : List α) (parts : List (List α)) :
    separator.intercalate (parts ++ [part]) = parts.flatMap (· ++ separator) ++ part := by
  induction parts with
  | nil => simp
  | cons first parts ih =>
    rw [List.cons_append, List.intercalate_cons_of_ne_nil (by simp), ih]
    simp

/-- What stands in joined parts stands in the separator or in one of them. -/
theorem mem_intercalate {value : α} (member : value ∈ separator.intercalate parts) :
    value ∈ separator ∨ ∃ part ∈ parts, value ∈ part := by
  induction parts with
  | nil => simp at member
  | cons first parts ih =>
    by_cases last : parts = []
    · simp_all
    · rw [List.intercalate_cons_of_ne_nil last, List.append_assoc, List.mem_append,
        List.mem_append] at member
      grind

/-- More text belongs to the last part as long as it brings no separator. -/
theorem Divides.extend {more : List α} (divides : Divides separator text (parts ++ [part]))
    (free : ¬separator <:+: part ++ more) :
    Divides separator (text ++ more) (parts ++ [part ++ more]) := by
  obtain ⟨-, joined, others⟩ := divides
  constructor
  · simp
  · rw [← joined, intercalate_concat, intercalate_concat, List.append_assoc]
  · exact List.forall_mem_append.mpr
      ⟨(List.forall_mem_append.mp others).1, by simpa using free⟩

/-- A separator ends the last part. -/
theorem Divides.close (nonempty : separator ≠ [])
    (divides : Divides separator text (parts ++ [part])) :
    Divides separator (text ++ separator) (parts ++ [part] ++ [[]]) := by
  obtain ⟨-, joined, others⟩ := divides
  constructor
  · simp
  · rw [← joined, intercalate_concat, intercalate_concat]
    simp
  · exact List.forall_mem_append.mpr ⟨others, by simpa using nonempty⟩

/-- A text with a separator in it has a first one. -/
theorem exists_first_cut (nonempty : separator ≠ []) (inside : separator <:+: text) :
    ∃ part rest, text = part ++ separator ++ rest ∧ ¬separator <:+: part := by
  induction text with
  | nil => exact absurd (List.infix_nil.mp inside) nonempty
  | cons first text ih =>
    by_cases here : separator <+: first :: text
    · obtain ⟨rest, whole⟩ := here
      exact ⟨[], rest, whole.symm, fun inside => nonempty (List.infix_nil.mp inside)⟩
    · obtain ⟨part, rest, rfl, free⟩ :=
        ih ((List.infix_cons_iff.mp inside).resolve_left here)
      refine ⟨first :: part, rest, rfl, fun inside => ?_⟩
      rcases List.infix_cons_iff.mp inside with begins | later
      · exact here (begins.trans ⟨separator ++ rest, by simp⟩)
      · exact free later

section Function

variable {split : List α → List (List α)} (nonempty : separator ≠ [])
  (whole : ∀ {part}, ¬separator <:+: part → split part = [part])
  (cut : ∀ {part rest}, ¬separator <:+: part →
    split (part ++ separator ++ rest) = part :: split rest)
include whole cut

theorem Divides.eq_of_cut (divides : Divides separator text parts) : parts = split text := by
  induction parts generalizing text with
  | nil => exact absurd rfl divides.nonempty
  | cons part parts ih =>
    obtain ⟨-, joined, free⟩ := divides
    obtain ⟨here, free⟩ := List.forall_mem_cons.mp free
    subst joined
    by_cases last : parts = []
    · rw [last, List.intercalate_singleton, whole here]
    · rw [List.intercalate_cons_of_ne_nil last, cut here, ← ih ⟨last, rfl, free⟩]

include nonempty in
theorem divides_of_cut (text : List α) : Divides separator text (split text) := by
  -- a cut leaves a shorter text to divide
  induction length : text.length using Nat.strong_induction_on generalizing text with
  | h size ih =>
    by_cases inside : separator <:+: text
    · obtain ⟨part, rest, rfl, free⟩ := exists_first_cut nonempty inside
      have shorter : rest.length < size := by
        have := List.length_pos_iff.mpr nonempty
        simp only [List.length_append] at length
        omega
      rw [cut free]
      exact .cut free (ih rest.length shorter rest rfl)
    · rw [whole inside]
      exact .whole inside

include nonempty in
/-- A function that keeps a text without separators whole, and cuts any other at its first
separator, gives the one division there is. -/
theorem divides_iff_of_cut : Divides separator text parts ↔ parts = split text :=
  ⟨Divides.eq_of_cut whole cut, fun same => same ▸ divides_of_cut nonempty whole cut text⟩

end Function

end Divides

section Split

variable {separator char : Char} {text part rest before after : List Char}
  {parts lines : List (List Char)}

theorem splitAt_whole (free : ¬[separator] <:+: part) : splitAt separator part = [part] := by
  rw [List.singleton_infix_iff] at free
  induction part with
  | nil => rfl
  | cons char part ih =>
    obtain ⟨other, free⟩ := not_or.mp (mt List.mem_cons.mpr free)
    rw [splitAt, if_neg (Ne.symm other), ih free]

theorem splitAt_cut (free : ¬[separator] <:+: part) :
    splitAt separator (part ++ [separator] ++ rest) = part :: splitAt separator rest := by
  rw [List.singleton_infix_iff] at free
  induction part with
  | nil => simp [splitAt]
  | cons char part ih =>
    obtain ⟨other, free⟩ := not_or.mp (mt List.mem_cons.mpr free)
    rw [List.cons_append, List.cons_append, splitAt, if_neg (Ne.symm other), ih free]

/-- Splitting at a character gives the parts between its occurrences. -/
theorem divides_splitAt : Divides [separator] text parts ↔ parts = splitAt separator text :=
  divides_iff_of_cut (List.cons_ne_nil _ _) splitAt_whole splitAt_cut

/-- Joined parts without the separator are split as they were. -/
theorem splitAt_intercalate (nonempty : parts ≠ []) (free : ∀ part ∈ parts, separator ∉ part) :
    splitAt separator ([separator].intercalate parts) = parts :=
  (divides_splitAt.mp ⟨nonempty, rfl, fun part member =>
    mt (List.singleton_infix_iff _ _).mp (free part member)⟩).symm

def lineEnd : List Char := ['\r', '\n']

/-- A character that does not begin a line end goes to the line it begins. -/
theorem splitLines_cons (elsewhere : ¬lineEnd <+: char :: text)
    (split : splitLines text = part :: parts) :
    splitLines (char :: text) = (char :: part) :: parts := by
  rw [splitLines, split]
  rintro rest rfl rfl
  exact elsewhere (by simp [lineEnd])

theorem splitLines_whole (free : ¬lineEnd <:+: part) : splitLines part = [part] := by
  induction part with
  | nil => rfl
  | cons char part ih =>
    obtain ⟨elsewhere, free⟩ := not_or.mp (mt List.infix_cons_iff.mpr free)
    exact splitLines_cons elsewhere (ih free)

theorem splitLines_cut (free : ¬lineEnd <:+: part) :
    splitLines (part ++ lineEnd ++ rest) = part :: splitLines rest := by
  induction part with
  | nil => rfl
  | cons char part ih =>
    obtain ⟨elsewhere, free⟩ := not_or.mp (mt List.infix_cons_iff.mpr free)
    refine splitLines_cons (fun begins => ?_) (ih free)
    -- a line end that begins in the part and ends outside would end with a carriage return
    rcases part with _ | ⟨next, part⟩
    · simp [lineEnd] at begins
    · exact elsewhere (by simpa [lineEnd] using begins)

/-- Splitting into lines gives the parts between line ends. -/
theorem divides_splitLines : Divides lineEnd text lines ↔ lines = splitLines text :=
  divides_iff_of_cut (List.cons_ne_nil _ _) splitLines_whole splitLines_cut

/-- A cut is made at the first separator. -/
theorem cutAt?_eq_some_iff :
    cutAt? separator text = some (before, after) ↔
      text = before ++ separator :: after ∧ separator ∉ before := by
  refine ⟨cutAt?_eq_some, ?_⟩
  rintro ⟨rfl, absent⟩
  induction before with
  | nil => simp [cutAt?]
  | cons char before ih =>
    obtain ⟨other, absent⟩ := not_or.mp (mt List.mem_cons.mpr absent)
    rw [List.cons_append, cutAt?, if_neg (Ne.symm other), ih absent, Option.map_some]

/-- No cut is made only where there is no separator. -/
theorem cutAt?_eq_none_iff : cutAt? separator text = none ↔ separator ∉ text := by
  induction text with
  | nil => simp [cutAt?]
  | cons char text ih =>
    by_cases same : char = separator
    · simp [cutAt?, same]
    · simp [cutAt?, same, Ne.symm same, ih]

end Split

section Trims

variable {text core : List Char}

/-- A text is its core between blanks, and the core neither begins nor ends with one. -/
structure Trims (text core : List Char) : Prop where
  around : ∃ lead trail, text = lead ++ core ++ trail ∧
    (∀ char ∈ lead, isBlank char) ∧ ∀ char ∈ trail, isBlank char
  first : ∀ char ∈ core.head?, ¬isBlank char
  last : ∀ char ∈ core.getLast?, ¬isBlank char

/-- Dropping blanks stops at a character that is none. -/
theorem not_isBlank_of_head {char : Char} (head : char ∈ (text.dropWhile isBlank).head?) :
    ¬isBlank char := by
  have stops := List.head?_dropWhile_not isBlank text
  rw [Option.mem_def.mp head] at stops
  simp [stops]

/-- Blanks in front of what does not begin with one are dropped, and nothing else. -/
theorem dropWhile_blank_append {lead core : List Char} (blank : ∀ char ∈ lead, isBlank char)
    (first : ∀ char ∈ core.head?, ¬isBlank char) : (lead ++ core).dropWhile isBlank = core := by
  rw [List.dropWhile_append_of_pos blank]
  cases core with
  | nil => rfl
  | cons char core => exact List.dropWhile_cons_of_neg (first char rfl)

/-- Trimming leaves a core of the text. -/
theorem trims_trimBlanks (text : List Char) : Trims text (trimBlanks text) := by
  have middle : trimBlanks text ++ (text.dropWhile isBlank).rtakeWhile isBlank =
      text.dropWhile isBlank := List.rdropWhile_append_rtakeWhile
  constructor
  · refine ⟨text.takeWhile isBlank, (text.dropWhile isBlank).rtakeWhile isBlank, ?_,
      fun _ => List.mem_takeWhile_imp, fun _ => List.mem_rtakeWhile_imp⟩
    rw [List.append_assoc, middle, List.takeWhile_append_dropWhile]
  · intro char first
    refine @not_isBlank_of_head text _ ?_
    rw [← middle, List.head?_append, Option.mem_def.mp first]
    rfl
  · intro char last
    rw [trimBlanks, List.getLast?_reverse] at last
    exact not_isBlank_of_head last

/-- A text has one core. -/
theorem Trims.eq_trimBlanks (trims : Trims text core) : core = trimBlanks text := by
  obtain ⟨⟨lead, trail, rfl, leads, trails⟩, first, last⟩ := trims
  have ends : (trail.reverse ++ core.reverse).dropWhile isBlank = core.reverse :=
    dropWhile_blank_append (by simpa using trails) (by simpa only [List.head?_reverse] using last)
  rw [trimBlanks, List.append_assoc, List.dropWhile_append_of_pos leads]
  by_cases empty : core = []
  · rw [empty, List.nil_append, List.dropWhile_eq_nil_iff.mpr trails]
    rfl
  · have starts : (core ++ trail).dropWhile isBlank = core ++ trail := by
      obtain ⟨char, core, rfl⟩ := List.exists_cons_of_ne_nil empty
      exact List.dropWhile_cons_of_neg (first char rfl)
    rw [starts, List.reverse_append, ends, List.reverse_reverse]

/-- Trimming gives the core of a text. -/
theorem trims_iff : Trims text core ↔ core = trimBlanks text :=
  ⟨Trims.eq_trimBlanks, fun same => same ▸ trims_trimBlanks text⟩

end Trims

section Word

variable {text : String} {value : Nat}

/-- A text of decimal digits, at least one, that denotes `value` and fits a machine word. -/
structure IsWord (text : String) (value : Nat) : Prop where
  nonempty : text ≠ ""
  digits : ∀ char ∈ text.toList, char.isDigit
  denotes : Nat.ofDigits 10 (text.toList.reverse.map fun digit => digit.toNat - '0'.toNat) = value
  fits : value < 2 ^ 64

theorem digitsValue_eq_ofDigits (digits : List Char) :
    digitsValue digits =
      Nat.ofDigits 10 (digits.reverse.map fun digit => digit.toNat - '0'.toNat) := by
  rw [Nat.ofDigits_eq_foldr, List.foldr_map, List.foldr_reverse, digitsValue]
  simp only [Nat.cast_id, Nat.add_comm]

/-- What is read is the word that stands there. -/
theorem isWord_iff : IsWord text value ↔ readWord? text = some value := by
  simp only [readWord?, digitsValue_eq_ofDigits, Option.ite_none_right_eq_some, Option.some.injEq,
    List.all_eq_true, UInt64.size]
  constructor
  · rintro ⟨nonempty, digits, rfl, fits⟩
    exact ⟨⟨by simpa using nonempty, digits, fits⟩, rfl⟩
  · rintro ⟨⟨nonempty, digits, fits⟩, rfl⟩
    exact ⟨by simpa using nonempty, digits, rfl, fits⟩

/-- A decimal number has the value that it was made from. -/
theorem digitsValue_decimal (number : Nat) : digitsValue (decimal number).toList = number := by
  rw [decimal, Nat.toList_repr]
  exact Nat.ofDigitChars_toDigits (by decide) (by decide)

theorem isDigit_of_mem_decimal {number : Nat} {char : Char}
    (member : char ∈ (decimal number).toList) : char.isDigit := by
  rw [decimal, Nat.toList_repr] at member
  exact Nat.isDigit_of_mem_toDigits (by decide) (by decide) member

/-- A number that fits a machine word is one in decimal. -/
theorem isWord_decimal {number : Nat} (fits : number < 2 ^ 64) :
    IsWord (decimal number) number := by
  rw [isWord_iff, readWord?, digitsValue_decimal]
  refine if_pos ⟨?_, ?_, fits⟩
  · rw [decimal, Nat.toList_repr]
    exact Nat.toDigits_ne_nil
  · exact List.all_eq_true.mpr fun _ => isDigit_of_mem_decimal

/-- A digit takes one byte. -/
theorem utf8ByteSize_decimal_le {number digits : Nat} (some : 0 < digits)
    (fits : number < 10 ^ digits) : (decimal number).utf8ByteSize ≤ digits := by
  have single : ∀ char ∈ (decimal number).toList, (String.utf8EncodeChar char).length = 1 := by
    intro char member
    have digit := isDigit_of_mem_decimal member
    simp only [Char.isDigit, Bool.and_eq_true, decide_eq_true_eq] at digit
    rw [String.length_utf8EncodeChar, Char.utf8Size_eq_one_iff]
    exact UInt32.le_trans digit.2 (by decide)
  calc (decimal number).utf8ByteSize
      = ((decimal number).toList.map fun _ => 1).sum := by
        rw [← length_bytes, bytes_eq_flatMap, List.length_flatMap, List.map_congr_left single]
    _ = (Nat.toDigits 10 number).length := by simp [decimal]
    _ ≤ digits := Nat.toDigits_length 10 number digits some fits

end Word

end BoardNet.Text
