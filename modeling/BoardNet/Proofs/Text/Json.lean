import BoardNet.Proofs.Text.Cutting
import Mathlib.Tactic.IntervalCases

namespace BoardNet

/-- A character that stands for itself between quotation marks. -/
def IsPlain (char : Char) : Prop := char ≠ '"' ∧ char ≠ '\\' ∧ 32 ≤ char.toNat

instance (char : Char) : Decidable (IsPlain char) := inferInstanceAs (Decidable (_ ∧ _))

theorem isPlain_of_isAlphanum {char : Char} (shown : char.isAlphanum) : IsPlain char := by
  have other {mark : Char} (hidden : ¬mark.isAlphanum) : char ≠ mark := by
    rintro rfl
    exact hidden shown
  refine ⟨other (by decide), other (by decide), Nat.le_of_not_lt fun low => ?_⟩
  have hidden : ∀ number < 32, (Char.ofNat number).isAlphanum = false := by decide
  have control := hidden char.toNat low
  rw [Char.ofNat_toNat, shown] at control
  cases control

def IsPlainText (text : String) : Prop := ∀ char ∈ text.toList, IsPlain char

-- The instance goes through the text; another would go through all characters there are.
instance (text : String) : Decidable (IsPlainText text) := List.decidableBAll IsPlain text.toList

structure Phrase where
  text : String
  plain : IsPlainText text
  deriving DecidableEq

/-- A value in JSON. -/
inductive Json where
  | bool (value : Bool)
  | number (value : Nat)
  | phrase (content : Phrase)
  | array (items : List Json)
  | object (members : List (Phrase × Json))

namespace Phrase

def chars (phrase : Phrase) : List Char := '"' :: (phrase.text.toList ++ ['"'])

/-- Reads a text whose first quotation mark was read already. -/
def read? (chars : List Char) : Option (Phrase × List Char) := do
  let (content, rest) ← Text.cutAt? '"' chars
  let text := String.ofList content
  if plain : IsPlainText text then
    return (⟨text, plain⟩, rest)
  else none

theorem read?_chars (phrase : Phrase) (rest : List Char) :
    read? (phrase.text.toList ++ '"' :: rest) = some (phrase, rest) := by
  have free : '"' ∉ phrase.text.toList := fun member => (phrase.plain _ member).1 rfl
  have cut : Text.cutAt? '"' (phrase.text.toList ++ '"' :: rest) =
      some (phrase.text.toList, rest) := Text.cutAt?_eq_some_iff.mpr ⟨rfl, free⟩
  have plain := phrase.plain
  simp [read?, cut, String.ofList_toList, dif_pos plain]

end Phrase

namespace Json

mutual

def chars : Json → List Char
  | bool true => ['t', 'r', 'u', 'e']
  | bool false => ['f', 'a', 'l', 's', 'e']
  | number value => (Text.decimal value).toList
  | phrase content => content.chars
  | array items => '[' :: (itemsChars items ++ [']'])
  | object members => '\x7b' :: (membersChars members ++ ['\x7d'])

def itemsChars : List Json → List Char
  | [] => []
  | [item] => item.chars
  | item :: next :: items => item.chars ++ ',' :: itemsChars (next :: items)

def membersChars : List (Phrase × Json) → List Char
  | [] => []
  | [(key, value)] => key.chars ++ ':' :: value.chars
  | (key, value) :: next :: members =>
    key.chars ++ ':' :: (value.chars ++ ',' :: membersChars (next :: members))
termination_by structural members => members

end

@[simp] theorem chars_number (value : Nat) :
    (number value).chars = (Text.decimal value).toList := rfl

@[simp] theorem chars_phrase (content : Phrase) : (phrase content).chars = content.chars := rfl

@[simp] theorem chars_array (items : List Json) :
    (array items).chars = '[' :: (itemsChars items ++ [']']) := rfl

@[simp] theorem chars_object (members : List (Phrase × Json)) :
    (object members).chars = '\x7b' :: (membersChars members ++ ['\x7d']) := rfl

/-- Behind the first value every other one follows a comma. -/
theorem itemsChars_cons (item : Json) (items : List Json) :
    itemsChars (item :: items) = item.chars ++ items.flatMap fun item => ',' :: item.chars := by
  induction items generalizing item with
  | nil => exact (List.append_nil _).symm
  | cons next items ih => rw [itemsChars, ih, List.flatMap_cons, List.cons_append]

/-- Behind the first member every other one follows a comma. -/
theorem membersChars_cons (key : Phrase) (value : Json) (members : List (Phrase × Json)) :
    membersChars ((key, value) :: members) = key.chars ++ ':' :: (value.chars ++
      members.flatMap fun member => ',' :: (member.1.chars ++ ':' :: member.2.chars)) := by
  induction members generalizing key value with
  | nil => rw [membersChars, List.flatMap_nil, List.append_nil]
  | cons next members ih =>
    obtain ⟨name, value⟩ := next
    rw [membersChars, ih, List.flatMap_cons, List.cons_append, List.append_assoc, List.cons_append]

/-- Reads a number, without zeros before it. -/
def digits? (chars : List Char) : Option (Json × List Char) :=
  let digits := chars.takeWhile Char.isDigit
  if digits = [] ∨ digits.head? = some '0' ∧ digits ≠ ['0'] then none
  else some (number (Text.digitsValue digits), chars.dropWhile Char.isDigit)

mutual

/-- Reads a value, and says what stands behind it. -/
def value? : (fuel : Nat) → List Char → Option (Json × List Char)
  | 0, _ => none
  | fuel + 1, chars => match chars with
    | 't' :: 'r' :: 'u' :: 'e' :: rest => some (bool true, rest)
    | 'f' :: 'a' :: 'l' :: 's' :: 'e' :: rest => some (bool false, rest)
    | '"' :: rest => do
      let (content, rest) ← Phrase.read? rest
      return (phrase content, rest)
    | '[' :: ']' :: rest => some (array [], rest)
    | '[' :: rest => do
      let (items, rest) ← items? fuel rest
      return (array items, rest)
    | '\x7b' :: '\x7d' :: rest => some (object [], rest)
    | '\x7b' :: rest => do
      let (members, rest) ← members? fuel rest
      return (object members, rest)
    | chars => digits? chars

def items? : (fuel : Nat) → List Char → Option (List Json × List Char)
  | 0, _ => none
  | fuel + 1, chars => do
    match ← value? fuel chars with
    | (item, ']' :: rest) => return ([item], rest)
    | (item, ',' :: rest) => do
      let (items, rest) ← items? fuel rest
      return (item :: items, rest)
    | _ => none

def members? : (fuel : Nat) → List Char → Option (List (Phrase × Json) × List Char)
  | fuel + 1, '"' :: chars => do
    match ← Phrase.read? chars with
    | (key, ':' :: rest) => do
      match ← value? fuel rest with
      | (value, '\x7d' :: rest) => return ([(key, value)], rest)
      | (value, ',' :: rest) => do
        let (members, rest) ← members? fuel rest
        return ((key, value) :: members, rest)
      | _ => none
    | _ => none
  | _, _ => none

end

/-- Reads a complete document. Every value takes a character at least, so there is fuel enough. -/
def read? (text : String) : Option Json :=
  match value? text.toList.length text.toList with
  | some (document, []) => some document
  | _ => none

section Reading

variable {char : Char} {chars rest : List Char} {fuel : Nat}

/-- What stands behind a number is no digit. -/
def NoDigit (rest : List Char) : Prop := ∀ char ∈ rest.head?, char.isDigit = false

/-- A number has no zeros before it. -/
theorem head?_decimal {value : Nat} (positive : 0 < value) :
    (Text.decimal value).toList.head? ≠ some '0' := by
  rw [Text.decimal, Nat.toList_repr]
  induction value using Nat.strong_induction_on with
  | h value ih =>
    by_cases small : value < 10
    · rw [Nat.toDigits_of_lt_base small]
      interval_cases value <;> decide
    · have shorter := ih (value / 10) (by omega) (by omega)
      obtain ⟨first, digits, same⟩ :=
        List.exists_cons_of_ne_nil (Nat.toDigits_ne_nil : Nat.toDigits 10 (value / 10) ≠ [])
      rw [Nat.toDigits_of_base_le (by decide) (by omega), same]
      rwa [same] at shorter

theorem digits?_chars (value : Nat) (ends : NoDigit rest) :
    digits? ((Text.decimal value).toList ++ rest) = some (number value, rest) := by
  have digits : ∀ char ∈ (Text.decimal value).toList, char.isDigit :=
    fun char => Text.isDigit_of_mem_decimal
  have none : rest.takeWhile Char.isDigit = [] ∧ rest.dropWhile Char.isDigit = rest := by
    cases rest with
    | nil => exact ⟨rfl, rfl⟩
    | cons char rest =>
      have other := ends char rfl
      simp [other]
  have taken : ((Text.decimal value).toList ++ rest).takeWhile Char.isDigit =
      (Text.decimal value).toList := by
    rw [List.takeWhile_append_of_pos digits, none.1, List.append_nil]
  have left : ((Text.decimal value).toList ++ rest).dropWhile Char.isDigit = rest := by
    rw [List.dropWhile_append_of_pos digits, none.2]
  have fine : ¬((Text.decimal value).toList = [] ∨ (Text.decimal value).toList.head? = some '0' ∧
      (Text.decimal value).toList ≠ ['0']) := by
    rintro (empty | ⟨zero, more⟩)
    · rw [Text.decimal, Nat.toList_repr] at empty
      exact Nat.toDigits_ne_nil empty
    · by_cases positive : 0 < value
      · exact head?_decimal positive zero
      · obtain rfl := Nat.eq_zero_of_not_pos positive
        exact more (by decide)
  simp only [digits?, taken, left, if_neg fine, Text.digitsValue_decimal]

theorem value?_of_digit (digit : char.isDigit) :
    value? (fuel + 1) (char :: chars) = digits? (char :: chars) := by
  rw [value?] <;> (rintro rest ⟨⟩; exact absurd digit (by decide))

/-- No value begins with a bracket that closes. -/
theorem exists_first (json : Json) : ∃ char rest, json.chars = char :: rest ∧ char ≠ ']' := by
  cases json with
  | bool value => cases value <;> exact ⟨_, _, rfl, by decide⟩
  | number value =>
    cases same : (Text.decimal value).toList with
    | nil =>
      rw [Text.decimal, Nat.toList_repr] at same
      exact absurd same Nat.toDigits_ne_nil
    | cons char digits =>
      refine ⟨char, digits, same, ?_⟩
      rintro rfl
      have digit := Text.isDigit_of_mem_decimal (same ▸ List.mem_cons_self)
      exact absurd digit (by decide)
  | phrase content => exact ⟨_, _, rfl, by decide⟩
  | array items => exact ⟨_, _, rfl, by decide⟩
  | object members => exact ⟨_, _, rfl, by decide⟩

theorem exists_first_item (item : Json) (items : List Json) :
    ∃ char rest, itemsChars (item :: items) = char :: rest ∧ char ≠ ']' := by
  obtain ⟨char, rest, same, other⟩ := exists_first item
  cases items with
  | nil => exact ⟨char, rest, by rw [itemsChars, same], other⟩
  | cons next items => exact ⟨char, _, by rw [itemsChars, same, List.cons_append], other⟩

theorem exists_quote (key : Phrase) (value : Json) (members : List (Phrase × Json)) :
    ∃ rest, membersChars ((key, value) :: members) = '"' :: rest := by
  cases members <;> exact ⟨_, rfl⟩

mutual

/-- A value that was written is read, whatever stands behind it. -/
theorem value?_chars (json : Json) (fuel : Nat) (rest : List Char)
    (enough : json.chars.length ≤ fuel) (ends : NoDigit rest) :
    value? fuel (json.chars ++ rest) = some (json, rest) := by
  obtain ⟨first, others, begins, -⟩ := exists_first json
  match fuel with
  | 0 => simp [begins] at enough
  | fuel + 1 =>
    match json with
    | bool true => rfl
    | bool false => rfl
    | number value =>
      have digit : first.isDigit := Text.isDigit_of_mem_decimal (begins ▸ List.mem_cons_self)
      rw [begins, List.cons_append, value?_of_digit digit, ← List.cons_append, ← begins]
      exact digits?_chars value ends
    | phrase content =>
      simp [chars, Phrase.chars, value?, Phrase.read?_chars]
    | array [] => rfl
    | array (item :: items) =>
      rw [chars, List.length_cons, List.length_append, List.length_singleton] at enough
      have read := items?_chars item items fuel rest (by omega)
      obtain ⟨char, more, same, other⟩ := exists_first_item item items
      rw [same, List.cons_append] at read
      rw [chars, same, List.cons_append, List.append_assoc, List.cons_append, List.singleton_append,
        value?, read]
      · rfl
      · rintro _ ⟨⟩
        exact other rfl
    | object [] => rfl
    | object ((key, value) :: members) =>
      rw [chars, List.length_cons, List.length_append, List.length_singleton] at enough
      have read := members?_chars key value members fuel rest (by omega)
      obtain ⟨more, same⟩ := exists_quote key value members
      rw [same, List.cons_append] at read
      rw [chars, same, List.cons_append, List.append_assoc, List.cons_append, List.singleton_append,
        value?, read]
      · rfl
      · rintro _ ⟨⟩
termination_by fuel

theorem items?_chars (item : Json) (items : List Json) (fuel : Nat) (rest : List Char)
    (enough : (itemsChars (item :: items)).length < fuel) :
    items? fuel (itemsChars (item :: items) ++ ']' :: rest) = some (item :: items, rest) := by
  match fuel with
  | 0 => exact absurd enough (Nat.not_lt_zero _)
  | fuel + 1 =>
    match items with
    | [] =>
      rw [itemsChars] at enough ⊢
      have read := value?_chars item fuel (']' :: rest) (by omega) (by simp [NoDigit])
      simp [items?, read]
    | next :: items =>
      rw [itemsChars, List.length_append, List.length_cons] at enough
      have read := value?_chars item fuel (',' :: (itemsChars (next :: items) ++ ']' :: rest))
        (by omega) (by simp [NoDigit])
      have others := items?_chars next items fuel rest (by omega)
      simp [items?, itemsChars, read, others]
termination_by fuel

theorem members?_chars (key : Phrase) (value : Json) (members : List (Phrase × Json)) (fuel : Nat)
    (rest : List Char) (enough : (membersChars ((key, value) :: members)).length < fuel) :
    members? fuel (membersChars ((key, value) :: members) ++ '\x7d' :: rest) =
      some ((key, value) :: members, rest) := by
  match fuel with
  | 0 => exact absurd enough (Nat.not_lt_zero _)
  | fuel + 1 =>
    match members with
    | [] =>
      rw [membersChars, List.length_append, List.length_cons] at enough
      have read := value?_chars value fuel ('\x7d' :: rest) (by omega) (by simp [NoDigit])
      simp [members?, membersChars, Phrase.chars, Phrase.read?_chars, read]
    | (name, next) :: members =>
      rw [membersChars, List.length_append, List.length_cons, List.length_append,
        List.length_cons] at enough
      have read := value?_chars value fuel
        (',' :: (membersChars ((name, next) :: members) ++ '\x7d' :: rest))
        (by omega) (by simp [NoDigit])
      have others := members?_chars name next members fuel rest (by omega)
      simp [members?, membersChars, Phrase.chars, Phrase.read?_chars, read, others]
termination_by fuel

end

/-- What is written is read. -/
theorem read?_chars (json : Json) : read? (String.ofList json.chars) = some json := by
  have read := value?_chars json json.chars.length [] (Nat.le_refl _) (by simp [NoDigit])
  rw [List.append_nil] at read
  rw [read?, String.toList_ofList, read]

end Reading

section Members

variable {α : Type}

def member? (name : String) : Json → Option Json
  | object members => (members.find? fun member => member.1.text = name).map Prod.snd
  | _ => none

def names : Json → List String
  | object members => members.map fun member => member.1.text
  | _ => []

/-- The value of a member, as `read` takes it. -/
def get? (document : Json) (name : String) (read : Json → Option α) : Option α :=
  (document.member? name).bind read

def asBool? : Json → Option Bool
  | bool value => some value
  | _ => none

def asNumber? : Json → Option Nat
  | number value => some value
  | _ => none

def asText? : Json → Option String
  | phrase content => some content.text
  | _ => none

def asItems? : Json → Option (List Json)
  | array items => some items
  | _ => none

end Members

end Json

end BoardNet
