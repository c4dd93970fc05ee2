import BoardNet.Text.Split

/-!
Members of flat JSON objects, as much of the format as the commands of clients use. A document is
not checked as a whole, and strings have no escapes: a string ends at the next quotation mark.
-/

namespace BoardNet.FlatJson

/-- What follows `"key":` and the blanks around the colon, at the first place where a quotation mark
is followed by the key, another mark and a colon. -/
def afterKey? (key : List Char) : List Char → Option (List Char)
  | [] => none
  | char :: rest =>
    if char = '"' then
      match member? rest with
      | some value => some value
      | none => afterKey? key rest
    else afterKey? key rest
where
  member? (rest : List Char) : Option (List Char) := do
    let marked ← key.isPrefixOf? rest
    let closed ← ['"'].isPrefixOf? marked
    let value ← [':'].isPrefixOf? (closed.dropWhile (· = ' '))
    return value.dropWhile (· = ' ')

def string? (json key : String) : Option String := do
  let value ← afterKey? key.toList json.toList
  let text ← ['"'].isPrefixOf? value
  let (content, _) ← Text.cutAt? '"' text
  return String.ofList content

/-- Text up to the brace that closes the `depth` braces open so far. Braces in strings do not
count. -/
def closed? (depth : Nat) (inString : Bool) : List Char → Option (List Char)
  | [] => none
  | '"' :: rest => (closed? depth (!inString) rest).map ('"' :: ·)
  | char :: rest =>
    if inString then (closed? depth inString rest).map (char :: ·)
    else if char = '\x7b' then (closed? (depth + 1) inString rest).map (char :: ·)
    else if char = '\x7d' then
      if depth ≤ 1 then some [char] else (closed? (depth - 1) inString rest).map (char :: ·)
    else (closed? depth inString rest).map (char :: ·)

/-- The value of `key`, if that is an object, braces included. -/
def object? (json key : String) : Option String := do
  let value ← afterKey? key.toList json.toList
  let inside ← ['\x7b'].isPrefixOf? value
  let content ← closed? 1 false inside
  return String.ofList ('\x7b' :: content)

/-- The next string, and what follows it. -/
def quoted? (chars : List Char) : Option (List Char × List Char) :=
  match chars.dropWhile (· ≠ '"') with
  | [] => none
  | _ :: rest => Text.cutAt? '"' rest

private theorem length_dropWhile_le (test : Char → Bool) (chars : List Char) :
    (chars.dropWhile test).length ≤ chars.length :=
  (List.dropWhile_suffix test).length_le

/-- What follows a string is shorter than what it was found in. -/
theorem length_quoted?_lt {chars content rest : List Char}
    (found : quoted? chars = some (content, rest)) : rest.length < chars.length := by
  unfold quoted? at found
  split at found
  · simp at found
  · next mark inner same =>
    have ⟨whole, _⟩ := Text.cutAt?_eq_some found
    have dropped := length_dropWhile_le (· ≠ '"') chars
    rw [same, whole] at dropped
    simp only [List.length_cons, List.length_append] at dropped
    omega

/-- The members of an object whose values are strings, in order. Other members are passed over. -/
def members (chars : List Char) : List (List Char × List Char) :=
  match _key : quoted? chars with
  | none => []
  | some (key, afterKey) =>
    let value := afterKey.dropWhile fun char => char = ' ' || char = ':'
    if value.head? = some '"' then
      match _value : quoted? value with
      | none => []
      | some (content, rest) => (key, content) :: members rest
    else members (value.dropWhile (· ≠ ','))
termination_by chars.length
decreasing_by
  all_goals
    have shorter := length_quoted?_lt _key
    have trimmed : value.length ≤ afterKey.length := length_dropWhile_le _ _
  · have shortest := length_quoted?_lt _value
    omega
  · have skipped := length_dropWhile_le (· ≠ ',') value
    exact Nat.lt_of_le_of_lt skipped (by omega)

/-- The members of an object whose values are strings, as texts. -/
def pairs (object : String) : List (String × String) :=
  (members object.toList).map fun (key, value) => (String.ofList key, String.ofList value)

end BoardNet.FlatJson
