namespace BoardNet.Text

/-- The parts between occurrences of `separator`; there is always at least one. -/
def splitAt (separator : Char) : List Char → List (List Char)
  | [] => [[]]
  | char :: rest =>
    if char = separator then [] :: splitAt separator rest
    else match splitAt separator rest with
      | [] => [[char]]
      | part :: parts => (char :: part) :: parts

/-- The parts before and after the first `separator`. -/
def cutAt? (separator : Char) : List Char → Option (List Char × List Char)
  | [] => none
  | char :: rest =>
    if char = separator then some ([], rest)
    else (cutAt? separator rest).map fun (before, after) => (char :: before, after)

/-- The lines between occurrences of carriage return and line feed; there is always at least one. -/
def splitLines : List Char → List (List Char)
  | [] => [[]]
  | '\r' :: '\n' :: rest => [] :: splitLines rest
  | char :: rest =>
    match splitLines rest with
    | [] => [[char]]
    | line :: lines => (char :: line) :: lines

/-- `cutAt?` finds its separator unless there is none, and loses nothing but that separator. -/
theorem cutAt?_eq_some {separator : Char} {chars before after : List Char}
    (found : cutAt? separator chars = some (before, after)) :
    chars = before ++ separator :: after ∧ separator ∉ before := by
  induction chars generalizing before with
  | nil => simp [cutAt?] at found
  | cons char rest next =>
    unfold cutAt? at found
    split at found
    · next same =>
      simp only [Option.some.injEq, Prod.mk.injEq] at found
      obtain ⟨rfl, rfl⟩ := found
      simp [same]
    · next other =>
      simp only [Option.map_eq_some_iff, Prod.mk.injEq, Prod.exists] at found
      obtain ⟨start, finish, cut, rfl, rfl⟩ := found
      have ⟨whole, absent⟩ := next cut
      exact ⟨by simp [whole], by simp [absent, Ne.symm other]⟩

end BoardNet.Text
