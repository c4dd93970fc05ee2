import BoardNet.FlatJson
import BoardNet.Proofs.Text.Cutting

/-!
Objects as they are written, with blanks around their marks, and what the readers find in them. A
reader that looks for a key knows no nesting: it finds the first member with that key, be it one of
the object itself or one of an object in it. Where no member is an object, nothing is mistaken for a
member: main statement `flat_object_read`.
-/

namespace BoardNet.FlatJson

/-- Text that can stand between quotation marks. -/
structure Content where
  text : String
  free : '"' ∉ text.toList
  deriving DecidableEq

/-- A value without quotation marks: a number, `true`, `false` or `null`. -/
structure Scalar where
  chars : List Char
  nonempty : chars ≠ []
  free : ∀ char ∈ chars, char ∉ ['"', ' ', ':', ',', '\x7b', '\x7d']
  deriving DecidableEq

/-- A value that is no object. -/
inductive Plain where
  | text (content : Content)
  | scalar (token : Scalar)
  deriving DecidableEq

/-- A member with its blanks: before the key, on either side of the colon, and behind the value. -/
structure Member (V : Type) where
  key : Content
  value : V
  lead : Nat := 0
  before : Nat := 0
  after : Nat := 0
  trail : Nat := 0
  deriving DecidableEq

/-- A value in an object. The members of an object in it are plain. -/
inductive Value where
  | plain (value : Plain)
  | object (members : List (Member Plain))
  deriving DecidableEq

def blanks (count : Nat) : List Char := List.replicate count ' '

namespace Content

def quoted (content : Content) : List Char := '"' :: (content.text.toList ++ ['"'])

theorem cutAt?_quote (content : Content) (rest : List Char) :
    Text.cutAt? '"' (content.text.toList ++ '"' :: rest) = some (content.text.toList, rest) :=
  Text.cutAt?_eq_some_iff.mpr ⟨rfl, content.free⟩

end Content

def Plain.chars : Plain → List Char
  | .text content => content.quoted
  | .scalar token => token.chars

section Objects

variable {V : Type} (print : V → List Char)

def Member.chars (member : Member V) : List Char :=
  blanks member.lead ++ member.key.quoted ++ blanks member.before ++ [':'] ++
    blanks member.after ++ print member.value ++ blanks member.trail

/-- The members of an object, as they are written. -/
def listing (members : List (Member V)) : List Char :=
  [','].intercalate (members.map (Member.chars print))

/-- An object with these members, as it is written. -/
def written (members : List (Member V)) : List Char := '\x7b' :: (listing print members ++ ['\x7d'])

end Objects

def Value.chars : Value → List Char
  | .plain value => value.chars
  | .object members => written Plain.chars members

/-- A key that is no part of what stands between members. -/
def IsName (key : List Char) : Prop := ∀ char ∈ key, char ∉ ['"', ':', ',', '\x7d']

instance (key : List Char) : Decidable (IsName key) := List.decidableBAll _ _

section Search

variable {key gap rest chars more value : List Char} {found later : Option (List Char)}

/-- Searching these characters for a key finds a value that begins like this, or nothing, whatever
stands behind them. -/
def Locates (key chars : List Char) : Option (List Char) → Prop
  | none => ∀ rest, afterKey? key (chars ++ rest) = afterKey? key rest
  | some value => ∃ tail, ∀ rest, afterKey? key (chars ++ rest) = some (value ++ tail ++ rest)

theorem Locates.append (first : Locates key chars found) (second : Locates key more later) :
    Locates key (chars ++ more) (found.or later) := by
  cases found with
  | some value =>
    obtain ⟨tail, hit⟩ := first
    refine ⟨tail ++ more, fun rest => ?_⟩
    rw [List.append_assoc, hit]
    simp
  | none =>
    have skip : ∀ rest, afterKey? key (chars ++ more ++ rest) = afterKey? key (more ++ rest) := by
      intro rest
      rw [List.append_assoc]
      exact first (more ++ rest)
    cases later with
    | none => exact fun rest => (skip rest).trans (second rest)
    | some value =>
      obtain ⟨tail, hit⟩ := second
      exact ⟨tail, fun rest => (skip rest).trans (hit rest)⟩

/-- What is found where nothing stands behind. -/
theorem Locates.alone (located : Locates key chars found) :
    ∃ tail, afterKey? key chars = found.map (· ++ tail) := by
  cases found with
  | none =>
    have searched := located []
    rw [List.append_nil] at searched
    exact ⟨[], searched⟩
  | some value =>
    obtain ⟨tail, hit⟩ := located
    have searched := hit []
    rw [List.append_nil, List.append_nil] at searched
    exact ⟨tail, searched⟩

/-- Nothing is found outside quotation marks. -/
theorem locates_gap (free : '"' ∉ gap) : Locates key gap none := by
  intro rest
  induction gap with
  | nil => rfl
  | cons char gap ih =>
    obtain ⟨other, free⟩ := not_or.mp (mt List.mem_cons.mpr free)
    rw [List.cons_append, afterKey?, if_neg (Ne.symm other), ih free]

theorem member?_eq_some_iff : afterKey?.member? key rest = some value ↔
    ∃ closed after, rest = key ++ '"' :: closed ∧ closed.dropWhile (· = ' ') = ':' :: after ∧
      value = after.dropWhile (· = ' ') := by
  simp only [afterKey?.member?, Option.bind_eq_bind, Option.bind_eq_some_iff,
    List.isPrefixOf?_eq_some_iff_append_eq, Option.pure_def, Option.some.injEq]
  constructor
  · rintro ⟨marked, rfl, closed, rfl, after, colon, rfl⟩
    exact ⟨closed, after, rfl, colon.symm, rfl⟩
  · rintro ⟨closed, after, rfl, colon, rfl⟩
    exact ⟨_, rfl, closed, rfl, after, colon.symm, rfl⟩

@[simp] theorem dropWhile_blanks (count : Nat) (rest : List Char) :
    (blanks count ++ rest).dropWhile (· = ' ') = rest.dropWhile (· = ' ') := by
  induction count with
  | zero => rfl
  | succ count ih =>
    rw [blanks, List.replicate_succ]
    exact ih

theorem free_blanks {char : Char} (mark : char ≠ ' ') (count : Nat) : char ∉ blanks count :=
  fun member => mark (List.eq_of_mem_replicate member)

theorem quote_not_mem_gap {mark : Char} (marks : mark ∈ [':', ',', '\x7d']) (count : Nat) :
    '"' ∉ blanks count ++ [mark] := by
  have other : '"' ≠ mark := by
    rintro rfl
    exact absurd marks (by decide)
  simpa [other] using free_blanks (by decide) count

/-- A text that is not the key, or has no colon behind it, is not taken for the key. -/
theorem member?_of_content {content : Content}
    (other : content.text.toList ≠ key ∨ (rest.dropWhile (· = ' ')).head? ≠ some ':')
    (name : IsName key) :
    afterKey?.member? key (content.text.toList ++ '"' :: rest) = none := by
  refine Option.eq_none_iff_forall_ne_some.mpr fun value found => ?_
  obtain ⟨closed, after, whole, colon, -⟩ := member?_eq_some_iff.mp found
  have free : '"' ∉ key := fun member => name _ member (by decide)
  have cut := content.cutAt?_quote rest
  rw [whole, Text.cutAt?_eq_some_iff.mpr ⟨rfl, free⟩] at cut
  cases cut
  rcases other with other | unmarked
  · exact other rfl
  · rw [colon] at unmarked
    exact unmarked rfl

/-- Nor is what stands between two texts, since it has a mark in it. -/
theorem member?_of_gap {mark : Char} (free : '"' ∉ gap) (inside : mark ∈ gap)
    (foreign : mark ∉ key) :
    afterKey?.member? key (gap ++ rest) = none := by
  refine Option.eq_none_iff_forall_ne_some.mpr fun value found => ?_
  obtain ⟨closed, after, whole, -, -⟩ := member?_eq_some_iff.mp found
  rcases List.append_eq_append_iff.mp whole with ⟨more, rfl, -⟩ | ⟨_ | ⟨quote, more⟩, rfl, begins⟩
  · exact foreign (List.mem_append_left more inside)
  · rw [List.append_nil] at inside
    exact foreign inside
  · cases begins
    exact free (List.mem_append_right key List.mem_cons_self)

/-- A text with the mark behind it. Only a key has a colon there. -/
theorem locates_quoted {content : Content} {count : Nat} {mark : Char} (name : IsName key)
    (marks : mark ∈ [':', ',', '\x7d']) (other : content.text.toList ≠ key ∨ mark ≠ ':') :
    Locates key (content.quoted ++ blanks count ++ [mark]) none := by
  intro rest
  have blank : mark ≠ ' ' := by
    rintro rfl
    exact absurd marks (by decide)
  have free := quote_not_mem_gap marks count
  have foreign : mark ∉ key := fun member => name _ member (List.mem_cons_of_mem _ marks)
  have opening : afterKey?.member? key
      (content.text.toList ++ '"' :: (blanks count ++ [mark] ++ rest)) = none := by
    refine member?_of_content (other.imp_right fun other => ?_) name
    simp [blank, other]
  have closing : afterKey?.member? key (blanks count ++ [mark] ++ rest) = none :=
    member?_of_gap free (by simp) foreign
  rw [show content.quoted ++ blanks count ++ [mark] ++ rest =
    '"' :: (content.text.toList ++ '"' :: (blanks count ++ [mark] ++ rest)) by
      simp [Content.quoted]]
  rw [afterKey?, if_pos rfl, opening]
  dsimp only
  rw [locates_gap content.free, afterKey?, if_pos rfl, closing]
  exact locates_gap free rest

/-- A key is found where it stands. -/
theorem afterKey?_of_key {content : Content} (same : content.text.toList = key) (count : Nat) :
    afterKey? key (content.quoted ++ blanks count ++ [':'] ++ rest) =
      some (rest.dropWhile (· = ' ')) := by
  have found : afterKey?.member? key (content.text.toList ++ '"' :: (blanks count ++ ':' :: rest)) =
      some (rest.dropWhile (· = ' ')) :=
    member?_eq_some_iff.mpr ⟨blanks count ++ ':' :: rest, rest, by rw [same], by simp, rfl⟩
  rw [show content.quoted ++ blanks count ++ [':'] ++ rest =
    '"' :: (content.text.toList ++ '"' :: (blanks count ++ ':' :: rest)) by simp [Content.quoted]]
  rw [afterKey?, if_pos rfl, found]

end Search

section Members

variable {V : Type} {print : V → List Char} {key : String}

/-- The value of a member with this key. -/
def Member.named? (key : String) (member : Member V) : Option V :=
  if member.key.text = key then some member.value else none

theorem listing_cons {member next : Member V} {members : List (Member V)} :
    listing print (member :: next :: members) =
      member.chars print ++ [','] ++ listing print (next :: members) :=
  List.intercalate_cons_of_ne_nil (List.cons_ne_nil _ _)

/-- A reader finds the value of a member with the key, or what it finds in the value of another. -/
theorem locates_member (name : IsName key.toList) {member : Member V} {mark : Char}
    {inner : Option (List Char)} (starts : ∃ char ∈ (print member.value).head?, char ≠ ' ')
    (inside : Locates key.toList (print member.value ++ blanks member.trail ++ [mark]) inner) :
    Locates key.toList (member.chars print ++ [mark])
      (((member.named? key).map print).or inner) := by
  have lead : Locates key.toList (blanks member.lead) none :=
    locates_gap (free_blanks (by decide) _)
  have after : Locates key.toList (blanks member.after) none :=
    locates_gap (free_blanks (by decide) _)
  rw [show member.chars print ++ [mark] = blanks member.lead ++
    (member.key.quoted ++ blanks member.before ++ [':'] ++
      (blanks member.after ++ (print member.value ++ blanks member.trail ++ [mark]))) by
        simp [Member.chars]]
  refine lead.append ?_
  unfold Member.named?
  by_cases same : member.key.text = key
  · rw [if_pos same]
    refine ⟨blanks member.trail ++ [mark], fun rest => ?_⟩
    rw [List.append_assoc, afterKey?_of_key (congrArg String.toList same), List.append_assoc,
      dropWhile_blanks]
    obtain ⟨char, first, visible⟩ := starts
    obtain ⟨more, value⟩ := List.head?_eq_some_iff.mp first
    simp [value, visible]
  · rw [if_neg same]
    have different : member.key.text.toList ≠ key.toList :=
      fun alike => same (String.toList_inj.mp alike)
    have passed : Locates key.toList (member.key.quoted ++ blanks member.before ++ [':']) none :=
      locates_quoted name (by decide) (.inl different)
    exact passed.append (after.append inside)

theorem locates_written {located : Member V → Option (List Char)} {members : List (Member V)}
    (each : ∀ member ∈ members, ∀ mark ∈ [',', '\x7d'],
      Locates key.toList (member.chars print ++ [mark]) (located member)) :
    Locates key.toList (written print members) (members.findSome? located) := by
  have listed : Locates key.toList (listing print members ++ ['\x7d'])
      (members.findSome? located) := by
    induction members with
    | nil =>
      change Locates key.toList ['\x7d'] none
      exact locates_gap (by decide)
    | cons member members ih =>
      obtain ⟨here, others⟩ := List.forall_mem_cons.mp each
      have first : (member :: members).findSome? located =
          (located member).or (members.findSome? located) := by
        rw [List.findSome?_cons]
        cases located member <;> rfl
      rw [first]
      cases members with
      | nil =>
        have last := here '\x7d' (by decide)
        rw [List.findSome?_nil, Option.or_none]
        rwa [listing, List.map_singleton, List.intercalate_singleton]
      | cons next members =>
        rw [listing_cons, List.append_assoc]
        exact (here ',' (by decide)).append (ih others)
  have opened : Locates key.toList ['\x7b'] none := locates_gap (by decide)
  exact opened.append listed

end Members

/-- The plain value with a key in an object that is a value. -/
def Value.within? (key : String) : Value → Option Plain
  | .plain _ => none
  | .object members => members.findSome? (·.named? key)

/-- The first value with a key in a member: its own, or one in its value. -/
def under? (key : String) (name : Content) (value : Value) : Option Value :=
  if name.text = key then some value else (value.within? key).map .plain

/-- The first value with a key: the members of an object in an object count where they stand. -/
def first? (key : String) (members : List (Member Value)) : Option Value :=
  members.findSome? fun member => under? key member.key member.value

section Documents

variable {key : String}

theorem starts_plain (value : Plain) : ∃ char ∈ value.chars.head?, char ≠ ' ' := by
  cases value with
  | text content => exact ⟨'"', rfl, by decide⟩
  | scalar token =>
    obtain ⟨_ | ⟨char, chars⟩, nonempty, free⟩ := token
    · exact absurd rfl nonempty
    · exact ⟨char, rfl, by rintro rfl; exact free _ List.mem_cons_self (by decide)⟩

/-- A plain value holds no key. -/
theorem locates_plain (name : IsName key.toList) (value : Plain) (count : Nat) {mark : Char}
    (marks : mark ∈ [',', '\x7d']) :
    Locates key.toList (value.chars ++ blanks count ++ [mark]) none := by
  have colon : mark ≠ ':' := by
    rintro rfl
    exact absurd marks (by decide)
  cases value with
  | text content => exact locates_quoted name (List.mem_cons_of_mem _ marks) (.inr colon)
  | scalar token =>
    have inside : '"' ∉ token.chars := fun member => token.free _ member (by decide)
    rw [List.append_assoc]
    exact locates_gap (List.not_mem_append inside
      (quote_not_mem_gap (List.mem_cons_of_mem _ marks) count))

theorem locates_flat (name : IsName key.toList) (members : List (Member Plain)) :
    Locates key.toList (written Plain.chars members)
      ((members.findSome? (·.named? key)).map Plain.chars) := by
  rw [List.map_findSome?]
  refine locates_written fun member _ mark marks => ?_
  have inside := locates_plain name member.value member.trail marks
  have found := locates_member name (starts_plain member.value) inside
  rwa [Option.or_none] at found

theorem starts_value (value : Value) : ∃ char ∈ value.chars.head?, char ≠ ' ' := by
  cases value with
  | plain value => exact starts_plain value
  | object members => exact ⟨'\x7b', rfl, by decide⟩

/-- A reader that looks for a key finds the first value with it. -/
theorem locates_first (name : IsName key.toList) (members : List (Member Value)) :
    Locates key.toList (written Value.chars members) ((first? key members).map Value.chars) := by
  rw [first?, List.map_findSome?]
  refine locates_written fun member _ mark marks => ?_
  have inside : Locates key.toList (member.value.chars ++ blanks member.trail ++ [mark])
      ((member.value.within? key).map Plain.chars) := by
    cases member.value with
    | plain value => exact locates_plain name value member.trail marks
    | object inner =>
      have behind : Locates key.toList (blanks member.trail ++ [mark]) none :=
        locates_gap (quote_not_mem_gap (List.mem_cons_of_mem _ marks) _)
      have found := (locates_flat name inner).append behind
      rw [Option.or_none, ← List.append_assoc] at found
      exact found
  have found := locates_member name (starts_value member.value) inside
  have same : ((member.named? key).map Value.chars).or
      ((member.value.within? key).map Plain.chars) =
        (under? key member.key member.value).map Value.chars := by
    unfold Member.named? under?
    split
    · rfl
    · cases member.value.within? key <;> rfl
  rwa [same] at found

def Value.text? : Value → Option String
  | .plain (.text content) => some content.text
  | _ => none

def Value.object? : Value → Option String
  | .object members => some (String.ofList (written Plain.chars members))
  | _ => none

/-- Behind the first value with the key stands the rest of the object. -/
theorem afterKey?_written (name : IsName key.toList) (members : List (Member Value)) :
    ∃ tail, afterKey? key.toList (written Value.chars members) =
      (first? key members).map (·.chars ++ tail) := by
  obtain ⟨tail, searched⟩ := (locates_first name members).alone
  rw [Option.map_map] at searched
  exact ⟨tail, searched⟩

/-- What is taken from behind a key is the text that stands there, and nothing else is taken. -/
theorem string?_of_value {chars tail : List Char} {found : Option Value}
    (searched : afterKey? key.toList chars = found.map (·.chars ++ tail)) :
    string? (String.ofList chars) key = found.bind Value.text? := by
  simp only [string?, String.toList_ofList, searched]
  match found with
  | none => rfl
  | some (.plain (.text content)) =>
    have quoted : (Value.plain (.text content)).chars ++ tail =
        '"' :: (content.text.toList ++ '"' :: tail) := by
      simp [Value.chars, Plain.chars, Content.quoted]
    simp [quoted, List.isPrefixOf?, content.cutAt?_quote, Value.text?]
  | some (.plain (.scalar ⟨char :: chars, _, free⟩)) =>
    have other : '"' ≠ char := by
      rintro rfl
      exact free _ List.mem_cons_self (by decide)
    simp [Value.chars, Plain.chars, List.isPrefixOf?, other, Value.text?]
  | some (.object inner) => rfl

/-- The text under a key is the first value with the key, if that is a text. -/
theorem string?_written (name : IsName key.toList) (members : List (Member Value)) :
    string? (String.ofList (written Value.chars members)) key =
      (first? key members).bind Value.text? := by
  obtain ⟨tail, searched⟩ := afterKey?_written name members
  exact string?_of_value searched

end Documents

section Closing

/-- A reader that looks for the end of an object passes over these characters. -/
def Passes (chars : List Char) : Prop :=
  ∀ rest, closed? 1 false (chars ++ rest) = (closed? 1 false rest).map (chars ++ ·)

variable {chars more : List Char}

theorem Passes.append (first : Passes chars) (second : Passes more) : Passes (chars ++ more) := by
  intro rest
  rw [List.append_assoc, first, second, Option.map_map]
  congr 1
  funext closed
  simp

theorem passes_free (free : ∀ char ∈ chars, char ∉ ['"', '\x7b', '\x7d']) : Passes chars := by
  intro rest
  induction chars with
  | nil => simp
  | cons char chars ih =>
    obtain ⟨here, others⟩ := List.forall_mem_cons.mp free
    simp only [List.mem_cons, List.not_mem_nil, or_false, not_or] at here
    obtain ⟨quote, opening, closing⟩ := here
    rw [List.cons_append, closed?]
    · simp only [Bool.false_eq_true, if_false, if_neg opening, if_neg closing]
      rw [ih others, Option.map_map]
      rfl
    · exact quote

theorem passes_quoted (content : Content) : Passes content.quoted := by
  have inside {chars : List Char} (free : '"' ∉ chars) (rest : List Char) :
      closed? 1 true (chars ++ '"' :: rest) =
        (closed? 1 false rest).map (chars ++ '"' :: ·) := by
    induction chars with
    | nil => rfl
    | cons char chars ih =>
      obtain ⟨other, free⟩ := not_or.mp (mt List.mem_cons.mpr free)
      rw [List.cons_append, closed?]
      · simp only [if_true]
        rw [ih free, Option.map_map]
        rfl
      · exact Ne.symm other
  intro rest
  rw [show content.quoted ++ rest = '"' :: (content.text.toList ++ '"' :: rest) by
    simp [Content.quoted]]
  rw [closed?, Bool.not_false, inside content.free, Option.map_map]
  congr 1
  funext closed
  simp [Content.quoted]

theorem passes_blanks (count : Nat) : Passes (blanks count) :=
  passes_free fun _ member => by
    rw [List.eq_of_mem_replicate member]
    decide

theorem passes_plain (value : Plain) : Passes value.chars := by
  cases value with
  | text content => exact passes_quoted content
  | scalar token =>
    refine passes_free fun char member marked => token.free char member ?_
    revert marked
    simp only [List.mem_cons]
    tauto

theorem passes_member (member : Member Plain) : Passes (member.chars Plain.chars) :=
  (((((passes_blanks _).append (passes_quoted _)).append (passes_blanks _)).append
    (passes_free (by simp))).append (passes_blanks _)).append (passes_plain _) |>.append
      (passes_blanks _)

theorem passes_listing (members : List (Member Plain)) : Passes (listing Plain.chars members) := by
  induction members with
  | nil => exact passes_free nofun
  | cons member members ih =>
    cases members with
    | nil =>
      rw [listing, List.map_singleton, List.intercalate_singleton]
      exact passes_member member
    | cons next members =>
      rw [listing_cons]
      exact ((passes_member member).append (passes_free (by simp))).append ih

/-- An object ends where it was written to end. -/
theorem closed?_written (members : List (Member Plain)) (rest : List Char) :
    closed? 1 false (listing Plain.chars members ++ '\x7d' :: rest) =
      some (listing Plain.chars members ++ ['\x7d']) := by
  rw [passes_listing members ('\x7d' :: rest)]
  rfl

end Closing

/-- The object under a key is the first value with the key, if that is an object. -/
theorem object?_written {key : String} (name : IsName key.toList) (members : List (Member Value)) :
    object? (String.ofList (written Value.chars members)) key =
      (first? key members).bind Value.object? := by
  obtain ⟨tail, searched⟩ := afterKey?_written name members
  simp only [object?, String.toList_ofList, searched]
  match first? key members with
  | none => rfl
  | some (.plain (.text content)) => rfl
  | some (.plain (.scalar ⟨char :: chars, _, free⟩)) =>
    have other : '\x7b' ≠ char := by
      rintro rfl
      exact free _ List.mem_cons_self (by decide)
    simp [Value.chars, Plain.chars, List.isPrefixOf?, other, Value.object?]
  | some (.object inner) =>
    have opened : (Value.object inner).chars ++ tail =
        '\x7b' :: (listing Plain.chars inner ++ '\x7d' :: tail) := by
      simp [Value.chars, written]
    simp [opened, List.isPrefixOf?, closed?_written, Value.object?, written]

section Pairs

def Member.text? (member : Member Plain) : Option (Content × Content) :=
  match member.value with
  | .text content => some (member.key, content)
  | .scalar _ => none

variable {chars key rest gap : List Char}

theorem members_of_none (absent : quoted? chars = none) : FlatJson.members chars = [] := by
  rw [FlatJson.members]
  split
  · rfl
  · next found => rw [absent] at found; cases found

private theorem members_of_quoted (found : quoted? chars = some (key, rest)) :
    FlatJson.members chars =
      let value := rest.dropWhile fun char => char = ' ' || char = ':'
      if value.head? = some '"' then
        match quoted? value with
        | none => []
        | some (content, rest) => (key, content) :: FlatJson.members rest
      else FlatJson.members (value.dropWhile (· ≠ ',')) := by
  rw [FlatJson.members]
  split
  · next absent =>
    rw [found] at absent
    cases absent
  · next same =>
    rw [found] at same
    cases same
    dsimp only
    split
    · split
      · next missing => rw [missing]
      · next text => rw [text]
    · rfl

theorem members_of_text {value content after : List Char} (found : quoted? chars = some (key, rest))
    (begins : rest.dropWhile (fun char => char = ' ' || char = ':') = value)
    (mark : value.head? = some '"') (text : quoted? value = some (content, after)) :
    FlatJson.members chars = (key, content) :: FlatJson.members after := by
  subst begins
  rw [members_of_quoted found]
  dsimp only
  rw [if_pos mark, text]

theorem members_of_other {value : List Char} (found : quoted? chars = some (key, rest))
    (begins : rest.dropWhile (fun char => char = ' ' || char = ':') = value)
    (other : value.head? ≠ some '"') :
    FlatJson.members chars = FlatJson.members (value.dropWhile (· ≠ ',')) := by
  subst begins
  rw [members_of_quoted found]
  exact if_neg other

theorem quoted?_gap (free : '"' ∉ gap) (content : Content) (rest : List Char) :
    quoted? (gap ++ content.quoted ++ rest) = some (content.text.toList, rest) := by
  have skipped : (gap ++ content.quoted ++ rest).dropWhile (· ≠ '"') =
      '"' :: (content.text.toList ++ '"' :: rest) := by
    have others : ∀ char ∈ gap, decide (char ≠ '"') = true := by
      intro char member
      exact decide_eq_true (ne_of_mem_of_not_mem member free)
    rw [List.append_assoc, List.dropWhile_append_of_pos others]
    simp [Content.quoted]
  rw [quoted?, skipped]
  exact content.cutAt?_quote rest

theorem quoted?_of_free (free : '"' ∉ gap) : quoted? gap = none := by
  have skipped : gap.dropWhile (· ≠ '"') = [] := by
    rw [List.dropWhile_eq_nil_iff]
    intro char member
    exact decide_eq_true (ne_of_mem_of_not_mem member free)
  rw [quoted?, skipped]

/-- The key of a member is the first text in it. -/
theorem quoted?_member (free : '"' ∉ gap) (member : Member Plain) (rest : List Char) :
    quoted? (gap ++ (member.chars Plain.chars ++ rest)) = some (member.key.text.toList,
      blanks member.before ++ [':'] ++ blanks member.after ++
        (member.value.chars ++ (blanks member.trail ++ rest))) := by
  have lead : '"' ∉ gap ++ blanks member.lead :=
    List.not_mem_append free (free_blanks (by decide) _)
  rw [← quoted?_gap lead member.key]
  simp [Member.chars]

/-- What is between a key and a plain value is passed over. -/
theorem dropWhile_marks (before after : Nat) (value : Plain) (rest : List Char) :
    (blanks before ++ [':'] ++ blanks after ++ (value.chars ++ rest)).dropWhile
        (fun char => char = ' ' || char = ':') = value.chars ++ rest := by
  have marks : ∀ char ∈ blanks before ++ [':'] ++ blanks after,
      (decide (char = ' ') || decide (char = ':')) = true := by
    intro char inside
    simp only [List.mem_append, List.mem_singleton] at inside
    rcases inside with (before | rfl) | after
    · simp [List.eq_of_mem_replicate before]
    · rfl
    · simp [List.eq_of_mem_replicate after]
  rw [List.dropWhile_append_of_pos marks]
  match value with
  | .text content => rfl
  | .scalar ⟨char :: others, _, free⟩ =>
    have plain := free char List.mem_cons_self
    simp only [List.mem_cons, List.not_mem_nil, or_false, not_or] at plain
    simp [Plain.chars, plain]

/-- A member that is a text is taken with its key, and any other is passed over. -/
theorem members_step (free : '"' ∉ gap) (member : Member Plain) (rest : List Char) :
    FlatJson.members (gap ++ (member.chars Plain.chars ++ rest)) =
      match member.value with
      | .text content => (member.key.text.toList, content.text.toList) ::
          FlatJson.members (blanks member.trail ++ rest)
      | .scalar _ => FlatJson.members (rest.dropWhile (· ≠ ',')) := by
  have key := quoted?_member free member rest
  have value := dropWhile_marks member.before member.after member.value
    (blanks member.trail ++ rest)
  cases same : member.value with
  | text content =>
    rw [same] at key value
    have text := quoted?_gap List.not_mem_nil content (blanks member.trail ++ rest)
    exact members_of_text key value rfl text
  | scalar token =>
    rw [same] at key value
    have clear : ∀ char ∈ token.chars ++ blanks member.trail, decide (char ≠ ',') = true := by
      intro char inside
      refine decide_eq_true ?_
      rintro rfl
      rcases List.mem_append.mp inside with inside | blank
      · exact token.free _ inside (by decide)
      · exact free_blanks (by decide) _ blank
    rw [members_of_other key value, Plain.chars, ← List.append_assoc,
      List.dropWhile_append_of_pos clear]
    intro mark
    obtain ⟨char, others, whole⟩ := List.exists_cons_of_ne_nil token.nonempty
    rw [Plain.chars, whole] at mark
    cases mark
    exact token.free '"' (whole ▸ List.mem_cons_self) (by decide)

/-- What is taken from the members of an object are the texts among them. -/
theorem members_listing (free : '"' ∉ gap) (members : List (Member Plain)) :
    FlatJson.members (gap ++ (listing Plain.chars members ++ ['\x7d'])) =
      (members.filterMap Member.text?).map fun (key, text) =>
        (key.text.toList, text.text.toList) := by
  have ended {gap : List Char} (free : '"' ∉ gap) : FlatJson.members (gap ++ ['\x7d']) = [] :=
    members_of_none (quoted?_of_free (List.not_mem_append free (by decide)))
  -- What stands between two members is no part of either, so any gap may precede the first.
  induction members generalizing gap with
  | nil => exact ended free
  | cons member members ih =>
    cases members with
    | nil =>
      rw [listing, List.map_singleton, List.intercalate_singleton, members_step free]
      cases same : member.value with
      | text content =>
        simp only [ended (free_blanks (by decide) _)]
        simp [Member.text?, same]
      | scalar token =>
        have nothing : FlatJson.members [] = [] := members_of_none rfl
        simp [Member.text?, same, nothing]
    | cons next members =>
      have listed : listing Plain.chars (member :: next :: members) ++ ['\x7d'] =
          member.chars Plain.chars ++
            ([','] ++ (listing Plain.chars (next :: members) ++ ['\x7d'])) := by
        simp [listing_cons]
      rw [listed, members_step free]
      cases same : member.value with
      | text content =>
        have others := ih (List.not_mem_append (free_blanks (by decide) member.trail)
          (by decide : '"' ∉ [',']))
        simp only [← List.append_assoc _ [',']] at others ⊢
        rw [others]
        simp [List.filterMap_cons, Member.text?, same]
      | scalar token =>
        have others := ih (by decide : '"' ∉ [','])
        change FlatJson.members ([','] ++ _) = _
        rw [others]
        simp [List.filterMap_cons, Member.text?, same]

/-- The pairs of an object are the texts among its members, in order. -/
theorem pairs_written (members : List (Member Plain)) :
    pairs (String.ofList (written Plain.chars members)) =
      (members.filterMap Member.text?).map fun (key, text) => (key.text, text.text) := by
  have opening : '"' ∉ ['\x7b'] := by decide
  have listed : FlatJson.members (written Plain.chars members) = _ :=
    members_listing opening members
  rw [pairs, String.toList_ofList, listed, List.map_map]
  simp [Function.comp_def]

end Pairs

section Flat

variable {key : String}

def Plain.text? : Plain → Option String
  | .text content => some content.text
  | .scalar _ => none

theorem findSome?_named (key : String) (members : List (Member Plain)) :
    members.findSome? (·.named? key) =
      (members.find? (·.key.text = key)).map (·.value) := by
  induction members with
  | nil => rfl
  | cons member members ih =>
    rw [List.findSome?_cons, List.find?_cons, Member.named?]
    by_cases same : member.key.text = key
    · simp [same]
    · simp [same, ih]

/-- Where no member is an object, the text under a key is the value of the first member with the
key, if that is a text. -/
theorem string?_flat (name : IsName key.toList) (members : List (Member Plain)) :
    string? (String.ofList (written Plain.chars members)) key =
      (members.find? (·.key.text = key)).bind (·.value.text?) := by
  obtain ⟨tail, searched⟩ := (locates_flat name members).alone
  have value : afterKey? key.toList (written Plain.chars members) =
      ((members.findSome? (·.named? key)).map Value.plain).map (·.chars ++ tail) := by
    rw [searched, Option.map_map, Option.map_map]
    rfl
  have text (value : Plain) : (Value.plain value).text? = value.text? := by
    cases value <;> rfl
  rw [string?_of_value value, findSome?_named]
  cases members.find? (·.key.text = key) with
  | none => rfl
  | some member => exact text member.value

theorem pairs_flat (members : List (Member Plain)) :
    pairs (String.ofList (written Plain.chars members)) =
      members.filterMap fun member => member.value.text?.map (member.key.text, ·) := by
  rw [pairs_written, List.map_filterMap]
  congr 1
  funext member
  unfold Member.text?
  cases member.value <;> rfl

theorem isName_of_isAlpha {key : List Char} (letters : ∀ char ∈ key, char.isAlpha) :
    IsName key := by
  intro char member marked
  have letter := letters char member
  simp only [List.mem_cons, List.not_mem_nil, or_false] at marked
  rcases marked with rfl | rfl | rfl | rfl <;> exact absurd letter (by decide)

/-- The pairs of an object without objects in it are the members that are texts, in order, and the
text under a key is the value of the first member with the key, if that is a text. What the texts
contain makes no difference. -/
theorem flat_object_read (members : List (Member Plain)) :
    pairs (String.ofList (written Plain.chars members)) =
      members.filterMap (fun member => member.value.text?.map (member.key.text, ·)) ∧
    ∀ key : String, IsName key.toList →
      string? (String.ofList (written Plain.chars members)) key =
        (members.find? (·.key.text = key)).bind (·.value.text?) :=
  ⟨pairs_flat members, fun _ name => string?_flat name members⟩

/-- A text that equals a key is not taken for it, nor does a mark in a text end a member. -/
theorem flat_object_read_misleading :
    let members : List (Member Plain) :=
      [⟨⟨"a", by decide⟩, .text ⟨"b", by decide⟩, 1, 1, 1, 1⟩,
        ⟨⟨"n", by decide⟩, .scalar ⟨['3'], by simp, by simp⟩, 0, 0, 2, 0⟩,
        ⟨⟨"b", by decide⟩, .text ⟨"x:,\x7b", by decide⟩, 1, 0, 0, 0⟩]
    let object := String.ofList (written Plain.chars members)
    object = "\x7b \"a\" : \"b\" ,\"n\":  3, \"b\":\"x:,\x7b\"\x7d" ∧
      pairs object = [("a", "b"), ("b", "x:,\x7b")] ∧
      IsName "b".toList ∧ string? object "b" = some "x:,\x7b" ∧
      IsName "n".toList ∧ string? object "n" = none := by
  intro members object
  obtain ⟨listed, read⟩ := flat_object_read members
  have b : IsName "b".toList := isName_of_isAlpha (by simp)
  have n : IsName "n".toList := isName_of_isAlpha (by simp)
  exact ⟨rfl, listed, b, read "b" b, n, read "n" n⟩

end Flat

end BoardNet.FlatJson
