import BoardNet.Proofs.Text.Cutting
import BoardNet.WebSocket.Upgrade

/-!
The upgrade request as lines. The reader sees one byte at a time and keeps little of what it saw,
but what it answers can be said of whole lines: the request ends with an empty one, and the last one
that has the name of the key says what the key is.
-/

namespace BoardNet

namespace Text

/-- What follows a beginning in any case is what follows bytes that are the same in lower case. -/
theorem afterIgnoringCase?_eq_some_iff {start data rest : List UInt8} :
    afterIgnoringCase? start data = some rest ↔
      ∃ name, data = name ++ rest ∧ name.map lowerByte = start.map lowerByte := by
  induction start generalizing data with
  | nil => simp [afterIgnoringCase?, eq_comm]
  | cons wanted start ih =>
    cases data with
    | nil => simp [afterIgnoringCase?]
    | cons byte data =>
      simp only [afterIgnoringCase?, Option.ite_none_right_eq_some, ih, List.map_cons]
      constructor
      · rintro ⟨same, name, rfl, rest⟩
        exact ⟨byte :: name, rfl, by rw [List.map_cons, same, rest]⟩
      · rintro ⟨_ | ⟨first, name⟩, whole, named⟩
        · cases named
        · obtain ⟨rfl, rfl⟩ := List.cons.inj whole
          obtain ⟨same, rest⟩ := List.cons.inj named
          exact ⟨same.symm, name, rfl, rest⟩

end Text

namespace WebSocket

def lineFeed : UInt8 := 10

/-- A line as it is looked at. -/
def withoutReturns (line : List UInt8) : List UInt8 := line.filter (· ≠ 13)

/-- A line says `rest` behind the name of the key, in whatever case that is written. A line that is
longer than the buffer says nothing. -/
def Names (line rest : List UInt8) : Prop :=
  line.length ≤ lineCapacity ∧
    ∃ name, line = name ++ rest ∧ name.map Text.lowerByte = Text.bytes keyHeader

/-- The last of some lines that have the name says this. -/
def NamesLast (lines : List (List UInt8)) (rest : List UInt8) : Prop :=
  ∃ before line after, lines = before ++ line :: after ∧ Names line rest ∧
    ∀ other ∈ after, ∀ rest, ¬Names other rest

/-- Bytes hold a key: they are a text that is the key between blanks, and the key is neither empty
nor too long. -/
def HoldsKey (rest : List UInt8) (key : String) : Prop :=
  ∃ text, Text.bytes text = rest ∧ Text.Trims text.toList key.toList ∧
    key ≠ "" ∧ key.utf8ByteSize ≤ keyCapacity

section Names

variable {line rest other : List UInt8} {lines : List (List UInt8)}

theorem names_iff : Names line rest ↔
    line.length ≤ lineCapacity ∧
      Text.afterIgnoringCase? (Text.bytes keyHeader) line = some rest := by
  have small : (Text.bytes keyHeader).map Text.lowerByte = Text.bytes keyHeader := by decide
  rw [Names, Text.afterIgnoringCase?_eq_some_iff, small]

theorem Names.unique (names : Names line rest) (again : Names line other) : other = rest :=
  Option.some.inj ((names_iff.mp again).2.symm.trans (names_iff.mp names).2)

/-- One more line says what it says, and otherwise leaves what the others say. -/
theorem namesLast_concat :
    NamesLast (lines ++ [line]) rest ↔
      Names line rest ∨ (∀ rest, ¬Names line rest) ∧ NamesLast lines rest := by
  constructor
  · rintro ⟨before, found, after, whole, names, none⟩
    rcases List.eq_nil_or_concat after with rfl | ⟨after, last, rfl⟩
    · obtain ⟨-, same⟩ := List.append_inj' whole rfl
      obtain rfl : line = found := by simpa using same
      exact .inl names
    · rw [List.concat_eq_append, ← List.cons_append, ← List.append_assoc] at whole
      obtain ⟨rfl, same⟩ := List.append_inj' whole rfl
      obtain rfl : line = last := by simpa using same
      rw [List.concat_eq_append] at none
      obtain ⟨others, own⟩ := List.forall_mem_append.mp none
      exact .inr ⟨own line List.mem_cons_self, before, found, after, rfl, names, others⟩
  · rintro (names | ⟨unnamed, before, found, after, rfl, names, others⟩)
    · exact ⟨lines, line, [], rfl, names, nofun⟩
    · refine ⟨before, found, after ++ [line], by simp, names, ?_⟩
      exact List.forall_mem_append.mpr ⟨others, by simpa using unnamed⟩

end Names

namespace LineReader

variable {reader : LineReader} {byte : UInt8} {rest : List UInt8} {key : String}

/-- The text that is kept of what stands behind the name is the key that it holds, if any. -/
theorem holdsKey_iff : HoldsKey rest key ↔
    key ≠ "" ∧ key.utf8ByteSize ≤ keyCapacity ∧
      Text.trim ((Text.ofBytes? rest).getD "") = key := by
  constructor
  · rintro ⟨text, rfl, trims, nonempty, short⟩
    refine ⟨nonempty, short, ?_⟩
    rw [Text.ofBytes?_bytes, Option.getD_some, Text.trim, ← trims.eq_trimBlanks,
      String.ofList_toList]
  · rintro ⟨nonempty, short, rfl⟩
    cases read : Text.ofBytes? rest with
    | none =>
      rw [read] at nonempty
      exact absurd rfl nonempty
    | some text =>
      rw [read] at nonempty short
      refine ⟨text, Text.bytes_of_ofBytes? read, ?_, nonempty, short⟩
      rw [Option.getD_some, Text.trim, String.toList_ofList]
      exact Text.trims_trimBlanks text.toList

theorem key_eq_some_iff : reader.key = some key ↔ key ≠ "" ∧ reader.keyText = key := by
  unfold LineReader.key
  by_cases empty : reader.keyText = ""
  · rw [if_pos empty, empty]
    constructor
    · nofun
    · rintro ⟨nonempty, rfl⟩
      exact absurd rfl nonempty
  · rw [if_neg empty, Option.some.injEq]
    constructor
    · rintro rfl
      exact ⟨empty, rfl⟩
    · exact And.right

/-- A line that has the name sets the key to what it holds; any other leaves it. -/
theorem key_takeLine (fits : reader.line.length ≤ lineCapacity) :
    reader.takeLine.value.key = some key ↔
      (∃ rest, Names reader.line rest ∧ HoldsKey rest key) ∨
        (∀ rest, ¬Names reader.line rest) ∧ reader.key = some key := by
  unfold takeLine
  cases found : Text.afterIgnoringCase? (Text.bytes keyHeader) reader.line with
  | none =>
    have unnamed : ∀ rest, ¬Names reader.line rest := by
      intro rest names
      rw [(names_iff.mp names).2] at found
      cases found
    exact ⟨fun kept => .inr ⟨unnamed, kept⟩, fun either => either.elim
      (fun ⟨rest, names, _⟩ => absurd names (unnamed rest)) And.right⟩
  | some rest =>
    have names : Names reader.line rest := names_iff.mpr ⟨fits, found⟩
    have only : ((∃ rest, Names reader.line rest ∧ HoldsKey rest key) ∨
        (∀ rest, ¬Names reader.line rest) ∧ reader.key = some key) ↔ HoldsKey rest key := by
      constructor
      · rintro (⟨other, again, holds⟩ | ⟨unnamed, -⟩)
        · exact names.unique again ▸ holds
        · exact absurd names (unnamed rest)
      · exact fun holds => .inl ⟨rest, names, holds⟩
    rw [only, holdsKey_iff]
    dsimp only
    split
    · next short =>
      rw [Logged.value_pure, key_eq_some_iff]
      constructor
      · rintro ⟨nonempty, rfl⟩
        exact ⟨nonempty, short, rfl⟩
      · rintro ⟨nonempty, -, same⟩
        exact ⟨nonempty, same⟩
    · next long =>
      rw [Logged.value_bind, Logged.value_pure, key_eq_some_iff]
      constructor
      · rintro ⟨nonempty, rfl⟩
        exact absurd rfl nonempty
      · rintro ⟨-, short, rfl⟩
        exact absurd short long

/-- A reader after some complete lines and one that is not complete. -/
structure Follows (lines : List (List UInt8)) (last : List UInt8) (reader : LineReader) : Prop where
  line : reader.line = (withoutReturns last).take lineCapacity
  overflow : reader.overflow = true ↔ lineCapacity < (withoutReturns last).length
  key : ∀ key, reader.key = some key ↔
    ∃ rest, NamesLast (lines.map withoutReturns) rest ∧ HoldsKey rest key

theorem value_feed_lineFeed (reader : LineReader) : (reader.feed lineFeed).value =
    ({ (if reader.overflow then reader else reader.takeLine.value) with
        line := [], overflow := false },
      reader.line = [] && !reader.overflow) := by
  unfold feed
  rw [if_pos (by rfl)]
  cases overflow : reader.overflow <;> rfl

theorem value_feed_other (reader : LineReader) (other : byte ≠ lineFeed) (shown : byte ≠ 13) :
    (reader.feed byte).value =
      (if reader.line.length < lineCapacity then { reader with line := reader.line ++ [byte] }
        else { reader with overflow := true }, false) := by
  have feeds : byte ≠ 10 := other
  simp only [feed, if_neg feeds, if_neg shown]
  split <;> rfl

namespace Follows

variable {lines : List (List UInt8)} {last : List UInt8}

theorem start : Follows [] [] {} where
  line := rfl
  overflow := by decide
  key key := by
    constructor
    · nofun
    · rintro ⟨rest, ⟨before, line, after, whole, -⟩, -⟩
      simp at whole

/-- A line that is not too long is kept whole. -/
theorem kept (follows : Follows lines last reader)
    (fits : (withoutReturns last).length ≤ lineCapacity) :
    reader.line = withoutReturns last ∧ reader.overflow = false := by
  constructor
  · rw [follows.line, List.take_of_length_le fits]
  · exact Bool.eq_false_iff.mpr fun long => Nat.not_lt.mpr fits (follows.overflow.mp long)

/-- A line feed completes the line, and ends the request if that line is empty. -/
theorem ended (follows : Follows lines last reader) :
    Follows (lines ++ [last]) [] (reader.feed lineFeed).value.1 ∧
      ((reader.feed lineFeed).value.2 = true ↔ withoutReturns last = []) := by
  rw [value_feed_lineFeed]
  by_cases fits : (withoutReturns last).length ≤ lineCapacity
  · obtain ⟨line, overflow⟩ := follows.kept fits
    rw [overflow, line]
    refine ⟨⟨rfl, by simp [withoutReturns], fun key => ?_⟩, by simp⟩
    have taken := @key_takeLine reader key (line ▸ fits)
    rw [line, follows.key] at taken
    rw [List.map_append, List.map_singleton]
    simp only [namesLast_concat, or_and_right, exists_or, and_assoc, exists_and_left]
    exact taken
  · have long := Nat.lt_of_not_le fits
    have overflow := follows.overflow.mpr long
    rw [overflow]
    have some : withoutReturns last ≠ [] := by
      rintro empty
      simp [empty] at long
    refine ⟨⟨rfl, by simp [withoutReturns], fun key => ?_⟩, by simp [some]⟩
    have unnamed (rest : List UInt8) : ¬Names (withoutReturns last) rest :=
      fun names => fits names.1
    rw [List.map_append, List.map_singleton]
    simp only [namesLast_concat, unnamed, false_or, not_false_eq_true, implies_true, true_and]
    exact follows.key key

/-- Any other byte belongs to the line. -/
theorem extended (follows : Follows lines last reader) (other : byte ≠ lineFeed) :
    Follows lines (last ++ [byte]) (reader.feed byte).value.1 ∧
      (reader.feed byte).value.2 = false := by
  by_cases hidden : byte = 13
  · subst hidden
    have same : withoutReturns (last ++ [13]) = withoutReturns last := by simp [withoutReturns]
    exact ⟨⟨same ▸ follows.line, same ▸ follows.overflow, follows.key⟩, rfl⟩
  · have longer : withoutReturns (last ++ [byte]) = withoutReturns last ++ [byte] := by
      simp [withoutReturns, hidden]
    rw [value_feed_other reader other hidden]
    refine ⟨?_, rfl⟩
    by_cases space : (withoutReturns last).length < lineCapacity
    · obtain ⟨line, overflow⟩ := follows.kept (Nat.le_of_lt space)
      rw [line, if_pos space]
      refine ⟨?_, ?_, follows.key⟩
      · rw [longer, List.take_of_length_le (by simpa using Nat.succ_le_of_lt space)]
      · simpa [overflow, longer] using Nat.succ_le_of_lt space
    · have full : reader.line.length = lineCapacity := by
        rw [follows.line, List.length_take, Nat.min_eq_left (Nat.not_lt.mp space)]
      rw [if_neg (Nat.not_lt.mpr (Nat.le_of_eq full.symm))]
      refine ⟨?_, ?_, follows.key⟩
      · rw [longer, List.take_append_of_le_length (Nat.not_lt.mp space)]
        exact follows.line
      · simpa [longer] using Nat.lt_succ_of_le (Nat.not_lt.mp space)

end Follows

/-- The reader after some bytes. -/
theorem value_feedOn_append (reader : LineReader) (data more : List UInt8) (offset : Nat) :
    (reader.feedOn offset (data ++ more)).value.1 =
      ((reader.feedOn offset data).value.1.feedOn (offset + data.length) more).value.1 := by
  induction data generalizing reader offset with
  | nil => rfl
  | cons byte data ih =>
    simp only [List.cons_append, feedOn, Logged.value_bind, Logged.value_pure, ih]
    rw [List.length_cons, Nat.add_right_comm, Nat.add_assoc]

theorem value_feedOn_concat (reader : LineReader) (data : List UInt8) (byte : UInt8)
    (offset : Nat) :
    (reader.feedOn offset (data ++ [byte])).value.1 =
      ((reader.feedOn offset data).value.1.feed byte).value.1 := by
  rw [value_feedOn_append]
  rfl

def fedWith (data : List UInt8) : LineReader := (({} : LineReader).feedOn 0 data).value.1

/-- However the bytes are fed, they are lines, and the reader follows them. -/
theorem exists_follows (data : List UInt8) :
    ∃ lines last, Text.Divides [lineFeed] data (lines ++ [last]) ∧
      Follows lines last (fedWith data) := by
  unfold fedWith
  induction data using List.reverseRecOn with
  | nil =>
    exact ⟨[], [], .whole (by simp), .start⟩
  | append_singleton data byte ih =>
    obtain ⟨lines, last, divides, follows⟩ := ih
    rw [value_feedOn_concat]
    by_cases ends : byte = lineFeed
    · subst ends
      exact ⟨lines ++ [last], [], divides.close (by simp), follows.ended.1⟩
    · refine ⟨lines, last ++ [byte], divides.extend ?_, (follows.extended ends).1⟩
      have free : ¬[lineFeed] <:+: last := divides.free last (by simp)
      rw [List.singleton_infix_iff] at free ⊢
      simpa [Ne.symm ends] using free

/-- The reader sees lines. Whatever bytes were fed to a new reader, the next one ends a request
exactly if it is a line feed and nothing but carriage returns came since the last one; and the key
is what the last complete line that has its name holds behind it, if that is one. -/
theorem reads_lines (data : List UInt8) :
    ∃ lines last, Text.Divides [lineFeed] data (lines ++ [last]) ∧
      (∀ byte, ((fedWith data).feed byte).value.2 = true ↔
        byte = lineFeed ∧ withoutReturns last = []) ∧
      ∀ key, (fedWith data).key = some key ↔
        ∃ rest, NamesLast (lines.map withoutReturns) rest ∧ HoldsKey rest key := by
  obtain ⟨lines, last, divides, follows⟩ := exists_follows data
  refine ⟨lines, last, divides, fun byte => ?_, follows.key⟩
  by_cases ends : byte = lineFeed
  · subst ends
    rw [follows.ended.2]
    exact (and_iff_right rfl).symm
  · rw [(follows.extended ends).2]
    simp [ends]

end LineReader

end WebSocket

end BoardNet
