import BoardNet.Proofs.Http.Accounting
import BoardNet.Proofs.Http.Grammar
import BoardNet.Proofs.Http.Responder

namespace BoardNet.Http

open Poll

section Ends

variable {stream part : List UInt8} {offset : Nat}

/-- What has no carriage return in it does not begin a blank line. -/
theorem EndsAt.behind (free : 13 ∉ part) (ends : EndsAt stream offset) :
    EndsAt (part ++ stream) (part.length + offset) := by
  induction part with
  | nil => simpa using ends
  | cons byte part ih =>
    obtain ⟨other, free⟩ := not_or.mp (mt List.mem_cons.mpr free)
    rw [List.cons_append, List.length_cons, Nat.add_right_comm]
    refine .succ (fun begins => ?_) (ih free)
    obtain ⟨same, -⟩ := List.cons_prefix_cons.mp begins
    exact other same

def lineBreak : List UInt8 := [13, 10]

/-- Neither does the end of a line, if the next one is not empty. -/
theorem EndsAt.behind_lineBreak (other : stream.head? ≠ some 13) (ends : EndsAt stream offset) :
    EndsAt (lineBreak ++ stream) (lineBreak.length + offset) := by
  rw [Nat.add_comm]
  refine .succ (fun begins => other ?_) (.succ (fun begins => ?_) ends)
  · obtain ⟨rest, rfl⟩ := (List.prefix_append_right_inj lineBreak).mp begins
    rfl
  · obtain ⟨same, -⟩ := List.cons_prefix_cons.mp begins
    cases same

/-- The first blank line behind some lines is not among them, if none of them is empty. -/
theorem endsAt_lines {lines : List (List UInt8)} (nonempty : lines ≠ [])
    (full : ∀ line ∈ lines, line ≠ [] ∧ 13 ∉ line) (body : List UInt8) :
    EndsAt (lineBreak.intercalate lines ++ (blankLine ++ body))
      (lineBreak.intercalate lines).length := by
  induction lines with
  | nil => exact absurd rfl nonempty
  | cons line lines ih =>
    obtain ⟨⟨-, free⟩, full⟩ := List.forall_mem_cons.mp full
    cases lines with
    | nil =>
      rw [List.intercalate_singleton]
      exact (EndsAt.zero (List.prefix_append blankLine body)).behind free
    | cons next lines =>
      obtain ⟨begun, unbroken⟩ := full next List.mem_cons_self
      have other : (lineBreak.intercalate (next :: lines) ++ (blankLine ++ body)).head? ≠
          some 13 := by
        obtain ⟨byte, next, rfl⟩ := List.exists_cons_of_ne_nil begun
        intro first
        cases lines <;> simp_all
      rw [List.intercalate_cons_cons, List.append_assoc, List.append_assoc, List.length_append,
        List.length_append, Nat.add_assoc]
      exact ((ih (List.cons_ne_nil _ _) full).behind_lineBreak other).behind free

end Ends

namespace Responder

def headLines (code : Code) (contentType : String) (length : Option Nat) : List String :=
  ["HTTP/1.1 " ++ Text.decimal code.toNat ++ " " ++ reason code, "Content-Type: " ++ contentType] ++
    (length.map fun bytes => "Content-Length: " ++ Text.decimal bytes).toList ++
    ["Connection: close"]

/-- These bytes are a whole response head: lines and a blank line behind them, which is the first of
the response whatever body follows. -/
def IsHead (code : Code) (contentType : String) (length : Option Nat) (block : List UInt8) : Prop :=
  ∃ text : String, block = Text.bytes text ++ blankLine ∧
    Text.Divides Text.lineEnd text.toList
      ((headLines code contentType length).map String.toList) ∧
    ∀ body, EndsAt (block ++ body) (Text.bytes text).length

/-- The lines of a head, joined. -/
def wholeHead (code : Code) (contentType : String) (length : Option Nat) : String :=
  "\r\n".intercalate (headLines code contentType length)

/-- A head and the blank line behind it fit the buffer. -/
def HeadFits (code : Code) (contentType : String) (length : Option Nat) : Prop :=
  (wholeHead code contentType length).utf8ByteSize + blankLine.length ≤ responseHeadCapacity

instance (code : Code) (contentType : String) (length : Option Nat) :
    Decidable (HeadFits code contentType length) :=
  inferInstanceAs (Decidable (_ ≤ _))

section Head

variable {code : Code} {contentType : String} {length : Option Nat} {block : List UInt8}

theorem headLines_ne_nil : headLines code contentType length ≠ [] := by
  simp [headLines]

theorem bytes_wholeHead : Text.bytes (wholeHead code contentType length) =
    lineBreak.intercalate ((headLines code contentType length).map Text.bytes) :=
  Text.bytes_intercalate _ _

/-- Only the content type can break the lines of a head. -/
theorem unbroken_headLines (unbroken : '\r' ∉ contentType.toList) :
    ∀ line ∈ headLines code contentType length, '\r' ∉ line.toList := by
  have number (value : Nat) : '\r' ∉ (Text.decimal value).toList := by
    intro member
    exact absurd (Text.isDigit_of_mem_decimal member) (by decide)
  have word : '\r' ∉ (reason code).toList := by
    unfold reason
    split <;> decide
  cases length <;> simp [headLines, unbroken, number, word]

/-- No line of a head is empty. -/
theorem full_headLines :
    ∀ line ∈ headLines code contentType length, Text.bytes line ≠ [] := by
  cases length <;> simp +decide [headLines, String.append_assoc, Text.bytes_append]

/-- The lines of a head and a blank line are a whole head. -/
theorem isHead_wholeHead (unbroken : '\r' ∉ contentType.toList) :
    IsHead code contentType length
      (Text.bytes (wholeHead code contentType length) ++ blankLine) := by
  have free : ∀ line ∈ headLines code contentType length, '\r' ∉ line.toList :=
    unbroken_headLines unbroken
  refine ⟨_, rfl, ⟨?_, ?_, ?_⟩, ?_⟩
  · simp [headLines_ne_nil]
  · rw [wholeHead, String.toList_intercalate]
    rfl
  · rintro _ member inside
    obtain ⟨line, listed, rfl⟩ := List.mem_map.mp member
    exact free line listed (inside.subset (by simp [Text.lineEnd]))
  · intro body
    rw [List.append_assoc, bytes_wholeHead]
    apply endsAt_lines (by simp [headLines_ne_nil])
    rintro _ member
    obtain ⟨line, listed, rfl⟩ := List.mem_map.mp member
    exact ⟨full_headLines line listed, fun inside =>
      free line listed (Text.mem_toList_of_mem_bytes inside (by decide))⟩

/-- There is no other whole head. -/
theorem IsHead.eq (head : IsHead code contentType length block) :
    block = Text.bytes (wholeHead code contentType length) ++ blankLine := by
  obtain ⟨text, rfl, ⟨-, joined, -⟩, -⟩ := head
  have same : text = wholeHead code contentType length := by
    apply String.ext
    rw [wholeHead, String.toList_intercalate, ← joined]
    rfl
  rw [same]

theorem size_headText :
    (headText code contentType length).utf8ByteSize ≤ responseHeadCapacity := by
  have opening (pieces : List String) :
      (Text.fitting responseHeadCapacity pieces).utf8ByteSize ≤ responseHeadCapacity :=
    Text.size_appendFitting "" pieces (by decide)
  apply Text.size_push
  cases length with
  | none => exact opening _
  | some bytes => exact Text.size_appendFitting _ _ (opening _)

theorem size_wholeHead_append :
    (wholeHead code contentType length ++ "\r\n\r\n").utf8ByteSize =
      (wholeHead code contentType length).utf8ByteSize + blankLine.length := by
  rw [String.utf8ByteSize_append]
  rfl

/-- A head that fits is not cut. -/
theorem headText_of_fits (fits : HeadFits code contentType length) :
    headText code contentType length = wholeHead code contentType length ++ "\r\n\r\n" := by
  let opening := ["HTTP/1.1 ", Text.decimal code.toNat, " ", reason code, "\r\nContent-Type: ",
    contentType, "\r\n"]
  let measure := length.elim [] fun bytes => ["Content-Length: ", Text.decimal bytes, "\r\n"]
  let begun := opening.foldl (· ++ ·) ""
  let measured := measure.foldl (· ++ ·) begun
  have parts : headText code contentType length =
      Text.push responseHeadCapacity
        (Text.appendFitting responseHeadCapacity
          (Text.appendFitting responseHeadCapacity "" opening) measure)
        "Connection: close\r\n\r\n" := by
    cases length <;> rfl
  have whole : wholeHead code contentType length ++ "\r\n\r\n" =
      measured ++ "Connection: close\r\n\r\n" := by
    apply String.ext
    cases length <;> simp [wholeHead, headLines, measured, measure, begun, opening]
  have room : (measured ++ "Connection: close\r\n\r\n").utf8ByteSize ≤ responseHeadCapacity := by
    rw [← whole, size_wholeHead_append]
    exact fits
  have second : measured.utf8ByteSize ≤ responseHeadCapacity :=
    Nat.le_trans (Text.size_le_foldl measured [_]) room
  have first : begun.utf8ByteSize ≤ responseHeadCapacity :=
    Nat.le_trans (Text.size_le_foldl begun measure) second
  rw [parts, whole, Text.appendFitting_of_fits first, Text.appendFitting_of_fits second,
    Text.push_of_fits room]

/-- A head is whole exactly if it fits. -/
theorem isHead_headText_iff (unbroken : '\r' ∉ contentType.toList) :
    IsHead code contentType length (Text.bytes (headText code contentType length)) ↔
      HeadFits code contentType length := by
  constructor
  · intro head
    have size := congrArg List.length head.eq
    rw [Text.length_bytes, List.length_append, Text.length_bytes] at size
    rw [HeadFits, ← size]
    exact size_headText
  · intro fits
    rw [headText_of_fits fits, Text.bytes_append]
    exact isHead_wholeHead unbroken

/-- The size of a head goes by the parts of it that vary. -/
theorem size_wholeHead (code : Code) (contentType : String) (length : Option Nat) :
    (wholeHead code contentType length).utf8ByteSize =
      45 + (Text.decimal code.toNat).utf8ByteSize + (reason code).utf8ByteSize +
        contentType.utf8ByteSize +
        length.elim 0 fun bytes => 18 + (Text.decimal bytes).utf8ByteSize := by
  have fixed : "HTTP/1.1 ".utf8ByteSize = 9 ∧ " ".utf8ByteSize = 1 ∧ "\r\n".utf8ByteSize = 2 ∧
      "Content-Type: ".utf8ByteSize = 14 ∧ "Content-Length: ".utf8ByteSize = 16 ∧
      "Connection: close".utf8ByteSize = 17 := by decide
  cases length with
  | none =>
    simp only [wholeHead, headLines, Option.map_none, Option.toList_none, List.append_nil,
      List.cons_append, List.nil_append, String.intercalate_cons_cons,
      String.intercalate_singleton, String.utf8ByteSize_append, Option.elim_none]
    omega
  | some bytes =>
    simp only [wholeHead, headLines, Option.map_some, Option.toList_some, List.cons_append,
      List.nil_append, String.intercalate_cons_cons, String.intercalate_singleton,
      String.utf8ByteSize_append, Option.elim_some]
    omega

/-- Most bytes of a content type with which every head fits. -/
def shortType : Nat := 94

/-- With a short content type every head fits. -/
theorem headFits_of_short (short : contentType.utf8ByteSize ≤ shortType)
    (word : ∀ bytes ∈ length, bytes < 2 ^ 64) : HeadFits code contentType length := by
  have status : (Text.decimal code.toNat).utf8ByteSize ≤ 5 :=
    Text.utf8ByteSize_decimal_le (by decide) (Nat.lt_trans code.toNat_lt (by decide))
  have phrase : (reason code).utf8ByteSize ≤ 6 := by
    unfold reason
    split <;> decide
  have measure : length.elim 0 (fun bytes => 18 + (Text.decimal bytes).utf8ByteSize) ≤ 38 := by
    cases length with
    | none => exact Nat.zero_le _
    | some bytes =>
      have digits : (Text.decimal bytes).utf8ByteSize ≤ 20 :=
        Text.utf8ByteSize_decimal_le (by decide) (Nat.lt_trans (word bytes rfl) (by decide))
      exact Nat.add_le_add_left digits 18
  have gap : blankLine.length = 4 := rfl
  unfold shortType at short
  rw [HeadFits, size_wholeHead, gap, responseHeadCapacity]
  omega

variable {responder after : Responder} {trace : List Exchange} {made taken : List UInt8}

/-- A response is not cut if its head and its body fit behind what waits. -/
theorem overflowed_send {body : List UInt8}
    (path : Path (responder.send code contentType body) trace after)
    (headless : responder.status = none) (untailed : responder.out.tail = [])
    (room : responder.out.buffer.length + responseHeadCapacity + body.length ≤ outboxSize) :
    after.out.overflowed = responder.out.overflowed := by
  have head := @size_headText code contentType (some body.length)
  rw [← Text.length_bytes] at head
  rw [send, path_bind] at path
  obtain ⟨before, rest, begun, rfl, heading, writing⟩ := path
  rw [sendHead, if_neg (by simp [headless])] at heading
  have first := overflowed_push heading (by simp only [Outbox.space, if_pos untailed]; omega)
  have still : begun.out.tail = [] := by
    obtain ⟨_, _, -, pushed⟩ := path_pushed heading
    exact pushed.tail untailed
  have waiting : begun.out.buffer.length ≤ responder.out.buffer.length +
      (Text.bytes (headText code contentType (some body.length))).length := by
    simpa [Outbox.toList, untailed, still] using length_push_le heading
  have second := overflowed_push writing (by simp only [Outbox.space, if_pos still]; omega)
  exact second.trans first

/-- The head of a response is whole exactly if it fits its buffer. A responder that has made none
makes `headText`, whatever the controller does. For a content type within one line that is a whole
head exactly if status, type and length leave it enough space, as they do whenever the type is
short; a length that fits a machine word then stands there in decimal. -/
theorem sendHead_whole_iff (unbroken : '\r' ∉ contentType.toList ∧ '\n' ∉ contentType.toList)
    (headless : responder.status = none) (holds : responder.Holds made taken)
    (path : Path (responder.sendHead code contentType length) trace after) :
    after.Holds (made ++ Text.bytes (headText code contentType length))
        (taken ++ takenOn responder.socket trace) ∧
      (IsHead code contentType length (Text.bytes (headText code contentType length)) ↔
        HeadFits code contentType length) ∧
      ((∀ bytes ∈ length, bytes < 2 ^ 64) →
        (contentType.utf8ByteSize ≤ shortType → HeadFits code contentType length) ∧
        ∀ bytes ∈ length, Text.IsWord (Text.decimal bytes) bytes) := by
  refine ⟨?_, isHead_headText_iff unbroken.1, fun word => ⟨?_, ?_⟩⟩
  · have headed := (path_sendHead path holds).1
    rwa [headBytes, headless] at headed
  · exact fun short => headFits_of_short short word
  · exact fun bytes member => Text.isWord_decimal (word bytes member)

/-- A text of type "text/plain" has a whole head. With a type of 150 bytes the length and the blank
line do not fit any more, and the head is not whole. -/
theorem plain_head_whole :
    (∃ (trace : List Exchange) (after : Responder),
      after.Holds (Text.bytes (headText 200 "text/plain" (some 4)))
        (takenOn ⟨0, by decide⟩ trace) ∧
      IsHead 200 "text/plain" (some 4) (Text.bytes (headText 200 "text/plain" (some 4)))) ∧
    ¬IsHead 200 (String.ofList (.replicate 150 'x')) (some 2)
      (Text.bytes (headText 200 (String.ofList (.replicate 150 'x')) (some 2))) := by
  let begun : Responder := .start ⟨0, by decide⟩ 2048 {} (Server.linkThatIs true) {}
  have holds : begun.Holds [] [] := holds_start _ _ _ _
  constructor
  · obtain ⟨trace, after, path⟩ : ∃ trace after,
        Path (begun.sendHead 200 "text/plain" (some 4)) trace after :=
      ⟨_, _, path_run Sim.Controller.chip _ Server.calledUpon⟩
    obtain ⟨held, whole, -⟩ := sendHead_whole_iff ⟨by decide, by decide⟩ rfl holds path
    exact ⟨trace, after, held, whole.mpr (by decide +kernel)⟩
  · have long : ¬HeadFits 200 (String.ofList (.replicate 150 'x')) (some 2) := by decide +kernel
    refine mt (isHead_headText_iff ?_).mp long
    rw [String.toList_ofList]
    decide

end Head

end Responder

end BoardNet.Http
