import BoardNet.Proofs.WebSocket.Codec
import BoardNet.WebSocket.Slot

namespace BoardNet.WebSocket

/-- Why a peer is cut off for what it sent. -/
inductive Violation where
  | badFrame (error : FrameError)
  | fragmented
  | invalidText
  | opcode (bits : UInt8)
  deriving DecidableEq

/-- Something that a server acts on. -/
inductive Event where
  | accepted (key : String)
  /-- The request had no key. -/
  | refused
  /-- The request had a key, but the controller did not take the whole response. No stream says
  this: it is up to the controller. -/
  | unanswered (key : String)
  | text (message : String)
  | binary (payload : List UInt8)
  | ping (payload : List UInt8)
  | pong (payload : List UInt8)
  | close (payload : List UInt8)
  | cutOff (violation : Violation)
  deriving DecidableEq

namespace Event

def ofFrame (header : FrameHeader) (payload : List UInt8) : Event :=
  if !header.fin then .cutOff .fragmented
  else match Opcode.ofBits? header.opcode with
    | some .text =>
      match Text.ofBytes? payload with
      | some message => .text message
      | none => .cutOff .invalidText
    | some .binary => .binary payload
    | some .ping => .ping payload
    | some .pong => .pong payload
    | some .close => .close payload
    | some .continuation | none => .cutOff (.opcode header.opcode)

/-- Whether frames are still read after an event, and nothing if the connection is cut off. -/
def goesOn : Event → Option Bool
  | .cutOff _ | .refused | .unanswered _ => none
  | .close _ => some false
  | _ => some true

end Event

/-- How far into a stream a reader is. -/
inductive Reading where
  /-- In the upgrade request. -/
  | request (reader : LineReader)
  /-- Among frames; these bytes are not yet one. -/
  | frames (rest : List UInt8)
  /-- Behind a closing frame. What comes there is kept and not looked at. -/
  | closed (rest : List UInt8)
  /-- Behind the point where the peer is refused or cut off. -/
  | ended
  deriving DecidableEq

/-- The events that were found, and where that leaves the reader. -/
structure Findings where
  events : List Event := []
  reading : Reading
  deriving DecidableEq

namespace Findings

/-- The findings with others before them. -/
def after (findings : Findings) (events : List Event) : Findings :=
  { findings with events := events ++ findings.events }

@[simp] theorem after_nil (findings : Findings) : findings.after [] = findings := rfl

@[simp] theorem after_after (findings : Findings) (first second : List Event) :
    (findings.after second).after first = findings.after (first ++ second) := by
  simp only [after, List.append_assoc]

@[simp] theorem events_after (findings : Findings) (events : List Event) :
    (findings.after events).events = events ++ findings.events := rfl

@[simp] theorem reading_after (findings : Findings) (events : List Event) :
    (findings.after events).reading = findings.reading := rfl

end Findings

/-- What an event is followed by: nothing that is looked at if it ends the connection, and
otherwise what is found further on. -/
def Event.followed (event : Event) (rest : List UInt8) (further : Findings) : Findings :=
  match event.goesOn with
  | none => ⟨[event], .ended⟩
  | some false => ⟨[event], .closed rest⟩
  | some true => further.after [event]

def framesIn (stream : List UInt8) : Findings :=
  match _read : FrameHeader.parse stream receiveCapacity with
  | .error error => ⟨[.cutOff (.badFrame error)], .ended⟩
  | .ok none => ⟨[], .frames stream⟩
  | .ok (some header) =>
    let rest := stream.drop header.frameLength
    (Event.ofFrame header (header.payload stream)).followed rest (framesIn rest)
termination_by stream.length
decreasing_by
  have bounds := FrameHeader.frameLength_bounds _read
  simp only [List.length_drop]
  omega

/-- What an upgrade request says once it is complete, and what the bytes behind it do. -/
def Findings.ofRequest : LineReader × Option (List UInt8) → Findings
  | (reader, none) => ⟨[], .request reader⟩
  | (reader, some rest) =>
    match reader.key with
    | none => ⟨[.refused], .ended⟩
    | some key => (framesIn rest).after [.accepted key]

namespace Reading

def start : Reading := .request {}

def feed (reading : Reading) (data : List UInt8) : Findings :=
  match reading with
  | .request reader => .ofRequest (reader.feedAll data).value
  | .frames rest => framesIn (rest ++ data)
  | .closed rest => ⟨[], .closed (rest ++ data)⟩
  | .ended => ⟨[], .ended⟩

end Reading

section Frames

variable {stream : List UInt8}

theorem framesIn_of_error {error : FrameError}
    (bad : FrameHeader.parse stream receiveCapacity = .error error) :
    framesIn stream = ⟨[.cutOff (.badFrame error)], .ended⟩ := by
  rw [framesIn]
  split <;> rename_i read <;> rw [bad] at read <;> cases read
  rfl

theorem framesIn_of_partial (cut : FrameHeader.parse stream receiveCapacity = .ok none) :
    framesIn stream = ⟨[], .frames stream⟩ := by
  rw [framesIn]
  split <;> rename_i read <;> rw [cut] at read <;> cases read

theorem framesIn_of_frame {header : FrameHeader}
    (whole : FrameHeader.parse stream receiveCapacity = .ok (some header)) :
    framesIn stream =
      (Event.ofFrame header (header.payload stream)).followed (stream.drop header.frameLength)
        (framesIn (stream.drop header.frameLength)) := by
  rw [framesIn]
  split <;> rename_i read <;> rw [whole] at read <;> cases read
  rfl

end Frames

theorem Event.followed_after (event : Event) (rest more : List UInt8) (further : Findings) :
    event.followed (rest ++ more) ((further.reading.feed more).after further.events) =
      ((event.followed rest further).reading.feed more).after
        (event.followed rest further).events := by
  unfold Event.followed
  rcases event.goesOn with _ | _ | _
  · rfl
  · rfl
  · simp only [Findings.reading_after, Findings.events_after, Findings.after_after]

/-- A stream of frames can be read in two parts. -/
theorem framesIn_append (stream more : List UInt8) :
    framesIn (stream ++ more) =
      ((framesIn stream).reading.feed more).after (framesIn stream).events := by
  induction stream using framesIn.induct with
  | case1 stream error bad =>
    rw [framesIn_of_error bad, framesIn_of_error (FrameHeader.parse_append bad nofun more)]
    rfl
  | case2 stream cut =>
    rw [framesIn_of_partial cut]
    rfl
  | case3 stream header whole rest ih =>
    have bounds := FrameHeader.frameLength_bounds whole
    rw [framesIn_of_frame whole, framesIn_of_frame (FrameHeader.parse_append whole nofun more),
      FrameHeader.payload_append bounds.2, List.drop_append_of_le_length bounds.2,
      ih, Event.followed_after]

/-- The bytes of a request can be read in two parts. -/
theorem LineReader.feedAll_append (reader : LineReader) (data more : List UInt8) :
    (reader.feedAll (data ++ more)).value =
      match (reader.feedAll data).value with
      | (reader, none) => (reader.feedAll more).value
      | (reader, some rest) => (reader, some (rest ++ more)) := by
  induction data generalizing reader with
  | nil => rfl
  | cons byte data ih =>
    simp only [List.cons_append, feedAll, Logged.value_bind]
    by_cases done : (reader.feed byte).value.2 = true
    · simp only [done, if_true, Logged.value_pure]
    · simp only [done, Bool.false_eq_true, if_false]
      exact ih _

namespace Reading

/-- However a stream is cut, reading its parts one after the other finds what reading the whole
finds. -/
theorem feed_append (reading : Reading) (data more : List UInt8) :
    reading.feed (data ++ more) =
      ((reading.feed data).reading.feed more).after (reading.feed data).events := by
  cases reading with
  | request reader =>
    rw [feed, feed, LineReader.feedAll_append]
    rcases (reader.feedAll data).value with ⟨reader, _ | rest⟩
    · rfl
    · cases found : reader.key with
      | none => simp only [Findings.ofRequest, found]; rfl
      | some key =>
        simp only [Findings.ofRequest, found, framesIn_append, Findings.reading_after,
          Findings.events_after, Findings.after_after]
  | frames rest =>
    simp only [feed, ← List.append_assoc]
    exact framesIn_append _ _
  | closed rest => simp only [feed, List.append_assoc, Findings.after_nil]
  | ended => rfl

/-- Nothing is found where nothing new has come. -/
theorem feed_nil_of_feed (reading : Reading) (data : List UInt8) :
    (reading.feed data).reading.feed [] = ⟨[], (reading.feed data).reading⟩ := by
  have same := reading.feed_append data []
  rw [List.append_nil] at same
  rcases found : (reading.feed data).reading.feed [] with ⟨events, next⟩
  rw [found] at same
  have further : (reading.feed data).events = (reading.feed data).events ++ events :=
    congrArg Findings.events same
  have stays : (reading.feed data).reading = next := congrArg Findings.reading same
  rw [stays, List.self_eq_append_right.mp further]

end Reading

/-- A final frame as a client sends it, its length in the shorter form that can hold it. -/
def clientFrame (opcode : Opcode) (mask : Mask) (payload : List UInt8) : List UInt8 :=
  let first := 0x80 ||| opcode.bits
  let body := mask.bytes ++ unmask mask payload
  if payload.length < 126 then first :: (0x80 ||| payload.length.toUInt8) :: body
  else first :: 0xFE :: (payload.length / 256).toUInt8 :: (payload.length % 256).toUInt8 :: body

/-- What a final frame says. -/
def Event.said (opcode : Opcode) (payload : List UInt8) : Event :=
  Event.ofFrame ⟨true, opcode.bits, ⟨0, 0, 0, 0⟩, 0, 0⟩ payload

/-- A whole frame is read, and then what is behind it. -/
theorem framesIn_bytes (frame : MaskedFrame) (fits : frame.bytes.length ≤ receiveCapacity)
    (more : List UInt8) :
    framesIn (frame.bytes ++ more) =
      (Event.ofFrame frame.header frame.payload).followed more (framesIn more) := by
  rw [framesIn_of_frame (frame.parse_bytes fits more), frame.payload_bytes,
    ← frame.length_bytes, List.drop_left]

/-- A final frame is one that is masked, its length in the shorter form that can state it. -/
theorem exists_clientFrame (opcode : Opcode) (mask : Mask) {payload : List UInt8}
    (long : payload.length ≤ 65535) :
    ∃ frame : MaskedFrame, frame.bytes = clientFrame opcode mask payload ∧
      frame.header.fin = true ∧ frame.header.opcode = opcode.bits ∧ frame.payload = payload := by
  obtain ⟨nibble, bits⟩ : ∃ nibble : Fin 16, nibble.val.toUInt8 = opcode.bits := by
    cases opcode <;> decide
  have written (form : LengthForm) (stated : payload.length ≤ form.most) :
      (MaskedFrame.mk true nibble mask form payload stated).bytes =
        (0x80 ||| opcode.bits) :: (form.bytes payload.length ++ mask.bytes) ++
          unmask mask payload := by
    rw [← bits, mask.unmask_eq_cover]
    rfl
  unfold clientFrame
  by_cases short : payload.length < 126
  · have stated : payload.length ≤ LengthForm.short.most := Nat.le_of_lt_succ short
    rw [if_pos short]
    exact ⟨⟨true, nibble, mask, .short, payload, stated⟩, written .short stated, rfl, bits, rfl⟩
  · have stated : payload.length ≤ LengthForm.wide.most := long
    rw [if_neg short]
    exact ⟨⟨true, nibble, mask, .wide, payload, stated⟩, written .wide stated, rfl, bits, rfl⟩

/-- What a client sends is read as it was meant. -/
theorem framesIn_clientFrame (opcode : Opcode) (mask : Mask) (payload more : List UInt8)
    (fits : (clientFrame opcode mask payload).length ≤ receiveCapacity) :
    framesIn (clientFrame opcode mask payload ++ more) =
      (Event.said opcode payload).followed more (framesIn more) := by
  have long : payload.length ≤ 65535 := by
    have size := length_unmask mask payload
    unfold clientFrame receiveCapacity at fits
    split at fits <;> simp only [List.length_cons, List.length_append, size] at fits <;> omega
  obtain ⟨frame, written, final, kind, same⟩ := exists_clientFrame opcode mask long
  have said : Event.ofFrame frame.header frame.payload = Event.said opcode payload := by
    rw [Event.said, Event.ofFrame, Event.ofFrame, final, kind, same]
  rw [← written] at fits ⊢
  rw [framesIn_bytes frame fits, said]

end BoardNet.WebSocket
