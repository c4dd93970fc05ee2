import BoardNet.WebSocket.Frame

namespace BoardNet.WebSocket

structure ServerFrame where
  opcode : Opcode
  payload : List UInt8
  deriving DecidableEq, Repr

namespace ServerFrame

def bytes (frame : ServerFrame) : List UInt8 :=
  match serverHeader frame.opcode frame.payload.length with
  | .ok header => header ++ frame.payload
  | .error _ => []

def stream (frames : List ServerFrame) : List UInt8 := frames.flatMap bytes

@[simp] theorem stream_nil : stream [] = [] := rfl

@[simp] theorem stream_append (frames later : List ServerFrame) :
    stream (frames ++ later) = stream frames ++ stream later := List.flatMap_append

/-- A frame can be sent. -/
def Fits (frame : ServerFrame) : Prop := frame.payload.length ≤ 65535

theorem bytes_of_header {opcode : Opcode} {payload header : List UInt8}
    (made : serverHeader opcode payload.length = .ok header) :
    Fits ⟨opcode, payload⟩ ∧ bytes ⟨opcode, payload⟩ = header ++ payload := by
  refine ⟨?_, by simp only [bytes, made]⟩
  unfold serverHeader at made
  dsimp only at made
  split at made
  · next short => exact Nat.le_trans (Nat.le_of_lt short) (by decide)
  · split at made
    · next long => exact long
    · cases made

/-- Takes the payload of a frame off a stream. -/
def split? (opcode : Opcode) (length : Nat) (data : List UInt8) :
    Option (ServerFrame × List UInt8) :=
  if length ≤ data.length then some (⟨opcode, data.take length⟩, data.drop length) else none

/-- Reads the frame at the front of a stream as a peer does: the frame is final and has no mask, and
its length is in the form of 7 or of 16 bits. -/
def read? : List UInt8 → Option (ServerFrame × List UInt8)
  | first :: second :: rest =>
    if first &&& 0xF0 ≠ 0x80 then none
    else match Opcode.ofBits? (first &&& 0x0F) with
      | none => none
      | some opcode =>
        if second < 126 then split? opcode second.toNat rest
        else if second = 126 then
          match rest with
          | high :: low :: rest => split? opcode (high.toNat * 256 + low.toNat) rest
          | _ => none
        else none
  | _ => none

variable {frame : ServerFrame} {data rest : List UInt8}

theorem length_split? {opcode : Opcode} {length : Nat}
    (read : split? opcode length data = some (frame, rest)) : rest.length ≤ data.length := by
  unfold split? at read
  split at read
  · cases read
    rw [List.length_drop]
    omega
  · cases read

/-- A frame takes up some of the stream. -/
theorem length_read? (read : read? data = some (frame, rest)) : rest.length < data.length := by
  unfold read? at read
  split at read
  · next first second others =>
    simp only [List.length_cons]
    split at read
    · cases read
    · split at read
      · cases read
      · split at read
        · have short := length_split? read
          omega
        · split at read
          · split at read
            · have long := length_split? read
              simp only [List.length_cons]
              omega
            · cases read
          · cases read
  · cases read

/-- Reads a whole stream of frames. -/
def readAll? (data : List UInt8) : Option (List ServerFrame) :=
  if data = [] then some []
  else match _read : read? data with
    | none => none
    | some (frame, rest) => (frame :: ·) <$> readAll? rest
termination_by data.length
decreasing_by exact length_read? _read

@[simp] theorem split?_append (frame : ServerFrame) (rest : List UInt8) :
    split? frame.opcode frame.payload.length (frame.payload ++ rest) = some (frame, rest) := by
  simp [split?]

/-- What the first byte of a frame says is read back. -/
theorem first_bits (opcode : Opcode) :
    (0x80 ||| opcode.bits) &&& 0xF0 = 0x80 ∧
      Opcode.ofBits? ((0x80 ||| opcode.bits) &&& 0x0F) = some opcode := by
  cases opcode <;> exact ⟨rfl, rfl⟩

/-- A frame that is written is read back, and nothing of what follows it. -/
theorem read?_bytes (fits : frame.Fits) (rest : List UInt8) :
    read? (frame.bytes ++ rest) = some (frame, rest) := by
  obtain ⟨final, opcode⟩ := first_bits frame.opcode
  unfold bytes serverHeader
  by_cases short : frame.payload.length < 126
  · have length : frame.payload.length.toUInt8.toNat = frame.payload.length := by
      rw [Nat.toUInt8, UInt8.toNat_ofNat']
      omega
    have below : frame.payload.length.toUInt8 < 126 := by
      rw [UInt8.lt_iff_toNat_lt, length]
      exact short
    simp [read?, short, final, opcode, below, length]
  · have high : (frame.payload.length / 256).toUInt8.toNat = frame.payload.length / 256 := by
      rw [Nat.toUInt8, UInt8.toNat_ofNat']
      unfold Fits at fits
      omega
    have low : (frame.payload.length % 256).toUInt8.toNat = frame.payload.length % 256 := by
      rw [Nat.toUInt8, UInt8.toNat_ofNat']
      omega
    have whole : frame.payload.length / 256 * 256 + frame.payload.length % 256 =
        frame.payload.length := Nat.div_add_mod' ..
    have long : frame.payload.length ≤ 65535 := fits
    simp [read?, short, long, final, opcode, high, low, whole]

theorem bytes_ne_nil (fits : frame.Fits) : frame.bytes ≠ [] := by
  intro none
  have read := read?_bytes fits []
  rw [none] at read
  cases read

theorem readAll?_bytes (fits : frame.Fits) (rest : List UInt8) :
    readAll? (frame.bytes ++ rest) = (frame :: ·) <$> readAll? rest := by
  have some_bytes : frame.bytes ++ rest ≠ [] := by
    simp [bytes_ne_nil fits]
  rw [readAll?, if_neg some_bytes]
  split
  · next none =>
    rw [read?_bytes fits] at none
    cases none
  · next read =>
    rw [read?_bytes fits] at read
    cases read
    rfl

/-- A stream of frames is read as it was written. -/
theorem readAll?_stream (frames : List ServerFrame) (fit : ∀ frame ∈ frames, frame.Fits) :
    readAll? (stream frames) = some frames := by
  induction frames with
  | nil =>
    rw [readAll?]
    rfl
  | cons frame frames ih =>
    obtain ⟨first, others⟩ := List.forall_mem_cons.mp fit
    change readAll? (frame.bytes ++ stream frames) = _
    rw [readAll?_bytes first, ih others]
    rfl

example :
    readAll? (stream [⟨.text, [0x68, 0x69]⟩, ⟨.close, []⟩]) =
      some [⟨.text, [0x68, 0x69]⟩, ⟨.close, []⟩] := by
  decide +kernel

end ServerFrame

end BoardNet.WebSocket
