import BoardNet.WebSocket.Frame

namespace BoardNet.WebSocket

namespace Mask

def bytes (mask : Mask) : List UInt8 := [mask.a, mask.b, mask.c, mask.d]

/-- The byte of the key for a place in the payload. -/
def key (mask : Mask) (index : Nat) : UInt8 :=
  match index % 4 with
  | 0 => mask.a
  | 1 => mask.b
  | 2 => mask.c
  | _ => mask.d

theorem key_turn (mask : Mask) (index : Nat) : mask.turn.key index = mask.key (index + 1) := by
  have cycle : index % 4 = 0 ∨ index % 4 = 1 ∨ index % 4 = 2 ∨ index % 4 = 3 := by omega
  unfold key turn
  rw [Nat.add_mod]
  rcases cycle with same | same | same | same <;> rw [same] <;> rfl

/-- A payload as it stands in a frame. -/
def cover (mask : Mask) (payload : List UInt8) : List UInt8 :=
  payload.mapIdx fun index byte => byte ^^^ mask.key index

@[simp] theorem length_cover (mask : Mask) (payload : List UInt8) :
    (mask.cover payload).length = payload.length := List.length_mapIdx

theorem unmask_eq_cover (mask : Mask) (payload : List UInt8) :
    unmask mask payload = mask.cover payload := by
  induction payload generalizing mask with
  | nil => rfl
  | cons byte rest ih =>
    rw [unmask, ih, cover, cover, List.mapIdx_cons]
    simp only [key_turn]
    rfl

/-- The key takes off what it put on. -/
@[simp] theorem unmask_cover (mask : Mask) (payload : List UInt8) :
    unmask mask (mask.cover payload) = payload := by
  rw [← unmask_eq_cover, unmask_unmask]

end Mask

/-- How a client states the length of a frame. -/
inductive LengthForm where
  /-- In seven bits. -/
  | short
  /-- In sixteen bits, behind a mark. -/
  | wide
  deriving DecidableEq, Repr

namespace LengthForm

/-- The longest payload whose length can be stated. -/
def most : LengthForm → Nat
  | .short => 125
  | .wide => 65535

def headerSize : LengthForm → Nat
  | .short => 6
  | .wide => 8

/-- The length as it stands in a frame, with the mark of a masked frame. -/
def bytes (form : LengthForm) (length : Nat) : List UInt8 :=
  match form with
  | .short => [0x80 ||| length.toUInt8]
  | .wide => [0x80 ||| 126, (length / 256).toUInt8, (length % 256).toUInt8]

end LengthForm

/-- A frame as a client sends it. Its length can be stated in the form that it has. -/
structure MaskedFrame where
  fin : Bool
  opcode : Fin 16
  mask : Mask
  form : LengthForm
  payload : List UInt8
  stated : payload.length ≤ form.most
  deriving DecidableEq, Repr

namespace MaskedFrame

variable {frame : MaskedFrame} {capacity : Nat}

/-- The first byte: whether the frame is final, and its opcode. -/
def first (frame : MaskedFrame) : UInt8 :=
  (if frame.fin then 0x80 else 0) ||| frame.opcode.val.toUInt8

def head (frame : MaskedFrame) : List UInt8 :=
  frame.first :: (frame.form.bytes frame.payload.length ++ frame.mask.bytes)

def bytes (frame : MaskedFrame) : List UInt8 := frame.head ++ frame.mask.cover frame.payload

/-- What a receiver is to know of the frame. -/
def header (frame : MaskedFrame) : FrameHeader where
  fin := frame.fin
  opcode := frame.opcode.val.toUInt8
  mask := frame.mask
  headerLength := frame.form.headerSize
  payloadLength := frame.payload.length

theorem length_head : frame.head.length = frame.form.headerSize := by
  unfold head
  cases frame.form <;> rfl

theorem length_bytes : frame.bytes.length = frame.header.frameLength := by
  rw [bytes, List.length_append, length_head, Mask.length_cover]
  rfl

theorem first_bits (frame : MaskedFrame) :
    (frame.first &&& 0x80 != 0) = frame.fin ∧
      frame.first &&& 0x0F = frame.opcode.val.toUInt8 := by
  have bits : ∀ (fin : Bool) (opcode : Fin 16),
      ((((if fin then 0x80 else 0) ||| opcode.val.toUInt8) &&& 0x80 : UInt8) != 0) = fin ∧
        (((if fin then 0x80 else 0) ||| opcode.val.toUInt8) &&& 0x0F : UInt8) =
          opcode.val.toUInt8 := by decide
  exact bits frame.fin frame.opcode

end MaskedFrame

namespace FrameHeader

variable {buffer : List UInt8} {capacity : Nat}

theorem complete_of_whole (first : UInt8) (mask : Mask) {headerLength : Nat}
    {body : List UInt8} (fits : headerLength + body.length ≤ capacity) (more : List UInt8) :
    complete first headerLength body.length capacity (mask.bytes ++ body ++ more) =
      .ok (some ⟨first &&& 0x80 != 0, first &&& 0x0F, mask, headerLength, body.length⟩) := by
  have roomy : ¬headerLength + body.length > capacity := Nat.not_lt.mpr fits
  have whole : ¬(body ++ more).length < body.length := by
    simp only [List.length_append]
    omega
  simp only [complete, Mask.bytes, List.cons_append, List.nil_append, if_neg roomy, if_neg whole]

private theorem complete_append {first : UInt8} {headerLength payloadLength : Nat}
    {rest : List UInt8} {answer : Except FrameError (Option FrameHeader)}
    (read : complete first headerLength payloadLength capacity rest = answer)
    (decided : answer ≠ .ok none) (more : List UInt8) :
    complete first headerLength payloadLength capacity (rest ++ more) = answer := by
  unfold complete at read ⊢
  dsimp only at read ⊢
  by_cases large : headerLength + payloadLength > capacity
  · rwa [if_pos large] at read ⊢
  · rw [if_neg large] at read ⊢
    rcases rest with _ | ⟨a, _ | ⟨b, _ | ⟨c, _ | ⟨d, payload⟩⟩⟩⟩
    iterate 4 exact absurd read.symm decided
    by_cases short : payload.length < payloadLength
    · simp only [short, if_true] at read
      exact absurd read.symm decided
    · have enough : ¬(payload ++ more).length < payloadLength := by
        simp only [List.length_append]
        omega
      simpa only [List.cons_append, short, enough, if_false] using read

/-- What is known of the front of a buffer does not change with what arrives behind it. -/
theorem parse_append {answer : Except FrameError (Option FrameHeader)}
    (read : parse buffer capacity = answer) (decided : answer ≠ .ok none) (more : List UInt8) :
    parse (buffer ++ more) capacity = answer := by
  rcases buffer with _ | ⟨first, _ | ⟨second, rest⟩⟩
  iterate 2 exact absurd read.symm decided
  unfold parse at read ⊢
  dsimp only [List.cons_append] at read ⊢
  by_cases long : second &&& 0x7F = 127
  · rwa [if_pos long] at read ⊢
  rw [if_neg long] at read ⊢
  by_cases plain : second &&& 0x80 = 0
  · rwa [if_pos plain] at read ⊢
  rw [if_neg plain] at read ⊢
  by_cases wide : second &&& 0x7F = 126
  · rw [if_pos wide] at read ⊢
    rcases rest with _ | ⟨high, _ | ⟨low, rest⟩⟩
    iterate 2 exact absurd read.symm decided
    exact complete_append read decided more
  · rw [if_neg wide] at read ⊢
    exact complete_append read decided more

/-- Nor do the frame's payload and what is behind it. -/
theorem payload_append {header : FrameHeader} (within : header.frameLength ≤ buffer.length)
    (more : List UInt8) : header.payload (buffer ++ more) = header.payload buffer := by
  unfold frameLength at within
  unfold payload
  rw [List.drop_append_of_le_length (by omega), List.take_append_of_le_length]
  simp only [List.length_drop]
  omega

private theorem complete_fits {first : UInt8} {headerLength payloadLength : Nat}
    {rest : List UInt8} {header : FrameHeader}
    (read : complete first headerLength payloadLength capacity rest = .ok (some header)) :
    (header.headerLength = headerLength ∧ header.payloadLength = payloadLength) ∧
      header.frameLength ≤ capacity := by
  unfold complete at read
  dsimp only at read
  split at read
  · cases read
  · next fits =>
    split at read
    · split at read
      · cases read
      · cases read
        exact ⟨⟨rfl, rfl⟩, Nat.le_of_not_gt fits⟩
    · cases read

/-- A frame that was read states its length in one of the two forms, and fits a receive buffer. -/
theorem form_of_parse {header : FrameHeader}
    (read : parse buffer capacity = .ok (some header)) :
    (∃ form : LengthForm, header.headerLength = form.headerSize ∧
        header.payloadLength ≤ form.most) ∧
      header.frameLength ≤ capacity := by
  unfold parse at read
  split at read
  · next first second rest =>
    dsimp only at read
    split at read
    · cases read
    · next long =>
      split at read
      · cases read
      · split at read
        · split at read
          · next high low rest =>
            obtain ⟨⟨size, length⟩, fits⟩ := complete_fits read
            have stated : high.toNat * 256 + low.toNat ≤ 65535 := by
              have high := high.toNat_lt
              have low := low.toNat_lt
              omega
            exact ⟨⟨.wide, size, le_of_eq_of_le length stated⟩, fits⟩
          · cases read
        · next wide =>
          obtain ⟨⟨size, length⟩, fits⟩ := complete_fits read
          have stated : (second &&& 0x7F).toNat ≤ 125 := by
            have below : (second &&& 0x7F).toNat ≤ 127 := by
              rw [UInt8.toNat_and]
              exact Nat.and_le_right
            have long : (second &&& 0x7F).toNat ≠ 127 := fun same => long (UInt8.toNat_inj.mp same)
            have wide : (second &&& 0x7F).toNat ≠ 126 := fun same => wide (UInt8.toNat_inj.mp same)
            omega
          exact ⟨⟨.short, size, le_of_eq_of_le length stated⟩, fits⟩
  · cases read

end FrameHeader

namespace MaskedFrame

variable {frame : MaskedFrame} {capacity : Nat}

/-- A whole frame is read as it was meant. -/
theorem parse_bytes (fits : frame.bytes.length ≤ capacity) (more : List UInt8) :
    FrameHeader.parse (frame.bytes ++ more) capacity = .ok (some frame.header) := by
  obtain ⟨fin, opcode, mask, form, payload, stated⟩ := frame
  obtain ⟨final, kind⟩ := first_bits ⟨fin, opcode, mask, form, payload, stated⟩
  rw [length_bytes] at fits
  simp only [header, FrameHeader.frameLength] at fits
  rw [← mask.length_cover] at fits
  have read := FrameHeader.complete_of_whole
    (first ⟨fin, opcode, mask, form, payload, stated⟩) mask fits more
  rw [final, kind, Mask.length_cover] at read
  cases form with
  | short =>
    have forms : ∀ count : Fin 126, (0x80 ||| count.val.toUInt8) &&& 0x7F = count.val.toUInt8 ∧
        (0x80 ||| count.val.toUInt8) &&& 0x80 ≠ 0 ∧ count.val.toUInt8 ≠ 127 ∧
        count.val.toUInt8 ≠ 126 ∧ count.val.toUInt8.toNat = count.val := by decide
    obtain ⟨low, masked, long, wide, count⟩ := forms ⟨payload.length, Nat.lt_succ_of_le stated⟩
    change FrameHeader.parse (_ :: _ :: (mask.bytes ++ mask.cover payload ++ more)) _ = _
    simp only [FrameHeader.parse]
    rw [low, if_neg long, if_neg masked, if_neg wide, count]
    exact read
  | wide =>
    have count : (payload.length / 256).toUInt8.toNat * 256 +
        (payload.length % 256).toUInt8.toNat = payload.length := by
      have bound : payload.length ≤ 65535 := stated
      simp only [Nat.toUInt8, UInt8.toNat_ofNat']
      omega
    change FrameHeader.parse (_ :: _ :: _ :: _ :: (mask.bytes ++ mask.cover payload ++ more)) _ = _
    simp only [FrameHeader.parse]
    rw [if_neg (by decide), if_neg (by decide), if_pos (by decide), count]
    exact read

theorem payload_bytes (frame : MaskedFrame) (more : List UInt8) :
    frame.header.payload (frame.bytes ++ more) = frame.payload := by
  have size := frame.mask.length_cover frame.payload
  rw [FrameHeader.payload, bytes, List.append_assoc]
  simp only [header]
  rw [← length_head, List.drop_left, ← size, List.take_left, Mask.unmask_cover]

/-- Nothing is known of a frame that has not wholly arrived: whatever was known would still be known
of the whole, and the whole is longer. -/
theorem parse_of_cut {part : List UInt8} (fits : frame.bytes.length ≤ capacity)
    (cut : part <+: frame.bytes) (short : part ≠ frame.bytes) :
    FrameHeader.parse part capacity = .ok none := by
  obtain ⟨missing, whole⟩ := cut
  have last := parse_bytes fits []
  rw [List.append_nil, ← whole] at last
  refine Classical.byContradiction fun decided => ?_
  have early := FrameHeader.parse_append rfl decided missing
  rw [last] at early
  have within := (FrameHeader.frameLength_bounds early.symm).2
  rw [← length_bytes, ← whole, List.length_append] at within
  have nothing : missing = [] := List.length_eq_zero_iff.mp (by omega)
  rw [nothing, List.append_nil] at whole
  exact short whole

/-- A frame of a client is read as it was meant, whatever stands behind it, and not before all of it
has arrived. Whatever is read lies in the buffer and fits it, and neither a frame nor an error that
was found at the front of a buffer changes with what arrives. -/
theorem read_when_whole (capacity : Nat) :
    (∀ frame : MaskedFrame, frame.bytes.length ≤ capacity →
      (∀ more, FrameHeader.parse (frame.bytes ++ more) capacity = .ok (some frame.header) ∧
        unmask frame.mask (((frame.bytes ++ more).drop frame.header.headerLength).take
          frame.header.payloadLength) = frame.payload) ∧
      ∀ part, part <+: frame.bytes → part ≠ frame.bytes →
        FrameHeader.parse part capacity = .ok none) ∧
    ∀ buffer answer, FrameHeader.parse buffer capacity = answer →
      (∀ header, answer = .ok (some header) →
        header.frameLength ≤ buffer.length ∧ header.frameLength ≤ capacity) ∧
      (answer ≠ .ok none → ∀ more, FrameHeader.parse (buffer ++ more) capacity = answer) := by
  constructor
  · intro frame fits
    exact ⟨fun more => ⟨parse_bytes fits more, frame.payload_bytes more⟩,
      fun part cut short => parse_of_cut fits cut short⟩
  · intro buffer answer read
    constructor
    · rintro header rfl
      exact ⟨(FrameHeader.frameLength_bounds read).2, (FrameHeader.form_of_parse read).2⟩
    · intro decided more
      exact FrameHeader.parse_append read decided more

/-- A ping of two bytes whose length takes sixteen bits, in a buffer that it just fits. -/
theorem wide_ping_read_when_whole :
    let ping : MaskedFrame := ⟨true, 9, ⟨1, 2, 3, 4⟩, .wide, [0x68, 0x69], by decide⟩
    ping.bytes = [0x89, 0xFE, 0, 2, 1, 2, 3, 4, 0x69, 0x6B] ∧
      FrameHeader.parse (ping.bytes ++ [0x88]) 10 =
        .ok (some ⟨true, 9, ⟨1, 2, 3, 4⟩, 8, 2⟩) ∧
      FrameHeader.parse [0x89, 0xFE, 0, 2, 1, 2, 3, 4, 0x69] 10 = .ok none := by
  intro ping
  have fits : ping.bytes.length ≤ 10 := by decide
  have cut : [0x89, 0xFE, 0, 2, 1, 2, 3, 4, 0x69] <+: ping.bytes := by decide
  obtain ⟨whole, partly⟩ := (read_when_whole 10).1 ping fits
  exact ⟨by decide, (whole [0x88]).1, partly _ cut (by decide)⟩

end MaskedFrame

end BoardNet.WebSocket
