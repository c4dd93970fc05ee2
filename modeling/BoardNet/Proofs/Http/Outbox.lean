import BoardNet.Http.Outbox
import BoardNet.Proofs.Trace

namespace BoardNet.Http.Outbox

open Poll

/-- Between two states of an outbox the controller took bytes from its front and nothing else
happened to it. -/
structure Fed (socket : SocketId) (trace : List Exchange) (before after : Outbox) : Prop where
  bytes : takenOn socket trace ++ after.toList = before.toList
  overflowed : after.overflowed = before.overflowed
  tail : before.tail = [] → after.tail = []

namespace Fed

variable {socket : SocketId} {trace later : List Exchange} {first second third : Outbox}

/-- Nothing was taken. -/
theorem refl (silent : takenOn socket trace = []) : Fed socket trace first first :=
  ⟨by rw [silent, List.nil_append], rfl, id⟩

theorem trans (one : Fed socket trace first second) (two : Fed socket later second third) :
    Fed socket (trace ++ later) first third where
  bytes := by rw [takenOn_append, List.append_assoc, two.bytes, one.bytes]
  overflowed := two.overflowed.trans one.overflowed
  tail empty := two.tail (one.tail empty)

/-- Only what the controller took matters. -/
theorem congr (fed : Fed socket trace first second)
    (same : takenOn socket later = takenOn socket trace) : Fed socket later first second where
  bytes := by rw [same, fed.bytes]
  overflowed := fed.overflowed
  tail := fed.tail

end Fed

/-- What stands at the front leaves first. -/
private theorem take_front_append_advance (out : Outbox) (count : Nat) :
    out.front.take count ++ (out.advance count).toList = out.toList := by
  unfold front advance toList
  split
  · next empty => simp [empty]
  · rw [← List.append_assoc, List.take_append_drop]

private theorem fed_advance (out : Outbox) {socket : SocketId} {trace : List Exchange} {count : Nat}
    (taken : takenOn socket trace = out.front.take count) :
    Fed socket trace out (out.advance count) where
  bytes := by rw [taken, take_front_append_advance]
  overflowed := by
    unfold advance
    split <;> rfl
  tail empty := by
    unfold advance
    split
    · simp [empty]
    · exact empty

private theorem sent_advance (out : Outbox) (count : Nat) :
    (out.advance count).sent = out.sent := by
  unfold advance
  split <;> rfl

/-- What one write took, of what was offered from the front. -/
private theorem taken_of_send (socket : SocketId) {data : List UInt8} {chunk free : Nat}
    (count : Fin (((data.take chunk).take free).length + 1)) :
    (Exchange.mk (.call (.send socket ((data.take chunk).take free))) count).taken socket =
      data.take count.val := by
  have bound : count.val ≤ ((data.take chunk).take free).length := Nat.le_of_lt_succ count.isLt
  simp only [List.length_take] at bound
  simp only [Exchange.taken, if_true, List.take_take]
  congr 1
  omega

/-- The moving of bytes, whatever the controller answers: it counts the bytes taken. -/
theorem path_drain {out : Outbox} {socket : SocketId} {chunk : Nat} {trace : List Exchange}
    {drained : Pumped out} (path : Path (out.drain socket chunk) trace drained) :
    Fed socket trace out drained.out ∧ drained.out.sent = out.sent ∧
      drained.moved = (takenOn socket trace).length := by
  induction out using drain.induct chunk generalizing trace with
  | case1 out ih =>
    rw [drain, path_bind] at path
    obtain ⟨asked, trace, free, rfl, asking, path⟩ := path
    obtain rfl := path_nic.mp asking
    dsimp only at path
    split at path
    · obtain ⟨rfl, rfl⟩ := path_done.mp path
      exact ⟨.refl rfl, rfl, rfl⟩
    · next some =>
      rw [path_bind] at path
      obtain ⟨sent, trace, taken, rfl, sending, path⟩ := path
      obtain rfl := path_nic.mp sending
      have within : taken.val ≤ out.front.length := by
        have most := taken.isLt
        simp only [List.length_take] at most
        omega
      have took := taken_of_send socket taken
      have once : takenOn socket ([⟨.call (.txFree socket), free⟩] ++
          [⟨.call (.send socket ((out.front.take chunk).take free)), taken⟩]) =
          out.front.take taken.val := by
        simp only [takenOn_append, takenOn_cons, takenOn_nil, took, List.append_nil]
        rfl
      have length := List.length_take_of_le within
      have fed := fed_advance out once
      split at path
      · obtain ⟨rfl, rfl⟩ := path_done.mp path
        rw [List.append_nil]
        exact ⟨fed, sent_advance out taken, by rw [once, length]⟩
      · next full =>
        rw [path_bind] at path
        obtain ⟨rest, _, later, rfl, draining, path⟩ := path
        obtain ⟨rfl, rfl⟩ := path_done.mp path
        obtain ⟨laterFed, laterSent, laterMoved⟩ := ih free some taken full draining
        rw [List.append_nil, ← List.append_assoc]
        refine ⟨fed.trans laterFed, laterSent.trans (sent_advance out taken), ?_⟩
        rw [takenOn_append, once, List.length_append, length, ← laterMoved]

/-- Pumping counts in the outbox the bytes that the controller took. -/
theorem path_pump {out : Outbox} {socket : SocketId} {chunk : Nat} {trace : List Exchange}
    {pumped : Pumped out} (path : Path (out.pump socket chunk) trace pumped) :
    Fed socket trace out pumped.out ∧
      pumped.out.sent = out.sent + (takenOn socket trace).length ∧
      pumped.moved = (takenOn socket trace).length := by
  rw [pump, path_bind] at path
  obtain ⟨trace, _, drained, rfl, draining, path⟩ := path
  obtain ⟨rfl, rfl⟩ := path_done.mp path
  obtain ⟨fed, sent, moved⟩ := path_drain draining
  rw [List.append_nil]
  exact ⟨⟨fed.bytes, fed.overflowed, fed.tail⟩, by rw [← moved, ← sent], moved⟩

/-- An outbox holds what is left of a response: of the bytes `made`, the controller took the bytes
`taken` and the others wait, in order, unless some were lost. -/
structure Holds (made taken : List UInt8) (out : Outbox) : Prop where
  sent : out.sent = taken.length
  bytes : out.overflowed = false → taken ++ out.toList = made

namespace Holds

variable {made taken : List UInt8} {out pumped : Outbox} {socket : SocketId} {trace : List Exchange}

/-- At first nothing was made. -/
theorem empty : Holds [] [] {} := ⟨rfl, fun _ => rfl⟩

/-- Bytes that the controller takes go from the waiting ones to the taken ones. -/
theorem fed (holds : Holds made taken out) (fed : Fed socket trace out pumped)
    (sent : pumped.sent = out.sent + (takenOn socket trace).length) :
    Holds made (taken ++ takenOn socket trace) pumped where
  sent := by rw [sent, holds.sent, List.length_append]
  bytes whole := by
    rw [fed.overflowed] at whole
    rw [List.append_assoc, fed.bytes, holds.bytes whole]

end Holds

end BoardNet.Http.Outbox
