import BoardNet.Http.Responder
import BoardNet.Proofs.Http.Outbox

namespace BoardNet.Http

open Poll

namespace Outbox

/-- Copied bytes come behind all that waits. -/
theorem toList_stage (out : Outbox) (data : List UInt8) :
    (out.stage data).toList = out.toList ++ data.take (min data.length out.space) := by
  unfold stage toList space
  split
  · next empty =>
    simp [empty, Nat.min_comm]
  · simp

end Outbox

namespace Responder

variable {responder after : Responder} {trace : List Exchange}
  {made taken data kept lost : List UInt8}

/-- What pushing some bytes does, of which the outbox takes in the first ones and loses the others:
they come behind those that wait already, and nothing but the outbox changes. -/
structure Pushed (trace : List Exchange) (kept lost : List UInt8) (responder after : Responder) :
    Prop where
  frame : after = { responder with out := after.out }
  tail : responder.out.tail = [] → after.out.tail = []
  sent : after.out.sent = responder.out.sent + (takenOn responder.socket trace).length
  bytes : takenOn responder.socket trace ++ after.out.toList = responder.out.toList ++ kept
  overflowed : after.out.overflowed = (responder.out.overflowed || !lost.isEmpty)

/-- Staging comes before the rest of a push. -/
private theorem Pushed.staged {staged : List UInt8} (data : List UInt8)
    (space : data.take (min data.length responder.out.space) = staged)
    (pushed : Pushed trace kept lost { responder with out := responder.out.stage data } after) :
    Pushed trace (staged ++ kept) lost responder after where
  frame := pushed.frame
  tail := pushed.tail
  sent := pushed.sent
  bytes := by
    have bytes := pushed.bytes
    rwa [Outbox.toList_stage, space, List.append_assoc] at bytes
  overflowed := pushed.overflowed

/-- So does a pump. -/
private theorem Pushed.pumped {before : List Exchange} {out : Outbox}
    (fed : Outbox.Fed responder.socket before responder.out out)
    (sent : out.sent = responder.out.sent + (takenOn responder.socket before).length)
    (pushed : Pushed trace kept lost { responder with out } after) :
    Pushed (before ++ trace) kept lost responder after where
  frame := pushed.frame
  tail empty := pushed.tail (fed.tail empty)
  sent := by
    rw [pushed.sent, takenOn_append, List.length_append, ← Nat.add_assoc]
    exact congrArg (· + _) sent
  bytes := by
    rw [takenOn_append, List.append_assoc, pushed.bytes, ← List.append_assoc]
    exact congrArg (· ++ _) fed.bytes
  overflowed := by
    rw [pushed.overflowed]
    exact congrArg (· || _) fed.overflowed

theorem path_pushed (path : Path (responder.push data) trace after) :
    ∃ kept lost, data = kept ++ lost ∧ Pushed trace kept lost responder after := by
  induction responder, data using push.induct generalizing trace with
  | case1 responder =>
    rw [push] at path
    obtain ⟨rfl, rfl⟩ := path_done.mp path
    exact ⟨[], [], rfl, rfl, id, rfl, by simp, by simp⟩
  | case2 responder data some staged out =>
    rename_i full ih
    rw [push, if_neg some] at path
    dsimp only at path
    rw [if_pos full, path_bind] at path
    obtain ⟨before, rest, pumped, rfl, pumping, path⟩ := path
    obtain ⟨fed, sent, moved⟩ := Outbox.path_pump pumping
    split at path
    · next stuck =>
      have flagged : takenOn responder.socket rest = [] ∧
          after = { responder with out := { pumped.out with overflowed := true } } := by
        split at path
        · rw [path_log_bind] at path
          obtain ⟨rest, rfl, path⟩ := path
          obtain ⟨rfl, rfl⟩ := path_done.mp path
          exact ⟨rfl, rfl⟩
        · obtain ⟨rfl, rfl⟩ := path_done.mp path
          exact ⟨rfl, rfl⟩
      obtain ⟨silent, rfl⟩ := flagged
      have nothing : data.take (min data.length responder.out.space) = [] := by
        rw [stuck.1, List.take_zero]
      refine ⟨[], data, rfl, .staged data nothing (.pumped fed sent ?_)⟩
      exact ⟨rfl, id, by simp [silent], by simp [silent, Outbox.toList], by simp [some]⟩
    · next going =>
      obtain ⟨kept, lost, whole, pushed⟩ := ih pumped going path
      refine ⟨data.take staged ++ kept, lost, ?_, .staged data rfl (.pumped fed sent pushed)⟩
      rw [List.append_assoc, ← whole, List.take_append_drop]
  | case3 responder data some staged out =>
    rename_i spare ih
    rw [push, if_neg some] at path
    dsimp only at path
    rw [if_neg spare] at path
    obtain ⟨kept, lost, whole, pushed⟩ := ih path
    refine ⟨data.take staged ++ kept, lost, ?_, .staged data rfl pushed⟩
    rw [List.append_assoc, ← whole, List.take_append_drop]

/-- Bytes that are pushed come behind those made before, and nothing but the outbox changes. -/
theorem path_push (path : Path (responder.push data) trace after)
    (holds : responder.out.Holds made taken) :
    after = { responder with out := after.out } ∧
      (responder.out.tail = [] → after.out.tail = []) ∧
      after.out.Holds (made ++ data) (taken ++ takenOn responder.socket trace) := by
  obtain ⟨kept, lost, rfl, pushed⟩ := path_pushed path
  refine ⟨pushed.frame, pushed.tail, ?_, fun whole => ?_⟩
  · rw [pushed.sent, holds.sent, List.length_append]
  · have both := pushed.overflowed.symm.trans whole
    rw [Bool.or_eq_false_iff, Bool.not_eq_false', List.isEmpty_iff] at both
    rw [List.append_assoc, pushed.bytes, ← List.append_assoc, holds.bytes both.1, both.2,
      List.append_nil]

/-- Nothing of what the buffer has space for is lost. -/
theorem overflowed_push (path : Path (responder.push data) trace after)
    (space : data.length ≤ responder.out.space) :
    after.out.overflowed = responder.out.overflowed := by
  unfold push at path
  split at path
  · next empty =>
    obtain ⟨-, rfl⟩ := path_done.mp path
    rfl
  · next some =>
    have all : min data.length responder.out.space = data.length := Nat.min_eq_left space
    have positive : ¬data.length = 0 := mt List.eq_nil_of_length_eq_zero some
    simp only [all, positive, false_and, false_or, List.drop_length, dite_false] at path
    split at path
    · rw [path_bind] at path
      obtain ⟨before, rest, pumped, rfl, pumping, path⟩ := path
      obtain ⟨fed, -, -⟩ := Outbox.path_pump pumping
      rw [push, if_pos rfl] at path
      obtain ⟨-, rfl⟩ := path_done.mp path
      exact fed.overflowed
    · rw [push, if_pos rfl] at path
      obtain ⟨-, rfl⟩ := path_done.mp path
      rfl

/-- What waits is afterwards longer by no more than the bytes that were pushed. -/
theorem length_push_le (path : Path (responder.push data) trace after) :
    after.out.toList.length ≤ responder.out.toList.length + data.length := by
  obtain ⟨kept, lost, rfl, pushed⟩ := path_pushed path
  have lengths := congrArg List.length pushed.bytes
  simp only [List.length_append] at lengths ⊢
  omega

/-- A response of which the bytes `made` were made and the controller took the bytes `taken`. There
is no fixed body before there is a head. -/
structure Holds (made taken : List UInt8) (responder : Responder) : Prop where
  out : responder.out.Holds made taken
  produced : responder.produced = made.length
  tail : responder.status = none → responder.out.tail = []

/-- A response that has not begun. -/
theorem holds_start (socket : SocketId) (chunk : Nat) (network : Link.Status) (stats : Stats) :
    (start socket chunk {} network stats).Holds [] [] :=
  ⟨.empty, rfl, fun _ => rfl⟩

/-- The bytes of a head, which are made only once. -/
def headBytes (responder : Responder) (code : Code) (contentType : String) (length : Option Nat) :
    List UInt8 :=
  if responder.status.isSome then [] else Text.bytes (headText code contentType length)

theorem path_write (path : Path (responder.write data) trace after)
    (holds : responder.Holds made taken) :
    after.Holds (made ++ data) (taken ++ takenOn responder.socket trace) ∧
      after.socket = responder.socket ∧ after.status = responder.status := by
  obtain ⟨frame, tail, out⟩ := path_push path holds.out
  rw [frame]
  refine ⟨⟨out, ?_, fun headless => tail (holds.tail headless)⟩, rfl, rfl⟩
  rw [List.length_append, ← holds.produced]

private theorem path_refuseSecondHead (path : Path responder.refuseSecondHead trace after)
    (holds : responder.Holds made taken) :
    after.Holds made (taken ++ takenOn responder.socket trace) ∧ after = responder := by
  rw [refuseSecondHead, path_bind] at path
  obtain ⟨said, rest, _, rfl, saying, path⟩ := path
  obtain ⟨rfl, rfl⟩ := path_done.mp path
  obtain rfl := path_log.mp saying
  refine ⟨?_, rfl⟩
  rw [takenOn_append, takenOn_nil, List.append_nil, takenOn_eq_nil _ (by simp [Effect.isSend]),
    List.append_nil]
  exact holds

theorem path_sendHead {code : Code} {contentType : String} {length : Option Nat}
    (path : Path (responder.sendHead code contentType length) trace after)
    (holds : responder.Holds made taken) :
    after.Holds (made ++ responder.headBytes code contentType length)
        (taken ++ takenOn responder.socket trace) ∧
      after.socket = responder.socket ∧ after.status.isSome := by
  unfold sendHead at path
  unfold headBytes
  split at path
  · next second =>
    obtain ⟨kept, rfl⟩ := path_refuseSecondHead path holds
    rw [if_pos second, List.append_nil]
    exact ⟨kept, rfl, second⟩
  · next first =>
    have headless : responder.status = none := Option.not_isSome_iff_eq_none.mp first
    obtain ⟨written, socket, status⟩ := path_write path
      ⟨holds.out, holds.produced, fun _ => holds.tail headless⟩
    rw [if_neg first]
    exact ⟨written, socket, by rw [status]; rfl⟩

theorem path_send {code : Code} {contentType : String} {body : List UInt8}
    (path : Path (responder.send code contentType body) trace after)
    (holds : responder.Holds made taken) :
    after.Holds (made ++ (responder.headBytes code contentType (some body.length) ++ body))
        (taken ++ takenOn responder.socket trace) ∧
      after.socket = responder.socket := by
  rw [send, path_bind] at path
  obtain ⟨trace, later, begun, rfl, heading, writing⟩ := path
  obtain ⟨headed, socket, -⟩ := path_sendHead heading holds
  obtain ⟨written, kept, -⟩ := path_write writing headed
  rw [socket, List.append_assoc, List.append_assoc, ← takenOn_append] at written
  exact ⟨written, kept.trans socket⟩

/-- A fixed body comes behind the head. It replaces no other, for there was no head before. -/
theorem path_sendFixed {code : Code} {contentType : String} {body : List UInt8}
    (path : Path (responder.sendFixed code contentType body) trace after)
    (holds : responder.Holds made taken) :
    after.Holds
        (made ++ if responder.status.isSome then []
          else responder.headBytes code contentType (some body.length) ++ body)
        (taken ++ takenOn responder.socket trace) ∧
      after.socket = responder.socket := by
  unfold sendFixed at path
  split at path
  · next second =>
    obtain ⟨kept, rfl⟩ := path_refuseSecondHead path holds
    rw [if_pos second, List.append_nil]
    exact ⟨kept, rfl⟩
  · next first =>
    rw [path_bind] at path
    obtain ⟨trace, later, begun, rfl, heading, path⟩ := path
    obtain ⟨rfl, rfl⟩ := path_done.mp path
    have headless : responder.status = none := Option.not_isSome_iff_eq_none.mp first
    unfold sendHead at heading
    rw [if_neg first] at heading
    have tail := (path_push heading holds.out).2.1 (holds.tail headless)
    obtain ⟨headed, socket, status⟩ := path_write heading
      ⟨holds.out, holds.produced, fun _ => holds.tail headless⟩
    rw [if_neg first, List.append_nil, headBytes, if_neg first, ← List.append_assoc]
    refine ⟨⟨⟨headed.out.sent, fun whole => ?_⟩, ?_, fun none => ?_⟩, socket⟩
    · have bytes := headed.out.bytes whole
      rw [Outbox.toList, tail, List.append_nil] at bytes
      rw [Outbox.toList, ← List.append_assoc, bytes]
    · simp only [headed.produced, List.length_append]
    · exact absurd (status.symm.trans none) (Option.some_ne_none code)

/-- Finishing only moves waiting bytes. -/
theorem path_finish (path : Path responder.finish trace after) :
    Outbox.Fed responder.socket trace responder.out after.out ∧
      after.out.sent = responder.out.sent + (takenOn responder.socket trace).length ∧
      after = { responder with out := after.out } := by
  rw [finish, path_bind] at path
  obtain ⟨trace, _, pumped, rfl, pumping, path⟩ := path
  obtain ⟨rfl, rfl⟩ := path_done.mp path
  obtain ⟨fed, sent, -⟩ := Outbox.path_pump pumping
  rw [List.append_nil]
  exact ⟨fed, sent, rfl⟩

end Responder

end BoardNet.Http
