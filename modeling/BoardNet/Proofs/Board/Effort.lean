import BoardNet.Proofs.Http.Accounting
import BoardNet.Proofs.Http.Effort
import BoardNet.Proofs.WebSocket.Noting

namespace BoardNet

open Http Http.Server

/-- Every loop ends on every input and in every state, within bounds that do not depend on what the
controller answers, even if it reports bytes or space for ever. Pumping is bounded by what waits in
the outbox, a write by that and its own bytes, the reading of a request by the bytes that a request
can have, and that of frames by the bytes received. Over all the updates in which a request is read
it is fed no more often than it can have bytes. -/
theorem loops_end {E C A : Type} :
    (∀ (out : Outbox) (socket : SocketId) (chunk : Nat),
      (out.pump socket chunk).EndsWithin (2 * out.pending + 1)) ∧
    (∀ (responder : Responder) (data : List UInt8),
      (responder.write data).EndsWithin (6 * data.length + 4 * responder.out.pending + 2)) ∧
    (∀ (request : Request) (socket : SocketId),
      (readRequest request socket).EndsWithin (2 * (maxHead + maxBody) + 2)) ∧
    (∀ (turn : WebSocket.Turn A) (handler : WebSocket.MessageHandler A) (socket : SocketId)
        (now : Millis) (received : List UInt8),
      Prod.fst <$> turn.readFramesNoting handler socket now received =
          turn.readFrames handler socket now received ∧
        (turn.readFramesNoting handler socket now received).value.2.length ≤
          received.length / 6 + 1) ∧
    ∀ {handlers : E → Handler C} {start server : Server E} {socket : SocketId}
        {history : List (Deed E C)}, Course handlers start socket history server →
      feedsOn socket (engineOf history) ≤ maxHead + maxBody := by
  refine ⟨?_, ?_, ?_, ?_, fun course => course.feeding.most⟩
  · intro out socket chunk
    exact Poll.endsWithin_iff.mpr fun trace pumped path => (Outbox.calls_pump path).2
  · intro responder data
    exact Poll.endsWithin_iff.mpr fun trace written path => Responder.calls_write path
  · intro request socket
    refine Poll.endsWithin_iff.mpr fun trace result path => ?_
    have fetches := path_readRequest path
    have calls := fetches.calls
    have feeds := fetches.feeds_le
    omega
  · intro turn handler socket now received
    exact ⟨turn.fst_readFramesNoting handler socket now received,
      turn.length_events_readFramesNoting_le handler socket now received⟩

/-- So it is with a caller that is accepted and then heard. -/
theorem caller_fed_within :
    let handlers : Empty → Handler Unit := nofun
    ∃ (history : List (Deed Empty Unit)) (heard : Server Empty), history.length = 1 ∧
      Course handlers {} ⟨0, by decide⟩ history heard ∧
        feedsOn ⟨0, by decide⟩ (engineOf history) ≤ maxHead + maxBody := by
  intro handlers
  let accepted := (({} : Server Empty).update handlers (linkThatIs true) () 0).run
    Sim.Controller.chip calledUpon
  have receiving : accepted.value.1.phase = .receiving ⟨0, by decide⟩ := by decide +kernel
  have course : Course handlers {} ⟨0, by decide⟩ [] accepted.value.1 := .of_run rfl rfl receiving
  obtain ⟨deed, heard⟩ := course.run (by rw [receiving]; exact nofun)
    (rfl : _ = (accepted.value.1.update handlers (linkThatIs true) () 1).run Sim.Controller.chip
      accepted.state)
  obtain ⟨-, -, -, -, fed⟩ := loops_end (E := Empty) (C := Unit) (A := Unit)
  exact ⟨_, _, rfl, heard, fed heard⟩

end BoardNet
