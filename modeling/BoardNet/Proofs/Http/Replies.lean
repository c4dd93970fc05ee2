import BoardNet.Proofs.Http.Delivery
import BoardNet.Proofs.Http.ResponseHead

/-!
Replies: calls that make a whole response at once. The first one of a handler is the response. A
later one is refused, but if its body is copied then that is added all the same, so a response is as
long as its head says exactly if no later reply has a body to copy.
-/

namespace BoardNet.Http

open Poll

namespace Responder

variable {responder after : Responder} {data : List UInt8} {trace : List Exchange}

/-- What goes on record when a second head is asked for. -/
def secondHead : Effect := .record ⟨.warn, "http: response header sent twice"⟩

/-- Writing does not ask for a second head. -/
theorem timesAsked_write (path : Path (responder.write data) trace after) :
    timesAsked secondHead trace = 0 := by
  have other (socket : SocketId) (count : Nat) :
      Effect.record ⟨.warn, s!"http: socket {socket.val} outbox full, {count} bytes lost"⟩ ≠
        secondHead := by
    intro same
    injection same with same
    have begin := congrArg (fun record : Log.Record => record.text.toList.take 7) same
    simp [toString] at begin
  have asks : (responder.write data).Asks (· ≠ secondHead) :=
    asks_push (fun _ => nofun) (fun _ _ => nofun) other
  exact timesAsked_eq_zero (path.effect_allowed asks)

theorem path_refused (path : Path responder.refuseSecondHead trace after) :
    timesAsked secondHead trace = 1 ∧ after = responder := by
  rw [refuseSecondHead, path_log_bind] at path
  obtain ⟨rest, rfl, path⟩ := path
  obtain ⟨rfl, same⟩ := path_done.mp path
  exact ⟨rfl, same⟩

/-- A head is refused exactly where there is one. -/
theorem timesAsked_sendHead {code : Code} {contentType : String} {length : Option Nat}
    (path : Path (responder.sendHead code contentType length) trace after) :
    timesAsked secondHead trace = if responder.status.isSome then 1 else 0 := by
  unfold sendHead at path
  split at path
  · next second => rw [if_pos second, (path_refused path).1]
  · next first => rw [if_neg first, timesAsked_write path]

end Responder

/-- A call of a handler on its responder, with the exchanges that were made for it. -/
structure Call where
  operation : Operation
  before : Responder
  trace : List Exchange
  after : Responder

def Call.bytes (call : Call) : List UInt8 := call.operation.bytes call.before

namespace Conduct

variable {A : Type}

/-- How a conduct can go: the calls that are made, among all exchanges, and how it ends. -/
inductive Goes : Conduct A → Responder → List Call → List Exchange → Responder → A → Prop where
  | finished (result : A) (responder : Responder) :
      Goes (.finished result) responder [] [] responder result
  | operate {operation : Operation} {next : Responder → Conduct A}
      {responder after ended : Responder} {calls : List Call} {trace later : List Exchange}
      {result : A} (path : Path (operation.perform responder) trace after)
      (rest : Goes (next after) after calls later ended result) :
      Goes (.operate operation next) responder (⟨operation, responder, trace, after⟩ :: calls)
        (trace ++ later) ended result
  | ask {effect : Effect} {silent : effect.isSend = false} {next : effect.Answer → Conduct A}
      {responder ended : Responder} {calls : List Call} {later : List Exchange} {result : A}
      (answer : effect.Answer) (rest : Goes (next answer) responder calls later ended result) :
      Goes (.ask effect silent next) responder calls (⟨effect, answer⟩ :: later) ended result

/-- On every path a conduct makes some calls, and the bytes made are theirs. -/
theorem exists_goes {conduct : Conduct A} {responder ended : Responder} {trace : List Exchange}
    {result : A} {made : List UInt8}
    (path : Path (conduct.play responder) trace (ended, result, made)) :
    ∃ calls, conduct.Goes responder calls trace ended result ∧ made = calls.flatMap Call.bytes := by
  induction conduct generalizing responder trace made with
  | finished value =>
    obtain ⟨rfl, same⟩ := path_done.mp path
    cases same
    exact ⟨[], .finished _ _, rfl⟩
  | operate operation next ih =>
    rw [play, path_bind] at path
    obtain ⟨trace, later, after, rfl, performing, path⟩ := path
    rw [path_bind] at path
    obtain ⟨later, _, ⟨_, _, _⟩, rfl, playing, path⟩ := path
    obtain ⟨rfl, same⟩ := path_done.mp path
    cases same
    obtain ⟨calls, goes, rfl⟩ := ih after playing
    rw [List.append_nil]
    exact ⟨_, .operate performing goes, rfl⟩
  | ask effect silent next ih =>
    rw [play, path_ask] at path
    obtain ⟨answer, trace, rfl, playing⟩ := path
    obtain ⟨calls, goes, rfl⟩ := ih answer playing
    exact ⟨calls, .ask answer goes, rfl⟩

end Conduct

/-- A whole response in one call: a status, a content type, and a body that is copied or fixed. -/
structure Reply where
  code : Code
  contentType : String
  body : List UInt8
  copied : Bool

namespace Reply

def head (reply : Reply) : List UInt8 :=
  Text.bytes (Responder.headText reply.code reply.contentType (some reply.body.length))

/-- What a reply adds to a response that has a head. -/
def surplus (reply : Reply) : List UInt8 := if reply.copied then reply.body else []

/-- These bytes are one response, with the head of a reply and as many bytes behind it as the head
says. -/
def Alone (reply : Reply) (made : List UInt8) : Prop :=
  ∃ block body, made = block ++ body ∧
    Responder.IsHead reply.code reply.contentType (some reply.body.length) block ∧
    body.length = reply.body.length

end Reply

namespace Operation

/-- The reply that an operation is, if it is one. -/
def reply? : Operation → Option Reply
  | .write _ | .head _ _ _ => none
  | .send code contentType body => some ⟨code, contentType, body, true⟩
  | .sendText code contentType body => some ⟨code, contentType, Text.bytes body, true⟩
  | .sendFixed code contentType body => some ⟨code, contentType, body, false⟩

variable {operation : Operation} {responder after : Responder} {reply : Reply}
  {trace : List Exchange}

theorem bytes_of_first (replies : operation.reply? = some reply)
    (headless : responder.status = none) :
    operation.bytes responder = reply.head ++ reply.body := by
  cases operation <;> cases replies <;> simp [bytes, Responder.headBytes, headless, Reply.head]

theorem bytes_of_later (replies : operation.reply? = some reply)
    (begun : responder.status.isSome = true) : operation.bytes responder = reply.surplus := by
  cases operation <;> cases replies <;> simp [bytes, Responder.headBytes, begun, Reply.surplus]

variable {code : Code} {contentType : String} {body : List UInt8} {made taken : List UInt8}

private theorem path_copied (path : Path (responder.send code contentType body) trace after)
    (holds : responder.Holds made taken) :
    after.status.isSome ∧
      timesAsked Responder.secondHead trace = if responder.status.isSome then 1 else 0 := by
  rw [Responder.send, path_bind] at path
  obtain ⟨trace, later, begun, rfl, heading, writing⟩ := path
  obtain ⟨headed, -, status⟩ := Responder.path_sendHead heading holds
  obtain ⟨-, -, same⟩ := Responder.path_write writing headed
  rw [timesAsked_append, Responder.timesAsked_sendHead heading, Responder.timesAsked_write writing,
    same]
  exact ⟨status, rfl⟩

private theorem path_fixed (path : Path (responder.sendFixed code contentType body) trace after)
    (holds : responder.Holds made taken) :
    after.status.isSome ∧
      timesAsked Responder.secondHead trace = if responder.status.isSome then 1 else 0 := by
  unfold Responder.sendFixed at path
  split at path
  · next second =>
    obtain ⟨asked, rfl⟩ := Responder.path_refused path
    rw [if_pos second]
    exact ⟨second, asked⟩
  · next first =>
    rw [path_bind] at path
    obtain ⟨trace, later, begun, rfl, heading, path⟩ := path
    obtain ⟨rfl, rfl⟩ := path_done.mp path
    rw [List.append_nil, Responder.timesAsked_sendHead heading]
    exact ⟨(Responder.path_sendHead heading holds).2.2, rfl⟩

/-- After a reply there is a head, and the reply is refused exactly if there was one before. -/
theorem path_reply (replies : operation.reply? = some reply)
    (path : Path (operation.perform responder) trace after) (holds : responder.Holds made taken) :
    after.status.isSome ∧
      timesAsked Responder.secondHead trace = if responder.status.isSome then 1 else 0 := by
  cases operation with
  | write data => cases replies
  | head code contentType length => cases replies
  | send code contentType body => exact path_copied path holds
  | sendText code contentType body => exact path_copied path holds
  | sendFixed code contentType body => exact path_fixed path holds

end Operation

/-- A reply that was refused, and added its body even so if that is copied. -/
def Call.IsRefused (call : Call) : Prop :=
  ∃ reply, call.operation.reply? = some reply ∧ call.bytes = reply.surplus ∧
    timesAsked Responder.secondHead call.trace = 1

/-- A reply that made its head and its body. -/
def Call.IsAnswer (call : Call) (reply : Reply) : Prop :=
  call.operation.reply? = some reply ∧ call.bytes = reply.head ++ reply.body ∧
    timesAsked Responder.secondHead call.trace = 0

namespace Conduct

variable {A : Type} {conduct : Conduct A} {responder ended : Responder} {calls : List Call}
  {trace : List Exchange} {result : A} {made taken : List UInt8}

/-- All calls on the responder are replies. -/
def OnlyReplies : Conduct A → Prop
  | .finished _ => True
  | .operate operation next => operation.reply?.isSome ∧ ∀ after, (next after).OnlyReplies
  | .ask _ _ next => ∀ answer, (next answer).OnlyReplies

/-- Once there is a head every reply is refused. -/
theorem Goes.refused (goes : conduct.Goes responder calls trace ended result)
    (only : conduct.OnlyReplies) (begun : responder.status.isSome)
    (holds : responder.Holds made taken) : ∀ call ∈ calls, call.IsRefused := by
  induction goes generalizing made taken with
  | finished result responder => exact fun _ member => nomatch member
  | operate path rest ih =>
    obtain ⟨reply, replies⟩ := Option.isSome_iff_exists.mp only.1
    obtain ⟨status, asked⟩ := Operation.path_reply replies path holds
    obtain ⟨held, -⟩ := Operation.path_perform path holds
    refine List.forall_mem_cons.mpr ⟨⟨reply, replies, ?_, ?_⟩, ih (only.2 _) status held⟩
    · exact Operation.bytes_of_later replies begun
    · rw [asked, if_pos begun]
  | ask answer rest ih => exact ih (only answer) begun holds

/-- The first reply makes the response, and the others are refused. -/
theorem Goes.answered (goes : conduct.Goes responder calls trace ended result)
    (only : conduct.OnlyReplies) (headless : responder.status = none)
    (holds : responder.Holds made taken) :
    calls = [] ∨ ∃ first later reply, calls = first :: later ∧ first.IsAnswer reply ∧
      ∀ call ∈ later, call.IsRefused := by
  induction goes with
  | finished result responder => exact .inl rfl
  | operate path rest ih =>
    obtain ⟨reply, replies⟩ := Option.isSome_iff_exists.mp only.1
    obtain ⟨status, asked⟩ := Operation.path_reply replies path holds
    obtain ⟨held, -⟩ := Operation.path_perform path holds
    refine .inr ⟨_, _, reply, rfl, ⟨replies, ?_, ?_⟩, rest.refused (only.2 _) status held⟩
    · exact Operation.bytes_of_first replies headless
    · rw [asked, headless]
      rfl
  | ask answer rest ih => exact ih (only answer) headless holds

end Conduct

/-- One response is what its head and body are, and nothing behind them. -/
theorem Reply.alone_append_iff {reply : Reply} {rest : List UInt8}
    (unbroken : '\r' ∉ reply.contentType.toList)
    (fits : Responder.HeadFits reply.code reply.contentType (some reply.body.length)) :
    reply.Alone (reply.head ++ reply.body ++ rest) ↔ rest = [] := by
  have whole : Responder.IsHead reply.code reply.contentType (some reply.body.length) reply.head :=
    (Responder.isHead_headText_iff unbroken).mpr fits
  constructor
  · rintro ⟨block, body, same, head, length⟩
    rw [head.eq, ← whole.eq, List.append_assoc] at same
    have sizes := congrArg List.length (List.append_cancel_left same)
    rw [List.length_append] at sizes
    exact List.eq_nil_of_length_eq_zero (by omega)
  · rintro rfl
    exact ⟨reply.head, reply.body, List.append_nil _, whole, rfl⟩

/-- A response is the first reply, and one response alone exactly if no later reply has a body to
copy. Whatever the controller does, a handler that only replies makes the head and the body of its
first reply and behind them the copied bodies of all others, though each of those is refused on
record. Where the head fits, that is the head and as many bytes as it says exactly if those bodies
are all empty. -/
theorem first_reply_alone_iff {A : Type} {conduct : Conduct A} {socket : SocketId} {chunk : Nat}
    {network : Link.Status} {stats : Stats} {trace : List Exchange} {ended : Responder} {result : A}
    {made : List UInt8} (only : conduct.OnlyReplies)
    (playing : Path (conduct.play (.start socket chunk {} network stats)) trace
      (ended, result, made)) :
    ∃ calls, conduct.Goes (.start socket chunk {} network stats) calls trace ended result ∧
      ended.Holds made (takenOn socket trace) ∧
      (calls = [] ∧ made = [] ∨
        ∃ first later reply, calls = first :: later ∧ first.IsAnswer reply ∧
          (∀ call ∈ later, call.IsRefused) ∧
          made = reply.head ++ reply.body ++ later.flatMap Call.bytes ∧
          ('\r' ∉ reply.contentType.toList ∧ '\n' ∉ reply.contentType.toList →
            Responder.HeadFits reply.code reply.contentType (some reply.body.length) →
            (reply.Alone made ↔ ∀ call ∈ later, call.bytes = []))) := by
  have start := Responder.holds_start socket chunk network stats
  obtain ⟨calls, goes, same⟩ := Conduct.exists_goes playing
  obtain ⟨held, -⟩ := Conduct.path_play playing start
  refine ⟨calls, goes, held, ?_⟩
  rcases goes.answered only rfl start with none | ⟨first, later, reply, rfl, answer, refused⟩
  · exact .inl ⟨none, by rw [same, none]; rfl⟩
  · have made : made = reply.head ++ reply.body ++ later.flatMap Call.bytes := by
      rw [same, List.flatMap_cons, answer.2.1]
    refine .inr ⟨first, later, reply, rfl, answer, refused, made, fun line fits => ?_⟩
    rw [made, Reply.alone_append_iff line.1 fits, List.flatMap_eq_nil_iff]

/-- A handler that answers with one text and then with another. -/
def twoTexts : Conduct Unit :=
  .operate (.sendText 200 "text/plain" "one") fun _ => .once (.sendText 200 "text/plain" "two") ()

def firstText : Reply := ⟨200, "text/plain", Text.bytes "one", true⟩

/-- The second text is refused and added, so the two are not one response. -/
theorem two_texts_made :
    twoTexts.OnlyReplies ∧ ∃ (trace : List Exchange) (ended : Responder) (made : List UInt8),
      ended.Holds made (takenOn ⟨0, by decide⟩ trace) ∧
      made = firstText.head ++ Text.bytes "one" ++ Text.bytes "two" ∧ ¬firstText.Alone made := by
  have only : twoTexts.OnlyReplies := ⟨rfl, fun _ => ⟨rfl, fun _ => trivial⟩⟩
  refine ⟨only, ?_⟩
  let begun : Responder := .start ⟨0, by decide⟩ 2048 {} (Server.linkThatIs true) {}
  obtain ⟨trace, ⟨ended, _, made⟩, playing⟩ : ∃ trace end',
      Path (twoTexts.play begun) trace end' :=
    ⟨_, _, path_run Sim.Controller.chip _ Server.calledUpon⟩
  obtain ⟨calls, goes, held, outcome⟩ := first_reply_alone_iff only playing
  cases goes with
  | operate one rest =>
    cases rest with
    | operate two rest =>
      cases rest
      obtain ⟨none, -⟩ | ⟨first, later, reply, same, answer, refused, total, alone⟩ := outcome
      · cases none
      · cases same
        obtain ⟨replies, -⟩ := answer
        cases replies
        have second := refused _ List.mem_cons_self
        obtain ⟨reply, replies, bytes, -⟩ := second
        cases replies
        have whole : made = firstText.head ++ Text.bytes "one" ++ Text.bytes "two" := by
          rw [total, List.flatMap_singleton, bytes]
          rfl
        refine ⟨_, ended, made, held, whole, fun single => ?_⟩
        have nothing := (alone ⟨by decide, by decide⟩ (by decide +kernel)).mp single _
          List.mem_cons_self
        exact absurd (bytes.symm.trans nothing) (by decide)

end BoardNet.Http
