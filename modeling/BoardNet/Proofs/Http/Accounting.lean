import BoardNet.Proofs.Http.Course
import BoardNet.Sim.Controller

namespace BoardNet.Http.Server

open Poll

variable {E C : Type}

/-- A routed handler or a fixed file made the one answer, and nothing of it was lost. -/
def AnsweredWhole (history : List (Deed E C)) : Prop :=
  ∃ answer found, answersOf history = [answer] ∧ answer.reached = .route found ∧
    answer.ended.out.overflowed = false

variable {start server : Server E} {socket : SocketId} {history : List (Deed E C)}

private theorem Settled.counts (settled : Settled start history server) :
    Counted start server 0 1 ∨ Counted start server 1 0 ∧ AnsweredWhole history := by
  cases settled with
  | success only routed whole counted => exact .inr ⟨counted, _, _, only, routed, whole⟩
  | failure most counted => exact .inl counted

private theorem Standing.counts (standing : Standing start socket history server) :
    Counted start server 0 0 ∨ Counted start server 0 1 ∨
      Counted start server 1 0 ∧ AnsweredWhole history := by
  rcases standing.outcome with ⟨counted, -⟩ | ⟨-, pending⟩ | settled
  · exact .inl counted
  · cases pending with
    | reply some only routed overflowed counted => exact .inl counted
    | refusal none most counted => exact .inr (.inl counted)
  · exact .inr settled.counts

/-- A controller on whose first socket a peer has connected to the listener and sent one byte. -/
def calledUpon : Sim.Controller :=
  ((({} : Sim.Controller).listen 80).2.connect 80 .unspecified [71]).2

def linkThatIs (ready : Bool) : Link.Status :=
  { state := .idle, ready, busy := false, link := .on, server := true, ip := .unspecified
    mac := ⟨0, 0, 0, 0, 0, 0⟩, initCycles := 0, retries := 0, hardResets := 0, softResets := 0 }

/-- The controller with space for so many bytes to the peer of a socket. What is sent there takes it
up until it is acknowledged. -/
def withSpaceFor (nic : Sim.Controller) (socket : SocketId) (room : Nat) : Sim.Controller :=
  { nic.modify socket ({ · with txFree := room }) with holdTx := true }

/-- A controller that a visitor has asked for the root of the site, and which does not have space
for the whole of the answer. -/
def rootAskedFor (visitor : SocketId) : Sim.Controller :=
  let asked := ((({} : Sim.Controller).listen 80).2.connect 80 .unspecified
    (Text.bytes "GET / HTTP/1.1\r\n\r\n")).2
  withSpaceFor asked visitor 40

def rootServed : Server Unit where
  routes := { endpoints := [⟨.get, "/", .handler ()⟩] }

def greeting : Unit → Handler Unit := fun _ _ responder context => do
  return (← responder.sendText 200 "text/plain" "Hello", context)

/-- A greeting that is taken in two parts: the course up to the first of them, the update with the
second, and the course up to the end. -/
theorem exists_greeted :
    let visitor : SocketId := ⟨0, by decide⟩
    ∃ (history : List (Deed Unit Unit)) (halfway sent ended : Server Unit)
      (sending closing : Deed Unit Unit),
      Course greeting rootServed visitor history halfway ∧ halfway.phase = .sending visitor ∧
      (∃ left, Updates greeting (linkThatIs true) 4 halfway () sending sent left) ∧
      halfway.stats.succeeded = 0 ∧ sent.stats.succeeded = 1 ∧
      Course greeting rootServed visitor (history ++ [sending] ++ [closing]) ended ∧
      ended.phase = .waiting ∧ ended.stats.succeeded = 1 := by
  intro visitor
  let chip := Sim.Controller.chip
  let up := linkThatIs true
  let accepted := (rootServed.update greeting up () 0).run chip (rootAskedFor visitor)
  let heard := (accepted.value.1.update greeting up () 1).run chip accepted.state
  let found := (heard.value.1.update greeting up () 2).run chip heard.state
  let begun := (found.value.1.update greeting up () 3).run chip found.state
  let acknowledged := begun.state.acknowledge visitor
  let sent := (begun.value.1.update greeting up () 4).run chip acknowledged
  let closed := (sent.value.1.update greeting up () 5).run chip sent.state
  have receiving : accepted.value.1.phase = .receiving visitor := by decide +kernel
  have halfway : begun.value.1.phase = .sending visitor := by decide +kernel
  have going : accepted.value.1.phase ≠ .waiting ∧ heard.value.1.phase ≠ .waiting ∧
      found.value.1.phase ≠ .waiting ∧ sent.value.1.phase ≠ .waiting := by decide +kernel
  have ended : begun.value.1.stats.succeeded = 0 ∧ sent.value.1.stats.succeeded = 1 ∧
      closed.value.1.phase = .waiting ∧ closed.value.1.stats.succeeded = 1 := by decide +kernel
  obtain ⟨hears, finds, begins, closes⟩ := going
  have course : Course greeting rootServed visitor [] accepted.value.1 := .of_run rfl rfl receiving
  obtain ⟨_, course⟩ : ∃ deed, Course greeting rootServed visitor (_ ++ [deed]) heard.value.1 :=
    course.run hears rfl
  obtain ⟨_, course⟩ : ∃ deed, Course greeting rootServed visitor (_ ++ [deed]) found.value.1 :=
    course.run finds rfl
  obtain ⟨_, course⟩ : ∃ deed, Course greeting rootServed visitor (_ ++ [deed]) begun.value.1 :=
    course.run begins rfl
  obtain ⟨sending, updates⟩ :
      ∃ deed, Updates greeting up 4 begun.value.1 () deed sent.value.1 sent.value.2 :=
    exists_updates_run rfl
  have delivered : Course greeting rootServed visitor (_ ++ [sending]) sent.value.1 :=
    course.update (by rw [halfway]; exact nofun) updates
  obtain ⟨closing, parted⟩ :
      ∃ deed, Course greeting rootServed visitor (_ ++ [deed]) closed.value.1 :=
    delivered.run closes rfl
  exact ⟨_, begun.value.1, sent.value.1, closed.value.1, sending, closing, course, halfway,
    ⟨_, updates⟩, ended.1, ended.2.1, parted, ended.2.2⟩

end BoardNet.Http.Server
