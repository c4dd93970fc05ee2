import BoardNet.Proofs.Http.Transition
import BoardNet.Proofs.Http.Update

namespace BoardNet.Http

open Poll

variable {E C : Type}

def answersOf (history : List (Deed E C)) : List (Answer E C) := history.filterMap (·.answer)

/-- The exchanges that no handler had, in order. -/
def engineOf (history : List (Deed E C)) : List Exchange := history.flatMap (·.engine)

theorem answersOf_append (history : List (Deed E C)) (deed : Deed E C) :
    answersOf (history ++ [deed]) = answersOf history ++ deed.answer.toList := by
  unfold answersOf
  rw [List.filterMap_append]
  cases given : deed.answer <;> simp [given]

theorem engineOf_append (history : List (Deed E C)) (deed : Deed E C) :
    engineOf (history ++ [deed]) = engineOf history ++ deed.engine := by
  simp [engineOf]

/-- How far a connection has come. -/
inductive Stage where
  | unanswered
  | sending
  | closing (asked : Bool)
  | forced
  | ended

def Phase.stage : Phase E → Stage
  | .waiting => .ended
  | .receiving _ | .processing _ | .handling _ _ | .failed _ => .unanswered
  | .sending _ => .sending
  | .closing _ asked => .closing asked
  | .forceClosing _ => .forced

theorem Phase.socket_eq_none {phase : Phase E} : phase.socket = none ↔ phase = .waiting := by
  cases phase <;> simp [Phase.socket]

theorem Phase.stage_eq_ended {phase : Phase E} : phase.stage = .ended ↔ phase = .waiting := by
  cases phase <;> simp [Phase.stage]

namespace Server

/-- The updates for the connection on `socket`, from its acceptance at `start`. Between two of them
time, the network and the application's state may become anything. -/
inductive Course (handlers : E → Handler C) (start : Server E) (socket : SocketId) :
    List (Deed E C) → Server E → Prop where
  | accepted {network : Link.Status} {now : Millis} {context left : C} {deed : Deed E C}
      {after : Server E} (waiting : start.phase = .waiting)
      (updates : Updates handlers network now start context deed after left)
      (receiving : after.phase = .receiving socket) : Course handlers start socket [] after
  | update {network : Link.Status} {now : Millis} {context left : C} {deed : Deed E C}
      {history : List (Deed E C)} {server after : Server E}
      (course : Course handlers start socket history server) (going : server.phase ≠ .waiting)
      (updates : Updates handlers network now server context deed after left) :
      Course handlers start socket (history ++ [deed]) after

namespace Course

variable {handlers : E → Handler C} {network : Link.Status} {now : Millis} {context left : C}
  {start server after : Server E} {socket : SocketId} {history : List (Deed E C)}
  {trace : List Exchange}

/-- Every update that accepts a connection begins its course. -/
theorem of_path (waiting : start.phase = .waiting)
    (path : Path (start.update handlers network context now) trace (after, left))
    (receiving : after.phase = .receiving socket) : Course handlers start socket [] after := by
  obtain ⟨deed, -, updates⟩ := exists_updates path
  exact .accepted waiting updates receiving

/-- Every update until the server waits carries it on. -/
theorem path (course : Course handlers start socket history server)
    (going : server.phase ≠ .waiting)
    (path : Path (server.update handlers network context now) trace (after, left)) :
    ∃ deed, deed.trace = trace ∧ Course handlers start socket (history ++ [deed]) after := by
  obtain ⟨deed, same, updates⟩ := exists_updates path
  exact ⟨deed, same, course.update going updates⟩

variable {σ : Type} {chip : Chip σ} {state : σ} {ran : Ran σ (Server E × C)}

/-- So it is with updates that are run on a controller. -/
theorem of_run (waiting : start.phase = .waiting)
    (running : ran = (start.update handlers network context now).run chip state)
    (receiving : ran.value.1.phase = .receiving socket) :
    Course handlers start socket [] ran.value.1 := by
  subst running
  exact of_path waiting (path_run chip _ state) receiving

theorem run (course : Course handlers start socket history server) (going : server.phase ≠ .waiting)
    (running : ran = (server.update handlers network context now).run chip state) :
    ∃ deed, Course handlers start socket (history ++ [deed]) ran.value.1 := by
  subst running
  obtain ⟨deed, -, course⟩ := course.path going (path_run chip _ state)
  exact ⟨deed, course⟩

end Course

/-- Requests counted since `start`. -/
def Counted (start server : Server E) (succeeded failed : UInt32) : Prop :=
  server.stats.succeeded = start.stats.succeeded + succeeded ∧
    server.stats.failed = start.stats.failed + failed

namespace Counted

variable {start server after : Server E} {succeeded failed : UInt32}

/-- Only the two counters matter. -/
theorem congr (counted : Counted start server succeeded failed)
    (first : after.stats.succeeded = server.stats.succeeded)
    (second : after.stats.failed = server.stats.failed) :
    Counted start after succeeded failed :=
  ⟨first.trans counted.1, second.trans counted.2⟩

theorem failure (counted : Counted start server 0 0) : Counted start server.countFailure 0 1 :=
  ⟨counted.1, by rw [countFailure, counted.2, UInt32.add_zero]⟩

theorem success (counted : Counted start server 0 0) : Counted start server.countSuccess 1 0 :=
  ⟨by rw [countSuccess, counted.1, UInt32.add_zero], counted.2⟩

end Counted

/-- A connection that has been counted: as a success only with one whole answer along a route. -/
inductive Settled (start : Server E) (history : List (Deed E C)) (server : Server E) : Prop where
  | success {answer : Answer E C} {found : Route (Target E)} (only : answersOf history = [answer])
      (routed : answer.reached = .route found) (whole : answer.ended.out.overflowed = false)
      (counted : Counted start server 1 0)
  | failure (most : (answersOf history).length ≤ 1) (counted : Counted start server 0 1)

/-- A response that is on its way: one answer along a route that is still to be counted, or any
other answer, which was counted as a failure when it was begun. -/
inductive Pending (start : Server E) (history : List (Deed E C)) (server : Server E) : Prop where
  | reply {answer : Answer E C} {found : Route (Target E)} (reply : server.reply.isSome = true)
      (only : answersOf history = [answer]) (routed : answer.reached = .route found)
      (overflowed : server.out.overflowed = answer.ended.out.overflowed)
      (counted : Counted start server 0 0)
  | refusal (reply : server.reply = none) (most : (answersOf history).length ≤ 1)
      (counted : Counted start server 0 1)

variable {start server after : Server E} {history later : List (Deed E C)} {socket : SocketId}
  {now : Millis}

namespace Settled

theorem congr (settled : Settled start history server)
    (answers : answersOf later = answersOf history)
    (first : after.stats.succeeded = server.stats.succeeded)
    (second : after.stats.failed = server.stats.failed) : Settled start later after := by
  cases settled with
  | success only routed whole counted =>
    exact .success (answers.trans only) routed whole (counted.congr first second)
  | failure most counted => exact .failure (answers ▸ most) (counted.congr first second)

end Settled

namespace Pending

theorem congr (pending : Pending start history server)
    (answers : answersOf later = answersOf history)
    (out : after.out.overflowed = server.out.overflowed) (reply : after.reply = server.reply)
    (first : after.stats.succeeded = server.stats.succeeded)
    (second : after.stats.failed = server.stats.failed) : Pending start later after := by
  cases pending with
  | reply some only routed overflowed counted =>
    exact .reply (by rw [reply, some]) (answers.trans only) routed (by rw [out, overflowed])
      (counted.congr first second)
  | refusal none most counted =>
    exact .refusal (reply.trans none) (answers ▸ most) (counted.congr first second)

/-- With the whole response at the controller the connection is counted. -/
theorem completed (pending : Pending start history server) :
    Settled start history (server.completed socket now) := by
  cases pending with
  | @reply answer found reply only routed overflowed counted =>
    obtain ⟨status, some⟩ := Option.isSome_iff_exists.mp reply
    unfold Server.completed Server.counted
    rw [some]
    dsimp only
    by_cases lost : server.out.overflowed = true
    · rw [if_pos lost]
      exact .failure (by simp [only]) (counted.failure.congr rfl rfl)
    · rw [if_neg lost]
      have whole := overflowed.symm.trans (Bool.not_eq_true _ ▸ lost)
      exact .success only routed whole (counted.success.congr rfl rfl)
  | refusal reply most counted =>
    unfold Server.completed Server.counted
    rw [reply]
    exact .failure most (counted.congr rfl rfl)

/-- A response that is given up is a failure. -/
theorem abandoned (pending : Pending start history server) :
    Settled start history server.abandonReply := by
  cases pending with
  | reply reply only routed overflowed counted =>
    unfold abandonReply
    rw [if_pos reply]
    exact .failure (by simp [only]) (counted.failure.congr rfl rfl)
  | refusal reply most counted =>
    unfold abandonReply
    rw [reply]
    exact .failure most (counted.congr rfl rfl)

end Pending

/-- Nothing is given up where nothing is on its way. -/
theorem stats_abandonReply (reply : server.reply = none) :
    server.abandonReply.stats = server.stats := by
  unfold abandonReply
  rw [reply]
  rfl

theorem phase_abandonReply (server : Server E) : server.abandonReply.phase = server.phase := by
  unfold abandonReply
  dsimp only
  split <;> rfl

/-- While the network is down the server waits, with nothing on its way. -/
theorem path_dropConnection_waits {trace : List Exchange}
    (path : Path (server.dropConnection now) trace after) :
    ∃ timer, after = { server.abandonReply with phase := .waiting, timer } := by
  have dropped := path_dropConnection path
  cases held : server.phase.socket with
  | none =>
    rw [held] at dropped
    have waiting := (phase_abandonReply server).trans (Phase.socket_eq_none.mp held)
    exact ⟨server.abandonReply.timer, by rw [dropped.2, ← waiting]⟩
  | some socket =>
    rw [held] at dropped
    exact ⟨⟨now⟩, dropped.2⟩

/-- How often the server asked to disconnect, handlers apart. -/
def disconnectsIn (socket : SocketId) (history : List (Deed E C)) : Nat :=
  timesAsked (.call (.disconnect socket)) (engineOf history)

/-- How often the server closed at once, handlers apart. -/
def closesIn (socket : SocketId) (history : List (Deed E C)) : Nat :=
  timesAsked (.call (.close socket)) (engineOf history)

/-- What is known of a connection at each stage. -/
def StandsAt (start : Server E) (socket : SocketId) (history : List (Deed E C))
    (server : Server E) : Stage → Prop
  | .unanswered =>
    server.out = {} ∧ server.reply = none ∧ answersOf history = [] ∧ Counted start server 0 0 ∧
      disconnectsIn socket history = 0 ∧ closesIn socket history = 0
  | .sending =>
    Pending start history server ∧ disconnectsIn socket history = 0 ∧ closesIn socket history = 0
  | .closing asked =>
    server.reply = none ∧ Settled start history server ∧
      disconnectsIn socket history = (if asked then 1 else 0) ∧ closesIn socket history = 0
  | .forced =>
    server.reply = none ∧ Settled start history server ∧ disconnectsIn socket history ≤ 1 ∧
      closesIn socket history = 0
  | .ended =>
    (Settled start history server ∨ Counted start server 0 0 ∧ answersOf history = [] ∧
        ∃ deed ∈ history, deed.ready = false) ∧
      disconnectsIn socket history ≤ 1 ∧ closesIn socket history ≤ 1 ∧
      1 ≤ disconnectsIn socket history + closesIn socket history

structure Standing (start : Server E) (socket : SocketId) (history : List (Deed E C))
    (server : Server E) : Prop where
  held : ∀ held, server.phase.socket = some held → held = socket
  stands : StandsAt start socket history server server.phase.stage

/-- How a connection can stand, whatever its stage: nothing was answered, a response is on its way,
or the connection has been counted. -/
theorem Standing.outcome (standing : Standing start socket history server) :
    Counted start server 0 0 ∧ answersOf history = [] ∨
      server.phase.stage = .sending ∧ Pending start history server ∨
        Settled start history server := by
  have stands := standing.stands
  cases stage : server.phase.stage with
  | unanswered =>
    rw [stage] at stands
    obtain ⟨-, -, none, counted, -⟩ := stands
    exact .inl ⟨counted, none⟩
  | sending =>
    rw [stage] at stands
    exact .inr (.inl ⟨rfl, stands.1⟩)
  | closing asked =>
    rw [stage] at stands
    exact .inr (.inr stands.2.1)
  | forced =>
    rw [stage] at stands
    exact .inr (.inr stands.2.1)
  | ended =>
    rw [stage] at stands
    rcases stands.1 with settled | ⟨counted, none, -⟩
    · exact .inr (.inr settled)
    · exact .inl ⟨counted, none⟩

/-- A scan of the sockets leaves a connection where it stands. -/
theorem Standing.scanned {watch : List Exchange} {watched : Server E}
    (standing : Standing start socket history server)
    (scan : Path (server.pollSockets now) watch watched) :
    watched.phase = server.phase ∧ Standing start socket history watched := by
  obtain ⟨phase, -, out, reply, first, second⟩ := scanned_pollSockets scan
  refine ⟨phase, by rw [phase]; exact standing.held, ?_⟩
  have stands := standing.stands
  rw [phase]
  cases stage : server.phase.stage with
  | unanswered =>
    rw [stage] at stands
    obtain ⟨empty, none, answers, counted, releases⟩ := stands
    exact ⟨out.trans empty, reply.trans none, answers, counted.congr first second, releases⟩
  | sending =>
    rw [stage] at stands
    obtain ⟨pending, releases⟩ := stands
    exact ⟨pending.congr rfl (by rw [out]) reply first second, releases⟩
  | closing asked =>
    rw [stage] at stands
    obtain ⟨none, settled, releases⟩ := stands
    exact ⟨reply.trans none, settled.congr rfl first second, releases⟩
  | forced =>
    rw [stage] at stands
    obtain ⟨none, settled, releases⟩ := stands
    exact ⟨reply.trans none, settled.congr rfl first second, releases⟩
  | ended =>
    rw [stage] at stands
    obtain ⟨settled | ⟨counted, dropped⟩, releases⟩ := stands
    · exact ⟨.inl (settled.congr rfl first second), releases⟩
    · exact ⟨.inr ⟨counted.congr first second, dropped⟩, releases⟩

/-- The scan closes other sockets only. -/
private theorem watch_spares {watch : List Exchange} {watched : Server E}
    (scan : Path (server.pollSockets now) watch watched)
    (held : server.phase.socket = some socket) :
    timesAsked (.call (.disconnect socket)) watch = 0 ∧
      timesAsked (.call (.close socket)) watch = 0 := by
  obtain ⟨allowed, -⟩ := path_pollSockets scan
  rw [held] at allowed
  constructor
  · apply timesAsked_eq_zero
    intro exchange member same
    rcases allowed exchange member with idle | ⟨other, closed, -⟩
    · rw [same] at idle
      exact nomatch idle.2
    · exact nomatch same.symm.trans closed
  · apply timesAsked_eq_zero
    intro exchange member same
    rcases allowed exchange member with idle | ⟨other, closed, different⟩
    · rw [same] at idle
      exact nomatch idle.2
    · cases same.symm.trans closed
      exact different rfl

/-- What one more update adds to the number of times that the server ended the connection. -/
structure Ends (socket : SocketId) (deed : Deed E C) (disconnects closes : Nat) : Prop where
  disconnects : timesAsked (.call (.disconnect socket)) deed.engine = disconnects
  closes : timesAsked (.call (.close socket)) deed.engine = closes

namespace Ends

variable {deed : Deed E C} {disconnects closes : Nat}

theorem disconnectsIn (ends : Ends socket deed disconnects closes)
    (history : List (Deed E C)) :
    Server.disconnectsIn socket (history ++ [deed]) =
      Server.disconnectsIn socket history + disconnects := by
  rw [Server.disconnectsIn, engineOf_append, timesAsked_append, ends.disconnects]
  rfl

theorem closesIn (ends : Ends socket deed disconnects closes) (history : List (Deed E C)) :
    Server.closesIn socket (history ++ [deed]) = Server.closesIn socket history + closes := by
  rw [Server.closesIn, engineOf_append, timesAsked_append, ends.closes]
  rfl

end Ends

theorem answersOf_silent {deed : Deed E C} (silent : deed.answer = none)
    (history : List (Deed E C)) : answersOf (history ++ [deed]) = answersOf history := by
  rw [answersOf_append, silent, Option.toList_none, List.append_nil]

private theorem ClosesOnce.times {trace : List Exchange} (closes : ClosesOnce socket trace) :
    timesAsked (.call (.disconnect socket)) trace = 0 ∧
      timesAsked (.call (.close socket)) trace = 1 := by
  obtain ⟨before, rest, rfl, quiet, silent⟩ := closes
  have one : timesAsked (.call (.disconnect socket)) [⟨.call (.close socket), ()⟩] = 0 ∧
      timesAsked (.call (.close socket)) [⟨.call (.close socket), ()⟩] = 1 := by
    simp [timesAsked]
  rw [List.append_cons, timesAsked_append, timesAsked_append, timesAsked_append, timesAsked_append,
    quiet.spares.disconnects, quiet.spares.closes, silent.spares.disconnects, silent.spares.closes,
    one.1, one.2]
  exact ⟨rfl, rfl⟩

/-- A connection that is given up is counted, unless nothing was answered on it. -/
theorem Standing.abandoned (standing : Standing start socket history server)
    (going : server.phase ≠ .waiting) :
    server.phase.socket = some socket ∧ disconnectsIn socket history ≤ 1 ∧
      closesIn socket history = 0 ∧
      (Settled start history server.abandonReply ∨
        Counted start server.abandonReply 0 0 ∧ answersOf history = []) := by
  have held : server.phase.socket = some socket := by
    cases some : server.phase.socket with
    | none => exact absurd (Phase.socket_eq_none.mp some) going
    | some held => rw [standing.held held some]
  refine ⟨held, ?_⟩
  have stands := standing.stands
  cases stage : server.phase.stage with
  | unanswered =>
    rw [stage] at stands
    obtain ⟨empty, none, answers, counted, disconnects, closes⟩ := stands
    have same := stats_abandonReply none
    exact ⟨by omega, closes, .inr ⟨counted.congr (by rw [same]) (by rw [same]), answers⟩⟩
  | sending =>
    rw [stage] at stands
    obtain ⟨pending, disconnects, closes⟩ := stands
    exact ⟨by omega, closes, .inl pending.abandoned⟩
  | closing asked =>
    rw [stage] at stands
    obtain ⟨none, settled, disconnects, closes⟩ := stands
    have same := stats_abandonReply none
    refine ⟨?_, closes, .inl (settled.congr rfl (by rw [same]) (by rw [same]))⟩
    rw [disconnects]
    split <;> omega
  | forced =>
    rw [stage] at stands
    obtain ⟨none, settled, disconnects, closes⟩ := stands
    have same := stats_abandonReply none
    exact ⟨disconnects, closes, .inl (settled.congr rfl (by rw [same]) (by rw [same]))⟩
  | ended => exact absurd (Phase.stage_eq_ended.mp stage) going

/-- Closing at once ends the course. -/
private theorem Standing.closed {deed : Deed E C} (standing : Standing start socket history server)
    (going : server.phase ≠ .waiting) (silent : deed.answer = none) (ends : Ends socket deed 0 1)
    (known : Settled start history server.abandonReply ∨ deed.ready = false) :
    Standing start socket (history ++ [deed])
      { server.abandonReply with phase := .waiting, timer := ⟨now⟩ } := by
  obtain ⟨-, disconnects, closes, settled⟩ := standing.abandoned going
  have answers := answersOf_silent silent history
  have once : closesIn socket (history ++ [deed]) = 1 := by rw [ends.closesIn, closes]
  refine ⟨nofun, ?_, ?_, ?_, ?_⟩
  · rcases settled with settled | ⟨counted, none⟩
    · exact .inl (settled.congr answers rfl rfl)
    · rcases known with settled | down
      · exact .inl (settled.congr answers rfl rfl)
      · exact .inr ⟨counted.congr rfl rfl, answers.trans none, deed, by simp, down⟩
  · rw [ends.disconnectsIn]
    exact disconnects
  · exact Nat.le_of_eq once
  · omega

/-- A connection stays unanswered while neither response nor counters change. -/
private theorem stands_unanswered {deed : Deed E C}
    (stands : StandsAt start socket history server .unanswered) (silent : deed.answer = none)
    (ends : Ends socket deed 0 0) (out : after.out = server.out)
    (reply : after.reply = server.reply) (stats : after.stats = server.stats) :
    StandsAt start socket (history ++ [deed]) after .unanswered := by
  obtain ⟨empty, none, answers, counted, disconnects, closes⟩ := stands
  refine ⟨out.trans empty, reply.trans none, (answersOf_silent silent history).trans answers,
    counted.congr (by rw [stats]) (by rw [stats]), ?_, ?_⟩
  · rw [ends.disconnectsIn, disconnects]
  · rw [ends.closesIn, closes]

/-- A connection that was counted and not yet ended is about to be closed. -/
private theorem stands_closing {deed : Deed E C} (silent : deed.answer = none)
    (ends : Ends socket deed 0 0) (reply : after.reply = none)
    (settled : Settled start history after) (disconnects : disconnectsIn socket history = 0)
    (closes : closesIn socket history = 0) :
    StandsAt start socket (history ++ [deed]) after (.closing false) := by
  refine ⟨reply, settled.congr (answersOf_silent silent history) rfl rfl, ?_, ?_⟩
  · rw [ends.disconnectsIn, disconnects]
    rfl
  · rw [ends.closesIn, closes]

/-- A response is sent on, or has been counted once it no longer is. -/
private theorem Standing.sent {trace : List Exchange} {deed : Deed E C}
    (standing : Standing start socket history server) (sending : server.phase = .sending socket)
    (path : Path (server.sendRest socket now) trace after) (silent : deed.answer = none)
    (ends : Ends socket deed (timesAsked (.call (.disconnect socket)) trace)
      (timesAsked (.call (.close socket)) trace)) :
    Standing start socket (history ++ [deed]) after := by
  have answers := answersOf_silent silent history
  have held := standing.held
  have stands := standing.stands
  rw [sending] at held stands
  obtain ⟨pending, disconnects, closes⟩ := stands
  obtain ⟨spares, same⟩ := path_sendRest path
  rw [spares.disconnects, spares.closes] at ends
  rcases same with ⟨-, rfl⟩ | ⟨out, timer, fed, -, ⟨-, rfl⟩ | rfl | ⟨-, rfl⟩⟩
  · exact ⟨held, stands_closing silent ends rfl (pending.abandoned.congr rfl rfl rfl) disconnects
      closes⟩
  · have whole : Pending start history ({ server with out, timer } : Server E) :=
      pending.congr rfl fed.overflowed rfl rfl rfl
    exact ⟨held, stands_closing silent ends rfl (whole.completed.congr rfl rfl rfl) disconnects
      closes⟩
  · refine ⟨held, rfl, pending.abandoned.congr answers rfl rfl, ?_, ?_⟩
    · rw [ends.disconnectsIn, disconnects]
      exact Nat.zero_le 1
    · rw [ends.closesIn, closes]
  · refine ⟨by rw [sending]; exact held, ?_⟩
    rw [sending]
    refine ⟨?_, ?_, ?_⟩
    · exact pending.congr answers fed.overflowed rfl rfl rfl
    · rw [ends.disconnectsIn, disconnects]
    · rw [ends.closesIn, closes]

/-- A connection that is closed gracefully is asked to disconnect once. -/
private theorem Standing.disconnected {asked : Bool} {trace : List Exchange} {deed : Deed E C}
    (standing : Standing start socket history server)
    (closing : server.phase = .closing socket asked)
    (path : Path (server.close socket asked now) trace after) (silent : deed.answer = none)
    (ends : Ends socket deed (timesAsked (.call (.disconnect socket)) trace)
      (timesAsked (.call (.close socket)) trace)) :
    Standing start socket (history ++ [deed]) after := by
  have answers := answersOf_silent silent history
  have held := standing.held
  have stands := standing.stands
  rw [closing] at held stands
  obtain ⟨reply, settled, disconnects, closes⟩ := stands
  obtain ⟨rest, rfl, idle, same⟩ := path_close path
  rw [timesAsked_append, timesAsked_append, idle.spares.disconnects, idle.spares.closes] at ends
  have once : disconnectsIn socket (history ++ [deed]) = 1 := by
    rw [ends.disconnectsIn, disconnects]
    cases asked <;> simp [timesAsked]
  have never : closesIn socket (history ++ [deed]) = 0 := by
    rw [ends.closesIn, closes]
    cases asked <;> simp [timesAsked]
  have counted := settled.congr answers rfl rfl
  rcases same with rfl | rfl | rfl
  · exact ⟨held, reply, counted.congr rfl rfl rfl, once, never⟩
  · refine ⟨nofun, .inl (counted.congr rfl rfl rfl), ?_, ?_, ?_⟩
    · exact Nat.le_of_eq once
    · omega
    · omega
  · exact ⟨held, reply, counted.congr rfl rfl rfl, Nat.le_of_eq once, never⟩

/-- A transition without an answer leads a connection on. -/
private theorem Standing.moved {trace : List Exchange} {deed : Deed E C}
    (standing : Standing start socket history server) (going : server.phase ≠ .waiting)
    (moves : Moves now server trace after) (silent : deed.answer = none)
    (ends : Ends socket deed (timesAsked (.call (.disconnect socket)) trace)
      (timesAsked (.call (.close socket)) trace)) :
    Standing start socket (history ++ [deed]) after := by
  have held := standing.held
  have stands := standing.stands
  cases moves with
  | accept waiting path => exact absurd waiting going
  | @hear source trace after receiving path =>
    rw [receiving] at held stands
    obtain rfl : source = socket := held source rfl
    obtain ⟨idle, request, headEnd, same⟩ := path_hear path
    rw [idle.spares.disconnects, idle.spares.closes] at ends
    rcases same with rfl | ⟨-, rfl⟩ | ⟨-, rfl⟩
    · refine ⟨by rw [receiving]; exact held, ?_⟩
      rw [receiving]
      exact stands_unanswered stands silent ends rfl rfl rfl
    · exact ⟨held, stands_unanswered stands silent ends rfl rfl rfl⟩
    · obtain ⟨-, reply, none, counted, disconnects, closes⟩ := stands
      have settled : Settled start history server.countFailure :=
        .failure (by simp [none]) counted.failure
      exact ⟨held, stands_closing silent ends reply (settled.congr rfl rfl rfl) disconnects closes⟩
  | @process source trace after processing path =>
    rw [processing] at held stands
    obtain rfl : source = socket := held source rfl
    obtain ⟨idle, next, rfl, leads⟩ := path_process path
    rw [idle.spares.disconnects, idle.spares.closes] at ends
    rcases leads with rfl | ⟨found, rfl⟩
    · exact ⟨held, stands_unanswered stands silent ends rfl rfl rfl⟩
    · exact ⟨held, stands_unanswered stands silent ends rfl rfl rfl⟩
  | @send source trace after sending path =>
    obtain rfl : source = socket := held source (by rw [sending]; rfl)
    exact standing.sent sending path silent ends
  | @close source asked trace after closing path =>
    obtain rfl : source = socket := held source (by rw [closing]; rfl)
    exact standing.disconnected closing path silent ends
  | @force source trace after forcing path =>
    obtain ⟨once, rfl⟩ := path_forceClose path
    rw [forcing] at held stands
    obtain rfl : source = socket := held source rfl
    rw [once.times.1, once.times.2] at ends
    obtain ⟨reply, settled, -⟩ := stands
    have same := stats_abandonReply reply
    exact standing.closed going silent ends
      (.inl (settled.congr rfl (by rw [same]) (by rw [same])))

/-- What stands when an answer is about to be made: nothing was answered yet, and whatever leads
nowhere has been counted. -/
theorem Standing.turned {before : List Exchange} {reached : Reached E} {held : SocketId}
    {asked : Server E} (standing : Standing start socket history server)
    (turns : Turns now server before reached held asked) :
    held = socket ∧ Idle before ∧ asked.reply = none ∧ asked.out = {} ∧ answersOf history = [] ∧
      disconnectsIn socket history = 0 ∧ closesIn socket history = 0 ∧
      ((∃ found, reached = .route found) ∧ Counted start asked 0 0 ∨
        (∀ found, reached ≠ .route found) ∧ Counted start asked 0 1) := by
  have holds := standing.held
  have stands := standing.stands
  cases turns with
  | refuse receiving path =>
    rw [receiving] at holds stands
    obtain ⟨empty, none, answers, counted, disconnects, closes⟩ := stands
    obtain ⟨idle, request, headEnd, same⟩ := path_hear path
    rcases same with rfl | ⟨other, -⟩ | ⟨other, -⟩
    · exact ⟨holds _ rfl, idle, none, empty, answers, disconnects, closes,
        .inr ⟨nofun, counted.failure.congr rfl rfl⟩⟩
    · exact nomatch other
    · exact nomatch other
  | route handling =>
    rw [handling] at holds stands
    obtain ⟨empty, none, answers, counted, disconnects, closes⟩ := stands
    exact ⟨holds _ rfl, idle_nil, none, empty, answers, disconnects, closes,
      .inl ⟨⟨_, rfl⟩, counted⟩⟩
  | nowhere failed =>
    rw [failed] at holds stands
    obtain ⟨empty, none, answers, counted, disconnects, closes⟩ := stands
    exact ⟨holds _ rfl, idle_cons ⟨rfl, rfl⟩ idle_nil, none, empty, answers, disconnects, closes,
      .inr ⟨nofun, counted.failure⟩⟩

/-- Answers are made for connections without one, and no success is counted before. -/
theorem Turns.early {before : List Exchange} {reached : Reached E} {held : SocketId}
    {asked : Server E} (turns : Turns now server before reached held asked) :
    server.phase.stage = .unanswered ∧ asked.stats.succeeded = server.stats.succeeded := by
  cases turns with
  | refuse receiving path =>
    obtain ⟨-, request, headEnd, same⟩ := path_hear path
    rcases same with rfl | ⟨other, -⟩ | ⟨other, -⟩
    · exact ⟨by rw [receiving]; rfl, rfl⟩
    · exact nomatch other
    · exact nomatch other
  | route handling => exact ⟨by rw [handling]; rfl, rfl⟩
  | nowhere failed => exact ⟨by rw [failed]; rfl, rfl⟩

/-- What becomes of a response that was made: the controller takes what it will, and the rest
waits. -/
theorem path_settle {trace : List Exchange} {reached : Reached E} {ended : Responder}
    (path : Path (server.settle reached ended socket now) trace after) :
    ∃ out, Spares trace ∧ Outbox.Fed ended.socket trace ended.out out ∧
      out.sent = ended.out.sent + (takenOn ended.socket trace).length ∧
      let answered : Server E :=
        { server with out, reply := reached.reply ended.status server.reply }
      (out.isEmpty = false ∧ after = { answered with phase := .sending socket, timer := ⟨now⟩ } ∨
        out.isEmpty = true ∧ after = answered.completed socket now) := by
  rw [settle, path_bind] at path
  obtain ⟨pumps, rest, finished, rfl, finishing, path⟩ := path
  have asks : ended.finish.Asks (·.isRelease = false) := Responder.asks_finish rfl fun _ => rfl
  obtain ⟨fed, sent, frame⟩ := Responder.path_finish finishing
  obtain ⟨idle, same⟩ := path_deliver path
  have status : finished.status = ended.status := by rw [frame]
  rw [status] at same
  have taken : takenOn ended.socket (pumps ++ rest) = takenOn ended.socket pumps :=
    takenOn_between idle_nil idle ended.socket
  refine ⟨finished.out, Spares.append (finishing.effect_allowed asks) idle.spares,
    fed.congr taken, ?_, same⟩
  rw [taken, sent]

/-- An answer that was just made is on its way. -/
theorem Standing.pending {before : List Exchange} {answer : Answer E C} {held : SocketId}
    {asked : Server E} {deed : Deed E C} {out : Outbox}
    (standing : Standing start socket history server)
    (turns : Turns now server before answer.reached held asked)
    (given : deed.answer = some answer)
    (overflowed : out.overflowed = answer.ended.out.overflowed) :
    answersOf (history ++ [deed]) = [answer] ∧ Pending start (history ++ [deed])
      { asked with out, reply := answer.reached.reply answer.ended.status asked.reply } := by
  obtain ⟨-, -, reply, -, none, -, -, counted⟩ := standing.turned turns
  have only : answersOf (history ++ [deed]) = [answer] := by
    rw [answersOf_append, none, given]
    rfl
  refine ⟨only, ?_⟩
  rcases counted with ⟨⟨found, routed⟩, counted⟩ | ⟨other, counted⟩
  · exact .reply (by rw [routed]; rfl) only routed overflowed (counted.congr rfl rfl)
  · refine .refusal ?_ (by simp [only]) (counted.congr rfl rfl)
    cases reached : answer.reached with
    | route found => exact absurd reached (other found)
    | refusal code => exact reply
    | nowhere target => exact reply

/-- The making of an answer leads a connection on. -/
private theorem Standing.answered {before trace : List Exchange} {answer : Answer E C}
    {held : SocketId} {asked : Server E} {deed : Deed E C}
    (standing : Standing start socket history server)
    (turns : Turns now server before answer.reached held asked)
    (settles : Path (asked.settle answer.reached answer.ended held now) trace after)
    (given : deed.answer = some answer)
    (ends : Ends socket deed
      (timesAsked (.call (.disconnect socket)) before +
        timesAsked (.call (.disconnect socket)) trace)
      (timesAsked (.call (.close socket)) before + timesAsked (.call (.close socket)) trace)) :
    Standing start socket (history ++ [deed]) after := by
  obtain ⟨rfl, idle, -, -, -, disconnects, closes, -⟩ := standing.turned turns
  obtain ⟨out, spares, fed, -, same⟩ := path_settle settles
  rw [idle.spares.disconnects, idle.spares.closes, spares.disconnects, spares.closes] at ends
  obtain ⟨-, pending⟩ := standing.pending turns given fed.overflowed
  have disconnects : disconnectsIn held (history ++ [deed]) = 0 := by
    rw [ends.disconnectsIn, disconnects]
  have closes : closesIn held (history ++ [deed]) = 0 := by rw [ends.closesIn, closes]
  rcases same with ⟨-, rfl⟩ | ⟨-, rfl⟩
  · refine ⟨?_, pending.congr rfl rfl rfl rfl rfl, disconnects, closes⟩
    intro other same
    exact (Option.some.inj same).symm
  · refine ⟨?_, rfl, pending.completed, disconnects, closes⟩
    intro other same
    exact (Option.some.inj same).symm

variable {handlers : E → Handler C} {network : Link.Status} {context left : C} {deed : Deed E C}

/-- Every update leads a connection on. -/
theorem Standing.served (standing : Standing start socket history server)
    (going : server.phase ≠ .waiting)
    (serves : Serves handlers network now server context deed after left) :
    Standing start socket (history ++ [deed]) after := by
  have held : server.phase.socket = some socket := (standing.abandoned going).1
  cases serves with
  | drop down path =>
    have dropped := path_dropConnection path
    rw [held] at dropped
    obtain ⟨once, rfl⟩ := dropped
    obtain ⟨disconnects, closes⟩ := once.times
    refine standing.closed going rfl ⟨?_, ?_⟩ (.inr rfl)
    · simpa [Deed.engine] using disconnects
    · simpa [Deed.engine] using closes
  | @move watch trace watched after up scan moves =>
    obtain ⟨phase, scanned⟩ := standing.scanned scan
    obtain ⟨disconnects, closes⟩ := watch_spares scan held
    refine scanned.moved (by rw [phase]; exact going) moves rfl ⟨?_, ?_⟩
    · simp [Deed.engine, disconnects]
    · simp [Deed.engine, closes]
  | @answer watch before trace watched asked after source answer up scan turns request begun given
      made settles =>
    obtain ⟨phase, scanned⟩ := standing.scanned scan
    obtain ⟨disconnects, closes⟩ := watch_spares scan held
    refine scanned.answered turns settles rfl ⟨?_, ?_⟩
    · simp [Deed.engine, disconnects]
    · simp [Deed.engine, closes]

/-- A server that waited for a connection and reads a request has accepted one. -/
theorem Serves.accepting (serves : Serves handlers network now start context deed after left)
    (waiting : start.phase = .waiting) (receiving : after.phase = .receiving socket) :
    ∃ watched remote, Scanned start watched ∧ after = watched.accepting socket remote now := by
  cases serves with
  | drop down path =>
    obtain ⟨timer, rfl⟩ := path_dropConnection_waits path
    cases receiving
  | @move watch trace watched after up scan moves =>
    have kept := scanned_pollSockets scan
    have phase := kept.phase.trans waiting
    rcases path_accept (moves.of_waiting phase) with rfl | ⟨source, remote, rfl, -⟩
    · rw [phase] at receiving
      cases receiving
    · obtain rfl : source = socket := by
        cases receiving
        rfl
      exact ⟨watched, remote, kept, rfl⟩
  | @answer watch before trace watched asked after source answer up scan turns =>
    exact absurd ((scanned_pollSockets scan).phase.trans waiting) turns.not_waiting

/-- A connection that was just accepted is unanswered, and its acceptance counted nothing. -/
private theorem standing_accepted (waiting : start.phase = .waiting)
    (serves : Serves handlers network now start context deed after left)
    (receiving : after.phase = .receiving socket) :
    Standing start socket ([] : List (Deed E C)) after := by
  obtain ⟨watched, remote, kept, rfl⟩ := serves.accepting waiting receiving
  have counted : Counted start (watched.accepting socket remote now) 0 0 := by
    constructor
    · exact kept.succeeded.trans (UInt32.add_zero _).symm
    · exact kept.failed.trans (UInt32.add_zero _).symm
  exact ⟨fun _ same => (Option.some.inj same).symm, rfl, rfl, rfl, counted, rfl, rfl⟩

/-- Where a connection stands is known throughout its course. -/
theorem Course.standing (course : Course handlers start socket history server) :
    Standing start socket history server := by
  induction course with
  | accepted waiting updates receiving =>
    exact standing_accepted waiting updates.serves receiving
  | update course going updates ih => exact ih.served going updates.serves

end Server

end BoardNet.Http
