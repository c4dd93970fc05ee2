import BoardNet.Http.Server
import BoardNet.Proofs.Shift.Clock

namespace BoardNet.Http

/-- The shadow by a clock that is ahead by `span`. -/
def Shadow.shift (span : Millis) (shadow : Shadow) : Shadow :=
  { shadow with since := shadow.since + span }

namespace SlotWatch

/-- The watch by a clock that is ahead by `span`. -/
def shift (span : Millis) (watch : SlotWatch) : SlotWatch where
  shadows := watch.shadows.map (Shadow.shift span)
  timer := watch.timer.shift span

variable (settings : Settings) (active : Option SocketId) (span now : Millis)

theorem inspect_shift (socket : SocketId) (shadow : Shadow) :
    inspect settings active (now + span) socket (shadow.shift span) =
      Prod.map (Shadow.shift span) id <$> inspect settings active now socket shadow := by
  refine next_apart fun status => next_apart fun port => ?_
  refine ite_apart Iff.rfl rfl (ite_apart Iff.rfl rfl ?_)
  have age : elapsed (now + span) (shadow.shift span).since = elapsed now shadow.since :=
    elapsed_shift ..
  rw [age]
  refine next_apart fun stuck => ?_
  exact ite_apart Iff.rfl (next_apart fun _ => next_apart fun _ => rfl) rfl

theorem set_shift (watch : SlotWatch) (socket : SocketId) (shadow : Shadow) :
    { watch.shift span with
      shadows := (watch.shift span).shadows.set socket (shadow.shift span) socket.isLt } =
      shift span { watch with shadows := watch.shadows.set socket shadow socket.isLt } := by
  simp [shift]

theorem inspectAll_shift (sockets : List SocketId) (watch : SlotWatch) (closed : Nat) :
    inspectAll settings active (now + span) sockets (watch.shift span) closed =
      Prod.map (shift span) id <$> inspectAll settings active now sockets watch closed := by
  induction sockets generalizing watch closed with
  | nil => rfl
  | cons socket sockets ih =>
    have shown : (watch.shift span).shadows.get socket = (watch.shadows.get socket).shift span :=
      Vector.getElem_map (Shadow.shift span) socket.isLt
    rw [inspectAll, shown]
    refine bind_apart (inspect_shift ..) fun inspected => ?_
    obtain ⟨shadow, wasClosed⟩ := inspected
    dsimp only [Prod.map]
    rw [set_shift]
    exact ih ..

theorem check_shift (watch : SlotWatch) :
    (watch.shift span).check settings active (now + span) =
      Prod.map (shift span) id <$> watch.check settings active now := by
  refine next_apart fun count => bind_apart (inspectAll_shift ..) fun inspected => ?_
  exact next_apart fun _ => rfl

theorem poll_shift (watch : SlotWatch) :
    (watch.shift span).poll settings active (now + span) =
      Prod.map (shift span) id <$> watch.poll settings active now := by
  refine ite_apart ?_ rfl
    (bind_apart (check_shift _ _ _ _ { watch with timer := ⟨now⟩ }) fun _ => rfl)
  have waited : (watch.shift span).timer.elapsed (now + span) = watch.timer.elapsed now :=
    Stopwatch.elapsed_shift ..
  rw [waited]

end SlotWatch

namespace Server

variable {E C : Type}

/-- The server by a clock that is ahead by `span`. -/
def shift (span : Millis) (server : Server E) : Server E :=
  { server with
    watch := server.watch.shift span
    timer := server.timer.shift span
    accepted := server.accepted.shift span
    headEnd := server.headEnd.map (Stopwatch.shift span) }

section Parts

variable {span now limit : Millis} {ahead server : Server E}

theorem expired_ahead (same : ahead = server.shift span) :
    ahead.timer.expired (now + span) limit = server.timer.expired now limit := by
  rw [same]
  exact Stopwatch.expired_shift ..

theorem enter_ahead (same : ahead = server.shift span) (next : Phase E) :
    ahead.enter next (now + span) = shift span <$> server.enter next now := by
  subst same
  exact next_apart fun _ => rfl

theorem abandonReply_ahead (same : ahead = server.shift span) :
    ahead.abandonReply = server.abandonReply.shift span := by
  subst same
  have reply : (server.shift span).reply = server.reply := rfl
  unfold abandonReply
  rw [reply]
  cases server.reply <;> rfl

theorem complete_ahead (same : ahead = server.shift span) (socket : SocketId) :
    ahead.complete socket (now + span) = shift span <$> server.complete socket now := by
  subst same
  have reply : (server.shift span).reply = server.reply := rfl
  have spent : (server.shift span).accepted.elapsed (now + span) = server.accepted.elapsed now :=
    Stopwatch.elapsed_shift ..
  unfold complete
  rw [reply, spent]
  cases server.reply with
  | none => exact enter_ahead rfl _
  | some status =>
    exact ite_apart Iff.rfl (next_apart fun _ => enter_ahead (by rfl) _)
      (next_apart fun _ => enter_ahead (by rfl) _)

theorem deliver_ahead (same : ahead = server.shift span) (socket : SocketId) :
    ahead.deliver socket (now + span) = shift span <$> server.deliver socket now := by
  subst same
  exact ite_apart Iff.rfl (complete_ahead rfl socket) (next_apart fun _ => enter_ahead rfl _)

theorem reject_ahead (same : ahead = server.shift span) (network : Link.Status) (socket : SocketId)
    (code : Code) :
    ahead.reject network socket code (now + span) =
      shift span <$> server.reject network socket code now := by
  subst same
  exact next_apart fun _ => next_apart fun _ => lift_apart (deliver_ahead (by rfl) socket)

/-- A move to another phase at the end of a step. -/
theorem moved_ahead (same : ahead = server.shift span) (next : Phase E) :
    (liftM (ahead.enter next (now + span)) : Poll (Server E)) =
      shift span <$> liftM (server.enter next now) :=
  lift_apart (enter_ahead same next)

/-- The wait for a body, whose end is not late any earlier. -/
theorem body_ahead (same : ahead = server.shift span) {waited watch : Stopwatch}
    (timed : waited = watch.shift span) (text : String) {socket : SocketId} :
    (if waited.expired (now + span) limit then do
        Poll.log .debug text
        return (← ahead.enter (.processing socket) (now + span), none)
      else return (ahead, none) : Poll (Server E × Option Code)) =
      Prod.map (shift span) id <$>
        (if watch.expired now limit then do
          Poll.log .debug text
          return (← server.enter (.processing socket) now, none)
        else return (server, none)) := by
  subst timed
  refine ite_apart ?_ (next_apart fun _ => bind_apart (moved_ahead same _) fun _ => rfl) ?_
  · rw [Stopwatch.expired_shift]
  · subst same; rfl

end Parts

variable (span : Millis) (server : Server E) (now : Millis) (network : Link.Status)
  (socket : SocketId) (handlers : E → Handler C) (context : C)

theorem checkSockets_shift :
    (server.shift span).checkSockets (now + span) =
      Prod.map (shift span) id <$> server.checkSockets now :=
  bind_apart (SlotWatch.check_shift ..) fun _ => rfl

theorem pollSockets_shift :
    (server.shift span).pollSockets (now + span) = shift span <$> server.pollSockets now := by
  refine bind_apart (SlotWatch.poll_shift ..) fun polled => ?_
  obtain ⟨watch, sweep⟩ := polled
  cases sweep <;> rfl

theorem accept_shift :
    (server.shift span).accept (now + span) = shift span <$> server.accept now := by
  refine next_apart fun found => ?_
  cases found with
  | none => rfl
  | some socket =>
    refine next_apart fun remote => next_apart fun _ =>
      bind_apart (moved_ahead (by rfl) _) fun entered => ?_
    refine next_apart fun listening => ite_apart Iff.rfl rfl (next_apart fun answer => ?_)
    cases answer with
    | ok => rfl
    | error error => exact next_apart fun _ => rfl

theorem hear_shift :
    (server.shift span).hear socket (now + span) =
      Prod.map (shift span) id <$> server.hear socket now := by
  refine next_apart fun read => ?_
  obtain ⟨request, parse⟩ := read
  have noted (ended : Option Stopwatch) :
      { server.shift span with request, headEnd := ended.map (Stopwatch.shift span) } =
        shift span { server with request, headEnd := ended } := rfl
  have rejected (ended : Option Stopwatch) (code : Code) :=
    congrArg (fun server => (pure (server, some code) : Poll _)) (noted ended)
  have started : (server.shift span).headEnd = server.headEnd.map (Stopwatch.shift span) := rfl
  dsimp only
  rw [started]
  -- the head ended before, ends in this read, or has not ended
  cases server.headEnd with
  | some watch =>
    cases parse with
    | complete => exact bind_apart (moved_ahead (noted (some watch)) _) fun _ => rfl
    | reject code => exact next_apart fun _ => rejected (some watch) code
    | needMore => exact body_ahead (by rfl) rfl _
  | none =>
    cases request.headDone with
    | true =>
      cases parse with
      | complete => exact bind_apart (moved_ahead (noted (some ⟨now⟩)) _) fun _ => rfl
      | reject code => exact next_apart fun _ => rejected (some ⟨now⟩) code
      | needMore => exact body_ahead (by rfl) rfl _
    | false =>
      cases parse with
      | complete => exact bind_apart (moved_ahead (noted none) _) fun _ => rfl
      | reject code => exact next_apart fun _ => rejected none code
      | needMore =>
        refine ite_apart ?_ (next_apart fun _ => rfl) (next_apart fun status => ?_)
        · exact iff_of_eq (congrArg (· = true) (Stopwatch.expired_shift ..))
        · exact ite_apart Iff.rfl rfl
            (next_apart fun _ => bind_apart (moved_ahead (by rfl) _) fun _ => rfl)

theorem receive_shift :
    (server.shift span).receive network socket (now + span) =
      shift span <$> server.receive network socket now := by
  refine bind_apart (hear_shift ..) fun heard => ?_
  obtain ⟨heard, refused⟩ := heard
  cases refused with
  | none => rfl
  | some code => exact reject_ahead rfl network socket code

theorem process_shift :
    (server.shift span).process socket (now + span) = shift span <$> server.process socket now := by
  have route : (server.shift span).routes.lookup (server.shift span).request.head.method
      (server.shift span).request.path =
    server.routes.lookup server.request.head.method server.request.path := rfl
  unfold process
  rw [route]
  cases server.routes.lookup server.request.head.method server.request.path with
  | none => exact enter_ahead rfl _
  | some route => exact enter_ahead rfl _

theorem handle_shift (route : Route (Target E)) :
    (server.shift span).handle handlers network socket route context (now + span) =
      Prod.map (shift span) id <$> server.handle handlers network socket route context now := by
  refine next_apart fun answered => next_apart fun finished => ?_
  exact bind_apart (lift_apart (deliver_ahead (by rfl) socket)) fun _ => rfl

theorem handleNowhere_shift :
    (server.shift span).handleNowhere handlers network socket context (now + span) =
      Prod.map (shift span) id <$> server.handleNowhere handlers network socket context now := by
  refine next_apart fun _ => next_apart fun answered => next_apart fun finished => ?_
  exact bind_apart (lift_apart (deliver_ahead (by rfl) socket)) fun _ => rfl

theorem sendRest_shift :
    (server.shift span).sendRest socket (now + span) =
      shift span <$> server.sendRest socket now := by
  refine next_apart fun status => ite_apart Iff.rfl ?_ (next_apart fun pumped => ?_)
  · exact next_apart fun _ => moved_ahead (abandonReply_ahead rfl) _
  · have fed : { server.shift span with
          out := pumped.out
          timer := if pumped.moved > 0 then ⟨now + span⟩ else (server.shift span).timer } =
        shift span { server with
          out := pumped.out
          timer := if pumped.moved > 0 then ⟨now⟩ else server.timer } := by
      unfold shift
      split <;> rfl
    refine ite_apart Iff.rfl (lift_apart (complete_ahead fed socket)) (ite_apart ?_
      (next_apart fun _ => moved_ahead (abandonReply_ahead fed) _) (congrArg pure fed))
    exact iff_of_eq (congrArg (· = true) (expired_ahead fed))

theorem close_shift (asked : Bool) :
    (server.shift span).close socket asked (now + span) =
      shift span <$> server.close socket asked now := by
  refine ite_apart Iff.rfl (next_apart fun _ => ?_) ?_
  all_goals
    refine next_apart fun status => ite_apart Iff.rfl (moved_ahead (by rfl) _) ?_
    refine ite_apart ?_ (moved_ahead (by rfl) _) rfl
    exact iff_of_eq (congrArg (· = true) (expired_ahead (by rfl)))

theorem forceClose_shift :
    (server.shift span).forceClose socket (now + span) =
      shift span <$> server.forceClose socket now :=
  next_apart fun _ => next_apart fun _ => moved_ahead (abandonReply_ahead rfl) _

theorem dropConnection_shift :
    (server.shift span).dropConnection (now + span) = shift span <$> server.dropConnection now := by
  have phase : (server.shift span).phase = server.phase := rfl
  unfold dropConnection
  rw [phase]
  cases server.phase.socket with
  | none => exact congrArg pure (abandonReply_ahead rfl)
  | some socket =>
    exact next_apart fun _ => next_apart fun _ => moved_ahead (abandonReply_ahead rfl) _

theorem advance_shift :
    (server.shift span).advance handlers network context (now + span) =
      Prod.map (shift span) id <$> server.advance handlers network context now := by
  have phase : (server.shift span).phase = server.phase := rfl
  unfold advance
  rw [phase]
  cases server.phase with
  | waiting => exact bind_apart (accept_shift ..) fun _ => rfl
  | receiving socket => exact bind_apart (receive_shift ..) fun _ => rfl
  | processing socket => exact bind_apart (lift_apart (process_shift ..)) fun _ => rfl
  | handling socket route => exact handle_shift ..
  | sending socket => exact bind_apart (sendRest_shift ..) fun _ => rfl
  | failed socket => exact handleNowhere_shift ..
  | closing socket asked => exact bind_apart (close_shift ..) fun _ => rfl
  | forceClosing socket => exact bind_apart (forceClose_shift ..) fun _ => rfl

theorem update_shift :
    (server.shift span).update handlers network context (now + span) =
      Prod.map (shift span) id <$> server.update handlers network context now := by
  refine ite_apart Iff.rfl (bind_apart (pollSockets_shift ..) fun polled => ?_)
    (bind_apart (dropConnection_shift ..) fun _ => rfl)
  exact advance_shift ..

end Server

end BoardNet.Http
