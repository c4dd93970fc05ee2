import BoardNet.Proofs.Effort
import BoardNet.Proofs.Http.Course
import BoardNet.Proofs.Http.Segmentation

namespace BoardNet.Http

open Poll

namespace Outbox

variable {out : Outbox} {socket : SocketId} {chunk : Nat} {trace : List Exchange}

/-- Each round but the last one moves a byte at least. -/
theorem calls_drain {drained : Pumped out} (path : Path (out.drain socket chunk) trace drained) :
    callCount trace ≤ 2 * drained.moved + 2 ∧ callCount trace ≤ 2 * out.pending + 1 := by
  induction out using drain.induct chunk generalizing trace with
  | case1 out ih =>
    rw [drain, Nic.txFree, path_nic_bind] at path
    obtain ⟨free, trace, rfl, path⟩ := path
    dsimp only at path
    split at path
    · obtain ⟨rfl, rfl⟩ := path_done.mp path
      rw [callCount_call, callCount_nil]
      omega
    · next some =>
      rw [Nic.send, path_nic_bind] at path
      obtain ⟨taken, trace, rfl, path⟩ := path
      have most : taken.val ≤ ((out.front.take chunk).take free).length :=
        Nat.le_of_lt_succ taken.isLt
      have offered : 0 < ((out.front.take chunk).take free).length := List.length_pos_iff.mpr some
      have within : ((out.front.take chunk).take free).length ≤ out.front.length := by
        simp only [List.length_take]
        omega
      have front := out.length_front_le
      rw [callCount_call, callCount_call]
      split at path
      · next short =>
        obtain ⟨rfl, rfl⟩ := path_done.mp path
        rw [callCount_nil]
        omega
      · next full =>
        rw [path_bind] at path
        obtain ⟨trace, later, rest, rfl, draining, path⟩ := path
        obtain ⟨rfl, rfl⟩ := path_done.mp path
        obtain ⟨moves, pends⟩ := ih free some taken full draining
        have left := out.pending_advance (Nat.le_trans most within)
        rw [List.append_nil]
        dsimp only
        omega

theorem calls_pump {pumped : Pumped out} (path : Path (out.pump socket chunk) trace pumped) :
    callCount trace ≤ 2 * pumped.moved + 2 ∧ callCount trace ≤ 2 * out.pending + 1 := by
  rw [pump, path_bind] at path
  obtain ⟨trace, later, drained, rfl, draining, path⟩ := path
  obtain ⟨rfl, rfl⟩ := path_done.mp path
  obtain ⟨moves, pends⟩ := calls_drain draining
  rw [List.append_nil]
  exact ⟨moves, pends⟩

end Outbox

namespace Responder

variable {responder after : Responder} {data : List UInt8} {trace : List Exchange}

/-- Each round of a write takes a byte into the outbox or moves one out of it, but for the last. -/
theorem calls_push (path : Path (responder.push data) trace after) :
    callCount trace ≤ 6 * data.length + 4 * responder.out.pending + 2 := by
  induction responder, data using push.induct generalizing trace with
  | case1 responder =>
    rw [push] at path
    obtain ⟨rfl, rfl⟩ := path_done.mp path
    exact Nat.zero_le _
  | case2 responder data some staged out =>
    rename_i full ih
    rw [push, if_neg some] at path
    dsimp only at path
    rw [if_pos full, path_bind] at path
    obtain ⟨before, rest, pumped, rfl, pumping, path⟩ := path
    -- without space the outbox is pumped, and where that moves nothing the rest is lost
    have pumps := (Outbox.calls_pump pumping).1
    rw [callCount_append]
    split at path
    · next stuck =>
      have none : callCount rest = 0 := by
        split at path
        · rw [path_log_bind] at path
          obtain ⟨rest, rfl, path⟩ := path
          obtain ⟨rfl, rfl⟩ := path_done.mp path
          rfl
        · obtain ⟨rfl, rfl⟩ := path_done.mp path
          rfl
      rw [none]
      omega
    · next going =>
      have rests := ih pumped going path
      have balance := pumped.balance
      have staging : (responder.out.stage data).pending = responder.out.pending + staged :=
        Outbox.pending_stage _ _
      simp only [List.length_drop] at rests
      omega
  | case3 responder data some staged out =>
    rename_i spare ih
    rw [push, if_neg some] at path
    dsimp only at path
    rw [if_neg spare] at path
    have rests := ih path
    have taken : staged = min data.length responder.out.space := rfl
    have staging : out.pending = responder.out.pending + staged := Outbox.pending_stage _ _
    simp only [List.length_drop] at rests
    omega

theorem calls_write (path : Path (responder.write data) trace after) :
    callCount trace ≤ 6 * data.length + 4 * responder.out.pending + 2 := by
  rw [write] at path
  have pushing := calls_push path
  exact pushing

end Responder

namespace Request

variable {request fed ended : Request} {data : List UInt8} {parse : Parse} {socket : SocketId}
  {trace : List Exchange}

/-- Bytes that can still come before a request that waits is decided: those that its head has space
for, and those that its body wants. -/
def lack (request : Request) : Nat :=
  if request.headDone then request.bodyWanted else (maxHead - request.raw.length) + maxBody

theorem lack_start (remote : Ipv4) : (start remote).lack = maxHead + maxBody := rfl

theorem lack_pos (waits : request.Waits) : 0 < request.lack := by
  unfold lack
  split
  · next done =>
    have more : (request.fill []).2 = .needMore := by
      have same := congrArg (fun shown => shown.value.2) waits
      rwa [feed_of_headDone done] at same
    simp only [fill, bodyWanted_takeBody, List.length_nil, Nat.sub_zero] at more
    split at more
    · cases more
    · next short => exact Nat.pos_of_ne_zero short
  · exact Nat.lt_of_lt_of_le (by decide : 0 < maxBody) (Nat.le_add_left _ _)

theorem lack_le (request : Request) : request.lack ≤ maxHead + maxBody := by
  have wanted := request.bodyWanted_le
  unfold lack
  split <;> omega

/-- A body that goes on wanting bytes has taken all that there were. -/
theorem beginBody_needMore {before rest : List UInt8}
    (more : (request.beginBody before rest).value = (fed, .needMore)) :
    fed.lack + rest.length ≤ maxBody := by
  have done := headDone_readHead request before
  rw [beginBody, Logged.value_bind] at more
  generalize (request.readHead before).value = reading at done more
  obtain ⟨read, _ | code⟩ := reading
  · obtain ⟨rfl, short⟩ := fill_needMore more
    have kept : (read.takeBody rest).headDone = true := done
    have most := read.bodyWanted_le
    rw [lack, if_pos kept, bodyWanted_takeBody]
    omega
  · cases more

/-- Bytes that do not decide a request leave it lacking less. -/
theorem lack_feed_lt (nonempty : data ≠ [])
    (more : (request.feed data).value = (fed, .needMore)) : fed.lack < request.lack := by
  have length := List.length_pos_iff.mpr nonempty
  by_cases done : request.headDone = true
  · rw [feed_of_headDone done] at more
    obtain ⟨rfl, short⟩ := fill_needMore more
    have kept : (request.takeBody data).headDone = true := done
    rw [lack, lack, if_pos kept, if_pos done, bodyWanted_takeBody]
    omega
  · have undone : request.headDone = false := Bool.eq_false_iff.mpr done
    cases found : splitHead? (request.collect data).raw with
    | none =>
      rw [feed_of_no_end undone found, Logged.value_pure, Prod.mk.injEq] at more
      obtain ⟨rfl, wanted⟩ := more
      have free : ¬(request.collect data).raw.length ≥ maxHead := by
        intro full
        rw [if_pos full] at wanted
        cases wanted
      have kept : ¬(request.collect data).headDone = true := done
      have space := space_collect request data
      rw [lack, lack, if_neg kept, if_neg done]
      omega
    | some parts =>
      obtain ⟨before, after⟩ := parts
      rw [feed_of_end undone found] at more
      have rest := beginBody_needMore more
      rw [List.length_append, List.length_drop] at rest
      rw [lack.eq_1 request, if_neg done]
      omega

end Request

namespace Server

variable {request ended : Request} {parse : Parse} {socket : SocketId} {trace : List Exchange}

/-- Each round of reading but the last feeds the request. -/
theorem Fetches.calls (fetches : Fetches socket request trace ended parse) :
    callCount trace ≤ 2 * feedsOn socket trace + 2 := by
  induction fetches with
  | nothing request => exact Nat.le_add_left _ _
  | empty request waiting none => exact Nat.le_add_left _ _
  | more waiting some feeds rest ih =>
    rw [callCount_call, callCount_call, callCount_append, callCount_recorded, feedsOn_cons rfl,
      feedsOn_received, if_neg some, feedsOn_append, feedsOn_recorded]
    omega
  | decided waiting some feeds last =>
    rw [callCount_call, callCount_call, callCount_recorded, feedsOn_cons rfl,
      feedsOn_received, if_neg some, feedsOn_recorded]
    omega

/-- A request is fed no more often than it lacks bytes, but for what decides one that lacks none. -/
theorem Fetches.feeds (fetches : Fetches socket request trace ended parse) :
    feedsOn socket trace ≤ max 1 request.lack ∧
      (parse = .needMore → feedsOn socket trace + ended.lack ≤ request.lack) := by
  induction fetches with
  | nothing request => exact ⟨Nat.zero_le _, fun _ => Nat.le_of_eq (Nat.zero_add _)⟩
  | empty request waiting none =>
    rw [feedsOn_cons rfl, feedsOn_received, if_pos none]
    exact ⟨Nat.zero_le _, fun _ => Nat.le_of_eq (Nat.zero_add _)⟩
  | more waiting some feeds rest ih =>
    have less := Request.lack_feed_lt some feeds
    have waits := Request.lack_pos (Request.waits_feed feeds)
    rw [feedsOn_cons rfl, feedsOn_received, if_neg some, feedsOn_append, feedsOn_recorded]
    obtain ⟨most, left⟩ := ih
    refine ⟨by omega, fun more => ?_⟩
    have left := left more
    omega
  | decided waiting some feeds last =>
    rw [feedsOn_cons rfl, feedsOn_received, if_neg some, feedsOn_recorded]
    exact ⟨Nat.le_max_left _ _, fun more => absurd more last⟩

/-- Even one that lacks none is fed no more often than a request can have bytes. -/
theorem Fetches.feeds_le (fetches : Fetches socket request trace ended parse) :
    feedsOn socket trace ≤ maxHead + maxBody :=
  Nat.le_trans fetches.feeds.1 (Nat.max_le.mpr ⟨by decide, request.lack_le⟩)

/-- A request goes on waiting as long as it is not decided. -/
theorem Fetches.waits (fetches : Fetches socket request trace ended parse) (waits : request.Waits)
    (more : parse = .needMore) : ended.Waits := by
  induction fetches with
  | nothing request => exact waits
  | empty request waiting none => exact waits
  | more waiting some feeds rest ih => exact ih (Request.waits_feed feeds) more
  | decided waiting some feeds last => exact absurd more last

section Engine

variable {E C : Type} {start server after : Server E}
  {history : List (Deed E C)} {now : Millis}

/-- What is heard is fed to the request, which lacks the less the longer it is read. -/
theorem feeds_hear {heard : Server E} {refused : Option Code} (waits : server.request.Waits)
    (path : Path (server.hear socket now) trace (heard, refused)) :
    feedsOn socket trace ≤ server.request.lack ∧
      (refused = none → ∀ held, heard.phase = .receiving held → heard.request.Waits ∧
        feedsOn socket trace + heard.request.lack ≤ server.request.lack) := by
  obtain ⟨reading, rest, request, parse, rfl, path, passive, headEnd, same⟩ := path_hear_reads path
  have fetches := path_readRequest path
  obtain ⟨most, left⟩ := fetches.feeds
  have behind : feedsOn socket rest = 0 :=
    feedsOn_eq_zero fun exchange member => (passive exchange member).2
  rw [feedsOn_append, behind, Nat.add_zero]
  refine ⟨Nat.le_trans most (Nat.max_le.mpr ⟨Request.lack_pos waits, Nat.le_refl _⟩), ?_⟩
  rcases same with ⟨rfl, more⟩ | ⟨-, rfl⟩ | ⟨-, rfl⟩
  · exact fun kept _ _ => ⟨fetches.waits waits (more kept), left (more kept)⟩
  · nofun
  · nofun

/-- A scan receives nothing. -/
theorem feedsOn_pollSockets (path : Path (server.pollSockets now) trace after) :
    feedsOn socket trace = 0 := by
  have inspects : SlotWatch.Inspects (·.source = none) server.phase.socket :=
    ⟨fun _ => rfl, fun _ => rfl, fun _ => rfl, fun _ _ => rfl, fun _ => rfl⟩
  refine path.feedsOn_eq_zero ((SlotWatch.asks_poll inspects rfl (fun _ => rfl) _).bind ?_)
  rintro ⟨watch, _ | sweep⟩ <;> trivial

theorem feedsOn_settle {reached : Reached E} {ended : Responder} {held : SocketId}
    (path : Path (server.settle reached ended held now) trace after) :
    feedsOn socket trace = 0 := by
  have finishing : ended.finish.Asks (·.source = none) := Responder.asks_finish rfl fun _ => rfl
  exact path.feedsOn_eq_zero (finishing.bind fun finished => asks_entering (fun _ => rfl) _)

/-- How far the request of a connection has been fed. -/
structure Feeding (socket : SocketId) (history : List (Deed E C)) (server : Server E) : Prop where
  most : feedsOn socket (engineOf history) ≤ maxHead + maxBody
  /-- While a request is read, it still lacks what it has not been fed. -/
  reading : ∀ held, server.phase = .receiving held → server.request.Waits ∧
    feedsOn socket (engineOf history) + server.request.lack ≤ maxHead + maxBody

private theorem Feeding.scanned {watch : List Exchange} {watched : Server E}
    (feeding : Feeding socket history server) (scan : Path (server.pollSockets now) watch watched) :
    Feeding socket history watched := by
  obtain ⟨-, kept⟩ := path_pollSockets scan
  rw [kept]
  exact ⟨feeding.most, feeding.reading⟩

/-- A request is not fed any more once it is not read. -/
private theorem Feeding.over {deed : Deed E C} (feeding : Feeding socket history server)
    (none : feedsOn socket deed.engine = 0) (done : ∀ held, after.phase ≠ .receiving held) :
    Feeding socket (history ++ [deed]) after := by
  refine ⟨?_, fun held receiving => absurd receiving (done held)⟩
  rw [engineOf_append, feedsOn_append, none]
  exact feeding.most

private theorem Feeding.moved {deed : Deed E C} (feeding : Feeding socket history server)
    (going : server.phase ≠ .waiting)
    (held : ∀ held, server.phase.socket = some held → held = socket)
    (moves : Moves now server trace after)
    (engine : feedsOn socket deed.engine = feedsOn socket trace) :
    Feeding socket (history ++ [deed]) after := by
  cases moves with
  | accept waiting path => exact absurd waiting going
  | @hear source trace after receiving path =>
    obtain rfl : source = socket := held source (by rw [receiving]; rfl)
    obtain ⟨waits, total⟩ := feeding.reading source receiving
    obtain ⟨most, left⟩ := feeds_hear waits path
    constructor
    · rw [engineOf_append, feedsOn_append, engine]
      omega
    · intro held still
      obtain ⟨waits, left⟩ := left rfl held still
      refine ⟨waits, ?_⟩
      rw [engineOf_append, feedsOn_append, engine]
      omega
  | process processing path =>
    obtain ⟨-, next, rfl, leads⟩ := path_process path
    refine feeding.over (engine.trans ?_) ?_
    · exact path.feedsOn_eq_zero (asks_lift fun _ => rfl)
    · rcases leads with rfl | ⟨found, rfl⟩ <;> exact nofun
  | send sending path =>
    obtain ⟨-, same⟩ := path_sendRest path
    refine feeding.over (engine.trans ?_) ?_
    · exact path.feedsOn_eq_zero
        (asks_sendRest (fun _ => rfl) (fun _ => rfl) (fun _ => rfl) fun _ _ => rfl)
    · rcases same with ⟨-, rfl⟩ | ⟨out, timer, -, -, ⟨-, rfl⟩ | rfl | ⟨-, rfl⟩⟩
      · nofun
      · nofun
      · nofun
      · rw [sending]
        nofun
  | close closing path =>
    obtain ⟨rest, -, -, same⟩ := path_close path
    refine feeding.over (engine.trans ?_) ?_
    · exact path.feedsOn_eq_zero (asks_close (fun _ => rfl) (fun _ => rfl) fun _ => rfl)
    · rcases same with rfl | rfl | rfl <;> exact nofun
  | force forcing path =>
    obtain ⟨-, rfl⟩ := path_forceClose path
    refine feeding.over (engine.trans ?_) nofun
    exact path.feedsOn_eq_zero (asks_forceClose (fun _ => rfl) fun _ => rfl)

/-- What goes before an answer ends the reading of the request. -/
private theorem Feeding.turned {before : List Exchange} {reached : Reached E} {held : SocketId}
    {asked : Server E} (feeding : Feeding socket history server)
    (holds : ∀ held, server.phase.socket = some held → held = socket)
    (turns : Turns now server before reached held asked) :
    feedsOn socket (engineOf history) + feedsOn socket before ≤ maxHead + maxBody := by
  cases turns with
  | refuse receiving path =>
    obtain rfl : held = socket := holds held (by rw [receiving]; rfl)
    obtain ⟨waits, total⟩ := feeding.reading held receiving
    have most := (feeds_hear waits path).1
    omega
  | route handling => exact feeding.most
  | nowhere failed => exact feeding.most

variable {handlers : E → Handler C} {network : Link.Status} {context left : C} {deed : Deed E C}

/-- Every update feeds the request of a connection as far as it lacks bytes. -/
theorem Feeding.served (feeding : Feeding socket history server)
    (standing : Standing start socket history server) (going : server.phase ≠ .waiting)
    (serves : Serves handlers network now server context deed after left) :
    Feeding socket (history ++ [deed]) after := by
  cases serves with
  | @drop trace after down path =>
    obtain ⟨timer, rfl⟩ := path_dropConnection_waits path
    have none : feedsOn socket trace = 0 :=
      path.feedsOn_eq_zero (asks_dropConnection (fun _ => rfl) fun _ => rfl)
    exact feeding.over (by simp [Deed.engine, none]) nofun
  | @move watch trace watched after up scan moves =>
    obtain ⟨phase, scanned⟩ := standing.scanned scan
    have quiet : feedsOn socket watch = 0 := feedsOn_pollSockets scan
    refine (feeding.scanned scan).moved (by rw [phase]; exact going) scanned.held moves ?_
    simp [Deed.engine, quiet]
  | @answer watch before trace watched asked after source answer up scan turns request begun given
      made settles =>
    obtain ⟨-, scanned⟩ := standing.scanned scan
    have quiet : feedsOn socket watch = 0 := feedsOn_pollSockets scan
    have turned := (feeding.scanned scan).turned scanned.held turns
    have settling : feedsOn socket trace = 0 := feedsOn_settle settles
    have engine : feedsOn socket (watch ++ before ++ trace) = feedsOn socket before := by
      simp [quiet, settling]
    obtain ⟨out, -, -, -, same⟩ := path_settle settles
    refine ⟨?_, fun held receiving => ?_⟩
    · rw [engineOf_append, feedsOn_append]
      exact engine ▸ turned
    · rcases same with ⟨-, rfl⟩ | ⟨-, rfl⟩
      · cases receiving
      · cases receiving

/-- A connection that was accepted lacks its whole request. -/
private theorem feeding_accepted (waiting : start.phase = .waiting)
    (serves : Serves handlers network now start context deed after left)
    (receiving : after.phase = .receiving socket) :
    Feeding socket ([] : List (Deed E C)) after := by
  obtain ⟨watched, remote, -, rfl⟩ := serves.accepting waiting receiving
  exact ⟨Nat.zero_le _, fun held _ => ⟨Request.waits_start remote,
    Nat.le_of_eq ((Nat.zero_add _).trans (Request.lack_start remote))⟩⟩

/-- A request is fed as far as it lacks bytes throughout the course of its connection. -/
theorem Course.feeding (course : Course handlers start socket history server) :
    Feeding socket history server := by
  induction course with
  | accepted waiting updates receiving => exact feeding_accepted waiting updates.serves receiving
  | update course going updates ih => exact ih.served course.standing going updates.serves

end Engine

end Server

end BoardNet.Http
