import BoardNet.Proofs.Http.Transition
import BoardNet.Proofs.Shift.Clock
import BoardNet.Proofs.WebSocket.Listening

/-!
What the watch over the sockets does in one scan after another. Of each socket it keeps what the
last scan showed and since when, which is all that a scan needs to know of the scans before it: a
socket is closed just when it has shown the same for too long in all of them, back to the first that
showed it so or to the last that closed it.
-/

namespace BoardNet

def Sim.Socket.shown (slot : Socket) : SocketStatus × UInt16 := (slot.status, slot.port)

namespace Http

open Poll Sim

/-- The sockets that are closed in some exchanges, in order. -/
def closedIn (trace : List Exchange) : List SocketId :=
  trace.filterMap fun exchange =>
    match exchange.effect with
    | .call (.close socket) => some socket
    | _ => none

@[simp] theorem closedIn_append (trace later : List Exchange) :
    closedIn (trace ++ later) = closedIn trace ++ closedIn later :=
  List.filterMap_append

theorem closedIn_eq_nil {trace : List Exchange}
    (spares : ∀ exchange ∈ trace, exchange.effect.isRelease = false) : closedIn trace = [] := by
  refine List.filterMap_eq_nil_iff.mpr fun exchange member => ?_
  have spared := spares exchange member
  split
  · next closes =>
    rw [closes] at spared
    cases spared
  · rfl

/-- What is remembered of a slot is what it shows. -/
def Shadow.Matches (shadow : Shadow) (slot : Socket) : Prop :=
  slot.status = shadow.status ∧ slot.port = shadow.port

instance (shadow : Shadow) (slot : Socket) : Decidable (shadow.Matches slot) :=
  inferInstanceAs (Decidable (_ ∧ _))

namespace SlotWatch

variable {settings : Settings} {active : Option SocketId} {now age : Millis} {socket : SocketId}
  {shadow : Shadow} {rig after : Rig} {trace : List Exchange}

/-- A slot that has shown the same for `age` milliseconds is stuck. -/
def Stuck (settings : Settings) (slot : Socket) (age : Millis) : Prop :=
  slot.status.isTransitional = true ∧ settings.staleSocket < age ∨
    slot.status = .established ∧ slot.port = settings.port ∧ slot.unread = [] ∧
      2 * settings.staleSocket < age

instance (settings : Settings) (slot : Socket) (age : Millis) :
    Decidable (Stuck settings slot age) :=
  inferInstanceAs (Decidable (_ ∨ _))

/-- Nothing is stuck that shows what it did not show before. -/
theorem not_stuck_at_once (slot : Socket) : ¬Stuck settings slot (elapsed now now) := by
  rintro (⟨-, late⟩ | ⟨-, -, -, late⟩)
  · exact absurd late (UInt32.not_lt.mpr (elapsed_self_le now _))
  · exact absurd late (UInt32.not_lt.mpr (elapsed_self_le now _))

/-- What is made of a slot: what to remember of it, and whether it is closed. -/
def verdict (settings : Settings) (active : Option SocketId) (now : Millis) (socket : SocketId)
    (slot : Socket) (shadow : Shadow) : Shadow × Bool :=
  if shadow.Matches slot then
    if some socket ≠ active ∧ Stuck settings slot (elapsed now shadow.since) then
      (⟨.closed, 0, now⟩, true)
    else (shadow, false)
  else (⟨slot.status, slot.port, now⟩, false)

/-- A slot is closed just when it is stuck and serves no request. -/
theorem verdict_closes {slot : Socket} :
    (verdict settings active now socket slot shadow).2 = true ↔
      shadow.Matches slot ∧ some socket ≠ active ∧
        Stuck settings slot (elapsed now shadow.since) := by
  unfold verdict
  split
  · next same =>
    split
    · next stuck => exact ⟨fun _ => ⟨same, stuck⟩, fun _ => rfl⟩
    · next well => exact ⟨nofun, fun closes => absurd closes.2 well⟩
  · next new => exact ⟨nofun, fun closes => absurd closes.1 new⟩

/-- Of a slot that is not closed the watch remembers what it did, or what it sees now. -/
theorem verdict_remembers {slot : Socket}
    (left : (verdict settings active now socket slot shadow).2 = false) :
    (verdict settings active now socket slot shadow).1 =
      if shadow.Matches slot then shadow else ⟨slot.status, slot.port, now⟩ := by
  unfold verdict at left ⊢
  split
  · next same =>
    rw [if_pos same] at left
    split at left
    · cases left
    · next well => rw [if_neg well]
  · rfl

/-- What it remembers of one that it closes is that it is closed. -/
theorem verdict_closed {slot : Socket}
    (closes : (verdict settings active now socket slot shadow).2 = true) :
    (verdict settings active now socket slot shadow).1.status = .closed := by
  obtain ⟨same, stuck⟩ := verdict_closes.mp closes
  rw [verdict, if_pos same, if_pos stuck]

theorem leads_isStuck {found : Bool} (same : shadow.Matches (rig.nic.socket socket))
    (path : Path (isStuck settings socket shadow age) trace found)
    (leads : Rig.chip.Leads rig trace after) :
    after = rig ∧ closedIn trace = [] ∧
      (found = true ↔ Stuck settings (rig.nic.socket socket) age) := by
  unfold Stuck
  rw [same.1, same.2]
  unfold isStuck at path
  split at path
  · next transitional =>
    obtain ⟨rfl, rfl⟩ := path_done.mp path
    have half : shadow.status ≠ .established := by
      intro established
      rw [established] at transitional
      cases transitional
    exact ⟨leads, rfl, by simp [transitional, half]⟩
  · next whole =>
    split at path
    · next long =>
      rw [Nic.rxAvailable, path_nic_bind] at path
      obtain ⟨waiting, rest, rfl, path⟩ := path
      obtain ⟨rfl, leads⟩ := leads
      obtain ⟨rfl, rfl⟩ := path_done.mp path
      refine ⟨leads, rfl, ?_⟩
      change decide ((rig.nic.socket socket).unread.length = 0) = true ↔ _
      simp [long, SocketStatus.isTransitional]
    · next other =>
      obtain ⟨rfl, rfl⟩ := path_done.mp path
      refine ⟨leads, rfl, ?_⟩
      refine iff_of_false Bool.false_ne_true ?_
      rintro (⟨transitional, -⟩ | ⟨established, bound, -, long⟩)
      · exact absurd transitional whole
      · exact absurd ⟨established, bound, long⟩ other

/-- A look at a socket comes to its verdict, and does nothing to the others. -/
theorem leads_inspect {result : Shadow × Bool}
    (path : Path (inspect settings active now socket shadow) trace result)
    (leads : Rig.chip.Leads rig trace after) :
    result = verdict settings active now socket (rig.nic.socket socket) shadow ∧
      closedIn trace = (if result.2 then [socket] else []) ∧
      ∀ other, other ≠ socket → after.nic.socket other = rig.nic.socket other := by
  rw [inspect, Nic.socketStatus, path_nic_bind] at path
  obtain ⟨status, rest, rfl, path⟩ := path
  obtain ⟨shown, leads⟩ := leads
  rw [Nic.socketPort, path_nic_bind] at path
  obtain ⟨port, rest, rfl, path⟩ := path
  obtain ⟨bound, leads⟩ := leads
  obtain rfl : status = (rig.nic.socket socket).status := shown
  obtain rfl : port = (rig.nic.socket socket).port := bound
  change Rig.chip.Leads rig rest after at leads
  unfold verdict
  split at path
  · next differs =>
    obtain ⟨rfl, rfl⟩ := path_done.mp path
    obtain rfl : after = rig := leads
    rw [if_neg fun same => differs.elim (fun new => new same.1) fun new => new same.2]
    exact ⟨rfl, rfl, fun other different => rfl⟩
  · next same =>
    have same : shadow.Matches (rig.nic.socket socket) := by
      simpa [Shadow.Matches] using same
    rw [if_pos same]
    split at path
    · next serving =>
      obtain ⟨rfl, rfl⟩ := path_done.mp path
      obtain rfl : after = rig := leads
      rw [if_neg fun closes => closes.1 serving]
      exact ⟨rfl, rfl, fun other different => rfl⟩
    -- only a slot that shows the same as before can be stuck
    · next other =>
      dsimp only at path
      obtain ⟨looks, rest, found, rfl, looking, going⟩ := path_bind.mp path
      obtain ⟨between, looked, onward⟩ := Chip.leads_append.mp leads
      obtain ⟨rfl, silent, stuck⟩ := leads_isStuck same looking looked
      change _ ∧ closedIn (looks ++ rest) = _ ∧ _
      rw [closedIn_append, silent, List.nil_append]
      cases found with
      | false =>
        obtain ⟨rfl, rfl⟩ := path_done.mp going
        obtain rfl : after = between := onward
        rw [if_neg fun closes => Bool.false_ne_true (stuck.mpr closes.2)]
        exact ⟨rfl, rfl, fun other different => rfl⟩
      | true =>
        rw [if_pos rfl, path_log_bind] at going
        obtain ⟨rest, rfl, going⟩ := going
        rw [Nic.close, path_nic_bind] at going
        obtain ⟨_, rest, rfl, going⟩ := going
        obtain ⟨rfl, rfl⟩ := path_done.mp going
        obtain ⟨-, gone⟩ := onward
        rw [if_pos ⟨other, stuck.mp rfl⟩]
        refine ⟨rfl, rfl, ?_⟩
        intro third different
        rw [show after = { between with nic := between.nic.close socket } from gone]
        change (between.nic.close socket).socket third = _
        rw [Controller.socket_close, if_neg (Ne.symm different)]

def judge (watch : SlotWatch) (settings : Settings) (active : Option SocketId) (now : Millis)
    (nic : Controller) (socket : SocketId) : Shadow × Bool :=
  verdict settings active now socket (nic.socket socket) (watch.shadows.get socket)

theorem get_set_self (shadows : Vector Shadow maxSockets) :
    (shadows.set socket shadow socket.isLt).get socket = shadow :=
  Vector.getElem_set_self socket.isLt

theorem get_set_other {shadows : Vector Shadow maxSockets} {other : SocketId}
    (different : socket ≠ other) :
    (shadows.set socket shadow socket.isLt).get other = shadows.get other :=
  Vector.getElem_set_ne socket.isLt other.isLt fun same => different (Fin.ext same)

/-- Looking at some sockets comes to the verdict on each of them as the scan found it, whatever it
does to the others. -/
theorem leads_inspectAll {nic : Controller} {sockets : List SocketId} {watch seen : SlotWatch}
    {already closed : Nat} (distinct : sockets.Nodup)
    (unchanged : ∀ socket ∈ sockets, rig.nic.socket socket = nic.socket socket)
    (path : Path (inspectAll settings active now sockets watch already) trace (seen, closed))
    (leads : Rig.chip.Leads rig trace after) :
    (∀ socket ∈ sockets,
        seen.shadows.get socket = (watch.judge settings active now nic socket).1) ∧
      (∀ socket ∉ sockets, seen.shadows.get socket = watch.shadows.get socket) ∧
      closedIn trace =
        sockets.filter (fun socket => (watch.judge settings active now nic socket).2) ∧
      closed = already + (closedIn trace).length := by
  induction sockets generalizing rig watch already trace with
  | nil =>
    obtain ⟨rfl, same⟩ := path_done.mp path
    cases same
    exact ⟨nofun, fun _ _ => rfl, rfl, rfl⟩
  | cons first sockets ih =>
    obtain ⟨out, distinct⟩ := List.nodup_cons.mp distinct
    rw [inspectAll, path_bind] at path
    obtain ⟨looks, rest, result, rfl, looking, going⟩ := path
    obtain ⟨between, looked, onward⟩ := Chip.leads_append.mp leads
    obtain ⟨judged, closes, spared⟩ := leads_inspect looking looked
    rw [unchanged first List.mem_cons_self] at judged
    change result = watch.judge settings active now nic first at judged
    have apart (socket : SocketId) (member : socket ∈ sockets) : socket ≠ first := by
      rintro rfl
      exact out member
    obtain ⟨later, kept, also, total⟩ := ih distinct (fun socket member =>
      (spared socket (apart socket member)).trans
        (unchanged socket (List.mem_cons_of_mem first member))) going onward
    -- What is remembered of the first slot is no matter for the others.
    have alike (socket : SocketId) (member : socket ∈ sockets) :
        ({ watch with shadows := watch.shadows.set first result.1 } : SlotWatch).judge settings
          active now nic socket = watch.judge settings active now nic socket :=
      congrArg (verdict settings active now socket (nic.socket socket))
        (get_set_other (Ne.symm (apart socket member)))
    refine ⟨?_, ?_, ?_, ?_⟩
    · intro socket member
      rcases List.mem_cons.mp member with rfl | member
      · exact (kept socket out).trans ((get_set_self _).trans (congrArg Prod.fst judged))
      · exact (later socket member).trans (congrArg Prod.fst (alike socket member))
    · intro socket absent
      have different := List.ne_of_not_mem_cons absent
      have further := kept socket (List.not_mem_of_not_mem_cons absent)
      exact further.trans (get_set_other (Ne.symm different))
    · rw [closedIn_append, closes, also, List.filter_cons, ← judged,
        List.filter_congr fun socket member => congrArg Prod.snd (alike socket member)]
      cases result.2 <;> rfl
    · rw [closedIn_append, List.length_append, closes, total]
      cases result.2 with
      | false => simp
      | true => simp [Nat.add_assoc]

/-- When the listener was looked after there is one, or the controller would not open it. -/
theorem leads_restoreListener {restarted : Bool}
    (path : Path (restoreListener settings) trace restarted)
    (leads : Rig.chip.Leads rig trace after) :
    closedIn trace = [] ∧
      (after.nic.Listens settings.port ∨
        ∃ error, ⟨.call (.listen settings.port), Except.error error⟩ ∈ trace) := by
  rw [restoreListener, path_bind] at path
  obtain ⟨looks, rest, found, rfl, looking, going⟩ := path
  obtain ⟨between, looked, onward⟩ := Chip.leads_append.mp leads
  obtain ⟨rfl, listens⟩ := Rig.leads_isListening looking looked
  have spares : (Nic.isListening settings.port).Asks (·.isRelease = false) :=
    Nic.asks_isListening rfl (fun _ => rfl) fun _ => rfl
  have silent : closedIn looks = [] := closedIn_eq_nil (looking.effect_allowed spares)
  rw [closedIn_append, silent, List.nil_append]
  cases found with
  | true =>
    obtain ⟨rfl, rfl⟩ := path_done.mp going
    obtain rfl : after = between := onward
    obtain ⟨socket, -, listening⟩ := listens.mp rfl
    exact ⟨rfl, .inl ⟨socket, listening⟩⟩
  | false =>
    rw [if_neg Bool.false_ne_true, Nic.listen, path_nic_bind] at going
    obtain ⟨opened, rest, rfl, going⟩ := going
    obtain ⟨given, onward⟩ := onward
    cases opened with
    | ok socket =>
      rw [path_log_bind] at going
      obtain ⟨rest, rfl, going⟩ := going
      obtain ⟨rfl, rfl⟩ := path_done.mp going
      refine ⟨rfl, .inl ⟨socket, ?_⟩⟩
      obtain rfl : after = { between with nic := (between.nic.listen settings.port).2 } := onward
      have given : (between.nic.listen settings.port).1 = .ok socket := given.symm
      have state := (Controller.listen_ok given).2
      change ((between.nic.listen settings.port).2.socket socket).Listens settings.port
      rw [state, Controller.socket_modify_self]
      exact ⟨rfl, rfl⟩
    | error error =>
      rw [path_log_bind] at going
      obtain ⟨rest, rfl, going⟩ := going
      obtain ⟨rfl, rfl⟩ := path_done.mp going
      exact ⟨rfl, .inr ⟨error, List.mem_append_right looks List.mem_cons_self⟩⟩

/-- A scan comes to its verdict on each socket, closes those that are stuck, and sees to the
listener. -/
theorem leads_check {watch seen : SlotWatch} {sweep : Sweep}
    (path : Path (watch.check settings active now) trace (seen, sweep))
    (leads : Rig.chip.Leads rig trace after) :
    (∀ socket : SocketId, socket.val < rig.reported →
        seen.shadows.get socket = (watch.judge settings active now rig.nic socket).1) ∧
      closedIn trace = (Nic.sockets rig.reported).filter
        (fun socket => (watch.judge settings active now rig.nic socket).2) ∧
      sweep.closed = (closedIn trace).length ∧
      (after.nic.Listens settings.port ∨
        ∃ error, ⟨.call (.listen settings.port), Except.error error⟩ ∈ trace) := by
  rw [check, Nic.socketCount, path_nic_bind] at path
  obtain ⟨count, rest, rfl, path⟩ := path
  obtain ⟨counted, leads⟩ := leads
  obtain rfl : count = rig.reported := counted
  obtain ⟨looks, rest, ⟨looked, closed⟩, rfl, looking, path⟩ := path_bind.mp path
  obtain ⟨between, visited, onward⟩ := Chip.leads_append.mp leads
  obtain ⟨restores, last, restarted, rfl, restoring, path⟩ := path_bind.mp path
  obtain ⟨rfl, same⟩ := path_done.mp path
  cases same
  rw [List.append_nil] at onward
  have distinct : (Nic.sockets rig.reported).Nodup :=
    (List.nodup_finRange _).sublist (List.take_sublist _ _)
  obtain ⟨judged, -, closes, total⟩ :=
    leads_inspectAll distinct (fun _ _ => rfl) looking visited
  obtain ⟨silent, listens⟩ := leads_restoreListener restoring onward
  have all : closedIn (⟨.call .socketCount, rig.reported⟩ :: (looks ++ (restores ++ []))) =
      closedIn looks := by
    change closedIn (looks ++ (restores ++ [])) = _
    simp [silent]
  rw [all]
  refine ⟨fun socket below => judged socket (Nic.mem_sockets.mpr below), closes, ?_, ?_⟩
  · rw [total, Nat.zero_add]
  · refine listens.imp_right ?_
    rintro ⟨error, member⟩
    exact ⟨error, by simp [member]⟩

/-- A scan that was made: the controller that it found, the socket that served a request, and the
time. -/
structure Scan where
  rig : Rig
  active : Option SocketId := none
  now : Millis

namespace Scan

def ran (scan : Scan) (settings : Settings) (watch : SlotWatch) : Ran Rig (SlotWatch × Sweep) :=
  (watch.check settings scan.active scan.now).run Rig.chip scan.rig

def asked (scan : Scan) (settings : Settings) (watch : SlotWatch) : List Exchange :=
  (watch.check settings scan.active scan.now).exchanges Rig.chip scan.rig

end Scan

/-- The watch after some scans, the latest of which comes first. -/
def afterScans (settings : Settings) : List Scan → SlotWatch
  | [] => {}
  | scan :: earlier => (scan.ran settings (afterScans settings earlier)).value.1

namespace Scan

def closes (scan : Scan) (settings : Settings) (earlier : List Scan) : List SocketId :=
  closedIn (scan.asked settings (afterScans settings earlier))

/-- The first scan of the unbroken run of scans up to this one in which a slot showed the same. A
run is broken where the watch closes the slot. -/
def beginning (scan : Scan) (settings : Settings) (socket : SocketId) : List Scan → Scan
  | [] => scan
  | last :: earlier =>
    if (last.rig.nic.socket socket).shown = (scan.rig.nic.socket socket).shown ∧
        socket ∉ last.closes settings earlier then
      last.beginning settings socket earlier
    else scan

end Scan

/-- What is remembered of a slot sums up the scans. Of a closed slot the time does not matter. -/
def Remembers (settings : Settings) (socket : SocketId) (shadow : Shadow) : List Scan → Prop
  | [] => shadow.status = .closed
  | last :: earlier =>
    if socket ∈ last.closes settings earlier then shadow.status = .closed
    else shadow.Matches (last.rig.nic.socket socket) ∧
      ((last.rig.nic.socket socket).status ≠ .closed →
        shadow.since = (last.beginning settings socket earlier).now)

variable {scan : Scan} {earlier scans : List Scan} {count : Nat}

/-- So a slot that shows what is remembered of it has shown it since then, and any other only
now. -/
theorem Remembers.beginning (remembers : Remembers settings socket shadow earlier)
    (used : (scan.rig.nic.socket socket).status ≠ .closed) :
    (scan.beginning settings socket earlier).now =
      if shadow.Matches (scan.rig.nic.socket socket) then shadow.since else scan.now := by
  cases earlier with
  | nil =>
    have closed : shadow.status = .closed := remembers
    rw [if_neg fun same => used (same.1.trans closed)]
    rfl
  | cons last earlier =>
    rw [Remembers] at remembers
    rw [Scan.beginning]
    split at remembers
    · next broken =>
      rw [if_neg fun run => run.2 broken, if_neg fun same => used (same.1.trans remembers)]
    · next whole =>
      obtain ⟨shown, since⟩ := remembers
      by_cases same : shadow.Matches (scan.rig.nic.socket socket)
      · have status := shown.1.trans same.1.symm
        have alike : (last.rig.nic.socket socket).shown = (scan.rig.nic.socket socket).shown :=
          Prod.ext status (shown.2.trans same.2.symm)
        rw [if_pos ⟨alike, whole⟩, if_pos same]
        exact (since fun closed => used (status.symm.trans closed)).symm
      · have unlike : (last.rig.nic.socket socket).shown ≠ (scan.rig.nic.socket socket).shown := by
          intro alike
          refine same ⟨?_, ?_⟩
          · exact (congrArg Prod.fst alike).symm.trans shown.1
          · exact (congrArg Prod.snd alike).symm.trans shown.2
        rw [if_neg fun run => unlike run.1, if_neg same]

/-- Nothing is stuck that is closed. -/
theorem Stuck.used {slot : Socket} (stuck : Stuck settings slot age) : slot.status ≠ .closed := by
  intro closed
  rcases stuck with ⟨transitional, -⟩ | ⟨established, -⟩
  · rw [closed] at transitional
    cases transitional
  · rw [closed] at established
    cases established

/-- The verdict on a slot, from the scans instead of from what is remembered of it. -/
theorem Remembers.verdict (remembers : Remembers settings socket shadow earlier) :
    (verdict settings scan.active scan.now socket (scan.rig.nic.socket socket) shadow).2 = true ↔
      scan.active ≠ some socket ∧ Stuck settings (scan.rig.nic.socket socket)
        (elapsed scan.now (scan.beginning settings socket earlier).now) := by
  rw [verdict_closes]
  constructor
  · rintro ⟨same, serving, stuck⟩
    refine ⟨Ne.symm serving, ?_⟩
    rwa [remembers.beginning stuck.used, if_pos same]
  · rintro ⟨serving, stuck⟩
    rw [remembers.beginning stuck.used] at stuck
    split at stuck
    · next same => exact ⟨same, Ne.symm serving, stuck⟩
    · exact absurd stuck (not_stuck_at_once _)

/-- After the scan what is remembered of a slot sums up one scan more. -/
theorem Remembers.next {result : Shadow × Bool}
    (remembers : Remembers settings socket shadow earlier)
    (judged : result = SlotWatch.verdict settings scan.active scan.now socket
      (scan.rig.nic.socket socket) shadow)
    (closes : socket ∈ scan.closes settings earlier ↔ result.2 = true) :
    Remembers settings socket result.1 (scan :: earlier) := by
  subst judged
  rw [Remembers]
  split
  · next closed => exact verdict_closed (closes.mp closed)
  · next left =>
    rw [verdict_remembers (Bool.eq_false_iff.mpr (mt closes.mpr left))]
    split
    · next same =>
      refine ⟨same, ?_⟩
      intro used
      rw [remembers.beginning used, if_pos same]
    · next new =>
      refine ⟨⟨rfl, rfl⟩, ?_⟩
      intro used
      rw [remembers.beginning used, if_neg new]

/-- What a scan does after some earlier ones. -/
theorem leads_ran (settings : Settings) (scan : Scan) (earlier : List Scan) :
    (∀ socket : SocketId, socket.val < scan.rig.reported →
        (afterScans settings (scan :: earlier)).shadows.get socket =
          ((afterScans settings earlier).judge settings scan.active scan.now scan.rig.nic
            socket).1) ∧
      scan.closes settings earlier = (Nic.sockets scan.rig.reported).filter (fun socket =>
        ((afterScans settings earlier).judge settings scan.active scan.now scan.rig.nic
          socket).2) ∧
      (scan.ran settings (afterScans settings earlier)).value.2.closed =
        (scan.closes settings earlier).length ∧
      ((scan.ran settings (afterScans settings earlier)).state.nic.Listens settings.port ∨
        ∃ error, ⟨.call (.listen settings.port), Except.error error⟩ ∈
          scan.asked settings (afterScans settings earlier)) :=
  leads_check (path_run Rig.chip _ scan.rig) (Chip.leads_run _ scan.rig)

theorem mem_closes (below : socket.val < scan.rig.reported) :
    socket ∈ scan.closes settings earlier ↔
      ((afterScans settings earlier).judge settings scan.active scan.now scan.rig.nic
        socket).2 = true := by
  rw [(leads_ran settings scan earlier).2.1, List.mem_filter, Nic.mem_sockets]
  exact and_iff_right below

/-- What the watch remembers of a slot that every scan looks at sums up all of them. -/
theorem remembers_afterScans (looked : ∀ scan ∈ scans, socket.val < scan.rig.reported) :
    Remembers settings socket ((afterScans settings scans).shadows.get socket) scans := by
  induction scans with
  | nil =>
    change ((Vector.replicate maxSockets ({} : Shadow))[socket.val]).status = .closed
    rw [Vector.getElem_replicate]
  | cons scan earlier ih =>
    have below := looked scan List.mem_cons_self
    have before := ih fun scan member => looked scan (List.mem_cons_of_mem _ member)
    rw [(leads_ran settings scan earlier).1 socket below]
    exact before.next rfl (mem_closes below)

/-- A scan closes just the slots, other than that of a request, that have shown the same for too
long in every scan back to the first of an unbroken run: a half-closed one for longer than the
limit, a silent connection on the service port for more than twice as long. It counts each of them
once, and afterwards there is a listener, or the controller would not open one. -/
theorem closes_exactly (counted : ∀ made ∈ scan :: earlier, made.rig.reported = count)
    (small : 2 * settings.staleSocket.toNat < UInt32.size) :
    (∀ socket, socket ∈ scan.closes settings earlier ↔
        socket.val < count ∧ scan.active ≠ some socket ∧
          let slot := scan.rig.nic.socket socket
          let age := elapsed scan.now (scan.beginning settings socket earlier).now
          (slot.status.isTransitional = true ∧ settings.staleSocket.toNat < age.toNat ∨
            slot.status = .established ∧ slot.port = settings.port ∧ slot.unread = [] ∧
              2 * settings.staleSocket.toNat < age.toNat)) ∧
      (scan.closes settings earlier).Nodup ∧
      (scan.ran settings (afterScans settings earlier)).value.2.closed =
        (scan.closes settings earlier).length ∧
      ((scan.ran settings (afterScans settings earlier)).state.nic.Listens settings.port ∨
        ∃ error, ⟨.call (.listen settings.port), Except.error error⟩ ∈
          scan.asked settings (afterScans settings earlier)) := by
  obtain ⟨-, closed, total, listens⟩ := leads_ran settings scan earlier
  refine ⟨?_, ?_, total, listens⟩
  · intro socket
    have reported : scan.rig.reported = count := counted scan List.mem_cons_self
    have twice : (2 * settings.staleSocket).toNat = 2 * settings.staleSocket.toNat := by
      rw [UInt32.toNat_mul]
      exact Nat.mod_eq_of_lt small
    by_cases below : socket.val < count
    · have remembers : Remembers settings socket
          ((afterScans settings earlier).shadows.get socket) earlier := by
        refine remembers_afterScans fun made member => ?_
        rwa [counted made (List.mem_cons_of_mem scan member)]
      rw [mem_closes (reported ▸ below)]
      refine remembers.verdict.trans ?_
      rw [Stuck, UInt32.lt_iff_toNat_lt, UInt32.lt_iff_toNat_lt, twice]
      exact (and_iff_right below).symm
    · rw [closed, List.mem_filter, Nic.mem_sockets, reported]
      exact ⟨fun closes => absurd closes.1 below, fun closes => absurd closes.1 below⟩
  · rw [closed]
    exact ((List.nodup_finRange _).sublist (List.take_sublist _ _)).filter _

/-- A scan of a controller whose first slot listens, and whose fourth is half closed. -/
def halfClosed (now : Millis) : Scan where
  rig := { nic := (({} : Controller).listen 80).2.setStatus ⟨3, by decide⟩ .closeWait 80 }
  now

theorem closes_exactly_halfClosed :
    2 * ({} : Settings).staleSocket.toNat < UInt32.size ∧
      ⟨3, by decide⟩ ∈ (halfClosed 11001).closes {} [halfClosed 11000, halfClosed 1000] ∧
      ⟨3, by decide⟩ ∉ (halfClosed 11000).closes {} [halfClosed 1000] := by
  have small : 2 * ({} : Settings).staleSocket.toNat < UInt32.size := by decide
  have late := @closes_exactly {} (halfClosed 11001) [halfClosed 11000, halfClosed 1000] 8
    (by decide +kernel) small
  have early := @closes_exactly {} (halfClosed 11000) [halfClosed 1000] 8 (by decide +kernel) small
  exact ⟨small, (late.1 _).mpr (by decide +kernel), mt (early.1 _).mp (by decide +kernel)⟩

end SlotWatch

end Http

end BoardNet
