import BoardNet.Proofs.Http.Watching

/-!
What the scans of the watch miss. They see each slot only now and then, so a slot that left its
status and came back to it between two scans looks as if nothing had happened. Time is a number here
that never returns to zero, and the clock is read off it.
-/

namespace BoardNet.Http.SlotWatch

open Poll Sim

/-- What happens to a controller that is watched: a scan, while some socket serves a request, or
anything else. -/
inductive Incident where
  | scan (active : Option SocketId)
  | other (happening : Happening)
  deriving DecidableEq

structure Moment where
  time : Nat
  incident : Incident
  deriving DecidableEq

structure Watched where
  nic : Controller
  watch : SlotWatch := {}

namespace Watched

def scan (watched : Watched) (settings : Settings) (active : Option SocketId) (time : Nat) :
    Poll (SlotWatch × Sweep) :=
  watched.watch.check settings active (clock time)

def after (settings : Settings) (nic : Controller) : List Moment → Watched
  | [] => { nic }
  | ⟨time, .scan active⟩ :: earlier =>
    let before := after settings nic earlier
    let ran := (before.scan settings active time).run Controller.chip before.nic
    ⟨ran.state, ran.value.1⟩
  | ⟨_, .other happening⟩ :: earlier =>
    let before := after settings nic earlier
    { before with nic := happening.apply before.nic }

def closes (watched : Watched) (settings : Settings) (active : Option SocketId) (time : Nat) :
    List SocketId :=
  closedIn ((watched.scan settings active time).exchanges Controller.chip watched.nic)

end Watched

/-- What a slot showed when a scan found it. -/
structure Sample where
  time : Nat
  shown : SocketStatus × UInt16
  deriving DecidableEq

section Runs

variable (settings : Settings) (nic : Controller) (socket : SocketId)

def shownAfter (moments : List Moment) : SocketStatus × UInt16 :=
  ((Watched.after settings nic moments).nic.socket socket).shown

/-- What the scans found a slot to show. -/
def samples : List Moment → List Sample
  | [] => []
  | ⟨time, .scan _⟩ :: earlier => ⟨time, shownAfter settings nic socket earlier⟩ :: samples earlier
  | ⟨_, .other _⟩ :: earlier => samples earlier

/-- Since when what is seen of the controller has been as it is, without interruption. -/
def unchangedSince {β : Type} [DecidableEq β] (seen : Controller → β) : List Moment → Nat
  | [] => 0
  | moment :: earlier =>
    if seen (Watched.after settings nic (moment :: earlier)).nic =
        seen (Watched.after settings nic earlier).nic then unchangedSince seen earlier
    else moment.time

end Runs

variable {settings : Settings} {nic : Controller} {socket : SocketId} {shadow : Shadow}
  {active : Option SocketId} {now time : Nat} {moments earlier : List Moment}

/-- A scan comes to its verdict on each slot. -/
theorem judged_scan (settings : Settings) (watched : Watched) (active : Option SocketId)
    (time : Nat) (socket : SocketId) :
    ((watched.scan settings active time).run Controller.chip watched.nic).value.1.shadows.get
        socket = (watched.watch.judge settings active (clock time) watched.nic socket).1 ∧
      (socket ∈ watched.closes settings active time ↔
        (watched.watch.judge settings active (clock time) watched.nic socket).2 = true) := by
  obtain ⟨judged, closes, -, -⟩ := leads_check (path_run Controller.chip _ watched.nic)
    (Rig.leads_of_faultless (Chip.leads_run (watched.scan settings active time) watched.nic))
  refine ⟨judged socket socket.isLt, ?_⟩
  rw [Watched.closes, Watched.scan, closes, List.mem_filter, Nic.mem_sockets]
  exact and_iff_right socket.isLt

/-- What the watch remembers of a slot is what the latest scans found, back to one at that time. -/
def Traces (shadow : Shadow) (samples : List Sample) : Prop :=
  ∃ recent start older, samples = recent ++ start :: older ∧ shadow.since = clock start.time ∧
    ∀ sample ∈ recent ++ [start], sample.shown = (shadow.status, shadow.port)

theorem traces_after (moments : List Moment) :
    let shadow := (Watched.after settings nic moments).watch.shadows.get socket
    shadow.status ≠ .closed → Traces shadow (samples settings nic socket moments) := by
  induction moments with
  | nil =>
    intro shadow used
    refine absurd ?_ used
    change ((Vector.replicate maxSockets ({} : Shadow))[socket.val]).status = .closed
    rw [Vector.getElem_replicate]
  | cons moment earlier ih =>
    obtain ⟨time, incident⟩ := moment
    cases incident with
    | other happening => exact ih
    | scan active =>
      intro shadow used
      have judged := (judged_scan settings (.after settings nic earlier) active time socket).1
      change shadow = (verdict _ _ _ _ _ _).1 at judged
      rw [judged] at used
      rw [verdict_remembers (Bool.eq_false_iff.mpr fun closes => used (verdict_closed closes))]
        at judged used
      let found : Sample := ⟨time, shownAfter settings nic socket earlier⟩
      split at judged
      · next same =>
        rw [if_pos same] at used
        obtain ⟨recent, start, older, before, since, alike⟩ := ih used
        rw [judged]
        exact ⟨found :: recent, start, older, congrArg _ before, since,
          List.forall_mem_cons.mpr ⟨Prod.ext same.1 same.2, alike⟩⟩
      · rw [judged]
        exact ⟨[], found, _, rfl, rfl, List.forall_mem_singleton.mpr rfl⟩

theorem unchangedSince_le {β : Type} [DecidableEq β] (seen : Controller → β)
    (past : ∀ moment ∈ moments, moment.time ≤ now) :
    unchangedSince settings nic seen moments ≤ now := by
  induction moments with
  | nil => exact Nat.zero_le now
  | cons moment earlier ih =>
    obtain ⟨latest, past⟩ := List.forall_mem_cons.mp past
    rw [unchangedSince]
    split
    · exact ih past
    · exact latest

theorem samples_le (past : ∀ moment ∈ moments, moment.time ≤ now) :
    ∀ sample ∈ samples settings nic socket moments, sample.time ≤ now := by
  induction moments with
  | nil => nofun
  | cons moment earlier ih =>
    obtain ⟨time, incident⟩ := moment
    obtain ⟨latest, before⟩ := List.forall_mem_cons.mp past
    cases incident with
    | scan active => exact List.forall_mem_cons.mpr ⟨latest, ih before⟩
    | other happening => exact ih before

/-- A time lies between two scans that were made one right after the other. -/
def Between (time : Nat) (run : List Sample) : Prop :=
  ∃ late later before early, run = late ++ later :: before :: early ∧
    before.time ≤ time ∧ time ≤ later.time

/-- What was not yet at the first of some scans and is at the last has come between two of them. -/
theorem between_of_run {last start : Sample} {recent : List Sample} (begun : start.time < time)
    (reached : time ≤ last.time) : Between time (last :: recent ++ [start]) := by
  induction recent generalizing last with
  | nil => exact ⟨[], last, start, [], rfl, Nat.le_of_lt begun, reached⟩
  | cons next recent ih =>
    by_cases already : next.time ≤ time
    · exact ⟨[], last, next, recent ++ [start], rfl, already, reached⟩
    · obtain ⟨late, later, before, early, same, order⟩ := ih (Nat.le_of_not_le already)
      exact ⟨last :: late, later, before, early, congrArg _ same, order⟩

/-- The latest of some scans, back to one that is longer ago than a limit, found the same. What they
found has been so for longer than the limit, or since a time between two of them. -/
def Aged (scans : List Sample) (shown : SocketStatus × UInt16) (since now limit : Nat) : Prop :=
  ∃ run older, scans = run ++ older ∧ (∀ sample ∈ run, sample.shown = shown) ∧
    (∃ start ∈ run, start.time + limit < now) ∧ (since + limit < now ∨ Between since run)

/-- What has lasted too long by what the watch remembers was found so for that long. -/
theorem Traces.aged {slot : Socket} {scans : List Sample} {limit : Millis} {since : Nat}
    (traces : Traces shadow scans) (same : shadow.Matches slot)
    (past : ∀ sample ∈ scans, sample.time ≤ now) (later : since ≤ now)
    (late : limit < elapsed (clock now) shadow.since) :
    Aged (⟨now, slot.shown⟩ :: scans) slot.shown since now limit.toNat := by
  obtain ⟨recent, start, older, rfl, begun, alike⟩ := traces
  rw [begun] at late
  have early : start.time ≤ now := past start (List.mem_append_right recent List.mem_cons_self)
  have long := lt_of_lt_elapsed_clock early late
  refine ⟨⟨now, slot.shown⟩ :: recent ++ [start], older, ?_, ?_, ⟨start, by simp, long⟩, ?_⟩
  · simp
  · exact List.forall_mem_cons.mpr ⟨rfl, fun sample member =>
      (alike sample member).trans (Prod.ext same.1 same.2).symm⟩
  · by_cases old : since + limit.toNat < now
    · exact .inl old
    · exact .inr (between_of_run (by omega) later)

/-- A half-closed slot, or a silent connection, is closed only if every scan back to one that is
longer ago than the limit found it as it is now. So it has been so for longer than the limit, unless
it came to be so between two of these scans, none of which saw it otherwise. -/
theorem spares_young (past : ∀ moment ∈ earlier, moment.time ≤ now)
    (closed : socket ∈ (Watched.after settings nic earlier).closes settings active now) :
    let shown := shownAfter settings nic socket earlier
    let scans := samples settings nic socket (⟨now, .scan active⟩ :: earlier)
    shown.1.isTransitional = true ∧
        Aged scans shown
          (unchangedSince settings nic (fun nic => (nic.socket socket).status) earlier) now
          settings.staleSocket.toNat ∨
      shown = (.established, settings.port) ∧
        Aged scans shown
          (unchangedSince settings nic (fun nic => (nic.socket socket).shown) earlier) now
          (2 * settings.staleSocket).toNat := by
  intro shown scans
  have judged := (judged_scan settings _ active now socket).2.mp closed
  obtain ⟨same, -, stuck⟩ := verdict_closes.mp judged
  have used := stuck.used
  rw [same.1] at used
  have traces := traces_after earlier used
  rcases stuck with ⟨transitional, late⟩ | ⟨established, bound, -, late⟩
  · exact .inl ⟨transitional,
      traces.aged same (samples_le past) (unchangedSince_le _ past) late⟩
  · exact .inr ⟨Prod.ext established bound,
      traces.aged same (samples_le past) (unchangedSince_le _ past) late⟩

/-- A peer calls the first slot on the service port, and a scan finds the connection. -/
def called : List Moment :=
  [⟨0, .scan none⟩, ⟨0, .other (.event (.connect 80 .unspecified []))⟩,
    ⟨0, .other (.call (.listen 80))⟩]

theorem spares_young_called :
    let slot : SocketId := ⟨0, by decide⟩
    (∀ moment ∈ called, moment.time ≤ 20001) ∧
      slot ∈ (Watched.after {} {} called).closes {} none 20001 ∧
      Aged (samples {} {} slot (⟨20001, .scan none⟩ :: called)) (.established, 80) 0 20001
        20000 := by
  intro slot
  have past : ∀ moment ∈ called, moment.time ≤ 20001 := by decide
  have closed : slot ∈ (Watched.after {} {} called).closes {} none 20001 := by decide +kernel
  have found : shownAfter {} {} slot called = (.established, 80) := by decide +kernel
  have since : unchangedSince {} {} (fun nic => (nic.socket slot).shown) called = 0 := by
    decide +kernel
  refine ⟨past, closed, ?_⟩
  rcases spares_young past closed with ⟨transitional, -⟩ | ⟨-, aged⟩
  · rw [found] at transitional
    cases transitional
  · rw [found, since] at aged
    exact aged

/-- The peer leaves, the slot is opened again, and another peer calls it. -/
def calledAgain : List Moment :=
  [⟨20000, .other (.event (.connect 80 .unspecified []))⟩, ⟨19999, .other (.call (.listen 80))⟩,
    ⟨19998, .other (.event (.setStatus ⟨0, by decide⟩ .closed 0))⟩] ++ called

/-- The scans see no difference, so the new connection is closed a moment after it was made. -/
theorem young_connection_closed :
    let slot : SocketId := ⟨0, by decide⟩
    slot ∈ (Watched.after {} {} calledAgain).closes {} none 20001 ∧
      shownAfter {} {} slot calledAgain = (.established, 80) ∧
      ¬(unchangedSince {} {} (fun nic => (nic.socket slot).shown) calledAgain +
        2 * ({} : Settings).staleSocket.toNat < 20001) := by
  decide +kernel

end BoardNet.Http.SlotWatch
