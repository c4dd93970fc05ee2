import BoardNet.Proofs.Link.Career
import BoardNet.Proofs.Shift.Clock

namespace BoardNet.Link.Supervisor

open Poll

namespace Act

/-- A pulse is made: the update in which the line is to be lowered. -/
def Pulses (act : Act) : Prop :=
  (∃ now, act.deed = .update now) ∧ act.before.state = .hardResetStart

/-- A pulse is asked for whatever the limit, by the firmware, or by the supervisor after too many
failures or too long in doubt about the cable. -/
def Forces (act : Act) : Prop :=
  (∃ now, act.deed = .requestHardReset true now) ∨
    (∃ now, act.deed = .update now) ∧ act.after.state = .hardResetStart ∧
      (act.before.state = .error ∨ act.before.state = .initCheckLink)

/-- A pulse is asked for too soon, and not forced. -/
def Throttled (act : Act) : Prop :=
  ∃ now, act.deed = .requestHardReset false now ∧ act.before.isThrottled now = true

end Act

/-- Something done with a supervisor, and when, by a clock that does not return to zero. -/
structure Stamped where
  time : Nat
  act : Act

/-- What was done, the latest first, was done in the order of its times, and the supervisor was
given the counter's readings at these. -/
structure Stamps (log : List Stamped) : Prop where
  shown : ∀ entry ∈ log, entry.act.deed.now = clock entry.time
  order : log.Pairwise fun later earlier => earlier.time ≤ later.time

/-- The controller is soft-reset, and its line left alone. -/
structure SoftResets (before : Supervisor) (trace : List Exchange) (after : Supervisor) : Prop where
  begun : ⟨.call .beginSoftReset, ()⟩ ∈ trace
  counted : after.softResets = before.softResets + 1
  line : after.resetLine = before.resetLine
  pulses : after.hardResets = before.hardResets

variable {first supervisor after : Supervisor} {now : Millis} {told : List Notice} {deed : Deed}
  {trace : List Exchange}

section Step

/-- The supervisor comes to ask for a pulse itself in two stages only. -/
theorem Passes.asks_pulse (passes : supervisor.Passes now told after)
    (asked : after.state = .hardResetStart) :
    supervisor.state = .error ∨ supervisor.state = .initCheckLink := by
  cases passes with
  | waits early => exact absurd early (not_isEarly (by simp [patience, asked]))
  | escalates stage => exact .inl stage
  | doubtsLink stage | guessesLink stage => exact .inr stage
  | awaitsSoftReset stage | missesLease stage | stays stage | changesLease stage
  | losesBus stage | seesNoCable stage => simp [stage] at asked
  | _ => cases asked

theorem Passes.lastHardReset_of_ne (passes : supervisor.Passes now told after)
    (other : supervisor.state ≠ .hardResetStart) :
    after.lastHardReset = supervisor.lastHardReset := by
  cases passes with
  | lowersLine stage => exact absurd stage other
  | _ => rfl

/-- A pulse begins: its time is kept, and nothing is asked for. -/
theorem Passes.of_hardResetStart (passes : supervisor.Passes now told after)
    (stage : supervisor.state = .hardResetStart) :
    after.lastHardReset = some now ∧ after.state = .hardResetLow := by
  cases passes with
  | lowersLine => exact ⟨rfl, rfl⟩
  | waits early => exact absurd early (not_isEarly (by simp [patience, stage]))
  | _ other => cases stage.symm.trans other

theorem Performs.lastHardReset_of_not_pulses (performs : supervisor.Performs deed told after)
    (other : ¬(Act.mk supervisor deed told after).Pulses) :
    after.lastHardReset = supervisor.lastHardReset := by
  cases performs with
  | update passes => exact passes.lastHardReset_of_ne fun stage => other ⟨⟨_, rfl⟩, stage⟩
  | hardResets | softResets | readdresses => rfl

theorem Performs.of_pulses (performs : supervisor.Performs deed told after)
    (pulses : (Act.mk supervisor deed told after).Pulses) :
    after.lastHardReset = some deed.now ∧ after.state = .hardResetLow := by
  cases performs with
  | update passes => exact passes.of_hardResetStart pulses.2
  | hardResets | softResets | readdresses =>
    obtain ⟨⟨now, updates⟩, -⟩ := pulses
    cases updates

/-- What leaves a pulse to be made asked for it: it forced it, or was not held back. -/
theorem Performs.asks_pulse (performs : supervisor.Performs deed told after)
    (asked : after.state = .hardResetStart) :
    (Act.mk supervisor deed told after).Forces ∨ supervisor.isThrottled deed.now = false := by
  cases performs with
  | update passes => exact .inl (.inr ⟨⟨_, rfl⟩, asked, passes.asks_pulse asked⟩)
  | @hardResets force now granted =>
    cases force with
    | true => exact .inl (.inl ⟨now, rfl⟩)
    | false =>
      rw [Bool.not_false, Bool.and_true] at granted
      exact .inr granted
  | softResets | readdresses => cases asked

/-- A request that is turned down leaves everything but the stage and its time. -/
theorem Performs.of_throttled (performs : supervisor.Performs deed told after)
    (throttled : (Act.mk supervisor deed told after).Throttled) :
    after = { supervisor with state := .softResetStart, timer := ⟨deed.now⟩ } := by
  obtain ⟨now, rfl, denied⟩ := throttled
  cases performs with
  | hardResets granted => simp [denied] at granted
  | softResets => rfl

theorem softResets_of_path (stage : supervisor.state = .softResetStart)
    (path : Path (supervisor.update now) trace after) : supervisor.SoftResets trace after := by
  simp only [update, stage] at path
  obtain ⟨_, _, rfl, entering⟩ := path_nic_bind.mp path
  obtain ⟨-, rfl⟩ := path_lift.mp entering
  rw [value_enter]
  exact ⟨List.mem_cons_self, rfl, rfl, rfl⟩

end Step

section Log

variable {pulse request : Act} {between earlier : List Act}

/-- As long as no other pulse is made the time of the last one is kept. -/
theorem Career.lastHardReset (career : Career first (between ++ pulse :: earlier) supervisor)
    (pulses : pulse.Pulses) (none : ∀ act ∈ between, ¬act.Pulses) :
    supervisor.lastHardReset = some pulse.deed.now := by
  induction between generalizing supervisor with
  | nil =>
    obtain ⟨-, performs, rfl⟩ := career.latest
    exact (performs.of_pulses pulses).1
  | cons act between ih =>
    obtain ⟨other, none⟩ := List.forall_mem_cons.mp none
    obtain ⟨past, performs, rfl⟩ := career.latest
    exact (performs.lastHardReset_of_not_pulses other).trans (ih past none)

/-- A pulse is made right after it was asked for: nothing else is done in between. -/
theorem Career.asks_pulse (career : Career first (between ++ pulse :: earlier) supervisor)
    (pulses : pulse.Pulses) (asked : supervisor.state = .hardResetStart) :
    ∃ request waited, between = request :: waited ∧
      (request.Forces ∨ request.before.isThrottled request.deed.now = false) := by
  cases between with
  | nil =>
    obtain ⟨-, performs, rfl⟩ := career.latest
    cases asked.symm.trans (performs.of_pulses pulses).2
  | cons request waited =>
    obtain ⟨-, performs, rfl⟩ := career.latest
    exact ⟨request, waited, rfl, performs.asks_pulse asked⟩

/-- A pulse that follows the last one too soon was forced. Times are true ones, however often the
counter has returned to zero. Of two pulses less than the least interval apart with none in between,
the later one was made right after it was forced. And a request that is turned down has the
controller soft-reset by the next update, with no pulse, if nothing else is asked for first. -/
theorem pulses_apart {resetLine : Pin} {mac : Mac} {addressing : Addressing} {timings : Timings}
    {ports : List UInt16} {log : List Stamped}
    (career : Career (start resetLine mac addressing timings ports).value (log.map Stamped.act)
      supervisor)
    (stamps : Stamps log) :
    (∀ later second between first earlier,
      log = later ++ second :: (between ++ first :: earlier) →
      second.act.Pulses → first.act.Pulses → (∀ entry ∈ between, ¬entry.act.Pulses) →
      second.time < first.time + timings.hardResetMinInterval.toNat →
      ∃ request waited, between = request :: waited ∧ request.act.Forces) ∧
    ∀ entry ∈ log, entry.act.Throttled → ∀ now trace after,
      Path (entry.act.after.update now) trace after → entry.act.before.SoftResets trace after := by
  constructor
  · rintro later second between first earlier rfl lowers pulses none soon
    rw [List.map_append, List.map_cons, List.map_append, List.map_cons] at career
    obtain ⟨_, career⟩ := career.back
    obtain ⟨career, -, -⟩ := career.latest
    have none : ∀ act ∈ between.map Stamped.act, ¬act.Pulses := List.forall_mem_map.mpr none
    obtain ⟨asking, waited, same, asked⟩ := career.asks_pulse pulses lowers.2
    obtain ⟨request, waited, rfl, rfl, rfl⟩ := List.map_eq_cons_iff.mp same
    refine ⟨request, waited, rfl, asked.resolve_right fun granted => ?_⟩
    obtain ⟨career, -, -⟩ := career.latest
    have kept := career.lastHardReset pulses (List.forall_mem_cons.mp none).2
    -- The request lies between the pulses, so the counter cannot have come to the limit.
    obtain ⟨-, order, -⟩ := List.pairwise_append.mp stamps.order
    obtain ⟨latest, order⟩ := List.pairwise_cons.mp order
    obtain ⟨before, -⟩ := List.pairwise_cons.mp order
    have late : request.time ≤ second.time := latest request (by simp)
    have early : first.time ≤ request.time := before first (by simp)
    rw [stamps.shown first (by simp)] at kept
    rw [stamps.shown request (by simp), isThrottled, kept] at granted
    have due := UInt32.not_lt.mp (of_decide_eq_false granted)
    rw [career.timings] at due
    have long := le_of_le_elapsed_clock early due
    exact absurd soon (Nat.not_lt.mpr (Nat.le_trans long late))
  · intro entry member throttled now trace after path
    obtain ⟨performs, -⟩ := career.performs entry.act (List.mem_map_of_mem member)
    have left := performs.of_throttled throttled
    rw [left] at path
    obtain ⟨begun, counted, line, pulses⟩ := softResets_of_path rfl path
    exact ⟨begun, counted, line, pulses⟩

/-- A pulse, another one five milliseconds later that is forced, and a request that is turned
down. -/
def hurried : List Stamped :=
  let made := (start {} ⟨0x1E, 7, 1, 2, 3, 4⟩ {} {} []).value
  let asked : Supervisor := { made with state := .hardResetStart, timer := ⟨0⟩ }
  let lowered : Supervisor := { asked with
    resetLine := asked.resetLine.lower, hardResets := 1, lastHardReset := some 1
    state := .hardResetLow, timer := ⟨1⟩ }
  let forced : Supervisor := { lowered with state := .hardResetStart, timer := ⟨5⟩ }
  let again : Supervisor := { forced with
    resetLine := forced.resetLine.lower, hardResets := 2, lastHardReset := some 6
    state := .hardResetLow, timer := ⟨6⟩ }
  let denied : Supervisor := { again with state := .softResetStart, timer := ⟨7⟩ }
  [⟨7, again, .requestHardReset false 7, [], denied⟩, ⟨6, forced, .update 6, [], again⟩,
    ⟨5, lowered, .requestHardReset true 5, [], forced⟩, ⟨1, asked, .update 1, [], lowered⟩,
    ⟨0, made, .requestHardReset true 0, [], asked⟩]

theorem pulses_apart_hurried :
    ∃ supervisor,
      Career (start {} ⟨0x1E, 7, 1, 2, 3, 4⟩ {} {} []).value (hurried.map Stamped.act) supervisor ∧
      Stamps hurried ∧
      ∃ denied second request first earlier,
        hurried = denied :: second :: ([request] ++ first :: earlier) ∧ second.act.Pulses ∧
        first.act.Pulses ∧ second.time < first.time + 90000 ∧ request.act.Forces ∧
        denied.act.Throttled ∧ ∀ now trace after, Path (denied.act.after.update now) trace after →
          denied.act.before.SoftResets trace after := by
  have career : ∃ supervisor,
      Career (start {} ⟨0x1E, 7, 1, 2, 3, 4⟩ {} {} []).value (hurried.map Stamped.act) supervisor :=
    ⟨_, ((((Career.start.quietly rfl (by decide +kernel)).quietly rfl (by decide +kernel)).quietly
      rfl (by decide +kernel)).quietly rfl (by decide +kernel)).quietly rfl (by decide +kernel)⟩
  obtain ⟨supervisor, career⟩ := career
  have stamps : Stamps hurried := ⟨by decide +kernel, by decide +kernel⟩
  obtain ⟨apart, soft⟩ := pulses_apart career stamps
  obtain ⟨request, waited, same, forces⟩ := apart [_] _ [_] _ _ rfl
    ⟨⟨_, rfl⟩, rfl⟩ ⟨⟨_, rfl⟩, rfl⟩ (by simp [Act.Pulses]) (by decide)
  have denied : Act.Throttled (hurried.head nofun).act := ⟨7, rfl, by decide +kernel⟩
  cases same
  exact ⟨supervisor, career, stamps, _, _, _, _, _, rfl, ⟨⟨_, rfl⟩, rfl⟩, ⟨⟨_, rfl⟩, rfl⟩,
    by decide, forces, denied, soft _ List.mem_cons_self denied⟩

end Log

end BoardNet.Link.Supervisor
