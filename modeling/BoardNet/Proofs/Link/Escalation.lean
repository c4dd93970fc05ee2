import BoardNet.Proofs.Link.Readiness

namespace BoardNet.Link.Supervisor

open Poll

namespace Act

/-- The failures so far no longer count: the link comes up, or there were too many and the
controller is to be reset. -/
def Forgives (act : Act) : Prop :=
  act.before.state = .initComplete ∨
    act.before.state = .error ∧ act.after.state = .hardResetStart

instance (act : Act) : Decidable act.Forgives := inferInstanceAs (Decidable (_ ∨ _ ∧ _))

end Act

/-- How often something failed, of what was done since failures were last forgiven. -/
def failures : List Act → Nat
  | [] => 0
  | act :: earlier =>
    if act.Forgives then 0
    else if act.Enters .error then failures earlier + 1
    else failures earlier

def failedAt : List Act → Option Millis
  | [] => none
  | act :: earlier => if act.Enters .error then some act.deed.now else failedAt earlier

variable {first supervisor after : Supervisor} {now : Millis} {told : List Notice}
  {history : List Act}

section Step

/-- After a failure the supervisor waits. Then the count of failures decides. -/
theorem Passes.of_error (passes : supervisor.Passes now told after)
    (stage : supervisor.state = .error) :
    if supervisor.timer.elapsed now < supervisor.timings.errorRetry then after = supervisor
    else if supervisor.errors < supervisor.timings.maxErrorRetries then
      after.state = .initStart ∧ after.errors = supervisor.errors
    else after.state = .hardResetStart ∧ after.errors = 0 := by
  have timed : supervisor.patience = some supervisor.timings.errorRetry := by
    simp [patience, stage]
  cases passes with
  | waits early => rw [if_pos ((isEarly_iff timed).mp early)]
  | escalates _ due many =>
    rw [if_neg (due ∘ (isEarly_iff timed).mpr), if_neg (UInt8.not_lt.mpr many)]
    exact ⟨rfl, rfl⟩
  | retries _ due few =>
    rw [if_neg (due ∘ (isEarly_iff timed).mpr), if_pos few]
    exact ⟨rfl, rfl⟩
  | _ other => cases stage.symm.trans other

theorem Passes.of_initComplete (passes : supervisor.Passes now told after)
    (stage : supervisor.state = .initComplete) : after.state = .idle ∧ after.errors = 0 := by
  cases passes with
  | comesUp => exact ⟨rfl, rfl⟩
  | waits early => exact absurd early (not_isEarly (by simp [patience, stage]))
  | _ other => cases stage.symm.trans other

/-- In any other stage an update fails, which is counted, or leaves the count alone. -/
theorem Passes.counts (passes : supervisor.Passes now told after)
    (fine : supervisor.state ≠ .error) (pending : supervisor.state ≠ .initComplete) :
    (after.state = .error ∧ after.timer = ⟨now⟩ ∧
      after.errors = if supervisor.errors = 255 then 255 else supervisor.errors + 1) ∨
    after.state ≠ .error ∧ after.errors = supervisor.errors := by
  cases passes with
  | missesSoftReset | missesController | missesPort => exact .inl ⟨rfl, rfl, rfl⟩
  | comesUp stage => exact absurd stage pending
  | escalates stage | retries stage => exact absurd stage fine
  | waits | awaitsSoftReset => exact .inr ⟨fine, rfl⟩
  | guessesLink stage | missesLease stage | stays stage | changesLease stage
  | losesBus stage | seesNoCable stage => exact .inr ⟨by simp [stage], rfl⟩
  | _ => exact .inr ⟨nofun, rfl⟩

end Step

/-- How the count of failures, and the time of the last one, go with what was done. -/
structure Counted (history : List Act) (supervisor : Supervisor) : Prop where
  count : supervisor.errors.toNat = failures history
  within : failures history ≤ max 1 supervisor.timings.maxErrorRetries.toNat
  /-- As long as the supervisor goes on there is a failure left to bear. -/
  fewer : supervisor.state ≠ .error →
    failures history < max 1 supervisor.timings.maxErrorRetries.toNat
  failed : supervisor.state = .error →
    0 < failures history ∧ failedAt history = some supervisor.timer.started

namespace Counted

theorem start (resetLine : Pin) (mac : Mac) (addressing : Addressing) (timings : Timings)
    (ports : List UInt16) :
    Counted [] (start resetLine mac addressing timings ports).value :=
  ⟨rfl, Nat.zero_le _, fun _ => Nat.lt_of_lt_of_le Nat.zero_lt_one (Nat.le_max_left 1 _), nofun⟩

/-- Failures are forgiven. -/
theorem update_forgives (forgives : (Act.mk supervisor (.update now) told after).Forgives)
    (next : after.state ≠ .error) (errors : after.errors = 0) :
    Counted (⟨supervisor, .update now, told, after⟩ :: history) after := by
  have none : failures (⟨supervisor, .update now, told, after⟩ :: history) = 0 := if_pos forgives
  have some := Nat.le_max_left 1 after.timings.maxErrorRetries.toNat
  constructor
  · rw [none, errors]
    rfl
  · rw [none]
    exact Nat.zero_le _
  · intro _
    rw [none]
    exact Nat.lt_of_lt_of_le Nat.zero_lt_one some
  · exact fun failed => absurd failed next

/-- The supervisor goes on, or goes on waiting after a failure. -/
theorem update_keeps (counted : Counted history supervisor)
    (unforgiven : ¬(Act.mk supervisor (.update now) told after).Forgives)
    (unfailed : ¬(Act.mk supervisor (.update now) told after).Enters .error)
    (timings : after.timings = supervisor.timings) (errors : after.errors = supervisor.errors)
    (fewer : after.state ≠ .error →
      failures history < max 1 supervisor.timings.maxErrorRetries.toNat)
    (timer : after.state = .error → after.timer = supervisor.timer) :
    Counted (⟨supervisor, .update now, told, after⟩ :: history) after := by
  have same : failures (⟨supervisor, .update now, told, after⟩ :: history) = failures history := by
    rw [failures, if_neg unforgiven, if_neg unfailed]
  constructor
  · rw [same, errors]
    exact counted.count
  · rw [same, timings]
    exact counted.within
  · rw [same, timings]
    exact fewer
  · intro failed
    have before : supervisor.state = .error :=
      Classical.not_not.mp fun other => unfailed ⟨failed, other⟩
    rw [same, failedAt, if_neg unfailed, timer failed]
    exact counted.failed before

/-- A failure that follows fewer than can be borne is counted. -/
theorem update_fails (counted : Counted history supervisor)
    (fine : supervisor.state ≠ .error) (pending : supervisor.state ≠ .initComplete)
    (timings : after.timings = supervisor.timings) (next : after.state = .error)
    (timer : after.timer = ⟨now⟩)
    (errors : after.errors = if supervisor.errors = 255 then 255 else supervisor.errors + 1) :
    Counted (⟨supervisor, .update now, told, after⟩ :: history) after := by
  have fewer := counted.fewer fine
  have count := counted.count
  have most := UInt8.toNat_lt supervisor.timings.maxErrorRetries
  have more : failures (⟨supervisor, .update now, told, after⟩ :: history) =
      failures history + 1 := by
    simp [failures, Act.Forgives, Act.Enters, fine, pending, next]
  have last : failedAt (⟨supervisor, .update now, told, after⟩ :: history) = some now := by
    simp [failedAt, Act.Enters, fine, next, Deed.now]
  constructor
  · have unsaturated : supervisor.errors ≠ 255 := by
      intro full
      rw [full] at count
      have : (255 : UInt8).toNat = 255 := rfl
      omega
    rw [more, errors, if_neg unsaturated, UInt8.toNat_add, count]
    have : (1 : UInt8).toNat = 1 := rfl
    omega
  · rw [more, timings]
    exact fewer
  · exact fun other => absurd next other
  · intro _
    rw [more, last, timer]
    exact ⟨Nat.succ_pos _, rfl⟩

theorem update (counted : Counted history supervisor)
    (passes : supervisor.Passes now told after) :
    Counted (⟨supervisor, .update now, told, after⟩ :: history) after := by
  by_cases stage : supervisor.state = .error
  · have unfailed : ¬(Act.mk supervisor (.update now) told after).Enters .error :=
      fun enters => enters.2 stage
    have step := passes.of_error stage
    split at step
    · subst step
      exact counted.update_keeps (by simp [Act.Forgives, stage]) unfailed rfl rfl
        counted.fewer fun _ => rfl
    · split at step
      · next few =>
        obtain ⟨next, errors⟩ := step
        have few := UInt8.lt_iff_toNat_lt.mp few
        rw [counted.count] at few
        exact counted.update_keeps (by simp [Act.Forgives, stage, next]) unfailed passes.timings
          errors (fun _ => Nat.lt_of_lt_of_le few (Nat.le_max_right 1 _)) (by simp [next])
      · obtain ⟨next, errors⟩ := step
        exact update_forgives (.inr ⟨stage, next⟩) (by simp [next]) errors
  · by_cases up : supervisor.state = .initComplete
    · obtain ⟨next, errors⟩ := passes.of_initComplete up
      exact update_forgives (.inl up) (by simp [next]) errors
    · rcases passes.counts stage up with ⟨next, timer, errors⟩ | ⟨next, errors⟩
      · exact counted.update_fails stage up passes.timings next timer errors
      · exact counted.update_keeps (by simp [Act.Forgives, stage, up]) (fun enters => next enters.1)
          passes.timings errors (fun _ => counted.fewer stage) (fun failed => absurd failed next)

end Counted

theorem Career.counted (counted : Counted [] first) (career : Career first history supervisor)
    (alone : ∀ act ∈ history, ∃ now, act.deed = .update now) : Counted history supervisor := by
  induction career with
  | start => exact counted
  | perform career path ih =>
    obtain ⟨⟨now, updates⟩, before⟩ := List.forall_mem_cons.mp alone
    cases updates
    exact (ih before).update (passes_of_path path)

/-- Failures in a row are borne up to a number, and then the controller is reset. A supervisor that
is only updated never counts more failures since it last forgave them than it is set to bear, or
one. The failure that reaches this number leaves it waiting, as every failure does, and once it has
waited long enough it goes for a reset of the controller; after fewer it tries again. -/
theorem failures_escalate {resetLine : Pin} {mac : Mac} {addressing : Addressing}
    {timings : Timings} {ports : List UInt16}
    (career : Career (start resetLine mac addressing timings ports).value history supervisor)
    (alone : ∀ act ∈ history, ∃ now, act.deed = .update now) :
    let most := max 1 timings.maxErrorRetries.toNat
    failures history ≤ most ∧ (failures history = most → supervisor.state = .error) ∧
      (supervisor.state = .error → ∃ since, failedAt history = some since ∧
        ∀ now trace after, Path (supervisor.update now) trace after →
          if elapsed now since < timings.errorRetry then after = supervisor
          else after.state =
            if failures history = most then .hardResetStart else .initStart) := by
  intro most
  have counted := career.counted (.start resetLine mac addressing timings ports) alone
  have same : supervisor.timings = timings := career.timings
  obtain ⟨count, within, fewer, failed⟩ := counted
  rw [same] at within fewer
  refine ⟨within, fun full => ?_, fun stage => ?_⟩
  · exact Classical.not_not.mp fun other => Nat.ne_of_lt (fewer other) full
  · obtain ⟨some, last⟩ := failed stage
    refine ⟨_, last, fun now trace after path => ?_⟩
    have step := (passes_of_path path).of_error stage
    rw [same] at step
    have limit : supervisor.errors < timings.maxErrorRetries ↔ failures history ≠ most := by
      rw [UInt8.lt_iff_toNat_lt, count]
      omega
    change if elapsed now supervisor.timer.started < timings.errorRetry then _ else _ at step
    split at step
    · next early => rwa [if_pos early]
    · next due =>
      rw [if_neg due]
      split at step
      · next few => rw [if_neg (limit.mp few), step.1]
      · next many => rw [if_pos (Classical.not_not.mp (many ∘ limit.mpr)), step.1]

/-- A controller that does not answer is given three tries, and a reset after them. -/
theorem failures_escalate_unanswered :
    ∃ history supervisor,
      Career (start {} ⟨0x1E, 7, 1, 2, 3, 4⟩ {} {} []).value history supervisor ∧
      (∀ act ∈ history, ∃ now, act.deed = .update now) ∧
      failures history = 3 ∧ supervisor.state = .error ∧
      ∀ trace after, Path (supervisor.update 15002) trace after →
        after.state = .hardResetStart := by
  let nic : Sim.Controller := { probeOk := false }
  let deeds : List Deed := [0, 5000, 5001, 10001, 10002].map .update
  let done := performAll Sim.Controller.chip []
    (start {} ⟨0x1E, 7, 1, 2, 3, 4⟩ {} {} []).value nic deeds
  have career : Career (start {} ⟨0x1E, 7, 1, 2, 3, 4⟩ {} {} []).value done.1 done.2 :=
    Career.performAll _ .start nic _
  have alone : ∀ act ∈ done.1, ∃ now, act.deed = .update now := by
    intro act member
    obtain earlier | member := deed_performAll member
    · cases earlier
    · obtain ⟨now, -, same⟩ := List.mem_map.mp member
      exact ⟨now, same.symm⟩
  have found : failures done.1 = 3 ∧ done.2.state = .error ∧ failedAt done.1 = some 10002 := by
    decide +kernel
  obtain ⟨full, stage, last⟩ := found
  obtain ⟨-, -, waits⟩ := failures_escalate career alone
  obtain ⟨since, same, next⟩ := waits stage
  obtain rfl := Option.some.inj (last.symm.trans same)
  refine ⟨_, _, career, alone, full, stage, fun trace after path => ?_⟩
  have step := next 15002 trace after path
  rw [full] at step
  exact step

end BoardNet.Link.Supervisor
