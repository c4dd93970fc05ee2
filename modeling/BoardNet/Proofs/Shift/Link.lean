import BoardNet.Link.Supervisor
import BoardNet.Proofs.Shift.Clock

namespace BoardNet.Link.Supervisor

/-- The supervisor by a clock that is ahead by `span`. -/
def shift (span : Millis) (supervisor : Supervisor) : Supervisor :=
  { supervisor with
    timer := supervisor.timer.shift span
    lastHardReset := supervisor.lastHardReset.map (· + span) }

section Parts

variable {span now limit : Millis} {ahead supervisor : Supervisor}

theorem isThrottled_ahead (same : ahead = supervisor.shift span) :
    ahead.isThrottled (now + span) = supervisor.isThrottled now := by
  subst same
  unfold isThrottled shift
  cases supervisor.lastHardReset with
  | none => rfl
  | some last => simp only [Option.map_some, elapsed_shift]

theorem elapsed_ahead (same : ahead = supervisor.shift span) :
    ahead.timer.elapsed (now + span) = supervisor.timer.elapsed now := by
  rw [same]
  exact Stopwatch.elapsed_shift ..

theorem expired_ahead (same : ahead = supervisor.shift span) :
    ahead.timer.expired (now + span) limit = supervisor.timer.expired now limit := by
  rw [same]
  exact Stopwatch.expired_shift ..

theorem enter_ahead (same : ahead = supervisor.shift span) (next : State) :
    ahead.enter next (now + span) = shift span <$> supervisor.enter next now := by
  subst same
  exact ite_apart Iff.rfl (next_apart fun _ => rfl) rfl

theorem fail_ahead (same : ahead = supervisor.shift span) :
    ahead.fail (now + span) = shift span <$> supervisor.fail now := by
  subst same
  exact enter_ahead (by rfl) .error

theorem requestHardReset_ahead (same : ahead = supervisor.shift span) (force : Bool) :
    ahead.requestHardReset force (now + span) =
      shift span <$> supervisor.requestHardReset force now := by
  refine ite_apart ?_ (next_apart fun _ => enter_ahead same _) (enter_ahead same _)
  rw [isThrottled_ahead same]

/-- A move to another stage at the end of a step. -/
theorem moved_ahead (same : ahead = supervisor.shift span) (next : State) :
    (liftM (ahead.enter next (now + span)) : Poll Supervisor) =
      shift span <$> liftM (supervisor.enter next now) :=
  lift_apart (enter_ahead same next)

/-- A failure at the end of a step. -/
theorem failed_ahead (same : ahead = supervisor.shift span) :
    (liftM (ahead.fail (now + span)) : Poll Supervisor) =
      shift span <$> liftM (supervisor.fail now) :=
  lift_apart (fail_ahead same)

theorem takeLease_ahead (same : ahead = supervisor.shift span) (lease : Lease)
    (changed : Option String) :
    ahead.takeLease lease changed = shift span <$> supervisor.takeLease lease changed := by
  subst same
  refine ite_apart Iff.rfl ?_ rfl
  cases changed with
  | none => exact next_apart fun _ => rfl
  | some text => exact next_apart fun _ => next_apart fun _ => rfl

theorem maintainLease_ahead (same : ahead = supervisor.shift span) :
    ahead.maintainLease = shift span <$> supervisor.maintainLease := by
  refine next_apart fun upkeep => ?_
  cases upkeep with
  | nothing => rw [same]; rfl
  | renewFailed | rebindFailed => exact next_apart fun _ => by rw [same]; rfl
  | renewed lease | rebound lease => exact takeLease_ahead same lease _

end Parts

variable (span : Millis) (supervisor : Supervisor) (now : Millis)

theorem applyAddressing_shift (addressing : Addressing) :
    (supervisor.shift span).applyAddressing addressing (now + span) =
      shift span <$> supervisor.applyAddressing addressing now :=
  next_apart fun _ => moved_ahead (by rfl) .softResetStart

theorem awaitSoftReset_shift :
    (supervisor.shift span).awaitSoftReset (now + span) =
      shift span <$> supervisor.awaitSoftReset now := by
  refine next_apart fun progress => ?_
  cases progress with
  | finished => exact moved_ahead rfl _
  | pending =>
    refine ite_apart ?_ (next_apart fun _ => failed_ahead rfl) rfl
    rw [expired_ahead rfl]
    rfl
  | failed error => exact next_apart fun _ => failed_ahead rfl

theorem probe_shift :
    (supervisor.shift span).probe (now + span) = shift span <$> supervisor.probe now := by
  refine next_apart fun answer => ?_
  cases answer with
  | ok => exact moved_ahead (by rfl) .initCheckLink
  | error error => exact next_apart fun _ => failed_ahead (by rfl)

theorem checkLink_shift :
    (supervisor.shift span).checkLink (now + span) = shift span <$> supervisor.checkLink now := by
  refine next_apart fun link => ?_
  cases link with
  | on =>
    exact ite_apart Iff.rfl (moved_ahead (by rfl) .initDhcp) (moved_ahead (by rfl) .initStatic)
  | off => exact moved_ahead (by rfl) .disconnected
  | unknown =>
    refine ite_apart ?_
      (next_apart fun _ => lift_apart (requestHardReset_ahead (by rfl) true)) rfl
    exact iff_of_eq (congrArg (· = true) (expired_ahead rfl))

theorem leaseAddress_shift :
    (supervisor.shift span).leaseAddress (now + span) =
      shift span <$> supervisor.leaseAddress now := by
  refine next_apart fun answer => ?_
  cases answer with
  | ok lease =>
    exact next_apart fun _ => bind_apart (takeLease_ahead (by rfl) lease none) fun _ =>
      moved_ahead rfl .initServerStart
  | error error =>
    exact next_apart fun _ =>
      ite_apart Iff.rfl (next_apart fun _ => moved_ahead (by rfl) .initStatic) rfl

theorem configureAddress_shift :
    (supervisor.shift span).configureAddress (now + span) =
      shift span <$> supervisor.configureAddress now := by
  refine next_apart fun _ => next_apart fun ip => ?_
  exact ite_apart Iff.rfl
    (next_apart fun _ => next_apart fun _ => moved_ahead (by rfl) .initDhcp)
    (next_apart fun _ => moved_ahead (by rfl) .initServerStart)

theorem startServers_shift :
    (supervisor.shift span).startServers (now + span) =
      shift span <$> supervisor.startServers now := by
  refine ite_apart ?_ rfl (next_apart fun failed => ?_)
  · rw [elapsed_ahead rfl]
    rfl
  · cases failed with
    | none => exact moved_ahead (by rfl) .initComplete
    | some failed => exact next_apart fun _ => failed_ahead rfl

theorem complete_shift :
    (supervisor.shift span).complete (now + span) = shift span <$> supervisor.complete now :=
  next_apart fun _ => next_apart fun _ => moved_ahead (by rfl) .idle

theorem watch_shift :
    (supervisor.shift span).watch (now + span) = shift span <$> supervisor.watch now := by
  refine ite_apart ?_ rfl (next_apart fun link => ?_)
  · rw [elapsed_ahead rfl]
    rfl
  · exact ite_apart Iff.rfl
      (next_apart fun _ => next_apart fun _ => moved_ahead (by rfl) .disconnected)
      (ite_apart Iff.rfl (maintainLease_ahead (by rfl)) rfl)

theorem awaitCable_shift :
    (supervisor.shift span).awaitCable (now + span) =
      shift span <$> supervisor.awaitCable now := by
  refine ite_apart ?_ rfl (next_apart fun answer => ?_)
  · rw [elapsed_ahead rfl]
    rfl
  · cases answer with
    | ok =>
      exact next_apart fun link =>
        ite_apart Iff.rfl (next_apart fun _ => moved_ahead (by rfl) .initStart) rfl
    | error error => exact next_apart fun _ => next_apart fun _ => rfl

theorem retry_shift :
    (supervisor.shift span).retry (now + span) = shift span <$> supervisor.retry now := by
  refine ite_apart ?_ rfl (ite_apart Iff.rfl ?_ (enter_ahead rfl .initStart))
  · rw [elapsed_ahead rfl]
    rfl
  · exact next_apart fun _ => requestHardReset_ahead (by rfl) true

theorem update_shift :
    (supervisor.shift span).update (now + span) = shift span <$> supervisor.update now := by
  have waited (limit : Millis) :
      (supervisor.shift span).timer.elapsed (now + span) ≥ limit ↔
        supervisor.timer.elapsed now ≥ limit := by
    rw [elapsed_ahead rfl]
  have stage : (supervisor.shift span).state = supervisor.state := rfl
  unfold update
  rw [stage]
  cases supervisor.state with
  | hardResetStart => exact moved_ahead (by rfl) .hardResetLow
  | hardResetLow => exact ite_apart (waited _) (moved_ahead (by rfl) .hardResetWait) rfl
  | hardResetWait => exact ite_apart (waited _) (moved_ahead rfl .softResetStart) rfl
  | softResetStart => exact next_apart fun _ => moved_ahead (by rfl) .softResetWait
  | softResetWait => exact awaitSoftReset_shift ..
  | initStart => exact probe_shift ..
  | initCheckLink => exact checkLink_shift ..
  | initDhcp => exact leaseAddress_shift ..
  | initStatic => exact configureAddress_shift ..
  | initServerStart => exact startServers_shift ..
  | initComplete => exact complete_shift ..
  | idle => exact watch_shift ..
  | disconnected => exact awaitCable_shift ..
  | error => exact lift_apart (retry_shift ..)

end BoardNet.Link.Supervisor
