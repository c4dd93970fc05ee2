import BoardNet.Link.Supervisor
import BoardNet.Proofs.Notices
import BoardNet.Proofs.Scan

namespace BoardNet.Link.Supervisor

open Poll

variable {supervisor : Supervisor} {now : Millis} {trace : List Exchange}

@[simp] theorem value_enter (supervisor : Supervisor) (next : State) (now : Millis) :
    (supervisor.enter next now).value = { supervisor with state := next, timer := ⟨now⟩ } := by
  unfold enter
  split <;> rfl

theorem value_requestHardReset (supervisor : Supervisor) (force : Bool) (now : Millis) :
    (supervisor.requestHardReset force now).value = { supervisor with
      state := if supervisor.isThrottled now && !force then .softResetStart else .hardResetStart
      timer := ⟨now⟩ } := by
  unfold requestHardReset
  split
  · exact value_enter ..
  · exact value_enter ..

def failed (supervisor : Supervisor) (now : Millis) : Supervisor :=
  { supervisor with
    errors := if supervisor.errors = 255 then 255 else supervisor.errors + 1
    established := false
    serverReady := false
    state := .error
    timer := ⟨now⟩ }

@[simp] theorem value_fail (supervisor : Supervisor) (now : Millis) :
    (supervisor.fail now).value = supervisor.failed now :=
  value_enter ..

/-- The least time in a stage that is timed. -/
def patience (supervisor : Supervisor) : Option Millis :=
  match supervisor.state with
  | .hardResetLow => some supervisor.timings.resetLow
  | .hardResetWait => some supervisor.timings.resetSettle
  | .initServerStart => some supervisor.timings.serverSettle
  | .idle => some supervisor.timings.idlePoll
  | .disconnected => some supervisor.timings.disconnectedPoll
  | .error => some supervisor.timings.errorRetry
  | _ => none

/-- The stage is timed, and its time is not over. -/
def IsEarly (supervisor : Supervisor) (now : Millis) : Prop :=
  ∃ wait, supervisor.patience = some wait ∧ supervisor.timer.elapsed now < wait

/-- What has to be stored when an addressing takes the place of another. -/
def storing (before after : Addressing) : List Notice :=
  if after = before then [] else [.store after]

/-- One update of the supervisor: what the firmware is notified of, and what is left. -/
inductive Passes (supervisor : Supervisor) (now : Millis) : List Notice → Supervisor → Prop where
  | waits (early : supervisor.IsEarly now) : Passes supervisor now [] supervisor
  | lowersLine (stage : supervisor.state = .hardResetStart) :
      Passes supervisor now [] { supervisor with
        established := false, serverReady := false
        resetLine := supervisor.resetLine.lower, hardResets := supervisor.hardResets + 1
        lastHardReset := some now, state := .hardResetLow, timer := ⟨now⟩ }
  | raisesLine (stage : supervisor.state = .hardResetLow) (due : ¬supervisor.IsEarly now) :
      Passes supervisor now [] { supervisor with
        resetLine := supervisor.resetLine.raise, state := .hardResetWait, timer := ⟨now⟩ }
  | settles (stage : supervisor.state = .hardResetWait) (due : ¬supervisor.IsEarly now) :
      Passes supervisor now [] { supervisor with state := .softResetStart, timer := ⟨now⟩ }
  | beginsSoftReset (stage : supervisor.state = .softResetStart) :
      Passes supervisor now [] { supervisor with
        established := false, serverReady := false
        softResets := supervisor.softResets + 1, state := .softResetWait, timer := ⟨now⟩ }
  | awaitsSoftReset (stage : supervisor.state = .softResetWait)
      (patient : supervisor.timer.expired now supervisor.timings.softResetTimeout = false) :
      Passes supervisor now [] supervisor
  | endsSoftReset (stage : supervisor.state = .softResetWait) :
      Passes supervisor now [] { supervisor with state := .initStart, timer := ⟨now⟩ }
  | missesSoftReset (stage : supervisor.state = .softResetWait) :
      Passes supervisor now [] (supervisor.failed now)
  | findsController (stage : supervisor.state = .initStart) :
      Passes supervisor now [] { supervisor with
        initCycles := supervisor.initCycles + 1, retries := 0
        state := .initCheckLink, timer := ⟨now⟩ }
  | missesController (stage : supervisor.state = .initStart) :
      Passes supervisor now []
        ({ supervisor with initCycles := supervisor.initCycles + 1 }.failed now)
  | seeksLease (stage : supervisor.state = .initCheckLink)
      (leased : supervisor.addressing.dhcp = true) :
      Passes supervisor now [] { supervisor with
        link := .on, state := .initDhcp, timer := ⟨now⟩ }
  | seeksStatic (stage : supervisor.state = .initCheckLink)
      (fixed : supervisor.addressing.dhcp = false) :
      Passes supervisor now [] { supervisor with
        link := .on, state := .initStatic, timer := ⟨now⟩ }
  | findsNoCable (stage : supervisor.state = .initCheckLink) :
      Passes supervisor now [] { supervisor with
        link := .off, state := .disconnected, timer := ⟨now⟩ }
  | guessesLink (stage : supervisor.state = .initCheckLink)
      (patient : supervisor.timer.expired now supervisor.timings.linkUnknownTimeout = false) :
      Passes supervisor now [] { supervisor with link := .unknown }
  | doubtsLink (stage : supervisor.state = .initCheckLink)
      (tired : supervisor.timer.expired now supervisor.timings.linkUnknownTimeout = true) :
      Passes supervisor now [] { supervisor with
        link := .unknown, state := .hardResetStart, timer := ⟨now⟩ }
  | leases (stage : supervisor.state = .initDhcp) (lease : Lease) :
      Passes supervisor now (storing supervisor.addressing (.ofLease lease)) { supervisor with
        retries := 0, addressing := .ofLease lease, ip := lease.ip
        state := .initServerStart, timer := ⟨now⟩ }
  | missesLease (stage : supervisor.state = .initDhcp)
      (patient : supervisor.retries + 1 < supervisor.timings.dhcpMaxRetries) :
      Passes supervisor now [] { supervisor with retries := supervisor.retries + 1 }
  | fallsBack (stage : supervisor.state = .initDhcp)
      (tired : supervisor.timings.dhcpMaxRetries ≤ supervisor.retries + 1) :
      Passes supervisor now [.store { supervisor.addressing with dhcp := false }]
        { supervisor with
          retries := 0, addressing := { supervisor.addressing with dhcp := false }
          state := .initStatic, timer := ⟨now⟩ }
  | takesStatic (stage : supervisor.state = .initStatic) (ip : Ipv4)
      (taken : ip ≠ .unspecified) :
      Passes supervisor now [] { supervisor with
        ip, state := .initServerStart, timer := ⟨now⟩ }
  | givesUpStatic (stage : supervisor.state = .initStatic) :
      Passes supervisor now [.store { supervisor.addressing with dhcp := true }]
        { supervisor with
          ip := .unspecified, addressing := { supervisor.addressing with dhcp := true }
          state := .initDhcp, timer := ⟨now⟩ }
  | opensPorts (stage : supervisor.state = .initServerStart) (due : ¬supervisor.IsEarly now) :
      Passes supervisor now [] { supervisor with
        serverReady := true, state := .initComplete, timer := ⟨now⟩ }
  | missesPort (stage : supervisor.state = .initServerStart) (due : ¬supervisor.IsEarly now) :
      Passes supervisor now [] (supervisor.failed now)
  | comesUp (stage : supervisor.state = .initComplete) :
      Passes supervisor now [.ready supervisor.ip] { supervisor with
        established := true, errors := 0, state := .idle, timer := ⟨now⟩ }
  | stays (stage : supervisor.state = .idle) (due : ¬supervisor.IsEarly now) :
      Passes supervisor now [] { supervisor with timer := ⟨now⟩, link := .on }
  | changesLease (stage : supervisor.state = .idle) (due : ¬supervisor.IsEarly now)
      (lease : Lease) :
      Passes supervisor now (storing supervisor.addressing (.ofLease lease)) { supervisor with
        timer := ⟨now⟩, link := .on, addressing := .ofLease lease, ip := lease.ip }
  | losesCable (stage : supervisor.state = .idle) (due : ¬supervisor.IsEarly now)
      (link : LinkStatus) (out : link ≠ .on) :
      Passes supervisor now [.linkLost] { supervisor with
        link, established := false, serverReady := false
        state := .disconnected, timer := ⟨now⟩ }
  | losesBus (stage : supervisor.state = .disconnected) (due : ¬supervisor.IsEarly now) :
      Passes supervisor now [.recoverBus] { supervisor with timer := ⟨now⟩ }
  | seesNoCable (stage : supervisor.state = .disconnected) (due : ¬supervisor.IsEarly now)
      (link : LinkStatus) (out : link ≠ .on) :
      Passes supervisor now [] { supervisor with timer := ⟨now⟩, link }
  | seesCable (stage : supervisor.state = .disconnected) (due : ¬supervisor.IsEarly now) :
      Passes supervisor now [] { supervisor with
        link := .on, state := .initStart, timer := ⟨now⟩ }
  | escalates (stage : supervisor.state = .error) (due : ¬supervisor.IsEarly now)
      (many : supervisor.timings.maxErrorRetries ≤ supervisor.errors) :
      Passes supervisor now [] { supervisor with
        errors := 0, state := .hardResetStart, timer := ⟨now⟩ }
  | retries (stage : supervisor.state = .error) (due : ¬supervisor.IsEarly now)
      (few : supervisor.errors < supervisor.timings.maxErrorRetries) :
      Passes supervisor now [] { supervisor with state := .initStart, timer := ⟨now⟩ }

theorem isEarly_iff {wait : Millis} (timed : supervisor.patience = some wait) :
    supervisor.IsEarly now ↔ supervisor.timer.elapsed now < wait := by
  simp [IsEarly, timed]

theorem not_isEarly (untimed : supervisor.patience = none) : ¬supervisor.IsEarly now := by
  simp [IsEarly, untimed]

theorem tells_awaitSoftReset (stage : supervisor.state = .softResetWait) :
    (supervisor.awaitSoftReset now).Tells (supervisor.Passes now) := by
  rw [awaitSoftReset, Nic.pollSoftReset, tells_nic_bind]
  intro progress
  cases progress with
  | finished => simpa using .endsSoftReset stage
  | pending =>
    dsimp only
    split
    · simpa using .missesSoftReset stage
    · next patient => exact .awaitsSoftReset stage (Bool.eq_false_iff.mpr patient)
  | failed error => simpa using .missesSoftReset stage

theorem tells_probe (stage : supervisor.state = .initStart) :
    (supervisor.probe now).Tells (supervisor.Passes now) := by
  rw [probe, Nic.probe, tells_nic_bind]
  intro answer
  cases answer with
  | ok => simpa using .findsController stage
  | error error => simpa using .missesController stage

theorem tells_checkLink (stage : supervisor.state = .initCheckLink) :
    (supervisor.checkLink now).Tells (supervisor.Passes now) := by
  rw [checkLink, Nic.linkStatus, tells_nic_bind]
  intro link
  cases link with
  | on =>
    dsimp only
    split
    · next leased => simpa using .seeksLease stage leased
    · next fixed => simpa using .seeksStatic stage (Bool.eq_false_iff.mpr fixed)
  | off => simpa using .findsNoCable stage
  | unknown =>
    dsimp only
    split
    · next tired => simpa [value_requestHardReset] using .doubtsLink stage tired
    · next patient => exact .guessesLink stage (Bool.eq_false_iff.mpr patient)

/-- Taking a lease over has it stored if that changes anything. -/
theorem tells_takeLease {lease : Lease} {changed : Option String} :
    (supervisor.takeLease lease changed).Tells fun told after =>
      told = storing supervisor.addressing (.ofLease lease) ∧
        after = { supervisor with addressing := .ofLease lease, ip := lease.ip } := by
  unfold takeLease storing
  dsimp only
  by_cases same : Addressing.ofLease lease = supervisor.addressing
  · simp [same]
  · cases changed with
    | none => simp [same]
    | some text => simp [same]

/-- Taking a lease over asks nothing of the controller. -/
theorem asks_takeLease {allowed : Effect → Prop} (records : ∀ record, allowed (.record record))
    (notices : ∀ notice, allowed (.notify notice)) {lease : Lease} {changed : Option String} :
    (supervisor.takeLease lease changed).Asks allowed := by
  unfold takeLease
  dsimp only
  split
  · cases changed with
    | none => exact ⟨notices _, fun _ => trivial⟩
    | some text => exact ⟨records _, fun _ => ⟨notices _, fun _ => trivial⟩⟩
  · trivial

theorem tells_leaseAddress (stage : supervisor.state = .initDhcp) :
    (supervisor.leaseAddress now).Tells (supervisor.Passes now) := by
  rw [leaseAddress, Nic.dhcpLease, tells_nic_bind]
  intro answer
  cases answer with
  | ok lease =>
    simp only [tells_bind, tells_lift, value_enter]
    refine tells_takeLease.mono fun told taken took => ?_
    obtain ⟨rfl, rfl⟩ := took
    simpa using .leases stage lease
  | error error =>
    simp only [tells_log_bind]
    split
    · next tired => simpa using .fallsBack stage tired
    · next patient => exact .missesLease stage (UInt8.not_le.mp patient)

theorem tells_configureAddress (stage : supervisor.state = .initStatic) :
    (supervisor.configureAddress now).Tells (supervisor.Passes now) := by
  rw [configureAddress, Nic.configureStatic, tells_nic_bind]
  intro _
  rw [Nic.localIp, tells_nic_bind]
  intro ip
  dsimp only
  split
  · next rejected => simpa [rejected] using .givesUpStatic stage
  · next taken => simpa using .takesStatic stage ip taken

theorem asks_openPorts {allowed : Effect → Prop} (calls : ∀ call, allowed (.call call))
    (ports : List UInt16) : (openPorts ports).Asks allowed := by
  induction ports with
  | nil => trivial
  | cons port ports ih =>
    refine (Nic.asks_isListening (calls _) (fun _ => calls _) fun _ => calls _).bind
      fun listening => ?_
    split
    · exact ih
    · refine (asks_nic.mpr (calls (.listen port))).bind fun outcome => ?_
      cases outcome with
      | ok socket => exact ih
      | error error => trivial

theorem tells_startServers (stage : supervisor.state = .initServerStart) :
    (supervisor.startServers now).Tells (supervisor.Passes now) := by
  have timed : supervisor.patience = some supervisor.timings.serverSettle := by
    simp [patience, stage]
  unfold startServers
  split
  · next early => exact .waits ((isEarly_iff timed).mpr early)
  · next late =>
    have due := late ∘ (isEarly_iff timed).mp
    have silent := tells_nothing (asks_openPorts (fun _ _ => nofun) supervisor.ports)
    refine tells_bind.mpr (silent.mono fun told outcome none => ?_)
    subst none
    cases outcome with
    | none => simpa using .opensPorts stage due
    | some failure => simpa using .missesPort stage due

theorem tells_complete (stage : supervisor.state = .initComplete) :
    (supervisor.complete now).Tells (supervisor.Passes now) := by
  simpa [complete] using .comesUp stage

theorem tells_watch (stage : supervisor.state = .idle) :
    (supervisor.watch now).Tells (supervisor.Passes now) := by
  have timed : supervisor.patience = some supervisor.timings.idlePoll := by
    simp [patience, stage]
  unfold watch
  split
  · next early => exact .waits ((isEarly_iff timed).mpr early)
  · next late =>
    have due := late ∘ (isEarly_iff timed).mp
    rw [Nic.linkStatus, tells_nic_bind]
    intro link
    dsimp only
    split
    · next out => simpa using .losesCable stage due link out
    · next on =>
      have on : link = .on := Classical.not_not.mp on
      subst on
      split
      · rw [maintainLease, Nic.maintainLease, tells_nic_bind]
        intro upkeep
        cases upkeep with
        | renewed lease | rebound lease =>
          refine tells_takeLease.mono fun told taken ⟨notices, same⟩ => ?_
          subst notices same
          exact .changesLease stage due lease
        | nothing | renewFailed | rebindFailed => exact .stays stage due
      · exact .stays stage due

theorem tells_awaitCable (stage : supervisor.state = .disconnected) :
    (supervisor.awaitCable now).Tells (supervisor.Passes now) := by
  have timed : supervisor.patience = some supervisor.timings.disconnectedPoll := by
    simp [patience, stage]
  unfold awaitCable
  split
  · next early => exact .waits ((isEarly_iff timed).mpr early)
  · next late =>
    have due := late ∘ (isEarly_iff timed).mp
    dsimp only
    rw [Nic.probe, tells_nic_bind]
    intro answer
    cases answer with
    | error error => exact .losesBus stage due
    | ok =>
      rw [Nic.linkStatus, tells_nic_bind]
      intro link
      split
      · next on =>
        subst on
        simpa using .seesCable stage due
      · next out => exact .seesNoCable stage due link out

theorem passes_retry (stage : supervisor.state = .error) :
    supervisor.Passes now [] (supervisor.retry now).value := by
  have timed : supervisor.patience = some supervisor.timings.errorRetry := by
    simp [patience, stage]
  unfold retry
  split
  · next early => exact .waits ((isEarly_iff timed).mpr early)
  · next late =>
    have due := late ∘ (isEarly_iff timed).mp
    split
    · next many => simpa [value_requestHardReset] using .escalates stage due many
    · next few => simpa using .retries stage due (UInt8.not_le.mp few)

/-- An update takes one of the steps. -/
theorem tells_update (supervisor : Supervisor) (now : Millis) :
    (supervisor.update now).Tells (supervisor.Passes now) := by
  have due {wait : Millis} (timed : supervisor.patience = some wait)
      (late : wait ≤ supervisor.timer.elapsed now) : ¬supervisor.IsEarly now :=
    fun early => UInt32.not_lt.mpr late ((isEarly_iff timed).mp early)
  have early {wait : Millis} (timed : supervisor.patience = some wait)
      (soon : ¬wait ≤ supervisor.timer.elapsed now) : supervisor.IsEarly now :=
    (isEarly_iff timed).mpr (UInt32.not_le.mp soon)
  unfold update
  -- one case for each stage; the stages that take more than a line have lemmas of their own
  cases stage : supervisor.state with
  | hardResetStart => simpa [dropService] using .lowersLine stage
  | hardResetLow =>
    have timed : supervisor.patience = some supervisor.timings.resetLow := by
      simp [patience, stage]
    dsimp only
    split
    · next late => simpa using .raisesLine stage (due timed late)
    · next soon => exact .waits (early timed soon)
  | hardResetWait =>
    have timed : supervisor.patience = some supervisor.timings.resetSettle := by
      simp [patience, stage]
    dsimp only
    split
    · next late => simpa using .settles stage (due timed late)
    · next soon => exact .waits (early timed soon)
  | softResetStart =>
    rw [Nic.beginSoftReset, tells_nic_bind]
    intro _
    simpa [dropService] using .beginsSoftReset stage
  | softResetWait => exact tells_awaitSoftReset stage
  | initStart => exact tells_probe stage
  | initCheckLink => exact tells_checkLink stage
  | initDhcp => exact tells_leaseAddress stage
  | initStatic => exact tells_configureAddress stage
  | initServerStart => exact tells_startServers stage
  | initComplete => exact tells_complete stage
  | idle => exact tells_watch stage
  | disconnected => exact tells_awaitCable stage
  | error => exact tells_lift.mpr (passes_retry stage)

theorem passes_of_path {after : Supervisor} (path : Path (supervisor.update now) trace after) :
    supervisor.Passes now (noticesIn trace) after :=
  path.told (supervisor.tells_update now)

end BoardNet.Link.Supervisor
