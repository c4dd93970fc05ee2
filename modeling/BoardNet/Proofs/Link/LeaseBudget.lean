import BoardNet.Proofs.Link.Persistence
import BoardNet.Proofs.Link.Readiness

/-!
How often a lease is asked for in vain. One counter serves all of bring-up, and requests may leave
the stage of asking half way; yet whenever that stage is entered the counter stands at zero, so the
board falls back to its static address after just the number of tries that it is set to.
-/

namespace BoardNet.Link.Supervisor

open Poll

/-- One try for a lease, by what the controller answers. -/
inductive TriesLease (supervisor : Supervisor) (now : Millis) :
    Except NicError Lease → Supervisor → Prop where
  | given (lease : Lease) :
      TriesLease supervisor now (.ok lease) { supervisor with
        retries := 0, addressing := .ofLease lease, ip := lease.ip
        state := .initServerStart, timer := ⟨now⟩ }
  | missed {error : NicError}
      (patient : supervisor.retries + 1 < supervisor.timings.dhcpMaxRetries) :
      TriesLease supervisor now (.error error) { supervisor with
        retries := supervisor.retries + 1 }
  | givenUp {error : NicError}
      (tired : supervisor.timings.dhcpMaxRetries ≤ supervisor.retries + 1) :
      TriesLease supervisor now (.error error) { supervisor with
        retries := 0, addressing := { supervisor.addressing with dhcp := false }
        state := .initStatic, timer := ⟨now⟩ }

/-- Updates one after the other, each in the stage of asking for a lease, and in each of which one
was asked for and not given: how many, and where they lead. -/
inductive Misses (supervisor : Supervisor) : Nat → Supervisor → Prop where
  | none : Misses supervisor 0 supervisor
  | another {count : Nat} {before after : Supervisor} {now : Millis} {trace : List Exchange}
      {error : NicError} (misses : Misses supervisor count before)
      (stage : before.state = .initDhcp) (path : Path (before.update now) trace after)
      (missed : ⟨.call (.dhcpLease before.mac before.timings.dhcpTimeout), .error error⟩ ∈ trace) :
      Misses supervisor (count + 1) after

/-- The counter of tries is below its limit, and at zero before the first try. -/
structure Frugal (supervisor : Supervisor) : Prop where
  within : supervisor.retries.toNat < max 1 supervisor.timings.dhcpMaxRetries.toNat
  fresh : supervisor.state = .initCheckLink ∨ supervisor.state = .initStatic →
    supervisor.retries = 0

variable {first supervisor before after later : Supervisor} {now : Millis} {told : List Notice}
  {deed : Deed} {trace : List Exchange} {history : List Act} {count : Nat}

/-- A counter below its limit can count one more. -/
theorem toNat_succ_of_lt_max {retries most : UInt8} (within : retries.toNat < max 1 most.toNat) :
    (retries + 1).toNat = retries.toNat + 1 := by
  have bound := UInt8.toNat_lt most
  have one : (1 : UInt8).toNat = 1 := rfl
  rw [UInt8.toNat_add, one]
  omega

section Try

/-- An update in the stage of asking for a lease asks for one, once, and for nothing else. -/
theorem triesLease_of_path (stage : supervisor.state = .initDhcp)
    (path : Path (supervisor.update now) trace after) :
    ∃ answer rest,
      trace = ⟨.call (.dhcpLease supervisor.mac supervisor.timings.dhcpTimeout), answer⟩ :: rest ∧
      (∀ exchange ∈ rest, ∀ call, exchange.effect ≠ .call call) ∧
      supervisor.TriesLease now answer after := by
  have tries : supervisor.update now = supervisor.leaseAddress now := by
    rw [update, stage]
  rw [tries, leaseAddress] at path
  obtain ⟨answer, rest, rfl, further⟩ := path_nic_bind.mp path
  have records (record : Log.Record) (call : Nic.Call) : Effect.record record ≠ .call call := by
    simp
  have notices (notice : Notice) (call : Nic.Call) : Effect.notify notice ≠ .call call := by simp
  refine ⟨answer, rest, rfl, ?_, ?_⟩
  · refine @Path.effect_allowed _ (fun effect => ∀ call, effect ≠ .call call) _ _ _ further ?_
    cases answer with
    | ok lease =>
      refine Asks.bind (asks_log.mpr (records _)) fun _ => ?_
      exact (asks_takeLease records notices).bind fun _ => asks_lift records
    | error error =>
      refine Asks.bind (asks_log.mpr (records _)) fun _ => ?_
      split
      · exact ⟨notices _, fun _ => asks_lift records⟩
      · trivial
  · refine @Path.told _ (fun _ after => supervisor.TriesLease now answer after) _ _ _ further ?_
    cases answer with
    | ok lease =>
      simp only [tells_bind, tells_lift, value_enter]
      refine tells_takeLease.mono fun told taken took => ?_
      obtain ⟨-, rfl⟩ := took
      exact .given lease
    | error error =>
      simp only [tells_log_bind]
      split
      · next tired => simpa using .givenUp tired
      · next patient => exact .missed (UInt8.not_le.mp patient)

/-- Whatever it was asked before, the controller may refuse a lease. -/
theorem exists_refused (stage : supervisor.state = .initDhcp) (now : Millis) (error : NicError) :
    ∃ trace after, Path (supervisor.update now) trace after ∧
      ⟨.call (.dhcpLease supervisor.mac supervisor.timings.dhcpTimeout), .error error⟩ ∈ trace := by
  have tries : supervisor.update now = supervisor.leaseAddress now := by
    rw [update, stage]
  rw [tries]
  exact ⟨_, _, .ask (Except.error error) (path_run Sim.Controller.chip _ {}), List.mem_cons_self⟩

end Try

section Step

theorem Passes.frugal (passes : supervisor.Passes now told after) (frugal : supervisor.Frugal) :
    after.Frugal := by
  obtain ⟨within, fresh⟩ := frugal
  have some : (0 : UInt8).toNat < max 1 supervisor.timings.dhcpMaxRetries.toNat :=
    Nat.lt_of_lt_of_le Nat.zero_lt_one (Nat.le_max_left 1 _)
  cases passes with
  | waits | awaitsSoftReset => exact ⟨within, fresh⟩
  | guessesLink stage => exact ⟨within, fun _ => fresh (.inl stage)⟩
  | findsController => exact ⟨some, fun _ => rfl⟩
  | seeksStatic stage => exact ⟨within, fun _ => fresh (.inl stage)⟩
  | fallsBack => exact ⟨some, fun _ => rfl⟩
  | leases => exact ⟨some, fun _ => rfl⟩
  | missesLease stage patient =>
    have patient := UInt8.lt_iff_toNat_lt.mp patient
    exact ⟨Nat.lt_of_lt_of_le patient (Nat.le_max_right 1 _), by simp [stage]⟩
  | stays stage | changesLease stage | losesBus stage | seesNoCable stage =>
    exact ⟨within, by simp [stage]⟩
  | _ => exact ⟨within, nofun⟩

theorem Performs.frugal (performs : supervisor.Performs deed told after)
    (frugal : supervisor.Frugal) : after.Frugal := by
  cases performs with
  | update passes => exact passes.frugal frugal
  | hardResets | softResets | readdresses => exact ⟨frugal.within, nofun⟩

/-- The stage of asking for a lease is entered from a stage in which the counter stands at zero. -/
theorem Passes.seeks (passes : supervisor.Passes now told after) (next : after.state = .initDhcp)
    (other : supervisor.state ≠ .initDhcp) :
    (supervisor.state = .initCheckLink ∨ supervisor.state = .initStatic) ∧
      after.retries = supervisor.retries := by
  cases passes with
  | seeksLease stage => exact ⟨.inl stage, rfl⟩
  | givesUpStatic stage => exact ⟨.inr stage, rfl⟩
  | waits | awaitsSoftReset => exact absurd next other
  | guessesLink | missesLease | stays | changesLease | losesBus | seesNoCable =>
    exact absurd next other
  | _ => cases next

theorem Performs.retries_of_enters (performs : supervisor.Performs deed told after)
    (frugal : supervisor.Frugal)
    (enters : (Act.mk supervisor deed told after).Enters .initDhcp) : after.retries = 0 := by
  cases performs with
  | update passes =>
    obtain ⟨stage, same⟩ := passes.seeks enters.1 enters.2
    exact same.trans (frugal.fresh stage)
  | hardResets | softResets | readdresses => cases enters.1

end Step

/-- The counter counts the tries in vain, until they are used up. -/
theorem Misses.stays (misses : supervisor.Misses count later)
    (stage : supervisor.state = .initDhcp) (fresh : supervisor.retries = 0) :
    later.timings = supervisor.timings ∧
      (count < max 1 supervisor.timings.dhcpMaxRetries.toNat ∧ later.state = .initDhcp ∧
          later.retries.toNat = count ∨
        count = max 1 supervisor.timings.dhcpMaxRetries.toNat ∧ later.state = .initStatic ∧
          later.addressing.dhcp = false) := by
  induction misses with
  | none =>
    rw [fresh]
    exact ⟨rfl, .inl ⟨Nat.lt_of_lt_of_le Nat.zero_lt_one (Nat.le_max_left 1 _), stage, rfl⟩⟩
  | @another count before after now trace error misses asking path missed ih =>
    obtain ⟨same, ⟨fewer, -, counted⟩ | ⟨-, static, -⟩⟩ := ih
    -- the tries were not used up before, or nobody would have asked again
    · have within : before.retries.toNat < max 1 before.timings.dhcpMaxRetries.toNat := by
        rw [counted, same]
        exact fewer
      have more := toNat_succ_of_lt_max within
      obtain ⟨answer, rest, rfl, silent, tries⟩ := triesLease_of_path asking path
      have refused : answer = .error error := by
        rcases List.mem_cons.mp missed with first | later
        · cases first
          rfl
        · exact absurd rfl (silent _ later _)
      subst refused
      cases tries with
      | missed patient =>
        have patient := UInt8.lt_iff_toNat_lt.mp patient
        rw [more, counted, same] at patient
        refine ⟨same, .inl ⟨Nat.lt_of_lt_of_le patient (Nat.le_max_right 1 _), asking, ?_⟩⟩
        exact more.trans (congrArg (· + 1) counted)
      | givenUp tired =>
        have tired := UInt8.le_iff_toNat_le.mp tired
        rw [more, counted, same] at tired
        refine ⟨same, .inr ⟨?_, rfl, rfl⟩⟩
        omega
    · cases static.symm.trans asking

section Career

theorem Career.frugal (frugal : first.Frugal) (career : Career first history supervisor) :
    supervisor.Frugal := by
  induction career with
  | start => exact frugal
  | perform career path ih => exact (performs_of_path path).frugal ih

/-- A lease is asked for just as often as the supervisor is set to ask, or once. The counter of
tries in vain is always below that number and never overflows, and it stands at zero whenever the
stage of asking is entered, which goes with the addressing in force. Each update in that stage asks
once. After fewer refusals than the number the stage is not left, and the refusal that reaches it
makes the board fall back to its static address. -/
theorem lease_budget {resetLine : Pin} {mac : Mac} {addressing : Addressing} {timings : Timings}
    {ports : List UInt16}
    (career : Career (start resetLine mac addressing timings ports).value history supervisor) :
    let most := max 1 timings.dhcpMaxRetries.toNat
    (supervisor.retries.toNat < most ∧
      (supervisor.retries + 1).toNat = supervisor.retries.toNat + 1) ∧
    (supervisor.state = .initDhcp → supervisor.addressing.dhcp = true) ∧
    (supervisor.state = .initStatic → supervisor.addressing.dhcp = false) ∧
    (supervisor.state = .initDhcp → ∀ now trace after, Path (supervisor.update now) trace after →
      ∃ answer rest,
        trace = ⟨.call (.dhcpLease supervisor.mac timings.dhcpTimeout), answer⟩ :: rest ∧
        (∀ exchange ∈ rest, ∀ call, exchange.effect ≠ .call call) ∧
        supervisor.TriesLease now answer after) ∧
    ∀ act ∈ history, act.Enters .initDhcp → act.after.retries = 0 ∧
      ∀ count later, Misses act.after count later → count ≤ most ∧
        if count = most then later.state = .initStatic ∧ later.addressing.dhcp = false
        else later.state = .initDhcp := by
  intro most
  have suited : (start resetLine mac addressing timings ports).value.Suited := ⟨nofun, nofun⟩
  have frugal : (start resetLine mac addressing timings ports).value.Frugal :=
    ⟨Nat.lt_of_lt_of_le Nat.zero_lt_one (Nat.le_max_left 1 _), nofun⟩
  have same : supervisor.timings = timings := career.timings
  have within := (career.frugal frugal).within
  rw [same] at within
  refine ⟨⟨within, toNat_succ_of_lt_max within⟩, (career.suited suited).leased,
    (career.suited suited).fixed, fun stage now trace after path => ?_, fun act member enters => ?_⟩
  · rw [← same]
    exact triesLease_of_path stage path
  · obtain ⟨performs, earlier, past⟩ := career.performs act member
    have fresh := performs.retries_of_enters (past.frugal frugal) enters
    have kept : act.after.timings = timings := performs.timings.trans past.timings
    refine ⟨fresh, fun count later misses => ?_⟩
    obtain ⟨-, outcome⟩ := misses.stays enters.1 fresh
    rw [kept] at outcome
    rcases outcome with ⟨fewer, asking, -⟩ | ⟨full, static, fixed⟩
    · rw [if_neg (Nat.ne_of_lt fewer)]
      exact ⟨Nat.le_of_lt fewer, asking⟩
    · rw [if_pos full]
      exact ⟨Nat.le_of_eq full, static, fixed⟩

/-- A controller that has no lease to give sends the board to its static address at the third
refusal. -/
theorem lease_budget_refused :
    ∃ history supervisor,
      Career (start {} ⟨0x1E, 7, 1, 2, 3, 4⟩ {} {} []).value history supervisor ∧
      ∃ act ∈ history, act.Enters .initDhcp ∧
        ∃ later, Misses act.after 3 later ∧ later.state = .initStatic := by
  let done := performAll Sim.Controller.chip []
    (start {} ⟨0x1E, 7, 1, 2, 3, 4⟩ {} {} []).value ({} : Sim.Controller) [.update 0, .update 1]
  have career : Career (start {} ⟨0x1E, 7, 1, 2, 3, 4⟩ {} {} []).value done.1 done.2 :=
    Career.performAll _ .start _ _
  obtain ⟨act, member, enters⟩ : ∃ act ∈ done.1, act.Enters .initDhcp := by decide +kernel
  obtain ⟨-, -, -, -, stays⟩ := lease_budget career
  have stays := (stays act member enters).2
  have three : max 1 ({} : Timings).dhcpMaxRetries.toNat = 3 := rfl
  rw [three] at stays
  have refused {count : Nat} {before : Supervisor} (misses : Misses act.after count before)
      (few : count ≠ 3) : ∃ after, Misses act.after (count + 1) after := by
    have asking := (stays count before misses).2
    rw [if_neg few] at asking
    obtain ⟨trace, after, path, missed⟩ := exists_refused asking 2 .dhcp
    exact ⟨after, .another misses asking path missed⟩
  obtain ⟨_, one⟩ := refused .none (by decide)
  obtain ⟨_, two⟩ := refused one (by decide)
  obtain ⟨later, all⟩ := refused two (by decide)
  exact ⟨_, _, career, act, member, enters, later, all, (stays 3 later all).2.1⟩

end Career

end BoardNet.Link.Supervisor
