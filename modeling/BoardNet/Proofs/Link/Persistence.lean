import BoardNet.Proofs.Link.Career

/-!
The addressing that is stored. The supervisor changes its addressing in several places, some of them
without looking whether anything changes, and has it stored at each. What is stored last is always
the addressing it goes by, and it never has the same addressing stored twice on its own account.
-/

namespace BoardNet.Link.Supervisor

open Poll

def storedIn (told : List Notice) : List Addressing :=
  told.filterMap fun notice =>
    match notice with
    | .store addressing => some addressing
    | _ => none

/-- What is stored after what was done, given what was stored at first. -/
def lastStored (stored : Addressing) : List Act → Addressing
  | [] => stored
  | act :: earlier => (storedIn act.told).getLastD (lastStored stored earlier)

/-- The two stages of getting an address go with the addressing. -/
structure Suited (supervisor : Supervisor) : Prop where
  leased : supervisor.state = .initDhcp → supervisor.addressing.dhcp = true
  fixed : supervisor.state = .initStatic → supervisor.addressing.dhcp = false

/-- A step has nothing stored and leaves the addressing, or changes it and has just that stored. -/
def Stores (before : Addressing) (told : List Notice) (after : Addressing) : Prop :=
  storedIn told = [] ∧ after = before ∨ storedIn told = [after] ∧ after ≠ before

variable {supervisor after : Supervisor} {now : Millis} {told : List Notice} {deed : Deed}

theorem stores_storing (before after : Addressing) :
    Stores before (storing before after) after := by
  unfold storing
  split
  · next same => exact .inl ⟨rfl, same⟩
  · next changed => exact .inr ⟨rfl, changed⟩

theorem Stores.last {before after : Addressing} (stores : Stores before told after) :
    (storedIn told).getLastD before = after := by
  rcases stores with ⟨none, same⟩ | ⟨one, -⟩
  · rw [none, same]
    rfl
  · rw [one]
    rfl

/-- An update has stored what it changes. -/
theorem Passes.stores (passes : supervisor.Passes now told after) (suited : supervisor.Suited) :
    Stores supervisor.addressing told after.addressing := by
  cases passes with
  | leases stage lease | changesLease stage due lease => exact stores_storing _ _
  | fallsBack stage =>
    refine .inr ⟨rfl, fun same => ?_⟩
    have flag : false = supervisor.addressing.dhcp := congrArg Addressing.dhcp same
    rw [suited.leased stage] at flag
    cases flag
  | givesUpStatic stage =>
    refine .inr ⟨rfl, fun same => ?_⟩
    have flag : true = supervisor.addressing.dhcp := congrArg Addressing.dhcp same
    rw [suited.fixed stage] at flag
    cases flag
  | _ => exact .inl ⟨rfl, rfl⟩

theorem Passes.suited (passes : supervisor.Passes now told after) (suited : supervisor.Suited) :
    after.Suited := by
  cases passes with
  | waits | awaitsSoftReset | guessesLink | missesLease | stays | losesBus | seesNoCable =>
    exact ⟨suited.leased, suited.fixed⟩
  | seeksLease stage leased => exact ⟨fun _ => leased, nofun⟩
  | seeksStatic stage fixed => exact ⟨nofun, fun _ => fixed⟩
  | fallsBack stage => exact ⟨nofun, fun _ => rfl⟩
  | givesUpStatic stage => exact ⟨fun _ => rfl, nofun⟩
  | changesLease stage => exact ⟨by simp [stage], by simp [stage]⟩
  | _ => exact ⟨nofun, nofun⟩

theorem Performs.suited (performs : supervisor.Performs deed told after)
    (suited : supervisor.Suited) : after.Suited := by
  cases performs with
  | update passes => exact passes.suited suited
  | hardResets | softResets | readdresses => exact ⟨nofun, nofun⟩

/-- What is done leaves stored what it leaves the supervisor to go by. -/
theorem Performs.last (performs : supervisor.Performs deed told after)
    (suited : supervisor.Suited) :
    (storedIn told).getLastD supervisor.addressing = after.addressing := by
  cases performs with
  | update passes => exact (passes.stores suited).last
  | hardResets | softResets | readdresses => rfl

section Career

variable {first : Supervisor} {history : List Act}

theorem Career.suited (suited : first.Suited) (career : Career first history supervisor) :
    supervisor.Suited := by
  induction career with
  | start => exact suited
  | perform career path ih => exact (performs_of_path path).suited ih

theorem Career.last (suited : first.Suited) (career : Career first history supervisor) :
    lastStored first.addressing history = supervisor.addressing := by
  induction career with
  | start => rfl
  | perform career path ih =>
    rw [lastStored, ih]
    exact (performs_of_path path).last (career.suited suited)

/-- What is stored never drifts from what the supervisor goes by. After every call the addressing
handed out last to be stored, or the first one if there was none, is the supervisor's; and an update
hands out at most one, at a step that changes the addressing to it. -/
theorem lastStored_eq_addressing {resetLine : Pin} {mac : Mac} {addressing : Addressing}
    {timings : Timings} {ports : List UInt16}
    (career : Career (start resetLine mac addressing timings ports).value history supervisor) :
    lastStored addressing history = supervisor.addressing ∧
    ∀ act ∈ history, ∀ now, act.deed = .update now →
      storedIn act.told = [] ∨
        storedIn act.told = [act.after.addressing] ∧
          act.after.addressing ≠ act.before.addressing := by
  have suited : (start resetLine mac addressing timings ports).value.Suited := ⟨nofun, nofun⟩
  refine ⟨career.last suited, ?_⟩
  intro act member now updates
  obtain ⟨performs, earlier, career⟩ := career.performs act member
  rw [updates] at performs
  cases performs with
  | update passes => exact (passes.stores (career.suited suited)).imp And.left id

/-- A controller that is handed no lease and takes no static address makes the supervisor go back
and forth between the two, which has an addressing stored each time. -/
theorem lastStored_back_and_forth :
    ∃ history supervisor,
      Career (start {} ⟨0x1E, 7, 1, 2, 3, 4⟩ {} {} []).value history supervisor ∧
      history.flatMap (storedIn ·.told) = [{ dhcp := true }, { dhcp := false }] ∧
      lastStored {} history = supervisor.addressing := by
  let nic : Sim.Controller := { dhcp := none, staticAccepted := false }
  let done := performAll Sim.Controller.chip []
    (start {} ⟨0x1E, 7, 1, 2, 3, 4⟩ {} {} []).value nic ([0, 1, 2, 3, 4, 5].map .update)
  have career : Career (start {} ⟨0x1E, 7, 1, 2, 3, 4⟩ {} {} []).value done.1 done.2 :=
    Career.performAll _ .start nic _
  have stored : done.1.flatMap (storedIn ·.told) = [{ dhcp := true }, { dhcp := false }] := by
    decide +kernel
  exact ⟨_, _, career, stored, (lastStored_eq_addressing career).1⟩

end Career

end BoardNet.Link.Supervisor
