import BoardNet.Proofs.Link.Career

/-!
When the link is ready. Requests move the supervisor to another stage and leave its flags as they
are, so the flags alone say little; together with the stage they say that the link came up and that
nothing has interrupted it since.
-/

namespace BoardNet.Link.Supervisor

open Poll

/-- How the flags of a supervisor go with its stage. -/
structure Marked (supervisor : Supervisor) : Prop where
  up : supervisor.state = .idle → supervisor.established = true ∧ supervisor.serverReady = true
  opened : supervisor.state = .initComplete → supervisor.serverReady = true
  /-- A request does not take the flag back before the reset that it asks for. -/
  established : supervisor.established = true →
    supervisor.state = .idle ∨ supervisor.state = .hardResetStart ∨
      supervisor.state = .softResetStart

namespace Act

def Enters (act : Act) (state : State) : Prop := act.after.state = state ∧ act.before.state ≠ state

instance (act : Act) (state : State) : Decidable (act.Enters state) :=
  inferInstanceAs (Decidable (_ ∧ _))

/-- A reset or another addressing is asked for, by the firmware or by the supervisor itself, the
loss of the link is reported, or something has failed. -/
def Interrupts (act : Act) : Prop :=
  (∀ now, act.deed ≠ .update now) ∨ .linkLost ∈ act.told ∨ act.Enters .error ∨
    act.Enters .hardResetStart

def Announces (act : Act) : Prop := ∃ ip, .ready ip ∈ act.told

end Act

/-- The link was interrupted, or has never been up, and has not come up since. -/
def Down : List Act → Prop
  | [] => True
  | act :: earlier => act.Interrupts ∨ ¬act.Announces ∧ Down earlier

variable {supervisor after : Supervisor} {now : Millis} {told : List Notice} {deed : Deed}

theorem Marked.isReady_iff (marked : supervisor.Marked) :
    supervisor.isReady = true ↔ supervisor.state = .idle := by
  constructor
  · intro ready
    simp only [isReady, Bool.and_eq_true, decide_eq_true_eq] at ready
    exact ready.1.1
  · intro idle
    obtain ⟨established, opened⟩ := marked.up idle
    simp [isReady, idle, established, opened]

theorem Passes.marked (passes : supervisor.Passes now told after) (marked : supervisor.Marked) :
    after.Marked := by
  have standing := marked.established
  cases passes with
  | waits | awaitsSoftReset => exact marked
  | comesUp stage => exact ⟨fun _ => ⟨rfl, marked.opened stage⟩, nofun, fun _ => .inl rfl⟩
  | stays stage | changesLease stage =>
    exact ⟨fun _ => marked.up stage, by simp [stage], fun _ => .inl stage⟩
  | opensPorts stage => exact ⟨nofun, fun _ => rfl, by simpa [stage] using standing⟩
  | lowersLine | beginsSoftReset | missesSoftReset | missesController | missesPort
  | losesCable => exact ⟨nofun, nofun, nofun⟩
  | guessesLink stage | missesLease stage | losesBus stage | seesNoCable stage =>
    exact ⟨by simp [stage], by simp [stage], standing⟩
  | settles => exact ⟨nofun, nofun, fun _ => .inr (.inr rfl)⟩
  | doubtsLink | escalates => exact ⟨nofun, nofun, fun _ => .inr (.inl rfl)⟩
  | raisesLine stage | endsSoftReset stage | findsController stage | seeksLease stage
  | seeksStatic stage | findsNoCable stage | leases stage | fallsBack stage | takesStatic stage
  | givesUpStatic stage | seesCable stage | retries stage =>
    exact ⟨nofun, nofun, by simpa [stage] using standing⟩

theorem Performs.marked (performs : supervisor.Performs deed told after)
    (marked : supervisor.Marked) : after.Marked := by
  cases performs with
  | update passes => exact passes.marked marked
  | hardResets => exact ⟨nofun, nofun, fun _ => .inr (.inl rfl)⟩
  | softResets => exact ⟨nofun, nofun, fun _ => .inr (.inr rfl)⟩
  | readdresses => exact ⟨nofun, nofun, nofun⟩

/-- The notices that say whether the link is up are not among those to store an addressing. -/
theorem not_mem_storing {notice : Notice} {before after : Addressing}
    (other : ∀ addressing, notice ≠ .store addressing) : notice ∉ storing before after := by
  unfold storing
  split
  · simp
  · simpa using other after

/-- An update leaves the supervisor idle just when it brings the link up, or finds and leaves it
up. -/
theorem Passes.idle_iff (passes : supervisor.Passes now told after) :
    after.state = .idle ↔
      ¬(Act.mk supervisor (.update now) told after).Interrupts ∧
        ((Act.mk supervisor (.update now) told after).Announces ∨ supervisor.state = .idle) := by
  simp only [Act.Interrupts, Act.Announces, Act.Enters]
  cases passes with
  | waits | awaitsSoftReset => simp
  | comesUp stage => simp
  | stays stage => simp [stage]
  | changesLease stage due lease => simp [stage, not_mem_storing]
  | losesCable stage => simp
  | leases stage lease => simp [stage, not_mem_storing]
  | doubtsLink stage | escalates stage | missesSoftReset stage | missesController stage
  | missesPort stage => simp [stage, failed]
  | guessesLink stage | missesLease stage | losesBus stage | seesNoCable stage
  | lowersLine stage | beginsSoftReset stage | opensPorts stage | raisesLine stage
  | settles stage | endsSoftReset stage | findsController stage | seeksLease stage
  | seeksStatic stage | findsNoCable stage | fallsBack stage | takesStatic stage
  | givesUpStatic stage | seesCable stage | retries stage => simp [stage]

theorem Performs.idle_iff (performs : supervisor.Performs deed told after) :
    after.state = .idle ↔
      ¬(Act.mk supervisor deed told after).Interrupts ∧
        ((Act.mk supervisor deed told after).Announces ∨ supervisor.state = .idle) := by
  cases performs with
  | update passes => exact passes.idle_iff
  | hardResets | softResets | readdresses => simp [Act.Interrupts]

section Career

variable {first : Supervisor} {history : List Act}

theorem Career.marked (marked : first.Marked) (career : Career first history supervisor) :
    supervisor.Marked := by
  induction career with
  | start => exact marked
  | perform career path ih => exact (performs_of_path path).marked ih

theorem Career.idle_iff (fresh : first.state ≠ .idle) (career : Career first history supervisor) :
    supervisor.state = .idle ↔ ¬Down history := by
  induction career with
  | start => simp [Down, fresh]
  | perform career path ih =>
    rw [(performs_of_path path).idle_iff, ih, Down, not_or, Classical.not_and_iff_not_or_not,
      Classical.not_not]

end Career

end BoardNet.Link.Supervisor
