import BoardNet.Proofs.Link.ResetLine

namespace BoardNet.Link.Supervisor

open Poll

/-- The reading of the counter when something is done. -/
def Deed.now : Deed → Millis
  | .update now | .requestHardReset _ now | .applyAddressing _ now => now

structure Act where
  before : Supervisor
  deed : Deed
  /-- What the firmware was notified of meanwhile. -/
  told : List Notice
  after : Supervisor

/-- A supervisor since it was some other one: what was done with it, the latest first. -/
inductive Career (first : Supervisor) : List Act → Supervisor → Prop where
  | start : Career first [] first
  | perform {history : List Act} {before after : Supervisor} {deed : Deed}
      {trace : List Exchange} (career : Career first history before)
      (path : Path (before.perform deed) trace after) :
      Career first (⟨before, deed, noticesIn trace, after⟩ :: history) after

/-- One thing done with a supervisor: what the firmware is notified of, and what is left. -/
inductive Performs (supervisor : Supervisor) : Deed → List Notice → Supervisor → Prop where
  | update {now : Millis} {told : List Notice} {after : Supervisor}
      (passes : supervisor.Passes now told after) : Performs supervisor (.update now) told after
  | hardResets {force : Bool} {now : Millis}
      (granted : (supervisor.isThrottled now && !force) = false) :
      Performs supervisor (.requestHardReset force now) []
        { supervisor with state := .hardResetStart, timer := ⟨now⟩ }
  | softResets {force : Bool} {now : Millis}
      (denied : (supervisor.isThrottled now && !force) = true) :
      Performs supervisor (.requestHardReset force now) []
        { supervisor with state := .softResetStart, timer := ⟨now⟩ }
  | readdresses {addressing : Addressing} {now : Millis} :
      Performs supervisor (.applyAddressing addressing now) [.store addressing] { supervisor with
        addressing, established := false, serverReady := false
        state := .softResetStart, timer := ⟨now⟩ }

variable {first supervisor before after : Supervisor} {deed : Deed} {now : Millis}
  {told : List Notice} {trace : List Exchange} {act : Act} {history later earlier : List Act}

theorem performs_of_path (path : Path (supervisor.perform deed) trace after) :
    supervisor.Performs deed (noticesIn trace) after := by
  cases deed with
  | update now => exact .update (passes_of_path path)
  | requestHardReset force now =>
    refine path.told (tells_lift.mpr ?_)
    rw [value_requestHardReset]
    cases denied : supervisor.isThrottled now && !force with
    | false => exact .hardResets denied
    | true => exact .softResets denied
  | applyAddressing addressing now =>
    refine path.told ?_
    rw [perform, applyAddressing, tells_notify_bind, tells_lift, value_enter]
    exact .readdresses

/-- Each thing was done with a supervisor that had a career itself. -/
theorem Career.performs (career : Career first history supervisor) :
    ∀ act ∈ history, act.before.Performs act.deed act.told act.after ∧
      ∃ earlier, Career first earlier act.before := by
  induction career with
  | start => simp
  | @perform history before after deed trace career path ih =>
    intro act member
    rcases List.mem_cons.mp member with rfl | earlier
    · exact ⟨performs_of_path path, history, career⟩
    · exact ih act earlier

/-- A career goes on with something in which the controller is asked nothing. -/
theorem Career.quietly (career : Career first history before) {given : Logged Supervisor}
    (asks : before.perform deed = liftM given) (value : given.value = after) :
    Career first (⟨before, deed, [], after⟩ :: history) after := by
  have path : Path (before.perform deed) (recorded given.records) after :=
    asks ▸ path_lift.mpr ⟨rfl, value.symm⟩
  have next := career.perform path
  rwa [noticesIn_recorded] at next

/-- What was done last was done with a supervisor that had a career itself. -/
theorem Career.latest (career : Career first (act :: earlier) supervisor) :
    Career first earlier act.before ∧ act.before.Performs act.deed act.told act.after ∧
      act.after = supervisor := by
  cases career with
  | perform career path => exact ⟨career, performs_of_path path, rfl⟩

/-- A career goes back to any moment of it. -/
theorem Career.back (career : Career first (later ++ earlier) supervisor) :
    ∃ middle, Career first earlier middle := by
  induction later generalizing supervisor with
  | nil => exact ⟨supervisor, career⟩
  | cons act later ih => exact ih career.latest.1

theorem Passes.timings (passes : supervisor.Passes now told after) :
    after.timings = supervisor.timings := by
  cases passes <;> rfl

theorem Performs.timings (performs : supervisor.Performs deed told after) :
    after.timings = supervisor.timings := by
  cases performs with
  | update passes => exact passes.timings
  | hardResets | softResets | readdresses => rfl

/-- Nothing that is done changes how a supervisor is timed. -/
theorem Career.timings (career : Career first history supervisor) :
    supervisor.timings = first.timings := by
  induction career with
  | start => rfl
  | perform career path ih => exact (performs_of_path path).timings.trans ih

def performAll {σ : Type} (chip : Chip σ) (history : List Act) (supervisor : Supervisor)
    (nic : σ) : List Deed → List Act × Supervisor
  | [] => (history, supervisor)
  | deed :: deeds =>
    let ran := (supervisor.perform deed).run chip nic
    performAll chip (⟨supervisor, deed, ran.notices, ran.value⟩ :: history) ran.value ran.state
      deeds

theorem Career.performAll {σ : Type} (chip : Chip σ) (career : Career first history supervisor)
    (nic : σ) (deeds : List Deed) :
    Career first (performAll chip history supervisor nic deeds).1
      (Supervisor.performAll chip history supervisor nic deeds).2 := by
  induction deeds generalizing history supervisor nic with
  | nil => exact career
  | cons deed deeds ih =>
    have next := career.perform (path_run chip (supervisor.perform deed) nic)
    rw [noticesIn_exchanges] at next
    exact ih next _

/-- What is listed is what was done. -/
theorem deed_performAll {σ : Type} {chip : Chip σ} {nic : σ} {deeds : List Deed}
    (member : act ∈ (performAll chip history supervisor nic deeds).1) :
    act ∈ history ∨ act.deed ∈ deeds := by
  induction deeds generalizing history supervisor nic with
  | nil => exact .inl member
  | cons deed deeds ih =>
    rcases ih member with before | later
    · rcases List.mem_cons.mp before with rfl | before
      · exact .inr List.mem_cons_self
      · exact .inl before
    · exact .inr (List.mem_cons_of_mem deed later)

end BoardNet.Link.Supervisor
