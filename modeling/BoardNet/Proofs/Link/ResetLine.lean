import BoardNet.Proofs.Link.Stages
import BoardNet.Sim.Controller

/-!
The reset line of the controller. A pulse on it takes two stages: in the first the supervisor lowers
the line, and at the end of the second it raises it. A request that comes in between may take the
supervisor to another stage, and then nothing raises the line until another pulse is made.
-/

namespace BoardNet.Link.Supervisor

open Poll

inductive Deed where
  | update (now : Millis)
  | requestHardReset (force : Bool) (now : Millis)
  | applyAddressing (addressing : Addressing) (now : Millis)

def perform (supervisor : Supervisor) : Deed → Poll Supervisor
  | .update now => supervisor.update now
  | .requestHardReset force now => supervisor.requestHardReset force now
  | .applyAddressing addressing now => supervisor.applyAddressing addressing now

/-- A supervisor since it was made, whatever the controller answered: what was done with it, the
latest first, each deed with the supervisor that it was done with. -/
inductive Course : List (Supervisor × Deed) → Supervisor → Prop where
  | start (resetLine : Pin) (mac : Mac) (addressing : Addressing) (timings : Timings)
      (ports : List UInt16) : Course [] (start resetLine mac addressing timings ports).value
  | perform {history : List (Supervisor × Deed)} {before after : Supervisor} {deed : Deed}
      {trace : List Exchange} (course : Course history before)
      (path : Path (before.perform deed) trace after) : Course ((before, deed) :: history) after

/-- The supervisor is about to lower the line, or waits to raise it. -/
def IsPulsing (supervisor : Supervisor) : Prop :=
  supervisor.state = .hardResetStart ∨ supervisor.state = .hardResetLow

instance (supervisor : Supervisor) : Decidable supervisor.IsPulsing :=
  inferInstanceAs (Decidable (_ ∨ _))

/-- The line has been low long enough. -/
def Ends (supervisor : Supervisor) : Deed → Prop
  | .update now =>
    supervisor.state = .hardResetLow ∧
      supervisor.timings.resetLow ≤ supervisor.timer.elapsed now
  | _ => False

/-- The supervisor leaves a pulse while the line is low: it is given another addressing, or a pulse
is asked for so soon after the last one that there is a soft reset instead. -/
def Breaks (supervisor : Supervisor) : Deed → Prop
  | .update _ => False
  | .requestHardReset force now =>
    supervisor.IsPulsing ∧ supervisor.resetLine.high = false ∧
      supervisor.isThrottled now = true ∧ force = false
  | .applyAddressing _ _ => supervisor.IsPulsing ∧ supervisor.resetLine.high = false

/-- A pulse was broken off, and none has ended since. -/
def BrokenOff : List (Supervisor × Deed) → Prop
  | [] => False
  | (supervisor, deed) :: earlier =>
    supervisor.Breaks deed ∨ ¬supervisor.Ends deed ∧ BrokenOff earlier

variable {supervisor before after : Supervisor} {now : Millis} {trace : List Exchange}

/-- The line stays as it is, and no stage is entered in which it should be low. -/
def Steady (before after : Supervisor) : Prop :=
  after.resetLine = before.resetLine ∧ after.state ≠ .hardResetLow

/-- What an update does to the line. -/
inductive Drives (supervisor : Supervisor) (now : Millis) : Supervisor → Prop where
  | lowers {after : Supervisor} (stage : supervisor.state = .hardResetStart)
      (next : after.state = .hardResetLow) (line : after.resetLine.high = false) :
      Drives supervisor now after
  | waits (stage : supervisor.state = .hardResetLow)
      (early : ¬supervisor.Ends (.update now)) : Drives supervisor now supervisor
  | raises {after : Supervisor} (ends : supervisor.Ends (.update now))
      (next : after.state = .hardResetWait) (line : after.resetLine.high = true) :
      Drives supervisor now after
  | keeps {after : Supervisor} (outside : ¬supervisor.IsPulsing)
      (steady : supervisor.Steady after) : Drives supervisor now after

theorem drives_of_passes {told : List Notice} (passes : supervisor.Passes now told after) :
    supervisor.Drives now after := by
  cases passes with
  | lowersLine stage => exact .lowers stage rfl rfl
  | raisesLine stage due =>
    have timed : supervisor.patience = some supervisor.timings.resetLow := by
      simp [patience, stage]
    exact .raises ⟨stage, UInt32.not_lt.mp fun early => due ((isEarly_iff timed).mpr early)⟩
      rfl rfl
  | waits early =>
    by_cases low : supervisor.state = .hardResetLow
    · have timed : supervisor.patience = some supervisor.timings.resetLow := by
        simp [patience, low]
      exact .waits low fun ends => UInt32.not_lt.mpr ends.2 ((isEarly_iff timed).mp early)
    · refine .keeps ?_ ⟨rfl, low⟩
      rintro (start | lowered)
      · exact not_isEarly (by simp [patience, start]) early
      · exact low lowered
  | settles stage | beginsSoftReset stage | awaitsSoftReset stage | endsSoftReset stage
  | missesSoftReset stage | findsController stage | missesController stage | seeksLease stage
  | seeksStatic stage | findsNoCable stage | guessesLink stage | doubtsLink stage | leases stage
  | missesLease stage | fallsBack stage | takesStatic stage | givesUpStatic stage
  | opensPorts stage | missesPort stage | comesUp stage | stays stage | changesLease stage
  | losesCable stage | losesBus stage | seesNoCable stage | seesCable stage | escalates stage
  | retries stage =>
    exact .keeps (by simp [IsPulsing, stage]) ⟨rfl, by simp [failed, stage]⟩

/-- A request, or another addressing, leaves the line as it is. The supervisor then has another
stage before it, and is in no pulse if there is to be a soft reset. -/
theorem path_request {deed : Deed} (asked : ∀ now, deed ≠ .update now)
    (path : Path (supervisor.perform deed) trace after) :
    after.resetLine = supervisor.resetLine ∧ after.state ≠ .hardResetLow ∧
      (after.IsPulsing ∨ (supervisor.IsPulsing → supervisor.resetLine.high = false →
        supervisor.Breaks deed)) := by
  cases deed with
  | update now => exact absurd rfl (asked now)
  | requestHardReset force now =>
    obtain ⟨-, rfl⟩ := path_lift.mp path
    rw [value_requestHardReset]
    cases throttled : supervisor.isThrottled now && !force with
    | false => exact ⟨rfl, nofun, .inl (.inl rfl)⟩
    | true =>
      simp only [Bool.and_eq_true, Bool.not_eq_true'] at throttled
      exact ⟨rfl, nofun, .inr fun pulsing low => ⟨pulsing, low, throttled⟩⟩
  | applyAddressing addressing now =>
    rw [perform, applyAddressing, Poll.notify, ask_bind, path_ask] at path
    obtain ⟨_, _, rfl, path⟩ := path
    obtain ⟨-, rfl⟩ := path_lift.mp path
    rw [value_enter]
    exact ⟨rfl, nofun, .inr fun pulsing low => ⟨pulsing, low⟩⟩

theorem not_ends_of_request {deed : Deed} (asked : ∀ now, deed ≠ .update now) :
    ¬supervisor.Ends deed := by
  cases deed with
  | update now => exact absurd rfl (asked now)
  | requestHardReset | applyAddressing => exact id

/-- How the line stands after what was done. -/
structure Stands (history : List (Supervisor × Deed)) (supervisor : Supervisor) : Prop where
  low : supervisor.state = .hardResetLow → supervisor.resetLine.high = false
  /-- A high line was raised at the end of a pulse, or never lowered. -/
  whole : supervisor.resetLine.high = true → ¬BrokenOff history
  broken : supervisor.resetLine.high = false → ¬supervisor.IsPulsing → BrokenOff history

namespace Stands

variable {history : List (Supervisor × Deed)}

theorem update (stands : Stands history before) (drives : before.Drives now after) :
    Stands ((before, .update now) :: history) after := by
  cases drives with
  | lowers stage next line =>
    refine ⟨fun _ => line, fun high => ?_, fun _ outside => absurd (.inr next) outside⟩
    rw [line] at high
    cases high
  | waits stage early =>
    refine ⟨stands.low, ?_, fun low outside => absurd (.inr stage) outside⟩
    rintro high (breaks | ⟨-, broken⟩)
    · exact breaks
    · exact stands.whole high broken
  | raises ends next line =>
    refine ⟨fun stage => ?_, ?_, fun low => ?_⟩
    · rw [next] at stage
      cases stage
    · rintro - (breaks | ⟨early, -⟩)
      · exact breaks
      · exact early ends
    · rw [line] at low
      cases low
  | keeps outside steady =>
    obtain ⟨line, next⟩ := steady
    refine ⟨fun stage => absurd stage next, ?_, fun low _ => ?_⟩
    · rintro high (breaks | ⟨-, broken⟩)
      · exact breaks
      · exact stands.whole (line ▸ high) broken
    · exact .inr ⟨fun ends => outside (.inr ends.1), stands.broken (line ▸ low) outside⟩

theorem request (stands : Stands history before) {deed : Deed} (asked : ∀ now, deed ≠ .update now)
    (path : Path (before.perform deed) trace after) : Stands ((before, deed) :: history) after := by
  obtain ⟨line, next, leaving⟩ := path_request asked path
  refine ⟨fun stage => absurd stage next, ?_, fun low outside => ?_⟩
  · rintro high (breaks | ⟨-, broken⟩)
    · have low : before.resetLine.high = false := by
        cases deed with
        | update now => exact breaks.elim
        | requestHardReset force now => exact breaks.2.1
        | applyAddressing addressing now => exact breaks.2
      rw [line, low] at high
      cases high
    · exact stands.whole (line ▸ high) broken
  · have low : before.resetLine.high = false := line ▸ low
    by_cases pulsing : before.IsPulsing
    · exact .inl (leaving.resolve_left outside pulsing low)
    · exact .inr ⟨not_ends_of_request asked, stands.broken low pulsing⟩

end Stands

theorem Course.stands {history : List (Supervisor × Deed)} (course : Course history supervisor) :
    Stands history supervisor := by
  induction course with
  | start resetLine mac addressing timings ports => exact ⟨nofun, fun _ => id, nofun⟩
  | @perform history before after deed trace course path ih =>
    cases deed with
    | update now => exact ih.update (drives_of_passes (passes_of_path path))
    | requestHardReset | applyAddressing => exact ih.request (fun _ => nofun) path

structure Driven (σ : Type) where
  history : List (Supervisor × Deed) := []
  supervisor : Supervisor
  nic : σ

def Driven.performAll {σ : Type} (chip : Chip σ) (driven : Driven σ) : List Deed → Driven σ
  | [] => driven
  | deed :: deeds =>
    let ran := (driven.supervisor.perform deed).run chip driven.nic
    let next : Driven σ := ⟨(driven.supervisor, deed) :: driven.history, ran.value, ran.state⟩
    next.performAll chip deeds

/-- Whatever is done, on whatever controller, is a course. -/
theorem Driven.course_performAll {σ : Type} (chip : Chip σ) {driven : Driven σ} (deeds : List Deed)
    (course : Course driven.history driven.supervisor) :
    Course (driven.performAll chip deeds).history (driven.performAll chip deeds).supervisor := by
  induction deeds generalizing driven with
  | nil => exact course
  | cons deed deeds ih => exact ih (course.perform (path_run chip _ driven.nic))

/-- Outside a pulse the line is low just when a pulse was broken off and none has ended since. So
only a request that comes within a pulse leaves the controller in reset, a throttled one or one for
another addressing, and it stays there until another pulse is made to its end. -/
theorem line_low_iff_brokenOff {history : List (Supervisor × Deed)}
    (course : Course history supervisor) (outside : ¬supervisor.IsPulsing) :
    supervisor.resetLine.high = false ↔ BrokenOff history := by
  have stands := course.stands
  constructor
  · intro low
    exact stands.broken low outside
  · intro broken
    cases line : supervisor.resetLine.high with
    | false => rfl
    | true => exact absurd broken (stands.whole line)

/-- A second request while the line is low has the controller soft-reset, and brought up with its
reset line held low. -/
theorem line_low_when_idle :
    ∃ history supervisor, Course history supervisor ∧ supervisor.state = .idle ∧
      BrokenOff history ∧ supervisor.resetLine.high = false := by
  let made := start {} ⟨0x1E, 7, 1, 2, 3, 4⟩ {} {} []
  let driven : Driven Sim.Controller := { supervisor := made.value, nic := {} }
  let after := driven.performAll Sim.Controller.chip
    ([.requestHardReset true 0, .update 0, .requestHardReset false 1] ++
      [1, 2, 3, 4, 5, 6, 100, 101].map .update)
  have course : Course after.history after.supervisor :=
    driven.course_performAll _ _ (.start ..)
  have ended : after.supervisor.state = .idle ∧ after.supervisor.resetLine.high = false := by
    decide +kernel
  obtain ⟨idle, low⟩ := ended
  have outside : ¬after.supervisor.IsPulsing := by
    simp [IsPulsing, idle]
  exact ⟨_, _, course, idle, (line_low_iff_brokenOff course outside).mp low, low⟩

end BoardNet.Link.Supervisor
