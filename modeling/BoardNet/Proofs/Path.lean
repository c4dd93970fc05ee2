import BoardNet.Nic.Chip
import BoardNet.Nic.Scan

/-!
Paths through a step. A path fixes what the surroundings answered to each effect, so the paths of a
step are all that it can do on any controller, and a run on one controller is one of them.
-/

namespace BoardNet

/-- An effect with what the surroundings answered to it. -/
structure Exchange where
  effect : Effect
  answer : effect.Answer

namespace Poll

variable {α β : Type}

/-- A step that ends with a value after some exchanges, in the order in which they were made. -/
inductive Path : Poll α → List Exchange → α → Prop where
  | done (value : α) : Path (.done value) [] value
  | ask {effect : Effect} {next : effect.Answer → Poll α} {trace : List Exchange} {value : α}
      (answer : effect.Answer) (rest : Path (next answer) trace value) :
      Path (.ask effect next) (⟨effect, answer⟩ :: trace) value

@[simp] theorem path_done {value result : α} {trace : List Exchange} :
    Path (.done value) trace result ↔ trace = [] ∧ result = value := by
  constructor
  · intro path
    cases path
    exact ⟨rfl, rfl⟩
  · rintro ⟨rfl, rfl⟩
    exact .done _

theorem path_ask {effect : Effect} {next : effect.Answer → Poll α} {trace : List Exchange}
    {result : α} :
    Path (.ask effect next) trace result ↔
      ∃ answer rest, trace = ⟨effect, answer⟩ :: rest ∧ Path (next answer) rest result := by
  constructor
  · intro path
    cases path with
    | ask answer rest => exact ⟨answer, _, rfl, rest⟩
  · rintro ⟨answer, rest, rfl, path⟩
    exact .ask answer path

/-- The paths of a sequence are those of its parts, one after the other. -/
theorem path_bind {first : Poll α} {next : α → Poll β} {trace : List Exchange} {result : β} :
    Path (first >>= next) trace result ↔
      ∃ before after value, trace = before ++ after ∧ Path first before value ∧
        Path (next value) after result := by
  induction first generalizing trace with
  | done value =>
    constructor
    · intro path
      exact ⟨[], trace, value, rfl, .done value, path⟩
    · rintro ⟨before, after, other, rfl, path, rest⟩
      obtain ⟨rfl, rfl⟩ := path_done.mp path
      exact rest
  | ask effect answered ih =>
    simp only [ask_bind, path_ask, ih]
    constructor
    · rintro ⟨answer, _, rfl, before, after, value, rfl, path, rest⟩
      exact ⟨_, after, value, rfl, ⟨answer, before, rfl, path⟩, rest⟩
    · rintro ⟨_, after, value, rfl, ⟨answer, before, rfl, path⟩, rest⟩
      exact ⟨answer, _, rfl, before, after, value, rfl, path, rest⟩

theorem path_map {change : α → β} {step : Poll α} {trace : List Exchange} {result : β} :
    Path (change <$> step) trace result ↔
      ∃ value, Path step trace value ∧ result = change value := by
  rw [map_eq_pure_bind, path_bind]
  constructor
  · rintro ⟨before, after, value, rfl, path, rest⟩
    obtain ⟨rfl, rfl⟩ := path_done.mp rest
    exact ⟨value, by simpa using path, rfl⟩
  · rintro ⟨value, path, rfl⟩
    exact ⟨trace, [], value, by simp, path, .done _⟩

theorem path_nic {call : Nic.Call} {trace : List Exchange} {answer : call.Answer} :
    Path (Poll.nic call) trace answer ↔ trace = [⟨.call call, answer⟩] := by
  rw [Poll.nic, path_ask]
  constructor
  · rintro ⟨given, rest, rfl, path⟩
    obtain ⟨rfl, rfl⟩ := path_done.mp path
    rfl
  · rintro rfl
    exact ⟨answer, [], rfl, .done _⟩

theorem path_log {level : Log.Level} {text : String} {trace : List Exchange} {answer : Unit} :
    Path (Poll.log level text) trace answer ↔ trace = [⟨.record ⟨level, text⟩, ()⟩] := by
  rw [Poll.log, path_ask]
  constructor
  · rintro ⟨given, rest, rfl, path⟩
    obtain ⟨rfl, -⟩ := path_done.mp path
    rfl
  · rintro rfl
    exact ⟨(), [], rfl, .done _⟩

/-- Records as exchanges, to which nothing is answered. -/
def recorded (records : List Log.Record) : List Exchange := records.map (⟨.record ·, ()⟩)

theorem path_recordAll {records : List Log.Record} {trace : List Exchange} {answer : Unit} :
    Path (recordAll records) trace answer ↔ trace = recorded records := by
  induction records generalizing trace with
  | nil =>
    rw [recordAll, path_done]
    exact ⟨fun path => path.1, fun same => ⟨same, rfl⟩⟩
  | cons record records ih =>
    simp only [recordAll, path_ask, ih]
    constructor
    · rintro ⟨_, _, rfl, rfl⟩
      rfl
    · rintro rfl
      exact ⟨(), _, rfl, rfl⟩

/-- A result with records has one path, on which these are made. -/
theorem path_lift {given : Logged α} {trace : List Exchange} {result : α} :
    Path (liftM given : Poll α) trace result ↔
      trace = recorded given.records ∧ result = given.value := by
  change Path (recordAll given.records >>= fun _ => pure given.value) trace result ↔ _
  rw [path_bind]
  constructor
  · rintro ⟨before, after, _, rfl, path, rest⟩
    obtain ⟨rfl, rfl⟩ := path_done.mp rest
    exact ⟨by simpa using path_recordAll.mp path, rfl⟩
  · rintro ⟨rfl, rfl⟩
    exact ⟨_, [], (), by simp, path_recordAll.mpr rfl, .done _⟩

/-- After a call the path goes on from what was answered. -/
theorem path_nic_bind {call : Nic.Call} {next : call.Answer → Poll α} {trace : List Exchange}
    {result : α} :
    Path (Poll.nic call >>= next) trace result ↔
      ∃ answer rest, trace = ⟨.call call, answer⟩ :: rest ∧ Path (next answer) rest result :=
  path_ask

theorem path_log_bind {level : Log.Level} {text : String} {next : Unit → Poll α}
    {trace : List Exchange} {result : α} :
    Path (Poll.log level text >>= next) trace result ↔
      ∃ rest, trace = ⟨.record ⟨level, text⟩, ()⟩ :: rest ∧ Path (next ()) rest result := by
  change Path (.ask (.record ⟨level, text⟩) next) trace result ↔ _
  rw [path_ask]
  constructor
  · rintro ⟨_, rest, rfl, path⟩
    exact ⟨rest, rfl, path⟩
  · rintro ⟨rest, rfl, path⟩
    exact ⟨(), rest, rfl, path⟩

theorem path_lift_bind {given : Logged α} {next : α → Poll β} {trace : List Exchange}
    {result : β} :
    Path (liftM given >>= next) trace result ↔
      ∃ rest, trace = recorded given.records ++ rest ∧ Path (next given.value) rest result := by
  rw [path_bind]
  constructor
  · rintro ⟨before, rest, _, rfl, lifting, path⟩
    obtain ⟨rfl, rfl⟩ := path_lift.mp lifting
    exact ⟨rest, rfl, path⟩
  · rintro ⟨rest, rfl, path⟩
    exact ⟨_, rest, _, rfl, path_lift.mpr ⟨rfl, rfl⟩, path⟩

/-- A step ends in one way on what it was answered. -/
theorem Path.unique {step : Poll α} {trace : List Exchange} {result value : α}
    (path : Path step trace result) (other : Path step trace value) : result = value := by
  induction path with
  | done result => exact (path_done.mp other).2.symm
  | ask answer rest ih =>
    obtain ⟨_, _, same, other⟩ := path_ask.mp other
    cases same
    exact ih other

/-- On every path of the second step the first one ends as well, and the two ends are alike. -/
def Shadows (alike : α → β → Prop) (first : Poll α) (second : Poll β) : Prop :=
  ∀ trace result, Path second trace result → ∃ value, Path first trace value ∧ alike value result

namespace Shadows

variable {γ δ : Type} {alike : α → β → Prop} {similar : γ → δ → Prop}

theorem refl (step : Poll α) : Shadows Eq step step :=
  fun _ result path => ⟨result, path, rfl⟩

theorem done {value : α} {result : β} (same : alike value result) :
    Shadows alike (pure value) (pure result) := by
  rintro trace _ path
  obtain ⟨rfl, rfl⟩ := path_done.mp path
  exact ⟨value, .done value, same⟩

/-- A step shadows what it is but for a part of its end. -/
theorem of_map {step : Poll α} {plain : Poll β} {change : α → β} (same : change <$> step = plain) :
    Shadows (fun value result => change value = result) step plain := by
  subst same
  rintro trace _ path
  obtain ⟨value, shadow, rfl⟩ := path_map.mp path
  exact ⟨value, shadow, rfl⟩

/-- Results with the same records, and the same but for parts of them. -/
theorem lift {given : Logged α} {other : Logged β} {change : α → γ} {rename : β → γ}
    (same : change <$> given = rename <$> other)
    (ends : change given.value = rename other.value → alike given.value other.value) :
    Shadows alike (liftM given : Poll α) (liftM other : Poll β) := by
  have records : given.records = other.records := by
    rw [map_eq_pure_bind, map_eq_pure_bind] at same
    simpa only [Logged.records_bind, Logged.records_pure, List.append_nil] using
      congrArg Logged.records same
  rintro trace _ path
  obtain ⟨rfl, rfl⟩ := path_lift.mp path
  exact ⟨given.value, path_lift.mpr ⟨congrArg recorded records.symm, rfl⟩,
    ends (congrArg Logged.value same)⟩

theorem bind {first : Poll α} {second : Poll β} {next : α → Poll γ} {further : β → Poll δ}
    (shadows : Shadows alike first second)
    (rest : ∀ value result, alike value result → Shadows similar (next value) (further result)) :
    Shadows similar (first >>= next) (second >>= further) := by
  intro trace result path
  obtain ⟨before, after, between, rfl, path, going⟩ := path_bind.mp path
  obtain ⟨value, shadow, same⟩ := shadows before between path
  obtain ⟨last, ending, alike⟩ := rest value between same after result going
  exact ⟨last, path_bind.mpr ⟨before, after, value, rfl, shadow, ending⟩, alike⟩

/-- What comes first is the same for both. -/
theorem bind_refl {step : Poll α} {next : α → Poll γ} {further : α → Poll δ}
    (rest : ∀ value, Shadows similar (next value) (further value)) :
    Shadows similar (step >>= next) (step >>= further) :=
  (refl step).bind fun value _ same => same ▸ rest value

end Shadows

/-- What a controller was asked, and answered, while a step was run on it. -/
def exchanges {σ : Type} (chip : Chip σ) : Poll α → σ → List Exchange
  | .done _, _ => []
  | .ask (.call call) next, state =>
    let (answer, after) := chip.answer call state
    ⟨.call call, answer⟩ :: (next answer).exchanges chip after
  | .ask (.record record) next, state => ⟨.record record, ()⟩ :: (next ()).exchanges chip state
  | .ask (.notify notice) next, state => ⟨.notify notice, ()⟩ :: (next ()).exchanges chip state

/-- A run takes a path. -/
theorem path_run {σ : Type} (chip : Chip σ) (step : Poll α) (state : σ) :
    Path step (step.exchanges chip state) (step.run chip state).value := by
  induction step generalizing state with
  | done value => exact .done value
  | ask effect answered ih =>
    cases effect with
    | call call => exact .ask _ (ih _ _)
    | record record => exact @Path.ask _ (.record record) _ _ _ () (ih () state)
    | notify notice => exact @Path.ask _ (.notify notice) _ _ _ () (ih () state)

/-- Whatever is answered, a step has only effects that pass a test. -/
def Asks (allowed : Effect → Prop) : Poll α → Prop
  | .done _ => True
  | .ask effect next => allowed effect ∧ ∀ answer, (next answer).Asks allowed

variable {allowed : Effect → Prop}

@[simp] theorem asks_done (value : α) : (Poll.done value).Asks allowed := trivial

@[simp] theorem asks_pure (value : α) : (pure value : Poll α).Asks allowed := trivial

@[simp] theorem asks_nic {call : Nic.Call} :
    (Poll.nic call).Asks allowed ↔ allowed (.call call) :=
  ⟨fun asks => asks.1, fun fine => ⟨fine, fun _ => trivial⟩⟩

@[simp] theorem asks_log {level : Log.Level} {text : String} :
    (Poll.log level text).Asks allowed ↔ allowed (.record ⟨level, text⟩) :=
  ⟨fun asks => asks.1, fun fine => ⟨fine, fun _ => trivial⟩⟩

theorem Asks.bind {first : Poll α} {next : α → Poll β} (asks : first.Asks allowed)
    (rest : ∀ value, (next value).Asks allowed) : (first >>= next).Asks allowed := by
  induction first with
  | done value => exact rest value
  | ask effect answered ih => exact ⟨asks.1, fun answer => ih answer (asks.2 answer)⟩

/-- The second step need only be good for how the first can end. -/
theorem Asks.bind_path {first : Poll α} {next : α → Poll β} (asks : first.Asks allowed)
    (rest : ∀ trace value, Path first trace value → (next value).Asks allowed) :
    (first >>= next).Asks allowed := by
  induction first with
  | done value => exact rest [] value (.done value)
  | ask effect answered ih =>
    exact ⟨asks.1, fun answer => ih answer (asks.2 answer) fun trace value path =>
      rest _ value (.ask answer path)⟩

theorem asks_recordAll (records : List Log.Record)
    (fine : ∀ record, allowed (.record record)) : (recordAll records).Asks allowed := by
  induction records with
  | nil => trivial
  | cons record records ih => exact ⟨fine record, fun _ => ih⟩

theorem asks_lift {given : Logged α} (fine : ∀ record, allowed (.record record)) :
    (liftM given : Poll α).Asks allowed :=
  (asks_recordAll given.records fine).bind fun _ => trivial

/-- Every effect on a path is one that the step can have. -/
theorem Path.effect_allowed {step : Poll α} {trace : List Exchange} {result : α}
    (path : Path step trace result) (asks : step.Asks allowed) :
    ∀ exchange ∈ trace, allowed exchange.effect := by
  induction path with
  | done value => simp
  | ask answer rest ih =>
    intro exchange member
    rcases List.mem_cons.mp member with rfl | later
    · exact asks.1
    · exact ih (asks.2 answer) exchange later

end Poll

end BoardNet
