namespace BoardNet

namespace Log

/-- How urgent a record is, most urgent first. -/
inductive Level where
  | error
  | warn
  | info
  | debug
  | trace
  deriving DecidableEq, Repr

namespace Level

/-- The word that stands before the text of a record. -/
def label : Level → String
  | .error => "ERROR"
  | .warn => "WARN"
  | .info => "INFO"
  | .debug => "DEBUG"
  | .trace => "TRACE"

/-- Position in the order of urgency. -/
def rank : Level → Nat
  | .error => 1
  | .warn => 2
  | .info => 3
  | .debug => 4
  | .trace => 5

end Level

structure Record where
  level : Level
  text : String
  deriving DecidableEq, Repr

namespace Record

def line (record : Record) : String := record.level.label ++ " " ++ record.text

/-- A log set to `limit` keeps records at least that urgent; a log that is off keeps none. -/
def keptAt (limit : Option Level) (record : Record) : Bool :=
  match limit with
  | none => false
  | some level => decide (record.level.rank ≤ level.rank)

end Record

end Log

/-- A result with the records made while computing it, oldest first. -/
structure Logged (α : Type) where
  value : α
  records : List Log.Record := []
  deriving DecidableEq, Repr

namespace Logged

instance : Monad Logged where
  pure value := ⟨value, []⟩
  bind first next :=
    let second := next first.value
    ⟨second.value, first.records ++ second.records⟩

instance : LawfulMonad Logged := LawfulMonad.mk' Logged
  (fun first => by cases first; simp [Functor.map])
  (fun _ _ => by simp [bind, pure])
  (fun _ _ _ => by simp [bind, List.append_assoc])

def note (level : Log.Level) (text : String) : Logged Unit := ⟨(), [⟨level, text⟩]⟩

/-- Sequencing keeps the value of the later part, computed from the value of the earlier one. -/
@[simp] theorem value_bind {α β : Type} (first : Logged α) (next : α → Logged β) :
    (first >>= next).value = (next first.value).value := rfl

/-- Sequencing keeps the records of both parts in the order they were made. -/
@[simp] theorem records_bind {α β : Type} (first : Logged α) (next : α → Logged β) :
    (first >>= next).records = first.records ++ (next first.value).records := rfl

/-- What follows a result matters at the value of that result only. -/
theorem bind_eq_bind {α β : Type} {first : Logged α} {next other : α → Logged β} :
    first >>= next = first >>= other ↔ next first.value = other first.value := by
  constructor
  · intro same
    injection same with value records
    have records := List.append_cancel_left records
    generalize next first.value = one at value records ⊢
    generalize other first.value = two at value records ⊢
    cases one
    cases two
    congr
  · intro same
    change Logged.mk _ _ = Logged.mk _ _
    rw [same]

@[simp] theorem value_pure {α : Type} (value : α) : (pure value : Logged α).value = value := rfl

@[simp] theorem records_pure {α : Type} (value : α) : (pure value : Logged α).records = [] := rfl

end Logged

end BoardNet
