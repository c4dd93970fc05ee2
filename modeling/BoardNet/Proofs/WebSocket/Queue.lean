import BoardNet.Proofs.WebSocket.Ring
import Mathlib.Algebra.GroupWithZero.Nat

/-!
The transmit ring as a queue of bounded length. Whoever sees only what the operations of a ring
answer cannot tell it from a list of at most 4095 bytes, wherever in the buffer the bytes lie: main
statement `runs_as_fifo`. The operations move many bytes at once and still do what moving them one
by one does.
-/

namespace BoardNet.WebSocket

/-- What is asked of a transmit ring. -/
inductive Ring.Operation where
  | pushAll (parts : List (List UInt8))
  | peek (room : Nat)
  | consume (count : Nat)
  | clear

inductive Ring.Answer where
  | pushed (whole : Bool)
  | shown (bytes : List UInt8)
  | done
  deriving DecidableEq

/-- What is seen of a buffer at an operation: the answer, and the counts after it. -/
structure Ring.Sight where
  answer : Ring.Answer
  queued : Nat
  free : Nat
  deriving DecidableEq

/-- Something that holds bytes in its states and does the operations of a ring. -/
structure Buffer (State : Type) where
  act : State → Ring.Operation → Ring.Answer × State
  queued : State → Nat
  free : State → Nat

namespace Buffer

variable {State Other : Type}

/-- Operations one after the other: what is seen at each, and the state in the end. -/
def run (buffer : Buffer State) (state : State) :
    List Ring.Operation → List Ring.Sight × State
  | [] => ([], state)
  | operation :: operations =>
    let (answer, next) := buffer.act state operation
    let (sights, last) := buffer.run next operations
    (⟨answer, buffer.queued next, buffer.free next⟩ :: sights, last)

/-- No operation tells a state of `buffer` from the state of `model` that `view` makes of it. -/
structure Refines (buffer : Buffer State) (model : Buffer Other) (view : State → Other) : Prop where
  act : ∀ state operation, model.act (view state) operation =
    ((buffer.act state operation).1, view (buffer.act state operation).2)
  queued : ∀ state, model.queued (view state) = buffer.queued state
  free : ∀ state, model.free (view state) = buffer.free state

/-- What no operation tells apart, no sequence of operations does. -/
theorem Refines.run {buffer : Buffer State} {model : Buffer Other} {view : State → Other}
    (refines : buffer.Refines model view) (state : State) (operations : List Ring.Operation) :
    model.run (view state) operations =
      ((buffer.run state operations).1, view (buffer.run state operations).2) := by
  induction operations generalizing state with
  | nil => rfl
  | cons operation operations ih =>
    simp only [Buffer.run, refines.act, refines.queued, refines.free, ih]

end Buffer

/-- A list of bytes with a place less than a ring has cells. -/
structure Fifo where
  bytes : List UInt8
  within : bytes.length ≤ ringSize - 1

namespace Fifo

def empty : Fifo := ⟨[], Nat.zero_le _⟩

def free (fifo : Fifo) : Nat := ringSize - 1 - fifo.bytes.length

/-- Parts are added behind the bytes all together or not at all, and bytes leave at the front. -/
def act (fifo : Fifo) : Ring.Operation → Ring.Answer × Fifo
  | .pushAll parts =>
    if fits : (parts.map List.length).sum ≤ fifo.free then
      (.pushed true, ⟨fifo.bytes ++ parts.flatten, by
        have within := fifo.within
        rw [List.length_append, List.length_flatten]
        unfold free at fits
        omega⟩)
    else (.pushed false, fifo)
  | .peek room => (.shown (fifo.bytes.take room), fifo)
  | .consume count => (.done, ⟨fifo.bytes.drop (min count fifo.bytes.length), by
      have within := fifo.within
      rw [List.length_drop]
      omega⟩)
  | .clear => (.done, empty)

def buffer : Buffer Fifo := ⟨act, fun fifo => fifo.bytes.length, free⟩

end Fifo

namespace Ring

variable (ring : Ring)

def act : Operation → Answer × Ring
  | .pushAll parts => (ring.pushAll parts).map .pushed id
  | .peek room => (.shown (ring.peek room), ring)
  | .consume count => (.done, ring.consume count)
  | .clear => (.done, ring.clear)

def buffer : Buffer Ring := ⟨act, length, free⟩

def fifo : Fifo := ⟨ring.toList, by
  have short := ring.length_lt
  rw [length_toList]
  omega⟩

theorem fifo_empty : empty.fifo = .empty := by
  have nothing : empty.toList = [] := empty.isEmpty_iff.mp (by decide)
  simp only [fifo, Fifo.empty, nothing]

theorem free_fifo : ring.fifo.free = ring.free := by
  rw [Fifo.free, fifo, length_toList, free]

/-- Each operation does to the bytes of a ring what it does to a list. -/
theorem act_fifo (operation : Operation) :
    ring.fifo.act operation = ((ring.act operation).1, (ring.act operation).2.fifo) := by
  have free := ring.free_fifo
  cases operation with
  | pushAll parts =>
    have total : (parts.map List.length).sum = parts.flatten.length := List.length_flatten.symm
    rcases Nat.lt_or_ge ring.free parts.flatten.length with full | fits
    · rw [Fifo.act, dif_neg (by omega), act, ring.pushAll_of_full full]
      rfl
    · have behind := ring.toList_foldl_put _ fits
      rw [Fifo.act, dif_pos (by omega), act, ring.pushAll_of_fits fits]
      simp [fifo, behind]
  | peek room => simp [Fifo.act, act, fifo, peek_eq]
  | consume count =>
    have dropped :
        ring.toList.drop (min count ring.toList.length) = (ring.consume count).toList := by
      rw [toList_consume, List.drop_eq_drop_iff]
      omega
    simp [Fifo.act, act, fifo, dropped]
  | clear => simp [Fifo.act, act, fifo, Fifo.empty]

theorem refines_fifo : buffer.Refines Fifo.buffer fifo where
  act := act_fifo
  queued := length_toList
  free := free_fifo

section Bytes

variable {ring} {byte : UInt8} {rest : Ring}

/-- Writes a byte behind the others, unless the end would meet the front. -/
def enqueue? (ring : Ring) (byte : UInt8) : Option Ring :=
  if (ring.put byte).tail = ring.head then none else some (ring.put byte)

/-- Takes the byte at the front. -/
def dequeue? (ring : Ring) : Option (UInt8 × Ring) :=
  if ring.head = ring.tail then none
  else some (ring.cells.get ring.head, { ring with head := ring.place 1 })

theorem length_eq_zero_iff : ring.length = 0 ↔ ring.head = ring.tail := by
  rw [length_eq, Fin.ext_iff]
  have head := ring.head.isLt
  have tail := ring.tail.isLt
  unfold ringSize at *
  omega

/-- Only a ring without space for it refuses a byte. -/
theorem enqueue?_of_free (space : 0 < ring.free) : ring.enqueue? byte = some (ring.put byte) := by
  refine if_neg fun meets => ?_
  have nothing : (ring.put byte).length = 0 := length_eq_zero_iff.mpr meets.symm
  rw [ring.length_put byte space] at nothing
  cases nothing

theorem length_of_dequeue?_none (nothing : ring.dequeue? = none) : ring.length = 0 := by
  refine length_eq_zero_iff.mpr ?_
  unfold dequeue? at nothing
  split at nothing
  · assumption
  · cases nothing

/-- Where the cells and the end are the same, the front decides. -/
theorem eq_of_head {first second : Ring} (cells : first.cells = second.cells)
    (tail : first.tail = second.tail) (head : first.head.val = second.head.val) :
    first = second := by
  cases first
  cases second
  cases cells
  cases tail
  cases Fin.ext head
  rfl

theorem consume_consume (first second : Nat) :
    (ring.consume first).consume second = ring.consume (first + second) := by
  refine eq_of_head rfl rfl ?_
  rw [val_head_consume, val_head_consume, val_head_consume, length_consume]
  unfold ringSize
  omega

theorem consume_of_nothing {count : Nat} (nothing : min count ring.length = 0) :
    ring.consume count = ring := by
  refine eq_of_head rfl rfl ?_
  rw [val_head_consume, nothing, Nat.add_zero, Nat.mod_eq_of_lt ring.head.isLt]

/-- Taking the byte at the front drops it. -/
theorem of_dequeue?_some (taken : ring.dequeue? = some (byte, rest)) :
    0 < ring.length ∧ byte = ring.get 0 ∧ rest = ring.consume 1 := by
  unfold dequeue? at taken
  split at taken
  · cases taken
  · next other =>
    cases taken
    have holds : 0 < ring.length := Nat.pos_of_ne_zero (mt length_eq_zero_iff.mp other)
    refine ⟨holds, ?_, eq_of_head rfl rfl ?_⟩
    · simp [get]
    · rw [val_head_consume, Nat.min_eq_left holds]
      rfl

theorem toList_of_dequeue? (taken : ring.dequeue? = some (byte, rest)) :
    ring.toList = byte :: rest.toList := by
  obtain ⟨holds, rfl, rfl⟩ := of_dequeue?_some taken
  have first : ring.toList.take 1 = [ring.get 0] := by
    rw [← peek_eq, peek, Nat.min_eq_left holds]
    rfl
  rw [← ring.take_append_consume 1, first]
  rfl

def pushEach (ring : Ring) (parts : List (List UInt8)) : Bool × Ring :=
  if (parts.map List.length).sum > ring.free then (false, ring)
  else (true, parts.flatten.foldl (fun ring byte => (ring.enqueue? byte).getD ring) ring)

/-- Walks over the bytes at the front. -/
def peekEach (ring : Ring) : Nat → List UInt8
  | 0 => []
  | room + 1 =>
    match ring.dequeue? with
    | none => []
    | some (byte, rest) => byte :: rest.peekEach room

/-- Drops bytes one by one, until there are none. -/
def consumeEach (ring : Ring) : Nat → Ring
  | 0 => ring
  | count + 1 =>
    match ring.dequeue? with
    | none => ring
    | some (_, rest) => rest.consumeEach count

/-- Drops bytes for as long as there are any. -/
def clearEach (ring : Ring) : Ring :=
  match _taken : ring.dequeue? with
  | none => ring
  | some (_, rest) => rest.clearEach
termination_by ring.length
decreasing_by
  obtain ⟨holds, -, rfl⟩ := of_dequeue?_some _taken
  rw [length_consume]
  omega

theorem foldl_enqueue? {data : List UInt8} (fits : data.length ≤ ring.free) :
    data.foldl (fun ring byte => (ring.enqueue? byte).getD ring) ring = data.foldl put ring := by
  induction data generalizing ring with
  | nil => rfl
  | cons byte data ih =>
    rw [List.length_cons] at fits
    have space : 0 < ring.free := by omega
    have rest : data.length ≤ (ring.put byte).free := by
      rw [ring.free_put byte space]
      omega
    simp only [List.foldl_cons, enqueue?_of_free space, Option.getD_some]
    exact ih rest

theorem pushEach_eq (parts : List (List UInt8)) : ring.pushEach parts = ring.pushAll parts := by
  have total : (parts.map List.length).sum = parts.flatten.length := List.length_flatten.symm
  rcases Nat.lt_or_ge ring.free parts.flatten.length with full | fits
  · rw [pushEach, total, if_pos full, ring.pushAll_of_full full]
  · rw [pushEach, total, if_neg (Nat.not_lt.mpr fits), foldl_enqueue? fits,
      ring.pushAll_of_fits fits]

theorem peekEach_eq (room : Nat) : ring.peekEach room = ring.peek room := by
  rw [peek_eq]
  induction room generalizing ring with
  | zero => rfl
  | succ room ih =>
    rw [peekEach]
    split
    · next nothing =>
      have empty : ring.toList = [] := by
        rw [← List.length_eq_zero_iff, length_toList, length_of_dequeue?_none nothing]
      rw [empty, List.take_nil]
    · next taken => rw [toList_of_dequeue? taken, List.take_succ_cons, ih]

theorem consumeEach_eq (count : Nat) : ring.consumeEach count = ring.consume count := by
  induction count generalizing ring with
  | zero => rw [consumeEach, consume_of_nothing (Nat.zero_min _)]
  | succ count ih =>
    rw [consumeEach]
    split
    · next nothing =>
      rw [consume_of_nothing]
      rw [length_of_dequeue?_none nothing, Nat.min_zero]
    · next taken =>
      obtain ⟨-, -, rfl⟩ := of_dequeue?_some taken
      rw [ih, consume_consume, Nat.add_comm]

theorem clearEach_eq : ring.clearEach = ring.clear := by
  fun_induction clearEach with
  | case1 ring nothing =>
    have same := length_eq_zero_iff.mp (length_of_dequeue?_none nothing)
    exact eq_of_head rfl rfl (congrArg Fin.val same)
  | case2 ring byte rest taken ih =>
    obtain ⟨-, -, rfl⟩ := of_dequeue?_some taken
    rw [ih]
    rfl

end Bytes

/-- The operations, one byte at a time. -/
def actEach : Operation → Answer × Ring
  | .pushAll parts => (ring.pushEach parts).map .pushed id
  | .peek room => (.shown (ring.peekEach room), ring)
  | .consume count => (.done, ring.consumeEach count)
  | .clear => (.done, ring.clearEach)

def bytewise : Buffer Ring := ⟨actEach, length, free⟩

theorem bytewise_eq : bytewise = buffer := by
  have same : actEach = act := by
    funext ring operation
    cases operation with
    | pushAll parts => rw [actEach, pushEach_eq, act]
    | peek room => rw [actEach, peekEach_eq, act]
    | consume count => rw [actEach, consumeEach_eq, act]
    | clear => rw [actEach, clearEach_eq, act]
  rw [bytewise, same, buffer]

/-- A ring is a queue of bounded length. Whatever is done with an empty ring, it answers and counts
as a list of bytes does and holds what the list holds in the end. It would be the same ring had it
moved its bytes one by one. -/
theorem runs_as_fifo (operations : List Operation) :
    Fifo.buffer.run .empty operations = (buffer.run empty operations).map id fifo ∧
      (buffer.run empty operations).2.length + (buffer.run empty operations).2.free =
        ringSize - 1 ∧
      bytewise.run empty operations = buffer.run empty operations := by
  refine ⟨?_, length_add_free _, ?_⟩
  · rw [← fifo_empty]
    exact refines_fifo.run empty operations
  · rw [bytewise_eq]

end Ring

end BoardNet.WebSocket
