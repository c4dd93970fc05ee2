import BoardNet.Proofs.Path

namespace BoardNet

namespace Effect

/-- Bytes are offered for sending. -/
def isSend : Effect → Bool
  | .call (.send _ _) => true
  | _ => false

/-- Something is sent, or asked about sending. -/
def isOutflow : Effect → Bool
  | .call (.send _ _) | .call (.txFree _) => true
  | _ => false

/-- A connection is ended, gracefully or at once. -/
def isRelease : Effect → Bool
  | .call (.disconnect _) | .call (.close _) => true
  | _ => false

def source : Effect → Option SocketId
  | .call (.recv socket _) => some socket
  | _ => none

def about : Effect → Option SocketId
  | .call (.socketStatus socket) | .call (.socketPort socket) | .call (.remoteIp socket)
  | .call (.rxAvailable socket) | .call (.txFree socket) | .call (.recv socket _)
  | .call (.send socket _) | .call (.disconnect socket) | .call (.close socket) => some socket
  | _ => none

/-- The connection on a socket is ended. -/
def Releases (effect : Effect) (socket : SocketId) : Prop :=
  effect.isRelease = true ∧ effect.about = some socket

theorem about_of_source {effect : Effect} {socket : SocketId}
    (source : effect.source = some socket) : effect.about = some socket := by
  unfold Effect.source at source
  split at source
  · exact source
  · cases source

/-- Nothing is sent and no connection ended. -/
def isIdle (effect : Effect) : Prop := effect.isSend = false ∧ effect.isRelease = false

end Effect

namespace Exchange

def taken (socket : SocketId) : Exchange → List UInt8
  | ⟨.call (.send target data), count⟩ => if target = socket then data.take count.val else []
  | _ => []

def given (socket : SocketId) : Exchange → List UInt8
  | ⟨.call (.recv source _), data⟩ => if source = socket then data.val else []
  | _ => []

def room (socket : SocketId) : Exchange → Option Nat
  | ⟨.call (.txFree asked), room⟩ => if asked = socket then some room else none
  | _ => none

theorem taken_eq_nil {exchange : Exchange} (socket : SocketId)
    (silent : exchange.effect.isSend = false) : exchange.taken socket = [] := by
  unfold taken
  split
  · cases silent
  · rfl

theorem given_eq_nil {exchange : Exchange} {socket : SocketId}
    (other : exchange.effect.source ≠ some socket) : exchange.given socket = [] := by
  unfold given
  split
  · rename_i source limit data
    have elsewhere : source ≠ socket := fun same => other (congrArg some same)
    exact if_neg elsewhere
  · rfl

theorem room_eq_none {exchange : Exchange} {socket : SocketId}
    (other : exchange.effect ≠ .call (.txFree socket)) : exchange.room socket = none := by
  unfold room
  split
  · next asked room =>
    have elsewhere : asked ≠ socket := by
      rintro rfl
      exact other rfl
    exact if_neg elsewhere
  · rfl

end Exchange

def takenOn (socket : SocketId) (trace : List Exchange) : List UInt8 :=
  trace.flatMap (·.taken socket)

/-- The bytes that the controller gave from a socket, in order. -/
def givenOn (socket : SocketId) (trace : List Exchange) : List UInt8 :=
  trace.flatMap (·.given socket)

/-- The space that the controller had for sending on a socket, each time that it was asked. -/
def roomsOn (socket : SocketId) (trace : List Exchange) : List Nat :=
  trace.filterMap (·.room socket)

@[simp] theorem roomsOn_append (socket : SocketId) (before after : List Exchange) :
    roomsOn socket (before ++ after) = roomsOn socket before ++ roomsOn socket after :=
  List.filterMap_append

theorem roomsOn_look (socket : SocketId) (room : Nat) (trace : List Exchange) :
    roomsOn socket (⟨.call (.txFree socket), room⟩ :: trace) = room :: roomsOn socket trace :=
  List.filterMap_cons_some (if_pos rfl)

theorem roomsOn_cons {socket : SocketId} {exchange : Exchange}
    (other : exchange.effect ≠ .call (.txFree socket)) (trace : List Exchange) :
    roomsOn socket (exchange :: trace) = roomsOn socket trace :=
  List.filterMap_cons_none (Exchange.room_eq_none other)

theorem roomsOn_eq_nil {socket : SocketId} {trace : List Exchange}
    (other : ∀ exchange ∈ trace, exchange.effect ≠ .call (.txFree socket)) :
    roomsOn socket trace = [] :=
  List.filterMap_eq_nil_iff.mpr fun exchange member => Exchange.room_eq_none (other exchange member)

@[simp] theorem takenOn_nil (socket : SocketId) : takenOn socket [] = [] := rfl

@[simp] theorem takenOn_cons (socket : SocketId) (exchange : Exchange) (trace : List Exchange) :
    takenOn socket (exchange :: trace) = exchange.taken socket ++ takenOn socket trace := rfl

@[simp] theorem takenOn_append (socket : SocketId) (before after : List Exchange) :
    takenOn socket (before ++ after) = takenOn socket before ++ takenOn socket after :=
  List.flatMap_append

@[simp] theorem givenOn_nil (socket : SocketId) : givenOn socket [] = [] := rfl

@[simp] theorem givenOn_append (socket : SocketId) (before after : List Exchange) :
    givenOn socket (before ++ after) = givenOn socket before ++ givenOn socket after :=
  List.flatMap_append

theorem takenOn_eq_nil {trace : List Exchange} (socket : SocketId)
    (silent : ∀ exchange ∈ trace, exchange.effect.isSend = false) : takenOn socket trace = [] :=
  List.flatMap_eq_nil_iff.mpr fun exchange member => exchange.taken_eq_nil socket (silent _ member)

theorem givenOn_eq_nil {socket : SocketId} {trace : List Exchange}
    (other : ∀ exchange ∈ trace, exchange.effect.source ≠ some socket) :
    givenOn socket trace = [] :=
  List.flatMap_eq_nil_iff.mpr fun _ member => Exchange.given_eq_nil (other _ member)

@[simp] theorem givenOn_recorded (socket : SocketId) (records : List Log.Record) :
    givenOn socket (Poll.recorded records) = [] := by
  apply givenOn_eq_nil
  intro exchange member
  obtain ⟨record, -, rfl⟩ := List.mem_map.mp member
  nofun

/-- No call is about a socket. -/
def Untouched (socket : SocketId) (trace : List Exchange) : Prop :=
  ∀ exchange ∈ trace, exchange.effect.about ≠ some socket

namespace Untouched

variable {socket : SocketId} {trace later : List Exchange}

theorem append (before : Untouched socket trace) (after : Untouched socket later) :
    Untouched socket (trace ++ later) :=
  List.forall_mem_append.mpr ⟨before, after⟩

theorem cons {exchange : Exchange} (other : exchange.effect.about ≠ some socket)
    (rest : Untouched socket trace) : Untouched socket (exchange :: trace) :=
  List.forall_mem_cons.mpr ⟨other, rest⟩

theorem not_releases (untouched : Untouched socket trace) {exchange : Exchange}
    (member : exchange ∈ trace) : ¬exchange.effect.Releases socket :=
  fun ends => untouched exchange member ends.2

theorem given (untouched : Untouched socket trace) : givenOn socket trace = [] := by
  apply givenOn_eq_nil
  intro exchange member source
  exact untouched exchange member (Effect.about_of_source source)

end Untouched

def timesAsked (effect : Effect) (trace : List Exchange) : Nat :=
  trace.countP (·.effect = effect)

@[simp] theorem timesAsked_append (effect : Effect) (before after : List Exchange) :
    timesAsked effect (before ++ after) = timesAsked effect before + timesAsked effect after :=
  List.countP_append

theorem timesAsked_eq_zero {effect : Effect} {trace : List Exchange}
    (other : ∀ exchange ∈ trace, exchange.effect ≠ effect) : timesAsked effect trace = 0 :=
  List.countP_eq_zero.mpr fun exchange member => by simpa using other exchange member

/-- No connection is ended in some exchanges. -/
def Spares (trace : List Exchange) : Prop := ∀ exchange ∈ trace, exchange.effect.isRelease = false

namespace Spares

variable {trace later : List Exchange}

theorem append (before : Spares trace) (after : Spares later) : Spares (trace ++ later) :=
  List.forall_mem_append.mpr ⟨before, after⟩

theorem not_releases (spares : Spares trace) {exchange : Exchange} (member : exchange ∈ trace)
    (socket : SocketId) : ¬exchange.effect.Releases socket := by
  rintro ⟨ends, -⟩
  rw [spares exchange member] at ends
  cases ends

theorem disconnects (spares : Spares trace) (socket : SocketId) :
    timesAsked (.call (.disconnect socket)) trace = 0 :=
  timesAsked_eq_zero fun exchange member same => by
    have spared := spares exchange member
    rw [same] at spared
    cases spared

theorem closes (spares : Spares trace) (socket : SocketId) :
    timesAsked (.call (.close socket)) trace = 0 :=
  timesAsked_eq_zero fun exchange member same => by
    have spared := spares exchange member
    rw [same] at spared
    cases spared

end Spares

/-- Exchanges in which nothing was sent and no connection ended. -/
def Idle (trace : List Exchange) : Prop := ∀ exchange ∈ trace, exchange.effect.isIdle

namespace Idle

variable {trace later : List Exchange}

theorem append (before : Idle trace) (after : Idle later) : Idle (trace ++ later) :=
  List.forall_mem_append.mpr ⟨before, after⟩

theorem spares (idle : Idle trace) : Spares trace := fun exchange member => (idle exchange member).2

theorem taken (idle : Idle trace) (socket : SocketId) : takenOn socket trace = [] :=
  takenOn_eq_nil socket fun exchange member => (idle exchange member).1

end Idle

theorem idle_cons {exchange : Exchange} {trace : List Exchange} (first : exchange.effect.isIdle)
    (rest : Idle trace) : Idle (exchange :: trace) :=
  List.forall_mem_cons.mpr ⟨first, rest⟩

theorem takenOn_between {before trace after : List Exchange} (quiet : Idle before)
    (silent : Idle after) (socket : SocketId) :
    takenOn socket (before ++ (trace ++ after)) = takenOn socket trace := by
  rw [takenOn_append, takenOn_append, quiet.taken, silent.taken, List.nil_append, List.append_nil]

theorem idle_nil : Idle [] := fun _ member => nomatch member

theorem idle_recorded (records : List Log.Record) : Idle (Poll.recorded records) := by
  intro exchange member
  obtain ⟨record, -, rfl⟩ := List.mem_map.mp member
  exact ⟨rfl, rfl⟩

/-- Exchanges in which nothing was received, either. -/
def Passive (trace : List Exchange) : Prop :=
  ∀ exchange ∈ trace, exchange.effect.isIdle ∧ exchange.effect.source = none

namespace Passive

variable {trace later : List Exchange}

theorem append (before : Passive trace) (after : Passive later) : Passive (trace ++ later) :=
  List.forall_mem_append.mpr ⟨before, after⟩

theorem idle (passive : Passive trace) : Idle trace :=
  fun exchange member => (passive exchange member).1

end Passive

theorem passive_nil : Passive [] := fun _ member => nomatch member

theorem passive_cons {exchange : Exchange} {trace : List Exchange}
    (first : exchange.effect.isIdle ∧ exchange.effect.source = none) (rest : Passive trace) :
    Passive (exchange :: trace) :=
  List.forall_mem_cons.mpr ⟨first, rest⟩

theorem passive_recorded (records : List Log.Record) : Passive (Poll.recorded records) := by
  intro exchange member
  obtain ⟨record, -, rfl⟩ := List.mem_map.mp member
  exact ⟨⟨rfl, rfl⟩, rfl⟩

end BoardNet
