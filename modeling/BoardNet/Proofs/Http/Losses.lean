import Mathlib
import BoardNet.Proofs.Http.Delivery

/-!
What becomes of a response of which some is lost. An outbox without space loses the end of what it
is given, yet it takes in what comes later if there is space again by then. So what the controller
took and what waits is the beginning of the response as long as nothing was taken in behind a loss,
and has a gap otherwise.
-/

namespace BoardNet.Http

open Poll

/-- Bytes that were given to an outbox at once: the first ones it took in, the others it lost. -/
structure Piece where
  kept : List UInt8
  lost : List UInt8
  deriving DecidableEq, Repr

namespace Piece

def bytes (piece : Piece) : List UInt8 := piece.kept ++ piece.lost

/-- Nothing was taken in behind a loss. -/
def Unbroken (pieces : List Piece) : Prop :=
  pieces.Pairwise fun earlier later => earlier.lost ≠ [] → later.kept = []

/-- What is held is not all that was made, and goes on behind a gap. -/
def HasGap (made held : List UInt8) : Prop :=
  ∃ whole gap rest more, made = whole ++ gap ++ rest ∧ held = whole ++ more ∧ gap ≠ [] ∧
    more ≠ [] ∧ more.Sublist rest

variable {pieces : List Piece}

theorem kept_sublist (pieces : List Piece) :
    (pieces.flatMap kept).Sublist (pieces.flatMap bytes) := by
  induction pieces with
  | nil => exact List.Sublist.slnil
  | cons piece pieces ih => exact (List.sublist_append_left _ _).append ih

/-- Without a gap what is kept is the beginning. -/
theorem Unbroken.begins (unbroken : Unbroken pieces) :
    pieces.flatMap kept <+: pieces.flatMap bytes := by
  induction pieces with
  | nil => exact List.nil_prefix
  | cons piece pieces ih =>
    obtain ⟨behind, unbroken⟩ := List.pairwise_cons.mp unbroken
    rw [List.flatMap_cons, List.flatMap_cons, bytes]
    by_cases whole : piece.lost = []
    · rw [whole, List.append_nil, List.prefix_append_right_inj]
      exact ih unbroken
    · have nothing : pieces.flatMap kept = [] :=
        List.flatMap_eq_nil_iff.mpr fun later member => behind later member whole
      rw [nothing, List.append_nil, List.append_assoc]
      exact List.prefix_append _ _

/-- What is taken in behind a loss stands behind a gap. -/
theorem hasGap_of_not_unbroken (broken : ¬Unbroken pieces) :
    HasGap (pieces.flatMap bytes) (pieces.flatMap kept) := by
  induction pieces with
  | nil => exact absurd List.Pairwise.nil broken
  | cons piece pieces ih =>
    rw [List.flatMap_cons, List.flatMap_cons, bytes]
    by_cases whole : piece.lost = []
    · have later : ¬Unbroken pieces := fun unbroken =>
        broken (List.pairwise_cons.mpr ⟨fun _ _ lost => absurd whole lost, unbroken⟩)
      obtain ⟨start, gap, rest, more, made, held, some, further, inside⟩ := ih later
      refine ⟨piece.kept ++ start, gap, rest, more, ?_, ?_, some, further, inside⟩
      · rw [made, whole]
        simp
      · rw [held, List.append_assoc]
    · refine ⟨piece.kept, piece.lost, _, _, rfl, rfl, whole, fun nothing => broken ?_,
        kept_sublist pieces⟩
      have empty := List.flatMap_eq_nil_iff.mp nothing
      exact List.pairwise_cons.mpr ⟨fun later member _ => empty later member,
        List.pairwise_of_forall_mem_list fun _ _ later member _ => empty later member⟩

end Piece

namespace Outbox

variable {socket : SocketId} {out between last : Outbox} {pieces others : List Piece}
  {trace later : List Exchange}

/-- How an outbox can be filled with pieces, by any responders and whatever the controller does:
pieces that are pushed into it, and fixed bodies behind them. At any time it may be pumped, and
anything may be asked but to send. -/
inductive Filling (socket : SocketId) : Outbox → List Piece → List Exchange → Outbox → Prop where
  | none (out : Outbox) : Filling socket out [] [] out
  | push {responder after : Responder} {piece : Piece} {pieces : List Piece}
      {trace later : List Exchange} {last : Outbox} (own : responder.socket = socket)
      (path : Path (responder.push piece.bytes) trace after)
      (pushed : Responder.Pushed trace piece.kept piece.lost responder after)
      (rest : Filling socket after.out pieces later last) :
      Filling socket responder.out (piece :: pieces) (trace ++ later) last
  | fix {out last : Outbox} {body : List UInt8} {pieces : List Piece} {later : List Exchange}
      (free : out.tail = []) (rest : Filling socket { out with tail := body } pieces later last) :
      Filling socket out (⟨body, []⟩ :: pieces) later last
  | pump {out last : Outbox} {chunk : Nat} {pumped : Pumped out} {pieces : List Piece}
      {trace later : List Exchange} (path : Path (out.pump socket chunk) trace pumped)
      (rest : Filling socket pumped.out pieces later last) :
      Filling socket out pieces (trace ++ later) last
  | aside {out last : Outbox} {exchange : Exchange} {pieces : List Piece} {later : List Exchange}
      (silent : exchange.effect.isSend = false) (rest : Filling socket out pieces later last) :
      Filling socket out pieces (exchange :: later) last

namespace Filling

theorem append (first : Filling socket out pieces trace between)
    (second : Filling socket between others later last) :
    Filling socket out (pieces ++ others) (trace ++ later) last := by
  induction first with
  | none out => exact second
  | push own path pushed rest ih =>
    rw [List.append_assoc]
    exact .push own path pushed (ih second)
  | fix free rest ih => exact .fix free (ih second)
  | pump path rest ih =>
    rw [List.append_assoc]
    exact .pump path (ih second)
  | aside silent rest ih => exact .aside silent (ih second)

/-- What the controller took and what waits are the bytes kept, in order. -/
theorem held (filling : Filling socket out pieces trace last) :
    takenOn socket trace ++ last.toList = out.toList ++ pieces.flatMap Piece.kept := by
  induction filling with
  | none out => simp
  | push own path pushed rest ih =>
    have bytes := pushed.bytes
    rw [own] at bytes
    rw [takenOn_append, List.append_assoc, ih, ← List.append_assoc, bytes, List.append_assoc]
    rfl
  | @fix out last body pieces later free rest ih =>
    have fixed : ({ out with tail := body } : Outbox).toList = out.toList ++ body := by
      simp [toList, free]
    rw [ih, fixed, List.append_assoc]
    rfl
  | pump path rest ih =>
    rw [takenOn_append, List.append_assoc, ih, ← List.append_assoc, (path_pump path).1.bytes]
  | aside silent rest ih => rw [takenOn_cons, Exchange.taken_eq_nil _ silent, List.nil_append, ih]

/-- An outbox is marked exactly if something was lost. -/
theorem overflowed_iff (filling : Filling socket out pieces trace last) :
    last.overflowed = true ↔ out.overflowed = true ∨ ∃ piece ∈ pieces, piece.lost ≠ [] := by
  induction filling with
  | none out => simp
  | push own path pushed rest ih =>
    rw [ih, pushed.overflowed]
    simp [or_assoc]
  | fix free rest ih =>
    rw [ih]
    simp
  | pump path rest ih => rw [ih, (path_pump path).1.overflowed]
  | aside silent rest ih => exact ih

theorem of_pumps (pumps : Pumps socket out trace last) : Filling socket out [] trace last := by
  induction pumps with
  | none out => exact .none out
  | pump path rest ih => exact .pump path ih

end Filling

end Outbox

namespace Responder

variable {responder after : Responder} {trace : List Exchange} {made taken data : List UInt8}
  {code : Code} {contentType : String} {length : Option Nat} {body : List UInt8}

/-- What is done to a responder fills its outbox with pieces that are these bytes. -/
def Fills (made : List UInt8) (trace : List Exchange) (responder after : Responder) : Prop :=
  ∃ pieces : List Piece, pieces.flatMap Piece.bytes = made ∧
    Outbox.Filling responder.socket responder.out pieces trace after.out

theorem Fills.trans {between : Responder} {later : List Exchange} {more : List UInt8}
    (first : Fills made trace responder between) (second : Fills more later between after)
    (same : between.socket = responder.socket) :
    Fills (made ++ more) (trace ++ later) responder after := by
  obtain ⟨pieces, rfl, filling⟩ := first
  obtain ⟨others, rfl, further⟩ := second
  exact ⟨pieces ++ others, List.flatMap_append, filling.append (same ▸ further)⟩

theorem fills_push (path : Path (responder.push data) trace after) :
    Fills data trace responder after := by
  obtain ⟨kept, lost, rfl, pushed⟩ := path_pushed path
  let piece : Piece := ⟨kept, lost⟩
  have filling : Outbox.Filling responder.socket responder.out [piece] (trace ++ []) after.out :=
    .push rfl path pushed (.none _)
  rw [List.append_nil] at filling
  exact ⟨[piece], List.flatMap_singleton _ _, filling⟩

theorem fills_write (path : Path (responder.write data) trace after) :
    Fills data trace responder after := by
  rw [write] at path
  have filling := fills_push path
  exact filling

theorem fills_refused (path : Path responder.refuseSecondHead trace after) :
    Fills [] trace responder after := by
  rw [refuseSecondHead, path_log_bind] at path
  obtain ⟨rest, rfl, path⟩ := path
  obtain ⟨rfl, rfl⟩ := path_done.mp path
  exact ⟨[], rfl, .aside rfl (.none _)⟩

theorem fills_sendHead (path : Path (responder.sendHead code contentType length) trace after) :
    Fills (responder.headBytes code contentType length) trace responder after := by
  unfold sendHead at path
  unfold headBytes
  split at path
  · next second =>
    rw [if_pos second]
    exact fills_refused path
  · next first =>
    rw [if_neg first]
    have fills : Fills _ trace ({ responder with status := some code } : Responder) after :=
      fills_write path
    exact fills

theorem fills_send (path : Path (responder.send code contentType body) trace after)
    (holds : responder.Holds made taken) :
    Fills (responder.headBytes code contentType (some body.length) ++ body) trace responder
      after := by
  rw [send, path_bind] at path
  obtain ⟨trace, later, begun, rfl, heading, writing⟩ := path
  exact (fills_sendHead heading).trans (fills_write writing) (path_sendHead heading holds).2.1

/-- A fixed body is a piece that is kept whole, for there is no other behind the head. -/
theorem fills_sendFixed (path : Path (responder.sendFixed code contentType body) trace after)
    (holds : responder.Holds made taken) :
    Fills (if responder.status.isSome then []
      else responder.headBytes code contentType (some body.length) ++ body) trace responder
      after := by
  unfold sendFixed at path
  split at path
  · next second =>
    rw [if_pos second]
    exact fills_refused path
  · next first =>
    rw [path_bind] at path
    obtain ⟨trace, later, begun, rfl, heading, path⟩ := path
    obtain ⟨rfl, rfl⟩ := path_done.mp path
    rw [if_neg first]
    have headless : responder.status = none := Option.not_isSome_iff_eq_none.mp first
    have free : begun.out.tail = [] := by
      unfold sendHead at heading
      rw [if_neg first] at heading
      obtain ⟨_, _, -, pushed⟩ := path_pushed heading
      exact pushed.tail (holds.tail headless)
    obtain ⟨pieces, same, filling⟩ := fills_sendHead heading
    refine ⟨pieces ++ [⟨body, []⟩], ?_, filling.append (.fix free (.none _))⟩
    rw [List.flatMap_append, same, List.flatMap_singleton, Piece.bytes, List.append_nil]

theorem fills_perform {operation : Operation}
    (path : Path (operation.perform responder) trace after) (holds : responder.Holds made taken) :
    Fills (operation.bytes responder) trace responder after := by
  cases operation with
  | write data => exact fills_write path
  | head code contentType length => exact fills_sendHead path
  | send code contentType body => exact fills_send path holds
  | sendText code contentType body => exact fills_send path holds
  | sendFixed code contentType body => exact fills_sendFixed path holds

/-- Whatever a handler does fills the outbox with what it makes. -/
theorem fills_play {A : Type} {conduct : Conduct A} {result : A} {more : List UInt8}
    (path : Path (conduct.play responder) trace (after, result, more))
    (holds : responder.Holds made taken) : Fills more trace responder after := by
  induction conduct generalizing responder trace made taken more with
  | finished value =>
    obtain ⟨rfl, same⟩ := path_done.mp path
    cases same
    exact ⟨[], rfl, .none _⟩
  | operate operation next ih =>
    rw [Conduct.play, path_bind] at path
    obtain ⟨trace, later, between, rfl, performing, path⟩ := path
    rw [path_bind] at path
    obtain ⟨later, _, rest, rfl, playing, path⟩ := path
    obtain ⟨rfl, same⟩ := path_done.mp path
    cases same
    obtain ⟨held, kept⟩ := Operation.path_perform performing holds
    rw [List.append_nil]
    exact (fills_perform performing holds).trans (ih between playing held) kept
  | ask effect silent next ih =>
    rw [Conduct.play, path_ask] at path
    obtain ⟨answer, trace, rfl, playing⟩ := path
    obtain ⟨pieces, same, filling⟩ := ih answer playing holds
    exact ⟨pieces, same, .aside silent filling⟩

end Responder

/-- A response has a gap exactly where something is taken in behind a loss. Through a handler and
any number of later pumps, whatever the controller does, the response is made in pieces of which the
outbox takes in the first bytes and loses the others; it is marked if it lost any. What the
controller took and what waits are the bytes that were taken in. As long as none was taken in behind
a loss they are the beginning of the response, and otherwise they go on behind a gap. -/
theorem begins_or_hasGap {A : Type} {conduct : Conduct A} {socket : SocketId} {chunk : Nat}
    {network : Link.Status} {stats : Stats} {trace later : List Exchange} {ended : Responder}
    {result : A} {made : List UInt8} {last : Outbox}
    (playing : Path (conduct.play (.start socket chunk {} network stats)) trace
      (ended, result, made))
    (pumps : Outbox.Pumps socket ended.out later last) :
    ∃ pieces, Outbox.Filling socket {} pieces (trace ++ later) last ∧
      made = pieces.flatMap Piece.bytes ∧
      takenOn socket (trace ++ later) ++ last.toList = pieces.flatMap Piece.kept ∧
      (last.overflowed = true ↔ ∃ piece ∈ pieces, piece.lost ≠ []) ∧
      (Piece.Unbroken pieces → takenOn socket (trace ++ later) ++ last.toList <+: made) ∧
      (¬Piece.Unbroken pieces →
        Piece.HasGap made (takenOn socket (trace ++ later) ++ last.toList)) := by
  obtain ⟨pieces, rfl, filling⟩ :=
    Responder.fills_play playing (Responder.holds_start socket chunk network stats)
  have whole : Outbox.Filling socket {} pieces (trace ++ later) last := by
    have both := filling.append (Outbox.Filling.of_pumps pumps)
    rwa [List.append_nil] at both
  have held : takenOn socket (trace ++ later) ++ last.toList = pieces.flatMap Piece.kept :=
    whole.held
  refine ⟨pieces, whole, rfl, held, ?_, ?_, ?_⟩
  · rw [whole.overflowed_iff]
    simp
  · intro unbroken
    rw [held]
    exact unbroken.begins
  · intro broken
    rw [held]
    exact Piece.hasGap_of_not_unbroken broken

/-- A controller that has space for sending from the second time on that it is asked. -/
def lateChip : Chip (Sim.Controller × Bool) where
  answer
    | .txFree _, (state, asked) => (if asked then 2048 else 0, (state, true))
    | .send _ data, scene => (⟨data.length, Nat.lt_succ_self _⟩, scene)
    | call, (state, asked) =>
      let (answer, after) := Sim.Controller.chip.answer call state
      (answer, (after, asked))

/-- A handler that answers with a fixed body and then writes twice behind it. -/
def writesBehind : Conduct Unit :=
  .operate (.sendFixed 200 "" [7]) fun _ => .operate (.write [1]) fun _ => .once (.write [2]) ()

def writingBehind (socket : SocketId) : Poll (Responder × Unit × List UInt8) :=
  writesBehind.play (.start socket 2048 {} (Server.linkThatIs true) {})

def lateTrace (socket : SocketId) : List Exchange :=
  (writingBehind socket).exchanges lateChip (Server.calledUpon, false)

def lateEnd (socket : SocketId) : Responder × Unit × List UInt8 :=
  ((writingBehind socket).run lateChip (Server.calledUpon, false)).value

/-- The first write is lost, for the fixed body waits. The second one is taken in behind the gap,
for by then the controller has taken all that waited. -/
theorem late_write_hasGap :
    let ended := lateEnd ⟨0, by decide⟩
    let held := takenOn ⟨0, by decide⟩ (lateTrace ⟨0, by decide⟩ ++ []) ++ ended.1.out.toList
    ¬(held <+: ended.2.2) ∧ Piece.HasGap ended.2.2 held := by
  intro ended held
  have playing : Path (writingBehind ⟨0, by decide⟩) (lateTrace ⟨0, by decide⟩) ended :=
    path_run lateChip _ _
  have holds : takenOn ⟨0, by decide⟩ (lateTrace ⟨0, by decide⟩ ++ []) ++
        (lateEnd ⟨0, by decide⟩).1.out.toList =
      Text.bytes (Responder.headText 200 "" (some 1)) ++ [7, 2] := by cbv
  have made : (lateEnd ⟨0, by decide⟩).2.2 =
      Text.bytes (Responder.headText 200 "" (some 1)) ++ [7, 1, 2] := by cbv
  have elsewhere : ¬(held <+: ended.2.2) := by
    change ¬(takenOn _ _ ++ (lateEnd _).1.out.toList <+: (lateEnd _).2.2)
    rw [holds, made, List.prefix_append_right_inj]
    decide
  obtain ⟨pieces, -, -, -, -, begins, gap⟩ := begins_or_hasGap playing (.none _)
  exact ⟨elsewhere, gap fun unbroken => elsewhere (begins unbroken)⟩

end BoardNet.Http
