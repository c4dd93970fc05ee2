import BoardNet.Address
import BoardNet.Http.Head
import BoardNet.Text.Bytes

namespace BoardNet.Http

/-- Most bytes of a head, blank line included. -/
def maxHead : Nat := 2048

/-- Most bytes of a body that are kept. -/
def maxBody : Nat := 1024

/-- What the request waits for after some bytes. -/
inductive Parse where
  | needMore
  | complete
  /-- Answer with this status and close. -/
  | reject (code : Code)
  deriving DecidableEq, Repr

/-- A request, as far as it has arrived. -/
structure Request where
  /-- The bytes collected while looking for the end of the head. -/
  raw : List UInt8 := []
  /-- The end of the head was found. -/
  headDone : Bool := false
  head : Head := {}
  body : List UInt8 := []
  remote : Ipv4 := .unspecified
  deriving DecidableEq, Repr

/-- The bytes before and after the first blank line. -/
def splitHead? : List UInt8 → Option (List UInt8 × List UInt8)
  | 13 :: 10 :: 13 :: 10 :: rest => some ([], rest)
  | byte :: rest => (splitHead? rest).map fun (before, after) => (byte :: before, after)
  | [] => none

namespace Request

/-- A request of which nothing has arrived, from `remote`. -/
def start (remote : Ipv4) : Request := { remote }

/-- Bytes of the body that are still to come and be kept. -/
def bodyWanted (request : Request) : Nat :=
  min request.head.contentLength maxBody - request.body.length

/-- Adds to the body what it still wants. -/
def takeBody (request : Request) (data : List UInt8) : Request :=
  { request with body := request.body ++ data.take request.bodyWanted }

/-- Fills the body of a request whose head is fine, which is complete with it. -/
def fill (request : Request) (data : List UInt8) : Request × Parse :=
  let filled := request.takeBody data
  (filled, if filled.bodyWanted = 0 then .complete else .needMore)

/-- Collects bytes in which the end of the head is looked for. -/
def collect (request : Request) (data : List UInt8) : Request :=
  { request with raw := request.raw ++ data.take (maxHead - request.raw.length) }

/-- Reads the head from the bytes before the blank line. -/
def readHead (request : Request) (before : List UInt8) : Logged (Request × Option Code) :=
  match Text.ofBytes? before with
  | none => return ({ request with headDone := true }, some 400)
  | some text => do
    let reading ← Head.read text
    return ({ request with headDone := true, head := reading.head }, reading.fault)

/-- Takes some more received bytes. What the search for the end of the head collected behind it
belongs to the body, as do the bytes it had no space for. -/
def feed (request : Request) (data : List UInt8) : Logged (Request × Parse) :=
  if request.headDone then return request.fill data
  else
    let collected := request.collect data
    match splitHead? collected.raw with
    | none =>
      return (collected, if collected.raw.length ≥ maxHead then .reject 400 else .needMore)
    | some (before, after) => do
      let (read, fault) ← collected.readHead before
      match fault with
      | some code => return (read, .reject code)
      | none => return read.fill (after ++ data.drop (maxHead - request.raw.length))

/-- The target without its query. -/
def path (request : Request) : String :=
  match Text.cutAt? '?' request.head.uri.toList with
  | some (path, _) => String.ofList path
  | none => request.head.uri

/-- The part of the target after the first question mark. -/
def query (request : Request) : Option String :=
  (Text.cutAt? '?' request.head.uri.toList).map fun (_, query) => String.ofList query

/-- The value of the first query parameter of this name; a parameter without `=` has the empty
value. -/
def queryParam (request : Request) (name : String) : Option String := do
  let query ← request.query
  (Text.splitAt '&' query.toList).findSome? fun parameter =>
    match Text.cutAt? '=' parameter with
    | some (key, value) => if String.ofList key = name then some (String.ofList value) else none
    | none => if String.ofList parameter = name then some "" else none

/-- The value of the first kept header of this name, up to case. -/
def header (request : Request) (name : String) : Option String :=
  (request.head.headers.find? fun header => Text.sameIgnoringCase header.name name).map
    (·.value)

/-- The body as text, or nothing if it is none. -/
def bodyText (request : Request) : String := (Text.ofBytes? request.body).getD ""

/-- Bytes that the request can still take before it is complete or refused. -/
def room (request : Request) : Nat :=
  if request.headDone then request.bodyWanted
  else (maxHead - request.raw.length) + maxBody + 1

theorem bodyWanted_le (request : Request) : request.bodyWanted ≤ maxBody :=
  Nat.le_trans (Nat.sub_le _ _) (Nat.min_le_right _ _)

/-- What the body takes it no longer wants. -/
theorem bodyWanted_takeBody (request : Request) (data : List UInt8) :
    (request.takeBody data).bodyWanted = request.bodyWanted - data.length := by
  simp only [bodyWanted, takeBody, List.length_append, List.length_take]
  omega

theorem fill_needMore {request filled : Request} {data : List UInt8}
    (more : request.fill data = (filled, .needMore)) :
    filled = request.takeBody data ∧ data.length < request.bodyWanted := by
  simp only [fill, Prod.mk.injEq] at more
  obtain ⟨rfl, wanted⟩ := more
  split at wanted
  · simp at wanted
  · next short => exact ⟨rfl, by rw [bodyWanted_takeBody] at short; omega⟩

/-- Reading the head ends the search for its end. -/
theorem headDone_readHead (request : Request) (before : List UInt8) :
    (request.readHead before).value.1.headDone = true := by
  unfold readHead
  split <;> rfl

/-- Bytes that do not finish a request leave it less room, so a request ends after finitely many of
them. -/
theorem room_feed_lt {request fed : Request} {data : List UInt8} (nonempty : data ≠ [])
    (more : (request.feed data).value = (fed, .needMore)) : fed.room < request.room := by
  have length := List.length_pos_iff.mpr nonempty
  unfold feed at more
  split at more
  · next done =>
    obtain ⟨rfl, short⟩ := fill_needMore more
    have kept : (request.takeBody data).headDone = true := done
    simp only [room, kept, done, if_true, bodyWanted_takeBody]
    omega
  · next undone =>
    dsimp only at more
    split at more
    · simp only [Logged.value_pure, Prod.mk.injEq] at more
      obtain ⟨rfl, wanted⟩ := more
      split at wanted
      · simp at wanted
      · next short =>
        simp only [collect, List.length_append, List.length_take] at short
        simp only [room, collect, undone, Bool.false_eq_true, if_false, List.length_append,
          List.length_take]
        omega
    · next before after _ =>
      simp only [Logged.value_bind] at more
      have done := headDone_readHead (request.collect data) before
      split at more
      · simp at more
      · obtain ⟨rfl, _⟩ := fill_needMore more
        have kept (read : Request) (rest : List UInt8) :
            (read.takeBody rest).headDone = read.headDone := rfl
        have bound (read : Request) := bodyWanted_le read
        simp only [room, kept, done, undone, if_true, Bool.false_eq_true, if_false]
        exact Nat.lt_of_le_of_lt (bound _) (by omega)

end Request

end BoardNet.Http
