import BoardNet.Http.Request

/-!
A request arrives in pieces that the network chooses. Reading it does not depend on them: fed piece
by piece, up to the first piece that decides it, a request is decided as if all its bytes had come
at once, and shows the same head and the same body.

The bytes collected before the end of the head are the one thing that does depend on the pieces,
because the search for that end takes in as much of the body as happens to come along. Nobody sees
them once the head is read.
-/

namespace BoardNet.Http

/-- More bytes do not move the first blank line. -/
theorem splitHead?_append {data before after : List UInt8}
    (found : splitHead? data = some (before, after)) (more : List UInt8) :
    splitHead? (data ++ more) = some (before, after ++ more) := by
  induction data using splitHead?.induct generalizing before after with
  | case1 rest =>
    simp only [splitHead?, Option.some.injEq, Prod.mk.injEq] at found
    obtain ⟨rfl, rfl⟩ := found
    rfl
  | case2 byte rest elsewhere ih =>
    rw [splitHead?, Option.map_eq_some_iff] at found
    · obtain ⟨⟨start, _⟩, found, same⟩ := found
      cases same
      have elsewhere : ∀ behind, byte = 13 → rest ++ more = 10 :: 13 :: 10 :: behind → False := by
        intro behind first next
        rcases rest with _ | ⟨a, _ | ⟨b, _ | ⟨c, rest⟩⟩⟩
        iterate 3 simp [splitHead?] at found
        simp only [List.cons_append, List.cons.injEq] at next
        obtain ⟨rfl, rfl, rfl, -⟩ := next
        exact elsewhere rest first rfl
      rw [List.cons_append, splitHead?, ih found, Option.map_some]
      exact elsewhere
    · exact elsewhere
  | case3 => cases found

namespace Request

/-- Feeds pieces one by one, up to the first that decides the request. -/
def feedAll (request : Request) : List (List UInt8) → Logged (Request × Parse)
  | [] => return (request, .needMore)
  | piece :: pieces => do
    let (fed, parse) ← request.feed piece
    if parse = .needMore then fed.feedAll pieces else return (fed, parse)

/-- What there is to see of a request: all but the bytes collected before the end of its head. -/
def seen (request : Request) : Request := { request with raw := [] }

/-- What there is to see of a request that was fed. -/
def shown (fed : Logged (Request × Parse)) : Logged (Request × Parse) := do
  let (request, parse) ← fed
  return (request.seen, parse)

/-- The body is no longer than it was stated to be, nor than what is kept of one, and begins with
the end of the head. -/
structure Bounded (request : Request) : Prop where
  body : request.body.length ≤ min request.head.contentLength maxBody
  undone : request.headDone = false → request.body = []

section Feed

variable (request : Request) (data more : List UInt8)

/-- The body takes bytes in two parts as it takes them at once, whether the first are left over from
the search for the end of the head or not. -/
theorem takeBody_append :
    request.takeBody (data ++ more) = (request.takeBody data).takeBody more := by
  rw [takeBody, takeBody.eq_1 (request.takeBody data), bodyWanted_takeBody, List.take_append,
    ← List.append_assoc]
  rfl

/-- A body filled in two parts is filled at once, unless the first part completes it. -/
theorem fill_append :
    request.fill (data ++ more) =
      if (request.fill data).2 = .needMore then (request.fill data).1.fill more
      else request.fill data := by
  by_cases wanted : (request.takeBody data).bodyWanted = 0
  · have full : request.takeBody (data ++ more) = request.takeBody data := by
      rw [takeBody_append, takeBody, wanted, List.take_zero, List.append_nil]
    simp only [fill, full, wanted, if_true, reduceCtorEq, if_false]
  · simp only [fill, takeBody_append, wanted, if_false, if_true]

theorem space_collect :
    maxHead - (request.collect data).raw.length =
      maxHead - request.raw.length - data.length := by
  simp only [collect, List.length_append, List.length_take]
  omega

/-- Bytes collected in two parts are collected at once. -/
theorem collect_append :
    request.collect (data ++ more) = (request.collect data).collect more := by
  rw [collect, collect.eq_1 (request.collect data), space_collect, List.take_append,
    ← List.append_assoc]
  rfl

/-- What a second part brings behind the collected bytes is that part, wherever the space for
collecting ends. -/
theorem take_append_drop_append (space : Nat) :
    more.take (space - data.length) ++ (data ++ more).drop space = data.drop space ++ more := by
  rw [List.drop_append]
  rcases Nat.le_total space data.length with full | free
  · rw [Nat.sub_eq_zero_of_le full, List.take_zero, List.drop_zero, List.nil_append]
  · rw [List.drop_eq_nil_of_le free, List.nil_append, List.nil_append, List.take_append_drop]

/-- Reads the head and fills the body, which is what is left to do at the end of the head. -/
def beginBody (before rest : List UInt8) : Logged (Request × Parse) := do
  let (read, fault) ← request.readHead before
  match fault with
  | some code => return (read, .reject code)
  | none => return read.fill rest

/-- Feeds more bytes, unless the request is decided. -/
def goOn (fed : Request × Parse) : Logged (Request × Parse) :=
  if fed.2 = .needMore then fed.1.feed more else return fed

end Feed

section Split

variable {request : Request} {data more before after : List UInt8}

theorem feed_of_headDone (done : request.headDone = true) :
    request.feed data = pure (request.fill data) := by
  rw [feed, if_pos done]

theorem feed_of_no_end (undone : request.headDone = false)
    (absent : splitHead? (request.collect data).raw = none) :
    request.feed data = pure (request.collect data,
      if (request.collect data).raw.length ≥ maxHead then .reject 400 else .needMore) := by
  simp only [feed, undone, Bool.false_eq_true, if_false, absent]

theorem feed_of_end (undone : request.headDone = false)
    (found : splitHead? (request.collect data).raw = some (before, after)) :
    request.feed data = (request.collect data).beginBody before
      (after ++ data.drop (maxHead - request.raw.length)) := by
  simp only [feed, undone, Bool.false_eq_true, if_false, found]
  rfl

/-- The body begins the same whatever was collected along with the head, and bytes that come later
are bytes that were there. -/
theorem shown_beginBody_append (request : Request) (raw before rest more : List UInt8) :
    shown ({ request with raw }.beginBody before (rest ++ more)) =
      shown (request.beginBody before rest >>= goOn more) := by
  have read : { request with raw }.readHead before =
      (request.readHead before >>= fun (read, fault) => return ({ read with raw }, fault)) := by
    unfold readHead
    split <;> simp only [bind_assoc, pure_bind]
  have done := headDone_readHead request before
  simp only [beginBody, shown, read, bind_assoc, pure_bind]
  apply Logged.bind_eq_bind.mpr
  generalize (request.readHead before).value = reading at done ⊢
  obtain ⟨read, _ | code⟩ := reading
  · have filled : { read with raw }.fill (rest ++ more) =
        ({ (read.fill (rest ++ more)).1 with raw }, (read.fill (rest ++ more)).2) := rfl
    have kept : (read.fill rest).1.headDone = true := done
    simp only [filled, pure_bind, goOn, fill_append, feed_of_headDone kept]
    split <;> rfl
  · rfl

/-- Bytes fed in two parts are fed at once, and the second part is not looked at if the first
decides the request. -/
theorem shown_feed_append (request : Request) (data more : List UInt8) :
    shown (request.feed (data ++ more)) = shown (request.feed data >>= goOn more) := by
  by_cases done : request.headDone = true
  · rw [feed_of_headDone done, feed_of_headDone done, pure_bind, fill_append, goOn]
    split
    · rw [feed_of_headDone]
      exact done
    · rfl
  · have undone : request.headDone = false := Bool.eq_false_iff.mpr done
    have both := collect_append request data more
    cases found : splitHead? (request.collect data).raw with
    | none =>
      rw [feed_of_no_end undone found, pure_bind, goOn]
      split
      -- no more is searched for the end of the head
      · next full =>
        have same : request.collect (data ++ more) = request.collect data := by
          rw [both, collect, Nat.sub_eq_zero_of_le full, List.take_zero, List.append_nil]
        have refused : Parse.reject 400 ≠ .needMore := by decide
        rw [if_neg refused, feed_of_no_end undone (same ▸ found), same, if_pos full]
      · next free =>
        have kept : (request.collect data).headDone = false := undone
        have behind : (data ++ more).drop (maxHead - request.raw.length) =
            more.drop (maxHead - (request.collect data).raw.length) := by
          have short : data.length ≤ maxHead - request.raw.length := by
            have space := space_collect request data
            omega
          rw [List.drop_append, List.drop_eq_nil_of_le short, List.nil_append, space_collect]
        rw [if_pos rfl, feed, feed, kept, undone, both, behind]
        rfl
    | some parts =>
      obtain ⟨before, after⟩ := parts
      have further : splitHead? (request.collect (data ++ more)).raw =
          some (before, after ++ more.take (maxHead - (request.collect data).raw.length)) := by
        rw [both]
        exact splitHead?_append found _
      rw [feed_of_end undone found, feed_of_end undone further, space_collect, List.append_assoc,
        take_append_drop_append, ← List.append_assoc]
      exact shown_beginBody_append (request.collect data) _ before _ more

end Split

section Pieces

variable {request fed : Request} {data : List UInt8}

theorem shown_bind {α : Type} (first : Logged α) (next : α → Logged (Request × Parse)) :
    shown (first >>= next) = first >>= fun value => shown (next value) :=
  bind_assoc _ _ _

/-- A request that waits for more bytes goes on waiting while none come. -/
def Waits (request : Request) : Prop := shown (request.feed []) = shown (pure (request, .needMore))

theorem waits_start (remote : Ipv4) : (start remote).Waits := rfl

theorem waits_feed (more : (request.feed data).value = (fed, .needMore)) : fed.Waits := by
  have same := shown_feed_append request data []
  rw [List.append_nil, ← bind_pure (request.feed data), shown_bind, bind_pure, shown_bind,
    Logged.bind_eq_bind, more] at same
  exact same.symm

/-- Feeding a request in pieces shows what feeding it all its bytes at once shows. -/
theorem shown_feedAll (waits : request.Waits) (pieces : List (List UInt8)) :
    shown (request.feedAll pieces) = shown (request.feed pieces.flatten) := by
  induction pieces generalizing request with
  | nil => exact waits.symm
  | cons piece pieces ih =>
    rw [feedAll, List.flatten_cons, shown_feed_append, shown_bind, shown_bind, Logged.bind_eq_bind]
    rcases first : (request.feed piece).value with ⟨fed, parse⟩
    by_cases more : parse = .needMore
    · subst more
      exact ih (waits_feed first)
    · simp only [goOn, more, if_false]

/-- A request that waits for more after some bytes did so after the first of them. -/
theorem needMore_of_append {more : List UInt8}
    (waits : (request.feed (data ++ more)).value.2 = .needMore) :
    (request.feed data).value.2 = .needMore := by
  have same : (request.feed (data ++ more)).value.2 =
      (goOn more (request.feed data).value).value.2 :=
    congrArg (fun fed => fed.value.2) (shown_feed_append request data more)
  rw [waits, goOn] at same
  split at same
  · next first => exact first
  · exact same.symm

end Pieces

section Bounds

variable {request : Request}

/-- Reading the head leaves the body to come. -/
theorem body_readHead (request : Request) (before : List UInt8) :
    (request.readHead before).value.1.body = request.body := by
  unfold readHead
  split <;> rfl

theorem Bounded.of_empty (empty : request.body = []) : request.Bounded := by
  constructor
  · rw [empty]
    exact Nat.zero_le _
  · intro _
    exact empty

theorem bounded_start (remote : Ipv4) : (start remote).Bounded := .of_empty rfl

theorem Bounded.fill (bounded : request.Bounded) (done : request.headDone = true)
    (data : List UInt8) : (request.fill data).1.Bounded := by
  constructor
  · have within := bounded.body
    simp only [Request.fill, takeBody, bodyWanted, List.length_append, List.length_take]
    omega
  · intro undone
    exact absurd (undone.symm.trans done) Bool.false_ne_true

/-- A body within its bounds stays there, whatever arrives. -/
theorem Bounded.feed (bounded : request.Bounded) (data : List UInt8) :
    (request.feed data).value.1.Bounded := by
  by_cases done : request.headDone = true
  · rw [feed_of_headDone done]
    exact bounded.fill done data
  · have undone : request.headDone = false := Bool.eq_false_iff.mpr done
    have empty := bounded.undone undone
    cases found : splitHead? (request.collect data).raw with
    | none =>
      rw [feed_of_no_end undone found]
      exact .of_empty empty
    | some parts =>
      obtain ⟨before, after⟩ := parts
      have kept : ((request.collect data).readHead before).value.1.body = request.body :=
        body_readHead _ _
      have done := headDone_readHead (request.collect data) before
      rw [feed_of_end undone found, beginBody, Logged.value_bind]
      generalize ((request.collect data).readHead before).value = reading at kept done ⊢
      have read := Bounded.of_empty (kept.trans empty)
      obtain ⟨_, _ | code⟩ := reading
      · exact read.fill done _
      · exact read

theorem Bounded.feedAll (bounded : request.Bounded) (pieces : List (List UInt8)) :
    (request.feedAll pieces).value.1.Bounded := by
  induction pieces generalizing request with
  | nil => exact bounded
  | cons piece pieces ih =>
    have first := bounded.feed piece
    rw [Request.feedAll, Logged.value_bind]
    by_cases more : (request.feed piece).value.2 = .needMore
    · simp only [more, if_true]
      exact ih first
    · simp only [more, if_false]
      exact first

end Bounds

/-- A request does not depend on how the network cuts it. Fed in any pieces up to the first that
decides it, it is decided as it would be by all its bytes at once, with the same head and body to
see and the same records; if they leave it undecided, so does each piece. All along, its body is no
longer than was stated nor than is kept of one, so that what it still wants is never negative. -/
theorem feedAll_regardless_of_cuts (remote : Ipv4) (pieces : List (List UInt8)) :
    shown ((start remote).feedAll pieces) = shown ((start remote).feed pieces.flatten) ∧
    (((start remote).feed pieces.flatten).value.2 = .needMore →
      ∀ fed, fed <+: pieces → ((start remote).feedAll fed).value.2 = .needMore) ∧
    ∀ fed, fed <+: pieces →
      let request := ((start remote).feedAll fed).value.1
      request.body.length ≤ min request.head.contentLength maxBody := by
  have parts (pieces : List (List UInt8)) := shown_feedAll (waits_start remote) pieces
  refine ⟨parts pieces, ?_, ?_⟩
  · rintro waits fed ⟨rest, rfl⟩
    have same : ((start remote).feedAll fed).value.2 = ((start remote).feed fed.flatten).value.2 :=
      congrArg (fun shown => shown.value.2) (parts fed)
    rw [List.flatten_append] at waits
    rw [same]
    exact needMore_of_append waits
  · intro fed _
    exact ((bounded_start remote).feedAll fed).body

/-- A request cut in its blank line and in its body, one byte short of its end. -/
def cutPost : List (List UInt8) :=
  [Text.bytes "POST /a HTTP/1.1\r\nContent-Length: 3\r\n\r", Text.bytes "\nx", Text.bytes "y"]

/-- It waits for that byte, so it waits after each of its pieces. -/
theorem cut_post_waits :
    ((start .unspecified).feed cutPost.flatten).value.2 = .needMore ∧
    ∀ fed, fed <+: cutPost → ((start .unspecified).feedAll fed).value.2 = .needMore := by
  have waits : ((start .unspecified).feed cutPost.flatten).value.2 = .needMore := by
    decide +kernel
  exact ⟨waits, (feedAll_regardless_of_cuts .unspecified cutPost).2.1 waits⟩

end Request

end BoardNet.Http
