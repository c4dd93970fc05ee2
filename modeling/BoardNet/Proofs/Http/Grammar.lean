import BoardNet.Proofs.Http.Heads
import BoardNet.Proofs.Http.Segmentation

namespace BoardNet.Http

def blankLine : List UInt8 := [13, 10, 13, 10]

/-- The first blank line of a stream is at this offset. -/
structure EndsAt (stream : List UInt8) (offset : Nat) : Prop where
  here : blankLine <+: stream.drop offset
  first : ∀ earlier < offset, ¬blankLine <+: stream.drop earlier

section Ends

variable {stream before after : List UInt8} {byte : UInt8} {offset : Nat}

theorem endsAt_iff : EndsAt stream offset ↔
    blankLine <+: stream.drop offset ∧ ∀ earlier < offset, ¬blankLine <+: stream.drop earlier :=
  ⟨fun ends => ⟨ends.here, ends.first⟩, fun ends => ⟨ends.1, ends.2⟩⟩

instance (stream : List UInt8) (offset : Nat) : Decidable (EndsAt stream offset) :=
  decidable_of_iff _ endsAt_iff.symm

theorem EndsAt.zero (begins : blankLine <+: stream) : EndsAt stream 0 := by
  constructor
  · exact begins
  · intro earlier lt
    exact absurd lt (Nat.not_lt_zero _)

theorem EndsAt.succ (elsewhere : ¬blankLine <+: byte :: stream) (ends : EndsAt stream offset) :
    EndsAt (byte :: stream) (offset + 1) := by
  constructor
  · exact ends.here
  · rintro (_ | earlier) lt
    · exact elsewhere
    · exact ends.first earlier (Nat.lt_of_succ_lt_succ lt)

theorem EndsAt.of_succ (ends : EndsAt (byte :: stream) (offset + 1)) : EndsAt stream offset := by
  constructor
  · exact ends.here
  · intro earlier lt
    exact ends.first (earlier + 1) (Nat.succ_lt_succ lt)

/-- A blank line ends within the stream. -/
theorem EndsAt.within (ends : EndsAt stream offset) : offset + 4 ≤ stream.length := by
  have size : blankLine.length ≤ (stream.drop offset).length := ends.here.length_le
  rw [List.length_drop, show blankLine.length = 4 from rfl] at size
  omega

/-- The search for a blank line stops at the first one. -/
theorem endsAt_of_splitHead? (found : splitHead? stream = some (before, after)) :
    EndsAt stream before.length := by
  induction stream using splitHead?.induct generalizing before with
  | case1 rest =>
    cases found
    exact .zero (List.prefix_append blankLine _)
  | case2 byte rest elsewhere ih =>
    rw [splitHead?, Option.map_eq_some_iff] at found
    · obtain ⟨⟨start, _⟩, found, same⟩ := found
      cases same
      refine .succ ?_ (ih found)
      rintro ⟨behind, begins⟩
      cases begins
      exact elsewhere behind rfl rfl
    · exact elsewhere
  | case3 => cases found

/-- The search finds a blank line, and parts the stream around it. -/
theorem splitHead?_of_endsAt (ends : EndsAt stream offset) :
    splitHead? stream = some (stream.take offset, stream.drop (offset + 4)) := by
  induction stream using splitHead?.induct generalizing offset with
  | case1 rest =>
    have start : offset = 0 := by
      by_contra later
      exact ends.first 0 (Nat.pos_of_ne_zero later) (List.prefix_append blankLine rest)
    subst start
    rfl
  | case2 byte rest elsewhere ih =>
    rcases offset with _ | offset
    · obtain ⟨behind, begins⟩ := ends.here
      cases begins
      exact absurd rfl (elsewhere behind rfl)
    · rw [splitHead?, ih ends.of_succ]
      · rfl
      · exact elsewhere
  | case3 =>
    have nothing := ends.here
    rw [List.drop_nil] at nothing
    cases List.prefix_nil.mp nothing

/-- In the first bytes of a stream the head ends where it ends in the stream, if the blank line is
among them. -/
theorem endsAt_take {count : Nat} :
    EndsAt (stream.take count) offset ↔ EndsAt stream offset ∧ offset + 4 ≤ count := by
  have there (offset : Nat) : blankLine <+: (stream.take count).drop offset ↔
      blankLine <+: stream.drop offset ∧ offset + 4 ≤ count := by
    have size : blankLine.length = 4 := rfl
    rw [List.drop_take, List.prefix_take_iff, size]
    exact and_congr_right fun _ => by omega
  rw [endsAt_iff, endsAt_iff, there]
  constructor
  · rintro ⟨⟨here, within⟩, first⟩
    refine ⟨⟨here, fun earlier lt begins => first earlier lt ((there earlier).mpr ⟨begins, ?_⟩)⟩,
      within⟩
    omega
  · rintro ⟨⟨here, first⟩, within⟩
    exact ⟨⟨here, within⟩, fun earlier lt begins => first earlier lt ((there earlier).mp begins).1⟩

end Ends

namespace Request

/-- What a request shows of a head with this meaning, when `rest` has come behind the blank line:
the status of its fault, or itself, as much of its body as it wants, and whether that is all. -/
def Shows (rest : List UInt8) (fed : Request × Parse) : Except Code Head → Prop
  | .error code => fed.2 = .reject code
  | .ok head => fed.1.head = head ∧ fed.1.body = rest.take (min head.contentLength maxBody) ∧
      fed.2 = if min head.contentLength maxBody ≤ rest.length then .complete else .needMore

/-- What a request shows does not lie in the bytes collected before the end of its head. -/
theorem shows_shown {rest : List UInt8} {fed : Logged (Request × Parse)}
    {result : Except Code Head} :
    Shows rest (shown fed).value result ↔ Shows rest fed.value result := by
  cases result with
  | error code => exact Iff.rfl
  | ok head => exact Iff.rfl

section Body

variable {request : Request} {before rest : List UInt8} {result : Except Code Head}

/-- A request without a body yet takes it from what stands behind its head. -/
theorem shows_beginBody (empty : request.body = []) (reads : Reads before result) :
    Shows rest (request.beginBody before rest).value result := by
  have verdict := request.verdict_readHead reads
  have body := (request.body_readHead before).trans empty
  rw [beginBody, Logged.value_bind]
  generalize (request.readHead before).value = reading at verdict body ⊢
  obtain ⟨read, _ | code⟩ := reading
  · subst verdict
    have wanted : read.bodyWanted = min read.head.contentLength maxBody := by
      rw [bodyWanted, body, List.length_nil, Nat.sub_zero]
    refine ⟨rfl, ?_, ?_⟩
    · show read.body ++ rest.take read.bodyWanted = _
      rw [body, wanted, List.nil_append]
    · simp only [Logged.value_pure, fill, bodyWanted_takeBody, wanted, Nat.sub_eq_zero_iff_le]
  · subst verdict
    rfl

end Body

section Stream

variable (remote : Ipv4) {stream : List UInt8} {offset : Nat} {result : Except Code Head}

theorem collect_start : ((start remote).collect stream).raw = stream.take maxHead := rfl

/-- Without an end of the head in the bytes that are searched for one, they are waited for. -/
theorem parse_of_unended (unended : ∀ offset, EndsAt stream offset → maxHead < offset + 4) :
    ((start remote).feed stream).value.2 =
      if maxHead ≤ stream.length then .reject 400 else .needMore := by
  have absent : splitHead? ((start remote).collect stream).raw = none := by
    cases found : splitHead? ((start remote).collect stream).raw with
    | none => rfl
    | some parts =>
      obtain ⟨ends, within⟩ := endsAt_take.mp (endsAt_of_splitHead? found)
      exact absurd within (Nat.not_le_of_lt (unended _ ends))
  have full : ((start remote).collect stream).raw.length ≥ maxHead ↔ maxHead ≤ stream.length := by
    rw [collect_start, List.length_take]
    omega
  rw [feed_of_no_end rfl absent, Logged.value_pure]
  simp only [full]

/-- A head that ends early enough is read from the bytes before its end. -/
theorem shows_of_ended (ends : EndsAt stream offset) (within : offset + 4 ≤ maxHead)
    (reads : Reads (stream.take offset) result) :
    Shows (stream.drop (offset + 4)) ((start remote).feed stream).value result := by
  have found : splitHead? ((start remote).collect stream).raw =
      some (stream.take offset, (stream.take maxHead).drop (offset + 4)) := by
    rw [collect_start, splitHead?_of_endsAt (endsAt_take.mpr ⟨ends, within⟩), List.take_take,
      Nat.min_eq_left (by omega)]
  have rest : (stream.take maxHead).drop (offset + 4) ++
      stream.drop (maxHead - (start remote).raw.length) = stream.drop (offset + 4) := by
    have searched : offset + 4 ≤ (stream.take maxHead).length :=
      (endsAt_take.mpr ⟨ends, within⟩).within
    rw [show (start remote).raw.length = 0 from rfl, Nat.sub_zero,
      ← List.drop_append_of_le_length searched, List.take_append_drop]
  rw [feed_of_end rfl found, rest]
  exact shows_beginBody rfl reads

end Stream

/-- A request follows the grammar of its bytes. As long as its head has no end within the bytes that
are searched for one, it waits, until so many have come; then it is refused. A head that ends there
means exactly one thing, whatever bytes it is made of, and the request shows that meaning: the
status of the first fault, or the head without one, with the body behind it. -/
theorem follows_grammar (remote : Ipv4) (pieces : List (List UInt8)) :
    let stream := pieces.flatten
    let fed := ((start remote).feedAll pieces).value
    ((∀ offset, EndsAt stream offset → maxHead < offset + 4) →
      fed.2 = if maxHead ≤ stream.length then .reject 400 else .needMore) ∧
    ∀ offset, EndsAt stream offset → offset + 4 ≤ maxHead →
      ∃ result, (∀ other, Reads (stream.take offset) other ↔ other = result) ∧
        Shows (stream.drop (offset + 4)) fed result := by
  have parts := shown_feedAll (waits_start remote) pieces
  constructor
  · intro unended
    have same : ((start remote).feedAll pieces).value.2 =
        ((start remote).feed pieces.flatten).value.2 :=
      congrArg (fun shown => shown.value.2) parts
    exact same.trans (parse_of_unended remote unended)
  · intro offset ends within
    refine ⟨_, fun other => (start remote).reads_iff, ?_⟩
    rw [← shows_shown, parts, shows_shown]
    exact shows_of_ended remote ends within ((start remote).reads_iff.mpr rfl)

/-- A request for an upload, cut after a line and in its blank line. One of its fields is denied,
two state a length, and one line is no field. -/
def cutUpload : List (List UInt8) :=
  [Text.bytes "POST /a HTTP/1.1\r\nAccept: *\r\nContent-Length: 9\r\ncontent-length:  2\r\n",
    Text.bytes "none\r\nX-Token:  abc \r\n\r", Text.bytes "\nhello"]

def uploadHead : Head where
  method := .post
  uri := "/a"
  headers := [⟨"Content-Length", "9"⟩, ⟨"content-length", "2"⟩, ⟨"X-Token", "abc"⟩]
  contentLength := 2

/-- The upload is complete with the two bytes stated last, and the beginning of a request waits. -/
theorem upload_follows_grammar :
    ((start .unspecified).feedAll cutUpload).value.1.head = uploadHead ∧
    ((start .unspecified).feedAll cutUpload).value.1.body = Text.bytes "he" ∧
    ((start .unspecified).feedAll cutUpload).value.2 = .complete ∧
    ((start .unspecified).feedAll [Text.bytes "GET /"]).value.2 = .needMore := by
  have ends : EndsAt cutUpload.flatten 88 := by decide +kernel
  have reads : Reads (cutUpload.flatten.take 88) (.ok uploadHead) := by
    rw [(start .unspecified).reads_iff]
    decide +kernel
  obtain ⟨result, only, shown⟩ := (follows_grammar .unspecified cutUpload).2 88 ends (by decide)
  obtain rfl := (only _).mp reads
  have rest : (cutUpload.flatten.drop (88 + 4)).take (min uploadHead.contentLength maxBody) =
      Text.bytes "he" := by decide +kernel
  have enough :
      min uploadHead.contentLength maxBody ≤ (cutUpload.flatten.drop (88 + 4)).length := by
    decide +kernel
  have unended : ∀ offset, EndsAt [Text.bytes "GET /"].flatten offset → maxHead < offset + 4 := by
    intro offset ends
    have found := splitHead?_of_endsAt ends
    have absent : splitHead? [Text.bytes "GET /"].flatten = none := by decide +kernel
    rw [absent] at found
    cases found
  have waits := (follows_grammar .unspecified [Text.bytes "GET /"]).1 unended
  have short : ¬maxHead ≤ [Text.bytes "GET /"].flatten.length := by decide +kernel
  exact ⟨shown.1, shown.2.1.trans rest, shown.2.2.trans (if_pos enough),
    waits.trans (if_neg short)⟩

end Request

end BoardNet.Http
