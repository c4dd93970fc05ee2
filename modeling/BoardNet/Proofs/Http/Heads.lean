import BoardNet.Http.Request
import BoardNet.Proofs.Text.Cutting

namespace BoardNet.Http

def lowered (name : String) : List Char := name.toList.map Char.toLower

/-- A name that is not kept: one that starts with `accept`, or one of a few others. -/
def Denied (name : String) : Prop :=
  "accept".toList <+: lowered name ∨ ∃ word ∈ ignoredHeaders, lowered name = word.toList

instance (name : String) : Decidable (Denied name) := inferInstanceAs (Decidable (_ ∨ _))

theorem isIgnored_iff {name : String} : isIgnored name = true ↔ Denied name := by
  have lower : ∀ word ∈ ignoredHeaders, word.toList.map Char.toLower = word.toList := by
    decide +kernel
  have start : "accept".toList.map Char.toLower = "accept".toList := by decide +kernel
  simp only [isIgnored, Bool.or_eq_true, Text.startsIgnoringCase, List.isPrefixOf_iff_prefix,
    start, List.any_eq_true, Text.sameIgnoringCase, decide_eq_true_eq, Denied, lowered]
  refine or_congr_right (exists_congr fun word => and_congr_right fun member => ?_)
  rw [lower word member]

namespace Header

def IsLength (header : Header) : Prop := lowered header.name = "content-length".toList

instance (header : Header) : Decidable header.IsLength := inferInstanceAs (Decidable (_ = _))

/-- The field has a place in the table of headers, if there is still one. -/
def IsKept (header : Header) : Prop :=
  ¬Denied header.name ∧ header.name.utf8ByteSize ≤ maxHeaderName ∧
    header.value.utf8ByteSize ≤ maxHeaderValue

instance (header : Header) : Decidable header.IsKept := inferInstanceAs (Decidable (_ ∧ _))

/-- A line has this field: its first colon stands between the name and the value, each with the
blanks around it. -/
inductive OnLine (header : Header) : List Char → Prop where
  | intro {name value : List Char} (first : ':' ∉ name)
      (trimsName : Text.Trims name header.name.toList)
      (trimsValue : Text.Trims value header.value.toList) : OnLine header (name ++ ':' :: value)

end Header

/-- The fields of some lines in order; a line without a colon has none. -/
inductive Fields : List (List Char) → List Header → Prop where
  | nil : Fields [] []
  | skip {line : List Char} {lines : List (List Char)} {fields : List Header}
      (absent : ':' ∉ line) (rest : Fields lines fields) : Fields (line :: lines) fields
  | cons {line : List Char} {lines : List (List Char)} {header : Header} {fields : List Header}
      (first : header.OnLine line) (rest : Fields lines fields) :
      Fields (line :: lines) (header :: fields)

/-- The length that fields state: all those about the length are numbers, and the last of them
counts, or `otherwise` where there is none. -/
structure StateLength (fields : List Header) (otherwise length : Nat) : Prop where
  numbers : ∀ field ∈ fields, field.IsLength → ∃ value, Text.IsWord field.value value
  last : match (fields.filter (·.IsLength)).getLast? with
    | none => length = otherwise
    | some field => Text.IsWord field.value length

/-- A head is text, its first line begins with the words `verb` and `target`, which are empty where
there is none, and its other lines have these fields. -/
inductive Spells : List UInt8 → (verb target : String) → List Header → Prop where
  | intro {text : String} {line : List Char} {lines words : List (List Char)}
      {fields : List Header} (cutLines : Text.Divides Text.lineEnd text.toList (line :: lines))
      (cutWords : Text.Divides [' '] line words) (fieldsOf : Fields lines fields) :
      Spells (Text.bytes text) (String.ofList (words.getD 0 [])) (String.ofList (words.getD 1 []))
        fields

/-- A request target that is served: it begins with a slash and is not too long. -/
def IsTarget (target : String) : Prop :=
  target.toList.head? = some '/' ∧ target.utf8ByteSize ≤ maxUri

/-- What the bytes before the blank line amount to: the status of the first fault, or what is kept
of a head that has none. -/
inductive Reads (before : List UInt8) : Except Code Head → Prop where
  | garbled (invalid : ∀ text, Text.bytes text ≠ before) : Reads before (.error 400)
  | wordless {verb target : String} {fields : List Header}
      (spells : Spells before verb target fields) (missing : verb = "" ∨ target = "") :
      Reads before (.error 400)
  | otherVerb {verb target : String} {fields : List Header}
      (spells : Spells before verb target fields) (hasVerb : verb ≠ "") (hasTarget : target ≠ "")
      (other : ∀ method : Method, verb ≠ method.verb) : Reads before (.error 405)
  | otherTarget {method : Method} {target : String} {fields : List Header}
      (spells : Spells before method.verb target fields) (other : ¬IsTarget target) :
      Reads before (.error 400)
  | otherLength {method : Method} {target : String} {fields : List Header}
      (spells : Spells before method.verb target fields) (served : IsTarget target)
      (other : ∃ field ∈ fields, field.IsLength ∧ ∀ value, ¬Text.IsWord field.value value) :
      Reads before (.error 400)
  | fine {method : Method} {target : String} {fields : List Header} {length : Nat}
      (spells : Spells before method.verb target fields) (served : IsTarget target)
      (states : StateLength fields 0 length) :
      Reads before (.ok
        { method, uri := target, headers := (fields.filter (·.IsKept)).take maxHeaders,
          contentLength := length })

section Totality

variable {before : List UInt8} {fields : List Header}

theorem exists_fields (lines : List (List Char)) : ∃ fields, Fields lines fields := by
  induction lines with
  | nil => exact ⟨[], .nil⟩
  | cons line lines ih =>
    obtain ⟨fields, rest⟩ := ih
    by_cases colon : ':' ∈ line
    · obtain ⟨name, value, rfl, first⟩ := List.eq_append_cons_of_mem colon
      refine ⟨⟨String.ofList (Text.trimBlanks name), String.ofList (Text.trimBlanks value)⟩ ::
        fields, .cons (.intro first ?_ ?_) rest⟩
      · exact Text.trims_iff.mpr String.toList_ofList
      · exact Text.trims_iff.mpr String.toList_ofList
    · exact ⟨fields, .skip colon rest⟩

/-- Fields of which each about the length is a number state a length. -/
theorem exists_stateLength (otherwise : Nat)
    (numbers : ∀ field ∈ fields, field.IsLength → ∃ value, Text.IsWord field.value value) :
    ∃ length, StateLength fields otherwise length := by
  cases final : (fields.filter (·.IsLength)).getLast? with
  | none => exact ⟨otherwise, numbers, by rw [final]⟩
  | some field =>
    obtain ⟨member, about⟩ := List.mem_filter.mp (List.mem_of_getLast? final)
    obtain ⟨value, word⟩ := numbers field member (of_decide_eq_true about)
    exact ⟨value, numbers, by rwa [final]⟩

theorem exists_spells (text : String) :
    ∃ verb target fields, Spells (Text.bytes text) verb target fields := by
  have cutLines := Text.divides_splitLines.mpr (Eq.refl (Text.splitLines text.toList))
  obtain ⟨line, lines, split⟩ := List.exists_cons_of_ne_nil cutLines.nonempty
  obtain ⟨fields, fieldsOf⟩ := exists_fields lines
  exact ⟨_, _, fields, .intro (split ▸ cutLines) (Text.divides_splitAt.mpr rfl) fieldsOf⟩

/-- The grammar has an answer for all bytes. -/
theorem exists_reads (before : List UInt8) : ∃ result, Reads before result := by
  by_cases valid : ∃ text, Text.bytes text = before
  · obtain ⟨text, rfl⟩ := valid
    obtain ⟨verb, target, fields, spells⟩ := exists_spells text
    by_cases missing : verb = "" ∨ target = ""
    · exact ⟨_, .wordless spells missing⟩
    obtain ⟨hasVerb, hasTarget⟩ := not_or.mp missing
    by_cases known : ∃ method : Method, verb = method.verb
    · obtain ⟨method, rfl⟩ := known
      by_cases served : IsTarget target
      · by_cases numbers : ∀ field ∈ fields, field.IsLength → ∃ value, Text.IsWord field.value value
        · obtain ⟨length, states⟩ := exists_stateLength 0 numbers
          exact ⟨_, .fine spells served states⟩
        · push Not at numbers
          exact ⟨_, .otherLength spells served numbers⟩
      · exact ⟨_, .otherTarget spells served⟩
    · exact ⟨_, .otherVerb spells hasVerb hasTarget (not_exists.mp known)⟩
  · exact ⟨_, .garbled (not_exists.mp valid)⟩

end Totality

section Line

variable {line : List Char} {verb target : String} {method : Method}

theorem Method.verb_ne_empty (method : Method) : method.verb ≠ "" := by
  cases method <;> decide

theorem Method.ofVerb?_verb (method : Method) : Method.ofVerb? method.verb = some method := by
  cases method <;> rfl

theorem Method.ofVerb?_eq_none (other : ∀ method : Method, verb ≠ method.verb) :
    Method.ofVerb? verb = none := by
  rw [Method.ofVerb?, if_neg (other .get), if_neg (other .post)]

namespace Head

variable (isVerb : String.ofList ((Text.splitAt ' ' line).getD 0 []) = verb)
  (isTarget : String.ofList ((Text.splitAt ' ' line).getD 1 []) = target)
include isVerb isTarget

theorem readRequestLine_of_missing (missing : verb = "" ∨ target = "") :
    readRequestLine line = ⟨{}, some 400⟩ := by
  simp only [readRequestLine, isVerb, isTarget, missing, if_true]

theorem readRequestLine_of_otherVerb (hasVerb : verb ≠ "") (hasTarget : target ≠ "")
    (other : ∀ method : Method, verb ≠ method.verb) : readRequestLine line = ⟨{}, some 405⟩ := by
  simp only [readRequestLine, isVerb, isTarget, hasVerb, hasTarget, or_self, if_false,
    Method.ofVerb?_eq_none other]

theorem readRequestLine_of_otherTarget (known : verb = method.verb) (other : ¬IsTarget target) :
    (readRequestLine line).fault = some 400 := by
  subst known
  by_cases missing : method.verb = "" ∨ target = ""
  · rw [readRequestLine_of_missing isVerb isTarget missing]
  · simp only [readRequestLine, isVerb, isTarget, missing, if_false, method.ofVerb?_verb]
    split
    · next slash =>
      have long : ¬target.utf8ByteSize ≤ maxUri := fun within => other ⟨slash, within⟩
      rw [Text.bounded?, if_neg long]
    · rfl

theorem readRequestLine_of_served (known : verb = method.verb) (served : IsTarget target) :
    readRequestLine line = ⟨{ method, uri := target }, none⟩ := by
  subst known
  obtain ⟨slash, within⟩ := served
  have hasTarget : target ≠ "" := by
    rintro rfl
    cases slash
  simp only [readRequestLine, isVerb, isTarget, method.verb_ne_empty, hasTarget, or_self, if_false,
    method.ofVerb?_verb, slash, if_true, Text.bounded?, within]

end Head

end Line

section FieldLines

variable {header field : Header} {fields : List Header} {otherwise length : Nat}
  {line : List Char} {lines : List (List Char)}

theorem StateLength.of_cons_other (other : ¬field.IsLength)
    (states : StateLength (field :: fields) otherwise length) :
    StateLength fields otherwise length := by
  obtain ⟨numbers, last⟩ := states
  rw [List.filter_cons_of_neg (by simpa using other)] at last
  exact ⟨(List.forall_mem_cons.mp numbers).2, last⟩

/-- The first field about the length counts for those after it only if none of them is about it. -/
theorem StateLength.of_cons_length (about : field.IsLength)
    (states : StateLength (field :: fields) otherwise length) :
    ∃ value, Text.IsWord field.value value ∧ StateLength fields value length := by
  obtain ⟨numbers, last⟩ := states
  obtain ⟨first, numbers⟩ := List.forall_mem_cons.mp numbers
  obtain ⟨value, word⟩ := first about
  refine ⟨value, word, numbers, ?_⟩
  rw [List.filter_cons_of_pos (by simpa using about), List.getLast?_cons] at last
  cases final : (fields.filter (·.IsLength)).getLast? with
  | none =>
    rw [final] at last
    exact last.denotes.symm.trans word.denotes
  | some field =>
    rw [final] at last
    exact last

namespace Head

variable (head : Head)

/-- The head with those of some more fields that are kept, as far as the table has space. -/
def addKept (fields : List Header) : Head :=
  { head with headers :=
      head.headers ++ (fields.filter (·.IsKept)).take (maxHeaders - head.headers.length) }

theorem addKept_nil : head.addKept [] = head := by
  simp [addKept]

theorem addKept_of_not_kept (other : ¬header.IsKept) : head.addKept [header] = head := by
  simp [addKept, other]

/-- Keeping a header is adding it to the table, with the conditions for it said at once. -/
theorem value_keep (header : Header) : (head.keep header).value = head.addKept [header] := by
  unfold keep
  split
  · next ignored =>
    exact (head.addKept_of_not_kept fun kept => kept.1 (isIgnored_iff.mp ignored)).symm
  · next named =>
    split
    · next short =>
      have kept : header.IsKept := ⟨mt isIgnored_iff.mpr named, short⟩
      split
      · next space =>
        have one : maxHeaders - head.headers.length ≠ 0 := by omega
        simp [addKept, kept, List.take_of_length_le, Nat.one_le_iff_ne_zero.mpr one]
      · next full =>
        have none : maxHeaders - head.headers.length = 0 := by omega
        rw [addKept, none, List.take_zero, List.append_nil]
        rfl
    · next long => exact (head.addKept_of_not_kept fun kept => long kept.2).symm

theorem addKept_cons (header : Header) (fields : List Header) :
    (head.addKept [header]).addKept fields = head.addKept (header :: fields) := by
  by_cases kept : header.IsKept
  · have one : [header].filter (·.IsKept) = [header] := by simp [kept]
    rw [addKept, addKept, addKept, one, List.filter_cons_of_pos (by simpa using kept)]
    rcases space : maxHeaders - head.headers.length with _ | space'
    · simp [space]
    · have less : maxHeaders - (head.headers.length + 1) = space' := by omega
      simp [less]
  · rw [head.addKept_of_not_kept kept, addKept, addKept,
      List.filter_cons_of_neg (by simpa using kept)]

theorem sameIgnoringCase_length_iff :
    Text.sameIgnoringCase header.name "content-length" = true ↔ header.IsLength := by
  have lower : "content-length".toList.map Char.toLower = "content-length".toList := by
    decide +kernel
  rw [Text.sameIgnoringCase, decide_eq_true_eq, lower]
  rfl

theorem statedLength?_of_length (about : header.IsLength) :
    statedLength? header length = Text.readWord? header.value := by
  rw [statedLength?, if_pos (sameIgnoringCase_length_iff.mpr about)]

theorem statedLength?_of_other (other : ¬header.IsLength) :
    statedLength? header length = some length := by
  rw [statedLength?, if_neg (mt sameIgnoringCase_length_iff.mp other)]

theorem readHeaders_skip (absent : ':' ∉ line) :
    readHeaders head length (line :: lines) = readHeaders head length lines := by
  rw [readHeaders, Text.cutAt?_eq_none_iff.mpr absent]

theorem value_readHeaders_cons (first : header.OnLine line) :
    (readHeaders head otherwise (line :: lines)).value =
      match statedLength? header otherwise with
      | none => ⟨head, some 400⟩
      | some length => (readHeaders (head.addKept [header]) length lines).value := by
  obtain @⟨name, value, absent, trimsName, trimsValue⟩ := first
  have same : Header.mk (String.ofList (Text.trimBlanks name))
      (String.ofList (Text.trimBlanks value)) = header := by
    rw [← trimsName.eq_trimBlanks, ← trimsValue.eq_trimBlanks, String.ofList_toList,
      String.ofList_toList]
  rw [readHeaders, Text.cutAt?_eq_some_iff.mpr ⟨rfl, absent⟩]
  simp only [same]
  cases statedLength? header otherwise with
  | none => rfl
  | some length => rw [Logged.value_bind, value_keep]

/-- Header lines whose fields state a length are read to the end. -/
theorem value_readHeaders (fieldsOf : Fields lines fields)
    (states : StateLength fields otherwise length) :
    (readHeaders head otherwise lines).value =
      ⟨{ head.addKept fields with contentLength := length }, none⟩ := by
  induction fieldsOf generalizing head otherwise with
  | nil =>
    rw [addKept_nil, ← show length = otherwise from states.last]
    rfl
  | skip absent _ ih => rw [readHeaders_skip head absent, ih head states]
  | @cons line lines header fields first _ ih =>
    rw [value_readHeaders_cons head first]
    by_cases about : header.IsLength
    · obtain ⟨value, word, states⟩ := states.of_cons_length about
      rw [statedLength?_of_length about, Text.isWord_iff.mp word]
      simp only [ih _ states, addKept_cons]
    · rw [statedLength?_of_other about]
      simp only [ih _ (states.of_cons_other about), addKept_cons]

/-- A field about the length that is no number is a fault, wherever it stands. -/
theorem fault_readHeaders (fieldsOf : Fields lines fields)
    (other : ∃ field ∈ fields, field.IsLength ∧ ∀ value, ¬Text.IsWord field.value value) :
    (readHeaders head otherwise lines).value.fault = some 400 := by
  induction fieldsOf generalizing head otherwise with
  | nil => simp at other
  | skip absent _ ih => rw [readHeaders_skip head absent, ih head other]
  | @cons line lines header fields first _ ih =>
    rw [value_readHeaders_cons head first]
    cases stated : statedLength? header otherwise with
    | none => rfl
    | some length =>
      apply ih
      obtain ⟨field, member, about, no⟩ := other
      rcases List.mem_cons.mp member with rfl | member
      · rw [statedLength?_of_length about] at stated
        exact absurd (Text.isWord_iff.mpr stated) (no length)
      · exact ⟨field, member, about, no⟩

end Head

end FieldLines

section Verdict

variable {before : List UInt8} {result : Except Code Head}

/-- What reading a head comes to: the status to answer, or the head. -/
def Request.verdict (read : Request × Option Code) : Except Code Head :=
  match read.2 with
  | some code => .error code
  | none => .ok read.1.head

/-- What a head spells stands in the lines and words that its text is split into. -/
theorem Spells.exists_lines {verb target : String} {fields : List Header}
    (spells : Spells before verb target fields) :
    ∃ text line lines, Text.bytes text = before ∧ Text.splitLines text.toList = line :: lines ∧
      String.ofList ((Text.splitAt ' ' line).getD 0 []) = verb ∧
      String.ofList ((Text.splitAt ' ' line).getD 1 []) = target ∧ Fields lines fields := by
  obtain @⟨text, line, lines, words, fields, cutLines, cutWords, fieldsOf⟩ := spells
  rw [Text.divides_splitAt.mp cutWords]
  exact ⟨text, line, lines, rfl, (Text.divides_splitLines.mp cutLines).symm, rfl, rfl, fieldsOf⟩

namespace Request

variable (request : Request)

theorem verdict_readHead_of_fault {text : String} {line : List Char} {lines : List (List Char)}
    {code : Code} (split : Text.splitLines text.toList = line :: lines)
    (fault : (Head.readRequestLine line).fault = some code) :
    verdict (request.readHead (Text.bytes text)).value = .error code := by
  have read : (Head.read text).value.fault = some code := by
    simp only [Head.read, split, List.headD_cons, fault, Logged.value_pure]
  simp only [readHead, Text.ofBytes?_bytes, Logged.value_bind, Logged.value_pure, verdict, read]

theorem verdict_readHead_of_fine {text : String} {line : List Char} {lines : List (List Char)}
    {head : Head} (split : Text.splitLines text.toList = line :: lines)
    (fine : Head.readRequestLine line = ⟨head, none⟩) :
    verdict (request.readHead (Text.bytes text)).value =
      verdict ({ request with headDone := true, head := (head.readHeaders 0 lines).value.head },
        (head.readHeaders 0 lines).value.fault) := by
  have read : Head.read text = head.readHeaders 0 lines := by
    simp only [Head.read, split, List.headD_cons, fine, List.tail_cons]
  simp only [readHead, Text.ofBytes?_bytes, Logged.value_bind, Logged.value_pure, read]

/-- Reading a head gives what the grammar says. -/
theorem verdict_readHead (reads : Reads before result) :
    verdict (request.readHead before).value = result := by
  cases reads with
  | garbled invalid =>
    have none : Text.ofBytes? before = none := by
      cases read : Text.ofBytes? before with
      | none => rfl
      | some text => exact absurd (Text.bytes_of_ofBytes? read) (invalid text)
    simp only [readHead, none, Logged.value_pure, verdict]
  | wordless spells missing =>
    obtain ⟨text, line, lines, rfl, split, isVerb, isTarget, -⟩ := spells.exists_lines
    apply request.verdict_readHead_of_fault split
    rw [Head.readRequestLine_of_missing isVerb isTarget missing]
  | otherVerb spells hasVerb hasTarget other =>
    obtain ⟨text, line, lines, rfl, split, isVerb, isTarget, -⟩ := spells.exists_lines
    apply request.verdict_readHead_of_fault split
    rw [Head.readRequestLine_of_otherVerb isVerb isTarget hasVerb hasTarget other]
  | otherTarget spells other =>
    obtain ⟨text, line, lines, rfl, split, isVerb, isTarget, -⟩ := spells.exists_lines
    exact request.verdict_readHead_of_fault split
      (Head.readRequestLine_of_otherTarget isVerb isTarget rfl other)
  | otherLength spells served other =>
    obtain ⟨text, line, lines, rfl, split, isVerb, isTarget, fieldsOf⟩ := spells.exists_lines
    have fine := Head.readRequestLine_of_served isVerb isTarget rfl served
    rw [request.verdict_readHead_of_fine split fine, verdict,
      Head.fault_readHeaders _ fieldsOf other]
  | fine spells served states =>
    obtain ⟨text, line, lines, rfl, split, isVerb, isTarget, fieldsOf⟩ := spells.exists_lines
    have fine := Head.readRequestLine_of_served isVerb isTarget rfl served
    rw [request.verdict_readHead_of_fine split fine, verdict,
      Head.value_readHeaders _ fieldsOf states]
    rfl

/-- Reading a head is what the grammar says it is, and the grammar says one thing of all bytes. -/
theorem reads_iff : Reads before result ↔ result = verdict (request.readHead before).value := by
  refine ⟨fun reads => (request.verdict_readHead reads).symm, ?_⟩
  rintro rfl
  obtain ⟨result, reads⟩ := exists_reads before
  rwa [request.verdict_readHead reads]

end Request

end Verdict

end BoardNet.Http
