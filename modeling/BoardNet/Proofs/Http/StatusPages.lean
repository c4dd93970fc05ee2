import BoardNet.Proofs.Address
import BoardNet.Proofs.Http.Conduct
import BoardNet.Proofs.Http.ResponseHead
import BoardNet.Proofs.Text.Json
import Mathlib.Data.List.Forall2

/-!
What a peer reads on the status pages. Their bodies are made in buffers of fixed size, which leave
out in silence what does not fit. The longest body fits, so a page is always a complete document
with the values that it was made from.
-/

namespace BoardNet

theorem Ipv4.isPlain_text (ip : Ipv4) : IsPlainText ip.text := by
  intro char member
  rcases isDigit_or_dot member with digit | rfl
  · exact isPlain_of_isAlphanum (by simp [Char.isAlphanum, digit])
  · decide

theorem Mac.isPlain_text (mac : Mac) : IsPlainText mac.text := by
  intro char member
  rcases isAlphanum_or_colon member with shown | rfl
  · exact isPlain_of_isAlphanum shown
  · decide

namespace Link.State

def read? (name : String) : Option State := all.find? (·.name = name)

theorem read?_name (state : State) : read? state.name = some state := by
  cases state <;> decide +kernel

theorem isPlain_name (state : State) : IsPlainText state.name := by
  cases state <;> decide +kernel

theorem size_name_le (state : State) : state.name.utf8ByteSize ≤ 17 := by
  cases state <;> decide

end Link.State

namespace SocketStatus

theorem isPlain_name (status : SocketStatus) : IsPlainText status.name := by
  cases status with
  | unknown raw =>
    change IsPlainText "UNKNOWN"
    decide +kernel
  | _ => decide +kernel

theorem size_name_le (status : SocketStatus) : status.name.utf8ByteSize ≤ 11 := by
  cases status with
  | unknown raw =>
    change "UNKNOWN".utf8ByteSize ≤ 11
    decide
  | _ => decide

/-- A status that stands for a register byte of no meaning. -/
def IsUnknown (status : SocketStatus) : Prop := ∃ raw, status = .unknown raw

def known : List SocketStatus :=
  [.closed, .init, .listen, .synSent, .synRecv, .established, .finWait, .closing, .timeWait,
    .closeWait, .lastAck, .udp, .macRaw]

/-- The status with a meaning that has this name. -/
def read? (name : String) : Option SocketStatus := known.find? (·.name = name)

theorem read?_name_of_known {status : SocketStatus} (meaning : ¬status.IsUnknown) :
    read? status.name = some status := by
  cases status with
  | unknown raw => exact absurd ⟨raw, rfl⟩ meaning
  | _ => decide +kernel

theorem read?_name_of_unknown {status : SocketStatus} (unknown : status.IsUnknown) :
    read? status.name = none := by
  obtain ⟨raw, rfl⟩ := unknown
  change read? "UNKNOWN" = none
  decide +kernel

/-- Statuses have different names, except that those without a meaning have one name. -/
theorem name_eq_iff {first second : SocketStatus} :
    first.name = second.name ↔ first = second ∨ first.IsUnknown ∧ second.IsUnknown := by
  constructor
  · intro same
    have read := congrArg read? same
    by_cases one : first.IsUnknown <;> by_cases other : second.IsUnknown
    · exact .inr ⟨one, other⟩
    · rw [read?_name_of_unknown one, read?_name_of_known other] at read
      cases read
    · rw [read?_name_of_known one, read?_name_of_unknown other] at read
      cases read
    · rw [read?_name_of_known one, read?_name_of_known other] at read
      exact .inl (Option.some.inj read)
  · rintro (rfl | ⟨⟨_, rfl⟩, _, rfl⟩) <;> rfl

end SocketStatus

namespace Http.StatusPage

section Words

theorem toList_jsonBool (value : Bool) : (jsonBool value).toList = (Json.bool value).chars := by
  cases value <;> rfl

theorem size_jsonBool_le (value : Bool) : (jsonBool value).utf8ByteSize ≤ 5 := by
  cases value <;> decide

/-- The cable that a word on the network page says. -/
def readLink? (word : String) : Option LinkStatus :=
  [.unknown, .on, .off].find? (linkWord · = word)

theorem readLink?_linkWord (link : LinkStatus) : readLink? (linkWord link) = some link := by
  cases link <;> decide +kernel

theorem isPlain_linkWord (link : LinkStatus) : IsPlainText (linkWord link) := by
  cases link <;> decide +kernel

theorem size_linkWord_le (link : LinkStatus) : (linkWord link).utf8ByteSize ≤ 7 := by
  cases link <;> decide

theorem size_word32_le (word : UInt32) : (Text.decimal word.toNat).utf8ByteSize ≤ 10 :=
  Text.utf8ByteSize_decimal_le (by decide) (Nat.lt_trans word.toNat_lt (by decide))

theorem size_word16_le (word : UInt16) : (Text.decimal word.toNat).utf8ByteSize ≤ 5 :=
  Text.utf8ByteSize_decimal_le (by decide) (Nat.lt_trans word.toNat_lt (by decide))

/-- Pieces are together no longer than the longest that each can be. -/
theorem size_join_le {pieces : List String} {bounds : List Nat}
    (within : List.Forall₂ (fun piece bound => piece.utf8ByteSize ≤ bound) pieces bounds) :
    (String.join pieces).utf8ByteSize ≤ bounds.sum := by
  induction within with
  | nil => exact Nat.le_refl _
  | cons here rest ih =>
    rw [String.join_cons, String.utf8ByteSize_append]
    exact Nat.add_le_add here ih

end Words

section Network

variable (network : Link.Status)

def networkDocument : Json := .object
  [(⟨"state", by decide⟩, .phrase ⟨network.state.name, network.state.isPlain_name⟩),
    (⟨"ready", by decide⟩, .bool network.ready),
    (⟨"busy", by decide⟩, .bool network.busy),
    (⟨"link", by decide⟩, .phrase ⟨linkWord network.link, isPlain_linkWord network.link⟩),
    (⟨"server", by decide⟩, .bool network.server),
    (⟨"ip", by decide⟩, .phrase ⟨network.ip.text, network.ip.isPlain_text⟩),
    (⟨"mac", by decide⟩, .phrase ⟨network.mac.text, network.mac.isPlain_text⟩),
    (⟨"init_cycles", by decide⟩, .number network.initCycles.toNat),
    (⟨"retries", by decide⟩, .number network.retries.toNat),
    (⟨"hard_resets", by decide⟩, .number network.hardResets.toNat),
    (⟨"soft_resets", by decide⟩, .number network.softResets.toNat)]

/-- Written without a limit, the pieces are the document. -/
theorem toList_networkPieces :
    (String.join (networkPieces network).flatten).toList = (networkDocument network).chars := by
  simp [networkPieces, networkDocument, Json.membersChars_cons, Phrase.chars, toList_jsonBool]

theorem size_networkPieces_le :
    (String.join (networkPieces network).flatten).utf8ByteSize ≤ networkCapacity := by
  refine Nat.le_trans (size_join_le (?_ : List.Forall₂ _ _ [10, 17, 10, 5, 8, 5, 1, 8, 7, 11, 5, 1,
    6, 15, 9, 17, 2, 14, 10, 11, 3, 1, 14, 10, 15, 10, 1])) (by decide)
  simp only [networkPieces, List.flatten_cons, List.flatten_nil, List.cons_append, List.nil_append,
    List.append_nil, List.forall₂_cons, List.Forall₂.nil, and_true]
  exact ⟨by decide, network.state.size_name_le, by decide, size_jsonBool_le _, by decide,
    size_jsonBool_le _, by decide, by decide, size_linkWord_le _, by decide, size_jsonBool_le _,
    by decide, by decide, Text.size_appendFitting _ _ (by decide), by decide,
    Text.size_appendFitting _ _ (by decide), by decide, by decide, size_word32_le _, by decide,
    Text.utf8ByteSize_octet_le _, by decide, by decide, size_word32_le _, by decide,
    size_word32_le _, by decide⟩

/-- The body of the network page is all its pieces. -/
theorem networkBody_eq_join :
    networkBody network = String.join (networkPieces network).flatten := by
  have fits := size_networkPieces_le network
  rw [networkBody, Text.foldl_appendFitting, String.empty_append]
  rwa [String.utf8ByteSize_empty, Nat.zero_add]

variable {network}

/-- A document with the members of the network page says this of the link. -/
structure ShowsNetwork (document : Json) (network : Link.Status) : Prop where
  names : document.names = ["state", "ready", "busy", "link", "server", "ip", "mac", "init_cycles",
    "retries", "hard_resets", "soft_resets"]
  state : document.get? "state" (·.asText?.bind Link.State.read?) = some network.state
  ready : document.get? "ready" Json.asBool? = some network.ready
  busy : document.get? "busy" Json.asBool? = some network.busy
  link : document.get? "link" (·.asText?.bind readLink?) = some network.link
  server : document.get? "server" Json.asBool? = some network.server
  ip : document.get? "ip" (·.asText?.bind Ipv4.read?) = some network.ip
  mac : document.get? "mac" (·.asText?.bind Mac.read?) = some network.mac
  initCycles : document.get? "init_cycles" Json.asNumber? = some network.initCycles.toNat
  retries : document.get? "retries" Json.asNumber? = some network.retries.toNat
  hardResets : document.get? "hard_resets" Json.asNumber? = some network.hardResets.toNat
  softResets : document.get? "soft_resets" Json.asNumber? = some network.softResets.toNat

/-- The body of the network page is read back. -/
theorem read?_networkBody (network : Link.Status) :
    ∃ document, Json.read? (networkBody network) = some document ∧
      ShowsNetwork document network := by
  refine ⟨networkDocument network, ?_, ?_⟩
  · rw [networkBody_eq_join, ← String.ofList_toList (s := String.join _), toList_networkPieces,
      Json.read?_chars]
  · constructor <;>
      simp [networkDocument, Json.names, Json.get?, Json.member?, Json.asText?, Json.asBool?,
        Json.asNumber?, Link.State.read?_name, readLink?_linkWord, Ipv4.read?_text, Mac.read?_text]

end Network

section Sockets

variable {stats : Stats} {entry : SocketReport} {entries : List SocketReport} {count : Nat}

/-- The pieces in which one socket is written. -/
def entryFields (entry : SocketReport) : List String :=
  ["\x7b\"id\":", Text.decimal entry.socket.val, ",\"status\":\"", entry.status.name,
    "\",\"port\":", Text.decimal entry.port.toNat, "\x7d"]

/-- The same with the comma that comes before them, unless the socket is the first. -/
def entryPieces (entry : SocketReport) : List String :=
  if entry.socket.val = 0 then entryFields entry else "," :: entryFields entry

/-- The pieces in which the counters are written. -/
def openingPieces (stats : Stats) : List (List String) :=
  [["\x7b\"requests\":\x7b\"success\":", Text.decimal stats.succeeded.toNat, ",\"failed\":",
      Text.decimal stats.failed.toNat, "\x7d,"],
    ["\"server_restarts\":", Text.decimal stats.restarts.toNat, ",\"sockets_reclaimed\":",
      Text.decimal stats.reclaimed.toNat, ",\"sockets\":["]]

def socketsPieces (stats : Stats) (entries : List SocketReport) : List String :=
  (openingPieces stats).flatten ++ (entries.flatMap entryPieces ++ ["]\x7d"])

/-- Most bytes that one socket takes. -/
def entrySize : Nat := 45

theorem size_entryFields_le (entry : SocketReport) :
    (String.join (entryFields entry)).utf8ByteSize < entrySize := by
  refine Nat.lt_of_le_of_lt (size_join_le (?_ : List.Forall₂ _ _ [6, 1, 11, 11, 9, 5, 1]))
    (by decide)
  have digit : (Text.decimal entry.socket.val).utf8ByteSize ≤ 1 :=
    Text.utf8ByteSize_decimal_le (by decide) (Nat.lt_trans entry.socket.isLt (by decide))
  simp only [entryFields, List.forall₂_cons, List.Forall₂.nil, and_true]
  exact ⟨by decide, digit, by decide, entry.status.size_name_le, by decide, size_word16_le _,
    by decide⟩

theorem size_entryPieces_le (entry : SocketReport) :
    (String.join (entryPieces entry)).utf8ByteSize ≤ entrySize := by
  have fields := size_entryFields_le entry
  have comma : ",".utf8ByteSize = 1 := by decide
  unfold entryPieces
  split
  · omega
  · rw [String.join_cons, String.utf8ByteSize_append]
    omega

theorem size_openingPieces_le (stats : Stats) :
    (String.join (openingPieces stats).flatten).utf8ByteSize ≤ 126 := by
  refine Nat.le_trans (size_join_le (?_ : List.Forall₂ _ _ [23, 10, 10, 10, 2, 18, 10, 21, 10, 12]))
    (by decide)
  simp only [openingPieces, List.flatten_cons, List.flatten_nil, List.cons_append, List.nil_append,
    List.append_nil, List.forall₂_cons, List.Forall₂.nil, and_true]
  exact ⟨by decide, size_word32_le _, by decide, size_word32_le _, by decide, by decide,
    size_word32_le _, by decide, size_word32_le _, by decide⟩

theorem appendSocket_eq_append {body : String}
    (room : body.utf8ByteSize + entrySize ≤ socketsCapacity) :
    appendSocket body entry = body ++ String.join (entryPieces entry) := by
  have fields := size_entryFields_le entry
  have comma : ",".utf8ByteSize = 1 := by decide
  unfold appendSocket entryPieces
  split
  · exact Text.appendFitting_eq_append (by rw [← entryFields]; omega)
  · have separated : Text.push socketsCapacity body "," = body ++ "," :=
      Text.push_of_fits (by rw [String.utf8ByteSize_append]; omega)
    rw [separated, ← entryFields, Text.appendFitting_eq_append, String.join_cons,
      String.append_assoc]
    rw [String.utf8ByteSize_append]
    omega

theorem size_entries_le (entries : List SocketReport) :
    (String.join (entries.flatMap entryPieces)).utf8ByteSize ≤ entrySize * entries.length := by
  induction entries with
  | nil => exact Nat.le_refl _
  | cons entry entries ih =>
    rw [List.flatMap_cons, String.join_append, String.utf8ByteSize_append, List.length_cons,
      Nat.mul_succ, Nat.add_comm]
    exact Nat.add_le_add ih (size_entryPieces_le entry)

/-- Sockets are written whole as long as there is room for the longest. -/
theorem foldl_appendSocket {body : String}
    (room : body.utf8ByteSize + entrySize * entries.length ≤ socketsCapacity) :
    entries.foldl appendSocket body = body ++ String.join (entries.flatMap entryPieces) := by
  induction entries generalizing body with
  | nil => exact String.append_empty.symm
  | cons entry entries ih =>
    rw [List.length_cons, Nat.mul_succ] at room
    have size := size_entryPieces_le entry
    rw [List.foldl_cons, appendSocket_eq_append (by omega), ih, List.flatMap_cons,
      String.join_append, String.append_assoc]
    rw [String.utf8ByteSize_append]
    omega

theorem size_socketsPieces_le (stats : Stats) (most : entries.length ≤ maxSockets) :
    (String.join (socketsPieces stats entries)).utf8ByteSize ≤ socketsCapacity := by
  have opening := size_openingPieces_le stats
  have sizes := size_entries_le entries
  have closing : (String.join ["]\x7d"]).utf8ByteSize = 2 := by decide
  rw [socketsPieces, String.join_append, String.join_append, String.utf8ByteSize_append,
    String.utf8ByteSize_append, closing]
  unfold entrySize at sizes
  unfold maxSockets at most
  unfold socketsCapacity
  omega

/-- The body of the sockets page is all its pieces. -/
theorem socketsBody_eq_join (stats : Stats) (most : entries.length ≤ maxSockets) :
    socketsBody stats entries = String.join (socketsPieces stats entries) := by
  have size := size_openingPieces_le stats
  have opening : (openingPieces stats).foldl (Text.appendFitting socketsCapacity) "" =
      String.join (openingPieces stats).flatten := by
    rw [Text.foldl_appendFitting, String.empty_append]
    rw [String.utf8ByteSize_empty, Nat.zero_add]
    exact Nat.le_trans size (by decide)
  have listing : entries.foldl appendSocket (String.join (openingPieces stats).flatten) =
      String.join (openingPieces stats).flatten ++ String.join (entries.flatMap entryPieces) := by
    apply foldl_appendSocket
    unfold entrySize socketsCapacity
    unfold maxSockets at most
    omega
  have joined : String.join (socketsPieces stats entries) =
      String.join (openingPieces stats).flatten ++ String.join (entries.flatMap entryPieces) ++
        "]\x7d" := by
    rw [socketsPieces, String.join_append, String.join_append, String.join_cons, String.join_nil,
      String.append_empty, String.append_assoc]
  calc socketsBody stats entries
      = Text.push socketsCapacity (entries.foldl appendSocket
          ((openingPieces stats).foldl (Text.appendFitting socketsCapacity) "")) "]\x7d" := by
        simp only [socketsBody, openingPieces, List.foldl_cons, List.foldl_nil, Text.fitting]
    _ = _ := by
        rw [opening, listing, Text.push_of_fits (joined ▸ size_socketsPieces_le stats most), joined]

def socketDocument (entry : SocketReport) : Json := .object
  [(⟨"id", by decide⟩, .number entry.socket.val),
    (⟨"status", by decide⟩, .phrase ⟨entry.status.name, entry.status.isPlain_name⟩),
    (⟨"port", by decide⟩, .number entry.port.toNat)]

def socketsDocument (stats : Stats) (entries : List SocketReport) : Json := .object
  [(⟨"requests", by decide⟩, .object
      [(⟨"success", by decide⟩, .number stats.succeeded.toNat),
        (⟨"failed", by decide⟩, .number stats.failed.toNat)]),
    (⟨"server_restarts", by decide⟩, .number stats.restarts.toNat),
    (⟨"sockets_reclaimed", by decide⟩, .number stats.reclaimed.toNat),
    (⟨"sockets", by decide⟩, .array (entries.map socketDocument))]

theorem toList_entryFields (entry : SocketReport) :
    (String.join (entryFields entry)).toList = (socketDocument entry).chars := by
  simp [entryFields, socketDocument, Json.membersChars_cons, Phrase.chars]

/-- Only the first of the controller's sockets has the number zero. -/
theorem first_of_sockets (inOrder : (entry :: entries).map (·.socket) = Nic.sockets count) :
    entry.socket.val = 0 ∧ ∀ other ∈ entries, other.socket.val ≠ 0 := by
  cases count with
  | zero => cases inOrder
  | succ count =>
    have begun : Nic.sockets (count + 1) =
        ⟨0, by decide⟩ :: (List.finRange maxSockets).tail.take count := rfl
    rw [begun, List.map_cons] at inOrder
    obtain ⟨first, others⟩ := List.cons.inj inOrder
    refine ⟨congrArg Fin.val first, fun other member => ?_⟩
    have listed : other.socket ∈ (List.finRange maxSockets).tail.take count :=
      others ▸ List.mem_map_of_mem member
    have later : ∀ socket ∈ (List.finRange maxSockets).tail, socket.val ≠ 0 := by decide
    exact later _ (List.mem_of_mem_take listed)

/-- With a comma between sockets and no other, the pieces of sockets are an array. -/
theorem toList_entries (inOrder : entries.map (·.socket) = Nic.sockets count) :
    (String.join (entries.flatMap entryPieces)).toList =
      Json.itemsChars (entries.map socketDocument) := by
  cases entries with
  | nil => rfl
  | cons entry others =>
    obtain ⟨first, later⟩ := first_of_sockets inOrder
    have rest (other : SocketReport) (member : other ∈ others) :
        (entryPieces other).flatMap String.toList = ',' :: (socketDocument other).chars := by
      rw [entryPieces, if_neg (later other member), ← String.toList_join, String.join_cons,
        String.toList_append, toList_entryFields]
      rfl
    rw [List.map_cons, Json.itemsChars_cons, List.flatMap_cons, String.join_append,
      String.toList_append, entryPieces, if_pos first, toList_entryFields, String.toList_join,
      List.flatMap_assoc, List.flatMap_map]
    congr 1
    exact List.flatMap_congr rest

/-- Written without a limit, the pieces are the document. -/
theorem toList_socketsPieces (inOrder : entries.map (·.socket) = Nic.sockets count) :
    (String.join (socketsPieces stats entries)).toList = (socketsDocument stats entries).chars := by
  have array := toList_entries inOrder
  rw [socketsPieces, String.join_append, String.join_append, String.toList_append,
    String.toList_append, array]
  simp [openingPieces, socketsDocument, Json.membersChars_cons, Phrase.chars]

/-- An entry of the sockets page says this of a socket. -/
structure ShowsSocket (item : Json) (entry : SocketReport) : Prop where
  names : item.names = ["id", "status", "port"]
  socket : item.get? "id" Json.asNumber? = some entry.socket.val
  status : item.get? "status" Json.asText? = some entry.status.name
  port : item.get? "port" Json.asNumber? = some entry.port.toNat

/-- A document with the members of the sockets page says this of the server and the sockets. -/
structure ShowsSockets (document : Json) (stats : Stats) (entries : List SocketReport) : Prop where
  names : document.names = ["requests", "server_restarts", "sockets_reclaimed", "sockets"]
  requests : ∃ requests, document.member? "requests" = some requests ∧
    requests.names = ["success", "failed"] ∧
    requests.get? "success" Json.asNumber? = some stats.succeeded.toNat ∧
    requests.get? "failed" Json.asNumber? = some stats.failed.toNat
  restarts : document.get? "server_restarts" Json.asNumber? = some stats.restarts.toNat
  reclaimed : document.get? "sockets_reclaimed" Json.asNumber? = some stats.reclaimed.toNat
  sockets : ∃ items, document.get? "sockets" Json.asItems? = some items ∧
    List.Forall₂ ShowsSocket items entries

theorem showsSocket_document (entry : SocketReport) : ShowsSocket (socketDocument entry) entry := by
  constructor <;> simp [socketDocument, Json.names, Json.get?, Json.member?, Json.asText?,
    Json.asNumber?]

theorem length_le_of_sockets (inOrder : entries.map (·.socket) = Nic.sockets count) :
    entries.length ≤ maxSockets := by
  rw [← List.length_map (·.socket), inOrder, Nic.sockets, List.length_take, List.length_finRange]
  exact Nat.min_le_right _ _

/-- The body of the sockets page is read back. -/
theorem read?_socketsBody (stats : Stats) (inOrder : entries.map (·.socket) = Nic.sockets count) :
    ∃ document, Json.read? (socketsBody stats entries) = some document ∧
      ShowsSockets document stats entries := by
  refine ⟨socketsDocument stats entries, ?_, ?_⟩
  · rw [socketsBody_eq_join stats (length_le_of_sockets inOrder),
      ← String.ofList_toList (s := String.join _),
      toList_socketsPieces inOrder, Json.read?_chars]
  · have items : List.Forall₂ ShowsSocket (entries.map socketDocument) entries :=
      List.forall₂_map_left_iff.mpr
        (List.forall₂_same.mpr fun entry _ => showsSocket_document entry)
    constructor
    case sockets => exact ⟨_, rfl, items⟩
    case requests => exact ⟨_, rfl, rfl, rfl, rfl⟩
    all_goals rfl

end Sockets

section Answers

open Poll

variable {C : Type} {network : Link.Status} {stats : Stats}

/-- What the controller was asked for a report, and answered. -/
def asked (entries : List SocketReport) : List Exchange :=
  entries.flatMap fun entry =>
    [⟨.call (.socketStatus entry.socket), entry.status⟩,
      ⟨.call (.socketPort entry.socket), entry.port⟩]

theorem takenOn_asked (socket : SocketId) (entries : List SocketReport) :
    takenOn socket (asked entries) = [] := by
  apply takenOn_eq_nil
  intro exchange member
  obtain ⟨entry, -, own⟩ := List.mem_flatMap.mp member
  simp only [List.mem_cons, List.not_mem_nil, or_false] at own
  rcases own with rfl | rfl <;> rfl

theorem path_report {sockets : List SocketId} {trace : List Exchange} {entries : List SocketReport}
    (path : Path (report sockets) trace entries) :
    entries.map (·.socket) = sockets ∧ trace = asked entries := by
  induction sockets generalizing trace entries with
  | nil =>
    obtain ⟨rfl, rfl⟩ := path_done.mp path
    exact ⟨rfl, rfl⟩
  | cons socket others ih =>
    rw [report, Nic.socketStatus, path_nic_bind] at path
    obtain ⟨status, trace, rfl, path⟩ := path
    rw [Nic.socketPort, path_nic_bind] at path
    obtain ⟨port, trace, rfl, path⟩ := path
    rw [path_bind] at path
    obtain ⟨trace, _, rest, rfl, reporting, path⟩ := path
    obtain ⟨rfl, rfl⟩ := path_done.mp path
    obtain ⟨order, rfl⟩ := ih reporting
    rw [List.append_nil]
    exact ⟨congrArg (socket :: ·) order, rfl⟩

/-- What stands on a status page, given what the controller answers while it is made. -/
inductive Body (network : Link.Status) (stats : Stats) :
    StatusPage → List Exchange → String → Prop where
  | network (trace : List Exchange) : Body network stats .network trace (networkBody network)
  | sockets {count : Nat} {entries : List SocketReport} (rest : List Exchange)
      (inOrder : entries.map (·.socket) = Nic.sockets count) :
      Body network stats .sockets (⟨.call .socketCount, count⟩ :: (asked entries ++ rest))
        (socketsBody stats entries)

/-- A page is answered by writing its body and sending it. -/
theorem path_answer {page : StatusPage} {request : Request} {socket : SocketId} {chunk : Nat}
    {context left : C} {trace : List Exchange} {ended : Responder} (shown : page ≠ .ping)
    (path : Path (page.answer request (.start socket chunk {} network stats) context) trace
      (ended, left)) :
    ∃ body sending, Body network stats page trace body ∧
      takenOn socket trace = takenOn socket sending ∧
      Path ((Responder.start socket chunk {} network stats).sendText 200 "application/json" body)
        sending ended := by
  cases page with
  | ping => exact absurd rfl shown
  | network =>
    rw [answer, path_bind] at path
    obtain ⟨trace, _, _, rfl, sending, path⟩ := path
    obtain ⟨rfl, same⟩ := path_done.mp path
    cases same
    rw [List.append_nil]
    exact ⟨_, trace, .network trace, rfl, sending⟩
  | sockets =>
    rw [answer, Nic.socketCount, path_nic_bind] at path
    obtain ⟨count, trace, rfl, path⟩ := path
    rw [path_bind] at path
    obtain ⟨asking, trace, entries, rfl, reporting, path⟩ := path
    obtain ⟨inOrder, rfl⟩ := path_report reporting
    rw [path_bind] at path
    obtain ⟨trace, _, _, rfl, sending, path⟩ := path
    obtain ⟨rfl, same⟩ := path_done.mp path
    cases same
    rw [List.append_nil]
    refine ⟨_, trace, .sockets trace inOrder, ?_, sending⟩
    rw [takenOn_cons, Exchange.taken_eq_nil _ rfl, List.nil_append, takenOn_append,
      takenOn_asked, List.nil_append]

theorem size_body_le {page : StatusPage} {trace : List Exchange} {body : String}
    (written : Body network stats page trace body) : body.utf8ByteSize ≤ socketsCapacity := by
  cases written with
  | network trace =>
    rw [networkBody_eq_join]
    exact Nat.le_trans (size_networkPieces_le network) (by decide)
  | sockets rest inOrder =>
    have most := length_le_of_sockets inOrder
    rw [socketsBody_eq_join stats most]
    exact size_socketsPieces_le stats most

/-- A response that is a whole head with the length of this body, and the body behind it. -/
def Carries (body : String) (made : List UInt8) : Prop :=
  ∃ head, Responder.IsHead 200 "application/json" (some (Text.bytes body).length) head ∧
    made = head ++ Text.bytes body

/-- A text that is no longer than a page is sent with nothing lost. -/
theorem carries_sendText {socket : SocketId} {chunk : Nat} {body : String} {trace : List Exchange}
    {ended : Responder} (short : body.utf8ByteSize ≤ socketsCapacity)
    (path : Path ((Responder.start socket chunk {} network stats).sendText 200 "application/json"
      body) trace ended) :
    ended.out.overflowed = false ∧ Carries body (takenOn socket trace ++ ended.out.toList) := by
  rw [Responder.sendText] at path
  have room : 0 + responseHeadCapacity + (Text.bytes body).length ≤ outboxSize := by
    rw [Text.length_bytes]
    exact Nat.le_trans (Nat.add_le_add_left short _) (by decide)
  have whole : ended.out.overflowed = false := Responder.overflowed_send path rfl rfl room
  obtain ⟨holds, -⟩ := Responder.path_send path (Responder.holds_start socket chunk network stats)
  have word : ∀ bytes ∈ some (Text.bytes body).length, bytes < 2 ^ 64 := by
    intro bytes member
    rw [← Option.mem_some.mp member, Text.length_bytes]
    exact Nat.lt_of_le_of_lt short (by decide)
  have fits : Responder.HeadFits 200 "application/json" (some (Text.bytes body).length) :=
    Responder.headFits_of_short (by decide) word
  have head := (Responder.isHead_headText_iff (by decide)).mpr fits
  have made := holds.out.bytes whole
  rw [List.nil_append, List.nil_append, Responder.headBytes, if_neg (by simp [Responder.start])]
    at made
  exact ⟨whole, _, head, made⟩

/-- Status pages are complete documents. No piece of a page is dropped by a buffer, and a strict
reader finds in its body exactly the members of the page, with the values that it was made from; a
socket's state is given by its name, which only states without a meaning have in common. The
response to a request for the page is this body behind a whole head that states its length, whatever
the controller does. -/
theorem pages_read_back :
    (∀ network : Link.Status,
      networkBody network = String.join (networkPieces network).flatten ∧
        network.ip.text = String.join network.ip.pieces ∧
        network.mac.text = String.join network.mac.pieces ∧
        ∃ document, Json.read? (networkBody network) = some document ∧
          ShowsNetwork document network) ∧
      (∀ (stats : Stats) (count : Nat) (entries : List SocketReport),
        entries.map (·.socket) = Nic.sockets count →
          socketsBody stats entries = String.join (socketsPieces stats entries) ∧
            ∃ document, Json.read? (socketsBody stats entries) = some document ∧
              ShowsSockets document stats entries) ∧
      (∀ first second : SocketStatus,
        first.name = second.name ↔ first = second ∨ first.IsUnknown ∧ second.IsUnknown) ∧
      ∀ {C : Type} (page : StatusPage) (request : Request) (socket : SocketId) (chunk : Nat)
        (network : Link.Status) (stats : Stats) (context left : C) (trace : List Exchange)
        (ended : Responder), page ≠ .ping →
        Path (page.answer request (.start socket chunk {} network stats) context) trace
          (ended, left) →
        ∃ body, Body network stats page trace body ∧ ended.out.overflowed = false ∧
          Carries body (takenOn socket trace ++ ended.out.toList) := by
  refine ⟨fun network => ?_, fun stats count entries inOrder => ?_,
    fun first second => SocketStatus.name_eq_iff, ?_⟩
  · exact ⟨networkBody_eq_join network, network.ip.text_eq_join, network.mac.text_eq_join,
      read?_networkBody network⟩
  · exact ⟨socketsBody_eq_join stats (length_le_of_sockets inOrder),
      read?_socketsBody stats inOrder⟩
  · intro C page request socket chunk network stats context left trace ended shown path
    obtain ⟨body, sending, written, same, path⟩ := path_answer shown path
    obtain ⟨whole, carried⟩ := carries_sendText (size_body_le written) path
    exact ⟨body, written, whole, same ▸ carried⟩

/-- A socket that listens is read back from the page of a server that has counted nothing, and so is
what a controller reports of all its sockets. -/
theorem listening_read_back :
    let listening : SocketReport := ⟨⟨0, by decide⟩, .listen, 80⟩
    (∃ document, Json.read? (socketsBody {} [listening]) = some document ∧
        ShowsSockets document {} [listening]) ∧
      StatusPage.sockets ≠ .ping ∧
      ∃ (trace : List Exchange) (ended : Responder) (body : String),
        Body (Server.linkThatIs true) {} .sockets trace body ∧
          Carries body (takenOn ⟨0, by decide⟩ trace ++ ended.out.toList) := by
  intro listening
  obtain ⟨-, sockets, -, sent⟩ := pages_read_back
  refine ⟨(sockets {} 1 [listening] rfl).2, nofun, ?_⟩
  let begun : Responder := .start ⟨0, by decide⟩ 2048 {} (Server.linkThatIs true) {}
  obtain ⟨trace, ⟨ended, left⟩, path⟩ : ∃ trace end',
      Path (StatusPage.sockets.answer (.start .unspecified) begun ()) trace end' :=
    ⟨_, _, path_run Sim.Controller.chip _ Server.calledUpon⟩
  obtain ⟨body, written, -, carried⟩ := sent .sockets _ _ _ _ _ _ _ _ _ nofun path
  exact ⟨trace, ended, body, written, carried⟩

end Answers

end Http.StatusPage

end BoardNet
