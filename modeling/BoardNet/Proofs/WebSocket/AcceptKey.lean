import BoardNet.Proofs.Digest.Base64
import BoardNet.WebSocket.Upgrade

namespace BoardNet.WebSocket

variable {capacity : Nat} {text : String} {data : List UInt8}

def keyDigest (key : String) : List UInt8 := Sha1.digest (Text.bytes key ++ Text.bytes keySuffix)

/-- The text that accepts a key is the whole encoding of its digest. -/
theorem acceptKey_eq (key : String) :
    acceptKey key = String.ofList (Base64.standard (keyDigest key)) ∧
      (Base64.standard (keyDigest key)).length = acceptLength := by
  have length : (Base64.standard (keyDigest key)).length = acceptLength := by
    rw [← Base64.encode_eq_standard, Base64.length_encode, keyDigest, Sha1.length_digest]
    rfl
  refine ⟨?_, length⟩
  rw [acceptKey, ← keyDigest, Base64.appendTo_of_fits (by rw [length]; decide),
    String.empty_append]

/-- The lines of an answer to an upgrade request, with an empty one behind them. -/
def wholeReply (accept : String) : String :=
  "\r\n".intercalate ["HTTP/1.1 101 Switching Protocols", "Upgrade: websocket",
    "Connection: Upgrade", "Sec-WebSocket-Accept: " ++ accept, "", ""]

/-- There is space for the answer with a text of that size. -/
theorem upgradeReply_of_size {accept : String} (size : accept.utf8ByteSize ≤ acceptLength) :
    upgradeReply accept = wholeReply accept := by
  let opening :=
    "HTTP/1.1 101 Switching Protocols\r\nUpgrade: websocket\r\nConnection: Upgrade\r\n" ++
      "Sec-WebSocket-Accept: "
  have whole : [opening, accept, "\r\n\r\n"].foldl (· ++ ·) "" = wholeReply accept := by
    apply String.ext
    simp [wholeReply, opening]
  have room : (wholeReply accept).utf8ByteSize ≤ upgradeReplyCapacity := by
    have begun : opening.utf8ByteSize = 97 := by decide +kernel
    have ended : "\r\n\r\n".utf8ByteSize = 4 := by decide
    rw [← whole]
    simp only [List.foldl_cons, List.foldl_nil, String.utf8ByteSize_append, begun, ended,
      String.utf8ByteSize_empty]
    unfold acceptLength at size
    unfold upgradeReplyCapacity
    omega
  rw [← whole] at room ⊢
  exact Text.appendFitting_of_fits room

/-- A key is accepted in base64 by the standard. A buffer takes the encoding of RFC 4648 up to its
capacity. Where all of it has space it reads back as the bytes, so no others are written in the same
way. The digest of a key has 20 bytes, and both its encoding with 28 characters and the answer that
carries it are whole. -/
theorem accepts_in_base64 (capacity : Nat) (text : String) (data : List UInt8)
    (within : text.utf8ByteSize ≤ capacity) :
    Text.bytes (Base64.appendTo capacity text data) =
        (Text.bytes text ++ Text.bytes (String.ofList (Base64.standard data))).take capacity ∧
      (text.utf8ByteSize + (Base64.standard data).length ≤ capacity →
        (∃ added, Base64.appendTo capacity text data = text ++ added ∧
          Base64.decode? added.toList = some data) ∧
        ∀ other, text.utf8ByteSize + (Base64.standard other).length ≤ capacity →
          Base64.appendTo capacity text other = Base64.appendTo capacity text data →
            other = data) ∧
      ∀ key, (keyDigest key).length = 20 ∧
        acceptKey key = String.ofList (Base64.standard (keyDigest key)) ∧
        (acceptKey key).length = 28 ∧
        Base64.decode? (acceptKey key).toList = some (keyDigest key) ∧
        upgradeReply (acceptKey key) = wholeReply (acceptKey key) := by
  refine ⟨Base64.bytes_appendTo data within, fun fits => ⟨?_, ?_⟩, fun key => ?_⟩
  · refine ⟨_, Base64.appendTo_of_fits fits, ?_⟩
    rw [String.toList_ofList, Base64.decode?_standard]
  · intro other also same
    rw [Base64.appendTo_of_fits fits, Base64.appendTo_of_fits also, String.append_right_inj] at same
    have read := congrArg (fun added => Base64.decode? added.toList) same
    simpa [Base64.decode?_standard] using read
  · obtain ⟨accepted, length⟩ := acceptKey_eq key
    have size : (acceptKey key).utf8ByteSize ≤ acceptLength := by
      rw [accepted, Base64.size_standard, length]
    refine ⟨Sha1.length_digest _, accepted, ?_, ?_, upgradeReply_of_size size⟩
    · rw [accepted, String.length_ofList, length]
      rfl
    · rw [accepted, String.toList_ofList, Base64.decode?_standard]

/-- One byte is encoded with two padding characters. A buffer with space for five bytes keeps one of
them, one with space for six keeps both, and what it added is read back. -/
theorem letter_encoded :
    "ab".utf8ByteSize ≤ 5 ∧
      Text.bytes (Base64.appendTo 5 "ab" [0x4D]) = Text.bytes "abTQ=" ∧
      (∃ added, Base64.appendTo 6 "ab" [0x4D] = "ab" ++ added ∧
        Base64.decode? added.toList = some [0x4D]) ∧
      (acceptKey "dGhlIHNhbXBsZSBub25jZQ==").length = 28 := by
  obtain ⟨cut, -, -⟩ := accepts_in_base64 5 "ab" [0x4D] (by decide)
  obtain ⟨-, whole, accepted⟩ := accepts_in_base64 6 "ab" [0x4D] (by decide)
  rw [← Base64.encode_eq_standard] at cut whole
  refine ⟨by decide, cut.trans (by decide), ?_, (accepted _).2.2.1⟩
  exact (whole (by decide)).1

end BoardNet.WebSocket
