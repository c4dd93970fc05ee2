import BoardNet.Digest.Base64
import BoardNet.Digest.Sha1
import BoardNet.Log
import BoardNet.Text.Ascii
import BoardNet.Text.Blank
import BoardNet.Text.Bytes

namespace BoardNet.WebSocket

/-- What the protocol appends to a key. -/
def keySuffix : String := "258EAFA5-E914-47DA-95CA-C5AB0DC85B11"

/-- Most bytes of a line that are looked at. -/
def lineCapacity : Nat := 128

def keyCapacity : Nat := 64

def acceptLength : Nat := 28

def upgradeReplyCapacity : Nat := 160

/-- The text that accepts a key: the digest of the key and the protocol's suffix, in base64. -/
def acceptKey (key : String) : String :=
  Base64.appendTo acceptLength "" (Sha1.digest (Text.bytes key ++ Text.bytes keySuffix))

def upgradeReply (accept : String) : String :=
  Text.fitting upgradeReplyCapacity
    ["HTTP/1.1 101 Switching Protocols\r\nUpgrade: websocket\r\nConnection: Upgrade\r\n" ++
        "Sec-WebSocket-Accept: ",
      accept, "\r\n\r\n"]

/-- The name of the header with the key, colon included. -/
def keyHeader : String := "sec-websocket-key:"

/-- Reads an upgrade request byte by byte. -/
structure LineReader where
  /-- The present line so far, without carriage returns. -/
  line : List UInt8 := []
  /-- The present line is longer than the buffer and will be passed over. -/
  overflow : Bool := false
  /-- The key, or nothing if there was none or the last one was no good. -/
  keyText : String := ""
  deriving DecidableEq, Repr

namespace LineReader

def key (reader : LineReader) : Option String :=
  if reader.keyText = "" then none else some reader.keyText

/-- Keeps the key if a line has one. -/
def takeLine (reader : LineReader) : Logged LineReader :=
  match Text.afterIgnoringCase? (Text.bytes keyHeader) reader.line with
  | none => return reader
  | some rest =>
    let value := Text.trim ((Text.ofBytes? rest).getD "")
    if value.utf8ByteSize ≤ keyCapacity then return { reader with keyText := value }
    else do
      .note .warn "ws: handshake key too long"
      return { reader with keyText := "" }

/-- Reads one byte. Answers whether it ended an empty line, and so the request. -/
def feed (reader : LineReader) (byte : UInt8) : Logged (LineReader × Bool) :=
  if byte = 10 then do
    let taken ← if reader.overflow then pure reader else reader.takeLine
    return ({ taken with line := [], overflow := false },
      reader.line = [] && !reader.overflow)
  else if byte = 13 then return (reader, false)
  else if reader.line.length < lineCapacity then
    return ({ reader with line := reader.line ++ [byte] }, false)
  else return ({ reader with overflow := true }, false)

/-- Reads bytes up to the end of the request. Answers the bytes behind it if it was reached. -/
def feedAll (reader : LineReader) : List UInt8 → Logged (LineReader × Option (List UInt8))
  | [] => return (reader, none)
  | byte :: rest => do
    let (reader, done) ← reader.feed byte
    if done then return (reader, some rest) else reader.feedAll rest

/-- Reads bytes beyond ends of requests too. Answers where those ends are, the first byte being at
`offset`. -/
def feedOn (reader : LineReader) (offset : Nat) : List UInt8 → Logged (LineReader × List Nat)
  | [] => return (reader, [])
  | byte :: rest => do
    let (reader, done) ← reader.feed byte
    let (reader, ends) ← reader.feedOn (offset + 1) rest
    return (reader, if done then offset :: ends else ends)

end LineReader

end BoardNet.WebSocket
