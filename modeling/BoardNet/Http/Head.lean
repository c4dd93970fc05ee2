import BoardNet.Log
import BoardNet.Text.Ascii
import BoardNet.Text.Blank
import BoardNet.Text.Bounded
import BoardNet.Text.Digits
import BoardNet.Text.Split

namespace BoardNet.Http

abbrev Code := UInt16

def maxUri : Nat := 128

def maxHeaders : Nat := 16

def maxHeaderName : Nat := 32

def maxHeaderValue : Nat := 96

/-- The request methods that are served. -/
inductive Method where
  | get
  | post
  deriving DecidableEq, Repr

namespace Method

def verb : Method → String
  | .get => "GET"
  | .post => "POST"

/-- The method that a word stands for. -/
def ofVerb? (word : String) : Option Method :=
  if word = Method.get.verb then some .get
  else if word = Method.post.verb then some .post
  else none

end Method

/-- A header line, both parts without the blanks around them. -/
structure Header where
  name : String
  value : String
  deriving DecidableEq, Repr

/-- Headers that no handler looks at; so is every header whose name starts with `accept`. -/
def ignoredHeaders : List String :=
  ["connection", "user-agent", "cache-control", "dnt", "upgrade-insecure-requests"]

def isIgnored (name : String) : Bool :=
  Text.startsIgnoringCase "accept" name || ignoredHeaders.any (Text.sameIgnoringCase name)

/-- What is kept of the head of a request. -/
structure Head where
  method : Method := .get
  uri : String := ""
  headers : List Header := []
  contentLength : Nat := 0
  deriving DecidableEq, Repr

/-- A head as far as it was read, and the status to answer if it is at fault. -/
structure Head.Reading where
  head : Head
  fault : Option Code
  deriving DecidableEq, Repr

namespace Head

/-- Reads a request line: a method, a blank, and a target that begins with a slash. Whatever
follows a second blank is not looked at. -/
def readRequestLine (line : List Char) : Reading :=
  let parts := Text.splitAt ' ' line
  let verb := String.ofList (parts.getD 0 [])
  let target := String.ofList (parts.getD 1 [])
  if verb = "" ∨ target = "" then ⟨{}, some 400⟩
  else match Method.ofVerb? verb with
    | none => ⟨{}, some 405⟩
    | some method =>
      if target.toList.head? = some '/' then
        match Text.bounded? maxUri target with
        | none => ⟨{ method }, some 400⟩
        | some uri => ⟨{ method, uri }, none⟩
      else ⟨{ method }, some 400⟩

/-- Keeps a header, unless it is ignored, too long, or one too many. -/
def keep (head : Head) (header : Header) : Logged Head := do
  if isIgnored header.name then return head
  else if header.name.utf8ByteSize ≤ maxHeaderName ∧
      header.value.utf8ByteSize ≤ maxHeaderValue then
    if head.headers.length < maxHeaders then
      return { head with headers := head.headers ++ [header] }
    else
      .note .debug s!"http: header table full, {header.name} dropped"
      return head
  else
    .note .debug s!"http: header {header.name} too long, dropped"
    return head

/-- The length that a header line states, if it is about the length; otherwise the one stated
before. -/
def statedLength? (header : Header) (before : Nat) : Option Nat :=
  if Text.sameIgnoringCase header.name "content-length" then Text.readWord? header.value
  else some before

/-- Reads header lines after the request line. A line without a colon is skipped. The length of the
body is the one stated last, and counts only if no line is at fault. -/
def readHeaders (head : Head) (length : Nat) : List (List Char) → Logged Reading
  | [] => return ⟨{ head with contentLength := length }, none⟩
  | line :: lines =>
    match Text.cutAt? ':' line with
    | none => readHeaders head length lines
    | some (name, value) =>
      let header : Header :=
        ⟨String.ofList (Text.trimBlanks name), String.ofList (Text.trimBlanks value)⟩
      match statedLength? header length with
      | none => return ⟨head, some 400⟩
      | some length => do
        let head ← head.keep header
        readHeaders head length lines

/-- Reads a head, given without the blank line that ends it. -/
def read (text : String) : Logged Reading :=
  let lines := Text.splitLines text.toList
  let first := readRequestLine (lines.headD [])
  match first.fault with
  | some _ => return first
  | none => readHeaders first.head 0 lines.tail

end Head

end BoardNet.Http
