namespace BoardNet.Sha1

/-- The five chaining words. -/
structure State where
  a : UInt32
  b : UInt32
  c : UInt32
  d : UInt32
  e : UInt32
  deriving DecidableEq, Repr

namespace State

def initial : State := ⟨0x67452301, 0xEFCDAB89, 0x98BADCFE, 0x10325476, 0xC3D2E1F0⟩

def add (left right : State) : State :=
  ⟨left.a + right.a, left.b + right.b, left.c + right.c, left.d + right.d, left.e + right.e⟩

end State

/-- A word turned left by `count` bits, `0 < count < 32`. -/
def rotateLeft (word count : UInt32) : UInt32 := word <<< count ||| word >>> (32 - count)

def wordBytes (word : UInt32) : List UInt8 :=
  [(word >>> 24).toUInt8, (word >>> 16).toUInt8, (word >>> 8).toUInt8, word.toUInt8]

/-- The words of some bytes, most significant byte first. -/
def words : List UInt8 → List UInt32
  | a :: b :: c :: d :: rest =>
    (a.toUInt32 <<< 24 ||| b.toUInt32 <<< 16 ||| c.toUInt32 <<< 8 ||| d.toUInt32) :: words rest
  | _ => []

/-- A message followed by one set bit, zeros up to a whole number of blocks, and its length in bits
as a word of eight bytes. -/
def pad (message : List UInt8) : List UInt8 :=
  let zeros := (119 - message.length % 64) % 64
  let bits := (8 * message.length).toUInt64
  let length := wordBytes (bits >>> 32).toUInt32 ++ wordBytes bits.toUInt32
  message ++ (0x80 :: List.replicate zeros 0) ++ length

/-- The eighty words that a block of sixteen is stretched to. -/
def schedule (block : List UInt32) : List UInt32 :=
  ((List.range 64).foldl (fun (stretched : Array UInt32) round =>
    let word (back : Nat) := stretched.getD (round + 16 - back) 0
    stretched.push (rotateLeft (word 3 ^^^ word 8 ^^^ word 14 ^^^ word 16) 1))
    block.toArray).toList

/-- The round function and constant of one round. -/
def mix (round : Nat) (state : State) : UInt32 :=
  if round < 20 then (state.b &&& state.c ||| ~~~state.b &&& state.d) + 0x5A827999
  else if round < 40 then (state.b ^^^ state.c ^^^ state.d) + 0x6ED9EBA1
  else if round < 60 then
    (state.b &&& state.c ||| state.b &&& state.d ||| state.c &&& state.d) + 0x8F1BBCDC
  else (state.b ^^^ state.c ^^^ state.d) + 0xCA62C1D6

def step (state : State) (word : UInt32 × Nat) : State where
  a := rotateLeft state.a 5 + mix word.2 state + state.e + word.1
  b := state.a
  c := rotateLeft state.b 30
  d := state.c
  e := state.d

/-- Mixes one block into the state. -/
def compress (state : State) (block : List UInt32) : State :=
  state.add ((schedule block).zipIdx.foldl step state)

/-- Mixes the blocks of sixteen words into the state, one after the other. -/
def absorb (state : State) (message : List UInt32) : State :=
  match message with
  | [] => state
  | first :: rest =>
    absorb (compress state ((first :: rest).take 16)) (rest.drop 15)
termination_by message.length
decreasing_by simp only [List.length_drop, List.length_cons]; omega

def digest (message : List UInt8) : List UInt8 :=
  let state := absorb .initial (words (pad message))
  wordBytes state.a ++ wordBytes state.b ++ wordBytes state.c ++ wordBytes state.d ++
    wordBytes state.e

/-- A digest has twenty bytes. -/
theorem length_digest (message : List UInt8) : (digest message).length = 20 := rfl

end BoardNet.Sha1
