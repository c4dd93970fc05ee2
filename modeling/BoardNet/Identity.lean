import BoardNet.Address

namespace BoardNet.Identity

/-- First octet of every address of this family of boards. Its second bit marks the address as
locally administered. -/
def vendorOctet : UInt8 := 0x1E

def nameCapacity : Nat := 24

/-- The address of a board: vendor, kind of board, and the twelve bytes of the unique number folded
into four, so that boards made together still differ. -/
def deriveMac (uid : Vector UInt8 12) (board : UInt8) : Mac where
  a := vendorOctet
  b := board
  c := uid[0] ^^^ uid[4] ^^^ uid[8]
  d := uid[1] ^^^ uid[5] ^^^ uid[9]
  e := uid[2] ^^^ uid[6] ^^^ uid[10]
  f := uid[3] ^^^ uid[7] ^^^ uid[11]

/-- The name of a board: its model, a dash, and the last five octets of its address in capital
digits, cut where the next piece would not fit. -/
def deviceName (model : String) (mac : Mac) : String :=
  Text.fitting nameCapacity
    (model :: "-" :: (mac.octets.drop 1).flatMap Text.capitalHexPieces)

end BoardNet.Identity
