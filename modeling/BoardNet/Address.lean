import BoardNet.Text.Bounded
import BoardNet.Text.Digits

namespace BoardNet

structure Ipv4 where
  a : UInt8
  b : UInt8
  c : UInt8
  d : UInt8
  deriving DecidableEq, Repr, Inhabited

namespace Ipv4

/-- The address that stands for having none. -/
def unspecified : Ipv4 := ⟨0, 0, 0, 0⟩

def octets (ip : Ipv4) : List UInt8 := [ip.a, ip.b, ip.c, ip.d]

def pieces (ip : Ipv4) : List String :=
  [Text.decimal ip.a.toNat, ".", Text.decimal ip.b.toNat, ".", Text.decimal ip.c.toNat, ".",
    Text.decimal ip.d.toNat]

/-- The dotted decimal form, in the fifteen bytes that the longest one takes. -/
def text (ip : Ipv4) : String := Text.fitting 15 ip.pieces

instance : ToString Ipv4 := ⟨text⟩

end Ipv4

/-- The hardware address of a network controller. -/
structure Mac where
  a : UInt8
  b : UInt8
  c : UInt8
  d : UInt8
  e : UInt8
  f : UInt8
  deriving DecidableEq, Repr, Inhabited

namespace Mac

def octets (mac : Mac) : List UInt8 := [mac.a, mac.b, mac.c, mac.d, mac.e, mac.f]

/-- The pieces of the text form, colons between the octets. -/
def pieces (mac : Mac) : List String :=
  [":"].intercalate (mac.octets.map Text.hexPieces)

/-- The octets in small hexadecimal digits with colons between, in seventeen bytes. -/
def text (mac : Mac) : String := Text.fitting 17 mac.pieces

end Mac

end BoardNet
