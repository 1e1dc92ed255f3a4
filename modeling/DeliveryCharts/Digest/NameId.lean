import DeliveryCharts.Digest.Sha1
import DeliveryCharts.Text.Numeral

/-!
Identifiers of 128 bits made from a name and a namespace (version 5): the first sixteen bytes of
the digest of both, with the version and the variant marked.
-/

namespace DeliveryCharts.Digest

/-- Bytes 6 and 8 carry the version and the variant. -/
def mark (i : Nat) (b : UInt8) : UInt8 :=
  if i = 6 then (b &&& 0x0F) ||| 0x50
  else if i = 8 then (b &&& 0x3F) ||| 0x80
  else b

def nameId (space name : List UInt8) : List UInt8 :=
  ((sha1 (space ++ name)).take 16).zipIdx.map fun p ↦ mark p.2 p.1

def hexByte (b : UInt8) : List Char := Text.padded 2 (Text.digits 16 b.toNat)

/-- Groups of 4, 2, 2, 2 and 6 bytes in hexadecimal. -/
def idText (id : List UInt8) : List Char :=
  let group := fun start size ↦ ((id.drop start).take size).flatMap hexByte
  group 0 4 ++ '-' :: group 4 2 ++ '-' :: group 6 2 ++ '-' :: group 8 2 ++ '-' :: group 10 6

end DeliveryCharts.Digest
