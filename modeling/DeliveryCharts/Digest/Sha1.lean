import DeliveryCharts.Width

/-!
The digest SHA-1 of a sequence of bytes, twenty bytes long.
-/

namespace DeliveryCharts.Digest

structure State where
  a : UInt32
  b : UInt32
  c : UInt32
  d : UInt32
  e : UInt32
  deriving DecidableEq, Repr

def State.start : State := ⟨0x67452301, 0xEFCDAB89, 0x98BADCFE, 0x10325476, 0xC3D2E1F0⟩

def rotate (x : UInt32) (n : UInt32) : UInt32 := (x <<< n) ||| (x >>> (32 - n))

/-- The bytes, a one bit, zeros to fill a block, and the number of bits in eight bytes. -/
def pad (bytes : List UInt8) : List UInt8 :=
  let zeros := (119 - bytes.length % 64) % 64
  let bits := bytes.length * 8
  bytes ++ 0x80 :: List.replicate zeros 0 ++
    (List.range 8).map fun i ↦ .ofNat (bits / twoPow (8 * (7 - i)) % 256)

def wordsOf : List UInt8 → List UInt32
  | a :: b :: c :: d :: rest =>
    ((a.toUInt32 <<< 24) ||| (b.toUInt32 <<< 16) ||| (c.toUInt32 <<< 8) ||| d.toUInt32) ::
      wordsOf rest
  | _ => []

/-- The schedule of a block, latest word first: sixty-four words follow the sixteen of the block. -/
def schedule (block : List UInt32) : List UInt32 :=
  (go 64 block.reverse).reverse
where
  go : Nat → List UInt32 → List UInt32
    | 0, ws => ws
    | n + 1, ws =>
      let next := rotate (ws.getD 2 0 ^^^ ws.getD 7 0 ^^^ ws.getD 13 0 ^^^ ws.getD 15 0) 1
      go n (next :: ws)

def round (s : State) (t : Nat) (w : UInt32) : State :=
  let (f, k) : UInt32 × UInt32 :=
    if t < 20 then ((s.b &&& s.c) ||| (~~~s.b &&& s.d), 0x5A827999)
    else if t < 40 then (s.b ^^^ s.c ^^^ s.d, 0x6ED9EBA1)
    else if t < 60 then ((s.b &&& s.c) ||| (s.b &&& s.d) ||| (s.c &&& s.d), 0x8F1BBCDC)
    else (s.b ^^^ s.c ^^^ s.d, 0xCA62C1D6)
  ⟨rotate s.a 5 + f + s.e + k + w, s.a, rotate s.b 30, s.c, s.d⟩

def State.add (s t : State) : State := ⟨s.a + t.a, s.b + t.b, s.c + t.c, s.d + t.d, s.e + t.e⟩

def block (s : State) (ws : List UInt32) : State :=
  s.add ((schedule ws).zipIdx.foldl (fun t w ↦ round t w.2 w.1) s)

def blocks (s : State) : Nat → List UInt32 → State
  | 0, _ => s
  | _, [] => s
  | fuel + 1, ws => blocks (block s (ws.take 16)) fuel (ws.drop 16)

def wordBytes (w : UInt32) : List UInt8 :=
  [(w >>> 24).toUInt8, (w >>> 16).toUInt8, (w >>> 8).toUInt8, w.toUInt8]

def sha1 (bytes : List UInt8) : List UInt8 :=
  let ws := wordsOf (pad bytes)
  let s := blocks .start ws.length ws
  [s.a, s.b, s.c, s.d, s.e].flatMap wordBytes

end DeliveryCharts.Digest
