import IstanbulMonitor.Bytes.Fixed

/-!
# Keccak-256

The sponge over the permutation `permute` of a 5 by 5 square of 64-bit lanes,
with a rate of 136 bytes, a 32-byte digest and the padding that starts with the
byte `0x01`. The main definition is `keccak256`.
-/

set_option autoImplicit false

namespace IstanbulMonitor.Keccak

/-- The lanes of the square, row by row: lane `(x, y)` stands at `x + 5 * y`. -/
abbrev Lanes := Array UInt64

/-- The lane in column `x` and row `y`, both taken modulo five. -/
def lane (a : Lanes) (x y : Nat) : UInt64 :=
  a.getD (x % 5 + 5 * (y % 5)) 0

/-- The square whose lane at each place is given by a function of column and row. -/
def build (f : Nat → Nat → UInt64) : Lanes :=
  Array.ofFn fun i : Fin 25 => f (i.val % 5) (i.val / 5)

/-- Rotation to the left, for an amount below 64. -/
def rotate (w : UInt64) (n : Nat) : UInt64 :=
  if n = 0 then w else (w <<< UInt64.ofNat n) ||| (w >>> UInt64.ofNat (64 - n))

/-- Rotation amounts, row by row. -/
def offsets : Array Nat :=
  #[0, 1, 62, 28, 27,
    36, 44, 6, 55, 20,
    3, 10, 43, 25, 39,
    41, 45, 15, 21, 8,
    18, 2, 61, 56, 14]

/-- The constant each round adds to the first lane. -/
def roundConstants : List UInt64 :=
  [0x0000000000000001, 0x0000000000008082, 0x800000000000808a, 0x8000000080008000,
   0x000000000000808b, 0x0000000080000001, 0x8000000080008081, 0x8000000000008009,
   0x000000000000008a, 0x0000000000000088, 0x0000000080008009, 0x000000008000000a,
   0x000000008000808b, 0x800000000000008b, 0x8000000000008089, 0x8000000000008003,
   0x8000000000008002, 0x8000000000000080, 0x000000000000800a, 0x800000008000000a,
   0x8000000080008081, 0x8000000000008080, 0x0000000080000001, 0x8000000080008008]

/-- Every lane takes in the parities of two neighbouring columns. -/
def theta (a : Lanes) : Lanes :=
  let parity := Array.ofFn fun x : Fin 5 =>
    lane a x 0 ^^^ lane a x 1 ^^^ lane a x 2 ^^^ lane a x 3 ^^^ lane a x 4
  let column := Array.ofFn fun x : Fin 5 =>
    parity.getD ((x.val + 4) % 5) 0 ^^^ rotate (parity.getD ((x.val + 1) % 5) 0) 1
  build fun x y => lane a x y ^^^ column.getD x 0

/-- Lanes are rotated and moved: the lane at `(x, y)` comes from `(x + 3 * y, x)`. -/
def rhoPi (a : Lanes) : Lanes :=
  build fun x y =>
    let source := (x + 3 * y) % 5
    rotate (lane a source x) (offsets.getD (source + 5 * x) 0)

/-- Every lane takes in a product of the two lanes to its right. -/
def chi (a : Lanes) : Lanes :=
  build fun x y => lane a x y ^^^ ((~~~ lane a (x + 1) y) &&& lane a (x + 2) y)

/-- One round. -/
def round (a : Lanes) (constant : UInt64) : Lanes :=
  (chi (rhoPi (theta a))).modify 0 (· ^^^ constant)

/-- The permutation of 24 rounds. -/
def permute (a : Lanes) : Lanes :=
  roundConstants.foldl round a

/-- Bytes absorbed before each permutation. -/
def rate : Nat := 136

/-- The number that up to eight bytes denote, least significant first. -/
def littleEndian (bytes : Bytes) : UInt64 :=
  bytes.foldr (fun b acc => (acc <<< 8) ||| b.toUInt64) 0

/-- The eight bytes of a lane, least significant first. -/
def laneBytes (w : UInt64) : Bytes :=
  (List.range 8).map fun i => (w >>> UInt64.ofNat (8 * i)).toUInt8

/-- A block added to the first lanes of the square. -/
def absorb (a : Lanes) (block : Bytes) : Lanes :=
  let words := Array.ofFn fun i : Fin 17 => littleEndian ((block.drop (8 * i.val)).take 8)
  permute (Array.ofFn fun i : Fin 25 => a.getD i.val 0 ^^^ words.getD i.val 0)

/-- The message followed by a byte `0x01`, zeros, and a last bit, up to a multiple of the rate. -/
def pad (message : Bytes) : Bytes :=
  let gap := rate - message.length % rate
  if gap = 1 then message ++ [0x81]
  else message ++ 0x01 :: List.replicate (gap - 2) 0 ++ [0x80]

/-- The first `count` blocks of a padded message, absorbed in order. -/
def absorbAll : Nat → Bytes → Lanes → Lanes
  | 0, _, a => a
  | count + 1, bytes, a => absorbAll count (bytes.drop rate) (absorb a (bytes.take rate))

/-- The Keccak-256 digest. -/
def keccak256 (message : Bytes) : Hash :=
  let padded := pad message
  let lanes := absorbAll (padded.length / rate) padded (Array.replicate 25 0)
  FixedBytes.ofStart 32 ((List.range 4).flatMap fun i => laneBytes (lanes.getD i 0))

end IstanbulMonitor.Keccak
