import OptimismZap.Library.FixedBytes

/-!
# Keccak-256

The hash function of the virtual machine, as a computable function on byte
strings: the permutation Keccak-f[1600] in the sponge construction with a rate
of 136 bytes, the original padding and 32 bytes of output.

Statements about digests take the hash function as a parameter and are true of
any function; this one is the instance at which such statements are tried.  A
state is the list of its 25 lanes, the lane of column `x` and row `y` at index
`x + 5 * y`, and a lane is a number below `2 ^ 64`.
-/

namespace OptimismZap
namespace Keccak

/-! ## The permutation -/

/-- Rotation of a lane towards its high bits. -/
def rotateLeft (x n : ℕ) : ℕ :=
  Nat.mod (Nat.lor (Nat.shiftLeft x n) (Nat.shiftRight x (Nat.sub 64 n))) 18446744073709551616

/-- The step χ on one lane: `a` with the next lane's complement and the one after. -/
def chiLane (a b c : ℕ) : ℕ := Nat.xor a (Nat.land (Nat.xor 0xFFFFFFFFFFFFFFFF b) c)

/-- The parity of a column. -/
def parity (a b c d e : ℕ) : ℕ := Nat.xor a (Nat.xor b (Nat.xor c (Nat.xor d e)))

/-- The step θ: each lane absorbs the parities of the two columns next to its
own. -/
def theta : List ℕ → List ℕ
  | [a0, a1, a2, a3, a4, a5, a6, a7, a8, a9, a10, a11, a12, a13, a14, a15, a16, a17, a18, a19,
      a20, a21, a22, a23, a24] =>
    let c0 := parity a0 a5 a10 a15 a20
    let c1 := parity a1 a6 a11 a16 a21
    let c2 := parity a2 a7 a12 a17 a22
    let c3 := parity a3 a8 a13 a18 a23
    let c4 := parity a4 a9 a14 a19 a24
    let d0 := Nat.xor c4 (rotateLeft c1 1)
    let d1 := Nat.xor c0 (rotateLeft c2 1)
    let d2 := Nat.xor c1 (rotateLeft c3 1)
    let d3 := Nat.xor c2 (rotateLeft c4 1)
    let d4 := Nat.xor c3 (rotateLeft c0 1)
    [Nat.xor a0 d0, Nat.xor a1 d1, Nat.xor a2 d2, Nat.xor a3 d3, Nat.xor a4 d4,
     Nat.xor a5 d0, Nat.xor a6 d1, Nat.xor a7 d2, Nat.xor a8 d3, Nat.xor a9 d4,
     Nat.xor a10 d0, Nat.xor a11 d1, Nat.xor a12 d2, Nat.xor a13 d3, Nat.xor a14 d4,
     Nat.xor a15 d0, Nat.xor a16 d1, Nat.xor a17 d2, Nat.xor a18 d3, Nat.xor a19 d4,
     Nat.xor a20 d0, Nat.xor a21 d1, Nat.xor a22 d2, Nat.xor a23 d3, Nat.xor a24 d4]
  | s => s

/-- The steps ρ and π: lanes are rotated and moved. -/
def rhoPi : List ℕ → List ℕ
  | [a0, a1, a2, a3, a4, a5, a6, a7, a8, a9, a10, a11, a12, a13, a14, a15, a16, a17, a18, a19,
      a20, a21, a22, a23, a24] =>
    [a0, rotateLeft a6 44, rotateLeft a12 43, rotateLeft a18 21, rotateLeft a24 14,
     rotateLeft a3 28, rotateLeft a9 20, rotateLeft a10 3, rotateLeft a16 45, rotateLeft a22 61,
     rotateLeft a1 1, rotateLeft a7 6, rotateLeft a13 25, rotateLeft a19 8, rotateLeft a20 18,
     rotateLeft a4 27, rotateLeft a5 36, rotateLeft a11 10, rotateLeft a17 15, rotateLeft a23 56,
     rotateLeft a2 62, rotateLeft a8 55, rotateLeft a14 39, rotateLeft a15 41, rotateLeft a21 2]
  | s => s

/-- The steps χ, on each row, and ι, which adds the round constant to the first
lane. -/
def chiIota (rc : ℕ) : List ℕ → List ℕ
  | [a0, a1, a2, a3, a4, a5, a6, a7, a8, a9, a10, a11, a12, a13, a14, a15, a16, a17, a18, a19,
      a20, a21, a22, a23, a24] =>
    [Nat.xor rc (chiLane a0 a1 a2), chiLane a1 a2 a3, chiLane a2 a3 a4, chiLane a3 a4 a0,
     chiLane a4 a0 a1,
     chiLane a5 a6 a7, chiLane a6 a7 a8, chiLane a7 a8 a9, chiLane a8 a9 a5, chiLane a9 a5 a6,
     chiLane a10 a11 a12, chiLane a11 a12 a13, chiLane a12 a13 a14, chiLane a13 a14 a10,
     chiLane a14 a10 a11,
     chiLane a15 a16 a17, chiLane a16 a17 a18, chiLane a17 a18 a19, chiLane a18 a19 a15,
     chiLane a19 a15 a16,
     chiLane a20 a21 a22, chiLane a21 a22 a23, chiLane a22 a23 a24, chiLane a23 a24 a20,
     chiLane a24 a20 a21]
  | s => s

/-- The round constants. -/
def roundConstants : List ℕ :=
  [0x1, 0x8082, 0x800000000000808A, 0x8000000080008000, 0x808B, 0x80000001,
   0x8000000080008081, 0x8000000000008009, 0x8A, 0x88, 0x80008009, 0x8000000A,
   0x8000808B, 0x800000000000008B, 0x8000000000008089, 0x8000000000008003,
   0x8000000000008002, 0x8000000000000080, 0x800A, 0x800000008000000A,
   0x8000000080008081, 0x8000000000008080, 0x80000001, 0x8000000080008008]

/-- Keccak-f[1600]. -/
def permutation (s : List ℕ) : List ℕ :=
  roundConstants.foldl (fun s rc => chiIota rc (rhoPi (theta s))) s

/-! ## The sponge -/

/-- The lanes of a string of `8 * n` bytes, least significant byte first. -/
def lanes : ℕ → Bytes → List ℕ
  | 0, _ => []
  | n + 1, l => bigEndian (l.take 8).reverse :: lanes n (l.drop 8)

/-- The message followed by `0x01`, zeros and a final `0x80`, up to a multiple of
136 bytes; with one byte missing the two marks share it. -/
def pad (l : Bytes) : Bytes :=
  let missing := 136 - l.length % 136
  if missing = 1 then l ++ [0x81] else l ++ [0x01] ++ List.replicate (missing - 2) 0 ++ [0x80]

/-- Absorbs `n` blocks. -/
def absorb : ℕ → Bytes → List ℕ → List ℕ
  | 0, _, s => s
  | n + 1, l, s =>
    let block := lanes 17 (l.take 136) ++ List.replicate 8 0
    absorb n (l.drop 136) (permutation (List.zipWith (· ^^^ ·) s block))

/-- The first four lanes of the final state, written out. -/
def squeeze (s : List ℕ) : Bytes := (s.take 4).flatMap fun x => (toBigEndian 8 x).reverse

end Keccak

/-- Keccak-256. -/
def keccak256 (l : Bytes) : FixedBytes 32 :=
  let padded := Keccak.pad l
  let final := Keccak.absorb (padded.length / 136) padded (List.replicate 25 0)
  FixedBytes.ofBytes 32 (Keccak.squeeze final)

-- the digest of the empty string
example : keccak256 [] = FixedBytes.ofNat 32
    0xC5D2460186F7233C927E7DB2DCC703C0E500B653CA82273B7BFAD8045D85A470 := by decide +kernel

end OptimismZap
