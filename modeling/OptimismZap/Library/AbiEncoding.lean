import OptimismZap.Library.FixedBytes

/-!
# The ABI encoding of static values

`abi.encode` of values of static type is the concatenation of one 32-byte word
for each value; a struct of static members is encoded as its members are.  Byte
strings of a fixed width sit at the left end of their word, addresses and
numbers at the right end.

Every word is 32 bytes long, so an encoding determines how many values it
encodes (`length_abiEncode`) and, position by position, the word of each of them
(`abiEncode_cons_inj`); and at one type a word determines its value
(`encode_fixedBytes_inj`, `encode_address_inj`, `encode_uint256_inj`).
-/

namespace OptimismZap

/-- `bytes32`. -/
abbrev Bytes32 := FixedBytes 32

/-- `bytes4`. -/
abbrev Bytes4 := FixedBytes 4

/-- `address`. -/
abbrev Address := FixedBytes 20

/-- `uint256`. -/
abbrev Uint256 := BitVec 256

/-- The bytes of a string literal. -/
def utf8 (s : String) : Bytes := s.toUTF8.data.toList

/-- `uint256(b)` for a `bytes32`. -/
def uint256 (b : Bytes32) : Uint256 := BitVec.ofNat 256 b.toNat

theorem uint256_injective : Function.Injective uint256 := by
  intro a b h
  have ha : a.toNat < 2 ^ 256 := a.toNat_lt
  have hb : b.toNat < 2 ^ 256 := b.toNat_lt
  have hab := congrArg BitVec.toNat h
  simp only [uint256, BitVec.toNat_ofNat, Nat.mod_eq_of_lt ha, Nat.mod_eq_of_lt hb] at hab
  exact FixedBytes.toNat_injective hab

/-! ## One value, one word -/

/-- A value of static type. -/
inductive AbiValue where
  /-- `bytesN` for `N` at most 32. -/
  | fixedBytes {n : ℕ} (hn : n ≤ 32) (b : FixedBytes n)
  /-- `address`. -/
  | address (a : Address)
  /-- `uint256`. -/
  | uint256 (k : Uint256)

namespace AbiValue

/-- A `bytes32` among the values. -/
def bytes32 (b : Bytes32) : AbiValue := .fixedBytes le_rfl b

/-- A `bytes4` among the values. -/
def bytes4 (b : Bytes4) : AbiValue := .fixedBytes (by decide) b

/-- The word of a value: fixed byte strings padded on the right, addresses and
numbers on the left. -/
def encode : AbiValue → Bytes
  | @fixedBytes n _ b => b.bytes ++ List.replicate (32 - n) 0
  | address a => List.replicate 12 0 ++ a.bytes
  | uint256 k => (FixedBytes.ofNat 32 k.toNat).bytes

@[simp] theorem length_encode (v : AbiValue) : v.encode.length = 32 := by
  cases v with
  | fixedBytes hn b => simp [encode, hn]
  | address a => simp [encode]
  | uint256 k => simp [encode]

@[simp] theorem encode_fixedBytes_inj {n : ℕ} {hn hn' : n ≤ 32} {a b : FixedBytes n} :
    (fixedBytes hn a).encode = (fixedBytes hn' b).encode ↔ a = b := by
  simp [encode, FixedBytes.ext_iff]

@[simp] theorem encode_bytes32_inj {a b : Bytes32} :
    (bytes32 a).encode = (bytes32 b).encode ↔ a = b := encode_fixedBytes_inj

@[simp] theorem encode_bytes4_inj {a b : Bytes4} :
    (bytes4 a).encode = (bytes4 b).encode ↔ a = b := encode_fixedBytes_inj

@[simp] theorem encode_address_inj {a b : Address} :
    (address a).encode = (address b).encode ↔ a = b := by
  simp [encode, FixedBytes.ext_iff]

@[simp] theorem encode_uint256_inj {j k : Uint256} :
    (uint256 j).encode = (uint256 k).encode ↔ j = k := by
  constructor
  · intro h
    have hj : j.toNat < 256 ^ 32 := j.isLt
    have hk : k.toNat < 256 ^ 32 := k.isLt
    have hjk := congrArg FixedBytes.toNat (FixedBytes.ext h)
    rw [FixedBytes.toNat_ofNat hj, FixedBytes.toNat_ofNat hk] at hjk
    exact BitVec.eq_of_toNat_eq hjk
  · rintro rfl
    rfl

end AbiValue

/-! ## Sequences of values -/

/-- `abi.encode` of values of static type. -/
def abiEncode (vs : List AbiValue) : Bytes := vs.flatMap AbiValue.encode

@[simp] theorem length_abiEncode (vs : List AbiValue) :
    (abiEncode vs).length = 32 * vs.length := by
  induction vs with
  | nil => rfl
  | cons v vs ih =>
    rw [abiEncode, List.flatMap_cons, List.length_append, AbiValue.length_encode, ← abiEncode, ih,
      List.length_cons]
    ring

/-- Encodings are compared word by word. -/
@[simp] theorem abiEncode_cons_inj {v w : AbiValue} {vs ws : List AbiValue} :
    abiEncode (v :: vs) = abiEncode (w :: ws) ↔
      v.encode = w.encode ∧ abiEncode vs = abiEncode ws := by
  unfold abiEncode
  rw [List.flatMap_cons, List.flatMap_cons]
  constructor
  · intro h
    exact List.append_inj h (by simp)
  · rintro ⟨hv, hvs⟩
    rw [hv]
    exact congrArg _ hvs

end OptimismZap
