import OptimismZap.Contract.Series
import OptimismZap.Library.HexStrings

/-!
# `OptimismZapContractActions.ts`

The package lets its users mint with numbers.  The contract knows no numbers of
this kind: a total and a serial number are four bytes each, compared as bytes.
`bytes4ify` leads from one to the other in two steps of `ethers`, and the contract
object takes a third when it encodes its arguments.  These functions are
parameters (`Ethers`), and what is known of them is `Ethers.Documented`.

Every integer that four bytes can hold arrives as itself, so the comparisons of
the contract are those of the integers, and for any other integer the wrapper
throws and no call is made (`numbers_arrive`).  Together with what the contract
does with the bytes this gives the fate of a mint in terms of the numbers
(`mint_goes_through_iff`).
-/

namespace OptimismZap
namespace ContractActions

open HexDigits

/-! ## What the package uses of `ethers` -/

/-- A function call that throws. -/
def Throws {α : Type} (r : Except String α) : Prop := ∃ message, r = .error message

/-- `BytesLike`. -/
inductive BytesLike where
  | string (s : String)
  | array (bytes : Bytes)

/-- The functions of `ethers` between a number and the bytes in a transaction. -/
structure Ethers where
  /-- `hexlify` of an integer. -/
  hexlify : ℤ → Except String String
  /-- `hexZeroPad` of a string. -/
  hexZeroPad : String → ℕ → Except String String
  /-- The coder of the contract object for arguments of `n` bytes. -/
  encodeFixedBytes : (n : ℕ) → BytesLike → Except String (FixedBytes n)

/-- What is documented about them. -/
structure Ethers.Documented (E : Ethers) : Prop where
  /-- A number that is negative or not safe is refused. -/
  hexlify_throws : ∀ n : ℤ, n < 0 ∨ 2 ^ 53 - 1 ≤ n → Throws (E.hexlify n)
  /-- Any other is written low digit by low digit and made up to whole bytes. -/
  hexlify_natCast : ∀ n : ℕ, n < 2 ^ 53 - 1 →
    E.hexlify n = .ok (hexString (wholeBytes (prependDigits n [])))
  /-- A string that is too long is refused. -/
  hexZeroPad_throws : ∀ l width, 2 * width < l.length → Throws (E.hexZeroPad (hexString l) width)
  /-- Any other is padded on the left. -/
  hexZeroPad_hexString : ∀ l width, l.length ≤ 2 * width →
    E.hexZeroPad (hexString l) width = .ok (hexString (l.leftpad (2 * width) 0))
  /-- A string of the right length is sent as the bytes it spells. -/
  encodeFixedBytes_hexString : ∀ l n (h : l.length = 2 * n),
    E.encodeFixedBytes n (.string (hexString l)) = .ok ⟨toBytes l, length_toBytes h⟩

/-- The functions as version 5 has them. -/
def Ethers.v5 : Ethers where
  hexlify n :=
    if n < 0 ∨ 2 ^ 53 - 1 ≤ n then .error "invalid hexlify value"
    else .ok (hexString (wholeBytes (prependDigits n.toNat [])))
  hexZeroPad s width :=
    match ofHexString s with
    | none => .error "invalid hex string"
    | some _ =>
      let digits := s.toList.drop 2
      if 2 * width < digits.length then .error "value out of range"
      else .ok ("0x" ++ String.ofList (digits.leftpad (2 * width) '0'))
  encodeFixedBytes n
    | .array bytes =>
      if h : bytes.length = n then .ok ⟨bytes, h⟩ else .error "incorrect data length"
    | .string s =>
      match ofHexString s with
      | none => .error "invalid arrayify value"
      | some l =>
        if h : l.length = 2 * n then .ok ⟨toBytes l, length_toBytes h⟩
        else if l.length % 2 = 1 then .error "hex data is odd-length"
        else .error "incorrect data length"

theorem Ethers.documented_v5 : Ethers.v5.Documented where
  hexlify_throws n h := ⟨_, if_pos h⟩
  hexlify_natCast n h := by
    have hsafe : ¬ ((n : ℤ) < 0 ∨ 2 ^ 53 - 1 ≤ (n : ℤ)) := by omega
    simp only [Ethers.v5, if_neg hsafe, Int.toNat_natCast]
  hexZeroPad_throws l width h := by
    refine ⟨"value out of range", ?_⟩
    simp [Ethers.v5, ofHexString_hexString, toList_hexString, h]
  hexZeroPad_hexString l width h := by
    rw [hexString_leftpad]
    simp [Ethers.v5, ofHexString_hexString, toList_hexString, Nat.not_lt.mpr h]
  encodeFixedBytes_hexString l n h := by
    simp [Ethers.v5, ofHexString_hexString, h]

/-! ## The functions of the package -/

/-- The contract object, as far as the package calls it, with methods that return a `τ`. -/
structure ZapContract (τ : Type) where
  mintByOwnerForOwner : BytesLike → BytesLike → BytesLike → τ

section Functions

variable (E : Ethers)

/-- The contract object of `ethers`: it encodes the arguments and sends them to the function. -/
def Ethers.connect : ZapContract (Except String Zap.Op) where
  mintByOwnerForOwner ipfsHash seriesTotal serialNumber := do
    let ipfsHash ← E.encodeFixedBytes 32 ipfsHash
    let seriesTotal ← E.encodeFixedBytes 4 seriesTotal
    let serialNumber ← E.encodeFixedBytes 4 serialNumber
    return .mintByOwnerForOwner ipfsHash seriesTotal serialNumber

/-- `bytes4ify`. -/
def bytes4ify (givenNumber : ℤ) : Except String String := do
  let hex ← E.hexlify givenNumber
  E.hexZeroPad hex 4

/-- `mintByOwnerForOwner`. -/
def mintByOwnerForOwner {τ : Type} (zapContract : ZapContract τ) (ipfsHash : BytesLike)
    (seriesTotal serialNumber : ℤ) : Except String τ := do
  -- the arguments come first: when one of them throws, no call is made
  let seriesTotal ← bytes4ify E seriesTotal
  let serialNumber ← bytes4ify E serialNumber
  return zapContract.mintByOwnerForOwner ipfsHash (.string seriesTotal) (.string serialNumber)

end Functions

/-! ## Numbers become bytes -/

section Conversion

variable {E : Ethers} {n m : ℤ}

/-- An integer that four bytes can hold. -/
def Fits (n : ℤ) : Prop := 0 ≤ n ∧ n < 2 ^ 32

instance (n : ℤ) : Decidable (Fits n) := inferInstanceAs (Decidable (0 ≤ n ∧ n < 2 ^ 32))

theorem Throws.bind {α β : Type} {r : Except String α} (h : Throws r)
    (f : α → Except String β) : Throws (r >>= f) := by
  obtain ⟨message, rfl⟩ := h
  exact ⟨message, rfl⟩

theorem not_throws_ok {α : Type} (a : α) : ¬ Throws (Except.ok a : Except String α) := by
  rintro ⟨message, h⟩
  cases h

/-- **An integer that four bytes can hold is written with eight digits.** -/
theorem bytes4ify_eq_ok (hE : E.Documented) (h : Fits n) :
    ∃ l : HexDigits, l.length = 2 * 4 ∧ (l.value : ℤ) = n ∧
      bytes4ify E n = .ok (hexString l) := by
  obtain ⟨hnonneg, hlt⟩ := h
  lift n to ℕ using hnonneg
  have hlength : (wholeBytes (prependDigits n [])).length ≤ 2 * 4 :=
    (length_wholeBytes_prependDigits_le_iff (by decide)).mpr (by omega)
  refine ⟨(wholeBytes (prependDigits n [])).leftpad (2 * 4) 0, length_leftpad hlength, ?_, ?_⟩
  · rw [value_leftpad, value_wholeBytes, value_prependDigits]
  · unfold bytes4ify
    rw [hE.hexlify_natCast n (by omega)]
    exact hE.hexZeroPad_hexString _ 4 hlength

-- three digits, made up to two bytes and then padded to four
example : bytes4ify Ethers.v5 (420 : ℕ) = .ok "0x000001a4" := by
  unfold bytes4ify
  rw [Ethers.documented_v5.hexlify_natCast 420 (by decide), prependDigits_eq]
  decide +kernel

/-- **Any other integer is refused**: by `hexlify` where there are no digits for it, and by
`hexZeroPad` where there are too many. -/
theorem throws_bytes4ify (hE : E.Documented) (h : ¬ Fits n) : Throws (bytes4ify E n) := by
  unfold Fits at h
  by_cases hsafe : n < 0 ∨ 2 ^ 53 - 1 ≤ n
  · exact (hE.hexlify_throws n hsafe).bind _
  · have hnonneg : 0 ≤ n := by omega
    lift n to ℕ using hnonneg
    have hlength : 2 * 4 < (wholeBytes (prependDigits n [])).length := by
      rw [← not_le, length_wholeBytes_prependDigits_le_iff (by decide)]
      omega
    unfold bytes4ify
    rw [hE.hexlify_natCast n (by omega)]
    exact hE.hexZeroPad_throws _ 4 hlength

/-- **The bytes sent for a number spell it.** -/
theorem exists_bytes4 (hE : E.Documented) (h : Fits n) :
    ∃ (s : String) (b : Bytes4), bytes4ify E n = .ok s ∧
      E.encodeFixedBytes 4 (.string s) = .ok b ∧ (b.toNat : ℤ) = n := by
  obtain ⟨l, hlength, hvalue, heq⟩ := bytes4ify_eq_ok hE h
  refine ⟨hexString l, _, heq, hE.encodeFixedBytes_hexString l 4 hlength, ?_⟩
  rw [← hvalue]
  exact congrArg Nat.cast (bigEndian_toBytes hlength)

/-- The call the wrapper makes when there are eight digits for both numbers. -/
theorem mintByOwnerForOwner_eq {τ : Type} {zapContract : ZapContract τ} {ipfsHash : BytesLike}
    {s t : String} (hs : bytes4ify E n = .ok s) (ht : bytes4ify E m = .ok t) :
    mintByOwnerForOwner E zapContract ipfsHash n m =
      .ok (zapContract.mintByOwnerForOwner ipfsHash (.string s) (.string t)) := by
  unfold mintByOwnerForOwner
  rw [hs, ht]
  rfl

/-- What the contract object sends when it can encode the last two arguments. -/
theorem connect_mintByOwnerForOwner {ipfsHash total serial : BytesLike}
    {seriesTotal serialNumber : Bytes4} (htotal : E.encodeFixedBytes 4 total = .ok seriesTotal)
    (hserial : E.encodeFixedBytes 4 serial = .ok serialNumber) :
    E.connect.mintByOwnerForOwner ipfsHash total serial =
      (E.encodeFixedBytes 32 ipfsHash).map fun hash =>
        .mintByOwnerForOwner hash seriesTotal serialNumber := by
  simp only [Ethers.connect, htotal, hserial]
  cases E.encodeFixedBytes 32 ipfsHash with
  | error message => rfl
  | ok hash => rfl

/-- The wrapper throws when one of the two numbers does not fit. -/
theorem throws_mintByOwnerForOwner_iff (hE : E.Documented) {τ : Type}
    (zapContract : ZapContract τ) (ipfsHash : BytesLike) :
    Throws (mintByOwnerForOwner E zapContract ipfsHash n m) ↔ ¬ (Fits n ∧ Fits m) := by
  by_cases hn : Fits n
  · obtain ⟨s, -, hs, -⟩ := exists_bytes4 hE hn
    by_cases hm : Fits m
    · obtain ⟨t, -, ht, -⟩ := exists_bytes4 hE hm
      rw [mintByOwnerForOwner_eq hs ht]
      exact iff_of_false (not_throws_ok _) (not_not.mpr ⟨hn, hm⟩)
    · unfold mintByOwnerForOwner
      rw [hs]
      exact iff_of_true ((throws_bytes4ify hE hm).bind _) fun h => hm h.2
  · exact iff_of_true ((throws_bytes4ify hE hn).bind _) fun h => hn h.1

/-- What is sent when both numbers fit. -/
theorem exists_sent (hE : E.Documented) (hn : Fits n) (hm : Fits m) (ipfsHash : BytesLike) :
    ∃ seriesTotal serialNumber : Bytes4,
      mintByOwnerForOwner E E.connect ipfsHash n m =
        .ok ((E.encodeFixedBytes 32 ipfsHash).map fun hash =>
          .mintByOwnerForOwner hash seriesTotal serialNumber) ∧
      (seriesTotal.toNat : ℤ) = n ∧ (serialNumber.toNat : ℤ) = m := by
  obtain ⟨s, seriesTotal, hs, htotal, hn⟩ := exists_bytes4 hE hn
  obtain ⟨t, serialNumber, ht, hserial, hm⟩ := exists_bytes4 hE hm
  refine ⟨seriesTotal, serialNumber, ?_, hn, hm⟩
  rw [mintByOwnerForOwner_eq hs ht, connect_mintByOwnerForOwner htotal hserial]

/-- Bytes that spell numbers are compared as the numbers. -/
theorem bytes4_tests {seriesTotal serialNumber : Bytes4} (hn : (seriesTotal.toNat : ℤ) = n)
    (hm : (serialNumber.toNat : ℤ) = m) :
    (serialNumber < seriesTotal ↔ m < n) ∧ (seriesTotal = 0 ↔ n = 0) := by
  rw [FixedBytes.lt_iff_toNat_lt, ← FixedBytes.toNat_injective.eq_iff, FixedBytes.toNat_zero]
  omega

/-- **Numbers arrive as themselves.**  The wrapper throws, before it calls the contract, exactly
when one of the numbers lies outside `[0, 2 ^ 32)`.  Otherwise the contract is called with four
bytes for each that spell it, so that the two tests of the contract on these bytes are the tests
on the integers. -/
theorem numbers_arrive (hE : E.Documented) (ipfsHash : BytesLike) (n m : ℤ) :
    (∀ (τ : Type) (zapContract : ZapContract τ),
      Throws (mintByOwnerForOwner E zapContract ipfsHash n m) ↔ ¬ (Fits n ∧ Fits m)) ∧
    (Fits n → Fits m → ∃ seriesTotal serialNumber : Bytes4,
      mintByOwnerForOwner E E.connect ipfsHash n m =
        .ok ((E.encodeFixedBytes 32 ipfsHash).map fun hash =>
          .mintByOwnerForOwner hash seriesTotal serialNumber) ∧
      (seriesTotal.toNat : ℤ) = n ∧ (serialNumber.toNat : ℤ) = m ∧
      (serialNumber < seriesTotal ↔ m < n) ∧ (seriesTotal = 0 ↔ n = 0)) := by
  refine ⟨fun τ zapContract => throws_mintByOwnerForOwner_iff hE zapContract ipfsHash,
    fun hn hm => ?_⟩
  obtain ⟨seriesTotal, serialNumber, hsent, hn, hm⟩ := exists_sent hE hn hm ipfsHash
  exact ⟨seriesTotal, serialNumber, hsent, hn, hm, bytes4_tests hn hm⟩

/-- The numbers of the example zap arrive, and a total of `2 ^ 32` does not. -/
theorem sample_numbers_arrive :
    Throws (mintByOwnerForOwner Ethers.v5 Ethers.v5.connect
      (.array (Zap.Sample.data 42).ipfsHash.bytes) 4294967296 42) ∧
    ∃ seriesTotal serialNumber : Bytes4,
      mintByOwnerForOwner Ethers.v5 Ethers.v5.connect
          (.array (Zap.Sample.data 42).ipfsHash.bytes) 420 42 =
        .ok ((Ethers.v5.encodeFixedBytes 32 (.array (Zap.Sample.data 42).ipfsHash.bytes)).map
          fun hash => .mintByOwnerForOwner hash seriesTotal serialNumber) ∧
      (seriesTotal.toNat : ℤ) = 420 ∧ (serialNumber.toNat : ℤ) = 42 ∧
      (serialNumber < seriesTotal ↔ (42 : ℤ) < 420) ∧ (seriesTotal = 0 ↔ (420 : ℤ) = 0) :=
  ⟨((numbers_arrive Ethers.documented_v5 _ 4294967296 42).1 _ _).mpr (by decide),
    (numbers_arrive Ethers.documented_v5 _ 420 42).2 (by decide) (by decide)⟩

end Conversion

/-! ## The fate of a mint -/

section Mint

open Zap (Primitives Deployment Call Minted exec run minted)

/-- **What becomes of two numbers.**  In any world the contract has come to without collisions,
a mint by which the owner passes on two integers goes through exactly when the serial number is
not negative, the total is below `2 ^ 32`, and a registry of the zaps minted so far takes the
copy with these numbers, of the series with this fingerprint on the chain id of the call. -/
theorem mint_goes_through_iff {E : Ethers} (hE : E.Documented) {P : Primitives}
    {D : Deployment} {calls : List Call} {k : Uint256} {owner : Address} {ipfsHash : BytesLike}
    {hash : Bytes32} {n m : ℤ} (howner : (run P D calls).state.owner = owner) (hne : owner ≠ 0)
    (hhash : E.encodeFixedBytes 32 ipfsHash = .ok hash)
    (hK : ∀ op, mintByOwnerForOwner E E.connect ipfsHash n m = .ok (.ok op) →
      CollisionFree P.keccak256 (run P D (calls ++ [⟨k, owner, op⟩])).hashed) :
    (∃ op, mintByOwnerForOwner E E.connect ipfsHash n m = .ok (.ok op) ∧
      (exec P (D.code P).value ⟨k, owner, op⟩ (run P D calls).state).Succeeds) ↔
    0 ≤ m ∧ n < 2 ^ 32 ∧ Edition.Admits ((minted (run P D calls).log).map Minted.edition)
      ⟨(k, ⟨hash, owner⟩), n.toNat, m.toNat⟩ := by
  by_cases hfit : Fits n ∧ Fits m
  · obtain ⟨seriesTotal, serialNumber, hsent, hn, hm⟩ := exists_sent hE hfit.1 hfit.2 ipfsHash
    rw [hhash] at hsent
    have hmint := @Zap.succeeds_iff_admits P D calls
      ⟨k, owner, .mintByOwnerForOwner hash seriesTotal serialNumber⟩
      ⟨hash, owner, seriesTotal, serialNumber⟩ (howner ▸ rfl)
      (fun _ _ => ⟨fun _ => howner, fun _ hp => absurd hp List.not_mem_nil⟩) hne (hK _ hsent)
    have hedition : (Minted.mk k ⟨hash, owner, seriesTotal, serialNumber⟩).edition =
        ⟨(k, ⟨hash, owner⟩), n.toNat, m.toNat⟩ := by
      rw [← hn, ← hm, Int.toNat_natCast, Int.toNat_natCast]
      rfl
    rw [hedition] at hmint
    constructor
    · rintro ⟨op, hop, hsucceeds⟩
      obtain rfl := Except.ok.inj (Except.ok.inj (hsent.symm.trans hop))
      exact ⟨hfit.2.1, hfit.1.2, hmint.mp hsucceeds⟩
    · rintro ⟨-, -, hadmits⟩
      exact ⟨_, hsent, hmint.mpr hadmits⟩
  · refine iff_of_false ?_ ?_
    · rintro ⟨op, hop, -⟩
      obtain ⟨message, hthrows⟩ :=
        (throws_mintByOwnerForOwner_iff hE E.connect ipfsHash).mpr hfit
      rw [hop] at hthrows
      cases hthrows
    · rintro ⟨hnonneg, hlt, hserial, -⟩
      have hserial : m.toNat < n.toNat := hserial
      exact hfit ⟨⟨by omega, hlt⟩, ⟨hnonneg, by omega⟩⟩

/-- The zapper, being the owner, mints by the numbers 420 and 42. -/
theorem sample_mint_goes_through :
    ∃ op, mintByOwnerForOwner Ethers.v5 Ethers.v5.connect
        (.array (Zap.Sample.data 42).ipfsHash.bytes) 420 42 = .ok (.ok op) ∧
      (exec Zap.Sample.primitives (Zap.Sample.deployment.code Zap.Sample.primitives).value
        ⟨420, Zap.Sample.zapper, op⟩ (run Zap.Sample.primitives Zap.Sample.deployment
          [Zap.Sample.handover]).state).Succeeds := by
  have hhash : Ethers.v5.encodeFixedBytes 32 (.array (Zap.Sample.data 42).ipfsHash.bytes) =
      .ok (Zap.Sample.data 42).ipfsHash := by decide +kernel
  have hadmits : Edition.Admits
      ((minted (run Zap.Sample.primitives Zap.Sample.deployment
        [Zap.Sample.handover]).log).map Minted.edition)
      ⟨(420, (Zap.Sample.data 42).fingerprint), (420 : ℤ).toNat, (42 : ℤ).toNat⟩ := by
    rw [Zap.Sample.primitives_eq]
    decide +kernel
  refine (mint_goes_through_iff Ethers.documented_v5 (by decide +kernel) (by decide +kernel)
    hhash fun op hop => ?_).mpr ⟨by decide, by decide, hadmits⟩
  -- the bytes that are sent are those of the sample
  have hfits : Fits 420 ∧ Fits 42 := by decide
  obtain ⟨seriesTotal, serialNumber, hsent, htotal, hserial⟩ :=
    exists_sent Ethers.documented_v5 hfits.1 hfits.2 (.array (Zap.Sample.data 42).ipfsHash.bytes)
  obtain rfl : seriesTotal = .ofNat 4 420 :=
    FixedBytes.toNat_injective ((Int.natCast_inj.mp htotal).trans (by decide))
  obtain rfl : serialNumber = .ofNat 4 42 :=
    FixedBytes.toNat_injective ((Int.natCast_inj.mp hserial).trans (by decide))
  rw [hhash] at hsent
  obtain rfl := Except.ok.inj (Except.ok.inj (hsent.symm.trans hop))
  refine Zap.Sample.collisionFree ?_
  show ∀ b ∈ (run Zap.Sample.primitives Zap.Sample.deployment
    ([Zap.Sample.handover] ++ [Zap.Sample.mint 420 42])).hashed, _
  rw [Zap.Sample.primitives_eq]
  decide +kernel

end Mint

end ContractActions
end OptimismZap
