import OptimismZap.Client.HashUtils
import OptimismZap.Contract.Verdicts

/-!
# From the client to the token

The client never sends an intent to the contract; it hands typed data to a wallet, and
the wallet hands a signature to whoever makes the call.  That the two sides agree on
digests is half of the matter.  `honest_mint` is the whole: if the wallets sign what
the client gives them, each of the three calls that carry signatures passes all its
checks, whatever happened to the contract before; it goes through exactly when the
registry of the zaps minted so far takes the zap; and then the token whose id the
client computes belongs to the zapper.

The keys are in the wallets, so what is assumed of a wallet is what the precompile says
about its signatures (`SignedBy`).
-/

namespace OptimismZap
namespace HashUtils

open TypedData
open Zap (Primitives Deployment Deployed ZapData Call Minted exec run minted)

/-- `_signTypedData` of a wallet that answers digests with signatures. -/
def requestSignature (T : Packages) (wallet : Bytes32 → Bytes) (toSign : ZapMintIntentTypedData) :
    Exec Bytes := do
  let digest ← T.signTypedData toSign.typedDataDomain toSign.types toSign.zapMintIntent
  return wallet digest

/-- The signature of the wallet under the typed data is one of the account. -/
def SignedBy (P : Primitives) (T : Packages) (wallet : Bytes32 → Bytes) (account : Address)
    (toSign : ZapMintIntentTypedData) : Prop :=
  ∀ digest,
    (T.signTypedData toSign.typedDataDomain toSign.types toSign.zapMintIntent).outcome =
      .ok digest →
    (ECDSA.recover P.ecrecover digest (wallet digest)).outcome = .ok account

/-- What the client asks the wallets to sign for `data` on chain `k`. -/
def typedDataOf (version : String) (this : Address) (k : Uint256) (data : ZapData) :
    ZapMintIntentTypedData :=
  getZapMintIntentTypedDataToSign
    (domainObject (utf8 "Zap") (utf8 version) k.toNat this.bytes) data.ipfsHash.bytes
    data.zapper.bytes data.seriesTotal.bytes data.serialNumber.bytes

/-- The calls that carry the signatures: the owner with that of the zapper, the zapper with
that of the owner, and anybody with both. -/
def signedCalls (k : Uint256) (owner sender : Address) (data : ZapData)
    (zapperSignature ownerSignature : Bytes) : List Call :=
  [⟨k, owner, .mintByOwner data.ipfsHash data.seriesTotal data.serialNumber data.zapper
      zapperSignature⟩,
   ⟨k, data.zapper, .mintByZapper data.ipfsHash data.seriesTotal data.serialNumber
      ownerSignature⟩,
   ⟨k, sender, .mintBySignatures data.ipfsHash data.seriesTotal data.serialNumber data.zapper
      zapperSignature ownerSignature⟩]

section Handshake

variable {P : Primitives} {T : Packages} {this deployer : Address} {deployedAt k : Uint256}
  {version : String} {data : ZapData} {calls : List Call} {owner sender : Address}
  {zapperWallet ownerWallet : Bytes32 → Bytes} {zapperSignature ownerSignature : Bytes} {c : Call}

/-- The digest a wallet gets is the one the contract checks signatures against. -/
theorem outcome_signTypedData (hT : T.Implements P.keccak256) :
    (T.signTypedData (typedDataOf version this k data).typedDataDomain
      (typedDataOf version this k data).types
      (typedDataOf version this k data).zapMintIntent).outcome =
      .ok (Zap.intentDigest P
        ((⟨this, deployer, deployedAt, utf8 version⟩ : Deployment).code P).value k data) := by
  refine hT.signTypedData _ _ _ _ _ _ _ _ _ ?_
  exact outcome_digest (q := .zapMintIntent data.publication data.serialNumber)
    rfl rfl rfl hashStruct_zapMintIntent

/-- All three calls are about the zap. -/
theorem zapData_of_mem_signedCalls
    (hc : c ∈ signedCalls k owner sender data zapperSignature ownerSignature) :
    c.chainId = k ∧ c.zapData owner = some data := by
  simp only [signedCalls, List.mem_cons, List.not_mem_nil, or_false] at hc
  rcases hc with rfl | rfl | rfl
  · exact ⟨rfl, rfl⟩
  · exact ⟨rfl, rfl⟩
  · exact ⟨rfl, rfl⟩

/-- All three calls pass their checks. -/
theorem authenticated_of_mem_signedCalls {Z : Deployed}
    (hzapper : (ECDSA.recover P.ecrecover (Zap.intentDigest P Z k data)
      zapperSignature).outcome = .ok data.zapper)
    (howner : (ECDSA.recover P.ecrecover (Zap.intentDigest P Z k data)
      ownerSignature).outcome = .ok owner)
    (hc : c ∈ signedCalls k owner sender data zapperSignature ownerSignature) :
    c.Authenticated P Z owner := by
  intro data' hdata'
  obtain ⟨hchain, hdata⟩ := zapData_of_mem_signedCalls hc
  obtain rfl := Option.some.inj (hdata.symm.trans hdata')
  rw [hchain]
  simp only [signedCalls, List.mem_cons, List.not_mem_nil, or_false] at hc
  rcases hc with rfl | rfl | rfl
  · refine ⟨fun _ => rfl, fun p hp => ?_⟩
    rw [List.mem_singleton.mp hp]
    exact hzapper
  · refine ⟨fun honly => absurd honly Bool.false_ne_true, fun p hp => ?_⟩
    rw [List.mem_singleton.mp hp]
    exact howner
  · refine ⟨fun honly => absurd honly Bool.false_ne_true, fun p hp => ?_⟩
    rcases List.mem_pair.mp hp with rfl | rfl
    · exact hzapper
    · exact howner

/-- The client computes the id of the token. -/
theorem outcome_eip712HashZapData (hT : T.Implements P.keccak256) :
    ∃ id, (eip712HashZapData T "Zap" version k.toNat this.bytes data.ipfsHash.bytes
      data.zapper.bytes data.seriesTotal.bytes data.serialNumber.bytes).outcome = .ok id ∧
        uint256 id = Zap.tokenId P
          ((⟨this, deployer, deployedAt, utf8 version⟩ : Deployment).code P).value k data := by
  refine ⟨_, hT.sign (.zapData _ _ _ _) _ _ _ _ _ ?_, rfl⟩
  exact outcome_digest (q := .zapData data.publication data.serialNumber) rfl rfl rfl
    hashStruct_zapData

/-- **Honest parties get their token.**  The client asks the wallets of the zapper and of the owner
to sign the intent, in any state the contract has come to.  Each of the three calls that carry the
signatures then passes its checks, and does what `_mint` does; if no collision occurs, it goes
through exactly when the registry of the zaps minted so far, in which a series is a fingerprint on
a chain id, takes the zap; and if it goes through, the token with the id that the client computes
belongs to the zapper. -/
theorem honest_mint (hT : T.Implements P.keccak256) (sender : Address)
    (howner : (run P ⟨this, deployer, deployedAt, utf8 version⟩ calls).state.owner = owner)
    (hzapperWallet : SignedBy P T zapperWallet data.zapper (typedDataOf version this k data))
    (hownerWallet : SignedBy P T ownerWallet owner (typedDataOf version this k data)) :
    let D : Deployment := ⟨this, deployer, deployedAt, utf8 version⟩
    ∃ zapperSignature ownerSignature id,
      (requestSignature T zapperWallet (typedDataOf version this k data)).outcome =
        .ok zapperSignature ∧
      (requestSignature T ownerWallet (typedDataOf version this k data)).outcome =
        .ok ownerSignature ∧
      (eip712HashZapData T "Zap" version k.toNat this.bytes data.ipfsHash.bytes
        data.zapper.bytes data.seriesTotal.bytes data.serialNumber.bytes).outcome = .ok id ∧
      ∀ c ∈ signedCalls k owner sender data zapperSignature ownerSignature,
        c.zapData owner = some data ∧ c.Authenticated P (D.code P).value owner ∧
        (exec P (D.code P).value c (run P D calls).state).outcome =
          (Zap.mint P (D.code P).value k (run P D calls).state data.publication
            data.serialNumber).outcome ∧
        (CollisionFree P.keccak256 (run P D (calls ++ [c])).hashed →
          ((exec P (D.code P).value c (run P D calls).state).Succeeds ↔
            Edition.Admits ((minted (run P D calls).log).map Minted.edition)
              (Minted.mk k data).edition)) ∧
        ((exec P (D.code P).value c (run P D calls).state).Succeeds →
          ((run P D (calls ++ [c])).state.ownerOf (uint256 id)).outcome =
            .ok data.zapper) := by
  intro D
  have hdigest := @outcome_signTypedData P T this deployer deployedAt k version data hT
  obtain ⟨id, hid, htoken⟩ := @outcome_eip712HashZapData P T this deployer deployedAt k version
    data hT
  have hzapper := hzapperWallet _ hdigest
  refine ⟨_, _, id, (Exec.outcome_bind_of_ok hdigest).trans rfl,
    (Exec.outcome_bind_of_ok hdigest).trans rfl, hid, fun c hc => ?_⟩
  have hauth := authenticated_of_mem_signedCalls hzapper (hownerWallet _ hdigest) hc
  obtain ⟨hchain, hdata⟩ := zapData_of_mem_signedCalls hc
  refine ⟨hdata, hauth, ?_⟩
  rw [← howner] at hauth hdata
  refine ⟨?_, fun hK => ?_, fun ⟨r, hx⟩ => ?_⟩
  · rw [Zap.outcome_exec_of_authenticated hdata hauth, hchain]
  · rw [Zap.succeeds_iff_admits hdata hauth (ECDSA.recover_ne_zero hzapper) hK, hchain]
  · obtain ⟨-, -, -, hnew, rfl⟩ :=
      Zap.outcome_mint_eq_ok.mp ((Zap.outcome_exec_mint hdata).mp hx).2
    rw [Zap.run_concat, World.attempt_of_ok hx, htoken, ← hchain,
      ERC721.outcome_ownerOf_eq_ok]
    exact (ERC721.lookup_afterMint_eq_some hnew).mpr (Or.inr ⟨rfl, rfl⟩)

end Handshake

/-! ## Two parties -/

namespace Sample

open Zap.Sample (primitives deployment deployer zapper signature ownerSignature primitives_eq)

/-- The packages as the standard has them. -/
abbrev packages : Packages := .standard primitives.keccak256

/-- What the wallets are asked to sign. -/
abbrev toSign : ZapMintIntentTypedData :=
  typedDataOf "0.1.0" deployment.this 420 (Zap.Sample.data 42)

/-- The hash of the zap. -/
def zapHash : Bytes32 :=
  .ofNat 32 0x2896EE46FD494B4DFFB294B11E5808973B032CC0A1D88CF07EDE3D4468502E96

/-- Somebody who is neither of the two. -/
def sender : Address := .ofNat 20 0x0123456789ABCDEF0123456789ABCDEF01234567

/-- The wallets get the digest of the intent. -/
theorem outcome_toSign :
    (packages.signTypedData toSign.typedDataDomain toSign.types toSign.zapMintIntent).outcome =
      .ok (Zap.intentDigest primitives (deployment.code primitives).value 420
        (Zap.Sample.data 42)) :=
  @outcome_signTypedData primitives packages deployment.this deployer 420 420 "0.1.0"
    (Zap.Sample.data 42) (Packages.implements_standard primitives.keccak256)

/-- A wallet that answers with the right signature. -/
theorem signedBy {account : Address} {answer : Bytes}
    (h : (ECDSA.recover primitives.ecrecover
      (Zap.intentDigest primitives (deployment.code primitives).value 420 (Zap.Sample.data 42))
      answer).outcome = .ok account) :
    SignedBy primitives packages (fun _ => answer) account toSign := by
  intro digest hdigest
  obtain rfl := Except.ok.inj (outcome_toSign.symm.trans hdigest)
  exact h

/-- A wallet that has been asked has answered. -/
theorem outcome_requestSignature (answer : Bytes) :
    (requestSignature packages (fun _ => answer) toSign).outcome = .ok answer :=
  Exec.outcome_bind_of_ok outcome_toSign

/-- The client has computed the hash. -/
theorem outcome_zapHash :
    (eip712HashZapData packages "Zap" "0.1.0" (420 : Uint256).toNat deployment.this.bytes
      (Zap.Sample.data 42).ipfsHash.bytes (Zap.Sample.data 42).zapper.bytes
      (Zap.Sample.data 42).seriesTotal.bytes
      (Zap.Sample.data 42).serialNumber.bytes).outcome = .ok zapHash := by
  unfold packages
  rw [primitives_eq]
  decide +kernel

theorem collisionFree_signedCalls {c : Call}
    (hc : c ∈ signedCalls 420 deployer sender (Zap.Sample.data 42) signature ownerSignature) :
    CollisionFree primitives.keccak256 (run primitives deployment [c]).hashed := by
  refine Zap.Sample.collisionFree ?_
  have h : ∀ c ∈ signedCalls 420 deployer sender (Zap.Sample.data 42) signature ownerSignature,
      ∀ b ∈ (run primitives deployment [c]).hashed, b ∈ Zap.Sample.digests.map Prod.fst := by
    rw [primitives_eq]
    decide +kernel
  exact h c hc

end Sample

section Sample

open Zap.Sample (primitives deployment deployer zapper signature ownerSignature)

/-- The zapper and the deployer, who is the owner, sign; with these two signatures the deployer,
the zapper and anybody else can each mint the zap on the new contract. -/
theorem sample_honest_mint :
    (requestSignature Sample.packages (fun _ => signature) Sample.toSign).outcome =
      .ok signature ∧
    (requestSignature Sample.packages (fun _ => ownerSignature) Sample.toSign).outcome =
      .ok ownerSignature ∧
    (eip712HashZapData Sample.packages "Zap" "0.1.0" (420 : Uint256).toNat deployment.this.bytes
      (Zap.Sample.data 42).ipfsHash.bytes (Zap.Sample.data 42).zapper.bytes
      (Zap.Sample.data 42).seriesTotal.bytes
      (Zap.Sample.data 42).serialNumber.bytes).outcome = .ok Sample.zapHash ∧
    ∀ c ∈ signedCalls 420 deployer Sample.sender (Zap.Sample.data 42) signature ownerSignature,
      c.Authenticated primitives (deployment.code primitives).value deployer ∧
      (exec primitives (deployment.code primitives).value c
        (run primitives deployment []).state).Succeeds ∧
      ((run primitives deployment [c]).state.ownerOf (uint256 Sample.zapHash)).outcome =
        .ok zapper := by
  obtain ⟨zapperSignature, signatureOfOwner, id, hzapper, howner, hid, hcalls⟩ :=
    @honest_mint primitives Sample.packages deployment.this deployer 420 420 "0.1.0"
      (Zap.Sample.data 42) [] deployer (fun _ => signature) (fun _ => ownerSignature)
      (Packages.implements_standard primitives.keccak256) Sample.sender (by rfl)
      (Sample.signedBy (by
        rw [Zap.Sample.primitives_eq]
        decide +kernel))
      (Sample.signedBy (by
        rw [Zap.Sample.primitives_eq]
        decide +kernel))
  obtain rfl := Except.ok.inj ((Sample.outcome_requestSignature signature).symm.trans hzapper)
  obtain rfl := Except.ok.inj ((Sample.outcome_requestSignature ownerSignature).symm.trans howner)
  obtain rfl := Except.ok.inj (Sample.outcome_zapHash.symm.trans hid)
  refine ⟨hzapper, howner, hid, fun c hc => ?_⟩
  obtain ⟨-, hauth, -, hiff, hgoes⟩ := hcalls c hc
  have hsucceeds := (hiff (Sample.collisionFree_signedCalls hc)).mpr (by decide)
  exact ⟨hauth, hsucceeds, hgoes hsucceeds⟩

end Sample

end HashUtils
end OptimismZap
