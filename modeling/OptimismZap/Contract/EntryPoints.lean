import OptimismZap.Contract.HashFunctions
import OptimismZap.OpenZeppelin.Authentication
import OptimismZap.OpenZeppelin.ERC721

/-!
# The entry points of `OptimismZap.sol`

Storage, events, the private `_mint` and the ten functions that change state:
four ways to mint, the four writes of the token standard and the two of
`Ownable`.  `exec` dispatches a call to its function.

The four mints differ in who has to agree and how the zapper is named, and in
nothing else.  `Call.zapData` is the zap a mint resolves to, `Call.Authenticated`
the conjunction of its checks, and `outcome_exec_mint` says that a mint is its
checks followed by `_mint` on that zap.  `outcome_mint_eq_ok` then says when
`_mint` succeeds and with what result.

Everything a successful call can do is collected in `Step`, which the invariants
downstream split on (`step_of_exec`).  What a mint hashes is collected in
`Call.strings`: never more than these strings, and all of them unless the record
or the serial number stands in the way.
-/

namespace OptimismZap
namespace Zap

/-! ## State, events, calls -/

/-- The storage of the contract. -/
structure State extends ERC721, Ownable where
  /-- From the hash of a fingerprint to the publication made under it. -/
  seriesPublications : Bytes32 → SeriesPublication

/-- The events of the contract and of the contracts it inherits from. -/
inductive Event where
  | token (event : ERC721.Event)
  | ownership (event : Ownable.Event)
  | publish (ipfsHash : Bytes32) (zapper : Address) (seriesTotal : Bytes4)
  | mint (ipfsHash : Bytes32) (zapper : Address) (seriesTotal numInSeries : Bytes4)
  deriving DecidableEq

/-- The functions that change state, with their arguments.  `safeTransferFrom`
carries the verdict of the receiver hook. -/
inductive Op where
  | mintByOwnerForOwner (ipfsHash : Bytes32) (seriesTotal serialNumber : Bytes4)
  | mintByOwner (ipfsHash : Bytes32) (seriesTotal serialNumber : Bytes4)
      (claimedZapper : Address) (zapperSignatureData : Bytes)
  | mintByZapper (ipfsHash : Bytes32) (seriesTotal serialNumber : Bytes4)
      (contractOwnerSignatureData : Bytes)
  | mintBySignatures (ipfsHash : Bytes32) (seriesTotal serialNumber : Bytes4)
      (claimedZapper : Address) (zapperSignatureData contractOwnerSignatureData : Bytes)
  | approve (toAddr : Address) (tokenId : Uint256)
  | setApprovalForAll (operator : Address) (approved : Bool)
  | transferFrom (fromAddr toAddr : Address) (tokenId : Uint256)
  | safeTransferFrom (fromAddr toAddr : Address) (tokenId : Uint256) (data : Bytes)
      (received : Bool)
  | transferOwnership (newOwner : Address)
  | renounceOwnership
  deriving DecidableEq

/-- A call of the contract: the chain it runs on, the sender, the function. -/
structure Call where
  /-- `block.chainid`. -/
  chainId : Uint256
  /-- `msg.sender`. -/
  msgSender : Address
  op : Op
  deriving DecidableEq

/-- A function body ends with new storage and the events it emitted. -/
abbrev Body := Exec (State × List Event)

/-- Runs a body of the token standard on its part of the storage. -/
def State.onToken (σ : State) (body : ERC721 → Exec (ERC721 × List ERC721.Event)) : Body := do
  let (token, events) ← body σ.toERC721
  return ({ σ with toERC721 := token }, events.map .token)

/-- Runs a body of `Ownable` on its part of the storage. -/
def State.onOwnable (σ : State) (body : Ownable → Exec (Ownable × List Ownable.Event)) :
    Body := do
  let (ownable, events) ← body σ.toOwnable
  return ({ σ with toOwnable := ownable }, events.map .ownership)

/-- Storage after the constructor. -/
def genesis (D : Deployment) : State where
  toERC721 := ERC721.empty
  toOwnable := ⟨D.deployer⟩
  seriesPublications _ := 0

/-! ## The functions -/

section Functions

variable (P : Primitives) (Z : Deployed) (chainId : Uint256) (msgSender : Address) (σ : State)

/-- The private `_mint`. -/
def mint (publication : SeriesPublication) (serialNumber : Bytes4) : Body := do
  let seriesFingerprint ← eip712HashSeriesFingerprint P Z chainId
    ⟨publication.ipfsHash, publication.zapper⟩
  let existingZapPublication := σ.seriesPublications seriesFingerprint
  let (σ, published) ←
    -- a total of zero is the sign of a record that was never written
    if existingZapPublication.seriesTotal = 0 then
      pure ({ σ with
        seriesPublications :=
          Function.update σ.seriesPublications seriesFingerprint publication },
        [Event.publish publication.ipfsHash publication.zapper publication.seriesTotal])
    else do
      Exec.require (existingZapPublication.seriesTotal = publication.seriesTotal)
        "OptimismZap: Different seriesTotal than previously published"
      pure (σ, [])
  Exec.require (serialNumber < publication.seriesTotal)
    "OptimismZap: Mint of a serialNumber greater than or equal to the seriesTotal."
  let zapHash ← eip712HashZapData P Z chainId publication serialNumber
  let tokenId := uint256 zapHash
  let (σ, transferred) ← σ.onToken fun token => token.mint publication.zapper tokenId
  return (σ, published ++ transferred ++
    [Event.mint publication.ipfsHash publication.zapper publication.seriesTotal serialNumber])

/-- `mintByOwnerForOwner`. -/
def mintByOwnerForOwner (ipfsHash : Bytes32) (seriesTotal serialNumber : Bytes4) : Body := do
  σ.onlyOwner msgSender
  mint P Z chainId σ ⟨ipfsHash, σ.owner, seriesTotal⟩ serialNumber

/-- `mintByOwner`. -/
def mintByOwner (ipfsHash : Bytes32) (seriesTotal serialNumber : Bytes4)
    (claimedZapper : Address) (zapperSignatureData : Bytes) : Body := do
  σ.onlyOwner msgSender
  let publication := ⟨ipfsHash, claimedZapper, seriesTotal⟩
  let digest ← eip712HashZapMintIntent P Z chainId publication serialNumber
  let signer ← ECDSA.recover P.ecrecover digest zapperSignatureData
  Exec.require (signer = claimedZapper) "Zap: Signature address must match claimedZapper."
  mint P Z chainId σ publication serialNumber

/-- `mintByZapper`. -/
def mintByZapper (ipfsHash : Bytes32) (seriesTotal serialNumber : Bytes4)
    (contractOwnerSignatureData : Bytes) : Body := do
  let publication := ⟨ipfsHash, msgSender, seriesTotal⟩
  let digest ← eip712HashZapMintIntent P Z chainId publication serialNumber
  let signer ← ECDSA.recover P.ecrecover digest contractOwnerSignatureData
  Exec.require (signer = σ.owner) "OptimismZap: Signature address must match contract owner."
  mint P Z chainId σ publication serialNumber

/-- `mintBySignatures`. -/
def mintBySignatures (ipfsHash : Bytes32) (seriesTotal serialNumber : Bytes4)
    (claimedZapper : Address) (zapperSignatureData contractOwnerSignatureData : Bytes) :
    Body := do
  let publication := ⟨ipfsHash, claimedZapper, seriesTotal⟩
  let digest ← eip712HashZapMintIntent P Z chainId publication serialNumber
  let zapper ← ECDSA.recover P.ecrecover digest zapperSignatureData
  Exec.require (zapper = claimedZapper)
    "OptimismZap: Signature address does not match claimedZapper."
  let contractOwner ← ECDSA.recover P.ecrecover digest contractOwnerSignatureData
  Exec.require (contractOwner = σ.owner)
    "OptimismZap: Signature address does not match contract owner."
  mint P Z chainId σ publication serialNumber

end Functions

/-- The function a call names, run on the state. -/
def exec (P : Primitives) (Z : Deployed) (c : Call) (σ : State) : Body :=
  match c.op with
  | .mintByOwnerForOwner ipfsHash seriesTotal serialNumber =>
    mintByOwnerForOwner P Z c.chainId c.msgSender σ ipfsHash seriesTotal serialNumber
  | .mintByOwner ipfsHash seriesTotal serialNumber claimedZapper zapperSignatureData =>
    mintByOwner P Z c.chainId c.msgSender σ ipfsHash seriesTotal serialNumber claimedZapper
      zapperSignatureData
  | .mintByZapper ipfsHash seriesTotal serialNumber contractOwnerSignatureData =>
    mintByZapper P Z c.chainId c.msgSender σ ipfsHash seriesTotal serialNumber
      contractOwnerSignatureData
  | .mintBySignatures ipfsHash seriesTotal serialNumber claimedZapper zapperSignatureData
      contractOwnerSignatureData =>
    mintBySignatures P Z c.chainId σ ipfsHash seriesTotal serialNumber claimedZapper
      zapperSignatureData contractOwnerSignatureData
  | .approve toAddr tokenId => σ.onToken (·.approve c.msgSender toAddr tokenId)
  | .setApprovalForAll operator approved =>
    σ.onToken (·.setApprovalForAll c.msgSender operator approved)
  | .transferFrom fromAddr toAddr tokenId =>
    σ.onToken (·.transferFrom c.msgSender fromAddr toAddr tokenId)
  | .safeTransferFrom fromAddr toAddr tokenId _ received =>
    σ.onToken (·.safeTransferFrom c.msgSender fromAddr toAddr tokenId received)
  | .transferOwnership newOwner => σ.onOwnable (·.transferOwnership c.msgSender newOwner)
  | .renounceOwnership => σ.onOwnable (·.renounceOwnership c.msgSender)

/-! ## What a mint resolves to, and what it checks -/

/-- The zap a mint is about: the zapper is the owner, the claimed zapper or the
sender. -/
def Op.zapData (op : Op) (msgSender owner : Address) : Option ZapData :=
  match op with
  | .mintByOwnerForOwner ipfsHash seriesTotal serialNumber =>
    some ⟨ipfsHash, owner, seriesTotal, serialNumber⟩
  | .mintByOwner ipfsHash seriesTotal serialNumber claimedZapper _ =>
    some ⟨ipfsHash, claimedZapper, seriesTotal, serialNumber⟩
  | .mintByZapper ipfsHash seriesTotal serialNumber _ =>
    some ⟨ipfsHash, msgSender, seriesTotal, serialNumber⟩
  | .mintBySignatures ipfsHash seriesTotal serialNumber claimedZapper _ _ =>
    some ⟨ipfsHash, claimedZapper, seriesTotal, serialNumber⟩
  | _ => none

/-- The zap a call mints if it succeeds on a state with this owner. -/
def Call.zapData (c : Call) (owner : Address) : Option ZapData :=
  c.op.zapData c.msgSender owner

/-- Whether a mint insists on being sent by the owner. -/
def Op.onlyOwner : Op → Bool
  | .mintByOwnerForOwner .. | .mintByOwner .. => true
  | _ => false

/-- Whether a call is one of the four writes of the token standard. -/
def Op.onLedger : Op → Bool
  | .approve .. | .setApprovalForAll .. | .transferFrom .. | .safeTransferFrom .. => true
  | _ => false

/-- The signatures a mint checks, each with the account it has to come from, in
the order of the checks. -/
def Op.signatures (op : Op) (owner : Address) : List (Bytes × Address) :=
  match op with
  | .mintByOwner _ _ _ claimedZapper zapperSignatureData =>
    [(zapperSignatureData, claimedZapper)]
  | .mintByZapper _ _ _ contractOwnerSignatureData => [(contractOwnerSignatureData, owner)]
  | .mintBySignatures _ _ _ claimedZapper zapperSignatureData contractOwnerSignatureData =>
    [(zapperSignatureData, claimedZapper), (contractOwnerSignatureData, owner)]
  | _ => []

section Specification

variable (P : Primitives) (Z : Deployed) (chainId : Uint256)

/-- What an account signs to consent to the mint of `data`. -/
def intentDigest (data : ZapData) : Bytes32 :=
  (eip712HashZapMintIntent P Z chainId data.publication data.serialNumber).value

/-- The key of the series of `data` in the publication table. -/
def seriesKey (fingerprint : SeriesFingerprint) : Bytes32 :=
  (eip712HashSeriesFingerprint P Z chainId fingerprint).value

/-- The id of the token minted for `data`. -/
def tokenId (data : ZapData) : Uint256 :=
  uint256 (eip712HashZapData P Z chainId data.publication data.serialNumber).value

/-- A mint passes its own checks: it comes from the owner if it has to, and every
signature it carries recovers to the account it should. -/
def Call.Authenticated (c : Call) (owner : Address) : Prop :=
  ∀ data, c.zapData owner = some data →
    (c.op.onlyOwner = true → owner = c.msgSender) ∧
      ∀ p ∈ c.op.signatures owner,
        (ECDSA.recover P.ecrecover (intentDigest P Z c.chainId data) p.1).outcome = .ok p.2

variable {P Z chainId}

/-- Without collisions a key determines its series and its chain. -/
theorem seriesKey_inj {D : Deployment} {k k' : Uint256} {f f' : SeriesFingerprint}
    {H : List Bytes} (hK : CollisionFree P.keccak256 H) (hD : (D.code P).hashed ⊆ H)
    (hf : (eip712HashSeriesFingerprint P (D.code P).value k f).hashed ⊆ H)
    (hf' : (eip712HashSeriesFingerprint P (D.code P).value k' f').hashed ⊆ H)
    (h : seriesKey P (D.code P).value k f = seriesKey P (D.code P).value k' f') :
    f = f' ∧ k = k' := by
  obtain ⟨hquery, hchain⟩ :=
    Query.eval_inj (.seriesFingerprint f) (.seriesFingerprint f') hK hD hf hf' h
  exact ⟨Query.seriesFingerprint.inj hquery, hchain⟩

/-- **A mint is its checks, then `_mint`.** -/
theorem outcome_exec_mint {c : Call} {σ : State} {data : ZapData} {r : State × List Event}
    (h : c.zapData σ.owner = some data) :
    (exec P Z c σ).outcome = .ok r ↔ c.Authenticated P Z σ.owner ∧
      (mint P Z c.chainId σ data.publication data.serialNumber).outcome = .ok r := by
  obtain ⟨chain, msgSender, op⟩ := c
  simp only [Call.zapData] at h
  cases op <;> simp only [Op.zapData, Option.some.injEq, reduceCtorEq] at h <;> subst h <;>
    simp [exec, mintByOwnerForOwner, mintByOwner, mintByZapper, mintBySignatures,
      Call.Authenticated, Call.zapData, Op.zapData, Op.onlyOwner, Op.signatures, intentDigest,
      ZapData.publication, and_assoc]

/-! ## What `_mint` does -/

/-- The publication table after a mint of `data`: unchanged when the series has
been published, and otherwise with the new record. -/
def State.publicationsAfter (σ : State) (key : Bytes32) (data : ZapData) :
    Bytes32 → SeriesPublication :=
  if (σ.seriesPublications key).seriesTotal = 0 then
    Function.update σ.seriesPublications key data.publication
  else
    σ.seriesPublications

/-- The state after a mint of `data` with series key `key` and token id `id`. -/
def State.afterMint (σ : State) (key : Bytes32) (id : Uint256) (data : ZapData) : State :=
  { σ with
    toERC721 := σ.toERC721.afterMint data.zapper id
    seriesPublications := σ.publicationsAfter key data }

/-- The events of a mint of `data`. -/
def State.mintEvents (σ : State) (key : Bytes32) (id : Uint256) (data : ZapData) :
    List Event :=
  (if (σ.seriesPublications key).seriesTotal = 0 then
    [Event.publish data.ipfsHash data.zapper data.seriesTotal] else []) ++
  [Event.token (.transfer 0 data.zapper id),
    Event.mint data.ipfsHash data.zapper data.seriesTotal data.serialNumber]

/-- A mint changes no record but that of its series. -/
theorem State.publicationsAfter_of_ne {σ : State} {key k : Bytes32} {data : ZapData}
    (h : σ.publicationsAfter key data k ≠ σ.seriesPublications k) :
    key = k ∧ σ.publicationsAfter key data k = data.publication := by
  unfold State.publicationsAfter at h ⊢
  split at h
  · rename_i hempty
    rw [if_pos hempty]
    by_cases hk : k = key
    · rw [hk, Function.update_self]
      exact ⟨rfl, rfl⟩
    · exact absurd (Function.update_of_ne hk _ _) h
  · exact absurd rfl h

/-- A mint creates its token and no other. -/
theorem State.exists_afterMint {σ : State} {key : Bytes32} {id id' : Uint256} {data : ZapData}
    (h : ¬ σ.Exists id) : (σ.afterMint key id data).Exists id' ↔ σ.Exists id' ∨ id' = id :=
  ERC721.exists_afterMint h

/-- The record on file lets a mint of `data` pass: there is none, or it has the
same total. -/
def State.RecordAllows (σ : State) (key : Bytes32) (data : ZapData) : Prop :=
  (σ.seriesPublications key).seriesTotal = 0 ∨
    (σ.seriesPublications key).seriesTotal = data.seriesTotal

/-- **When `_mint` succeeds, and with what result.** -/
theorem outcome_mint_eq_ok {σ : State} {data : ZapData} {r : State × List Event} :
    (mint P Z chainId σ data.publication data.serialNumber).outcome = .ok r ↔
      σ.RecordAllows (seriesKey P Z chainId data.fingerprint) data ∧
      data.serialNumber < data.seriesTotal ∧ data.zapper ≠ 0 ∧
      ¬ σ.Exists (tokenId P Z chainId data) ∧
      (σ.afterMint (seriesKey P Z chainId data.fingerprint) (tokenId P Z chainId data) data,
        σ.mintEvents (seriesKey P Z chainId data.fingerprint) (tokenId P Z chainId data)
          data) = r := by
  have hkey : (eip712HashSeriesFingerprint P Z chainId ⟨data.ipfsHash, data.zapper⟩).value =
      seriesKey P Z chainId data.fingerprint := rfl
  simp only [mint, Exec.outcome_bind_eq_ok, Exec.outcome_liftM_eq_ok, exists_eq_left', hkey,
    State.RecordAllows]
  by_cases hnew : (σ.seriesPublications
      (seriesKey P Z chainId data.fingerprint)).seriesTotal = 0
  · simp [hnew, State.onToken, ERC721.outcome_mint_eq_ok, State.afterMint,
      State.publicationsAfter, State.mintEvents, tokenId, and_assoc]
  · simp [hnew, State.onToken, ERC721.outcome_mint_eq_ok, State.afterMint,
      State.publicationsAfter, State.mintEvents, tokenId, and_assoc]

/-- A mint that passes its checks and names a proper zapper is decided by the record, the
serial number and the ledger. -/
theorem succeeds_exec_iff {c : Call} {σ : State} {data : ZapData}
    (h : c.zapData σ.owner = some data) (hauth : c.Authenticated P Z σ.owner)
    (hzapper : data.zapper ≠ 0) :
    (exec P Z c σ).Succeeds ↔
      σ.RecordAllows (seriesKey P Z c.chainId data.fingerprint) data ∧
      data.serialNumber < data.seriesTotal ∧ ¬ σ.Exists (tokenId P Z c.chainId data) := by
  constructor
  · rintro ⟨r, hr⟩
    obtain ⟨hrecord, hserial, -, hnew, -⟩ := outcome_mint_eq_ok.mp ((outcome_exec_mint h).mp hr).2
    exact ⟨hrecord, hserial, hnew⟩
  · rintro ⟨hrecord, hserial, hnew⟩
    exact ⟨_, (outcome_exec_mint h).mpr
      ⟨hauth, outcome_mint_eq_ok.mpr ⟨hrecord, hserial, hzapper, hnew, rfl⟩⟩⟩

/-! ## What a mint hashes -/

/-- The strings hashed by a mint of `data` that runs to its end: those of the intent
when there are signatures to check, the fingerprint, and the zap. -/
def Call.strings (P : Primitives) (Z : Deployed) (c : Call) (owner : Address)
    (data : ZapData) : List Bytes :=
  (if c.op.signatures owner = [] then []
    else (eip712HashZapMintIntent P Z c.chainId data.publication data.serialNumber).hashed) ++
  ((eip712HashSeriesFingerprint P Z c.chainId data.fingerprint).hashed ++
    (eip712HashZapData P Z c.chainId data.publication data.serialNumber).hashed)

/-- `_mint` hashes the fingerprint and the zap, or only the first. -/
theorem hashed_mint_subset {σ : State} {data : ZapData} :
    (mint P Z chainId σ data.publication data.serialNumber).hashed ⊆
      (eip712HashSeriesFingerprint P Z chainId data.fingerprint).hashed ++
      (eip712HashZapData P Z chainId data.publication data.serialNumber).hashed := by
  unfold mint
  rw [Exec.hashed_bind_liftM]
  refine List.append_subset.mpr ⟨List.subset_append_left _ _, ?_⟩
  refine List.Subset.trans ?_ (List.subset_append_right _ _)
  -- the ledger hashes nothing, so all that follows the zap hash is empty
  have hzap : ∀ (σ : State) (es : List Event), (do
      let zapHash ← eip712HashZapData P Z chainId data.publication data.serialNumber
      let (σ, transferred) ← σ.onToken fun token => token.mint data.zapper (uint256 zapHash)
      return (σ, es ++ transferred ++ [Event.mint data.ipfsHash data.zapper data.seriesTotal
        data.serialNumber]) : Body).hashed ⊆
      (eip712HashZapData P Z chainId data.publication data.serialNumber).hashed := by
    intro σ es
    refine Exec.hashed_bind_subset (List.Subset.refl _) fun _ => ?_
    refine Exec.hashed_bind_subset ?_ fun _ => by simp
    exact Exec.hashed_bind_subset (by simp) fun _ => by simp
  dsimp only
  split
  · rw [Exec.hashed_bind_pure]
    exact Exec.hashed_bind_subset (by simp) fun _ => hzap _ _
  · refine Exec.hashed_bind_subset (by simp) fun _ => ?_
    rw [Exec.hashed_bind_pure]
    exact Exec.hashed_bind_subset (by simp) fun _ => hzap _ _

/-- `_mint` hashes the fingerprint, whatever happens then. -/
theorem fingerprint_hashed_subset_mint {σ : State} {data : ZapData} :
    (eip712HashSeriesFingerprint P Z chainId data.fingerprint).hashed ⊆
      (mint P Z chainId σ data.publication data.serialNumber).hashed :=
  List.subset_append_left _ _

/-- `_mint` hashes the zap once the record and the serial number have passed. -/
theorem zapData_hashed_subset_mint {σ : State} {data : ZapData}
    (hrecord : σ.RecordAllows (seriesKey P Z chainId data.fingerprint) data)
    (hserial : data.serialNumber < data.seriesTotal) :
    (eip712HashZapData P Z chainId data.publication data.serialNumber).hashed ⊆
      (mint P Z chainId σ data.publication data.serialNumber).hashed := by
  have hkey : (eip712HashSeriesFingerprint P Z chainId ⟨data.ipfsHash, data.zapper⟩).value =
      seriesKey P Z chainId data.fingerprint := rfl
  unfold mint
  rw [Exec.hashed_bind_liftM, hkey]
  refine List.Subset.trans ?_ (List.subset_append_right _ _)
  by_cases hnew : (σ.seriesPublications
      (seriesKey P Z chainId data.fingerprint)).seriesTotal = 0
  · simp only [if_pos hnew]
    rw [Exec.hashed_bind_pure, Exec.hashed_bind_require hserial, Exec.hashed_bind_liftM]
    exact List.subset_append_left _ _
  · have htotal := hrecord.resolve_left hnew
    simp only [if_neg hnew]
    rw [Exec.hashed_bind_require htotal, Exec.hashed_bind_pure,
      Exec.hashed_bind_require hserial, Exec.hashed_bind_liftM]
    exact List.subset_append_left _ _

/-- What a mint that passes its checks hashes. -/
theorem hashed_exec_of_authenticated {c : Call} {σ : State} {data : ZapData}
    (h : c.zapData σ.owner = some data) (hauth : c.Authenticated P Z σ.owner) :
    (exec P Z c σ).hashed =
      (if c.op.signatures σ.owner = [] then []
        else (eip712HashZapMintIntent P Z c.chainId data.publication data.serialNumber).hashed) ++
      (mint P Z c.chainId σ data.publication data.serialNumber).hashed := by
  obtain ⟨howner, hsignatures⟩ := hauth data h
  obtain ⟨chain, msgSender, op⟩ := c
  simp only [Call.zapData] at h
  cases op with
  | mintByOwnerForOwner ipfsHash seriesTotal serialNumber =>
    obtain rfl := Option.some.inj h
    simp only [exec, mintByOwnerForOwner, Ownable.onlyOwner]
    rw [Exec.hashed_bind_require (howner rfl)]
    rfl
  | mintByOwner ipfsHash seriesTotal serialNumber claimedZapper zapperSignatureData =>
    obtain rfl := Option.some.inj h
    have hzapper := hsignatures (zapperSignatureData, claimedZapper) (List.mem_singleton_self _)
    simp only [exec, mintByOwner, Ownable.onlyOwner]
    rw [Exec.hashed_bind_require (howner rfl), Exec.hashed_bind_liftM]
    exact congrArg _ (ECDSA.hashed_bind_check hzapper _)
  | mintByZapper ipfsHash seriesTotal serialNumber contractOwnerSignatureData =>
    obtain rfl := Option.some.inj h
    have hsigned := hsignatures (contractOwnerSignatureData, σ.owner)
      (List.mem_singleton_self _)
    simp only [exec, mintByZapper]
    rw [Exec.hashed_bind_liftM]
    exact congrArg _ (ECDSA.hashed_bind_check hsigned _)
  | mintBySignatures ipfsHash seriesTotal serialNumber claimedZapper zapperSignatureData
      contractOwnerSignatureData =>
    obtain rfl := Option.some.inj h
    have hzapper := hsignatures (zapperSignatureData, claimedZapper) List.mem_cons_self
    have hsigned := hsignatures (contractOwnerSignatureData, σ.owner)
      (List.mem_cons_of_mem _ List.mem_cons_self)
    simp only [exec, mintBySignatures]
    rw [Exec.hashed_bind_liftM]
    refine congrArg _ ((ECDSA.hashed_bind_check hzapper _).trans ?_)
    exact ECDSA.hashed_bind_check hsigned _
  | _ => exact absurd h (by simp [Op.zapData])

/-- A mint that passes its checks hashes nothing but its strings. -/
theorem hashed_exec_subset_strings {c : Call} {σ : State} {data : ZapData}
    (h : c.zapData σ.owner = some data) (hauth : c.Authenticated P Z σ.owner) :
    (exec P Z c σ).hashed ⊆ c.strings P Z σ.owner data := by
  rw [hashed_exec_of_authenticated h hauth, Call.strings]
  exact List.append_subset.mpr ⟨List.subset_append_left _ _,
    List.subset_append_of_subset_right _ hashed_mint_subset⟩

/-- A mint that passes its checks has hashed the fingerprint. -/
theorem fingerprint_hashed_subset_exec {c : Call} {σ : State} {data : ZapData}
    (h : c.zapData σ.owner = some data) (hauth : c.Authenticated P Z σ.owner) :
    (eip712HashSeriesFingerprint P Z c.chainId data.fingerprint).hashed ⊆
      (exec P Z c σ).hashed := by
  rw [hashed_exec_of_authenticated h hauth]
  exact List.subset_append_of_subset_right _ fingerprint_hashed_subset_mint

/-- A mint that passes its checks and then those of the record and the serial number
has hashed all of its strings. -/
theorem strings_subset_hashed_exec {c : Call} {σ : State} {data : ZapData}
    (h : c.zapData σ.owner = some data) (hauth : c.Authenticated P Z σ.owner)
    (hrecord : σ.RecordAllows (seriesKey P Z c.chainId data.fingerprint) data)
    (hserial : data.serialNumber < data.seriesTotal) :
    c.strings P Z σ.owner data ⊆ (exec P Z c σ).hashed := by
  rw [hashed_exec_of_authenticated h hauth, Call.strings]
  refine List.append_subset.mpr ⟨List.subset_append_left _ _,
    List.subset_append_of_subset_right _ (List.append_subset.mpr ⟨?_, ?_⟩)⟩
  · exact fingerprint_hashed_subset_mint
  · exact zapData_hashed_subset_mint hrecord hserial

end Specification

/-! ## Everything a call can do -/

/-- What a successful call does to the state and which events it emits: it mints a
zap, has an effect of the token standard, or passes the ownership on. -/
inductive Step (P : Primitives) (Z : Deployed) (c : Call) (σ : State) :
    State → List Event → Prop
  | mint (data : ZapData) (hdata : c.zapData σ.owner = some data)
      (hauth : c.Authenticated P Z σ.owner)
      (hrecord : σ.RecordAllows (seriesKey P Z c.chainId data.fingerprint) data)
      (hserial : data.serialNumber < data.seriesTotal) (hzapper : data.zapper ≠ 0)
      (hnew : ¬ σ.Exists (tokenId P Z c.chainId data)) :
      Step P Z c σ
        (σ.afterMint (seriesKey P Z c.chainId data.fingerprint) (tokenId P Z c.chainId data) data)
        (σ.mintEvents (seriesKey P Z c.chainId data.fingerprint) (tokenId P Z c.chainId data) data)
  | token (token : ERC721) (events : List ERC721.Event) (hop : c.op.onLedger = true)
      (heffect : ERC721.Effect σ.toERC721 token events) :
      Step P Z c σ { σ with toERC721 := token } (events.map .token)
  | ownership (newOwner : Address) (hsender : σ.owner = c.msgSender)
      (hop : c.op = .renounceOwnership ∧ newOwner = 0 ∨
        c.op = .transferOwnership newOwner ∧ newOwner ≠ 0) :
      Step P Z c σ { σ with owner := newOwner }
        [.ownership (.ownershipTransferred σ.owner newOwner)]

section Steps

variable {P : Primitives} {Z : Deployed} {c : Call} {σ σ' : State} {events : List Event}

/-- The writes of the token standard mint nothing. -/
theorem zapData_eq_none_of_onLedger {owner : Address} (hop : c.op.onLedger = true) :
    c.zapData owner = none := by
  unfold Call.zapData
  cases h : c.op <;> rw [h] at hop <;> first | rfl | simp [Op.onLedger] at hop

/-- The ownership operations mint nothing. -/
theorem zapData_eq_none_of_ownership {newOwner owner : Address}
    (hop : c.op = .renounceOwnership ∧ newOwner = 0 ∨
      c.op = .transferOwnership newOwner ∧ newOwner ≠ 0) : c.zapData owner = none := by
  rcases hop with ⟨hop, -⟩ | ⟨hop, -⟩ <;> rw [Call.zapData, hop] <;> rfl

theorem step_of_onToken {body : ERC721 → Exec (ERC721 × List ERC721.Event)}
    (hop : c.op.onLedger = true)
    (hbody : ∀ token es, (body σ.toERC721).outcome = .ok (token, es) →
      ERC721.Effect σ.toERC721 token es)
    (h : (σ.onToken body).outcome = .ok (σ', events)) : Step P Z c σ σ' events := by
  simp only [State.onToken, Exec.outcome_bind_eq_ok, Exec.outcome_pure_eq_ok] at h
  obtain ⟨⟨token, es⟩, htoken, heq⟩ := h
  obtain ⟨rfl, rfl⟩ := Prod.mk.inj heq
  exact Step.token token es hop (hbody token es htoken)

theorem outcome_onOwnable {body : Ownable → Exec (Ownable × List Ownable.Event)}
    {r : Ownable × List Ownable.Event} (h : (body σ.toOwnable).outcome = .ok r) :
    (σ.onOwnable body).outcome = .ok ({ σ with toOwnable := r.1 }, r.2.map .ownership) := by
  simp only [State.onOwnable, Exec.outcome_bind_eq_ok, Exec.outcome_pure_eq_ok]
  exact ⟨r, h, rfl⟩

/-- **A successful call is a step.** -/
theorem step_of_exec (h : (exec P Z c σ).outcome = .ok (σ', events)) :
    Step P Z c σ σ' events := by
  cases hdata : c.zapData σ.owner with
  | some data =>
    obtain ⟨hauth, hmint⟩ := (outcome_exec_mint hdata).mp h
    obtain ⟨hrecord, hserial, hzapper, hnew, heq⟩ := outcome_mint_eq_ok.mp hmint
    obtain ⟨rfl, rfl⟩ := Prod.mk.inj heq
    exact Step.mint data hdata hauth hrecord hserial hzapper hnew
  | none =>
    obtain ⟨chainId, msgSender, op⟩ := c
    cases op with
    | mintByOwnerForOwner | mintByOwner | mintByZapper | mintBySignatures =>
      simp [Call.zapData, Op.zapData] at hdata
    | approve =>
      exact step_of_onToken rfl (fun _ _ => ERC721.effect_of_approve) h
    | setApprovalForAll =>
      exact step_of_onToken rfl (fun _ _ => ERC721.effect_of_setApprovalForAll) h
    | transferFrom =>
      exact step_of_onToken rfl (fun _ _ => ERC721.effect_of_transferFrom) h
    | safeTransferFrom =>
      exact step_of_onToken rfl (fun _ _ => ERC721.effect_of_safeTransferFrom) h
    | transferOwnership newOwner =>
      simp only [exec, State.onOwnable, Exec.outcome_bind_eq_ok, Exec.outcome_pure_eq_ok,
        Ownable.outcome_transferOwnership_eq_ok] at h
      obtain ⟨-, ⟨hsender, hne, rfl⟩, heq⟩ := h
      obtain ⟨rfl, rfl⟩ := Prod.mk.inj heq
      exact Step.ownership newOwner hsender (Or.inr ⟨rfl, hne⟩)
    | renounceOwnership =>
      simp only [exec, State.onOwnable, Exec.outcome_bind_eq_ok, Exec.outcome_pure_eq_ok,
        Ownable.outcome_renounceOwnership_eq_ok] at h
      obtain ⟨-, ⟨hsender, rfl⟩, heq⟩ := h
      obtain ⟨rfl, rfl⟩ := Prod.mk.inj heq
      exact Step.ownership 0 hsender (Or.inl ⟨rfl, rfl⟩)

end Steps

end Zap
end OptimismZap
