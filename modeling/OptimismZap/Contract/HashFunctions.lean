import OptimismZap.Library.Keccak
import OptimismZap.OpenZeppelin.EIP712

/-!
# The hash functions of `OptimismZap.sol`

The structs a zap is made of, the type strings, and the four functions that turn
a struct into an EIP-712 digest: `eip712HashZapMintIntent`, which accounts sign,
`eip712HashZapData`, which is the token id, `eip712HashSeriesFingerprint`, which
is the key of the publication table, and `eip712HashSeriesPublication`.

The four have different encodings and one frame.  `Query` names an evaluation of
any of them, `Query.structString` is the string its struct hash is taken of, and
`Query.value_eval` says that every digest is

    keccak256(0x1901 ‖ keccak256(domain) ‖ keccak256(structString)).

Struct strings of different functions have different lengths and those of one
function are injective (`Query.structString_injective`), so two equal digests
either come from one query on one domain, or hand out a collision.
-/

namespace OptimismZap
namespace Zap

/-! ## Structs -/

/-- The unique data in a Zap series. -/
structure SeriesFingerprint where
  ipfsHash : Bytes32
  zapper : Address
  deriving DecidableEq

/-- A publication of a Zap series. -/
structure SeriesPublication where
  ipfsHash : Bytes32
  zapper : Address
  seriesTotal : Bytes4
  deriving DecidableEq

/-- A Zap: the series it belongs to and its serial number in it. -/
@[ext] structure ZapData where
  ipfsHash : Bytes32
  zapper : Address
  seriesTotal : Bytes4
  serialNumber : Bytes4
  deriving DecidableEq

/-- The record an unwritten slot of the publication table holds. -/
instance : Zero SeriesPublication := ⟨⟨0, 0, 0⟩⟩

/-- The words of a publication inside an encoding. -/
def SeriesPublication.words (publication : SeriesPublication) : List AbiValue :=
  [.bytes32 publication.ipfsHash, .address publication.zapper, .bytes4 publication.seriesTotal]

/-- The words of a fingerprint inside an encoding. -/
def SeriesFingerprint.words (fingerprint : SeriesFingerprint) : List AbiValue :=
  [.bytes32 fingerprint.ipfsHash, .address fingerprint.zapper]

/-- The series a zap belongs to. -/
abbrev ZapData.fingerprint (data : ZapData) : SeriesFingerprint := ⟨data.ipfsHash, data.zapper⟩

/-- The publication a zap belongs to. -/
abbrev ZapData.publication (data : ZapData) : SeriesPublication :=
  ⟨data.ipfsHash, data.zapper, data.seriesTotal⟩

/-! ## Type strings -/

def seriesFingerprintType : String := "SeriesFingerprint(bytes32 ipfsHash,address zapper)"

def seriesPublicationType : String :=
  "SeriesPublication(bytes32 ipfsHash,address zapper,bytes4 seriesTotal)"

def zapDataType : String :=
  "ZapData(bytes32 ipfsHash,address zapper,bytes4 seriesTotal,bytes4 serialNumber)"

def zapMintIntentType : String :=
  "ZapMintIntent(string mintIntent,bytes32 ipfsHash,address zapper,bytes4 seriesTotal,bytes4 serialNumber)"

def mintIntentStatement : String := "I intend to mint this Zap NFT."

/-! ## Deployment -/

/-- What the virtual machine supplies: its hash opcode and its signature
precompile. -/
structure Primitives where
  keccak256 : Bytes → Bytes32
  /-- The account behind a signature, zero when there is none. -/
  ecrecover : Bytes32 → UInt8 → Bytes32 → Bytes32 → Address

/-- A transaction that deploys the contract. -/
structure Deployment where
  /-- The address the contract gets. -/
  this : Address
  /-- `msg.sender` of the deployment. -/
  deployer : Address
  /-- `block.chainid` at the deployment. -/
  chainId : Uint256
  /-- The argument of the constructor. -/
  version : Bytes

/-- The deployed code: its own address and its immutable values. -/
structure Deployed where
  this : Address
  eip712 : EIP712

/-- The name passed to the constructors of `ERC721` and `EIP712`. -/
def name : String := "Zap"

variable (P : Primitives)

/-- The code a deployment leaves behind. -/
def Deployment.code (D : Deployment) : Hashing Deployed := do
  let eip712 ← EIP712.deploy P.keccak256 D.this D.chainId (utf8 name) D.version
  return ⟨D.this, eip712⟩

/-! ## The four functions -/

section Functions

variable (Z : Deployed) (chainId : Uint256)

/-- `keccak256(bytes(...))` of a string constant. -/
def hashString (s : String) : Hashing Bytes32 := Hashing.query P.keccak256 (utf8 s)

/-- `eip712HashZapMintIntent`. -/
def eip712HashZapMintIntent (publication : SeriesPublication) (serialNumber : Bytes4) :
    Hashing Bytes32 := do
  let zapMintIntentTypeHash ← hashString P zapMintIntentType
  let mintIntentStatementHash ← hashString P mintIntentStatement
  let structHash ← Hashing.query P.keccak256 (abiEncode
    (.bytes32 zapMintIntentTypeHash :: .bytes32 mintIntentStatementHash ::
      (publication.words ++ [.bytes4 serialNumber])))
  Z.eip712.hashTypedDataV4 P.keccak256 Z.this chainId structHash

/-- `eip712HashZapData`. -/
def eip712HashZapData (publication : SeriesPublication) (serialNumber : Bytes4) :
    Hashing Bytes32 := do
  let zapDataTypeHash ← hashString P zapDataType
  let structHash ← Hashing.query P.keccak256 (abiEncode
    (.bytes32 zapDataTypeHash :: (publication.words ++ [.bytes4 serialNumber])))
  Z.eip712.hashTypedDataV4 P.keccak256 Z.this chainId structHash

/-- `eip712HashSeriesPublication`. -/
def eip712HashSeriesPublication (publication : SeriesPublication) : Hashing Bytes32 := do
  let seriesPublicationTypeHash ← hashString P seriesPublicationType
  let structHash ← Hashing.query P.keccak256 (abiEncode
    (.bytes32 seriesPublicationTypeHash :: publication.words))
  Z.eip712.hashTypedDataV4 P.keccak256 Z.this chainId structHash

/-- `eip712HashSeriesFingerprint`. -/
def eip712HashSeriesFingerprint (fingerprint : SeriesFingerprint) : Hashing Bytes32 := do
  let seriesFingerprintTypeHash ← hashString P seriesFingerprintType
  let structHash ← Hashing.query P.keccak256 (abiEncode
    (.bytes32 seriesFingerprintTypeHash :: fingerprint.words))
  Z.eip712.hashTypedDataV4 P.keccak256 Z.this chainId structHash

end Functions

/-! ## Queries -/

/-- A call of one of the four functions. -/
inductive Query where
  | zapMintIntent (publication : SeriesPublication) (serialNumber : Bytes4)
  | zapData (publication : SeriesPublication) (serialNumber : Bytes4)
  | seriesPublication (publication : SeriesPublication)
  | seriesFingerprint (fingerprint : SeriesFingerprint)
  deriving DecidableEq

namespace Query

/-- The call itself. -/
def eval (Z : Deployed) (chainId : Uint256) : Query → Hashing Bytes32
  | zapMintIntent publication serialNumber =>
    eip712HashZapMintIntent P Z chainId publication serialNumber
  | zapData publication serialNumber => eip712HashZapData P Z chainId publication serialNumber
  | seriesPublication publication => eip712HashSeriesPublication P Z chainId publication
  | seriesFingerprint fingerprint => eip712HashSeriesFingerprint P Z chainId fingerprint

/-- The string whose hash is the struct hash of the call. -/
def structString : Query → Bytes
  | zapMintIntent publication serialNumber =>
    abiEncode (.bytes32 (P.keccak256 (utf8 zapMintIntentType)) ::
      .bytes32 (P.keccak256 (utf8 mintIntentStatement)) ::
        (publication.words ++ [.bytes4 serialNumber]))
  | zapData publication serialNumber =>
    abiEncode (.bytes32 (P.keccak256 (utf8 zapDataType)) ::
      (publication.words ++ [.bytes4 serialNumber]))
  | seriesPublication publication =>
    abiEncode (.bytes32 (P.keccak256 (utf8 seriesPublicationType)) :: publication.words)
  | seriesFingerprint fingerprint =>
    abiEncode (.bytes32 (P.keccak256 (utf8 seriesFingerprintType)) :: fingerprint.words)

/-- What a call hashes before its last step. -/
def prelude : Query → List Bytes
  | q@(zapMintIntent _ _) =>
    [utf8 zapMintIntentType, utf8 mintIntentStatement, q.structString P]
  | q@(zapData _ _) => [utf8 zapDataType, q.structString P]
  | q@(seriesPublication _) => [utf8 seriesPublicationType, q.structString P]
  | q@(seriesFingerprint _) => [utf8 seriesFingerprintType, q.structString P]

variable {P}

/-- **A struct string determines the function and all its arguments.**  The
number of words tells the functions apart, and the words tell the arguments. -/
theorem structString_injective : Function.Injective (structString P) := by
  intro q q' h
  have hlen := congrArg List.length h
  cases q <;> cases q' <;>
    simp only [structString, length_abiEncode, List.length_cons, List.length_append,
      SeriesPublication.words, SeriesFingerprint.words, List.length_nil] at hlen <;>
    try omega
  all_goals
    simp only [structString, SeriesPublication.words, SeriesFingerprint.words,
      List.cons_append, List.nil_append, abiEncode_cons_inj, AbiValue.encode_bytes32_inj,
      AbiValue.encode_address_inj, AbiValue.encode_bytes4_inj] at h
    grind [cases SeriesPublication, cases SeriesFingerprint]

/-- The four functions are one: hash the struct string, then the typed data. -/
theorem eval_eq (Z : Deployed) (chainId : Uint256) (q : Query) :
    q.eval P Z chainId =
      (⟨P.keccak256 (q.structString P), q.prelude P⟩ : Hashing Bytes32) >>=
        Z.eip712.hashTypedDataV4 P.keccak256 Z.this chainId := by
  cases q <;> rfl

section Deployed

variable {D : Deployment} {chainId : Uint256} {q : Query}

/-- **Every digest has one shape**, whatever the function, and whether the domain
separator is the cached or a rebuilt one. -/
theorem value_eval : (q.eval P (D.code P).value chainId).value =
    P.keccak256 (EIP712.typedDataEncoding
      (P.keccak256 (EIP712.domainString P.keccak256 D.this chainId (utf8 name) D.version))
      (P.keccak256 (q.structString P))) := by
  rw [eval_eq]
  exact EIP712.value_hashTypedDataV4

theorem structString_mem : q.structString P ∈ (q.eval P (D.code P).value chainId).hashed := by
  rw [eval_eq]
  refine List.mem_append_left _ ?_
  cases q <;> simp [prelude]

end Deployed

end Query

/-! ## A sample deployment

Two accounts, version 0.1.0 on the local chain and the example zap of the tests.  The
digests are those of the hash function itself (`digests_correct`).
-/

namespace Sample

/-- The first account of the local network. -/
def deployer : Address := .ofNat 20 0x05A0D539D31C2A6FC2D368D27F1CE44CA65AE893

/-- The second account of the local network. -/
def zapper : Address := .ofNat 20 0xEAF6C8D557813F7C6A725A9E1760AACA2A14D2CD

/-- Version 0.1.0, deployed on the local chain. -/
def deployment : Deployment where
  this := .ofNat 20 0xB700DC2E46FF6A135134410B0162CFA7CDC52A2F
  deployer := deployer
  chainId := 420
  version := utf8 "0.1.0"

/-- A zap with the example data of the tests. -/
def data (serialNumber : ℕ) : ZapData where
  ipfsHash := .ofNat 32 0x0123456789ABCDEF0123456789ABCDEF0123456789ABCDEF0123456789ABCDEF
  zapper := zapper
  seriesTotal := .ofNat 4 420
  serialNumber := .ofNat 4 serialNumber

/-- Strings of this deployment on chains 420 and 10, with their digests. -/
def digests : List (Bytes × Bytes32) :=
  let nameHash := .ofNat 32 0x53BCFC4BE5AC9BD7B6D26A5DEA686EC466227DF104B85A4C1F3EE46C93FB2D03
  let versionHash := .ofNat 32 0xAA7CDBE2CCE2EC7B606B0E199DDD9B264A6E645E767FB8479A7917DCD1B8693F
  let domainType := .ofNat 32 0x8B73C3C69BB8FE3D512ECC4CF759CC79239F7B179B0FFACAA9A75D522B39400F
  let domain420 := .ofNat 32 0x36FD4FC5D770149937A502CC6B8E827AB9670C0B9877661D3A3BC7BE2D1DFE34
  let domain10 := .ofNat 32 0x3D7F8814F246E3DEB44B46642BF4C24EC68402811BCAB984B11FF94BEF8432D9
  let fingerprintType :=
    .ofNat 32 0x0BAB355C020256E6C6A2F05BD7BF5EDCB4510399D86B0C6FF641BD27CC9AC399
  let fingerprint := .ofNat 32 0xC817C06FF3412B4AFE7C72892BA31610137434F519A67756C4D3CBB9B9B4CFED
  let zapType := .ofNat 32 0x3F684CA0807EFFFB667BFF744FD21221A15BDB33A7C49D2ADD13ECA193D7B3BC
  let zap42 := .ofNat 32 0xE4F24147146F67267E7AB6C894F0CFAA402FABD45E379B47C1DED6B450BFE218
  let zap43 := .ofNat 32 0xC33DDDA1F7B1CB63C6117BF12B1D6020D2F51461295F563E4D4CC3C496ED7B16
  let intentType := .ofNat 32 0x7D9A2BDEC613D1DA64AB1B5B3A82D1EECDCF70A5D9B5A4688B2842CC2ECE41F6
  let statement := .ofNat 32 0x9DC48BC7E452AB81EDBA323204FD4A95AC38279D98C47894F4A8C9DC69CEBABE
  let intent42 := .ofNat 32 0x260B26CD70DFE9AF29077A8695BB3638FAD3DB853068A13F2FF3B9159148FC5B
  let words := fun serialNumber : ℕ =>
    (data serialNumber).publication.words ++ [.bytes4 (.ofNat 4 serialNumber)]
  [(utf8 name, nameHash),
   (deployment.version, versionHash),
   (utf8 EIP712.domainType, domainType),
   (EIP712.domainEncoding domainType nameHash versionHash 420 deployment.this, domain420),
   (EIP712.domainEncoding domainType nameHash versionHash 10 deployment.this, domain10),
   (utf8 seriesFingerprintType, fingerprintType),
   (abiEncode (.bytes32 fingerprintType :: (data 42).fingerprint.words), fingerprint),
   (EIP712.typedDataEncoding domain420 fingerprint,
    .ofNat 32 0xB47AE9A2815D60AB2A99C4DE836A724DB7CEAC003A8E24650D49B9E2FA048B22),
   (EIP712.typedDataEncoding domain10 fingerprint,
    .ofNat 32 0xBF586446296178EB76A422C71E3AEEE12AB1642BD02C3A10F4746216F14E6DC0),
   (utf8 zapDataType, zapType),
   (abiEncode (.bytes32 zapType :: words 42), zap42),
   (abiEncode (.bytes32 zapType :: words 43), zap43),
   (EIP712.typedDataEncoding domain420 zap42,
    .ofNat 32 0x2896EE46FD494B4DFFB294B11E5808973B032CC0A1D88CF07EDE3D4468502E96),
   (EIP712.typedDataEncoding domain420 zap43,
    .ofNat 32 0xFD9C8E3451C97AA792E18DF713383A035B602516FB49FCB74C46727D87F6CCDB),
   (EIP712.typedDataEncoding domain10 zap42,
    .ofNat 32 0xE0A4523251D6A65038B9B642CE4E81D370200210BEB9A7E1ED100B51DE8B2EAB),
   (utf8 zapMintIntentType, intentType),
   (utf8 mintIntentStatement, statement),
   (abiEncode (.bytes32 intentType :: .bytes32 statement :: words 42), intent42),
   (EIP712.typedDataEncoding domain420 intent42,
    .ofNat 32 0x4B09AFF8EEBBA976F8B64E12187B44774694E72E7B7F3D4E0961B3124B1BA724)]

theorem digests_correct : ∀ p ∈ digests, keccak256 p.1 = p.2 := by decide +kernel

/-- The signature of the zapper under the intent to mint the zap with serial number 42. -/
def signature : Bytes :=
  (FixedBytes.ofNat 32 0x6FF0D6A6E385D03D37664B3A8DAB28819E5A09D0CECE45679F12CEF1A0DC9117).bytes ++
  (FixedBytes.ofNat 32 0x0A63053C7190001C1BF99B61492D6F36CEE6AA1DC2BEE0E2D0730AFB37CD6174).bytes ++
  [28]

/-- The signature of the deployer under the same intent. -/
def ownerSignature : Bytes :=
  (FixedBytes.ofNat 32 0xBB98F2DBF14C245A3516AC924068B502DEF6A8A58F87C70B0446B49ED5F7271A).bytes ++
  (FixedBytes.ofNat 32 0x6FBA225D71C84103CFAAFF3CD5D251EBFD77A776C6E50F17C8A53150E28FA509).bytes ++
  [27]

/-- The hash function, and as much of the signature precompile as knows these signatures. -/
def primitives : Primitives where
  keccak256 := keccak256
  ecrecover hash v r s :=
    if hash = .ofNat 32 0x4B09AFF8EEBBA976F8B64E12187B44774694E72E7B7F3D4E0961B3124B1BA724 then
      if r.bytes ++ s.bytes ++ [v] = signature then
        zapper
      else if r.bytes ++ s.bytes ++ [v] = ownerSignature then
        deployer
      else
        0
    else
      0

/-- The sample can be computed with a table of digests at hand. -/
theorem primitives_eq_of_table {table : List (Bytes × Bytes32)}
    (h : ∀ p ∈ table, keccak256 p.1 = p.2) :
    primitives = { primitives with keccak256 := memo table keccak256 } := by
  rw [memo_eq h]
  rfl

theorem primitives_eq : primitives = { primitives with keccak256 := memo digests keccak256 } :=
  primitives_eq_of_table digests_correct

/-- What hashes nothing but these strings has no collisions. -/
theorem collisionFree {l : List Bytes} (h : ∀ b ∈ l, b ∈ digests.map Prod.fst) :
    CollisionFree primitives.keccak256 l :=
  CollisionFree.of_table digests_correct (by decide +kernel) h

end Sample

/-! ## Equal digests -/

/-- A call of one of the four functions of some deployment, on some chain. -/
structure Evaluation where
  deployment : Deployment
  /-- `block.chainid` at the call. -/
  chainId : Uint256
  query : Query

namespace Evaluation

/-- Deploys, then calls. -/
def run (e : Evaluation) : Hashing Bytes32 := do
  let Z ← e.deployment.code P
  e.query.eval P Z e.chainId

variable {P}

/-- The string of the domain the call is made on. -/
def domainString (P : Primitives) (e : Evaluation) : Bytes :=
  EIP712.domainString P.keccak256 e.deployment.this e.chainId (utf8 name) e.deployment.version

theorem value_run (e : Evaluation) : (e.run P).value =
    P.keccak256 (EIP712.typedDataEncoding (P.keccak256 (e.domainString P))
      (P.keccak256 (e.query.structString P))) :=
  Query.value_eval

theorem typedData_mem (e : Evaluation) :
    EIP712.typedDataEncoding (P.keccak256 (e.domainString P))
      (P.keccak256 (e.query.structString P)) ∈ (e.run P).hashed := by
  rw [run, Hashing.hashed_bind, Query.eval_eq]
  exact List.mem_append_right _ (List.mem_append_right _ EIP712.typedDataEncoding_mem)

theorem structString_mem (e : Evaluation) : e.query.structString P ∈ (e.run P).hashed :=
  List.mem_append_right _ Query.structString_mem

theorem domainString_mem (e : Evaluation) : e.domainString P ∈ (e.run P).hashed := by
  have hsub : (EIP712.deploy P.keccak256 e.deployment.this e.deployment.chainId (utf8 name)
      e.deployment.version).hashed ++ (EIP712.hashTypedDataV4 P.keccak256
        (e.deployment.code P).value.eip712 e.deployment.this e.chainId
          (P.keccak256 (e.query.structString P))).hashed ⊆ (e.run P).hashed := by
    rw [run, Hashing.hashed_bind, Query.eval_eq]
    refine List.append_subset.mpr ⟨?_, ?_⟩
    · refine List.Subset.trans ?_ (List.subset_append_left _ _)
      exact List.subset_append_left _ _
    · refine List.Subset.trans ?_ (List.subset_append_right _ _)
      exact List.subset_append_right _ _
  exact hsub EIP712.domainString_mem

theorem version_mem (e : Evaluation) : e.deployment.version ∈ (e.run P).hashed := by
  refine List.mem_append_left _ (List.mem_append_left _ ?_)
  exact EIP712.version_mem

/-- Equal digests descend through the three layers of hashing: the typed data,
then the struct and the domain, then the version.  At each layer the strings are
equal or a collision. -/
theorem eq_or_collision_of_value_eq {e e' : Evaluation}
    (h : (e.run P).value = (e'.run P).value) :
    (e.query = e'.query ∧ e.deployment.this = e'.deployment.this ∧ e.chainId = e'.chainId ∧
      e.deployment.version = e'.deployment.version) ∨
    Collision P.keccak256 (e.run P).hashed (e'.run P).hashed := by
  rw [value_run, value_run] at h
  rcases eq_or_collision e.typedData_mem e'.typedData_mem h with h | h
  · obtain ⟨hdomain, hstruct⟩ := EIP712.typedDataEncoding_inj h
    rcases eq_or_collision e.structString_mem e'.structString_mem hstruct with h | h
    · have hquery := Query.structString_injective h
      rcases eq_or_collision e.domainString_mem e'.domainString_mem hdomain with h | h
      · obtain ⟨-, hversion, hchain, hthis⟩ := EIP712.domainEncoding_inj h
        rcases eq_or_collision e.version_mem e'.version_mem hversion with h | h
        · exact Or.inl ⟨hquery, hthis, hchain, h⟩
        · exact Or.inr h
      · exact Or.inr h
    · exact Or.inr h
  · exact Or.inr h

end Evaluation

/-! ### The fields of a call -/

/-- The names of the four functions. -/
inductive HashFunction where
  | zapMintIntent
  | zapData
  | seriesPublication
  | seriesFingerprint
  deriving DecidableEq

namespace Query

/-- The function a call is of. -/
def function : Query → HashFunction
  | zapMintIntent .. => .zapMintIntent
  | zapData .. => .zapData
  | seriesPublication .. => .seriesPublication
  | seriesFingerprint .. => .seriesFingerprint

/-- The field `ipfsHash`, which every struct has. -/
def ipfsHash : Query → Bytes32
  | zapMintIntent publication _ | zapData publication _ | seriesPublication publication =>
    publication.ipfsHash
  | seriesFingerprint fingerprint => fingerprint.ipfsHash

/-- The field `zapper`, which every struct has. -/
def zapper : Query → Address
  | zapMintIntent publication _ | zapData publication _ | seriesPublication publication =>
    publication.zapper
  | seriesFingerprint fingerprint => fingerprint.zapper

/-- The field `seriesTotal`, if the struct has it. -/
def seriesTotal? : Query → Option Bytes4
  | zapMintIntent publication _ | zapData publication _ | seriesPublication publication =>
    some publication.seriesTotal
  | seriesFingerprint _ => none

/-- The field `serialNumber`, if the struct has it. -/
def serialNumber? : Query → Option Bytes4
  | zapMintIntent _ serialNumber | zapData _ serialNumber => some serialNumber
  | seriesPublication _ | seriesFingerprint _ => none

end Query

/-- The id of the example zap on chain 10, the contract being deployed on `deployedAt`. -/
def Sample.evaluation (deployedAt : Uint256) : Evaluation where
  deployment := { Sample.deployment with chainId := deployedAt }
  chainId := 10
  query := .zapData (Sample.data 42).publication (Sample.data 42).serialNumber

/-- **A digest determines everything that went into it.**  If two calls of hash functions, of
any deployments on any chains, have the same digest, then they are calls of one function with
the same fields, on the same address, chain and version, or two different strings with the
same hash are among those the two evaluations have hashed. -/
theorem Evaluation.fields_eq_or_collision {P : Primitives} {e e' : Evaluation}
    (h : (e.run P).value = (e'.run P).value) :
    (e.query.function = e'.query.function ∧ e.query.ipfsHash = e'.query.ipfsHash ∧
      e.query.zapper = e'.query.zapper ∧ e.query.seriesTotal? = e'.query.seriesTotal? ∧
      e.query.serialNumber? = e'.query.serialNumber? ∧
      e.deployment.this = e'.deployment.this ∧ e.chainId = e'.chainId ∧
      e.deployment.version = e'.deployment.version) ∨
    ∃ a ∈ (e.run P).hashed, ∃ b ∈ (e'.run P).hashed,
      a ≠ b ∧ P.keccak256 a = P.keccak256 b := by
  rcases eq_or_collision_of_value_eq h with ⟨hquery, hrest⟩ | hcollision
  · rw [hquery]
    exact Or.inl ⟨rfl, rfl, rfl, rfl, rfl, hrest⟩
  · exact Or.inr hcollision

/-- The example zap has one digest on chain 10, whichever chain the contract was deployed on. -/
theorem sample_fields_of_digest :
    ((Sample.evaluation 420).run Sample.primitives).value =
      .ofNat 32 0xE0A4523251D6A65038B9B642CE4E81D370200210BEB9A7E1ED100B51DE8B2EAB ∧
    ((Sample.evaluation 10).run Sample.primitives).value =
      .ofNat 32 0xE0A4523251D6A65038B9B642CE4E81D370200210BEB9A7E1ED100B51DE8B2EAB ∧
    ((Sample.evaluation 420).query.function = (Sample.evaluation 10).query.function ∧
      (Sample.evaluation 420).query.ipfsHash = (Sample.evaluation 10).query.ipfsHash ∧
      (Sample.evaluation 420).query.zapper = (Sample.evaluation 10).query.zapper ∧
      (Sample.evaluation 420).query.seriesTotal? = (Sample.evaluation 10).query.seriesTotal? ∧
      (Sample.evaluation 420).query.serialNumber? = (Sample.evaluation 10).query.serialNumber? ∧
      (Sample.evaluation 420).deployment.this = (Sample.evaluation 10).deployment.this ∧
      (Sample.evaluation 420).chainId = (Sample.evaluation 10).chainId ∧
      (Sample.evaluation 420).deployment.version = (Sample.evaluation 10).deployment.version ∨
    ∃ a ∈ ((Sample.evaluation 420).run Sample.primitives).hashed,
      ∃ b ∈ ((Sample.evaluation 10).run Sample.primitives).hashed,
        a ≠ b ∧ Sample.primitives.keccak256 a = Sample.primitives.keccak256 b) := by
  have hvalues : ((Sample.evaluation 420).run Sample.primitives).value =
        .ofNat 32 0xE0A4523251D6A65038B9B642CE4E81D370200210BEB9A7E1ED100B51DE8B2EAB ∧
      ((Sample.evaluation 10).run Sample.primitives).value =
        .ofNat 32 0xE0A4523251D6A65038B9B642CE4E81D370200210BEB9A7E1ED100B51DE8B2EAB := by
    rw [Sample.primitives_eq]
    decide +kernel
  exact ⟨hvalues.1, hvalues.2,
    Evaluation.fields_eq_or_collision (hvalues.1.trans hvalues.2.symm)⟩

/-- **Without collisions a digest determines its query and its chain.**  One
deployment, two calls on perhaps different chains. -/
theorem Query.eval_inj {P : Primitives} {D : Deployment} {k k' : Uint256} (q q' : Query)
    {H : List Bytes} (hK : CollisionFree P.keccak256 H) (hD : (D.code P).hashed ⊆ H)
    (hq : (q.eval P (D.code P).value k).hashed ⊆ H)
    (hq' : (q'.eval P (D.code P).value k').hashed ⊆ H)
    (h : (q.eval P (D.code P).value k).value = (q'.eval P (D.code P).value k').value) :
    q = q' ∧ k = k' := by
  have hrun : ((⟨D, k, q⟩ : Evaluation).run P).value =
      ((⟨D, k', q'⟩ : Evaluation).run P).value := h
  rcases Evaluation.eq_or_collision_of_value_eq hrun with ⟨hquery, -, hchain, -⟩ | hcollision
  · exact ⟨hquery, hchain⟩
  · exact absurd hcollision
      (hK.not_collision (List.append_subset.mpr ⟨hD, hq⟩) (List.append_subset.mpr ⟨hD, hq'⟩))

end Zap
end OptimismZap
