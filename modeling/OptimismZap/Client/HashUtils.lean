import OptimismZap.Contract.HashFunctions
import OptimismZap.Library.TypedData

/-!
# `HashUtils.ts` and `getZapMintIntentTypedDataToSign`

The client computes the digests of the contract without asking it.  It has no
encoder of its own: it hands lists of fields to `TypedDataUtils.sign`, which
despite its name only hashes, and to the wallet, which signs what `ethers` makes
of them.  Both packages are parameters (`Packages`), assumed to compute the
digest of EIP-712 for the messages the client builds (`Packages.Implements`).

The agreement with the contract (`digests_agree`) then rests on the lists of
fields: `encodeType` has to produce the type strings that the contract has as
literals, and `encodeData` the words the contract passes to `abi.encode`.
-/

namespace OptimismZap
namespace HashUtils

open TypedData

/-! ## The lists of fields -/

def eip712Domain : List Field :=
  [⟨"name", .string⟩, ⟨"version", .string⟩, ⟨"chainId", .uint256⟩, ⟨"verifyingContract", .address⟩]

def zapMintIntent : List Field :=
  [⟨"mintIntent", .string⟩, ⟨"ipfsHash", .fixedBytes 32⟩, ⟨"zapper", .address⟩,
    ⟨"seriesTotal", .fixedBytes 4⟩, ⟨"serialNumber", .fixedBytes 4⟩]

def zapData : List Field :=
  [⟨"ipfsHash", .fixedBytes 32⟩, ⟨"zapper", .address⟩, ⟨"seriesTotal", .fixedBytes 4⟩,
    ⟨"serialNumber", .fixedBytes 4⟩]

def seriesPublication : List Field :=
  [⟨"ipfsHash", .fixedBytes 32⟩, ⟨"zapper", .address⟩, ⟨"seriesTotal", .fixedBytes 4⟩]

def seriesFingerprint : List Field :=
  [⟨"ipfsHash", .fixedBytes 32⟩, ⟨"zapper", .address⟩]

/-- `MINT_INTENT_STATEMENT`. -/
def mintIntentStatement : String := "I intend to mint this Zap NFT."

/-! ## The objects -/

/-- `{ name, version, chainId, verifyingContract }`. -/
def domainObject (name version : Bytes) (chainId : ℕ) (contractAddress : Bytes) : Object :=
  [("name", .string name), ("version", .string version),
    ("chainId", .numeral chainId), ("verifyingContract", .bytes contractAddress)]

/-- `{ ipfsHash, zapper }`. -/
def seriesFingerprintObject (ipfsHash zapper : Bytes) : Object :=
  [("ipfsHash", .bytes ipfsHash), ("zapper", .bytes zapper)]

/-- `{ ipfsHash, zapper, seriesTotal }`. -/
def seriesPublicationObject (ipfsHash zapper seriesTotal : Bytes) : Object :=
  [("ipfsHash", .bytes ipfsHash), ("zapper", .bytes zapper), ("seriesTotal", .bytes seriesTotal)]

/-- `{ ipfsHash, zapper, seriesTotal, serialNumber }`. -/
def zapDataObject (ipfsHash zapper seriesTotal serialNumber : Bytes) : Object :=
  [("ipfsHash", .bytes ipfsHash), ("zapper", .bytes zapper), ("seriesTotal", .bytes seriesTotal),
    ("serialNumber", .bytes serialNumber)]

/-- `{ mintIntent, ipfsHash, zapper, seriesTotal, serialNumber }`. -/
def zapMintIntentObject (mintIntent ipfsHash zapper seriesTotal serialNumber : Bytes) : Object :=
  ("mintIntent", .string mintIntent) :: zapDataObject ipfsHash zapper seriesTotal serialNumber

/-- `{ types, domain, primaryType, message }`, with the type of the domain and that of the
message. -/
def typedDataFor (primaryType : String) (fields : List Field) (domain message : Object) :
    TypedData where
  types := [("EIP712Domain", eip712Domain), (primaryType, fields)]
  domain := domain
  primaryType := primaryType
  message := message

/-- What the client gives the wallet to sign. -/
structure ZapMintIntentTypedData where
  typedDataDomain : Object
  types : List (String × List Field)
  zapMintIntent : Object

/-- `getZapMintIntentTypedDataToSign`. -/
def getZapMintIntentTypedDataToSign (typedDataDomain : Object)
    (ipfsHash zapper seriesTotal serialNumber : Bytes) : ZapMintIntentTypedData where
  typedDataDomain := typedDataDomain
  types := [("ZapMintIntent", zapMintIntent)]
  zapMintIntent :=
    zapMintIntentObject (utf8 mintIntentStatement) ipfsHash zapper seriesTotal serialNumber

/-! ## The packages -/

/-- What the client calls in other packages. -/
structure Packages where
  /-- `TypedDataUtils.sign` of `eth-sig-util`: the digest of a message. -/
  sign : TypedData → Exec Bytes32
  /-- The digest that `_signTypedData(domain, types, value)` of `ethers` signs. -/
  signTypedData : Object → List (String × List Field) → Object → Exec Bytes32

/-- The fields `ethers` knows for a domain. -/
def domainFieldTypes : List Field :=
  [⟨"name", .string⟩, ⟨"version", .string⟩, ⟨"chainId", .uint256⟩, ⟨"verifyingContract", .address⟩,
    ⟨"salt", .fixedBytes 32⟩]

/-- The fields of a domain in `ethers`: those it knows that the object has. -/
def domainFields (domain : Object) : List Field :=
  domainFieldTypes.filter fun f => (domain.lookup f.name).isSome

/-- What `ethers` makes of its arguments, for a single type. -/
def ethersTypedData (domain : Object) (name : String) (fields : List Field) (value : Object) :
    TypedData where
  types := [("EIP712Domain", domainFields domain), (name, fields)]
  primaryType := name
  domain := domain
  message := value

/-- The messages the client hashes, with their types. -/
inductive Message : String → List Field → Object → Prop where
  | zapMintIntent (ipfsHash zapper seriesTotal serialNumber : Bytes) :
      Message "ZapMintIntent" zapMintIntent
        (zapMintIntentObject (utf8 mintIntentStatement) ipfsHash zapper seriesTotal serialNumber)
  | zapData (ipfsHash zapper seriesTotal serialNumber : Bytes) :
      Message "ZapData" zapData (zapDataObject ipfsHash zapper seriesTotal serialNumber)
  | seriesPublication (ipfsHash zapper seriesTotal : Bytes) :
      Message "SeriesPublication" seriesPublication
        (seriesPublicationObject ipfsHash zapper seriesTotal)
  | seriesFingerprint (ipfsHash zapper : Bytes) :
      Message "SeriesFingerprint" seriesFingerprint (seriesFingerprintObject ipfsHash zapper)

/-- The packages compute the digest of EIP-712, where there is one, for what the client gives
them: its messages on a domain of four fields. -/
structure Packages.Implements (T : Packages) (K : Bytes → Bytes32) : Prop where
  sign : ∀ {primaryType fields message}, Message primaryType fields message →
    ∀ (name version : String) chainId contractAddress h,
      ((typedDataFor primaryType fields
        (domainObject (utf8 name) (utf8 version) chainId contractAddress) message).digest
          K).outcome = .ok h →
      (T.sign (typedDataFor primaryType fields
        (domainObject (utf8 name) (utf8 version) chainId contractAddress) message)).outcome = .ok h
  signTypedData : ∀ (name version : String) chainId contractAddress
      (ipfsHash zapper seriesTotal serialNumber : Bytes) h,
    let toSign := getZapMintIntentTypedDataToSign
      (domainObject (utf8 name) (utf8 version) chainId contractAddress) ipfsHash zapper seriesTotal
      serialNumber
    ((ethersTypedData toSign.typedDataDomain "ZapMintIntent" zapMintIntent
      toSign.zapMintIntent).digest K).outcome = .ok h →
    (T.signTypedData toSign.typedDataDomain toSign.types toSign.zapMintIntent).outcome = .ok h

/-- The packages as the standard has them. -/
def Packages.standard (K : Bytes → Bytes32) : Packages where
  sign td := td.digest K
  signTypedData domain types value :=
    match types with
    | [(name, fields)] => (ethersTypedData domain name fields value).digest K
    | _ => Exec.revert "ambiguous primary types or unused types"

theorem Packages.implements_standard (K : Bytes → Bytes32) : (standard K).Implements K :=
  ⟨fun _ _ _ _ _ _ h => h, fun _ _ _ _ _ _ _ _ _ h => h⟩

/-! ## The functions of the client -/

section Functions

variable (T : Packages) (name version : String) (chainId : ℕ) (contractAddress ipfsHash zapper
  seriesTotal serialNumber : Bytes)

/-- `eip712HashZapMintIntent`. -/
def eip712HashZapMintIntent : Exec Bytes32 :=
  T.sign (typedDataFor "ZapMintIntent" zapMintIntent
    (domainObject (utf8 name) (utf8 version) chainId contractAddress)
    (zapMintIntentObject (utf8 mintIntentStatement) ipfsHash zapper seriesTotal serialNumber))

/-- `eip712HashZapData`. -/
def eip712HashZapData : Exec Bytes32 :=
  T.sign (typedDataFor "ZapData" zapData
    (domainObject (utf8 name) (utf8 version) chainId contractAddress)
    (zapDataObject ipfsHash zapper seriesTotal serialNumber))

/-- `eip712HashSeriesPublication`. -/
def eip712HashSeriesPublication : Exec Bytes32 :=
  T.sign (typedDataFor "SeriesPublication" seriesPublication
    (domainObject (utf8 name) (utf8 version) chainId contractAddress)
    (seriesPublicationObject ipfsHash zapper seriesTotal))

/-- `eip712HashSeriesFingerprint`. -/
def eip712HashSeriesFingerprint : Exec Bytes32 :=
  T.sign (typedDataFor "SeriesFingerprint" seriesFingerprint
    (domainObject (utf8 name) (utf8 version) chainId contractAddress)
    (seriesFingerprintObject ipfsHash zapper))

end Functions

/-! ## The type strings agree -/

theorem encodeType_eip712Domain : encodeType "EIP712Domain" eip712Domain = EIP712.domainType := by
  decide +kernel

theorem encodeType_zapMintIntent :
    encodeType "ZapMintIntent" zapMintIntent = Zap.zapMintIntentType := by
  decide +kernel

theorem encodeType_zapData : encodeType "ZapData" zapData = Zap.zapDataType := by
  decide +kernel

theorem encodeType_seriesPublication :
    encodeType "SeriesPublication" seriesPublication = Zap.seriesPublicationType := by
  decide +kernel

theorem encodeType_seriesFingerprint :
    encodeType "SeriesFingerprint" seriesFingerprint = Zap.seriesFingerprintType := by
  decide +kernel

/-! ## The struct hashes agree -/

section StructHashes

variable {K : Bytes → Bytes32} {ipfsHash : Bytes32} {zapper : Address}
  {seriesTotal serialNumber : Bytes4}

theorem hashStruct_domain {name version : Bytes} {chainId : Uint256} {this : Address} :
    hashStruct K "EIP712Domain" eip712Domain
        (domainObject name version chainId.toNat this.bytes) =
      ⟨.ok (K (EIP712.domainString K this chainId name version)),
        [utf8 EIP712.domainType, name, version,
          EIP712.domainString K this chainId name version]⟩ := by
  have hfields : encodeFields K (domainObject name version chainId.toNat this.bytes) eip712Domain =
      ⟨.ok [.bytes32 (K name), .bytes32 (K version), .uint256 chainId, .address this],
        [name, version]⟩ := by
    refine encodeFields_cons rfl (encodeField_string name) ?_ rfl
    refine encodeFields_cons rfl (encodeField_string version) ?_ rfl
    refine encodeFields_cons rfl (encodeField_uint256 chainId) ?_ rfl
    exact encodeFields_cons rfl (encodeField_address this) encodeFields_nil rfl
  exact hashStruct_eq encodeType_eip712Domain hfields

theorem hashStruct_zapMintIntent {mintIntent : Bytes} :
    hashStruct K "ZapMintIntent" zapMintIntent (zapMintIntentObject mintIntent ipfsHash.bytes
        zapper.bytes seriesTotal.bytes serialNumber.bytes) =
      ⟨.ok (K (abiEncode [.bytes32 (K (utf8 Zap.zapMintIntentType)), .bytes32 (K mintIntent),
          .bytes32 ipfsHash, .address zapper, .bytes4 seriesTotal, .bytes4 serialNumber])),
        [utf8 Zap.zapMintIntentType, mintIntent,
          abiEncode [.bytes32 (K (utf8 Zap.zapMintIntentType)), .bytes32 (K mintIntent),
            .bytes32 ipfsHash, .address zapper, .bytes4 seriesTotal, .bytes4 serialNumber]]⟩ := by
  have hfields : encodeFields K (zapMintIntentObject mintIntent ipfsHash.bytes zapper.bytes
      seriesTotal.bytes serialNumber.bytes) zapMintIntent =
      ⟨.ok [.bytes32 (K mintIntent), .bytes32 ipfsHash, .address zapper, .bytes4 seriesTotal,
        .bytes4 serialNumber], [mintIntent]⟩ := by
    refine encodeFields_cons rfl (encodeField_string mintIntent) ?_ rfl
    refine encodeFields_cons rfl (encodeField_fixedBytes _ ipfsHash) ?_ rfl
    refine encodeFields_cons rfl (encodeField_address zapper) ?_ rfl
    refine encodeFields_cons rfl (encodeField_fixedBytes _ seriesTotal) ?_ rfl
    exact encodeFields_cons rfl (encodeField_fixedBytes _ serialNumber) encodeFields_nil rfl
  exact hashStruct_eq encodeType_zapMintIntent hfields

end StructHashes

section Agreement

open Zap (Primitives Deployment Query)

variable {P : Primitives} {ipfsHash : Bytes32} {zapper : Address}
  {seriesTotal serialNumber : Bytes4}

theorem hashStruct_zapData :
    hashStruct P.keccak256 "ZapData" zapData (zapDataObject ipfsHash.bytes zapper.bytes
        seriesTotal.bytes serialNumber.bytes) =
      ⟨.ok (P.keccak256
          ((Query.zapData ⟨ipfsHash, zapper, seriesTotal⟩ serialNumber).structString P)),
        (Query.zapData ⟨ipfsHash, zapper, seriesTotal⟩ serialNumber).prelude P⟩ := by
  have hfields : encodeFields P.keccak256 (zapDataObject ipfsHash.bytes zapper.bytes
      seriesTotal.bytes serialNumber.bytes) zapData =
      ⟨.ok [.bytes32 ipfsHash, .address zapper, .bytes4 seriesTotal, .bytes4 serialNumber],
        []⟩ := by
    refine encodeFields_cons rfl (encodeField_fixedBytes _ ipfsHash) ?_ rfl
    refine encodeFields_cons rfl (encodeField_address zapper) ?_ rfl
    refine encodeFields_cons rfl (encodeField_fixedBytes _ seriesTotal) ?_ rfl
    exact encodeFields_cons rfl (encodeField_fixedBytes _ serialNumber) encodeFields_nil rfl
  exact hashStruct_eq encodeType_zapData hfields

theorem hashStruct_seriesPublication :
    hashStruct P.keccak256 "SeriesPublication" seriesPublication
        (seriesPublicationObject ipfsHash.bytes zapper.bytes seriesTotal.bytes) =
      ⟨.ok (P.keccak256 ((Query.seriesPublication ⟨ipfsHash, zapper, seriesTotal⟩).structString P)),
        (Query.seriesPublication ⟨ipfsHash, zapper, seriesTotal⟩).prelude P⟩ := by
  have hfields : encodeFields P.keccak256
      (seriesPublicationObject ipfsHash.bytes zapper.bytes seriesTotal.bytes) seriesPublication =
      ⟨.ok [.bytes32 ipfsHash, .address zapper, .bytes4 seriesTotal], []⟩ := by
    refine encodeFields_cons rfl (encodeField_fixedBytes _ ipfsHash) ?_ rfl
    refine encodeFields_cons rfl (encodeField_address zapper) ?_ rfl
    exact encodeFields_cons rfl (encodeField_fixedBytes _ seriesTotal) encodeFields_nil rfl
  exact hashStruct_eq encodeType_seriesPublication hfields

theorem hashStruct_seriesFingerprint :
    hashStruct P.keccak256 "SeriesFingerprint" seriesFingerprint
        (seriesFingerprintObject ipfsHash.bytes zapper.bytes) =
      ⟨.ok (P.keccak256 ((Query.seriesFingerprint ⟨ipfsHash, zapper⟩).structString P)),
        (Query.seriesFingerprint ⟨ipfsHash, zapper⟩).prelude P⟩ := by
  have hfields : encodeFields P.keccak256
      (seriesFingerprintObject ipfsHash.bytes zapper.bytes) seriesFingerprint =
      ⟨.ok [.bytes32 ipfsHash, .address zapper], []⟩ := by
    refine encodeFields_cons rfl (encodeField_fixedBytes _ ipfsHash) ?_ rfl
    exact encodeFields_cons rfl (encodeField_address zapper) encodeFields_nil rfl
  exact hashStruct_eq encodeType_seriesFingerprint hfields

/-- **A message whose struct hash is that of a call has the digest of the call**, on the
domain the contract has on that chain. -/
theorem outcome_digest {D : Deployment} {chainId : Uint256} {q : Query} {td : TypedData}
    {fields : List Field} {l : List Bytes}
    (hdomainType : td.types.lookup "EIP712Domain" = some eip712Domain)
    (hdomain : td.domain =
      domainObject (utf8 Zap.name) D.version chainId.toNat D.this.bytes)
    (htype : td.types.lookup td.primaryType = some fields)
    (hstruct : hashStruct P.keccak256 td.primaryType fields td.message =
      ⟨.ok (P.keccak256 (q.structString P)), l⟩) :
    (td.digest P.keccak256).outcome = .ok (q.eval P (D.code P).value chainId).value := by
  rw [digest_eq hdomainType htype (hdomain ▸ hashStruct_domain) hstruct, Query.value_eval]
  rfl

/-- **The client and the contract compute the same digests**, for every version, chain id,
address and data, whatever chain the contract was deployed on; and the message the client
hands to the wallet has the digest the contract checks signatures against. -/
theorem digests_agree {T : Packages} (hT : T.Implements P.keccak256) (this deployer : Address)
    (deployedAt chainId : Uint256) (version : String) (ipfsHash : Bytes32) (zapper : Address)
    (seriesTotal serialNumber : Bytes4) :
    let Z := ((⟨this, deployer, deployedAt, utf8 version⟩ : Deployment).code P).value
    let toSign := getZapMintIntentTypedDataToSign
      (domainObject (utf8 "Zap") (utf8 version) chainId.toNat this.bytes) ipfsHash.bytes
      zapper.bytes seriesTotal.bytes serialNumber.bytes
    (eip712HashZapMintIntent T "Zap" version chainId.toNat this.bytes ipfsHash.bytes zapper.bytes
        seriesTotal.bytes serialNumber.bytes).outcome =
      .ok (Zap.eip712HashZapMintIntent P Z chainId ⟨ipfsHash, zapper, seriesTotal⟩
        serialNumber).value ∧
    (eip712HashZapData T "Zap" version chainId.toNat this.bytes ipfsHash.bytes zapper.bytes
        seriesTotal.bytes serialNumber.bytes).outcome =
      .ok (Zap.eip712HashZapData P Z chainId ⟨ipfsHash, zapper, seriesTotal⟩
        serialNumber).value ∧
    (eip712HashSeriesPublication T "Zap" version chainId.toNat this.bytes ipfsHash.bytes
        zapper.bytes seriesTotal.bytes).outcome =
      .ok (Zap.eip712HashSeriesPublication P Z chainId ⟨ipfsHash, zapper, seriesTotal⟩).value ∧
    (eip712HashSeriesFingerprint T "Zap" version chainId.toNat this.bytes ipfsHash.bytes
        zapper.bytes).outcome =
      .ok (Zap.eip712HashSeriesFingerprint P Z chainId ⟨ipfsHash, zapper⟩).value ∧
    (T.signTypedData toSign.typedDataDomain toSign.types toSign.zapMintIntent).outcome =
      .ok (Zap.eip712HashZapMintIntent P Z chainId ⟨ipfsHash, zapper, seriesTotal⟩
        serialNumber).value := by
  intro Z toSign
  refine ⟨hT.sign (.zapMintIntent _ _ _ _) _ _ _ _ _ ?_, hT.sign (.zapData _ _ _ _) _ _ _ _ _ ?_,
    hT.sign (.seriesPublication _ _ _) _ _ _ _ _ ?_,
    hT.sign (.seriesFingerprint _ _) _ _ _ _ _ ?_, hT.signTypedData _ _ _ _ _ _ _ _ _ ?_⟩
  · exact outcome_digest (q := .zapMintIntent ⟨ipfsHash, zapper, seriesTotal⟩ serialNumber)
      rfl rfl rfl hashStruct_zapMintIntent
  · exact outcome_digest (q := .zapData ⟨ipfsHash, zapper, seriesTotal⟩ serialNumber)
      rfl rfl rfl hashStruct_zapData
  · exact outcome_digest (q := .seriesPublication ⟨ipfsHash, zapper, seriesTotal⟩)
      rfl rfl rfl hashStruct_seriesPublication
  · exact outcome_digest (q := .seriesFingerprint ⟨ipfsHash, zapper⟩)
      rfl rfl rfl hashStruct_seriesFingerprint
  · exact outcome_digest (q := .zapMintIntent ⟨ipfsHash, zapper, seriesTotal⟩ serialNumber)
      rfl rfl rfl hashStruct_zapMintIntent

/-- The digests of the example zap, on a chain the contract was not deployed on. -/
theorem sample_digests_agree :
    let T := Packages.standard Zap.Sample.primitives.keccak256
    let this := Zap.Sample.deployment.this
    let data := Zap.Sample.data 42
    let Z := ((⟨this, Zap.Sample.deployer, 420, utf8 "0.1.0"⟩ : Deployment).code
      Zap.Sample.primitives).value
    let toSign := getZapMintIntentTypedDataToSign
      (domainObject (utf8 "Zap") (utf8 "0.1.0") (10 : Uint256).toNat this.bytes)
      data.ipfsHash.bytes data.zapper.bytes data.seriesTotal.bytes data.serialNumber.bytes
    let mintIntentHash : Bytes32 :=
      .ofNat 32 0x629E58DDD199A5CDAEDDB3BE684A3ACB912E84194F02B981CD2DECA8AF7F8FCB
    let zapHash : Bytes32 :=
      .ofNat 32 0xE0A4523251D6A65038B9B642CE4E81D370200210BEB9A7E1ED100B51DE8B2EAB
    let publicationHash : Bytes32 :=
      .ofNat 32 0xD80404F1F6D82BF9DA7DC4B10AB0BB16BEE23CD8C0EDC3E5DE0F1B235822FDA8
    let fingerprintHash : Bytes32 :=
      .ofNat 32 0xBF586446296178EB76A422C71E3AEEE12AB1642BD02C3A10F4746216F14E6DC0
    (eip712HashZapMintIntent T "Zap" "0.1.0" (10 : Uint256).toNat this.bytes data.ipfsHash.bytes
        data.zapper.bytes data.seriesTotal.bytes data.serialNumber.bytes).outcome =
      .ok mintIntentHash ∧
    (eip712HashZapData T "Zap" "0.1.0" (10 : Uint256).toNat this.bytes data.ipfsHash.bytes
        data.zapper.bytes data.seriesTotal.bytes data.serialNumber.bytes).outcome =
      .ok zapHash ∧
    (eip712HashSeriesPublication T "Zap" "0.1.0" (10 : Uint256).toNat this.bytes
        data.ipfsHash.bytes data.zapper.bytes data.seriesTotal.bytes).outcome =
      .ok publicationHash ∧
    (eip712HashSeriesFingerprint T "Zap" "0.1.0" (10 : Uint256).toNat this.bytes
        data.ipfsHash.bytes data.zapper.bytes).outcome =
      .ok fingerprintHash ∧
    (T.signTypedData toSign.typedDataDomain toSign.types toSign.zapMintIntent).outcome =
      .ok mintIntentHash ∧
    (Zap.eip712HashZapMintIntent Zap.Sample.primitives Z 10 data.publication
      data.serialNumber).value = mintIntentHash ∧
    (Zap.eip712HashZapData Zap.Sample.primitives Z 10 data.publication data.serialNumber).value =
      zapHash ∧
    (Zap.eip712HashSeriesPublication Zap.Sample.primitives Z 10 data.publication).value =
      publicationHash ∧
    (Zap.eip712HashSeriesFingerprint Zap.Sample.primitives Z 10 data.fingerprint).value =
      fingerprintHash := by
  intro T this data Z toSign mintIntentHash zapHash publicationHash fingerprintHash
  have hvalues : (Zap.eip712HashZapMintIntent Zap.Sample.primitives Z 10 data.publication
        data.serialNumber).value = mintIntentHash ∧
      (Zap.eip712HashZapData Zap.Sample.primitives Z 10 data.publication
        data.serialNumber).value = zapHash ∧
      (Zap.eip712HashSeriesPublication Zap.Sample.primitives Z 10 data.publication).value =
        publicationHash ∧
      (Zap.eip712HashSeriesFingerprint Zap.Sample.primitives Z 10 data.fingerprint).value =
        fingerprintHash := by
    unfold Z
    rw [Zap.Sample.primitives_eq]
    decide +kernel
  obtain ⟨hintent, hzap, hpublication, hfingerprint, hsigned⟩ :=
    digests_agree (Packages.implements_standard Zap.Sample.primitives.keccak256)
      this Zap.Sample.deployer 420 10 "0.1.0" data.ipfsHash data.zapper data.seriesTotal
      data.serialNumber
  obtain ⟨hvalueIntent, hvalueZap, hvaluePublication, hvalueFingerprint⟩ := hvalues
  exact ⟨hintent.trans (congrArg _ hvalueIntent), hzap.trans (congrArg _ hvalueZap),
    hpublication.trans (congrArg _ hvaluePublication),
    hfingerprint.trans (congrArg _ hvalueFingerprint), hsigned.trans (congrArg _ hvalueIntent),
    hvalueIntent, hvalueZap, hvaluePublication, hvalueFingerprint⟩

end Agreement

end HashUtils
end OptimismZap
