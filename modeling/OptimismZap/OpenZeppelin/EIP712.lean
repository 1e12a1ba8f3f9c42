import OptimismZap.Library.AbiEncoding
import OptimismZap.Library.Hashing

/-!
# `drafts/EIP712.sol`

The domain separator and the final step of an EIP-712 digest.  The constructor
stores the hashed name and version, and a separator together with the chain id
it was built for; `domainSeparatorV4` returns the stored separator on that chain
and builds a new one on any other.

The caching is invisible in the value (`value_domainSeparatorV4`): on every
chain the separator is the hash of the domain as that chain sees it.  It is
visible in what is hashed, since the cached separator was hashed at deployment;
so statements about digests speak of the strings hashed at deployment together
with those hashed by the call (`domainString_mem`).
-/

namespace OptimismZap

/-- The immutable values a deployment fixes. -/
structure EIP712 where
  /-- `_CACHED_DOMAIN_SEPARATOR`. -/
  cachedDomainSeparator : Bytes32
  /-- `_CACHED_CHAIN_ID`. -/
  cachedChainId : Uint256
  /-- `_HASHED_NAME`. -/
  hashedName : Bytes32
  /-- `_HASHED_VERSION`. -/
  hashedVersion : Bytes32
  /-- `_TYPE_HASH`. -/
  typeHash : Bytes32

namespace EIP712

/-- The type string of the domain. -/
def domainType : String :=
  "EIP712Domain(string name,string version,uint256 chainId,address verifyingContract)"

/-- The string `_buildDomainSeparator` hashes. -/
def domainEncoding (typeHash name version : Bytes32) (chainId : Uint256) (this : Address) :
    Bytes :=
  abiEncode [.bytes32 typeHash, .bytes32 name, .bytes32 version, .uint256 chainId, .address this]

/-- `abi.encodePacked("\x19\x01", domainSeparator, structHash)`. -/
def typedDataEncoding (domainSeparator structHash : Bytes32) : Bytes :=
  [0x19, 0x01] ++ domainSeparator.bytes ++ structHash.bytes

variable (K : Bytes → Bytes32)

/-- `_buildDomainSeparator`. -/
def buildDomainSeparator (typeHash name version : Bytes32) (chainId : Uint256)
    (this : Address) : Hashing Bytes32 :=
  Hashing.query K (domainEncoding typeHash name version chainId this)

/-- The constructor, run at address `this` on chain `chainId`. -/
def deploy (this : Address) (chainId : Uint256) (name version : Bytes) : Hashing EIP712 := do
  let hashedName ← Hashing.query K name
  let hashedVersion ← Hashing.query K version
  let typeHash ← Hashing.query K (utf8 domainType)
  let cachedDomainSeparator ←
    buildDomainSeparator K typeHash hashedName hashedVersion chainId this
  return {
    cachedDomainSeparator
    cachedChainId := chainId
    hashedName
    hashedVersion
    typeHash }

/-- `_domainSeparatorV4`. -/
def domainSeparatorV4 (E : EIP712) (this : Address) (chainId : Uint256) : Hashing Bytes32 :=
  if chainId = E.cachedChainId then
    pure E.cachedDomainSeparator
  else
    buildDomainSeparator K E.typeHash E.hashedName E.hashedVersion chainId this

/-- `_hashTypedDataV4`. -/
def hashTypedDataV4 (E : EIP712) (this : Address) (chainId : Uint256) (structHash : Bytes32) :
    Hashing Bytes32 := do
  let domainSeparator ← domainSeparatorV4 K E this chainId
  Hashing.query K (typedDataEncoding domainSeparator structHash)

/-! ## The cache is invisible -/

/-- The domain as chain `chainId` sees it: the string whose hash is the
separator. -/
def domainString (this : Address) (chainId : Uint256) (name version : Bytes) : Bytes :=
  domainEncoding (K (utf8 domainType)) (K name) (K version) chainId this

section Deployed

variable {K} {this : Address} {chainId₀ chainId : Uint256} {name version : Bytes}

/-- **The separator does not depend on the chain of deployment.**  Cached or
rebuilt, it is the hash of the domain on the current chain. -/
theorem value_domainSeparatorV4 :
    (domainSeparatorV4 K (deploy K this chainId₀ name version).value this chainId).value =
      K (domainString K this chainId name version) := by
  by_cases h : chainId = chainId₀
  · simp [domainSeparatorV4, deploy, buildDomainSeparator, domainString, h]
  · simp [domainSeparatorV4, deploy, buildDomainSeparator, domainString, h]

theorem name_mem : name ∈ (deploy K this chainId₀ name version).hashed := by
  simp [deploy]

theorem version_mem : version ∈ (deploy K this chainId₀ name version).hashed := by
  simp [deploy]

/-- The digest of a struct hash under the domain of the current chain. -/
theorem value_hashTypedDataV4 {structHash : Bytes32} :
    (hashTypedDataV4 K (deploy K this chainId₀ name version).value this chainId
      structHash).value =
      K (typedDataEncoding (K (domainString K this chainId name version)) structHash) :=
  congrArg (fun ds => K (typedDataEncoding ds structHash)) value_domainSeparatorV4

/-- The last step hashes the digest's own string. -/
theorem typedDataEncoding_mem {structHash : Bytes32} :
    typedDataEncoding (K (domainString K this chainId name version)) structHash ∈
      (hashTypedDataV4 K (deploy K this chainId₀ name version).value this chainId
        structHash).hashed := by
  refine List.mem_append_right _ (List.mem_singleton.mpr ?_)
  exact congrArg (typedDataEncoding · structHash) value_domainSeparatorV4.symm

/-- The string behind the separator has been hashed, at deployment or just now. -/
theorem domainString_mem {structHash : Bytes32} :
    domainString K this chainId name version ∈ (deploy K this chainId₀ name version).hashed ++
      (hashTypedDataV4 K (deploy K this chainId₀ name version).value this chainId
        structHash).hashed := by
  by_cases h : chainId = chainId₀
  · simp [hashTypedDataV4, domainSeparatorV4, deploy, buildDomainSeparator, domainString, h]
  · simp [hashTypedDataV4, domainSeparatorV4, deploy, buildDomainSeparator, domainString, h]

end Deployed

/-! ## What an encoding determines -/

theorem typedDataEncoding_inj {ds ds' sh sh' : Bytes32}
    (h : typedDataEncoding ds sh = typedDataEncoding ds' sh') : ds = ds' ∧ sh = sh' := by
  obtain ⟨hds, hsh⟩ := List.append_inj h (by simp)
  exact ⟨FixedBytes.ext (List.append_cancel_left hds), FixedBytes.ext hsh⟩

theorem domainEncoding_inj {typeHash typeHash' name name' version version' : Bytes32}
    {chainId chainId' : Uint256} {this this' : Address}
    (h : domainEncoding typeHash name version chainId this =
      domainEncoding typeHash' name' version' chainId' this') :
    name = name' ∧ version = version' ∧ chainId = chainId' ∧ this = this' := by
  simp only [domainEncoding, abiEncode_cons_inj, AbiValue.encode_bytes32_inj,
    AbiValue.encode_uint256_inj, AbiValue.encode_address_inj] at h
  exact ⟨h.2.1, h.2.2.1, h.2.2.2.1, h.2.2.2.2.1⟩

end EIP712

end OptimismZap
