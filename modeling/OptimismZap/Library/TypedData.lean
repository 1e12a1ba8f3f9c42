import OptimismZap.Library.AbiEncoding
import OptimismZap.Library.Hashing

/-!
# Typed structured data

EIP-712 as a program on data: types are lists of named fields, a message is an
object with a value for each name, and everything hashed is computed from these
by `encodeType`, `encodeData` and `hashStruct`.  Fields are of elementary type,
so a type refers to no other type.

An encoder looks a value up under the name of its field, in the order of the
fields and not of the object; a missing value, or one that does not fit the type
of its field, is an error.  Numbers are safe integers or come as digits.
`encodeFields_cons` steps through a list of fields one at a time, and `hashStruct_eq`
and `digest_eq` put the result together.
-/

namespace OptimismZap

namespace TypedData

/-- The types a field can have. -/
inductive FieldType where
  | string
  | bytes
  | address
  | uint256
  /-- `bytesN`. -/
  | fixedBytes (n : ℕ)
  deriving DecidableEq

/-- The name of a field type. -/
def FieldType.name : FieldType → String
  | string => "string"
  | bytes => "bytes"
  | address => "address"
  | uint256 => "uint256"
  | fixedBytes n => "bytes" ++ toString n

/-- A field of a struct type. -/
structure Field where
  name : String
  type : FieldType
  deriving DecidableEq

/-- A value of an object. -/
inductive Value where
  /-- A string, given by its bytes. -/
  | string (utf8 : Bytes)
  /-- Bytes, as a string of hexadecimal digits. -/
  | bytes (data : Bytes)
  | number (n : ℕ)
  /-- A number, as a string of hexadecimal digits. -/
  | digits (n : ℕ)

/-- `Number.MAX_SAFE_INTEGER`; from here on encoders reject numbers. -/
def maxSafeInteger : ℕ := 2 ^ 53 - 1

/-- The value to give for a number: digits where a number is not safe. -/
def Value.numeral (n : ℕ) : Value := if n < maxSafeInteger then .number n else .digits n

/-- An object. -/
abbrev Object := List (String × Value)

/-- What `encodeType` gives for a type without references. -/
def encodeType (name : String) (fields : List Field) : String :=
  name ++ "(" ++ ",".intercalate (fields.map fun f => f.type.name ++ " " ++ f.name) ++ ")"

variable (K : Bytes → Bytes32)

/-- The word of a value. -/
def encodeField (type : FieldType) (value : Value) : Exec AbiValue :=
  match type, value with
  | .string, .string utf8 => do
    let hash ← Hashing.query K utf8
    return .bytes32 hash
  | .bytes, .bytes data => do
    let hash ← Hashing.query K data
    return .bytes32 hash
  | .address, .bytes data =>
    if h : data.length = 20 then pure (.address ⟨data, h⟩) else Exec.revert "invalid address"
  | .uint256, .number n =>
    if n < maxSafeInteger then pure (.uint256 (BitVec.ofNat 256 n)) else Exec.revert "overflow"
  | .uint256, .digits n =>
    if n < 2 ^ 256 then pure (.uint256 (BitVec.ofNat 256 n)) else Exec.revert "value out of bounds"
  | .fixedBytes n, .bytes data =>
    if h : data.length = n ∧ n ≤ 32 then
      pure (.fixedBytes h.2 ⟨data, h.1⟩)
    else
      Exec.revert "invalid byte length"
  | _, _ => Exec.revert "invalid value for the type"

/-- The words of an object, in the order of the fields. -/
def encodeFields (object : Object) : List Field → Exec (List AbiValue)
  | [] => return []
  | f :: fields =>
    match object.lookup f.name with
    | none => Exec.revert "missing value for a field"
    | some value => do
      let word ← encodeField K f.type value
      let words ← encodeFields object fields
      return word :: words

/-- `hashStruct`: the hash of the type hash and the encoded data. -/
def hashStruct (name : String) (fields : List Field) (object : Object) : Exec Bytes32 := do
  let typeHash ← Hashing.query K (utf8 (encodeType name fields))
  let words ← encodeFields K object fields
  let hash ← Hashing.query K (abiEncode (.bytes32 typeHash :: words))
  return hash

end TypedData

open TypedData in
/-- A message with its types and its domain. -/
structure TypedData where
  /-- The struct types, by name. -/
  types : List (String × List Field)
  primaryType : String
  domain : Object
  message : Object

namespace TypedData

variable (K : Bytes → Bytes32)

/-- The hash of an object of a type that is looked up by its name. -/
def hashStructOf (td : TypedData) (name : String) (object : Object) : Exec Bytes32 :=
  match td.types.lookup name with
  | none => Exec.revert "no definition of the type"
  | some fields => hashStruct K name fields object

/-- The digest that is signed. -/
def digest (td : TypedData) : Exec Bytes32 := do
  let domainSeparator ← td.hashStructOf K "EIP712Domain" td.domain
  let structHash ← td.hashStructOf K td.primaryType td.message
  let hash ← Hashing.query K ([0x19, 0x01] ++ domainSeparator.bytes ++ structHash.bytes)
  return hash

/-! ## Stepping through an encoding -/

section Steps

variable {K} {object : Object} {name s : String} {fields : List Field} {f : Field} {value : Value}
  {word : AbiValue} {words : List AbiValue} {l m n : List Bytes}

theorem encodeField_string (b : Bytes) :
    encodeField K .string (.string b) = ⟨.ok (.bytes32 (K b)), [b]⟩ := rfl

theorem encodeField_address (a : Address) :
    encodeField K .address (.bytes a.bytes) = ⟨.ok (.address a), []⟩ := by
  rw [encodeField, dif_pos a.length_bytes]
  rfl

theorem encodeField_fixedBytes {n : ℕ} (hn : n ≤ 32) (b : FixedBytes n) :
    encodeField K (.fixedBytes n) (.bytes b.bytes) = ⟨.ok (.fixedBytes hn b), []⟩ := by
  rw [encodeField, dif_pos ⟨b.length_bytes, hn⟩]
  rfl

theorem encodeField_uint256 (k : Uint256) :
    encodeField K .uint256 (.numeral k.toNat) = ⟨.ok (.uint256 k), []⟩ := by
  unfold Value.numeral
  split_ifs with hsafe
  · rw [encodeField, if_pos hsafe, BitVec.ofNat_toNat, BitVec.setWidth_eq]
    rfl
  · rw [encodeField, if_pos k.isLt, BitVec.ofNat_toNat, BitVec.setWidth_eq]
    rfl

theorem encodeFields_nil : encodeFields K object [] = ⟨.ok [], []⟩ := rfl

/-- One field: its value is looked up and encoded, then come the others. -/
theorem encodeFields_cons (hlookup : object.lookup f.name = some value)
    (hword : encodeField K f.type value = ⟨.ok word, l⟩)
    (hwords : encodeFields K object fields = ⟨.ok words, m⟩) (hn : l ++ m = n) :
    encodeFields K object (f :: fields) = ⟨.ok (word :: words), n⟩ := by
  unfold encodeFields
  rw [hlookup, ← hn]
  dsimp only
  rw [hword, hwords]
  exact congrArg (fun m => Exec.mk (.ok (word :: words)) (l ++ m)) (List.append_nil m)

theorem hashStruct_eq (htype : encodeType name fields = s)
    (hwords : encodeFields K object fields = ⟨.ok words, l⟩) :
    hashStruct K name fields object =
      ⟨.ok (K (abiEncode (.bytes32 (K (utf8 s)) :: words))),
        utf8 s :: (l ++ [abiEncode (.bytes32 (K (utf8 s)) :: words)])⟩ := by
  unfold hashStruct
  rw [htype, hwords]
  rfl

/-- The digest of a message whose domain and struct have been hashed. -/
theorem digest_eq {td : TypedData} {domainFields messageFields : List Field} {ds sh : Bytes32}
    (hdomain : td.types.lookup "EIP712Domain" = some domainFields)
    (hmessage : td.types.lookup td.primaryType = some messageFields)
    (hds : hashStruct K "EIP712Domain" domainFields td.domain = ⟨.ok ds, l⟩)
    (hsh : hashStruct K td.primaryType messageFields td.message = ⟨.ok sh, m⟩) :
    td.digest K = ⟨.ok (K ([0x19, 0x01] ++ ds.bytes ++ sh.bytes)),
      l ++ (m ++ [[0x19, 0x01] ++ ds.bytes ++ sh.bytes])⟩ := by
  unfold digest hashStructOf
  rw [hdomain, hmessage]
  dsimp only
  rw [hds, hsh]
  rfl

end Steps

end TypedData

end OptimismZap
