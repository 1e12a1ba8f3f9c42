import OptimismZap.Library.AbiEncoding
import OptimismZap.OpenZeppelin.EnumerableMap
import OptimismZap.OpenZeppelin.EnumerableSet

/-!
# `token/ERC721/ERC721.sol`

The token ledger: who holds which token (twice, once from the holder's side and
once as an enumerable map from tokens to owners), and who may move it.  The
functions are the source's, in the source's order of checks; a function that
changes storage returns the new storage and the events it emits.

The receiver hook of `safeTransferFrom` runs code of the receiving contract, so
its verdict is an input here: `received` is the value `_checkOnERC721Received`
returns.  What the hook may do in between is the subject of `Contract.CallStack`.

After each function stands the lemma that says what a successful call does, and
at the end `ERC721.WellFormed`, the invariant that ties the two ownership tables
and the approvals together, with the proof that every function keeps it.  What a
mint changes in the answers of the reading functions is `ERC721.AddsToken`.
-/

namespace OptimismZap

/-- The storage of the token ledger. -/
structure ERC721 where
  /-- `_holderTokens`. -/
  holderTokens : Address → EnumerableSet Uint256
  /-- `_tokenOwners`. -/
  tokenOwners : EnumerableMap Uint256 Address
  /-- `_tokenApprovals`. -/
  tokenApprovals : Uint256 → Address
  /-- `_operatorApprovals`. -/
  operatorApprovals : Address → Address → Bool

namespace ERC721

/-- The events of the token standard. -/
inductive Event where
  | transfer (fromAddr toAddr : Address) (tokenId : Uint256)
  | approval (owner approved : Address) (tokenId : Uint256)
  | approvalForAll (owner operator : Address) (approved : Bool)
  deriving DecidableEq

/-- Storage before the first call. -/
def empty : ERC721 where
  holderTokens _ := EnumerableSet.empty
  tokenOwners := EnumerableMap.empty
  tokenApprovals _ := 0
  operatorApprovals _ _ := false

variable (token : ERC721)

/-! ## Reading -/

/-- `balanceOf`. -/
def balanceOf (owner : Address) : Exec ℕ := do
  Exec.require (owner ≠ 0) "ERC721: balance query for the zero address"
  return (token.holderTokens owner).length

/-- `ownerOf`. -/
def ownerOf (tokenId : Uint256) : Exec Address :=
  token.tokenOwners.get tokenId "ERC721: owner query for nonexistent token"

/-- `tokenOfOwnerByIndex`. -/
def tokenOfOwnerByIndex (owner : Address) (index : ℕ) : Exec Uint256 :=
  (token.holderTokens owner).atIndex index

/-- `totalSupply`. -/
def totalSupply : ℕ := token.tokenOwners.length

/-- `tokenByIndex`. -/
def tokenByIndex (index : ℕ) : Exec Uint256 := do
  let entry ← token.tokenOwners.atIndex index
  return entry.1

/-- `_exists`. -/
def existsToken (tokenId : Uint256) : Bool := token.tokenOwners.contains tokenId

/-- `getApproved`. -/
def getApproved (tokenId : Uint256) : Exec Address := do
  Exec.require (token.existsToken tokenId = true) "ERC721: approved query for nonexistent token"
  return token.tokenApprovals tokenId

/-- `isApprovedForAll`. -/
def isApprovedForAll (owner operator : Address) : Bool := token.operatorApprovals owner operator

/-- `_isApprovedOrOwner`. -/
def isApprovedOrOwner (spender : Address) (tokenId : Uint256) : Exec Bool := do
  Exec.require (token.existsToken tokenId = true) "ERC721: operator query for nonexistent token"
  let owner ← token.ownerOf tokenId
  let approved ← token.getApproved tokenId
  return spender = owner || approved = spender || token.isApprovedForAll owner spender

/-- The token exists. -/
def Exists (tokenId : Uint256) : Prop := tokenId ∈ token.tokenOwners.keys

instance (tokenId : Uint256) : Decidable (token.Exists tokenId) :=
  inferInstanceAs (Decidable (tokenId ∈ token.tokenOwners.keys))

/-! ## Writing -/

/-- `_approve`. -/
def setApproved (toAddr : Address) (tokenId : Uint256) : Exec (ERC721 × List Event) := do
  let token := { token with
    tokenApprovals := Function.update token.tokenApprovals tokenId toAddr }
  let owner ← token.ownerOf tokenId
  return (token, [.approval owner toAddr tokenId])

/-- `approve`. -/
def approve (msgSender toAddr : Address) (tokenId : Uint256) : Exec (ERC721 × List Event) := do
  let owner ← token.ownerOf tokenId
  Exec.require (toAddr ≠ owner) "ERC721: approval to current owner"
  Exec.require (msgSender = owner ∨ token.isApprovedForAll owner msgSender = true)
    "ERC721: approve caller is not owner nor approved for all"
  token.setApproved toAddr tokenId

/-- `setApprovalForAll`. -/
def setApprovalForAll (msgSender operator : Address) (approved : Bool) :
    Exec (ERC721 × List Event) := do
  Exec.require (operator ≠ msgSender) "ERC721: approve to caller"
  let ofSender := Function.update (token.operatorApprovals msgSender) operator approved
  return ({ token with
    operatorApprovals := Function.update token.operatorApprovals msgSender ofSender },
    [.approvalForAll msgSender operator approved])

/-- `_transfer`. -/
def transfer (fromAddr toAddr : Address) (tokenId : Uint256) : Exec (ERC721 × List Event) := do
  let owner ← token.ownerOf tokenId
  Exec.require (owner = fromAddr) "ERC721: transfer of token that is not own"
  Exec.require (toAddr ≠ 0) "ERC721: transfer to the zero address"
  let (token, approvals) ← token.setApproved 0 tokenId
  let holderTokens := Function.update token.holderTokens fromAddr
    ((token.holderTokens fromAddr).remove tokenId).1
  let holderTokens := Function.update holderTokens toAddr ((holderTokens toAddr).add tokenId).1
  let tokenOwners := (token.tokenOwners.set tokenId toAddr).1
  return ({ token with holderTokens, tokenOwners },
    approvals ++ [.transfer fromAddr toAddr tokenId])

/-- `transferFrom`. -/
def transferFrom (msgSender fromAddr toAddr : Address) (tokenId : Uint256) :
    Exec (ERC721 × List Event) := do
  let allowed ← token.isApprovedOrOwner msgSender tokenId
  Exec.require (allowed = true) "ERC721: transfer caller is not owner nor approved"
  token.transfer fromAddr toAddr tokenId

/-- `safeTransferFrom`, given the verdict `received` of the receiver hook. -/
def safeTransferFrom (msgSender fromAddr toAddr : Address) (tokenId : Uint256) (received : Bool) :
    Exec (ERC721 × List Event) := do
  let allowed ← token.isApprovedOrOwner msgSender tokenId
  Exec.require (allowed = true) "ERC721: transfer caller is not owner nor approved"
  let result ← token.transfer fromAddr toAddr tokenId
  Exec.require (received = true) "ERC721: transfer to non ERC721Receiver implementer"
  return result

/-- `_mint`. -/
def mint (toAddr : Address) (tokenId : Uint256) : Exec (ERC721 × List Event) := do
  Exec.require (toAddr ≠ 0) "ERC721: mint to the zero address"
  Exec.require (token.existsToken tokenId = false) "ERC721: token already minted"
  let holderTokens := Function.update token.holderTokens toAddr
    ((token.holderTokens toAddr).add tokenId).1
  let tokenOwners := (token.tokenOwners.set tokenId toAddr).1
  return ({ token with holderTokens, tokenOwners }, [.transfer 0 toAddr tokenId])

/-! ## What a successful call does -/

section Success

variable {token}

theorem existsToken_eq_true {tokenId : Uint256} :
    token.existsToken tokenId = true ↔ token.Exists tokenId := EnumerableMap.contains_iff

theorem existsToken_eq_false {tokenId : Uint256} :
    token.existsToken tokenId = false ↔ ¬ token.Exists tokenId := by
  rw [← existsToken_eq_true, Bool.not_eq_true]

@[simp] theorem outcome_ownerOf_eq_ok {tokenId : Uint256} {owner : Address} :
    (token.ownerOf tokenId).outcome = .ok owner ↔
      token.tokenOwners.lookup tokenId = some owner :=
  EnumerableMap.outcome_get_eq_ok

/-- `tokenByIndex` enumerates the tokens in the order of their creation. -/
theorem outcome_tokenByIndex_eq_ok {index : ℕ} {tokenId : Uint256} :
    (token.tokenByIndex index).outcome = .ok tokenId ↔
      token.tokenOwners.keys[index]? = some tokenId := by
  simp only [tokenByIndex, Exec.outcome_bind_eq_ok, EnumerableMap.outcome_atIndex_eq_ok,
    Exec.outcome_pure_eq_ok, EnumerableMap.keys, List.getElem?_map, Option.map_eq_some_iff]

theorem exists_of_lookup {tokenId : Uint256} {owner : Address}
    (h : token.tokenOwners.lookup tokenId = some owner) : token.Exists tokenId :=
  EnumerableMap.isSome_lookup.mp (by rw [h]; rfl)

/-- The ledger after `tokenId` was created for `to`. -/
def afterMint (token : ERC721) (toAddr : Address) (tokenId : Uint256) : ERC721 :=
  { token with
    holderTokens :=
      Function.update token.holderTokens toAddr ((token.holderTokens toAddr).add tokenId).1
    tokenOwners := (token.tokenOwners.set tokenId toAddr).1 }

/-- `_mint` succeeds exactly for a new token and a proper receiver. -/
theorem outcome_mint_eq_ok {toAddr : Address} {tokenId : Uint256} {r : ERC721 × List Event} :
    (token.mint toAddr tokenId).outcome = .ok r ↔
      toAddr ≠ 0 ∧ ¬ token.Exists tokenId ∧
        (token.afterMint toAddr tokenId, [Event.transfer 0 toAddr tokenId]) = r := by
  simp [mint, existsToken_eq_false, afterMint]

@[simp] theorem hashed_mint {toAddr : Address} {tokenId : Uint256} :
    (token.mint toAddr tokenId).hashed = [] := by
  refine List.subset_nil.mp (Exec.hashed_bind_subset (by simp) fun _ => ?_)
  exact Exec.hashed_bind_subset (by simp) fun _ => by simp

/-- The ledger after `tokenId` moved from `from` to `to`. -/
def afterTransfer (token : ERC721) (fromAddr toAddr : Address) (tokenId : Uint256) : ERC721 :=
  let holderTokens := Function.update token.holderTokens fromAddr
    ((token.holderTokens fromAddr).remove tokenId).1
  { token with
    holderTokens := Function.update holderTokens toAddr ((holderTokens toAddr).add tokenId).1
    tokenOwners := (token.tokenOwners.set tokenId toAddr).1
    tokenApprovals := Function.update token.tokenApprovals tokenId 0 }

theorem outcome_setApproved_eq_ok {toAddr : Address} {tokenId : Uint256}
    {r : ERC721 × List Event} : (token.setApproved toAddr tokenId).outcome = .ok r ↔
      ∃ owner, token.tokenOwners.lookup tokenId = some owner ∧
        ({ token with tokenApprovals := Function.update token.tokenApprovals tokenId toAddr },
          [Event.approval owner toAddr tokenId]) = r := by
  simp [setApproved]

/-- `_transfer` succeeds exactly for the owner's token and a proper receiver. -/
theorem outcome_transfer_eq_ok {fromAddr toAddr : Address} {tokenId : Uint256}
    {r : ERC721 × List Event} : (token.transfer fromAddr toAddr tokenId).outcome = .ok r ↔
      token.tokenOwners.lookup tokenId = some fromAddr ∧ toAddr ≠ 0 ∧
        (token.afterTransfer fromAddr toAddr tokenId,
          [Event.approval fromAddr 0 tokenId, Event.transfer fromAddr toAddr tokenId]) = r := by
  simp only [transfer, Exec.outcome_bind_eq_ok, outcome_ownerOf_eq_ok,
    Exec.outcome_require_eq_ok, outcome_setApproved_eq_ok, Exec.outcome_pure_eq_ok]
  constructor
  · rintro ⟨owner, howner, -, rfl, -, hto, -, ⟨owner', howner', rfl⟩, rfl⟩
    obtain rfl := Option.some.inj (howner.symm.trans howner')
    exact ⟨howner, hto, rfl⟩
  · rintro ⟨howner, hto, rfl⟩
    exact ⟨fromAddr, howner, (), rfl, (), hto, _, ⟨fromAddr, howner, rfl⟩, rfl⟩

/-- The ledger after `owner` set the standing approval of `operator`. -/
def afterApprovalForAll (token : ERC721) (owner operator : Address) (approved : Bool) :
    ERC721 :=
  let ofOwner := Function.update (token.operatorApprovals owner) operator approved
  { token with operatorApprovals := Function.update token.operatorApprovals owner ofOwner }

end Success

/-! ## The ledger does not hash -/

section Hashed

variable {token} {msgSender fromAddr toAddr operator : Address} {tokenId : Uint256}
  {approved received : Bool}

@[simp] theorem hashed_ownerOf : (token.ownerOf tokenId).hashed = [] := EnumerableMap.hashed_get

@[simp] theorem hashed_isApprovedOrOwner :
    (token.isApprovedOrOwner msgSender tokenId).hashed = [] := by
  have hget : (token.getApproved tokenId).hashed = [] :=
    Exec.hashed_bind_eq_nil (by simp) fun _ => rfl
  refine Exec.hashed_bind_eq_nil (by simp) fun _ => ?_
  exact Exec.hashed_bind_eq_nil (by simp) fun _ => Exec.hashed_bind_eq_nil hget fun _ => rfl

@[simp] theorem hashed_setApproved : (token.setApproved toAddr tokenId).hashed = [] :=
  Exec.hashed_bind_eq_nil (by simp) fun _ => rfl

theorem hashed_approve : (token.approve msgSender toAddr tokenId).hashed = [] := by
  refine Exec.hashed_bind_eq_nil (by simp) fun _ => Exec.hashed_bind_eq_nil (by simp) fun _ => ?_
  exact Exec.hashed_bind_eq_nil (by simp) fun _ => by simp

theorem hashed_setApprovalForAll :
    (token.setApprovalForAll msgSender operator approved).hashed = [] :=
  Exec.hashed_bind_eq_nil (by simp) fun _ => rfl

@[simp] theorem hashed_transfer : (token.transfer fromAddr toAddr tokenId).hashed = [] := by
  refine Exec.hashed_bind_eq_nil (by simp) fun _ => Exec.hashed_bind_eq_nil (by simp) fun _ => ?_
  exact Exec.hashed_bind_eq_nil (by simp) fun _ => Exec.hashed_bind_eq_nil (by simp) fun _ => rfl

theorem hashed_transferFrom :
    (token.transferFrom msgSender fromAddr toAddr tokenId).hashed = [] := by
  refine Exec.hashed_bind_eq_nil (by simp) fun _ => ?_
  exact Exec.hashed_bind_eq_nil (by simp) fun _ => by simp

theorem hashed_safeTransferFrom :
    (token.safeTransferFrom msgSender fromAddr toAddr tokenId received).hashed = [] := by
  refine Exec.hashed_bind_eq_nil (by simp) fun _ => Exec.hashed_bind_eq_nil (by simp) fun _ => ?_
  exact Exec.hashed_bind_eq_nil (by simp) fun _ =>
    Exec.hashed_bind_eq_nil (by simp) fun _ => rfl

end Hashed

/-! ## The effects of the standard's own operations

Approvals and transfers change the ledger in three ways only.  `Effect` lists
them with the guards under which they happen, so that an invariant of approvals
and transfers is checked three times and not once per function. -/

/-- One approval, one operator approval or one transfer. -/
inductive Effect (token : ERC721) : ERC721 → List Event → Prop
  | approve (owner toAddr : Address) (tokenId : Uint256)
      (howner : token.tokenOwners.lookup tokenId = some owner) :
      Effect token
        { token with tokenApprovals := Function.update token.tokenApprovals tokenId toAddr }
        [.approval owner toAddr tokenId]
  | approveForAll (owner operator : Address) (approved : Bool) :
      Effect token (token.afterApprovalForAll owner operator approved)
        [.approvalForAll owner operator approved]
  | transfer (fromAddr toAddr : Address) (tokenId : Uint256)
      (howner : token.tokenOwners.lookup tokenId = some fromAddr) (hto : toAddr ≠ 0) :
      Effect token (token.afterTransfer fromAddr toAddr tokenId)
        [.approval fromAddr 0 tokenId, .transfer fromAddr toAddr tokenId]

section Effects

variable {token token' : ERC721} {es : List Event}

theorem effect_of_transfer {fromAddr toAddr : Address} {tokenId : Uint256}
    (h : (token.transfer fromAddr toAddr tokenId).outcome = .ok (token', es)) :
    Effect token token' es := by
  obtain ⟨howner, hto, heq⟩ := outcome_transfer_eq_ok.mp h
  obtain ⟨rfl, rfl⟩ := Prod.mk.inj heq
  exact Effect.transfer fromAddr toAddr tokenId howner hto

theorem effect_of_approve {msgSender toAddr : Address} {tokenId : Uint256}
    (h : (token.approve msgSender toAddr tokenId).outcome = .ok (token', es)) :
    Effect token token' es := by
  simp only [approve, Exec.outcome_bind_eq_ok, outcome_setApproved_eq_ok] at h
  obtain ⟨-, -, -, -, -, -, owner, howner, heq⟩ := h
  obtain ⟨rfl, rfl⟩ := Prod.mk.inj heq
  exact Effect.approve owner toAddr tokenId howner

theorem effect_of_setApprovalForAll {msgSender operator : Address} {approved : Bool}
    (h : (token.setApprovalForAll msgSender operator approved).outcome = .ok (token', es)) :
    Effect token token' es := by
  simp only [setApprovalForAll, Exec.outcome_bind_eq_ok, Exec.outcome_pure_eq_ok] at h
  obtain ⟨-, -, heq⟩ := h
  obtain ⟨rfl, rfl⟩ := Prod.mk.inj heq
  exact Effect.approveForAll msgSender operator approved

theorem effect_of_transferFrom {msgSender fromAddr toAddr : Address} {tokenId : Uint256}
    (h : (token.transferFrom msgSender fromAddr toAddr tokenId).outcome = .ok (token', es)) :
    Effect token token' es := by
  simp only [transferFrom, Exec.outcome_bind_eq_ok] at h
  obtain ⟨-, -, -, -, htransfer⟩ := h
  exact effect_of_transfer htransfer

theorem effect_of_safeTransferFrom {msgSender fromAddr toAddr : Address} {tokenId : Uint256}
    {received : Bool}
    (h : (token.safeTransferFrom msgSender fromAddr toAddr tokenId received).outcome =
      .ok (token', es)) :
    Effect token token' es := by
  simp only [safeTransferFrom, Exec.outcome_bind_eq_ok, Exec.outcome_pure_eq_ok] at h
  obtain ⟨-, -, -, -, result, htransfer, -, -, rfl⟩ := h
  exact effect_of_transfer htransfer

/-- **Approvals and transfers neither create, remove nor reorder tokens.** -/
theorem Effect.keys_eq (h : Effect token token' es) :
    token'.tokenOwners.keys = token.tokenOwners.keys := by
  cases h with
  | approve => rfl
  | approveForAll => rfl
  | transfer fromAddr toAddr tokenId howner hto =>
    exact EnumerableMap.keys_set.trans (if_pos (exists_of_lookup howner))

end Effects

/-- A mint appends its token. -/
theorem keys_afterMint {token : ERC721} {toAddr : Address} {tokenId : Uint256}
    (h : ¬ token.Exists tokenId) :
    (token.afterMint toAddr tokenId).tokenOwners.keys = token.tokenOwners.keys ++ [tokenId] :=
  EnumerableMap.keys_set.trans (if_neg h)

/-- A mint creates its token and no other. -/
theorem exists_afterMint {token : ERC721} {toAddr : Address} {tokenId id : Uint256}
    (h : ¬ token.Exists tokenId) :
    (token.afterMint toAddr tokenId).Exists id ↔ token.Exists id ∨ id = tokenId := by
  rw [Exists, keys_afterMint h, List.mem_append, List.mem_singleton, Exists]

/-- A mint gives its token to the receiver and leaves the others with their owners. -/
theorem lookup_afterMint_eq_some {token : ERC721} {toAddr owner : Address} {tokenId id : Uint256}
    (h : ¬ token.Exists tokenId) :
    (token.afterMint toAddr tokenId).tokenOwners.lookup id = some owner ↔
      token.tokenOwners.lookup id = some owner ∨ tokenId = id ∧ toAddr = owner := by
  have hnone : token.tokenOwners.lookup tokenId = none :=
    EnumerableMap.lookup_eq_none_iff.mpr h
  unfold afterMint
  rw [EnumerableMap.lookup_set, Function.update_apply]
  split
  · rename_i hid
    rw [hid, hnone, Option.some.injEq]
    simp
  · rename_i hid
    simp [Ne.symm hid]

theorem lookup_afterMint_of_ne {token : ERC721} {toAddr : Address} {tokenId id : Uint256}
    (h : id ≠ tokenId) :
    (token.afterMint toAddr tokenId).tokenOwners.lookup id = token.tokenOwners.lookup id := by
  unfold afterMint
  rw [EnumerableMap.lookup_set, Function.update_of_ne h]

/-! ## The invariant of the ledger -/

/-- The two ownership tables agree, nobody owns as the zero address, and a token
that does not exist is approved to nobody. -/
structure WellFormed (token : ERC721) : Prop where
  mem_holderTokens_iff : ∀ owner tokenId,
    tokenId ∈ (token.holderTokens owner).values ↔
      token.tokenOwners.lookup tokenId = some owner
  owner_ne_zero : ∀ tokenId, token.tokenOwners.lookup tokenId ≠ some 0
  approved_eq_zero : ∀ tokenId, ¬ token.Exists tokenId → token.tokenApprovals tokenId = 0

theorem wellFormed_empty : empty.WellFormed where
  mem_holderTokens_iff owner tokenId := by simp [empty]
  owner_ne_zero tokenId := by simp [empty]
  approved_eq_zero tokenId _ := rfl

section Invariant

variable {token token' : ERC721} {es : List Event}

theorem WellFormed.afterMint (h : token.WellFormed) {toAddr : Address} {tokenId : Uint256}
    (hto : toAddr ≠ 0) (hnew : ¬ token.Exists tokenId) :
    (token.afterMint toAddr tokenId).WellFormed where
  mem_holderTokens_iff owner id := by
    have hnone : token.tokenOwners.lookup tokenId = none :=
      EnumerableMap.lookup_eq_none_iff.mpr hnew
    have howner := h.mem_holderTokens_iff owner id
    simp only [ERC721.afterMint, EnumerableMap.lookup_set, Function.update_apply]
    by_cases ho : owner = toAddr
    · subst ho
      rw [if_pos rfl, EnumerableSet.mem_add, howner]
      by_cases hid : id = tokenId <;> simp [hid]
    · rw [if_neg ho, howner]
      by_cases hid : id = tokenId
      · simp [hid, hnone, Ne.symm ho]
      · simp [hid]
  owner_ne_zero id := by
    simp only [ERC721.afterMint, EnumerableMap.lookup_set, Function.update_apply]
    split
    · exact fun heq => hto (Option.some.inj heq)
    · exact h.owner_ne_zero id
  approved_eq_zero id hid := by
    unfold Exists at hid
    rw [keys_afterMint hnew, List.mem_append, not_or] at hid
    exact h.approved_eq_zero id hid.1

theorem WellFormed.afterTransfer (h : token.WellFormed) {fromAddr toAddr : Address}
    {tokenId : Uint256} (howner : token.tokenOwners.lookup tokenId = some fromAddr)
    (hto : toAddr ≠ 0) : (token.afterTransfer fromAddr toAddr tokenId).WellFormed where
  mem_holderTokens_iff owner id := by
    have hall := fun a => h.mem_holderTokens_iff a id
    -- after the removal nobody but the receiver can be looking at `tokenId`
    have hremoved : ∀ a, id ∈ (Function.update token.holderTokens fromAddr
        ((token.holderTokens fromAddr).remove tokenId).1 a).values ↔
          token.tokenOwners.lookup id = some a ∧ id ≠ tokenId := by
      intro a
      rw [Function.update_apply]
      split
      · rename_i ha
        rw [ha, EnumerableSet.mem_remove, hall]
      · rename_i ha
        rw [hall]
        constructor
        · intro hid
          refine ⟨hid, fun heq => ha ?_⟩
          rw [heq, howner] at hid
          exact (Option.some.inj hid).symm
        · exact And.left
    simp only [ERC721.afterTransfer, EnumerableMap.lookup_set]
    rw [Function.update_apply _ tokenId, Function.update_apply _ toAddr]
    split
    · rename_i ho
      rw [EnumerableSet.mem_add, hremoved, ho]
      by_cases hid : id = tokenId <;> simp [hid]
    · rename_i ho
      rw [hremoved]
      by_cases hid : id = tokenId
      · simp [hid, Ne.symm ho]
      · simp [hid]
  owner_ne_zero id := by
    simp only [ERC721.afterTransfer, EnumerableMap.lookup_set, Function.update_apply]
    split
    · exact fun heq => hto (Option.some.inj heq)
    · exact h.owner_ne_zero id
  approved_eq_zero id hid := by
    have hkeys : (token.afterTransfer fromAddr toAddr tokenId).tokenOwners.keys =
        token.tokenOwners.keys := (Effect.transfer fromAddr toAddr tokenId howner hto).keys_eq
    unfold Exists at hid
    rw [hkeys] at hid
    simp only [ERC721.afterTransfer, Function.update_apply]
    split
    · rfl
    · exact h.approved_eq_zero id hid

/-- **Approvals and transfers keep the ledger well formed.** -/
theorem WellFormed.effect (h : token.WellFormed) (heff : Effect token token' es) :
    token'.WellFormed := by
  cases heff with
  | approve owner toAddr tokenId howner =>
    refine ⟨h.mem_holderTokens_iff, h.owner_ne_zero, fun id hid => ?_⟩
    have hne : id ≠ tokenId := by
      rintro rfl
      exact hid (exists_of_lookup howner)
    exact (Function.update_of_ne hne toAddr token.tokenApprovals).trans (h.approved_eq_zero id hid)
  | approveForAll => exact ⟨h.mem_holderTokens_iff, h.owner_ne_zero, h.approved_eq_zero⟩
  | transfer fromAddr toAddr tokenId howner hto => exact h.afterTransfer howner hto

end Invariant

/-! ## What the reading functions depend on -/

section Views

variable {token token' : ERC721}

theorem outcome_ownerOf_congr {tokenId : Uint256}
    (h : token.tokenOwners.lookup tokenId = token'.tokenOwners.lookup tokenId) :
    (token.ownerOf tokenId).outcome = (token'.ownerOf tokenId).outcome := by
  unfold ownerOf
  rw [EnumerableMap.outcome_get, EnumerableMap.outcome_get, h]

theorem existsToken_congr {tokenId : Uint256}
    (h : token.tokenOwners.lookup tokenId = token'.tokenOwners.lookup tokenId) :
    token.existsToken tokenId = token'.existsToken tokenId := by
  rw [Bool.eq_iff_iff, existsToken_eq_true, existsToken_eq_true, Exists, Exists,
    ← EnumerableMap.isSome_lookup, h, EnumerableMap.isSome_lookup]

theorem getApproved_congr {tokenId : Uint256}
    (h : token.tokenOwners.lookup tokenId = token'.tokenOwners.lookup tokenId)
    (happroved : token.tokenApprovals tokenId = token'.tokenApprovals tokenId) :
    token.getApproved tokenId = token'.getApproved tokenId := by
  unfold getApproved
  rw [existsToken_congr h, happroved]

/-- **Balances are determined by the owners of the tokens**, whatever the order in which the
holders' sets were filled. -/
theorem WellFormed.balanceOf_congr (hwf : token.WellFormed) (hwf' : token'.WellFormed)
    (h : token.tokenOwners.lookup = token'.tokenOwners.lookup) (owner : Address) :
    token.balanceOf owner = token'.balanceOf owner := by
  have hperm : (token.holderTokens owner).values.Perm (token'.holderTokens owner).values := by
    refine (List.perm_ext_iff_of_nodup (EnumerableSet.nodup_values _)
      (EnumerableSet.nodup_values _)).mpr fun tokenId => ?_
    rw [hwf.mem_holderTokens_iff, hwf'.mem_holderTokens_iff, h]
  have hlength : (token.holderTokens owner).length = (token'.holderTokens owner).length :=
    hperm.length_eq
  unfold balanceOf
  rw [hlength]

end Views

/-! ## What a mint does to the reading functions -/

/-- The second ledger has one token more, held by `toAddr` and approved to nobody, and answers
every other question as the first. -/
structure AddsToken (token token' : ERC721) (toAddr : Address) (tokenId : Uint256) : Prop where
  not_exists : ¬ token.Exists tokenId
  exists_iff : ∀ id, token'.Exists id ↔ token.Exists id ∨ id = tokenId
  ownerOf_new : (token'.ownerOf tokenId).outcome = .ok toAddr
  getApproved_new : (token'.getApproved tokenId).outcome = .ok 0
  /-- No approval was cleared for that. -/
  tokenApprovals_eq : token'.tokenApprovals = token.tokenApprovals
  balanceOf_receiver : ∃ n, (token.balanceOf toAddr).outcome = .ok n ∧
    (token'.balanceOf toAddr).outcome = .ok (n + 1)
  totalSupply_eq : token'.totalSupply = token.totalSupply + 1
  ownerOf_other : ∀ id, id ≠ tokenId → (token'.ownerOf id).outcome = (token.ownerOf id).outcome
  getApproved_other : ∀ id, id ≠ tokenId → token'.getApproved id = token.getApproved id
  balanceOf_other : ∀ owner, owner ≠ toAddr → token'.balanceOf owner = token.balanceOf owner
  isApprovedForAll_eq : ∀ owner operator,
    token'.isApprovedForAll owner operator = token.isApprovedForAll owner operator

/-- **A mint adds its token and changes no other answer.**  That the token is approved to
nobody is an invariant of the ledger: the mint writes no approval. -/
theorem WellFormed.addsToken {token : ERC721} (h : token.WellFormed) {toAddr : Address}
    {tokenId : Uint256} (hto : toAddr ≠ 0) (hnew : ¬ token.Exists tokenId) :
    token.AddsToken (token.afterMint toAddr tokenId) toAddr tokenId where
  not_exists := hnew
  exists_iff _ := exists_afterMint hnew
  ownerOf_new :=
    outcome_ownerOf_eq_ok.mpr ((lookup_afterMint_eq_some hnew).mpr (Or.inr ⟨rfl, rfl⟩))
  getApproved_new := by
    have hexists : (token.afterMint toAddr tokenId).existsToken tokenId = true :=
      existsToken_eq_true.mpr ((exists_afterMint hnew).mpr (Or.inr rfl))
    have hzero : (token.afterMint toAddr tokenId).tokenApprovals tokenId = 0 :=
      h.approved_eq_zero tokenId hnew
    simp [getApproved, hexists, hzero]
  tokenApprovals_eq := rfl
  balanceOf_receiver := by
    have hholder : tokenId ∉ (token.holderTokens toAddr).values := fun hmem =>
      hnew (exists_of_lookup ((h.mem_holderTokens_iff toAddr tokenId).mp hmem))
    refine ⟨(token.holderTokens toAddr).length, by simp [balanceOf, hto], ?_⟩
    simp [balanceOf, hto, ERC721.afterMint, EnumerableSet.length_add hholder]
  totalSupply_eq := by
    unfold totalSupply
    rw [EnumerableMap.length_eq, EnumerableMap.length_eq, keys_afterMint hnew,
      List.length_append, List.length_singleton]
  ownerOf_other _ hid := outcome_ownerOf_congr (lookup_afterMint_of_ne hid)
  getApproved_other _ hid := getApproved_congr (lookup_afterMint_of_ne hid) rfl
  balanceOf_other owner howner := by
    simp only [balanceOf, ERC721.afterMint, Function.update_of_ne howner]
  isApprovedForAll_eq _ _ := rfl

end ERC721

end OptimismZap
