import OptimismZap.Library.Ledgers
import OptimismZap.OpenZeppelin.ERC721

/-!
# The token contract as a ledger

`ERC721.ledger` forgets the tables and keeps what they are for: who holds what,
and who may move it.  On a well-formed state nothing is lost.  The reading
functions are those of the ledger (`WellFormed.outcome_balanceOf` and its
neighbours), a write enters its events and does nothing else
(`WellFormed.entered_effect`, `WellFormed.entered_afterMint`).
-/

namespace OptimismZap
namespace ERC721

/-- The entry an event reports. -/
def Event.entry : Event → Ledger.Entry Address Uint256
  | .transfer fromAddr toAddr tokenId => .transfer fromAddr toAddr tokenId
  | .approval owner approved tokenId => .approval owner approved tokenId
  | .approvalForAll owner operator approved => .approvalForAll owner operator approved

/-- Who holds what, and who may move it. -/
def ledger (token : ERC721) : Ledger Address Uint256 where
  holder := token.tokenOwners.lookup
  approved := token.tokenApprovals
  operators := token.operatorApprovals

/-- The entries fit the first ledger, and entering them gives the second. -/
structure Entered (token token' : ERC721) (entries : List (Ledger.Entry Address Uint256)) :
    Prop where
  history : token.ledger.History entries
  ledger_eq : token'.ledger = token.ledger.replay entries

section Views

variable {token : ERC721}

theorem outcome_ownerOf {tokenId : Uint256} : (token.ownerOf tokenId).outcome =
    (token.ledger.holder tokenId).elim
      (.error "ERC721: owner query for nonexistent token") Except.ok :=
  EnumerableMap.outcome_get

theorem outcome_getApproved {tokenId : Uint256} : (token.getApproved tokenId).outcome =
    (token.ledger.holder tokenId).elim
      (.error "ERC721: approved query for nonexistent token")
      fun _ => .ok (token.ledger.approved tokenId) := by
  unfold getApproved
  cases h : token.ledger.holder tokenId with
  | none =>
    have hexists : token.existsToken tokenId = false :=
      existsToken_eq_false.mpr (EnumerableMap.lookup_eq_none_iff.mp h)
    rw [hexists]
    rfl
  | some owner =>
    have hexists : token.existsToken tokenId = true :=
      existsToken_eq_true.mpr (exists_of_lookup h)
    rw [hexists]
    rfl

/-- **A balance is the number of tokens held.** -/
theorem WellFormed.outcome_balanceOf (h : token.WellFormed) {owner : Address}
    (howner : owner ≠ 0) :
    (token.balanceOf owner).outcome = .ok (token.ledger.held owner).ncard := by
  have hheld : token.ledger.held owner = ((token.holderTokens owner).values.toFinset : Set _) := by
    ext tokenId
    rw [Finset.mem_coe, List.mem_toFinset, h.mem_holderTokens_iff]
    rfl
  have hcard : (token.ledger.held owner).ncard = (token.holderTokens owner).length := by
    rw [hheld, Set.ncard_coe_finset,
      List.toFinset_card_of_nodup (EnumerableSet.nodup_values _)]
    rfl
  simp [balanceOf, howner, hcard]

end Views

section Writes

variable {token token' : ERC721} {es : List Event}

/-- **Approvals and transfers enter their events.** -/
theorem WellFormed.entered_effect (h : token.WellFormed) (heff : Effect token token' es) :
    Entered token token' (es.map Event.entry) := by
  cases heff with
  | approve owner toAddr tokenId howner => exact ⟨⟨howner, trivial⟩, rfl⟩
  | approveForAll owner operator approved => exact ⟨⟨trivial, trivial⟩, rfl⟩
  | transfer fromAddr toAddr tokenId howner hto =>
    have hfrom : fromAddr ≠ 0 := fun hzero => h.owner_ne_zero tokenId (hzero ▸ howner)
    refine ⟨⟨howner, ⟨hto, howner.trans (if_neg hfrom).symm⟩, trivial⟩, ?_⟩
    ext1
    · exact EnumerableMap.lookup_set
    · show Function.update token.tokenApprovals tokenId 0 =
        Function.update (Function.update token.tokenApprovals tokenId 0) tokenId 0
      rw [Function.update_idem]
    · rfl

/-- Approvals and transfers create nothing. -/
theorem WellFormed.created_effect (h : token.WellFormed) (heff : Effect token token' es) :
    Ledger.created (es.map Event.entry) = [] := by
  cases heff with
  | approve => rfl
  | approveForAll => rfl
  | transfer fromAddr toAddr tokenId howner hto =>
    have hfrom : fromAddr ≠ 0 := fun hzero => h.owner_ne_zero tokenId (hzero ▸ howner)
    simp [Ledger.created, Ledger.Entry.created, Event.entry, hfrom]

/-- **A mint enters its event.**  That it clears no approval makes no difference, since a token
that does not exist is approved to nobody. -/
theorem WellFormed.entered_afterMint (h : token.WellFormed) {toAddr : Address}
    {tokenId : Uint256} (hto : toAddr ≠ 0) (hnew : ¬ token.Exists tokenId) :
    Entered token (token.afterMint toAddr tokenId)
      [(Event.transfer 0 toAddr tokenId).entry] where
  history := by
    refine ⟨⟨hto, ?_⟩, trivial⟩
    rw [if_pos rfl]
    exact EnumerableMap.lookup_eq_none_iff.mpr hnew
  ledger_eq := by
    have hzero := h.approved_eq_zero tokenId hnew
    ext1
    · exact EnumerableMap.lookup_set
    · show token.tokenApprovals = Function.update token.tokenApprovals tokenId 0
      rw [← hzero, Function.update_eq_self]
    · rfl

end Writes

/-! ## The rules of the standard

Each function by which an account writes goes through exactly when the rules of the ledger allow
the request it stands for, and then it emits what they decide. -/

/-- What a function reports, if it goes through. -/
def reported (x : Exec (ERC721 × List Event)) : Option (List (Ledger.Entry Address Uint256)) :=
  x.outcome.toOption.map fun r => r.2.map Event.entry

section Rules

variable {token : ERC721} {msgSender toAddr fromAddr operator : Address} {tokenId : Uint256}
  {x : Exec (ERC721 × List Event)} {entries : List (Ledger.Entry Address Uint256)}

theorem reported_eq_some_iff : reported x = some entries ↔
    ∃ r, x.outcome = .ok r ∧ r.2.map Event.entry = entries := by
  unfold reported
  cases x.outcome with
  | ok r => simp [Except.toOption]
  | error message => simp [Except.toOption]

/-- `_isApprovedOrOwner` is the rule about who may move a token. -/
theorem outcome_isApprovedOrOwner_eq_ok {allowed : Bool} :
    (token.isApprovedOrOwner msgSender tokenId).outcome = .ok allowed ↔
      ∃ owner, token.tokenOwners.lookup tokenId = some owner ∧
        (token.ledger.MayMove msgSender owner tokenId ↔ allowed = true) := by
  have hrule : ∀ owner, (msgSender = owner || token.tokenApprovals tokenId = msgSender ||
      token.isApprovedForAll owner msgSender) = true ↔
        token.ledger.MayMove msgSender owner tokenId := by
    intro owner
    simp only [Bool.or_eq_true, decide_eq_true_iff, Ledger.MayMove, Ledger.Controls, ledger,
      isApprovedForAll]
    tauto
  simp only [isApprovedOrOwner, getApproved, Exec.outcome_bind_eq_ok, Exec.outcome_require_eq_ok,
    outcome_ownerOf_eq_ok, Exec.outcome_pure_eq_ok, existsToken_eq_true]
  constructor
  · rintro ⟨-, -, owner, howner, -, ⟨-, -, rfl⟩, rfl⟩
    exact ⟨owner, howner, (hrule owner).symm⟩
  · rintro ⟨owner, howner, hallowed⟩
    have hexists := exists_of_lookup howner
    refine ⟨(), hexists, owner, howner, _, ⟨(), hexists, rfl⟩, ?_⟩
    rw [Bool.eq_iff_iff, hrule owner, hallowed]

theorem reported_approve : reported (token.approve msgSender toAddr tokenId) =
    token.ledger.decision msgSender (.approve toAddr tokenId) := by
  refine Option.ext fun entries => ?_
  rw [reported_eq_some_iff, Ledger.decision_eq_some_iff]
  simp only [approve, Exec.outcome_bind_eq_ok, outcome_ownerOf_eq_ok,
    Exec.outcome_require_eq_ok, outcome_setApproved_eq_ok]
  constructor
  · rintro ⟨r, ⟨owner, howner, -, hto, -, hsender, owner', howner', rfl⟩, rfl⟩
    obtain rfl := Option.some.inj (howner.symm.trans howner')
    exact .approve toAddr tokenId owner howner hto hsender
  · intro h
    cases h with
    | approve _ _ owner howner hto hcontrols =>
      exact ⟨_, ⟨owner, howner, (), hto, (), hcontrols, owner, howner, rfl⟩, rfl⟩

theorem reported_setApprovalForAll {approved : Bool} :
    reported (token.setApprovalForAll msgSender operator approved) =
      token.ledger.decision msgSender (.approveForAll operator approved) := by
  refine Option.ext fun entries => ?_
  rw [reported_eq_some_iff, Ledger.decision_eq_some_iff]
  simp only [setApprovalForAll, Exec.outcome_bind_eq_ok, Exec.outcome_require_eq_ok,
    Exec.outcome_pure_eq_ok]
  constructor
  · rintro ⟨r, ⟨-, hne, rfl⟩, rfl⟩
    exact .approveForAll operator approved hne
  · intro h
    cases h with
    | approveForAll _ _ hne => exact ⟨_, ⟨(), hne, rfl⟩, rfl⟩

theorem reported_transferFrom : reported (token.transferFrom msgSender fromAddr toAddr tokenId) =
    token.ledger.decision msgSender (.transfer fromAddr toAddr tokenId) := by
  refine Option.ext fun entries => ?_
  rw [reported_eq_some_iff, Ledger.decision_eq_some_iff]
  simp only [transferFrom, Exec.outcome_bind_eq_ok, outcome_isApprovedOrOwner_eq_ok,
    Exec.outcome_require_eq_ok, outcome_transfer_eq_ok]
  constructor
  · rintro ⟨r, ⟨allowed, ⟨owner, howner, hrule⟩, -, rfl, howner', hto, rfl⟩, rfl⟩
    obtain rfl := Option.some.inj (howner.symm.trans howner')
    exact .transfer owner toAddr tokenId howner hto (hrule.mpr rfl)
  · intro h
    cases h with
    | transfer _ _ _ howner hto hmay =>
      exact ⟨_, ⟨true, ⟨fromAddr, howner, iff_of_true hmay rfl⟩, (), rfl, howner, hto, rfl⟩, rfl⟩

/-- A receiver that refuses the token undoes the transfer. -/
theorem reported_safeTransferFrom {received : Bool} :
    reported (token.safeTransferFrom msgSender fromAddr toAddr tokenId received) =
      if received then token.ledger.decision msgSender (.transfer fromAddr toAddr tokenId)
      else none := by
  rw [← reported_transferFrom]
  refine Option.ext fun entries => ?_
  cases received with
  | true =>
    rw [if_pos rfl, reported_eq_some_iff, reported_eq_some_iff]
    simp [safeTransferFrom, transferFrom]
  | false =>
    rw [if_neg Bool.false_ne_true, reported_eq_some_iff]
    simp [safeTransferFrom]

end Rules

end ERC721
end OptimismZap
