import Mathlib.Algebra.BigOperators.Group.Finset.Basic
import OptimismZap.Library.Rosters
import OptimismZap.OpenZeppelin.TokenLedger

/-!
# The enumerable extension

`tokenOfOwnerByIndex` and `tokenByIndex` list tokens by position.  On a well-formed
ledger the lists are complete, without repetition and as long as the contract says
(`Enumerated`), and the balances add up to the supply.

What stands at which position is bookkeeping of the storage, but not arbitrary: the
positions of a holder are those of a roster that the events are entered in
(`WellFormed.roster_effect`, `WellFormed.roster_afterMint`).
-/

namespace OptimismZap
namespace ERC721

/-- The enumerations are those of the holders and of the tokens. -/
structure Enumerated (token : ERC721) : Prop where
  ownerOf_of_index : ∀ owner i tokenId,
    (token.tokenOfOwnerByIndex owner i).outcome = .ok tokenId →
      (token.ownerOf tokenId).outcome = .ok owner
  existsUnique_index : ∀ owner tokenId, (token.ownerOf tokenId).outcome = .ok owner →
    ∃! i, (token.tokenOfOwnerByIndex owner i).outcome = .ok tokenId
  /-- A position is out of bounds from the balance on. -/
  reverts_iff : ∀ owner i, owner ≠ 0 → ∃ n, (token.balanceOf owner).outcome = .ok n ∧
    ((token.tokenOfOwnerByIndex owner i).outcome =
      .error "EnumerableSet: index out of bounds" ↔ n ≤ i)
  reverts_zero : ∀ i, (token.tokenOfOwnerByIndex 0 i).outcome =
    .error "EnumerableSet: index out of bounds"
  exists_of_position : ∀ i tokenId, (token.tokenByIndex i).outcome = .ok tokenId →
    ∃ owner, (token.ownerOf tokenId).outcome = .ok owner
  existsUnique_position : ∀ owner tokenId, (token.ownerOf tokenId).outcome = .ok owner →
    ∃! i, (token.tokenByIndex i).outcome = .ok tokenId
  position_reverts_iff : ∀ i, (token.tokenByIndex i).outcome =
    .error "EnumerableMap: index out of bounds" ↔ token.totalSupply ≤ i
  /-- Whoever holds tokens is among `accounts`, so their balances are all there are. -/
  sum_balances : ∀ accounts : Finset Address, 0 ∉ accounts →
    (∀ owner tokenId, (token.ownerOf tokenId).outcome = .ok owner → owner ∈ accounts) →
      ∃ balance : Address → ℕ,
        (∀ owner ∈ accounts, (token.balanceOf owner).outcome = .ok (balance owner)) ∧
          ∑ owner ∈ accounts, balance owner = token.totalSupply

/-- The tokens of each account by position. -/
def roster (token : ERC721) : Ledger.Roster Address Uint256 :=
  fun owner => (token.holderTokens owner).values

section Views

variable {token : ERC721} {owner : Address} {tokenId : Uint256} {i : ℕ}

theorem outcome_tokenOfOwnerByIndex : (token.tokenOfOwnerByIndex owner i).outcome =
    (token.roster owner)[i]?.elim (.error "EnumerableSet: index out of bounds") Except.ok := by
  unfold tokenOfOwnerByIndex EnumerableSet.atIndex roster
  cases (token.holderTokens owner).values[i]? <;> rfl

theorem outcome_tokenOfOwnerByIndex_eq_ok :
    (token.tokenOfOwnerByIndex owner i).outcome = .ok tokenId ↔
      (token.roster owner)[i]? = some tokenId := by
  rw [outcome_tokenOfOwnerByIndex]
  cases (token.roster owner)[i]? <;> simp

theorem outcome_tokenByIndex : (token.tokenByIndex i).outcome =
    token.tokenOwners.keys[i]?.elim (.error "EnumerableMap: index out of bounds") Except.ok := by
  unfold tokenByIndex EnumerableMap.atIndex EnumerableMap.keys
  rw [List.getElem?_map]
  cases token.tokenOwners.entries[i]? <;> rfl

/-- What stands in a duplicate-free list stands there once. -/
theorem existsUnique_getElem? {l : List Uint256} (hl : l.Nodup) (h : tokenId ∈ l) :
    ∃! i : ℕ, l[i]? = some tokenId := by
  obtain ⟨i, hi⟩ := List.mem_iff_getElem?.mp h
  refine ⟨i, hi, fun j hj => ?_⟩
  obtain ⟨hlt, -⟩ := List.getElem?_eq_some_iff.mp hj
  exact (List.getElem?_inj hlt hl).mp (hj.trans hi.symm)

/-- Past the end and only there a list has nothing. -/
theorem elim_eq_error_iff {l : List Uint256} {message : String} :
    l[i]?.elim (Except.error message) Except.ok = .error message ↔ l.length ≤ i := by
  rw [← List.getElem?_eq_none_iff]
  cases l[i]? <;> simp

theorem WellFormed.mem_roster_iff (h : token.WellFormed) :
    tokenId ∈ token.roster owner ↔ (token.ownerOf tokenId).outcome = .ok owner := by
  rw [outcome_ownerOf_eq_ok]
  exact h.mem_holderTokens_iff owner tokenId

/-- Every token is counted in one balance. -/
theorem WellFormed.sum_roster (h : token.WellFormed) {accounts : Finset Address}
    (haccounts : ∀ owner tokenId, (token.ownerOf tokenId).outcome = .ok owner →
      owner ∈ accounts) :
    ∑ owner ∈ accounts, (token.roster owner).length = token.totalSupply := by
  have hkeys := token.tokenOwners.nodup_keys
  have hsupply : token.totalSupply = token.tokenOwners.keys.toFinset.card := by
    rw [List.toFinset_card_of_nodup hkeys]
    exact EnumerableMap.length_eq _
  -- a token belongs to the fibre of its owner
  have hfibre : ∀ owner, token.tokenOwners.keys.toFinset.filter
      (fun tokenId => (token.tokenOwners.lookup tokenId).getD 0 = owner) =
        (token.roster owner).toFinset := by
    intro owner
    ext tokenId
    rw [Finset.mem_filter, List.mem_toFinset, List.mem_toFinset, h.mem_roster_iff,
      outcome_ownerOf_eq_ok, ← EnumerableMap.isSome_lookup]
    cases hlookup : token.tokenOwners.lookup tokenId with
    | none => simp
    | some owner' => simp
  rw [hsupply, Finset.card_eq_sum_card_fiberwise (t := accounts)]
  · refine Finset.sum_congr rfl fun owner _ => ?_
    have hnodup : (token.roster owner).Nodup := EnumerableSet.nodup_values _
    rw [hfibre, List.toFinset_card_of_nodup hnodup]
  · intro tokenId hid
    have hid : tokenId ∈ token.tokenOwners.keys := List.mem_toFinset.mp hid
    obtain ⟨owner, hlookup⟩ := Option.isSome_iff_exists.mp (EnumerableMap.isSome_lookup.mpr hid)
    have howner := haccounts owner tokenId (outcome_ownerOf_eq_ok.mpr hlookup)
    simpa [hlookup] using howner

/-- **The enumerations of a well-formed ledger are complete and exact.** -/
theorem WellFormed.enumerated (h : token.WellFormed) : token.Enumerated where
  ownerOf_of_index owner i tokenId hi :=
    h.mem_roster_iff.mp (List.mem_of_getElem? (outcome_tokenOfOwnerByIndex_eq_ok.mp hi))
  existsUnique_index owner tokenId howner := by
    simp only [outcome_tokenOfOwnerByIndex_eq_ok]
    exact existsUnique_getElem? (EnumerableSet.nodup_values _) (h.mem_roster_iff.mpr howner)
  reverts_iff owner i howner := by
    refine ⟨(token.roster owner).length, by simp [balanceOf, howner, EnumerableSet.length, roster],
      ?_⟩
    rw [outcome_tokenOfOwnerByIndex, elim_eq_error_iff]
  reverts_zero i := by
    have hnil : token.roster 0 = [] := by
      refine List.eq_nil_iff_forall_not_mem.mpr fun tokenId hid => ?_
      exact h.owner_ne_zero tokenId (outcome_ownerOf_eq_ok.mp (h.mem_roster_iff.mp hid))
    rw [outcome_tokenOfOwnerByIndex, hnil]
    rfl
  exists_of_position i tokenId hi := by
    have hmem := List.mem_of_getElem? (outcome_tokenByIndex_eq_ok.mp hi)
    obtain ⟨owner, howner⟩ := Option.isSome_iff_exists.mp (EnumerableMap.isSome_lookup.mpr hmem)
    exact ⟨owner, outcome_ownerOf_eq_ok.mpr howner⟩
  existsUnique_position owner tokenId howner := by
    simp only [outcome_tokenByIndex_eq_ok]
    exact existsUnique_getElem? token.tokenOwners.nodup_keys
      (exists_of_lookup (outcome_ownerOf_eq_ok.mp howner))
  position_reverts_iff i := by
    rw [outcome_tokenByIndex, elim_eq_error_iff, totalSupply, EnumerableMap.length_eq]
  sum_balances accounts hzero haccounts := by
    refine ⟨fun owner => (token.roster owner).length, fun owner howner => ?_,
      h.sum_roster haccounts⟩
    have hne : owner ≠ 0 := fun heq => hzero (heq ▸ howner)
    simp [balanceOf, hne, EnumerableSet.length, roster]

end Views

/-! ## Positions -/

section Writes

variable {token token' : ERC721} {es : List Event}

theorem values_update {holderTokens : Address → EnumerableSet Uint256} {owner : Address}
    {set : EnumerableSet Uint256} :
    (fun a => (Function.update holderTokens owner set a).values) =
      Function.update (fun a => (holderTokens a).values) owner set.values := by
  funext a
  exact Function.apply_update (fun _ set => set.values) holderTokens owner set a

/-- **Approvals and transfers enter their events in the roster.** -/
theorem WellFormed.roster_effect (h : token.WellFormed) (heff : Effect token token' es) :
    token'.roster = token.roster.replay (es.map Event.entry) := by
  cases heff with
  | approve => rfl
  | approveForAll => rfl
  | transfer fromAddr toAddr tokenId howner hto =>
    let departed := Function.update token.holderTokens fromAddr
      ((token.holderTokens fromAddr).remove tokenId).1
    let departedRoster := Function.update token.roster fromAddr
      (withdraw (token.roster fromAddr) tokenId)
    have hdeparted : (fun a => (departed a).values) = departedRoster := by
      rw [values_update, EnumerableSet.values_remove]
      rfl
    -- once it has left its holder, nobody has the token
    have hnew : tokenId ∉ (departed toAddr).values := by
      simp only [departed]
      rw [Function.update_apply]
      split
      · rw [EnumerableSet.mem_remove]
        exact fun hmem => hmem.2 rfl
      · rename_i hne
        rw [h.mem_holderTokens_iff, howner]
        exact fun heq => hne (Option.some.inj heq).symm
    show (fun owner => (Function.update departed toAddr ((departed toAddr).add tokenId).1
      owner).values) =
        Function.update departedRoster toAddr (departedRoster toAddr ++ [tokenId])
    rw [values_update, EnumerableSet.values_add hnew, hdeparted, ← congrFun hdeparted toAddr]

/-- **A mint enters its event in the roster.**  Nothing departs from the zero address. -/
theorem WellFormed.roster_afterMint (h : token.WellFormed) {toAddr : Address}
    {tokenId : Uint256} (hnew : ¬ token.Exists tokenId) :
    (token.afterMint toAddr tokenId).roster =
      token.roster.replay [(Event.transfer 0 toAddr tokenId).entry] := by
  have hnot : ∀ owner, tokenId ∉ token.roster owner := fun owner hmem =>
    hnew (exists_of_lookup (outcome_ownerOf_eq_ok.mp (h.mem_roster_iff.mp hmem)))
  have hzero : Function.update token.roster 0 (withdraw (token.roster 0) tokenId) =
      token.roster := by
    rw [withdraw, if_neg (hnot 0), Function.update_eq_self]
  show (fun owner => (Function.update token.holderTokens toAddr
    ((token.holderTokens toAddr).add tokenId).1 owner).values) =
      Function.update (Function.update token.roster 0 (withdraw (token.roster 0) tokenId)) toAddr
        (Function.update token.roster 0 (withdraw (token.roster 0) tokenId) toAddr ++ [tokenId])
  rw [hzero, values_update, EnumerableSet.values_add (hnot toAddr)]
  rfl

end Writes

end ERC721
end OptimismZap
