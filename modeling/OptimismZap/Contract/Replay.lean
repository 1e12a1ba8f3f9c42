import OptimismZap.Contract.EventLog
import OptimismZap.OpenZeppelin.TokenLedger

/-!
# What the event log tells about the ledger

Wallets and marketplaces do not read storage; they collect events.  Entered one
after the other in an empty ledger the events give the ledger of the contract, so
whoever has seen all of them can answer every question about tokens, approvals and
balances as the contract would (`events_tell_state`).

The events are not only enough, they are consistent: every transfer starts at the
holder of the time and every approval names him.  Hence the transfers of a token
form a chain of custody from its mint to its holder, and the ownership passes from
the deployer to the owner in the same way.  No assumption on the hash function is
needed, since the ledger does not care where its ids come from.
-/

namespace OptimismZap
namespace Zap

open Ledger (Entry Leads)

/-- The entries of the token ledger among the events. -/
def tokenEntries (es : List Event) : List (Entry Address Uint256) :=
  es.filterMap fun
    | .token event => some event.entry
    | _ => none

/-- The passages of the ownership among the events. -/
def ownershipMoves (es : List Event) : List (Address × Address) :=
  es.filterMap fun
    | .ownership (.ownershipTransferred previousOwner newOwner) => some (previousOwner, newOwner)
    | _ => none

/-- The ledger as an observer of the events has it. -/
def observed (es : List Event) : Ledger Address Uint256 := Ledger.empty.replay (tokenEntries es)

/-- What the state answers is what the events say. -/
structure Told (deployer : Address) (es : List Event) (σ : State) : Prop where
  history : Ledger.empty.History (tokenEntries es)
  ownerOf : ∀ id, (σ.ownerOf id).outcome = ((observed es).holder id).elim
    (.error "ERC721: owner query for nonexistent token") Except.ok
  getApproved : ∀ id, (σ.getApproved id).outcome = ((observed es).holder id).elim
    (.error "ERC721: approved query for nonexistent token")
      fun _ => .ok ((observed es).approved id)
  isApprovedForAll : ∀ owner operator,
    σ.isApprovedForAll owner operator = (observed es).operators owner operator
  /-- A balance is what has arrived less what has departed. -/
  balanceOf : ∀ owner, owner ≠ 0 → ∃ n, (σ.balanceOf owner).outcome = .ok n ∧
    n + (tokenEntries es).countP (Entry.departsFrom owner) =
      (tokenEntries es).countP (Entry.arrivesAt owner)
  /-- The tokens are enumerated as they were created. -/
  tokenByIndex : ∀ i id, (σ.tokenByIndex i).outcome = .ok id ↔
    (Ledger.created (tokenEntries es))[i]? = some id
  totalSupply : σ.totalSupply = (Ledger.created (tokenEntries es)).length
  custody : ∀ id, Leads 0 (Ledger.custody id (tokenEntries es)) ((observed es).holderOrZero id)
  ownership : Leads deployer (ownershipMoves es) σ.owner

section Events

variable {es es' : List Event}

theorem tokenEntries_append : tokenEntries (es ++ es') = tokenEntries es ++ tokenEntries es' :=
  List.filterMap_append

theorem ownershipMoves_append :
    ownershipMoves (es ++ es') = ownershipMoves es ++ ownershipMoves es' :=
  List.filterMap_append

@[simp] theorem tokenEntries_map_token {events : List ERC721.Event} :
    tokenEntries (events.map .token) = events.map ERC721.Event.entry := by
  unfold tokenEntries
  rw [List.filterMap_map]
  exact congrFun (List.filterMap_eq_map (f := ERC721.Event.entry)) events

@[simp] theorem ownershipMoves_map_token {events : List ERC721.Event} :
    ownershipMoves (events.map .token) = [] := by
  unfold ownershipMoves
  rw [List.filterMap_map]
  exact List.filterMap_eq_nil_iff.mpr fun _ _ => rfl

@[simp] theorem tokenEntries_mintEvents {σ : State} {key : Bytes32} {id : Uint256}
    {data : ZapData} :
    tokenEntries (σ.mintEvents key id data) = [.transfer 0 data.zapper id] := by
  unfold State.mintEvents
  split <;> rfl

@[simp] theorem ownershipMoves_mintEvents {σ : State} {key : Bytes32} {id : Uint256}
    {data : ZapData} : ownershipMoves (σ.mintEvents key id data) = [] := by
  unfold State.mintEvents
  split <;> rfl

end Events

/-- What the events of one call or of a whole run do to the parts of the state that are
told by events. -/
structure Entered (σ σ' : State) (es : List Event) : Prop
    extends ERC721.Entered σ.toERC721 σ'.toERC721 (tokenEntries es) where
  keys_eq : σ'.tokenOwners.keys = σ.tokenOwners.keys ++ Ledger.created (tokenEntries es)
  ownership : Leads σ.owner (ownershipMoves es) σ'.owner

section Steps

variable {P : Primitives} {Z : Deployed} {c : Call} {σ σ' σ'' : State} {es es' : List Event}

theorem entered_refl : Entered σ σ [] :=
  ⟨⟨trivial, rfl⟩, (List.append_nil _).symm, rfl⟩

theorem Entered.trans (h : Entered σ σ' es) (h' : Entered σ' σ'' es') :
    Entered σ σ'' (es ++ es') where
  history := by
    rw [tokenEntries_append, Ledger.history_append, ← h.ledger_eq]
    exact ⟨h.history, h'.history⟩
  ledger_eq := by rw [tokenEntries_append, Ledger.replay_append, ← h.ledger_eq, h'.ledger_eq]
  keys_eq := by
    rw [tokenEntries_append, h'.keys_eq, h.keys_eq, List.append_assoc]
    exact congrArg _ List.filterMap_append.symm
  ownership := by
    rw [ownershipMoves_append]
    exact Ledger.leads_append.mpr ⟨_, h.ownership, h'.ownership⟩

/-- **A successful call enters its events.** -/
theorem Step.entered (hstep : Step P Z c σ σ' es) (hwf : σ.toERC721.WellFormed) :
    Entered σ σ' es := by
  cases hstep with
  | mint data hdata hauth hrecord hserial hzapper hnew =>
    refine ⟨?_, ?_, ?_⟩
    · rw [tokenEntries_mintEvents]
      exact hwf.entered_afterMint hzapper hnew
    · rw [tokenEntries_mintEvents]
      exact ERC721.keys_afterMint hnew
    · rw [ownershipMoves_mintEvents]
      rfl
  | token token events hop heffect =>
    refine ⟨?_, ?_, ?_⟩
    · rw [tokenEntries_map_token]
      exact hwf.entered_effect heffect
    · rw [tokenEntries_map_token, hwf.created_effect heffect, List.append_nil]
      exact heffect.keys_eq
    · rw [ownershipMoves_map_token]
      rfl
  | ownership newOwner hsender hop =>
    exact ⟨⟨trivial, rfl⟩, (List.append_nil _).symm, rfl, rfl⟩

end Steps

section Runs

variable {P : Primitives} {D : Deployment} {calls later : List Call}

/-- Every run enters its events, beginning at the deployment. -/
theorem entered_run : Entered (genesis D) (run P D calls).state (events (run P D calls).log) := by
  refine World.log_induction (Q := fun _ => True)
    (I := fun σ log => Entered (genesis D) σ (events log)) ?_ (fun _ _ => trivial) entered_refl
  intro before c post es _ hx hI
  have hwf : (run P D before).state.WellFormed := recorded_run.wellFormed
  rw [events_concat]
  exact hI.trans ((step_of_exec hx).entered hwf)

/-- **Who has seen all events can answer for the contract.**  In every reachable state, whatever
calls led to it, the events emitted so far are a consistent history of the token ledger; entered
in an empty ledger they give the holder, the approval and the operators the contract answers, its
balances and its enumeration; the transfers of each token lead from its mint to its holder, and
the passages of the ownership from the deployer to the owner. -/
theorem events_tell_state (P : Primitives) (D : Deployment) (calls : List Call) :
    Told D.deployer (events (run P D calls).log) (run P D calls).state := by
  have hwf : (run P D calls).state.WellFormed := recorded_run.wellFormed
  have h : Entered (genesis D) (run P D calls).state (events (run P D calls).log) := entered_run
  have hhistory : Ledger.empty.History (tokenEntries (events (run P D calls).log)) := h.history
  have hledger : (run P D calls).state.ledger = observed (events (run P D calls).log) :=
    h.ledger_eq
  have hkeys : (run P D calls).state.tokenOwners.keys =
      Ledger.created (tokenEntries (events (run P D calls).log)) := h.keys_eq
  constructor
  case history => exact hhistory
  case ownerOf =>
    intro id
    rw [ERC721.outcome_ownerOf, hledger]
  case getApproved =>
    intro id
    rw [ERC721.outcome_getApproved, hledger]
  case isApprovedForAll =>
    intro owner operator
    rw [← hledger]
    rfl
  case balanceOf =>
    intro owner howner
    refine ⟨_, hwf.outcome_balanceOf howner, ?_⟩
    rw [hledger]
    have hcount := Ledger.held_add_departures hhistory Ledger.sound_empty howner
    have hempty : ((Ledger.empty : Ledger Address Uint256).held owner).ncard = 0 := by
      simp [Ledger.held, Ledger.empty]
    rw [hempty, Nat.zero_add] at hcount
    exact hcount
  case tokenByIndex =>
    intro i id
    rw [ERC721.outcome_tokenByIndex_eq_ok, hkeys]
  case totalSupply => rw [ERC721.totalSupply, EnumerableMap.length_eq, hkeys]
  case custody => exact fun id => Ledger.leads_custody hhistory id
  case ownership => exact h.ownership

end Runs

end Zap
end OptimismZap
