import OptimismZap.Contract.Replay

/-!
# Nobody loses a token without a say

A token moves because its holder wants it to, or because somebody does whom the
holder has allowed to.  The contract checks this against two tables of approvals;
`transfer_authorized` is about what is behind the tables.  Whoever moves a token
is its holder, or the holder made him an operator by a call of his own and has
not taken that back, or the holder or such an operator approved him for this token
and the token has not moved since.

In particular neither the owner of the contract nor any minter has power over
tokens that exist, and an account that never writes to the ledger keeps whatever
it is given (`holder_keeps`).

The argument is that of the ledger's rules: `Call.request` is what a call asks of
the ledger, `decided_of_exec` says that a successful call got what it asked for,
and the rest is about decisions.
-/

namespace OptimismZap
namespace Zap

open Ledger (Request)

/-- What a write of the token standard asks of the ledger.  A transfer that its receiver refuses
asks for nothing. -/
def Op.request : Op → Option (Request Address Uint256)
  | .approve toAddr tokenId => some (.approve toAddr tokenId)
  | .setApprovalForAll operator approved => some (.approveForAll operator approved)
  | .transferFrom fromAddr toAddr tokenId => some (.transfer fromAddr toAddr tokenId)
  | .safeTransferFrom fromAddr toAddr tokenId _ received =>
    if received then some (.transfer fromAddr toAddr tokenId) else none
  | _ => none

/-- What a call asks of the ledger.  A mint asks for a new token. -/
def Call.request (P : Primitives) (Z : Deployed) (c : Call) (owner : Address) :
    Option (Request Address Uint256) :=
  match c.zapData owner with
  | some data => some (.create data.zapper (tokenId P Z c.chainId data))
  | none => c.op.request

section Steps

variable {P : Primitives} {Z : Deployed} {c : Call} {σ σ' : State} {es : List Event}

theorem decided_of_onToken {body : ERC721 → Exec (ERC721 × List ERC721.Event)}
    {r : Request Address Uint256}
    (hbody : ERC721.reported (body σ.toERC721) = σ.ledger.decision c.msgSender r)
    (h : (σ.onToken body).outcome = .ok (σ', es)) :
    σ.ledger.Decided c.msgSender r (tokenEntries es) := by
  simp only [State.onToken, Exec.outcome_bind_eq_ok, Exec.outcome_pure_eq_ok] at h
  obtain ⟨⟨token, events⟩, htoken, heq⟩ := h
  obtain ⟨rfl, rfl⟩ := Prod.mk.inj heq
  rw [tokenEntries_map_token, ← Ledger.decision_eq_some_iff, ← hbody]
  exact ERC721.reported_eq_some_iff.mpr ⟨_, htoken, rfl⟩

theorem succeeds_of_onToken {body : ERC721 → Exec (ERC721 × List ERC721.Event)}
    {r : Request Address Uint256} {entries : List (Ledger.Entry Address Uint256)}
    (hbody : ERC721.reported (body σ.toERC721) = σ.ledger.decision c.msgSender r)
    (h : σ.ledger.Decided c.msgSender r entries) : (σ.onToken body).Succeeds := by
  rw [Ledger.decision_eq_some_iff.mpr h] at hbody
  obtain ⟨⟨token, events⟩, htoken, -⟩ := ERC721.reported_eq_some_iff.mp hbody
  refine ⟨({ σ with toERC721 := token }, events.map .token), ?_⟩
  simp only [State.onToken, Exec.outcome_bind_eq_ok, Exec.outcome_pure_eq_ok]
  exact ⟨_, htoken, rfl⟩

/-- A write of the token standard goes through if the rules of the ledger allow it. -/
theorem succeeds_of_decided {r : Request Address Uint256}
    {entries : List (Ledger.Entry Address Uint256)} (hr : c.op.request = some r)
    (h : σ.ledger.Decided c.msgSender r entries) : (exec P Z c σ).Succeeds := by
  obtain ⟨chainId, msgSender, op⟩ := c
  cases op with
  | approve =>
    obtain rfl := Option.some.inj hr
    exact succeeds_of_onToken ERC721.reported_approve h
  | setApprovalForAll =>
    obtain rfl := Option.some.inj hr
    exact succeeds_of_onToken ERC721.reported_setApprovalForAll h
  | transferFrom =>
    obtain rfl := Option.some.inj hr
    exact succeeds_of_onToken ERC721.reported_transferFrom h
  | safeTransferFrom fromAddr toAddr tokenId data received =>
    cases received with
    | true =>
      obtain rfl := Option.some.inj hr
      exact succeeds_of_onToken (ERC721.reported_safeTransferFrom.trans (if_pos rfl)) h
    | false => cases hr
  | _ => cases hr

/-- A write of the token standard that goes through has asked for what the rules allow. -/
theorem decided_of_onLedger (hop : c.op.onLedger = true)
    (hx : (exec P Z c σ).outcome = .ok (σ', es)) :
    ∃ r, c.op.request = some r ∧ σ.ledger.Decided c.msgSender r (tokenEntries es) := by
  obtain ⟨chainId, msgSender, op⟩ := c
  cases op with
  | approve => exact ⟨_, rfl, decided_of_onToken ERC721.reported_approve hx⟩
  | setApprovalForAll => exact ⟨_, rfl, decided_of_onToken ERC721.reported_setApprovalForAll hx⟩
  | transferFrom => exact ⟨_, rfl, decided_of_onToken ERC721.reported_transferFrom hx⟩
  | safeTransferFrom fromAddr toAddr tokenId data received =>
    cases received with
    | true =>
      exact ⟨_, rfl, decided_of_onToken (ERC721.reported_safeTransferFrom.trans (if_pos rfl)) hx⟩
    | false => simp [exec, State.onToken, ERC721.safeTransferFrom] at hx
  | _ => exact absurd hop (by simp [Op.onLedger])

/-- **A successful call got from the ledger what it asked for**, and one that asks for nothing
leaves the ledger alone. -/
theorem decided_of_exec (hx : (exec P Z c σ).outcome = .ok (σ', es)) :
    (∃ r, c.request P Z σ.owner = some r ∧ σ.ledger.Decided c.msgSender r (tokenEntries es)) ∨
      tokenEntries es = [] := by
  have hstep := step_of_exec hx
  cases hstep with
  | mint data hdata hauth hrecord hserial hzapper hnew =>
    refine Or.inl ⟨.create data.zapper (tokenId P Z c.chainId data), ?_, ?_⟩
    · simp only [Call.request, hdata]
    · rw [tokenEntries_mintEvents]
      exact .create _ _ hzapper (EnumerableMap.lookup_eq_none_iff.mpr hnew)
  | token token events hop heffect =>
    obtain ⟨r, hr, hdecided⟩ := decided_of_onLedger hop hx
    refine Or.inl ⟨r, ?_, hdecided⟩
    simp only [Call.request, zapData_eq_none_of_onLedger hop, hr]
  | ownership => exact Or.inr rfl

/-- Only the writes of the token standard ask for anything but new tokens. -/
theorem request_eq_some {owner : Address} {r : Request Address Uint256}
    (h : c.request P Z owner = some r) (hr : ∀ toAddr id, r ≠ .create toAddr id) :
    c.op.request = some r := by
  unfold Call.request at h
  split at h
  · exact absurd (Option.some.inj h).symm (hr _ _)
  · exact h

end Steps

/-- The call is a transfer of the token between the two accounts. -/
def Op.Moves (op : Op) (fromAddr toAddr : Address) (id : Uint256) : Prop :=
  op = .transferFrom fromAddr toAddr id ∨
    ∃ data, op = .safeTransferFrom fromAddr toAddr id data true

theorem Op.request_eq_approve {op : Op} {toAddr : Address} {id : Uint256} :
    op.request = some (.approve toAddr id) ↔ op = .approve toAddr id := by
  cases op <;> simp [Op.request]

theorem Op.request_eq_approveForAll {op : Op} {operator : Address} {approved : Bool} :
    op.request = some (.approveForAll operator approved) ↔
      op = .setApprovalForAll operator approved := by
  cases op <;> simp [Op.request]

theorem Op.request_eq_transfer {op : Op} {fromAddr toAddr : Address} {id : Uint256} :
    op.request = some (.transfer fromAddr toAddr id) ↔ op.Moves fromAddr toAddr id := by
  cases op <;> simp [Op.request, Op.Moves]
  tauto

theorem Op.request_ne_create {op : Op} {toAddr : Address} {id : Uint256} :
    op.request ≠ some (.create toAddr id) := by
  cases op <;> simp [Op.request]

/-! ## Permissions and where they come from -/

section Permissions

variable (P : Primitives) (D : Deployment) (calls : List Call)

/-- The account made `operator` its operator by a call of its own, and he has been that ever
since. -/
def OperatorGranted (owner operator : Address) : Prop :=
  ∃ before c after, calls = before ++ c :: after ∧
    c.msgSender = owner ∧ c.op = .setApprovalForAll operator true ∧
    (exec P (D.code P).value c (run P D before).state).Succeeds ∧
    ∀ mid, mid <+: after →
      (run P D (before ++ c :: mid)).state.isApprovedForAll owner operator = true

/-- The account, or an operator it had made, approved `spender` for the token, and ever since
the token has been the account's and `spender` approved for it. -/
def ApprovalGranted (owner spender : Address) (id : Uint256) : Prop :=
  ∃ before c after, calls = before ++ c :: after ∧
    (c.msgSender = owner ∨ OperatorGranted P D before owner c.msgSender) ∧
    c.op = .approve spender id ∧
    (exec P (D.code P).value c (run P D before).state).Succeeds ∧
    ∀ mid, mid <+: after →
      ((run P D (before ++ c :: mid)).state.ownerOf id).outcome = .ok owner ∧
      ((run P D (before ++ c :: mid)).state.getApproved id).outcome = .ok spender

end Permissions

section Runs

variable {P : Primitives} {D : Deployment} {calls : List Call} {c : Call} {σ' : State}
  {es : List Event} {a b : Address} {id : Uint256}

/-- A successful call of a run replays its entries. -/
theorem ledger_eq_of_exec
    (hx : (exec P (D.code P).value c (run P D calls).state).outcome = .ok (σ', es)) :
    σ'.ledger = (run P D calls).state.ledger.replay (tokenEntries es) := by
  have hwf : (run P D calls).state.WellFormed := recorded_run.wellFormed
  exact ((step_of_exec hx).entered hwf).ledger_eq

/-- **Every operator has been made one by his principal.** -/
theorem operatorGranted (h : (run P D calls).state.ledger.operators a b = true) :
    OperatorGranted P D calls a b := by
  obtain ⟨before, c, after, σ', es, rfl, hx, hnot, hpost, hsince⟩ :=
    World.exists_since (A := fun σ : State => σ.ledger.operators a b = true)
      (w := deployed P D) (by simp [deployed, genesis, ERC721.ledger, ERC721.empty]) h
  have hledger : σ'.ledger = (run P D before).state.ledger.replay (tokenEntries es) :=
    ledger_eq_of_exec hx
  rw [hledger] at hpost
  rcases decided_of_exec hx with ⟨r, hr, hdecided⟩ | hnil
  · obtain ⟨hsender, rfl⟩ := hdecided.approveForAll_of_operators hnot hpost
    have hop := Op.request_eq_approveForAll.mp (request_eq_some hr (by simp))
    exact ⟨before, c, after, rfl, hsender, hop, ⟨_, hx⟩, hsince⟩
  · rw [hnil] at hpost
    exact absurd hpost hnot

/-- From the approval on, as long as it stands, the token stays with its holder. -/
theorem holder_of_approved_since {mid : List Call} (hb : b ≠ 0)
    (hholder : (run P D calls).state.ledger.holder id = some a)
    (hsince : ∀ mid', mid' <+: mid → (run P D (calls ++ mid')).state.ledger.approved id = b) :
    (run P D (calls ++ mid)).state.ledger.holder id = some a := by
  induction mid using List.reverseRecOn with
  | nil => rwa [List.append_nil]
  | append_singleton mid c ih =>
    have hbefore := ih fun mid' hmid' => hsince mid' (hmid'.trans (List.prefix_append _ _))
    have hafter := hsince _ List.prefix_rfl
    rw [← List.append_assoc, run_concat] at hafter ⊢
    rcases World.attempt_cases (exec P (D.code P).value) (run P D (calls ++ mid)) c with
      ⟨post, events, hx, heq⟩ | ⟨-, heq⟩
    · rw [heq] at hafter ⊢
      have hledger : post.ledger = _ := ledger_eq_of_exec hx
      rw [hledger] at hafter ⊢
      rcases decided_of_exec hx with ⟨r, -, hdecided⟩ | hnil
      · exact hdecided.holder_eq_of_approved hb hbefore hafter
      · rw [hnil]
        exact hbefore
    · rw [heq]
      exact hbefore

/-- **Every approval was given by who controlled the holder**, who is still the holder. -/
theorem approvalGranted (hb : b ≠ 0) (hholder : (run P D calls).state.ledger.holder id = some a)
    (h : (run P D calls).state.ledger.approved id = b) : ApprovalGranted P D calls a b id := by
  obtain ⟨before, c, after, σ', es, rfl, hx, hnot, hpost, hsince⟩ :=
    World.exists_since (A := fun σ : State => σ.ledger.approved id = b)
      (w := deployed P D) (fun heq => hb heq.symm) h
  have hfirst : (run P D (before ++ [c])).state = σ' := by
    rw [run_concat]
    exact congrArg World.state (World.attempt_of_ok hx)
  have hledger : σ'.ledger = (run P D before).state.ledger.replay (tokenEntries es) :=
    ledger_eq_of_exec hx
  rw [hledger] at hpost
  rcases decided_of_exec hx with ⟨r, hr, hdecided⟩ | hnil
  · obtain ⟨rfl, a', -, hafter, hcontrols⟩ := hdecided.approve_of_approved hb hnot hpost
    have hop := Op.request_eq_approve.mp (request_eq_some hr (by simp))
    have hholds : (run P D (before ++ [c])).state.ledger.holder id = some a' := by
      rw [hfirst, hledger]
      exact hafter
    -- from the call on the token is with the account that was its holder then
    have hstays : ∀ mid, mid <+: after →
        (run P D (before ++ c :: mid)).state.ledger.holder id = some a' := by
      intro mid hmid
      rw [List.append_cons]
      refine holder_of_approved_since hb hholds fun mid' hmid' => ?_
      rw [← List.append_cons]
      exact hsince mid' (hmid'.trans hmid)
    obtain rfl := Option.some.inj (hholder.symm.trans (hstays after List.prefix_rfl))
    refine ⟨before, c, after, rfl, ?_, hop, ⟨_, hx⟩, fun mid hmid => ⟨?_, ?_⟩⟩
    · exact hcontrols.imp_right operatorGranted
    · exact ERC721.outcome_ownerOf_eq_ok.mpr (hstays mid hmid)
    · rw [ERC721.outcome_getApproved, hstays mid hmid, ← hsince mid hmid]
      rfl
  · rw [hnil] at hpost
    exact absurd hpost hnot

/-- Who takes a token from its holder is allowed to, by the holder or by who speaks for him. -/
theorem authorized_of_moved (hsender : c.msgSender ≠ 0)
    (hx : (exec P (D.code P).value c (run P D calls).state).outcome = .ok (σ', es))
    (hholder : (run P D calls).state.ledger.holder id = some a)
    (hmoved : σ'.ledger.holder id ≠ some a) :
    ∃ b, c.op.Moves a b id ∧ σ'.ledger.holder id = some b ∧
      (c.msgSender = a ∨ OperatorGranted P D calls a c.msgSender ∨
        ApprovalGranted P D calls a c.msgSender id) := by
  rw [ledger_eq_of_exec hx] at hmoved ⊢
  rcases decided_of_exec hx with ⟨r, hr, hdecided⟩ | hnil
  · obtain ⟨b, rfl, hmay, hb⟩ := hdecided.transfer_of_holder_ne hholder hmoved
    refine ⟨b, Op.request_eq_transfer.mp (request_eq_some hr (by simp)), hb, ?_⟩
    rcases hmay with (hself | hoperator) | happroved
    · exact Or.inl hself
    · exact Or.inr (Or.inl (operatorGranted hoperator))
    · exact Or.inr (Or.inr (approvalGranted hsender hholder happroved))
  · rw [hnil] at hmoved
    exact absurd hholder hmoved

/-- An account that never writes to the ledger has spoken for nobody. -/
theorem not_authorized_of_silent (hsilent : ∀ c ∈ calls, c.msgSender = a → c.op.onLedger = false) :
    ¬ OperatorGranted P D calls a b ∧ ¬ ApprovalGranted P D calls a b id := by
  have hoperator : ∀ {calls : List Call} {b : Address},
      (∀ c ∈ calls, c.msgSender = a → c.op.onLedger = false) →
        ¬ OperatorGranted P D calls a b := by
    rintro calls b hsilent ⟨before, c, after, rfl, hsender, hop, -⟩
    have hledger := hsilent c (by simp) hsender
    rw [hop] at hledger
    cases hledger
  refine ⟨hoperator hsilent, ?_⟩
  rintro ⟨before, c, after, rfl, hsender | hgranted, hop, -⟩
  · have hledger := hsilent c (by simp) hsender
    rw [hop] at hledger
    cases hledger
  · exact hoperator (fun c' hc' => hsilent c' (List.mem_append_left _ hc')) hgranted

/-- An account that never writes to the ledger keeps what it is given. -/
theorem holder_keeps {later : List Call} (hsender : ∀ c ∈ later, c.msgSender ≠ 0)
    (hsilent : ∀ c ∈ calls ++ later, c.msgSender = a → c.op.onLedger = false)
    (hholder : (run P D calls).state.ledger.holder id = some a) :
    (run P D (calls ++ later)).state.ledger.holder id = some a := by
  induction later using List.reverseRecOn with
  | nil => rwa [List.append_nil]
  | append_singleton later c ih =>
    rw [← List.append_assoc] at hsilent ⊢
    have hbefore := ih (fun c' hc' => hsender c' (List.mem_append_left _ hc'))
      (fun c' hc' => hsilent c' (List.mem_append_left _ hc'))
    rw [run_concat]
    rcases World.attempt_cases (exec P (D.code P).value) (run P D (calls ++ later)) c with
      ⟨post, events, hx, heq⟩ | ⟨-, heq⟩
    · rw [heq]
      by_contra hmoved
      have hlast : c ∈ (calls ++ later) ++ [c] := by simp
      obtain ⟨b, hop, -, hself | hgranted⟩ := authorized_of_moved
        (hsender c (List.mem_append_right _ (List.mem_singleton_self c))) hx hbefore hmoved
      · have hledger := hsilent c hlast hself
        rcases hop with hop | ⟨data, hop⟩ <;> rw [hop] at hledger <;> cases hledger
      · have hnone : ¬ OperatorGranted P D (calls ++ later) a c.msgSender ∧
            ¬ ApprovalGranted P D (calls ++ later) a c.msgSender id :=
          not_authorized_of_silent fun c' hc' => hsilent c' (List.mem_append_left _ hc')
        exact hgranted.elim hnone.1 hnone.2
    · rw [heq]
      exact hbefore

/-- **Nobody loses a token without a say.**  In every reachable state, if a call whose sender is not
the zero address takes a token from its holder, it is a transfer of this token from him, and the
sender is the holder, or an operator the holder made and has kept since, or was approved for this
token by one of these and the token has not moved since.  So an account that never writes to the
ledger keeps every token it is given, whatever others do. -/
theorem transfer_authorized (P : Primitives) (D : Deployment) (calls : List Call) :
    (∀ c σ' es id a, c.msgSender ≠ 0 →
      (exec P (D.code P).value c (run P D calls).state).outcome = .ok (σ', es) →
      ((run P D calls).state.ownerOf id).outcome = .ok a → (σ'.ownerOf id).outcome ≠ .ok a →
        ∃ b, c.op.Moves a b id ∧ (σ'.ownerOf id).outcome = .ok b ∧
          (c.msgSender = a ∨ OperatorGranted P D calls a c.msgSender ∨
            ApprovalGranted P D calls a c.msgSender id)) ∧
    (∀ later id a, (∀ c ∈ later, c.msgSender ≠ 0) →
      (∀ c ∈ calls ++ later, c.msgSender = a → c.op.onLedger = false) →
      ((run P D calls).state.ownerOf id).outcome = .ok a →
        ((run P D (calls ++ later)).state.ownerOf id).outcome = .ok a) := by
  simp only [ERC721.outcome_ownerOf_eq_ok, ne_eq]
  exact ⟨fun c σ' es id a hsender hx hholder hmoved =>
      authorized_of_moved hsender hx hholder hmoved,
    fun later id a hsender hsilent hholder => holder_keeps hsender hsilent hholder⟩

namespace Sample

/-- The zapper lets the deployer move his token. -/
def approveDeployer : Call := ⟨420, zapper, .approve deployer token42⟩

/-- The deployer takes it over. -/
def takeOver : Call := ⟨420, deployer, .transferFrom zapper deployer token42⟩

end Sample

/-- With the approval of the zapper the deployer takes the token over; without it the zapper
keeps the token. -/
theorem sample_transfer_authorized :
    (∃ σ' es, (exec Sample.primitives (Sample.deployment.code Sample.primitives).value
        Sample.takeOver (run Sample.primitives Sample.deployment
          [Sample.handover, Sample.mint 420 42, Sample.approveDeployer]).state).outcome =
            .ok (σ', es) ∧
      ∃ b, Sample.takeOver.op.Moves Sample.zapper b Sample.token42 ∧
        (σ'.ownerOf Sample.token42).outcome = .ok b ∧
        (Sample.takeOver.msgSender = Sample.zapper ∨
          OperatorGranted Sample.primitives Sample.deployment
            [Sample.handover, Sample.mint 420 42, Sample.approveDeployer] Sample.zapper
              Sample.takeOver.msgSender ∨
          ApprovalGranted Sample.primitives Sample.deployment
            [Sample.handover, Sample.mint 420 42, Sample.approveDeployer] Sample.zapper
              Sample.takeOver.msgSender Sample.token42)) ∧
    ((run Sample.primitives Sample.deployment
        ([Sample.handover, Sample.mint 420 42] ++ [Sample.takeOver])).state.ownerOf
          Sample.token42).outcome = .ok Sample.zapper := by
  constructor
  · have hsucceeds : (exec Sample.primitives (Sample.deployment.code Sample.primitives).value
        Sample.takeOver (run Sample.primitives Sample.deployment
          [Sample.handover, Sample.mint 420 42, Sample.approveDeployer]).state).Succeeds := by
      rw [Sample.primitives_eq]
      decide +kernel
    obtain ⟨⟨σ', es⟩, hx⟩ := hsucceeds
    refine ⟨σ', es, hx, (transfer_authorized Sample.primitives Sample.deployment
      [Sample.handover, Sample.mint 420 42, Sample.approveDeployer]).1 Sample.takeOver σ' es
        Sample.token42 Sample.zapper (by decide +kernel) hx ?_ ?_⟩
    · rw [Sample.primitives_eq]
      decide +kernel
    · -- the transfer gives the token to the deployer
      have hmoved : (exec Sample.primitives (Sample.deployment.code Sample.primitives).value
          Sample.takeOver (run Sample.primitives Sample.deployment
            [Sample.handover, Sample.mint 420 42, Sample.approveDeployer]).state).outcome.map
              (fun r => (r.1.ownerOf Sample.token42).outcome) = .ok (.ok Sample.deployer) := by
        rw [Sample.primitives_eq]
        decide +kernel
      rw [hx] at hmoved
      have howner : (σ'.ownerOf Sample.token42).outcome = .ok Sample.deployer :=
        Except.ok.inj hmoved
      rw [howner]
      decide +kernel
  · refine (transfer_authorized Sample.primitives Sample.deployment
      [Sample.handover, Sample.mint 420 42]).2 [Sample.takeOver] Sample.token42 Sample.zapper
        (by decide +kernel) (by decide +kernel) ?_
    rw [Sample.primitives_eq]
    decide +kernel

end Runs

end Zap
end OptimismZap
