import OptimismZap.Contract.Authority
import OptimismZap.Contract.Series
import OptimismZap.Library.Deciders

/-!
# The contract without hashes

What `OptimismZap.sol` is for can be said without hash functions, storage layouts
and signatures: a registry of numbered copies that are tokens.  It knows the zaps
minted so far, a ledger of who holds which zap, and the owner.  Asked to mint a zap
it looks at the zaps it has; asked to move one it looks at the ledger; it decides
on events and does what the events say (`Registry.decider`).

`Call.ask` translates a call.  The id of a token becomes the zap it is the id of,
which is the only place where ids occur, and a mint whose checks fail asks for
nothing.

The contract implements the registry (`contract_implements_registry`): as long as
no collision occurs, in every run a call goes through exactly when the registry
does not refuse, the contract has emitted the events of the registry, and all its
tables show what the registry knows.
-/

namespace OptimismZap
namespace Zap

open Ledger (Entry Request)

/-- The zaps minted so far in order, who holds them, and the owner. -/
structure Registry where
  zaps : List Minted
  ledger : Ledger Address Minted
  owner : Address

namespace Registry

/-- What can happen in the registry. -/
inductive Fact where
  | published (publication : SeriesPublication)
  | entered (entry : Entry Address Minted)
  | minted (m : Minted)
  | passed (previousOwner newOwner : Address)

/-- What can be asked of it. -/
inductive Command where
  | mint (m : Minted)
  | token (request : Request Address Minted)
  | pass (newOwner : Address)

variable (s : Registry)

/-- Nothing of the series of `m` has been minted. -/
def Unpublished (m : Minted) : Prop := ∀ m' ∈ s.zaps, m'.edition.series ≠ m.edition.series

instance (m : Minted) : Decidable (s.Unpublished m) :=
  inferInstanceAs (Decidable (∀ m' ∈ s.zaps, _))

/-- What a mint makes happen. -/
def mintFacts (m : Minted) : List Fact :=
  (if s.Unpublished m then [.published m.data.publication] else []) ++
    [.entered (.transfer 0 m.data.zapper m), .minted m]

/-- What the registry decides for a sender. -/
def decide : Address × Command → Option (List Fact)
  | (_, .mint m) =>
    if m.data.zapper ≠ 0 ∧ Edition.Admits (s.zaps.map Minted.edition) m.edition then
      some (s.mintFacts m)
    else none
  | (sender, .token request) => (s.ledger.decision sender request).map (List.map .entered)
  | (sender, .pass newOwner) =>
    if s.owner = sender then some [.passed s.owner newOwner] else none

/-- The registry after a fact. -/
def record : Fact → Registry
  | .published _ => s
  | .entered entry => { s with ledger := s.ledger.enter entry }
  | .minted m => { s with zaps := s.zaps ++ [m] }
  | .passed _ newOwner => { s with owner := newOwner }

/-- The registry as a machine that lives by its facts. -/
def decider : Decider Registry (Address × Command) Fact := ⟨decide, record⟩

end Registry

/-! ## What the contract makes of it -/

/-- The event of the token standard for an entry about zaps. -/
def tokenEvent (P : Primitives) (Z : Deployed) : Entry Address Minted → ERC721.Event
  | .transfer fromAddr toAddr m => .transfer fromAddr toAddr (m.tokenId P Z)
  | .approval owner approved m => .approval owner approved (m.tokenId P Z)
  | .approvalForAll owner operator approved => .approvalForAll owner operator approved

/-- The event of the contract for a fact. -/
def factEvent (P : Primitives) (Z : Deployed) : Registry.Fact → Event
  | .published publication =>
    .publish publication.ipfsHash publication.zapper publication.seriesTotal
  | .entered entry => .token (tokenEvent P Z entry)
  | .minted m => .mint m.data.ipfsHash m.data.zapper m.data.seriesTotal m.data.serialNumber
  | .passed previousOwner newOwner => .ownership (.ownershipTransferred previousOwner newOwner)

/-- The zap a token id stands for. -/
def Registry.zapOf (P : Primitives) (Z : Deployed) (s : Registry) (id : Uint256) :
    Option Minted :=
  s.zaps.find? fun m => m.tokenId P Z = id

/-- A request about an id, as a request about a zap. -/
def Registry.named (P : Primitives) (Z : Deployed) (s : Registry) :
    Request Address Uint256 → Option (Request Address Minted)
  | .approve toAddr id => (s.zapOf P Z id).map (.approve toAddr)
  | .approveForAll operator approved => some (.approveForAll operator approved)
  | .transfer fromAddr toAddr id => (s.zapOf P Z id).map (.transfer fromAddr toAddr)
  | .create .. => none

instance {P : Primitives} {Z : Deployed} {c : Call} {owner : Address} :
    Decidable (c.Authenticated P Z owner) :=
  match h : c.zapData owner with
  | none => isTrue fun data hdata => absurd (h.symm.trans hdata) (by simp)
  | some data =>
    decidable_of_iff ((c.op.onlyOwner = true → owner = c.msgSender) ∧
        ∀ p ∈ c.op.signatures owner,
          (ECDSA.recover P.ecrecover (intentDigest P Z c.chainId data) p.1).outcome = .ok p.2)
      ⟨fun hauth data' hdata => by
          obtain rfl := Option.some.inj (h.symm.trans hdata)
          exact hauth,
        fun hauth => hauth data h⟩

/-- What a call asks of the registry.  A mint whose checks fail asks for nothing. -/
def Call.command (P : Primitives) (Z : Deployed) (s : Registry) (c : Call) :
    Option Registry.Command :=
  match c.zapData s.owner with
  | some data => if c.Authenticated P Z s.owner then some (.mint ⟨c.chainId, data⟩) else none
  | none =>
    match c.op with
    | .transferOwnership newOwner => if newOwner ≠ 0 then some (.pass newOwner) else none
    | .renounceOwnership => some (.pass 0)
    | op => (op.request.bind (s.named P Z)).map .token

/-- The request with its sender. -/
def Call.ask (P : Primitives) (Z : Deployed) (s : Registry) (c : Call) :
    Option (Address × Registry.Command) :=
  (c.command P Z s).map (Prod.mk c.msgSender)

/-- The registry after a sequence of calls, with everything that happened. -/
def registryRun (P : Primitives) (D : Deployment) (calls : List Call) :
    Registry × List Registry.Fact :=
  Registry.decider.run (Call.ask P (D.code P).value) ⟨[], Ledger.empty, D.deployer⟩ calls

/-- The contract is where the registry is. -/
structure Follows (P : Primitives) (Z : Deployed) (w : World) (s : Registry) : Prop where
  zaps_eq : minted w.log = s.zaps
  owner_eq : w.state.owner = s.owner
  ledger : Ledger.Renames (Minted.tokenId P Z) s.zaps s.ledger w.state.ledger

/-- The tables of the contract show what the registry knows. -/
structure Shows (P : Primitives) (Z : Deployed) (w : World) (s : Registry) : Prop
    extends Follows P Z w s where
  /-- The tokens are the zaps, in the same order. -/
  keys_eq : w.state.tokenOwners.keys = s.zaps.map (Minted.tokenId P Z)
  /-- A record belongs to a zap that was minted, and no zap is without its record. -/
  record_eq : ∀ k, w.state.seriesPublications k =
    ((s.zaps.find? fun m => m.key P Z = k).map fun m => m.data.publication).getD 0

section Names

variable {P : Primitives} {Z : Deployed} {s : Registry} {w : World} {r : Request Address Uint256}
  {r' : Request Address Minted}

/-- Different zaps have different ids. -/
theorem tokenId_inj_of_nodup (h : (s.zaps.map (Minted.tokenId P Z)).Nodup) :
    ∀ x ∈ s.zaps, ∀ m ∈ s.zaps, x.tokenId P Z = m.tokenId P Z → x = m :=
  fun _ hx _ hm => List.inj_on_of_nodup_map h hx hm

theorem Registry.zapOf_eq_some {id : Uint256} {m : Minted} (h : s.zapOf P Z id = some m) :
    m ∈ s.zaps ∧ m.tokenId P Z = id :=
  ⟨List.mem_of_find?_eq_some h, by simpa using List.find?_some h⟩

/-- A request that has been translated is about a minted zap, and says the same. -/
theorem Registry.named_eq_some (h : s.named P Z r = some r') :
    r'.map (Minted.tokenId P Z) = r ∧ ∀ t, r'.token? = some t → t ∈ s.zaps := by
  cases r with
  | approve toAddr id =>
    obtain ⟨m, hm, rfl⟩ := Option.map_eq_some_iff.mp h
    obtain ⟨hmem, rfl⟩ := Registry.zapOf_eq_some hm
    exact ⟨rfl, fun t ht => Option.some.inj ht ▸ hmem⟩
  | approveForAll operator approved =>
    obtain rfl := Option.some.inj h
    exact ⟨rfl, fun t ht => by cases ht⟩
  | transfer fromAddr toAddr id =>
    obtain ⟨m, hm, rfl⟩ := Option.map_eq_some_iff.mp h
    obtain ⟨hmem, rfl⟩ := Registry.zapOf_eq_some hm
    exact ⟨rfl, fun t ht => Option.some.inj ht ▸ hmem⟩
  | create => cases h

theorem Registry.exists_zapOf {σ : State} {id : Uint256} {a : Address}
    (hkeys : σ.tokenOwners.keys = s.zaps.map (Minted.tokenId P Z))
    (h : σ.ledger.holder id = some a) : ∃ m, s.zapOf P Z id = some m := by
  have hmem : id ∈ s.zaps.map (Minted.tokenId P Z) := hkeys ▸ ERC721.exists_of_lookup h
  obtain ⟨m, hm, hid⟩ := List.mem_map.mp hmem
  exact Option.isSome_iff_exists.mp (List.find?_isSome.mpr ⟨m, hm, by simpa using hid⟩)

/-- What the ledger of the contract allows can be translated. -/
theorem Registry.exists_named {σ : State} {sender : Address}
    {entries : List (Entry Address Uint256)}
    (hkeys : σ.tokenOwners.keys = s.zaps.map (Minted.tokenId P Z))
    (h : σ.ledger.Decided sender r entries) (hr : ∀ toAddr id, r ≠ .create toAddr id) :
    ∃ r', s.named P Z r = some r' := by
  cases h with
  | approve toAddr id a hholder =>
    obtain ⟨m, hm⟩ := exists_zapOf hkeys hholder
    exact ⟨_, Option.map_eq_some_iff.mpr ⟨m, hm, rfl⟩⟩
  | approveForAll => exact ⟨_, rfl⟩
  | transfer fromAddr toAddr id hholder =>
    obtain ⟨m, hm⟩ := exists_zapOf hkeys hholder
    exact ⟨_, Option.map_eq_some_iff.mpr ⟨m, hm, rfl⟩⟩
  | create toAddr id => exact absurd rfl (hr toAddr id)

end Names

/-! ## One call -/

section Steps

variable {P : Primitives} {D : Deployment} {calls : List Call} {c : Call} {s : Registry}
  {σ' : State} {es : List Event}

/-- Whether a series has a record is whether a zap of it has been minted. -/
theorem unpublished_iff {data : ZapData} (h : Follows P (D.code P).value (run P D calls) s)
    (hK : CollisionFree P.keccak256 (run P D (calls ++ [c])).hashed)
    (hx : (exec P (D.code P).value c (run P D calls).state).outcome = .ok (σ', es))
    (hdata : c.zapData (run P D calls).state.owner = some data) :
    s.Unpublished ⟨c.chainId, data⟩ ↔ ((run P D calls).state.seriesPublications
      (seriesKey P (D.code P).value c.chainId data.fingerprint)).seriesTotal = 0 := by
  rw [run_concat, World.hashed_attempt] at hK
  have hcoherent := coherent_run hK.append_left
  rw [h.zaps_eq] at hcoherent
  constructor
  · intro hnone
    by_contra hne
    obtain ⟨m, hm, hkey, -⟩ := hcoherent.exists_of_record _
      (mt hcoherent.record_eq_zero_iff.mp hne)
    refine hnone m hm (series_eq_of_key_eq_run (k := ⟨c, (run P D calls).state, σ', es⟩) hK hx
      (mintOf_eq_some hdata) (h.zaps_eq ▸ hm) hkey)
  · intro hzero m hm hseries
    have hrecord := hcoherent.record_of_mem m hm
    rw [Coherent.key_eq_of_series_eq hseries] at hrecord
    have htotal := hcoherent.seriesTotal_ne_zero hm
    exact htotal ((congrArg SeriesPublication.seriesTotal hrecord).symm.trans hzero)

/-! ### Replaying what was decided -/

theorem replay_mintFacts {m : Minted} : Registry.decider.replay s (s.mintFacts m) =
    ⟨s.zaps ++ [m], s.ledger.enter (.transfer 0 m.data.zapper m), s.owner⟩ := by
  unfold Registry.mintFacts
  split <;> rfl

theorem replay_entered {entries : List (Entry Address Minted)} :
    Registry.decider.replay s (entries.map .entered) =
      ⟨s.zaps, s.ledger.replay entries, s.owner⟩ := by
  induction entries generalizing s with
  | nil => rfl
  | cons e entries ih => exact ih

theorem entry_tokenEvent {P : Primitives} {Z : Deployed} {e : Entry Address Minted} :
    (tokenEvent P Z e).entry = e.map (Minted.tokenId P Z) := by
  cases e <;> rfl

theorem entry_injective : Function.Injective ERC721.Event.entry := by
  intro e e' h
  cases e <;> cases e' <;> cases h <;> rfl

/-- The events of a mint are those of the registry. -/
theorem mintEvents_eq {P : Primitives} {Z : Deployed} {σ : State} {m : Minted}
    (h : s.Unpublished m ↔ (σ.seriesPublications (m.key P Z)).seriesTotal = 0) :
    σ.mintEvents (m.key P Z) (m.tokenId P Z) m.data = (s.mintFacts m).map (factEvent P Z) := by
  unfold State.mintEvents Registry.mintFacts
  by_cases hzero : (σ.seriesPublications (m.key P Z)).seriesTotal = 0
  · rw [if_pos hzero, if_pos (h.mpr hzero)]
    rfl
  · rw [if_neg hzero, if_neg (mt h.mp hzero)]
    rfl

/-- The call asks for something the registry decides on, with the same events, and the contract
follows. -/
def Matched (P : Primitives) (D : Deployment) (calls : List Call) (c : Call) (s : Registry)
    (es : List Event) : Prop :=
  ∃ cmd ds, c.command P (D.code P).value s = some cmd ∧ s.decide (c.msgSender, cmd) = some ds ∧
    es = ds.map (factEvent P (D.code P).value) ∧
    Follows P (D.code P).value (run P D (calls ++ [c])) (Registry.decider.replay s ds)

theorem Follows.matched_mint (h : Follows P (D.code P).value (run P D calls) s)
    (hK : CollisionFree P.keccak256 (run P D (calls ++ [c])).hashed)
    (hx : (exec P (D.code P).value c (run P D calls).state).outcome = .ok (σ', es))
    {data : ZapData} (hdata : c.zapData (run P D calls).state.owner = some data) :
    Matched P D calls c s es := by
  have hm := mintedBy_of_mintOf (k := ⟨c, (run P D calls).state, σ', es⟩) hx
    (mintOf_eq_some hdata)
  have hauth : c.Authenticated P (D.code P).value (run P D calls).state.owner := hm.authenticated
  have hadmits := (succeeds_iff_admits hdata hauth hm.zapper_ne_zero hK).mp ⟨_, hx⟩
  rw [h.zaps_eq] at hadmits
  refine ⟨.mint ⟨c.chainId, data⟩, s.mintFacts ⟨c.chainId, data⟩, ?_, ?_, ?_, ?_⟩
  · rw [h.owner_eq] at hdata hauth
    simp only [Call.command, hdata, if_pos hauth]
  · exact if_pos ⟨hm.zapper_ne_zero, hadmits⟩
  · exact hm.events_eq.trans (mintEvents_eq (unpublished_iff h hK hx hdata))
  · have hledger := ledger_eq_of_exec hx
    have hentries : tokenEntries es =
        [.transfer 0 data.zapper (tokenId P (D.code P).value c.chainId data)] := by
      rw [show es = _ from hm.events_eq]
      exact tokenEntries_mintEvents
    have howner : σ'.owner = (run P D calls).state.owner := by
      rw [show σ' = _ from hm.post_eq]
      rfl
    rw [replay_mintFacts, run_concat, World.attempt_of_ok hx]
    refine ⟨?_, howner.trans h.owner_eq, ?_⟩
    · show minted ((run P D calls).log ++ [_]) = _
      rw [minted_concat, mintOf_eq_some hdata, h.zaps_eq]
      rfl
    · have hnew : ∀ x ∈ s.zaps, x.tokenId P (D.code P).value =
          tokenId P (D.code P).value c.chainId data → x = ⟨c.chainId, data⟩ :=
        fun x hx hid => absurd (recorded_run.exists_iff.mpr ⟨x, h.zaps_eq ▸ hx, hid⟩) hm.not_exists
      have hrenames : Ledger.Renames (Minted.tokenId P (D.code P).value)
          (s.zaps ++ [⟨c.chainId, data⟩]) (s.ledger.enter (.transfer 0 data.zapper _))
            ((run P D calls).state.ledger.enter (.transfer 0 data.zapper _)) :=
        h.ledger.enter_transfer hnew
      show Ledger.Renames _ _ _ σ'.ledger
      rw [hledger, hentries]
      exact hrenames

theorem Follows.matched_token (h : Follows P (D.code P).value (run P D calls) s)
    (hkeys : (run P D calls).state.tokenOwners.keys =
      s.zaps.map (Minted.tokenId P (D.code P).value)) {token : ERC721}
    {events : List ERC721.Event}
    (hx : (exec P (D.code P).value c (run P D calls).state).outcome =
      .ok ({ (run P D calls).state with toERC721 := token }, events.map .token))
    (hop : c.op.onLedger = true) : Matched P D calls c s (events.map .token) := by
  obtain ⟨r, hr, hdecided⟩ := decided_of_onLedger hop hx
  have hcreate : ∀ toAddr id, r ≠ .create toAddr id := by
    rintro toAddr id rfl
    exact Op.request_ne_create hr
  obtain ⟨r', hr'⟩ := Registry.exists_named hkeys hdecided hcreate
  obtain ⟨rfl, hknown⟩ := Registry.named_eq_some hr'
  -- what the contract has decided about ids, the registry decides about zaps
  have hdecision := (Ledger.decision_eq_some_iff.mpr hdecided).symm.trans
    (h.ledger.decision_map hknown)
  obtain ⟨entries, hentries, hmap⟩ := Option.map_eq_some_iff.mp hdecision.symm
  have hevents : events = entries.map (tokenEvent P (D.code P).value) := by
    refine entry_injective.list_map ?_
    rw [← tokenEntries_map_token, ← hmap, List.map_map]
    exact List.map_congr_left fun e _ => entry_tokenEvent.symm
  refine ⟨.token r', entries.map .entered, ?_, ?_, ?_, ?_⟩
  · have hcommand : c.command P (D.code P).value s =
        (c.op.request.bind (s.named P (D.code P).value)).map .token := by
      simp only [Call.command, zapData_eq_none_of_onLedger hop]
      cases hc : c.op <;> rw [hc] at hop <;> first | rfl | cases hop
    rw [hcommand, hr]
    exact congrArg (Option.map Registry.Command.token) hr'
  · exact congrArg (Option.map (List.map Registry.Fact.entered)) hentries
  · rw [hevents, List.map_map, List.map_map]
    rfl
  · rw [replay_entered, run_concat, World.attempt_of_ok hx]
    refine ⟨?_, h.owner_eq, ?_⟩
    · show minted ((run P D calls).log ++ [_]) = _
      rw [minted_concat, mintOf_eq_none (zapData_eq_none_of_onLedger hop), ← h.zaps_eq]
      simp
    · have hledger : token.ledger = _ := ledger_eq_of_exec hx
      have hinj := tokenId_inj_of_nodup (hkeys ▸ (run P D calls).state.tokenOwners.nodup_keys)
      have htokens := (Ledger.decision_eq_some_iff.mp hentries).token?_eq
      show Ledger.Renames _ _ _ token.ledger
      rw [hledger, ← hmap]
      exact h.ledger.replay hinj fun e he t ht => hknown t (htokens e he t ht)

theorem Follows.matched_ownership (h : Follows P (D.code P).value (run P D calls) s)
    {newOwner : Address}
    (hx : (exec P (D.code P).value c (run P D calls).state).outcome =
      .ok ({ (run P D calls).state with owner := newOwner },
        [.ownership (.ownershipTransferred (run P D calls).state.owner newOwner)]))
    (hsender : (run P D calls).state.owner = c.msgSender)
    (hop : c.op = .renounceOwnership ∧ newOwner = 0 ∨
      c.op = .transferOwnership newOwner ∧ newOwner ≠ 0) :
    Matched P D calls c s
      [.ownership (.ownershipTransferred (run P D calls).state.owner newOwner)] := by
  have hdata : ∀ owner, c.zapData owner = none := fun owner => zapData_eq_none_of_ownership hop
  refine ⟨.pass newOwner, [.passed s.owner newOwner], ?_, ?_, ?_, ?_⟩
  · simp only [Call.command, hdata]
    rcases hop with ⟨hop, rfl⟩ | ⟨hop, hne⟩
    · rw [hop]
    · rw [hop]
      exact if_pos hne
  · exact if_pos (h.owner_eq.symm.trans hsender)
  · rw [h.owner_eq]
    rfl
  · rw [run_concat, World.attempt_of_ok hx]
    refine ⟨?_, rfl, h.ledger⟩
    show minted ((run P D calls).log ++ [_]) = _
    rw [minted_concat, mintOf_eq_none (hdata _), h.zaps_eq]
    exact List.append_nil _

/-- **A call that goes through is one the registry decides on**, with the same events. -/
theorem Follows.matched (h : Follows P (D.code P).value (run P D calls) s)
    (hK : CollisionFree P.keccak256 (run P D (calls ++ [c])).hashed)
    (hx : (exec P (D.code P).value c (run P D calls).state).outcome = .ok (σ', es)) :
    Matched P D calls c s es := by
  have hstep := step_of_exec hx
  cases hstep with
  | mint data hdata => exact h.matched_mint hK hx hdata
  | token token events hop =>
    refine h.matched_token ?_ hx hop
    rw [← h.zaps_eq]
    exact recorded_run.keys_eq
  | ownership newOwner hsender hop => exact h.matched_ownership hx hsender hop

/-- A write of the token standard goes through if the ledger of zaps allows it. -/
theorem Follows.succeeds_token (h : Follows P (D.code P).value (run P D calls) s)
    {r' : Request Address Minted} {ds : List Registry.Fact}
    (hr' : c.op.request.bind (s.named P (D.code P).value) = some r')
    (hds : s.decide (c.msgSender, .token r') = some ds) :
    (exec P (D.code P).value c (run P D calls).state).Succeeds := by
  obtain ⟨r, hr, hnamed⟩ := Option.bind_eq_some_iff.mp hr'
  obtain ⟨rfl, hknown⟩ := Registry.named_eq_some hnamed
  obtain ⟨entries, hentries, -⟩ := Option.map_eq_some_iff.mp hds
  have hdecision : (run P D calls).state.ledger.decision c.msgSender
      (r'.map (Minted.tokenId P (D.code P).value)) =
        some (entries.map (Entry.map (Minted.tokenId P (D.code P).value))) := by
    rw [h.ledger.decision_map hknown, hentries]
    rfl
  exact succeeds_of_decided hr (Ledger.decision_eq_some_iff.mp hdecision)

/-- **What the registry decides on goes through.** -/
theorem Follows.succeeds (h : Follows P (D.code P).value (run P D calls) s)
    (hK : CollisionFree P.keccak256 (run P D (calls ++ [c])).hashed) {cmd : Registry.Command}
    {ds : List Registry.Fact} (hcmd : c.command P (D.code P).value s = some cmd)
    (hds : s.decide (c.msgSender, cmd) = some ds) :
    (exec P (D.code P).value c (run P D calls).state).Succeeds := by
  cases hdata : c.zapData s.owner with
  | some data =>
    simp only [Call.command, hdata, Option.ite_none_right_eq_some, Option.some.injEq] at hcmd
    obtain ⟨hauth, rfl⟩ := hcmd
    obtain ⟨⟨hzapper, hadmits⟩, -⟩ := Option.ite_none_right_eq_some.mp hds
    rw [← h.owner_eq] at hdata hauth
    rw [← h.zaps_eq] at hadmits
    exact (succeeds_iff_admits hdata hauth hzapper hK).mpr hadmits
  | none =>
    obtain ⟨chainId, msgSender, op⟩ := c
    simp only [Call.command, hdata] at hcmd
    cases op with
    | mintByOwnerForOwner | mintByOwner | mintByZapper | mintBySignatures =>
      simp [Call.zapData, Op.zapData] at hdata
    | transferOwnership newOwner =>
      obtain ⟨hne, heq⟩ := Option.ite_none_right_eq_some.mp hcmd
      obtain rfl := Option.some.inj heq
      have hsender := (Option.ite_none_right_eq_some.mp hds).1
      rw [← h.owner_eq] at hsender
      exact ⟨_, outcome_onOwnable (Ownable.outcome_transferOwnership_eq_ok.mpr ⟨hsender, hne, rfl⟩)⟩
    | renounceOwnership =>
      obtain rfl := Option.some.inj hcmd
      have hsender := (Option.ite_none_right_eq_some.mp hds).1
      rw [← h.owner_eq] at hsender
      exact ⟨_, outcome_onOwnable (Ownable.outcome_renounceOwnership_eq_ok.mpr ⟨hsender, rfl⟩)⟩
    | _ =>
      -- the writes of the token standard
      obtain ⟨r', hr', rfl⟩ := Option.map_eq_some_iff.mp hcmd
      exact h.succeeds_token hr' hds

theorem Follows.inStep (h : Follows P (D.code P).value (run P D calls) s)
    (hK : CollisionFree P.keccak256 (run P D (calls ++ [c])).hashed) :
    World.InStep (exec P (D.code P).value) Registry.decider (Call.ask P (D.code P).value)
      (factEvent P (D.code P).value) (Follows P (D.code P).value) (run P D calls) s c := by
  constructor
  case answered =>
    intro ds hds
    obtain ⟨⟨sender, cmd⟩, hask, hds⟩ := Option.bind_eq_some_iff.mp hds
    obtain ⟨cmd', hcmd, heq⟩ := Option.map_eq_some_iff.mp hask
    obtain ⟨rfl, rfl⟩ := Prod.mk.inj heq
    exact h.succeeds hK hcmd hds
  case decided =>
    intro post es hx
    obtain ⟨cmd, ds, hcmd, hds, hes, hnext⟩ := h.matched hK hx
    rw [run_concat] at hnext
    refine ⟨ds, ?_, hes, hnext⟩
    simp only [Decider.respond, Call.ask, hcmd]
    exact hds
  case reverted =>
    intro hx
    rw [World.attempt_of_revert hx]
    exact ⟨h.zaps_eq, h.owner_eq, h.ledger⟩

end Steps

/-! ## Runs -/

section Runs

variable {P : Primitives} {D : Deployment} {calls : List Call} {c : Call}

theorem follows_deployed :
    Follows P (D.code P).value (deployed P D) ⟨[], Ledger.empty, D.deployer⟩ :=
  ⟨rfl, rfl, fun _ h => absurd h List.not_mem_nil, fun _ h => absurd h List.not_mem_nil, rfl⟩

/-- **The contract stays with its registry**, as long as no collision occurs. -/
theorem follows_run (hK : CollisionFree P.keccak256 (run P D calls).hashed) :
    Follows P (D.code P).value (run P D calls) (registryRun P D calls).1 ∧
      events (run P D calls).log =
        (registryRun P D calls).2.map (factEvent P (D.code P).value) := by
  refine World.refines_run (K := P.keccak256) (R := Follows P (D.code P).value) ?_ hK
    follows_deployed rfl
  intro before c t hK h
  refine Follows.inStep h ?_
  rw [run_concat, World.hashed_attempt]
  exact hK

theorem shows_run (hK : CollisionFree P.keccak256 (run P D calls).hashed) :
    Shows P (D.code P).value (run P D calls) (registryRun P D calls).1 := by
  have hfollows := (follows_run hK).1
  have hcoherent := coherent_run hK
  rw [hfollows.zaps_eq] at hcoherent
  exact ⟨hfollows, hcoherent.keys_eq, hcoherent.record_eq⟩

/-- **The contract implements the registry.**  In every run without collisions, under any
succession of chain ids, the next call goes through exactly when the registry decides on what it
asks for; the events of the contract are the facts of the registry; and owner, tokens, holders,
approvals, operators and records are those of the registry. -/
theorem contract_implements_registry
    (hK : CollisionFree P.keccak256 (run P D (calls ++ [c])).hashed) :
    Shows P (D.code P).value (run P D calls) (registryRun P D calls).1 ∧
    events (run P D calls).log =
      (registryRun P D calls).2.map (factEvent P (D.code P).value) ∧
    ((exec P (D.code P).value c (run P D calls).state).Succeeds ↔
      (Registry.decider.respond (Call.ask P (D.code P).value) (registryRun P D calls).1
        c).isSome) := by
  have hK₀ : CollisionFree P.keccak256 (run P D calls).hashed := hK.mono hashed_subset_run_append
  obtain ⟨hfollows, hevents⟩ := follows_run hK₀
  have hstep := hfollows.inStep hK
  refine ⟨shows_run hK₀, hevents, ?_, fun h => ?_⟩
  · rintro ⟨⟨post, es⟩, hx⟩
    obtain ⟨ds, hds, -⟩ := hstep.decided post es hx
    rw [hds]
    rfl
  · obtain ⟨ds, hds⟩ := Option.isSome_iff_exists.mp h
    exact hstep.answered ds hds

/-- The registry and the contract after one mint, with the events of both calls, and the approval
of the token, which both grant. -/
theorem sample_implements_registry :
    Shows Sample.primitives (Sample.deployment.code Sample.primitives).value
      (run Sample.primitives Sample.deployment [Sample.handover, Sample.mint 420 42])
      (registryRun Sample.primitives Sample.deployment [Sample.handover, Sample.mint 420 42]).1 ∧
    (registryRun Sample.primitives Sample.deployment
        [Sample.handover, Sample.mint 420 42]).2.map
          (factEvent Sample.primitives (Sample.deployment.code Sample.primitives).value) =
      [.ownership (.ownershipTransferred Sample.deployer Sample.zapper),
        .publish (Sample.data 42).ipfsHash Sample.zapper (Sample.data 42).seriesTotal,
        .token (.transfer 0 Sample.zapper Sample.token42),
        .mint (Sample.data 42).ipfsHash Sample.zapper (Sample.data 42).seriesTotal
          (Sample.data 42).serialNumber] ∧
    (Registry.decider.respond
        (Call.ask Sample.primitives (Sample.deployment.code Sample.primitives).value)
        (registryRun Sample.primitives Sample.deployment
          [Sample.handover, Sample.mint 420 42]).1 Sample.approveDeployer).isSome ∧
    (exec Sample.primitives (Sample.deployment.code Sample.primitives).value
      Sample.approveDeployer (run Sample.primitives Sample.deployment
        [Sample.handover, Sample.mint 420 42]).state).Succeeds := by
  have hsucceeds : (exec Sample.primitives (Sample.deployment.code Sample.primitives).value
      Sample.approveDeployer (run Sample.primitives Sample.deployment
        [Sample.handover, Sample.mint 420 42]).state).Succeeds := by
    rw [Sample.primitives_eq]
    decide +kernel
  obtain ⟨hshows, hevents, hiff⟩ := @contract_implements_registry Sample.primitives
    Sample.deployment [Sample.handover, Sample.mint 420 42] Sample.approveDeployer
    (Sample.collisionFree (by
      rw [Sample.primitives_eq]
      decide +kernel))
  refine ⟨hshows, hevents.symm.trans ?_, hiff.mp hsucceeds, hsucceeds⟩
  rw [Sample.primitives_eq]
  decide +kernel

end Runs

end Zap
end OptimismZap
