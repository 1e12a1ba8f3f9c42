import OptimismZap.Contract.History

/-!
# What a mint leaves alone

A mint adds one token, approved to nobody, raises one balance and the supply by
one, and perhaps publishes the series.  Nothing else that can be asked of the
contract changes its answer (`MintFrame`).

Two of the stores are indexed by hashes.  For the ledger that does not matter,
since `_mint` asks it whether the id is new.  The publication table is not asked
about other series, so that their records stay as they were is a statement about
keys, and about series only as long as the key of the other one does not collide
with a string hashed before.

Along a run tokens change hands only by the writes of the token standard, and
they never go away (`lookup_run_append`, `exists_run_append`).
-/

namespace OptimismZap
namespace Zap

/-- What the mint of `data` on chain `k` changes in what can be asked of the contract.  The
strings in `H` are those hashed so far. -/
structure MintFrame (P : Primitives) (Z : Deployed) (H : List Bytes) (k : Uint256)
    (data : ZapData) (σ σ' : State) (es : List Event) : Prop where
  ledger : σ.toERC721.AddsToken σ'.toERC721 data.zapper (tokenId P Z k data)
  not_approval : ∀ owner approved id, Event.token (.approval owner approved id) ∉ es
  owner_eq : σ'.owner = σ.owner
  record_of_key_ne : ∀ key, key ≠ seriesKey P Z k data.fingerprint →
    σ'.seriesPublications key = σ.seriesPublications key
  /-- The record of another series stays, if looking it up runs into no collision. -/
  record_of_ne : ∀ other, other ≠ data.fingerprint →
    CollisionFree P.keccak256 (H ++ (eip712HashSeriesFingerprint P Z k other).hashed) →
      σ'.seriesPublications (seriesKey P Z k other) =
        σ.seriesPublications (seriesKey P Z k other)

section Steps

variable {P : Primitives} {D : Deployment} {Z : Deployed} {c : Call} {σ σ' : State}
  {es : List Event} {H : List Bytes}

/-- **A mint changes nothing but its own.** -/
theorem mintFrame_of_exec {data : ZapData} (hwf : σ.toERC721.WellFormed)
    (hdata : c.zapData σ.owner = some data)
    (hx : (exec P (D.code P).value c σ).outcome = .ok (σ', es)) (hD : (D.code P).hashed ⊆ H)
    (hH : (eip712HashSeriesFingerprint P (D.code P).value c.chainId data.fingerprint).hashed ⊆ H) :
    MintFrame P (D.code P).value H c.chainId data σ σ' es := by
  obtain ⟨-, hmint⟩ := (outcome_exec_mint hdata).mp hx
  obtain ⟨-, -, hzapper, hnew, heq⟩ := outcome_mint_eq_ok.mp hmint
  obtain ⟨rfl, rfl⟩ := Prod.mk.inj heq
  have hkey : ∀ key, key ≠ seriesKey P (D.code P).value c.chainId data.fingerprint →
      σ.publicationsAfter (seriesKey P (D.code P).value c.chainId data.fingerprint) data key =
        σ.seriesPublications key := by
    intro key hne
    by_contra hchange
    exact hne (State.publicationsAfter_of_ne hchange).1.symm
  constructor
  case ledger => exact hwf.addsToken hzapper hnew
  case not_approval =>
    intro owner approved id hmem
    unfold State.mintEvents at hmem
    split at hmem <;> simp at hmem
  case owner_eq => rfl
  case record_of_key_ne => exact hkey
  case record_of_ne =>
    intro other hne hK
    refine hkey _ fun heq => hne ?_
    refine (seriesKey_inj hK ?_ (List.subset_append_right _ _) ?_ heq).1
    · exact List.subset_append_of_subset_left _ hD
    · exact List.subset_append_of_subset_left _ hH

/-- No call makes a token cease to exist. -/
theorem Step.exists_of_exists (hstep : Step P Z c σ σ' es) {id : Uint256} (hid : σ.Exists id) :
    σ'.Exists id := by
  cases hstep with
  | mint data hdata hauth hrecord hserial hzapper hnew =>
    exact (State.exists_afterMint hnew).mpr (Or.inl hid)
  | token token events hop heffect =>
    unfold ERC721.Exists at hid ⊢
    rw [heffect.keys_eq]
    exact hid
  | ownership newOwner hsender hop => exact hid

/-- Only the writes of the token standard change the holder of a token. -/
theorem Step.lookup_eq_some (hstep : Step P Z c σ σ' es) (hop : c.op.onLedger = false)
    {id : Uint256} {owner : Address} (hid : σ.tokenOwners.lookup id = some owner) :
    σ'.tokenOwners.lookup id = some owner := by
  cases hstep with
  | mint data hdata hauth hrecord hserial hzapper hnew =>
    exact (ERC721.lookup_afterMint_eq_some hnew).mpr (Or.inl hid)
  | token token events hledger heffect =>
    rw [hop] at hledger
    exact absurd hledger Bool.false_ne_true
  | ownership newOwner hsender hop => exact hid

end Steps

section Runs

variable {P : Primitives} {D : Deployment} {calls : List Call}

/-- **Tokens are for ever.** -/
theorem exists_run_append (later : List Call) {id : Uint256}
    (h : (run P D calls).state.Exists id) : (run P D (calls ++ later)).state.Exists id := by
  rw [run_append]
  refine World.state_induction (Q := fun _ => True) (I := fun σ : State => σ.Exists id) ?_
    (fun _ _ => trivial) h
  intro c σ σ' es _ hx hid
  exact (step_of_exec hx).exists_of_exists hid

/-- **Tokens stay where they are** as long as nothing but mints and ownership operations is
called. -/
theorem lookup_run_append {later : List Call} (hlater : ∀ c ∈ later, c.op.onLedger = false)
    {id : Uint256} {owner : Address}
    (h : (run P D calls).state.tokenOwners.lookup id = some owner) :
    (run P D (calls ++ later)).state.tokenOwners.lookup id = some owner := by
  rw [run_append]
  refine World.state_induction (Q := fun c : Call => c.op.onLedger = false)
    (I := fun σ : State => σ.tokenOwners.lookup id = some owner) ?_ hlater h
  intro c σ σ' es hop hx hid
  exact (step_of_exec hx).lookup_eq_some hop hid

/-- **A mint adds one unapproved token and touches nothing else.**  In every reachable state a
successful mint, whichever entry point it uses, has the effect of `MintFrame` on the zap it
resolves to.  From there on no sequence of mints and ownership operations changes the holder of
a token, and no sequence of calls makes a token cease to exist.  The chain id may change between
calls; collisions matter to the record of another series only. -/
theorem mint_adds_one_token (P : Primitives) (D : Deployment) (calls : List Call) :
    (∀ c data σ' es, c.zapData (run P D calls).state.owner = some data →
      (exec P (D.code P).value c (run P D calls).state).outcome = .ok (σ', es) →
        MintFrame P (D.code P).value (run P D (calls ++ [c])).hashed c.chainId data
          (run P D calls).state σ' es) ∧
    (∀ later, (∀ c ∈ later, c.op.onLedger = false) → ∀ id owner,
      ((run P D calls).state.ownerOf id).outcome = .ok owner →
        ((run P D (calls ++ later)).state.ownerOf id).outcome = .ok owner) ∧
    (∀ later id, (run P D calls).state.Exists id →
      (run P D (calls ++ later)).state.Exists id) := by
  refine ⟨fun c data σ' es hdata hx => ?_, fun later hlater id owner hid => ?_,
    fun later id hid => exists_run_append later hid⟩
  · refine mintFrame_of_exec recorded_run.wellFormed hdata hx code_hashed_subset_run ?_
    refine List.Subset.trans ?_ hashed_exec_subset_run
    exact fingerprint_hashed_subset_exec hdata ((outcome_exec_mint hdata).mp hx).1
  · rw [ERC721.outcome_ownerOf_eq_ok] at hid ⊢
    exact lookup_run_append hlater hid

namespace Sample

/-- A series of the zapper that no call of the sample run is about. -/
def otherSeries : SeriesFingerprint := ⟨0, zapper⟩

/-- The strings hashed to look it up on chain 420, with their digests. -/
def otherDigests : List (Bytes × Bytes32) :=
  let fingerprintType :=
    .ofNat 32 0x0BAB355C020256E6C6A2F05BD7BF5EDCB4510399D86B0C6FF641BD27CC9AC399
  let domain420 := .ofNat 32 0x36FD4FC5D770149937A502CC6B8E827AB9670C0B9877661D3A3BC7BE2D1DFE34
  let fingerprint := .ofNat 32 0x4BB060105D449D28B18497BFDE5F29EAE88763C598641E42A315EE328BE8554A
  [(abiEncode (.bytes32 fingerprintType :: otherSeries.words), fingerprint),
   (EIP712.typedDataEncoding domain420 fingerprint,
    .ofNat 32 0x2E393BFE6FB20208A8F7F39E83A74EDFA217A0975F9363C195EA05B934336BB9)]

theorem collisionFree_otherSeries : CollisionFree primitives.keccak256
    ((run primitives deployment ([handover, mint 420 42] ++ [mint 420 43])).hashed ++
      (eip712HashSeriesFingerprint primitives (deployment.code primitives).value 420
        otherSeries).hashed) := by
  have hvalues : ∀ p ∈ digests ++ otherDigests, keccak256 p.1 = p.2 :=
    List.forall_mem_append.mpr ⟨digests_correct, by decide +kernel⟩
  refine CollisionFree.of_table hvalues (by decide +kernel) ?_
  rw [primitives_eq]
  decide +kernel

end Sample

/-- The second mint of the sample run adds its token, leaves an unpublished series unpublished
and the first token with the zapper. -/
theorem sample_mint_frame :
    (∃ σ' es, (exec Sample.primitives (Sample.deployment.code Sample.primitives).value
        (Sample.mint 420 43) (run Sample.primitives Sample.deployment
          [Sample.handover, Sample.mint 420 42]).state).outcome = .ok (σ', es) ∧
      MintFrame Sample.primitives (Sample.deployment.code Sample.primitives).value
        (run Sample.primitives Sample.deployment
          ([Sample.handover, Sample.mint 420 42] ++ [Sample.mint 420 43])).hashed 420
        (Sample.data 43)
        (run Sample.primitives Sample.deployment [Sample.handover, Sample.mint 420 42]).state
        σ' es ∧
      σ'.seriesPublications (seriesKey Sample.primitives
        (Sample.deployment.code Sample.primitives).value 420 Sample.otherSeries) =
      (run Sample.primitives Sample.deployment
        [Sample.handover, Sample.mint 420 42]).state.seriesPublications
          (seriesKey Sample.primitives (Sample.deployment.code Sample.primitives).value 420
            Sample.otherSeries)) ∧
    ((run Sample.primitives Sample.deployment
        ([Sample.handover, Sample.mint 420 42] ++ [Sample.mint 420 43])).state.ownerOf
      (tokenId Sample.primitives (Sample.deployment.code Sample.primitives).value 420
        (Sample.data 42))).outcome = .ok Sample.zapper ∧
    (run Sample.primitives Sample.deployment
        ([Sample.handover, Sample.mint 420 42] ++ [Sample.mint 420 43])).state.Exists
      (tokenId Sample.primitives (Sample.deployment.code Sample.primitives).value 420
        (Sample.data 42)) := by
  obtain ⟨hframe, hholder, hexists⟩ := mint_adds_one_token Sample.primitives Sample.deployment
    [Sample.handover, Sample.mint 420 42]
  refine ⟨?_, hholder _ (by decide +kernel) _ _ ?_, hexists _ _ ?_⟩
  · have hsucceeds : (exec Sample.primitives (Sample.deployment.code Sample.primitives).value
        (Sample.mint 420 43) (run Sample.primitives Sample.deployment
          [Sample.handover, Sample.mint 420 42]).state).Succeeds := by
      rw [Sample.primitives_eq]
      decide +kernel
    obtain ⟨⟨σ', es⟩, hx⟩ := hsucceeds
    have h := hframe _ _ σ' es (Sample.zapData_mint Sample.owner_run) hx
    exact ⟨σ', es, hx, h,
      h.record_of_ne Sample.otherSeries (by decide +kernel) Sample.collisionFree_otherSeries⟩
  · rw [Sample.primitives_eq]
    decide +kernel
  · rw [Sample.primitives_eq]
    decide +kernel

end Runs

end Zap
end OptimismZap
