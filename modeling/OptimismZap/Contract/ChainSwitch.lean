import OptimismZap.Contract.EventLog

/-!
# Series across a change of the chain id

The key of a series and the id of a token are EIP-712 digests, and the domain
separator follows the chain id.  When the chain id changes under a deployed
contract, every published series gets a new key, under which nothing is on file:
it can be published again, with another total, and its copies minted again.

`publishedOnce_iff` says exactly when that does not happen: as long as every mint
that goes through is made on the chain id its series was minted on before.
-/

namespace OptimismZap
namespace Zap

/-- As far as the events tell, every series was published once and no copy was minted
twice. -/
structure PublishedOnce (es : List Event) : Prop where
  publish : ((publicationsOf es).map SeriesPublication.fingerprint).Nodup
  mint : ((zapsOf es).map fun data => (data.fingerprint, data.serialNumber)).Nodup

/-- The checks of the call, the record of the series, the serial number and the ledger let
`data` be minted. -/
structure Call.Accepted (P : Primitives) (Z : Deployed) (c : Call) (σ : State)
    (data : ZapData) : Prop where
  zapData_eq : c.zapData σ.owner = some data
  authenticated : c.Authenticated P Z σ.owner
  recordAllows : σ.RecordAllows (seriesKey P Z c.chainId data.fingerprint) data
  serial_lt : data.serialNumber < data.seriesTotal
  zapper_ne_zero : data.zapper ≠ 0
  not_exists : ¬ σ.Exists (tokenId P Z c.chainId data)

/-- If the call is a mint that is accepted, its series has only been minted on the chain id
of the call before. -/
def OnSeriesChain (P : Primitives) (Z : Deployed) (w : World) (c : Call) : Prop :=
  ∀ data, c.Accepted P Z w.state data → ∀ m ∈ minted w.log,
    m.data.fingerprint = data.fingerprint → m.chainId = c.chainId

/-- All zaps of a series were minted on one chain id. -/
def OneChain (M : List Minted) : Prop :=
  ∀ m ∈ M, ∀ m' ∈ M, m.data.fingerprint = m'.data.fingerprint → m.chainId = m'.chainId

section Chains

variable {P : Primitives} {D : Deployment} {Z : Deployed} {calls : List Call}

/-- The zap of an accepted mint is minted. -/
theorem mem_minted_of_accepted {c : Call} {data : ZapData}
    (h : c.Accepted P (D.code P).value (run P D calls).state data) :
    ⟨c.chainId, data⟩ ∈ minted (run P D (calls ++ [c])).log := by
  obtain ⟨⟨post, events⟩, hx⟩ := (succeeds_exec_iff h.zapData_eq h.authenticated
    h.zapper_ne_zero).mpr ⟨h.recordAllows, h.serial_lt, h.not_exists⟩
  rw [run_concat, World.attempt_of_ok hx, minted_concat, mintOf_eq_some h.zapData_eq]
  exact List.mem_append_right _ (List.mem_singleton_self _)

theorem MintedBy.accepted {k : Commit} {m : Minted} (h : MintedBy P Z k m) :
    k.call.Accepted P Z k.pre m.data := by
  obtain ⟨chainId, data⟩ := m
  obtain rfl : k.call.chainId = chainId := h.chainId_eq
  exact ⟨h.zapData_eq, h.authenticated, h.recordAllows, h.serial_lt, h.zapper_ne_zero,
    h.not_exists⟩

/-- The condition on the steps is a condition on the zaps minted in the end. -/
theorem oneChain_iff : OneChain (minted (run P D calls).log) ↔
    ∀ before c after, calls = before ++ c :: after →
      OnSeriesChain P (D.code P).value (run P D before) c := by
  constructor
  · rintro h before c after rfl data hdata m hm hfingerprint
    have hnew : ⟨c.chainId, data⟩ ∈ minted (run P D (before ++ c :: after)).log := by
      rw [List.append_cons]
      exact minted_prefix_run.subset (mem_minted_of_accepted hdata)
    exact h m (minted_prefix_run.subset hm) _ hnew hfingerprint
  · intro h
    induction calls using List.reverseRecOn with
    | nil => exact fun m hm => absurd hm List.not_mem_nil
    | append_singleton before c ih =>
      have hbefore := ih fun before' c' after heq =>
        h before' c' (after ++ [c]) (by rw [heq, List.append_assoc, List.cons_append])
      rw [run_concat]
      rcases World.attempt_cases (exec P (D.code P).value) (run P D before) c with
        ⟨post, events, hx, heq⟩ | ⟨-, heq⟩
      · rw [heq, minted_concat]
        cases hmint : mintOf ⟨c, (run P D before).state, post, events⟩ with
        | none => simpa using hbefore
        | some m =>
          have hm := mintedBy_of_mintOf hx hmint
          have hold := h before c [] rfl m.data hm.accepted
          rw [show c.chainId = m.chainId from hm.chainId_eq] at hold
          intro m₁ hm₁ m₂ hm₂ hfingerprint
          simp only [Option.toList_some, List.mem_append, List.mem_singleton] at hm₁ hm₂
          rcases hm₁ with hm₁ | rfl <;> rcases hm₂ with hm₂ | rfl
          · exact hbefore m₁ hm₁ m₂ hm₂ hfingerprint
          · exact hold m₁ hm₁ hfingerprint
          · exact (hold m₂ hm₂ hfingerprint.symm).symm
          · rfl
      · rw [heq]
        exact hbefore

/-- **When a series is published only once.**  Without collisions, and whatever chain ids
the calls of the run see: no two `Publish` events of the run carry the same series and no
two `Mint` events the same copy, exactly when every accepted mint is made on the chain id
on which its series was minted before. -/
theorem publishedOnce_iff (hK : CollisionFree P.keccak256 (run P D calls).hashed) :
    PublishedOnce (events (run P D calls).log) ↔
      ∀ before c after, calls = before ++ c :: after →
        OnSeriesChain P (D.code P).value (run P D before) c := by
  have h := coherent_run hK
  have hpublishing := publishing_run hK
  rw [← oneChain_iff]
  constructor
  · rintro ⟨hpublish, -⟩ m hm m' hm' hfingerprint
    rw [publicationsOf_events_run, List.map_map] at hpublish
    -- both series have a publication, and by assumption it is the same one
    obtain ⟨n, hn, hseries⟩ := hpublishing.exists_of_mem m hm
    obtain ⟨n', hn', hseries'⟩ := hpublishing.exists_of_mem m' hm'
    obtain ⟨hchain, hn_eq⟩ := Prod.mk.inj hseries
    obtain ⟨hchain', hn'_eq⟩ := Prod.mk.inj hseries'
    have heq : n = n' := List.inj_on_of_nodup_map hpublish hn hn'
      (hn_eq.trans (hfingerprint.trans hn'_eq.symm))
    rw [← hchain, heq, hchain']
  · intro hchain
    constructor
    · rw [publicationsOf_events_run, List.map_map]
      refine List.pairwise_map.mpr
        ((List.pairwise_map.mp hpublishing.nodup_series).imp_of_mem ?_)
      intro m m' hm hm' hseries hfingerprint
      exact hseries (Prod.ext
        (hchain m (hpublishing.subset hm) m' (hpublishing.subset hm') hfingerprint) hfingerprint)
    · rw [zapsOf_events_run, List.map_map]
      refine List.pairwise_map.mpr
        ((List.pairwise_map.mp h.admissible.pairwise).imp_of_mem ?_)
      intro m m' hm hm' hcompatible hcopy
      obtain ⟨hfingerprint, hserial⟩ := Prod.mk.inj hcopy
      have hseries : m.edition.series = m'.edition.series :=
        Prod.ext (hchain m hm m' hm' hfingerprint) hfingerprint
      exact (hcompatible hseries).2 (congrArg FixedBytes.toNat hserial)

namespace Sample

/-- A zap of another series of the zapper. -/
def otherZap : ZapData :=
  { data 42 with
    ipfsHash := .ofNat 32 0xFEDCBA9876543210FEDCBA9876543210FEDCBA9876543210FEDCBA9876543210 }

/-- The owner mints two zaps of a series on chain 420 and, the chain id having become 10, one of
another series. -/
def crossing : List Call :=
  [handover, mint 420 42, mint 420 43,
    ⟨10, zapper, .mintByOwnerForOwner otherZap.ipfsHash otherZap.seriesTotal
      otherZap.serialNumber⟩]

/-- The table of the sample, with the strings of the other zap on chain 10. -/
def crossingDigests : List (Bytes × Bytes32) :=
  let domain10 := .ofNat 32 0x3D7F8814F246E3DEB44B46642BF4C24EC68402811BCAB984B11FF94BEF8432D9
  let fingerprintType :=
    .ofNat 32 0x0BAB355C020256E6C6A2F05BD7BF5EDCB4510399D86B0C6FF641BD27CC9AC399
  let zapType := .ofNat 32 0x3F684CA0807EFFFB667BFF744FD21221A15BDB33A7C49D2ADD13ECA193D7B3BC
  let fingerprint := .ofNat 32 0x83DD373FFA92DEF4932C1980037D45BA0216647EC1A9A60613F2868F40FAD590
  let zap := .ofNat 32 0x266A79790D4AE92F86DD3BD1902B92265FF594A077F2D133858AA5225B65D67A
  digests ++
  [(abiEncode (.bytes32 fingerprintType :: otherZap.fingerprint.words), fingerprint),
   (EIP712.typedDataEncoding domain10 fingerprint,
    .ofNat 32 0xE8AFCC9E8A0D39E5ABB4A50B4ECEC9DA349D7B5DB121EF175E135C36C5E4400D),
   (abiEncode (.bytes32 zapType ::
      (otherZap.publication.words ++ [.bytes4 otherZap.serialNumber])), zap),
   (EIP712.typedDataEncoding domain10 zap,
    .ofNat 32 0xD5BA04728158679A1205E252C51F055DC80986B5298497C8024C1B32D6C98776)]

theorem crossingDigests_correct : ∀ p ∈ crossingDigests, keccak256 p.1 = p.2 := by
  unfold crossingDigests
  refine List.forall_mem_append.mpr ⟨digests_correct, ?_⟩
  decide +kernel

theorem primitives_eq_crossing : primitives =
    { primitives with keccak256 := memo crossingDigests keccak256 } :=
  primitives_eq_of_table crossingDigests_correct

theorem collisionFree_crossing :
    CollisionFree primitives.keccak256 (run primitives deployment crossing).hashed := by
  refine CollisionFree.of_table crossingDigests_correct (by decide +kernel) ?_
  rw [primitives_eq_crossing]
  decide +kernel

theorem minted_crossing : minted (run primitives deployment crossing).log =
    [⟨420, data 42⟩, ⟨420, data 43⟩, ⟨10, otherZap⟩] := by
  rw [primitives_eq_crossing]
  decide +kernel

/-- Each series stays on its chain. -/
theorem oneChain_crossing : OneChain (minted (run primitives deployment crossing).log) := by
  rw [minted_crossing]
  unfold OneChain
  decide

end Sample

/-- A run that sees two chain ids, each series staying on one: both are published once. -/
theorem sample_publishedOnce_iff :
    (∀ before c after, Sample.crossing = before ++ c :: after →
      OnSeriesChain Sample.primitives (Sample.deployment.code Sample.primitives).value
        (run Sample.primitives Sample.deployment before) c) ∧
    publicationsOf (events (run Sample.primitives Sample.deployment Sample.crossing).log) =
      [(Sample.data 42).publication, Sample.otherZap.publication] ∧
    PublishedOnce (events (run Sample.primitives Sample.deployment Sample.crossing).log) := by
  have hchains := oneChain_iff.mp Sample.oneChain_crossing
  refine ⟨hchains, ?_, (publishedOnce_iff Sample.collisionFree_crossing).mpr hchains⟩
  rw [Sample.primitives_eq_crossing]
  decide +kernel

/-- The owner mints the first zap of a series on chain 420 and, the chain id having become
10, the same zap again. -/
def Sample.switched : World :=
  run Sample.primitives Sample.deployment [Sample.handover, Sample.mint 420 42, Sample.mint 10 42]

/-- **A series published twice.**  No strings collide, both mints succeed, and the log shows
two publications of the series and two mints of one copy. -/
theorem sample_published_twice :
    CollisionFree Sample.primitives.keccak256 Sample.switched.hashed ∧
    publicationsOf (events Sample.switched.log) =
      [(Sample.data 42).publication, (Sample.data 42).publication] ∧
    zapsOf (events Sample.switched.log) = [Sample.data 42, Sample.data 42] ∧
    ¬ PublishedOnce (events Sample.switched.log) := by
  have hpublications : publicationsOf (events Sample.switched.log) =
      [(Sample.data 42).publication, (Sample.data 42).publication] := by
    unfold Sample.switched
    rw [Sample.primitives_eq]
    decide +kernel
  refine ⟨Sample.collisionFree ?_, hpublications, ?_, ?_⟩
  · unfold Sample.switched
    rw [Sample.primitives_eq]
    decide +kernel
  · unfold Sample.switched
    rw [Sample.primitives_eq]
    decide +kernel
  · intro h
    have hnodup := h.publish
    rw [hpublications] at hnodup
    exact absurd hnodup (by decide +kernel)

end Chains

end Zap
end OptimismZap
