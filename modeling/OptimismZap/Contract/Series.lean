import OptimismZap.Contract.History

/-!
# Series

What `seriesPublications` promises about a series, over all runs on one chain.
A series is either unpublished, and then nothing of it was ever minted, or it is
published with a total that is never changed, respected by every mint, and an
upper bound for their number (`series_invariant`).

The contract keeps that promise without keeping a list of the mints.  It accepts
exactly what a registry with a list would accept (`mint_succeeds_iff`), so
nothing that happens elsewhere can block or admit a mint, and no serial number
of a published series is ever lost.
-/

namespace OptimismZap
namespace Zap

/-- The zaps of a series minted so far. -/
def mintedIn (log : List Commit) (fingerprint : SeriesFingerprint) : List ZapData :=
  ((minted log).map Minted.data).filter fun data => data.fingerprint = fingerprint

section Series

variable {P : Primitives} {D : Deployment} {calls later : List Call} {k : Uint256}
  {fingerprint : SeriesFingerprint}

/-- On one chain a zap is of a series when it has its fingerprint. -/
theorem mem_mintedIn_iff (hchain : ∀ c ∈ calls, c.chainId = k) {data : ZapData} :
    data ∈ mintedIn (run P D calls).log fingerprint ↔
      ⟨k, data⟩ ∈ minted (run P D calls).log ∧ data.fingerprint = fingerprint := by
  unfold mintedIn
  rw [List.mem_filter, List.mem_map, decide_eq_true_iff]
  refine and_congr_left fun _ => ⟨?_, fun hm => ⟨_, hm, rfl⟩⟩
  rintro ⟨m, hm, rfl⟩
  have hk : m.chainId = k := chainId_of_mem_minted (Q := (· = k)) hchain hm
  rw [← hk]
  exact hm

/-- The minted zaps of a series, as copies, are a part of the registry. -/
theorem editions_mintedIn_sublist (fingerprint : SeriesFingerprint)
    (hchain : ∀ c ∈ calls, c.chainId = k) :
    ((mintedIn (run P D calls).log fingerprint).map fun data => (Minted.mk k data).edition).Sublist
      ((minted (run P D calls).log).map Minted.edition) := by
  have hmap : (minted (run P D calls).log).map Minted.edition =
      ((minted (run P D calls).log).map Minted.data).map
        fun data => (Minted.mk k data).edition := by
    rw [List.map_map]
    refine List.map_congr_left ?_
    intro m hm
    rw [Function.comp_apply, ← chainId_of_mem_minted (Q := (· = k)) hchain hm]
  rw [hmap]
  exact List.filter_sublist.map _

/-- What holds of a published series in a world `w` and a later world `w'`. -/
structure PublishedWith (P : Primitives) (Z : Deployed) (k : Uint256)
    (fingerprint : SeriesFingerprint) (t : Bytes4) (w w' : World) : Prop where
  total_pos : 0 < t
  zapper_ne_zero : fingerprint.zapper ≠ 0
  record : w.state.seriesPublications (seriesKey P Z k fingerprint) =
    ⟨fingerprint.ipfsHash, fingerprint.zapper, t⟩
  record_later : w'.state.seriesPublications (seriesKey P Z k fingerprint) =
    ⟨fingerprint.ipfsHash, fingerprint.zapper, t⟩
  exists_token : ∃ data ∈ mintedIn w.log fingerprint, w.state.Exists (tokenId P Z k data)
  minted_later : ∀ data ∈ mintedIn w'.log fingerprint,
    data.seriesTotal = t ∧ data.serialNumber < t
  nodup_serials : ((mintedIn w'.log fingerprint).map ZapData.serialNumber).Nodup
  length_le : (mintedIn w'.log fingerprint).length ≤ t.toNat

/-- A record on file has all its series is promised. -/
theorem publishedWith_of_mem {data : ZapData} (hchain : ∀ c ∈ calls ++ later, c.chainId = k)
    (hK : CollisionFree P.keccak256 (run P D (calls ++ later)).hashed)
    (hm : ⟨k, data⟩ ∈ minted (run P D calls).log) :
    PublishedWith P (D.code P).value k data.fingerprint data.seriesTotal (run P D calls)
      (run P D (calls ++ later)) := by
  have hchain₀ : ∀ c ∈ calls, c.chainId = k := fun c hc => hchain c (List.mem_append_left _ hc)
  have h := coherent_run (hK.mono hashed_subset_run_append)
  have h' := coherent_run hK
  have hm' : ⟨k, data⟩ ∈ minted (run P D (calls ++ later)).log := minted_prefix_run.subset hm
  have hlater : ∀ d ∈ mintedIn (run P D (calls ++ later)).log data.fingerprint,
      d.seriesTotal = data.seriesTotal ∧ d.serialNumber < data.seriesTotal := by
    intro d hd
    obtain ⟨hd, hfingerprint⟩ := (mem_mintedIn_iff hchain).mp hd
    have htotal : d.seriesTotal = data.seriesTotal :=
      FixedBytes.toNat_injective (h'.total_eq hd hm' (Prod.ext rfl hfingerprint))
    have hlt : d.serialNumber < d.seriesTotal := h'.serial_lt ⟨k, d⟩ hd
    exact ⟨htotal, htotal ▸ hlt⟩
  -- as copies of one series, the mints are part of an admissible registry
  have hadmissible := h'.admissible.sublist (editions_mintedIn_sublist data.fingerprint hchain)
  have hseries : ∀ e ∈ (mintedIn (run P D (calls ++ later)).log data.fingerprint).map
      (fun d => (Minted.mk k d).edition), e.series = (k, data.fingerprint) := by
    intro e he
    obtain ⟨d, hd, rfl⟩ := List.mem_map.mp he
    exact Prod.ext rfl ((mem_mintedIn_iff hchain).mp hd).2
  refine ⟨?_, h.zapper_ne_zero ⟨k, data⟩ hm, h.record_of_mem ⟨k, data⟩ hm,
    h'.record_of_mem ⟨k, data⟩ hm', ?_, hlater, ?_, ?_⟩
  · rw [FixedBytes.lt_iff_toNat_lt, FixedBytes.toNat_zero]
    exact Nat.zero_lt_of_lt (FixedBytes.lt_iff_toNat_lt.mp (h.serial_lt ⟨k, data⟩ hm))
  · exact ⟨data, (mem_mintedIn_iff hchain₀).mpr ⟨hm, rfl⟩,
      h.exists_iff.mpr ⟨⟨k, data⟩, hm, rfl⟩⟩
  · have hnodup := hadmissible.nodup_serials hseries
    rw [List.map_map] at hnodup
    refine List.Nodup.of_map FixedBytes.toNat ?_
    rw [List.map_map]
    exact hnodup
  · have hle := hadmissible.length_le hseries (t := data.seriesTotal.toNat) ?_
    · rwa [List.length_map] at hle
    · intro e he
      obtain ⟨d, hd, rfl⟩ := List.mem_map.mp he
      exact congrArg FixedBytes.toNat (hlater d hd).1

/-- **The promise of the publication table.**  On one chain and without collisions, the
record of a series is empty, and then nothing of the series was minted, or it is the series
with a positive total and a proper zapper.  Then it never changes again, there is a token of
the series, and all zaps ever minted for the series have this total, a serial number below
it, and distinct serial numbers; so there are at most as many as the total. -/
theorem series_invariant (hchain : ∀ c ∈ calls ++ later, c.chainId = k)
    (hK : CollisionFree P.keccak256 ((run P D (calls ++ later)).hashed ++
      (eip712HashSeriesFingerprint P (D.code P).value k fingerprint).hashed)) :
    ((run P D calls).state.seriesPublications
        (seriesKey P (D.code P).value k fingerprint) = 0 ∧
      mintedIn (run P D calls).log fingerprint = []) ∨
    ∃ t, PublishedWith P (D.code P).value k fingerprint t (run P D calls)
      (run P D (calls ++ later)) := by
  have hchain₀ : ∀ c ∈ calls, c.chainId = k := fun c hc => hchain c (List.mem_append_left _ hc)
  have h := coherent_run (hK.append_left.mono hashed_subset_run_append)
  by_cases hrecord : (run P D calls).state.seriesPublications
      (seriesKey P (D.code P).value k fingerprint) = 0
  · refine Or.inl ⟨hrecord, List.eq_nil_iff_forall_not_mem.mpr fun data hdata => ?_⟩
    obtain ⟨hm, rfl⟩ := (mem_mintedIn_iff hchain₀).mp hdata
    have hpublication := h.record_of_mem _ hm
    unfold Minted.key at hpublication
    rw [hrecord] at hpublication
    exact h.seriesTotal_ne_zero hm (congrArg SeriesPublication.seriesTotal hpublication.symm)
  · obtain ⟨m, hm, hkey, -⟩ := h.exists_of_record _ hrecord
    -- the one use of the lookup's own strings: the record belongs to this series
    have hseries : m.data.fingerprint = fingerprint ∧ m.chainId = k := by
      refine seriesKey_inj hK ?_ ?_ (List.subset_append_right _ _) hkey
      · exact List.subset_append_of_subset_left _ code_hashed_subset_run
      · exact List.subset_append_of_subset_left _
          (List.Subset.trans (keyStrings_subset_run hm) hashed_subset_run_append)
    obtain ⟨chainId, data⟩ := m
    obtain ⟨rfl, rfl⟩ := hseries
    exact Or.inr ⟨data.seriesTotal, publishedWith_of_mem hchain hK.append_left hm⟩

/-- The example series is published, with one zap minted and then another. -/
theorem sample_series : ∃ t, PublishedWith Sample.primitives (Sample.deployment.code
      Sample.primitives).value 420 (Sample.data 42).fingerprint t
    (run Sample.primitives Sample.deployment [Sample.handover, Sample.mint 420 42])
    (run Sample.primitives Sample.deployment
      [Sample.handover, Sample.mint 420 42, Sample.mint 420 43]) := by
  refine (@series_invariant Sample.primitives Sample.deployment
    [Sample.handover, Sample.mint 420 42] [Sample.mint 420 43] 420 (Sample.data 42).fingerprint
    (by decide +kernel) (Sample.collisionFree ?_)).resolve_left fun h => ?_
  · rw [Sample.primitives_eq]
    decide +kernel
  · revert h
    rw [Sample.primitives_eq]
    decide +kernel

/-! ## The contract as a registry -/

/-- **A mint that passes its checks goes through exactly when a registry of the zaps minted
so far would take it**, under any succession of chain ids. -/
theorem succeeds_iff_admits {c : Call} {data : ZapData}
    (hdata : c.zapData (run P D calls).state.owner = some data)
    (hauth : c.Authenticated P (D.code P).value (run P D calls).state.owner)
    (hzapper : data.zapper ≠ 0)
    (hK : CollisionFree P.keccak256 (run P D (calls ++ [c])).hashed) :
    (exec P (D.code P).value c (run P D calls).state).Succeeds ↔
      Edition.Admits ((minted (run P D calls).log).map Minted.edition)
        (Minted.mk c.chainId data).edition := by
  rw [run_concat, World.hashed_attempt] at hK
  have hcode : (D.code P).hashed ⊆ (run P D calls).hashed ++
      (exec P (D.code P).value c (run P D calls).state).hashed :=
    List.subset_append_of_subset_left _ code_hashed_subset_run
  rw [succeeds_exec_iff hdata hauth hzapper]
  refine (coherent_run hK.append_left).admits_iff (m := ⟨c.chainId, data⟩)
    (fun m' hm' hkey => ?_) (fun hrecord hserial m' hm' hid => ?_)
  · refine Minted.series_eq_of_key_eq hK hcode ?_ ?_ hkey
    · exact List.subset_append_of_subset_left _ (keyStrings_subset_run hm')
    · exact List.subset_append_of_subset_right _ (fingerprint_hashed_subset_exec hdata hauth)
  · refine Minted.eq_of_tokenId_eq hK hcode ?_ ?_ hid
    · exact List.subset_append_of_subset_left _ (idStrings_subset_run hm')
    · refine List.subset_append_of_subset_right _ (List.Subset.trans ?_
        (strings_subset_hashed_exec hdata hauth hrecord hserial))
      exact List.subset_append_of_subset_right _ (List.subset_append_right _ _)

/-- **The contract accepts what a plain registry accepts.**  On one chain and without
collisions, a mint that passes its checks for a proper zapper succeeds exactly when its
serial number is below its total, no earlier mint had the same series and serial number, and
all earlier mints of the series had the same total. -/
theorem mint_succeeds_iff {c : Call} {data : ZapData}
    (hchain : ∀ c' ∈ calls ++ [c], c'.chainId = k)
    (hdata : c.zapData (run P D calls).state.owner = some data)
    (hauth : c.Authenticated P (D.code P).value (run P D calls).state.owner)
    (hzapper : data.zapper ≠ 0)
    (hK : CollisionFree P.keccak256 (run P D (calls ++ [c])).hashed) :
    (exec P (D.code P).value c (run P D calls).state).Succeeds ↔
      data.serialNumber < data.seriesTotal ∧
      (∀ d ∈ mintedIn (run P D calls).log data.fingerprint,
        d.serialNumber ≠ data.serialNumber) ∧
      (∀ d ∈ mintedIn (run P D calls).log data.fingerprint,
        d.seriesTotal = data.seriesTotal) := by
  have hchain₀ : ∀ c' ∈ calls, c'.chainId = k := fun c' hc' =>
    hchain c' (List.mem_append_left _ hc')
  have hk : c.chainId = k := hchain c (List.mem_append_right _ (List.mem_singleton_self c))
  rw [succeeds_iff_admits hdata hauth hzapper hK, Edition.Admits, List.forall_mem_map]
  refine and_congr FixedBytes.lt_iff_toNat_lt.symm ?_
  constructor
  · intro h
    have hcompatible : ∀ d ∈ mintedIn (run P D calls).log data.fingerprint,
        d.seriesTotal.toNat = data.seriesTotal.toNat ∧
          d.serialNumber.toNat ≠ data.serialNumber.toNat := by
      intro d hd
      obtain ⟨hm, hfingerprint⟩ := (mem_mintedIn_iff hchain₀).mp hd
      exact h ⟨k, d⟩ hm (Prod.ext hk.symm hfingerprint)
    refine ⟨fun d hd heq => (hcompatible d hd).2 (heq ▸ rfl), fun d hd => ?_⟩
    exact FixedBytes.toNat_injective (hcompatible d hd).1
  · rintro ⟨hserial, htotal⟩ ⟨chainId, d⟩ hm hseries
    obtain rfl : chainId = k := chainId_of_mem_minted (Q := (· = k)) hchain₀ hm
    have hd := (mem_mintedIn_iff hchain₀).mpr ⟨hm, (Prod.mk.inj hseries).2⟩
    refine ⟨congrArg FixedBytes.toNat (htotal d hd), fun heq => hserial d hd ?_⟩
    exact FixedBytes.toNat_injective heq

/-- After one zap of the example series the next one can be minted. -/
theorem sample_mint_succeeds : (exec Sample.primitives (Sample.deployment.code
      Sample.primitives).value (Sample.mint 420 43) (run Sample.primitives Sample.deployment
        [Sample.handover, Sample.mint 420 42]).state).Succeeds := by
  refine (mint_succeeds_iff (k := 420) (by decide +kernel)
    (Sample.zapData_mint Sample.owner_run) (Sample.authenticated_mint Sample.owner_run)
    (by decide +kernel) Sample.collisionFree_run).mpr ?_
  rw [Sample.primitives_eq]
  decide +kernel

end Series

end Zap
end OptimismZap
