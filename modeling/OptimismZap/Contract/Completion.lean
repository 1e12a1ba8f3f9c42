import OptimismZap.Contract.Verdicts

/-!
# A series can be finished

Nobody can keep the owner and a zapper from finishing a series on one chain id.  The
calls of others, before, between and after, and in whatever order, can do two things to
an attempt: mint the very zap, with signatures of both, or publish the series with
another total.  In the first case the zap is there all the same, so an attempt is never
lost (`minted_or_otherTotal`).

If all zaps of a series have been attempted on one chain id, it is finished there, or was
published there with another total before and has none of them; and a finished series
stays as it is on its chain id (`series_completed`).  After a change of the chain id it
can be minted once more, as any series.
-/

namespace OptimismZap
namespace Zap

section Completion

variable {P : Primitives} {D : Deployment} {calls later : List Call} {m : Minted} {k : Uint256}
  {fingerprint : SeriesFingerprint} {t : Bytes4}

/-- Some call of the run asks for the zap, on its chain id, and passes its checks when it does. -/
def Attempted (P : Primitives) (D : Deployment) (calls : List Call) (m : Minted) : Prop :=
  ∃ before c after, calls = before ++ c :: after ∧ c.chainId = m.chainId ∧
    c.zapData (run P D before).state.owner = some m.data ∧
    c.Authenticated P (D.code P).value (run P D before).state.owner

/-- The log of a mint that goes through. -/
theorem mem_minted_of_succeeds {c : Call} {data : ZapData}
    (hdata : c.zapData (run P D calls).state.owner = some data)
    (hsucceeds : (exec P (D.code P).value c (run P D calls).state).Succeeds) :
    ⟨c.chainId, data⟩ ∈ minted (run P D (calls ++ [c])).log := by
  obtain ⟨⟨post, events⟩, hx⟩ := hsucceeds
  rw [run_concat, World.attempt_of_ok hx, minted_concat, mintOf_eq_some hdata]
  exact List.mem_append_right _ (List.mem_singleton_self _)

/-- **No attempt is lost.**  A zap that was attempted has been minted, by this call or another,
unless the series was published with another total. -/
theorem minted_or_otherTotal (hK : CollisionFree P.keccak256 (run P D calls).hashed)
    (hzapper : m.data.zapper ≠ 0) (hserial : m.edition.serial < m.edition.total)
    (h : Attempted P D calls m) : m ∈ minted (run P D calls).log ∨
      ∃ m' ∈ minted (run P D calls).log, m'.edition.series = m.edition.series ∧
        m'.edition.total ≠ m.edition.total := by
  obtain ⟨before, ⟨chain, msgSender, op⟩, after, rfl, rfl, hdata, hauth⟩ := h
  set c : Call := ⟨m.chainId, msgSender, op⟩
  have hgrows : minted (run P D before).log <+: minted (run P D (before ++ c :: after)).log :=
    minted_prefix_run
  refine or_iff_not_imp_right.mpr fun hno => ?_
  push Not at hno
  by_cases hsucceeds : (exec P (D.code P).value c (run P D before).state).Succeeds
  · have hm := mem_minted_of_succeeds hdata hsucceeds
    rw [List.append_cons]
    exact minted_prefix_run.subset hm
  · have hK' : CollisionFree P.keccak256 (run P D (before ++ [c])).hashed := by
      rw [List.append_cons] at hK
      exact hK.mono hashed_subset_run_append
    -- the registry has no reason in the totals, so it has the copy
    rw [succeeds_iff_admits hdata hauth hzapper hK'] at hsucceeds
    have hmem := Edition.mem_of_not_admits hsucceeds hserial ?_
    · exact hgrows.subset (mem_of_edition_mem hmem)
    · intro f hf hseries
      obtain ⟨m', hm', rfl⟩ := List.mem_map.mp hf
      exact hno m' (hgrows.subset hm') hseries

/-- No zap of a finished series is minted any more on its chain id, whatever the hash function
does. -/
theorem not_succeeds_of_finished {c : Call} {data : ZapData} (hpos : 0 < t.toNat)
    (hfinished : ∀ n < t, ⟨c.chainId, data.ipfsHash, data.zapper, t, n⟩ ∈
      minted (run P D calls).log)
    (hdata : c.zapData (run P D calls).state.owner = some data) :
    ¬ (exec P (D.code P).value c (run P D calls).state).Succeeds := by
  rintro ⟨r, hx⟩
  obtain ⟨hrecord, hserial, -, hnew, -⟩ :=
    outcome_mint_eq_ok.mp ((outcome_exec_mint hdata).mp hx).2
  have hrecorded : Recorded P (D.code P).value (run P D calls).state
    (minted (run P D calls).log) := recorded_run
  -- the first zap has put the total on record
  have hfirst := hfinished 0 (by rwa [FixedBytes.lt_iff_toNat_lt, FixedBytes.toNat_zero])
  have htotal := seriesTotal_of_mem_run hfirst
  have hne := hrecorded.seriesTotal_ne_zero hfirst
  rw [← htotal] at hne
  have heq : t = data.seriesTotal := htotal.symm.trans (hrecord.resolve_left hne)
  obtain ⟨ipfsHash, zapper, seriesTotal, serialNumber⟩ := data
  obtain rfl : t = seriesTotal := heq
  exact hnew (hrecorded.exists_iff.mpr ⟨_, hfinished serialNumber hserial, rfl⟩)

/-- **A series that is attempted is finished.**  In every run without collisions in which all
zaps of a series with a positive total have been attempted on one chain id, in any order and among
any other calls on any chain id, either the series was published on this chain id with another
total and has none of these zaps there, or it has each serial number below the total once there,
and in no continuation a zap of the series is minted on this chain id again. -/
theorem series_completed (hK : CollisionFree P.keccak256 (run P D calls).hashed)
    (hzapper : fingerprint.zapper ≠ 0) (hpos : 0 < t)
    (hattempts : ∀ n < t,
      Attempted P D calls ⟨k, fingerprint.ipfsHash, fingerprint.zapper, t, n⟩) :
    ((∃ m ∈ minted (run P D calls).log, m.edition.series = (k, fingerprint) ∧
        m.data.seriesTotal ≠ t) ∧
      ∀ n, ⟨k, fingerprint.ipfsHash, fingerprint.zapper, t, n⟩ ∉ minted (run P D calls).log) ∨
    ((Edition.serials ((minted (run P D calls).log).map Minted.edition) (k, fingerprint)).Perm
        (List.range t.toNat) ∧
      ∀ later c data, c.chainId = k →
        c.zapData (run P D (calls ++ later)).state.owner = some data →
        data.fingerprint = fingerprint →
          ¬ (exec P (D.code P).value c (run P D (calls ++ later)).state).Succeeds) := by
  have h := coherent_run hK
  have hpos' : 0 < t.toNat := by
    rwa [FixedBytes.lt_iff_toNat_lt, FixedBytes.toNat_zero] at hpos
  by_cases hother : ∃ m ∈ minted (run P D calls).log, m.edition.series = (k, fingerprint) ∧
      m.data.seriesTotal ≠ t
  · refine Or.inl ⟨hother, fun n hn => ?_⟩
    obtain ⟨m, hm, hseries, htotal⟩ := hother
    exact htotal (FixedBytes.toNat_injective (h.total_eq hm hn hseries))
  · have hfinished : ∀ n < t, ⟨k, fingerprint.ipfsHash, fingerprint.zapper, t, n⟩ ∈
        minted (run P D calls).log := by
      intro n hn
      refine (minted_or_otherTotal hK hzapper (FixedBytes.lt_iff_toNat_lt.mp hn)
        (hattempts n hn)).resolve_right ?_
      rintro ⟨m, hm, hseries, htotal⟩
      exact hother ⟨m, hm, hseries, fun heq => htotal (congrArg FixedBytes.toNat heq)⟩
    refine Or.inr ⟨h.admissible.serials_perm_range hpos' fun n hn => ?_, ?_⟩
    · have hvalue : (FixedBytes.ofNat 4 n).toNat = n :=
        FixedBytes.toNat_ofNat (hn.trans t.toNat_lt)
      have hm := hfinished (.ofNat 4 n) (by rwa [FixedBytes.lt_iff_toNat_lt, hvalue])
      refine List.mem_map.mpr ⟨_, hm, ?_⟩
      rw [Minted.edition, hvalue]
    · rintro later c data rfl hdata rfl
      exact not_succeeds_of_finished hpos'
        (fun n hn => minted_prefix_run.subset (hfinished n hn)) hdata

namespace Sample

/-- The call for a zap of the example series, announced with two of them. -/
def mintOfPair (serialNumber : ℕ) : Call where
  chainId := 420
  msgSender := zapper
  op := .mintByOwnerForOwner (data 42).ipfsHash (.ofNat 4 2) (.ofNat 4 serialNumber)

/-- The zapper mints both, the second one first. -/
def pairCalls : List Call := [handover, mintOfPair 1, mintOfPair 0]

/-- The table of the sample, with the strings of these zaps. -/
def pairDigests : List (Bytes × Bytes32) :=
  let domain420 := .ofNat 32 0x36FD4FC5D770149937A502CC6B8E827AB9670C0B9877661D3A3BC7BE2D1DFE34
  let zapType := .ofNat 32 0x3F684CA0807EFFFB667BFF744FD21221A15BDB33A7C49D2ADD13ECA193D7B3BC
  let zap0 := .ofNat 32 0xB9F4308CD36D30651287CE8A10586E2654919C7A9A6C3E82BCD736BA79066446
  let zap1 := .ofNat 32 0xB2B253F1B8B18481F797180BA88D6F1C4C231134004B0862082EEBBEFD832BE9
  let words := fun serialNumber : ℕ => [.bytes32 zapType, .bytes32 (data 42).ipfsHash,
    .address zapper, .bytes4 (.ofNat 4 2), .bytes4 (.ofNat 4 serialNumber)]
  digests ++
  [(abiEncode (words 0), zap0),
   (abiEncode (words 1), zap1),
   (EIP712.typedDataEncoding domain420 zap0,
    .ofNat 32 0xC198B999F96ADDB2A3C4CD27F2341E8B9D135D39C5B168F607F769C0D1B49A24),
   (EIP712.typedDataEncoding domain420 zap1,
    .ofNat 32 0x6628040BB93FAAB11D739D4ED35A1CB21F7BC212E3FB5D5ED656A86BD30A8726)]

theorem pairDigests_correct : ∀ p ∈ pairDigests, keccak256 p.1 = p.2 := by
  unfold pairDigests
  refine List.forall_mem_append.mpr ⟨digests_correct, ?_⟩
  decide +kernel

theorem primitives_eq_pair : primitives =
    { primitives with keccak256 := memo pairDigests keccak256 } :=
  primitives_eq_of_table pairDigests_correct

theorem collisionFree_pair :
    CollisionFree primitives.keccak256 (run primitives deployment pairCalls).hashed := by
  refine CollisionFree.of_table pairDigests_correct (by decide +kernel) ?_
  rw [primitives_eq_pair]
  decide +kernel

theorem attempted_pair {before after : List Call} {n : ℕ}
    (hcalls : pairCalls = before ++ mintOfPair n :: after)
    (howner : (run primitives deployment before).state.owner = zapper) :
    Attempted primitives deployment pairCalls
      ⟨420, (data 42).ipfsHash, zapper, .ofNat 4 2, .ofNat 4 n⟩ := by
  refine ⟨before, mintOfPair n, after, hcalls, rfl, ?_, fun _ _ => ⟨fun _ => howner, ?_⟩⟩
  · rw [howner]
    rfl
  · exact fun _ hp => absurd hp List.not_mem_nil

end Sample

/-- The pair is finished, and the series cannot be continued with the total of 420. -/
theorem sample_series_completed :
    (Edition.serials ((minted (run Sample.primitives Sample.deployment
        Sample.pairCalls).log).map Minted.edition) (420, (Sample.data 42).fingerprint)).Perm
      (List.range 2) ∧
    ¬ (exec Sample.primitives (Sample.deployment.code Sample.primitives).value
      (Sample.mint 420 42)
      (run Sample.primitives Sample.deployment (Sample.pairCalls ++ [])).state).Succeeds := by
  have hcompleted := (@series_completed Sample.primitives Sample.deployment Sample.pairCalls 420
    (Sample.data 42).fingerprint (.ofNat 4 2) Sample.collisionFree_pair (by decide) (by decide)
    fun n hn => ?_).resolve_left ?_
  · refine ⟨hcompleted.1, hcompleted.2 [] _ (Sample.data 42) rfl (Sample.zapData_mint ?_) rfl⟩
    rw [Sample.primitives_eq_pair]
    decide +kernel
  · -- the two serial numbers below the total
    have hlt : n.toNat < 2 := FixedBytes.lt_iff_toNat_lt.mp hn
    have hn : n = .ofNat 4 1 ∨ n = .ofNat 4 0 := by
      rcases Nat.lt_or_ge n.toNat 1 with hzero | hone
      · exact Or.inr (FixedBytes.toNat_injective (Nat.lt_one_iff.mp hzero))
      · exact Or.inl (FixedBytes.toNat_injective (Nat.le_antisymm (Nat.le_of_lt_succ hlt) hone))
    rcases hn with rfl | rfl
    · refine @Sample.attempted_pair [Sample.handover] _ _ rfl ?_
      rw [Sample.primitives_eq_pair]
      decide +kernel
    · refine @Sample.attempted_pair [Sample.handover, Sample.mintOfPair 1] _ _ rfl ?_
      rw [Sample.primitives_eq_pair]
      decide +kernel
  · rintro ⟨-, hnone⟩
    refine hnone (.ofNat 4 0) ?_
    rw [Sample.primitives_eq_pair]
    decide +kernel

end Completion

end Zap
end OptimismZap
