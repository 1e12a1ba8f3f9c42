import OptimismZap.Contract.EntryPoints
import OptimismZap.Library.Editions
import OptimismZap.Library.Runs

/-!
# Runs of the contract

`run P D calls` is the world after a deployment and a sequence of calls, in any
order and by any callers.  A call that succeeds is an entry of the log, and an
entry that is a mint says which zap was minted on which chain (`mintOf`); the
zaps minted so far are `minted log`.

The table of publications and the token ledger are two images of that list.

* `Recorded` is what holds whatever the hash function does: the tokens are the
  ids of the minted zaps, in order, and every record in the table is the
  publication of a minted zap under the key of its series.
* `Coherent` adds the converse: under the key of a minted zap stands its
  publication.  A collision could break it, by letting one series pass for
  another, so `coherent_run` assumes there is none in the run.

On a coherent state `_mint` decides as a plain registry of numbered copies would
(`Coherent.admits_iff`), although all it looks at is two stores indexed by
hashes.
-/

namespace OptimismZap
namespace Zap

/-- A successful call of the contract. -/
abbrev Commit := OptimismZap.Commit State Call Event

/-- The books of a run of the contract. -/
abbrev World := OptimismZap.World State Call Event

/-- A zap and the chain id under which it was minted. -/
structure Minted where
  chainId : Uint256
  data : ZapData
  deriving DecidableEq

/-- The zap a successful call minted, if it is a mint. -/
def mintOf (k : Commit) : Option Minted :=
  (k.call.zapData k.pre.owner).map (Minted.mk k.call.chainId)

/-- The zaps minted so far. -/
def minted (log : List Commit) : List Minted := log.filterMap mintOf

/-- The event log. -/
def events (log : List Commit) : List Event := log.flatMap OptimismZap.Commit.events

section Run

variable (P : Primitives) (D : Deployment)

/-- The world after the constructor. -/
def deployed : World := ⟨genesis D, [], (D.code P).hashed⟩

/-- The world after a sequence of calls. -/
def run (calls : List Call) : World := (deployed P D).run (exec P (D.code P).value) calls

end Run

namespace Minted

variable (P : Primitives) (Z : Deployed) (m : Minted)

/-- The id of its token. -/
abbrev tokenId : Uint256 := Zap.tokenId P Z m.chainId m.data

/-- The key of its series. -/
abbrev key : Bytes32 := seriesKey P Z m.chainId m.data.fingerprint

/-- The strings hashed to get the key. -/
def keyStrings : List Bytes :=
  (eip712HashSeriesFingerprint P Z m.chainId m.data.fingerprint).hashed

/-- The strings hashed to get the id. -/
def idStrings : List Bytes :=
  (eip712HashZapData P Z m.chainId m.data.publication m.data.serialNumber).hashed

/-- The strings hashed to get the key and the id. -/
def strings : List Bytes := m.keyStrings P Z ++ m.idStrings P Z

/-- The minted zap as a numbered copy.  The key of a series depends on the chain id,
so the chain id is part of the series here. -/
def edition : Edition (Uint256 × SeriesFingerprint) where
  series := (m.chainId, m.data.fingerprint)
  total := m.data.seriesTotal.toNat
  serial := m.data.serialNumber.toNat

variable {P} {D : Deployment} {m m' : Minted} {H : List Bytes}

/-- Without collisions a key determines its series. -/
theorem series_eq_of_key_eq (hK : CollisionFree P.keccak256 H) (hD : (D.code P).hashed ⊆ H)
    (hm : m.keyStrings P (D.code P).value ⊆ H) (hm' : m'.keyStrings P (D.code P).value ⊆ H)
    (h : m.key P (D.code P).value = m'.key P (D.code P).value) :
    m.edition.series = m'.edition.series := by
  obtain ⟨hfingerprint, hchain⟩ := seriesKey_inj hK hD hm hm' h
  exact Prod.ext hchain hfingerprint

/-- Without collisions an id determines its zap and its chain. -/
theorem eq_of_tokenId_eq (hK : CollisionFree P.keccak256 H) (hD : (D.code P).hashed ⊆ H)
    (hm : m.idStrings P (D.code P).value ⊆ H) (hm' : m'.idStrings P (D.code P).value ⊆ H)
    (h : m.tokenId P (D.code P).value = m'.tokenId P (D.code P).value) : m = m' := by
  obtain ⟨hquery, hchain⟩ := Query.eval_inj (.zapData m.data.publication m.data.serialNumber)
    (.zapData m'.data.publication m'.data.serialNumber) hK hD hm hm' (uint256_injective h)
  obtain ⟨hpublication, hserial⟩ := Query.zapData.inj hquery
  obtain ⟨chainId, data⟩ := m
  obtain ⟨chainId', data'⟩ := m'
  obtain ⟨hipfs, hzapper, htotal⟩ := SeriesPublication.mk.inj hpublication
  rw [Minted.mk.injEq, ZapData.mk.injEq]
  exact ⟨hchain, hipfs, hzapper, htotal, hserial⟩

end Minted

/-! ## What holds whatever the hash function does -/

section Invariant

variable {P : Primitives} {Z : Deployed}

/-- The ledger and the table hold nothing but the minted zaps. -/
structure Recorded (P : Primitives) (Z : Deployed) (σ : State) (M : List Minted) : Prop where
  wellFormed : σ.toERC721.WellFormed
  keys_eq : σ.tokenOwners.keys = M.map (Minted.tokenId P Z)
  serial_lt : ∀ m ∈ M, m.data.serialNumber < m.data.seriesTotal
  zapper_ne_zero : ∀ m ∈ M, m.data.zapper ≠ 0
  exists_of_record : ∀ k, σ.seriesPublications k ≠ 0 →
    ∃ m ∈ M, m.key P Z = k ∧ σ.seriesPublications k = m.data.publication

/-- The ledger and the table hold the minted zaps. -/
structure Coherent (P : Primitives) (Z : Deployed) (σ : State) (M : List Minted) : Prop
    extends Recorded P Z σ M where
  record_of_mem : ∀ m ∈ M, σ.seriesPublications (m.key P Z) = m.data.publication

variable {σ σ' : State} {M : List Minted} {m : Minted} {c : Call} {es : List Event}

theorem coherent_genesis (D : Deployment) : Coherent P Z (genesis D) [] where
  wellFormed := ERC721.wellFormed_empty
  keys_eq := rfl
  serial_lt _ hm := absurd hm List.not_mem_nil
  zapper_ne_zero _ hm := absurd hm List.not_mem_nil
  exists_of_record _ hk := absurd rfl hk
  record_of_mem _ hm := absurd hm List.not_mem_nil

namespace Recorded

/-- A token exists when a zap with its id was minted. -/
theorem exists_iff (h : Recorded P Z σ M) {id : Uint256} :
    σ.Exists id ↔ ∃ m ∈ M, m.tokenId P Z = id := by
  rw [ERC721.Exists, h.keys_eq, List.mem_map]

theorem seriesTotal_ne_zero (h : Recorded P Z σ M) (hm : m ∈ M) : m.data.seriesTotal ≠ 0 := by
  intro hzero
  have hlt := h.serial_lt m hm
  rw [hzero] at hlt
  exact FixedBytes.not_lt_zero _ hlt

/-- The sentinel is reliable: a total of zero is an empty record. -/
theorem record_eq_zero_iff (h : Recorded P Z σ M) {k : Bytes32} :
    σ.seriesPublications k = 0 ↔ (σ.seriesPublications k).seriesTotal = 0 := by
  constructor
  · intro hzero
    rw [hzero]
    rfl
  · intro htotal
    by_contra hne
    obtain ⟨m, hm, -, hrecord⟩ := h.exists_of_record k hne
    rw [hrecord] at htotal
    exact h.seriesTotal_ne_zero hm htotal

/-- Recording looks at the ledger through its keys only, so the operations of the token
standard are invisible to it. -/
theorem effect {token : ERC721} {events : List ERC721.Event} (h : Recorded P Z σ M)
    (heffect : ERC721.Effect σ.toERC721 token events) :
    Recorded P Z { σ with toERC721 := token } M where
  wellFormed := h.wellFormed.effect heffect
  keys_eq := heffect.keys_eq.trans h.keys_eq
  serial_lt := h.serial_lt
  zapper_ne_zero := h.zapper_ne_zero
  exists_of_record := h.exists_of_record

theorem mint (h : Recorded P Z σ M) (hserial : m.data.serialNumber < m.data.seriesTotal)
    (hzapper : m.data.zapper ≠ 0) (hnew : ¬ σ.Exists (m.tokenId P Z)) :
    Recorded P Z (σ.afterMint (m.key P Z) (m.tokenId P Z) m.data) (M ++ [m]) where
  wellFormed := h.wellFormed.afterMint hzapper hnew
  keys_eq := by
    rw [List.map_append, ← h.keys_eq]
    exact ERC721.keys_afterMint hnew
  serial_lt := List.forall_mem_append.mpr ⟨h.serial_lt, List.forall_mem_singleton.mpr hserial⟩
  zapper_ne_zero :=
    List.forall_mem_append.mpr ⟨h.zapper_ne_zero, List.forall_mem_singleton.mpr hzapper⟩
  exists_of_record k hk := by
    have hold : σ.seriesPublications k ≠ 0 →
        ∃ m' ∈ M ++ [m], m'.key P Z = k ∧ σ.seriesPublications k = m'.data.publication := by
      intro hk
      obtain ⟨m', hm', hkey, hrecord⟩ := h.exists_of_record k hk
      exact ⟨m', List.mem_append_left _ hm', hkey, hrecord⟩
    simp only [State.afterMint, State.publicationsAfter] at hk ⊢
    split at hk
    · rename_i hempty
      rw [if_pos hempty]
      by_cases hkey : k = m.key P Z
      · refine ⟨m, List.mem_append_right _ (List.mem_singleton_self m), hkey.symm, ?_⟩
        rw [hkey, Function.update_self]
      · rw [Function.update_of_ne hkey] at hk ⊢
        exact hold hk
    · rename_i hfull
      rw [if_neg hfull]
      exact hold hk

end Recorded

namespace Coherent

/-- **Mints keep the table coherent**, provided the key of the new zap is not the key of
another series. -/
theorem mint (h : Coherent P Z σ M) (hserial : m.data.serialNumber < m.data.seriesTotal)
    (hzapper : m.data.zapper ≠ 0) (hnew : ¬ σ.Exists (m.tokenId P Z))
    (hrecord : σ.RecordAllows (m.key P Z) m.data)
    (hkey : ∀ m' ∈ M, m'.key P Z = m.key P Z → m'.data.fingerprint = m.data.fingerprint) :
    Coherent P Z (σ.afterMint (m.key P Z) (m.tokenId P Z) m.data) (M ++ [m]) where
  toRecorded := h.toRecorded.mint hserial hzapper hnew
  record_of_mem m' hm' := by
    simp only [State.afterMint, State.publicationsAfter]
    split
    · rename_i hempty
      rcases List.mem_append.mp hm' with hm' | hm'
      · -- a zap minted before has its record, and this one is empty
        have hne : m'.key P Z ≠ m.key P Z := by
          intro heq
          have htotal := h.record_of_mem m' hm'
          rw [heq] at htotal
          rw [htotal] at hempty
          exact h.seriesTotal_ne_zero hm' hempty
        rw [Function.update_of_ne hne]
        exact h.record_of_mem m' hm'
      · rw [List.mem_singleton.mp hm', Function.update_self]
    · rename_i hfull
      rcases List.mem_append.mp hm' with hm' | hm'
      · exact h.record_of_mem m' hm'
      · -- the record was made by a zap of the same series, and has the same total
        rw [List.mem_singleton.mp hm']
        obtain ⟨m₀, hm₀, hkey₀, hrecord₀⟩ :=
          h.exists_of_record (m.key P Z) (mt h.record_eq_zero_iff.mp hfull)
        have hfingerprint := hkey m₀ hm₀ hkey₀
        have htotal := hrecord.resolve_left hfull
        rw [hrecord₀] at htotal ⊢
        obtain ⟨hipfs, hzapper⟩ := SeriesFingerprint.mk.inj hfingerprint
        rw [SeriesPublication.mk.injEq]
        exact ⟨hipfs, hzapper, htotal⟩

/-- Zaps of one series have one key. -/
theorem key_eq_of_series_eq {m m' : Minted} (h : m.edition.series = m'.edition.series) :
    m.key P Z = m'.key P Z := by
  obtain ⟨hchain, hfingerprint⟩ := Prod.mk.inj h
  unfold Minted.key
  rw [hchain, hfingerprint]

/-- Editions determine their zaps. -/
theorem edition_injective : Function.Injective Minted.edition := by
  rintro ⟨chainId, data⟩ ⟨chainId', data'⟩ h
  obtain ⟨hseries, htotal, hserial⟩ := Edition.mk.inj h
  obtain ⟨hchain, hfingerprint⟩ := Prod.mk.inj hseries
  obtain ⟨hipfs, hzapper⟩ := SeriesFingerprint.mk.inj hfingerprint
  rw [Minted.mk.injEq, ZapData.mk.injEq]
  exact ⟨hchain, hipfs, hzapper, FixedBytes.toNat_injective htotal,
    FixedBytes.toNat_injective hserial⟩

/-- Zaps minted in one series carry the total on record. -/
theorem total_eq (h : Coherent P Z σ M) {m m' : Minted} (hm : m ∈ M) (hm' : m' ∈ M)
    (hseries : m.edition.series = m'.edition.series) : m.edition.total = m'.edition.total := by
  have hrecord := h.record_of_mem m hm
  rw [key_eq_of_series_eq hseries, h.record_of_mem m' hm'] at hrecord
  exact congrArg (FixedBytes.toNat ∘ SeriesPublication.seriesTotal) hrecord.symm

/-- **The minted zaps are the contents of a plain registry.** -/
theorem admissible (h : Coherent P Z σ M) : Edition.Admissible (M.map Minted.edition) where
  serial_lt e he := by
    obtain ⟨m, hm, rfl⟩ := List.mem_map.mp he
    exact FixedBytes.lt_iff_toNat_lt.mp (h.serial_lt m hm)
  pairwise := by
    have hnodup : (M.map (Minted.tokenId P Z)).Nodup := h.keys_eq ▸ σ.tokenOwners.nodup_keys
    refine List.pairwise_map.mpr ((List.pairwise_map.mp hnodup).imp_of_mem ?_)
    intro m m' hm hm' hid hseries
    have htotal := h.total_eq hm hm' hseries
    refine ⟨htotal, fun hserial => hid ?_⟩
    have hedition : m.edition = m'.edition := by
      rw [Edition.mk.injEq]
      exact ⟨hseries, htotal, hserial⟩
    rw [edition_injective hedition]

/-- **`_mint` decides as a plain registry would.**  The record and the ledger let a zap pass
exactly when the registry of the zaps minted so far takes it. -/
theorem admits_iff (h : Coherent P Z σ M) {m : Minted}
    (hkey : ∀ m' ∈ M, m'.key P Z = m.key P Z → m'.edition.series = m.edition.series)
    (hid : σ.RecordAllows (m.key P Z) m.data → m.data.serialNumber < m.data.seriesTotal →
      ∀ m' ∈ M, m'.tokenId P Z = m.tokenId P Z → m' = m) :
    (σ.RecordAllows (m.key P Z) m.data ∧ m.data.serialNumber < m.data.seriesTotal ∧
      ¬ σ.Exists (m.tokenId P Z)) ↔ Edition.Admits (M.map Minted.edition) m.edition := by
  constructor
  · rintro ⟨hrecord, hserial, hnew⟩
    refine ⟨FixedBytes.lt_iff_toNat_lt.mp hserial, fun e he hseries => ?_⟩
    obtain ⟨m', hm', rfl⟩ := List.mem_map.mp he
    have hrecord' := h.record_of_mem m' hm'
    rw [key_eq_of_series_eq hseries] at hrecord'
    unfold State.RecordAllows at hrecord
    rw [hrecord'] at hrecord
    have htotal : m'.edition.total = m.edition.total :=
      congrArg FixedBytes.toNat (hrecord.resolve_left (h.seriesTotal_ne_zero hm'))
    refine ⟨htotal, fun hserial' => hnew (h.exists_iff.mpr ⟨m', hm', ?_⟩)⟩
    have hedition : m'.edition = m.edition := by
      rw [Edition.mk.injEq]
      exact ⟨hseries, htotal, hserial'⟩
    rw [edition_injective hedition]
  · rintro ⟨hserial, hcompatible⟩
    have hlt := FixedBytes.lt_iff_toNat_lt.mpr hserial
    have hrecord : σ.RecordAllows (m.key P Z) m.data := by
      refine or_iff_not_imp_left.mpr ?_
      intro htotal
      obtain ⟨m', hm', hkey', hrecord'⟩ :=
        h.exists_of_record (m.key P Z) (mt h.record_eq_zero_iff.mp htotal)
      have hcompatible' := hcompatible _ (List.mem_map_of_mem hm') (hkey m' hm' hkey')
      rw [hrecord']
      exact FixedBytes.toNat_injective hcompatible'.1
    refine ⟨hrecord, hlt, fun hexists => ?_⟩
    obtain ⟨m', hm', hid'⟩ := h.exists_iff.mp hexists
    obtain rfl := hid hrecord hlt m' hm' hid'
    exact (hcompatible _ (List.mem_map_of_mem hm') rfl).2 rfl

/-- A coherent table is the table of its zaps. -/
theorem record_eq (h : Coherent P Z σ M) (k : Bytes32) : σ.seriesPublications k =
    ((M.find? fun m => m.key P Z = k).map fun m => m.data.publication).getD 0 := by
  cases hm : M.find? fun m => m.key P Z = k with
  | some m =>
    have hkey : m.key P Z = k := by simpa using List.find?_some hm
    rw [← hkey]
    exact h.record_of_mem m (List.mem_of_find?_eq_some hm)
  | none =>
    by_contra hne
    obtain ⟨m, hmem, hkey, -⟩ := h.exists_of_record k hne
    exact absurd hkey (by simpa using List.find?_eq_none.mp hm m hmem)

theorem effect {token : ERC721} {events : List ERC721.Event} (h : Coherent P Z σ M)
    (heffect : ERC721.Effect σ.toERC721 token events) :
    Coherent P Z { σ with toERC721 := token } M :=
  ⟨h.toRecorded.effect heffect, h.record_of_mem⟩

end Coherent

/-! ## Runs keep both -/

theorem minted_concat {log : List Commit} {k : Commit} :
    minted (log ++ [k]) = minted log ++ (mintOf k).toList := by
  unfold minted
  rw [List.filterMap_append]
  cases h : mintOf k with
  | none => simp [h]
  | some m => simp [h]

/-- The zap a mint step mints. -/
theorem mintOf_eq_some {data : ZapData} (hdata : c.zapData σ.owner = some data) :
    mintOf ⟨c, σ, σ', es⟩ = some ⟨c.chainId, data⟩ := by
  unfold mintOf
  rw [hdata]
  rfl

theorem mintOf_eq_none (hdata : c.zapData σ.owner = none) : mintOf ⟨c, σ, σ', es⟩ = none := by
  unfold mintOf
  rw [hdata]
  rfl

theorem Recorded.step (h : Recorded P Z σ M) (hstep : Step P Z c σ σ' es) :
    Recorded P Z σ' (M ++ (mintOf ⟨c, σ, σ', es⟩).toList) := by
  cases hstep with
  | mint data hdata hauth hrecord hserial hzapper hnew =>
    rw [mintOf_eq_some hdata]
    exact h.mint (m := ⟨c.chainId, data⟩) hserial hzapper hnew
  | token token events hop heffect =>
    rw [mintOf_eq_none (zapData_eq_none_of_onLedger hop), Option.toList_none, List.append_nil]
    exact h.effect heffect
  | ownership newOwner hsender hop =>
    rw [mintOf_eq_none (zapData_eq_none_of_ownership hop), Option.toList_none, List.append_nil]
    exact ⟨h.wellFormed, h.keys_eq, h.serial_lt, h.zapper_ne_zero, h.exists_of_record⟩

theorem Coherent.step (h : Coherent P Z σ M) (hstep : Step P Z c σ σ' es)
    (hkey : ∀ m, mintOf ⟨c, σ, σ', es⟩ = some m → ∀ m' ∈ M, m'.key P Z = m.key P Z →
      m'.edition.series = m.edition.series) :
    Coherent P Z σ' (M ++ (mintOf ⟨c, σ, σ', es⟩).toList) := by
  cases hstep with
  | mint data hdata hauth hrecord hserial hzapper hnew =>
    rw [mintOf_eq_some hdata]
    refine h.mint (m := ⟨c.chainId, data⟩) hserial hzapper hnew hrecord ?_
    intro m' hm' heq
    exact (Prod.mk.inj (hkey _ (mintOf_eq_some hdata) m' hm' heq)).2
  | token token events hop heffect =>
    rw [mintOf_eq_none (zapData_eq_none_of_onLedger hop), Option.toList_none, List.append_nil]
    exact h.effect heffect
  | ownership newOwner hsender hop =>
    have hrecorded := h.toRecorded.step (Step.ownership (P := P) (Z := Z) newOwner hsender hop)
    rw [mintOf_eq_none (zapData_eq_none_of_ownership hop), Option.toList_none,
      List.append_nil] at hrecorded ⊢
    exact ⟨hrecorded, h.record_of_mem⟩

/-- What the log entry of a mint says about the call and the states around it. -/
structure MintedBy (P : Primitives) (Z : Deployed) (k : Commit) (m : Minted) : Prop where
  chainId_eq : k.call.chainId = m.chainId
  zapData_eq : k.call.zapData k.pre.owner = some m.data
  authenticated : k.call.Authenticated P Z k.pre.owner
  recordAllows : k.pre.RecordAllows (m.key P Z) m.data
  serial_lt : m.data.serialNumber < m.data.seriesTotal
  zapper_ne_zero : m.data.zapper ≠ 0
  not_exists : ¬ k.pre.Exists (m.tokenId P Z)
  post_eq : k.post = k.pre.afterMint (m.key P Z) (m.tokenId P Z) m.data
  events_eq : k.events = k.pre.mintEvents (m.key P Z) (m.tokenId P Z) m.data

theorem mintedBy_of_mintOf {k : Commit}
    (hx : (exec P Z k.call k.pre).outcome = .ok (k.post, k.events)) (hm : mintOf k = some m) :
    MintedBy P Z k m := by
  obtain ⟨data, hdata, rfl⟩ := Option.map_eq_some_iff.mp hm
  obtain ⟨hauth, hmint⟩ := (outcome_exec_mint hdata).mp hx
  obtain ⟨hrecord, hserial, hzapper, hnew, heq⟩ := outcome_mint_eq_ok.mp hmint
  obtain ⟨hpost, hevents⟩ := Prod.mk.inj heq
  exact ⟨rfl, hdata, hauth, hrecord, hserial, hzapper, hnew, hpost.symm, hevents.symm⟩

/-- A successful mint has hashed the strings of its zap. -/
theorem MintedBy.strings_subset_hashed {k : Commit} (h : MintedBy P Z k m) :
    m.strings P Z ⊆ (exec P Z k.call k.pre).hashed := by
  obtain ⟨chainId, data⟩ := m
  obtain rfl : k.call.chainId = chainId := h.chainId_eq
  refine List.Subset.trans ?_
    (strings_subset_hashed_exec h.zapData_eq h.authenticated h.recordAllows h.serial_lt)
  exact List.subset_append_right _ _

end Invariant

section Runs

variable {P : Primitives} {D : Deployment} {calls calls' : List Call}

theorem run_append : run P D (calls ++ calls') =
    (run P D calls).run (exec P (D.code P).value) calls' := World.run_append

theorem run_concat {c : Call} : run P D (calls ++ [c]) =
    (run P D calls).attempt (exec P (D.code P).value) c := World.run_concat

theorem run_append_cons {c : Call} : run P D (calls ++ c :: calls') =
    (run P D (calls ++ [c])).run (exec P (D.code P).value) calls' := by
  rw [List.append_cons]
  exact run_append

/-- What a run has hashed, a longer run has hashed. -/
theorem hashed_subset_run_append : (run P D calls).hashed ⊆ (run P D (calls ++ calls')).hashed := by
  rw [run_append]
  exact World.hashed_subset_run

/-- The strings hashed at deployment are among those of the run. -/
theorem code_hashed_subset_run : (D.code P).hashed ⊆ (run P D calls).hashed :=
  World.hashed_subset_run (w := deployed P D)

/-- What a run has hashed up to and including one of its calls. -/
theorem hashed_subset_run_append_cons {c : Call} :
    (run P D calls).hashed ++ (exec P (D.code P).value c (run P D calls).state).hashed ⊆
      (run P D (calls ++ c :: calls')).hashed := by
  rw [run_append_cons, run_concat, ← World.hashed_attempt]
  exact World.hashed_subset_run

/-- What a call has hashed, the run it is part of has hashed. -/
theorem hashed_exec_subset_run {c : Call} :
    (exec P (D.code P).value c (run P D calls).state).hashed ⊆
      (run P D (calls ++ c :: calls')).hashed :=
  List.Subset.trans (List.subset_append_right _ _) hashed_subset_run_append_cons

/-- Every entry of the log has its call. -/
theorem exists_split_run {l₁ l₂ : List Commit} {k : Commit}
    (h : (run P D calls).log = l₁ ++ k :: l₂) :
    ∃ before after, calls = before ++ k.call :: after ∧ (run P D before).log = l₁ ∧
      (run P D before).state = k.pre ∧
      (exec P (D.code P).value k.call k.pre).outcome = .ok (k.post, k.events) :=
  World.exists_split h

/-- **Every run records its mints.** -/
theorem recorded_run :
    Recorded P (D.code P).value (run P D calls).state (minted (run P D calls).log) := by
  refine World.log_induction (Q := fun _ => True)
    (I := fun σ log => Recorded P (D.code P).value σ (minted log)) ?_ (fun _ _ => trivial)
    (coherent_genesis D).toRecorded
  intro before c post events _ hx hI
  rw [minted_concat]
  exact hI.step (step_of_exec hx)

/-- The strings of the zaps minted so far have been hashed. -/
theorem strings_subset_run {m : Minted} (hm : m ∈ minted (run P D calls).log) :
    m.strings P (D.code P).value ⊆ (run P D calls).hashed := by
  revert m
  refine World.run_induction (Q := fun _ => True)
    (I := fun w => ∀ {m}, m ∈ minted w.log → m.strings P (D.code P).value ⊆ w.hashed)
    (fun before c _ hI m hm => ?_) (fun _ _ => trivial) (fun hm => absurd hm List.not_mem_nil)
  rw [World.hashed_attempt]
  rcases World.attempt_cases _ (World.run (exec P (D.code P).value) (deployed P D) before) c with
    ⟨post, events, hx, heq⟩ | ⟨-, heq⟩
  · rw [heq, minted_concat, List.mem_append, Option.mem_toList] at hm
    rcases hm with hm | hm
    · exact List.subset_append_of_subset_left _ (hI hm)
    · exact List.subset_append_of_subset_right _ (mintedBy_of_mintOf hx hm).strings_subset_hashed
  · rw [heq] at hm
    exact List.subset_append_of_subset_left _ (hI hm)

theorem keyStrings_subset_run {m : Minted} (hm : m ∈ minted (run P D calls).log) :
    m.keyStrings P (D.code P).value ⊆ (run P D calls).hashed :=
  List.Subset.trans (List.subset_append_left _ _) (strings_subset_run hm)

theorem idStrings_subset_run {m : Minted} (hm : m ∈ minted (run P D calls).log) :
    m.idStrings P (D.code P).value ⊆ (run P D calls).hashed :=
  List.Subset.trans (List.subset_append_right _ _) (strings_subset_run hm)

/-- What all calls of a run have in common, the mints have in common. -/
theorem chainId_of_mem_minted {Q : Uint256 → Prop} (hQ : ∀ c ∈ calls, Q c.chainId) {m : Minted}
    (hm : m ∈ minted (run P D calls).log) : Q m.chainId := by
  revert m
  refine World.log_induction (Q := fun c => Q c.chainId)
    (I := fun _ log => ∀ {m}, m ∈ minted log → Q m.chainId) ?_ hQ
    (fun hm => absurd hm List.not_mem_nil)
  intro before c post events hc hx hI m hm
  rw [minted_concat, List.mem_append, Option.mem_toList] at hm
  rcases hm with hm | hm
  · exact hI hm
  · obtain ⟨data, -, rfl⟩ := Option.map_eq_some_iff.mp hm
    exact hc

/-- The log of a run that goes on extends the log. -/
theorem minted_prefix_run :
    minted (run P D calls).log <+: minted (run P D (calls ++ calls')).log := by
  rw [run_append]
  exact World.log_prefix_run.filterMap _

/-- Without collisions a successful mint does not use the key of another series. -/
theorem series_eq_of_key_eq_run {k : Commit} {m m' : Minted}
    (hK : CollisionFree P.keccak256 ((run P D calls).hashed ++
      (exec P (D.code P).value k.call k.pre).hashed))
    (hx : (exec P (D.code P).value k.call k.pre).outcome = .ok (k.post, k.events))
    (hm : mintOf k = some m) (hm' : m' ∈ minted (run P D calls).log)
    (hkey : m'.key P (D.code P).value = m.key P (D.code P).value) :
    m'.edition.series = m.edition.series := by
  refine Minted.series_eq_of_key_eq hK ?_ ?_ ?_ hkey
  · exact List.subset_append_of_subset_left _ code_hashed_subset_run
  · exact List.subset_append_of_subset_left _ (keyStrings_subset_run hm')
  · refine List.subset_append_of_subset_right _
      (List.Subset.trans ?_ (mintedBy_of_mintOf hx hm).strings_subset_hashed)
    exact List.subset_append_left _ _

/-- **Without collisions in the run the table is coherent**, under any succession of chain
ids. -/
theorem coherent_run (hK : CollisionFree P.keccak256 (run P D calls).hashed) :
    Coherent P (D.code P).value (run P D calls).state (minted (run P D calls).log) := by
  refine World.log_induction_of_collisionFree
    (I := fun σ log => Coherent P (D.code P).value σ (minted log)) ?_ hK (coherent_genesis D)
  intro before c post events hK hx hI
  rw [minted_concat]
  refine hI.step (step_of_exec hx) ?_
  intro m hm m' hm' hkey
  exact series_eq_of_key_eq_run hK hx hm hm' hkey

end Runs

/-! ## A sample run

The deployer hands the contract over to the zapper, who mints two zaps of the example
series, with serial numbers 42 and 43.
-/

namespace Sample

/-- The deployer makes the zapper the owner. -/
def handover : Call := ⟨420, deployer, .transferOwnership zapper⟩

/-- The zapper, being the owner, mints an example zap for himself. -/
def mint (chainId : Uint256) (serialNumber : ℕ) : Call where
  chainId := chainId
  msgSender := zapper
  op := .mintByOwnerForOwner (data serialNumber).ipfsHash (data serialNumber).seriesTotal
    (data serialNumber).serialNumber

/-- The token of the example zap with serial number 42. -/
def token42 : Uint256 := 0x2896EE46FD494B4DFFB294B11E5808973B032CC0A1D88CF07EDE3D4468502E96

/-- The token of the example zap with serial number 43. -/
def token43 : Uint256 := 0xFD9C8E3451C97AA792E18DF713383A035B602516FB49FCB74C46727D87F6CCDB

theorem collisionFree_run : CollisionFree primitives.keccak256
    (run primitives deployment [handover, mint 420 42, mint 420 43]).hashed := by
  refine collisionFree ?_
  rw [primitives_eq]
  decide +kernel

theorem owner_run :
    (run primitives deployment [handover, mint 420 42]).state.owner = zapper := by
  rw [primitives_eq]
  decide +kernel

variable {Z : Deployed} {k : Uint256} {n : ℕ} {owner : Address}

theorem zapData_mint (h : owner = zapper) : (mint k n).zapData owner = some (data n) :=
  h ▸ rfl

theorem authenticated_mint (h : owner = zapper) :
    (mint k n).Authenticated primitives Z owner :=
  fun _ _ => ⟨fun _ => h, fun _ hp => absurd hp List.not_mem_nil⟩

end Sample

end Zap
end OptimismZap
