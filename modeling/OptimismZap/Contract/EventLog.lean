import OptimismZap.Contract.History

/-!
# The event log

A successful mint emits `Publish` when it finds the record of its series empty,
and `Mint` in any case; nothing else emits either.  So the `Mint` events of a run
are the zaps minted in it (`zapsOf_events_run`), and its `Publish` events belong
to the mints that wrote a record (`published`, `publicationsOf_events_run`).
`Publishing` says which these are: exactly one for every series, counting a
series once for every chain id it was minted under.

On one chain the log alone therefore determines the table and the tokens
(`accounted_run`): an observer who has the events has the state.
-/

namespace OptimismZap
namespace Zap

/-! ## Reading events -/

/-- The publication a `Publish` event announces. -/
def Event.published? : Event → Option SeriesPublication
  | .publish ipfsHash zapper seriesTotal => some ⟨ipfsHash, zapper, seriesTotal⟩
  | _ => none

/-- The zap a `Mint` event announces. -/
def Event.minted? : Event → Option ZapData
  | .mint ipfsHash zapper seriesTotal numInSeries =>
    some ⟨ipfsHash, zapper, seriesTotal, numInSeries⟩
  | _ => none

/-- The publications announced by a sequence of events. -/
def publicationsOf (es : List Event) : List SeriesPublication := es.filterMap Event.published?

/-- The zaps announced by a sequence of events. -/
def zapsOf (es : List Event) : List ZapData := es.filterMap Event.minted?

/-- The fingerprint of a publication. -/
def SeriesPublication.fingerprint (publication : SeriesPublication) : SeriesFingerprint :=
  ⟨publication.ipfsHash, publication.zapper⟩

/-- The zap whose mint wrote the record of its series, if the call is such a mint. -/
def publishOf (P : Primitives) (Z : Deployed) (k : Commit) : Option Minted :=
  (mintOf k).filter fun m => (k.pre.seriesPublications (m.key P Z)).seriesTotal = 0

/-- The zaps whose mints wrote the records of their series. -/
def published (P : Primitives) (Z : Deployed) (log : List Commit) : List Minted :=
  log.filterMap (publishOf P Z)

section Step

variable {P : Primitives} {Z : Deployed} {c : Call} {σ σ' : State} {es es' : List Event}

theorem publicationsOf_append :
    publicationsOf (es ++ es') = publicationsOf es ++ publicationsOf es' := List.filterMap_append

theorem zapsOf_append : zapsOf (es ++ es') = zapsOf es ++ zapsOf es' := List.filterMap_append

theorem publicationsOf_token {ts : List ERC721.Event} :
    publicationsOf (ts.map Event.token) = [] := by
  unfold publicationsOf
  rw [List.filterMap_map, List.filterMap_eq_nil_iff]
  exact fun _ _ => rfl

theorem zapsOf_token {ts : List ERC721.Event} : zapsOf (ts.map Event.token) = [] := by
  unfold zapsOf
  rw [List.filterMap_map, List.filterMap_eq_nil_iff]
  exact fun _ _ => rfl

/-- A call announces the zap it minted, and no other. -/
theorem zapsOf_step (hstep : Step P Z c σ σ' es) :
    zapsOf es = (mintOf ⟨c, σ, σ', es⟩).toList.map Minted.data := by
  cases hstep with
  | mint data hdata =>
    rw [mintOf_eq_some hdata, State.mintEvents]
    split <;> rfl
  | token token events hop =>
    rw [mintOf_eq_none (zapData_eq_none_of_onLedger hop)]
    exact zapsOf_token
  | ownership newOwner hsender hop =>
    rw [mintOf_eq_none (zapData_eq_none_of_ownership hop)]
    rfl

/-- A call announces a publication exactly when it wrote the record. -/
theorem publicationsOf_step (hstep : Step P Z c σ σ' es) : publicationsOf es =
    (publishOf P Z ⟨c, σ, σ', es⟩).toList.map fun m => m.data.publication := by
  cases hstep with
  | mint data hdata =>
    unfold publishOf
    rw [mintOf_eq_some hdata, State.mintEvents, Option.filter_some]
    by_cases hrecord : (σ.seriesPublications
        (seriesKey P Z c.chainId data.fingerprint)).seriesTotal = 0
    · rw [if_pos hrecord, if_pos (decide_eq_true hrecord)]
      rfl
    · rw [if_neg hrecord, if_neg (by simpa using hrecord)]
      rfl
  | token token events hop =>
    unfold publishOf
    rw [mintOf_eq_none (zapData_eq_none_of_onLedger hop)]
    exact publicationsOf_token
  | ownership newOwner hsender hop =>
    unfold publishOf
    rw [mintOf_eq_none (zapData_eq_none_of_ownership hop)]
    rfl

end Step

section Runs

variable {P : Primitives} {D : Deployment} {calls later : List Call}

theorem events_concat {log : List Commit} {k : Commit} :
    events (log ++ [k]) = events log ++ k.events := by
  unfold events
  rw [List.flatMap_append, List.flatMap_singleton]

theorem published_concat {Z : Deployed} {log : List Commit} {k : Commit} :
    published P Z (log ++ [k]) = published P Z log ++ (publishOf P Z k).toList := by
  unfold published
  rw [List.filterMap_append]
  cases h : publishOf P Z k with
  | none => simp [h]
  | some m => simp [h]

/-- **The `Mint` events of a run are the zaps minted in it.** -/
theorem zapsOf_events_run :
    zapsOf (events (run P D calls).log) = (minted (run P D calls).log).map Minted.data := by
  refine World.log_induction (Q := fun _ => True)
    (I := fun _ log => zapsOf (events log) = (minted log).map Minted.data) ?_
    (fun _ _ => trivial) rfl
  intro before c post es _ hx hI
  rw [events_concat, zapsOf_append, hI, zapsOf_step (step_of_exec hx), minted_concat,
    List.map_append]

/-- **The `Publish` events of a run are those of the mints that wrote a record.** -/
theorem publicationsOf_events_run : publicationsOf (events (run P D calls).log) =
    (published P (D.code P).value (run P D calls).log).map fun m => m.data.publication := by
  refine World.log_induction (Q := fun _ => True)
    (I := fun _ log => publicationsOf (events log) =
      (published P (D.code P).value log).map fun m => m.data.publication) ?_
    (fun _ _ => trivial) rfl
  intro before c post es _ hx hI
  rw [events_concat, publicationsOf_append, hI, publicationsOf_step (step_of_exec hx),
    published_concat, List.map_append]

/-! ## One publication for every series -/

/-- `N` picks one zap of `M` for every series of `M`. -/
structure Publishing (M N : List Minted) : Prop where
  subset : N ⊆ M
  nodup_series : (N.map fun m => m.edition.series).Nodup
  exists_of_mem : ∀ m ∈ M, ∃ n ∈ N, n.edition.series = m.edition.series

/-- A zap of a new series has to be picked. -/
theorem Publishing.concat_new {M N : List Minted} {m : Minted} (h : Publishing M N)
    (hnew : ∀ m' ∈ M, m'.edition.series ≠ m.edition.series) :
    Publishing (M ++ [m]) (N ++ [m]) where
  subset := List.append_subset.mpr
    ⟨List.subset_append_of_subset_left _ h.subset, List.subset_append_right _ _⟩
  nodup_series := by
    rw [List.map_append, List.nodup_append]
    refine ⟨h.nodup_series, List.nodup_singleton _, ?_⟩
    rintro s hs s' hs' rfl
    obtain ⟨n, hn, hns⟩ := List.mem_map.mp hs
    rw [List.map_singleton, List.mem_singleton] at hs'
    exact hnew n (h.subset hn) (hns.trans hs')
  exists_of_mem m' hm' := by
    rcases List.mem_append.mp hm' with hm' | hm'
    · obtain ⟨n, hn, hseries⟩ := h.exists_of_mem m' hm'
      exact ⟨n, List.mem_append_left _ hn, hseries⟩
    · rw [List.mem_singleton.mp hm']
      exact ⟨m, List.mem_append_right _ (List.mem_singleton_self m), rfl⟩

/-- A zap of an old series is not picked. -/
theorem Publishing.concat_old {M N : List Minted} {m m₀ : Minted} (h : Publishing M N)
    (hm₀ : m₀ ∈ M) (hseries : m₀.edition.series = m.edition.series) :
    Publishing (M ++ [m]) N where
  subset := List.subset_append_of_subset_left _ h.subset
  nodup_series := h.nodup_series
  exists_of_mem := List.forall_mem_append.mpr
    ⟨h.exists_of_mem, List.forall_mem_singleton.mpr (hseries ▸ h.exists_of_mem m₀ hm₀)⟩

/-- The mint that finds the record empty is the first of its series, and conversely. -/
theorem Publishing.step {Z : Deployed} {c : Call} {σ σ' : State} {es : List Event}
    {M N : List Minted} (h : Publishing M N) (hcoherent : Coherent P Z σ M)
    (hkey : ∀ m, mintOf ⟨c, σ, σ', es⟩ = some m → ∀ m' ∈ M, m'.key P Z = m.key P Z →
      m'.edition.series = m.edition.series) :
    Publishing (M ++ (mintOf ⟨c, σ, σ', es⟩).toList)
      (N ++ (publishOf P Z ⟨c, σ, σ', es⟩).toList) := by
  cases hmint : mintOf ⟨c, σ, σ', es⟩ with
  | none =>
    unfold publishOf
    rw [hmint, Option.filter_none, Option.toList_none, List.append_nil, List.append_nil]
    exact h
  | some m =>
    unfold publishOf
    rw [hmint, Option.filter_some, Option.toList_some]
    by_cases hempty : (σ.seriesPublications (m.key P Z)).seriesTotal = 0
    · rw [if_pos (decide_eq_true hempty), Option.toList_some]
      refine h.concat_new fun m' hm' hseries => hcoherent.seriesTotal_ne_zero hm' ?_
      rw [← Coherent.key_eq_of_series_eq hseries, hcoherent.record_of_mem m' hm'] at hempty
      exact hempty
    · rw [if_neg (by simpa using hempty), Option.toList_none, List.append_nil]
      obtain ⟨m₀, hm₀, hkey₀, -⟩ :=
        hcoherent.exists_of_record _ (mt hcoherent.record_eq_zero_iff.mp hempty)
      exact h.concat_old hm₀ (hkey m hmint m₀ hm₀ hkey₀)

/-- **Every series is published once**, by the first mint of it. -/
theorem publishing_run (hK : CollisionFree P.keccak256 (run P D calls).hashed) :
    Publishing (minted (run P D calls).log) (published P (D.code P).value (run P D calls).log) := by
  refine World.log_induction_of_collisionFree
    (I := fun _ log => Publishing (minted log) (published P (D.code P).value log)) ?_ hK
    ⟨List.nil_subset _, List.nodup_nil, fun _ hm => absurd hm List.not_mem_nil⟩
  intro before c post es hK hx hI
  have hcoherent := coherent_run (P := P) (D := D) hK.append_left
  rw [minted_concat, published_concat]
  refine hI.step hcoherent ?_
  intro m hm m' hm' hkey
  exact series_eq_of_key_eq_run hK hx hm hm' hkey

/-! ## The log determines the state -/

/-- What the event log says about the state, on chain `k`. -/
structure Accounted (P : Primitives) (Z : Deployed) (k : Uint256) (w : World) : Prop where
  record_of_publish : ∀ p ∈ publicationsOf (events w.log),
    w.state.seriesPublications (seriesKey P Z k p.fingerprint) = p ∧ p ≠ 0
  publish_of_record : ∀ key, w.state.seriesPublications key ≠ 0 →
    ∃ p ∈ publicationsOf (events w.log), seriesKey P Z k p.fingerprint = key ∧
      w.state.seriesPublications key = p
  nodup_publish : (publicationsOf (events w.log)).Nodup
  publish_before_mint : ∀ es₁ (data : ZapData) es₂,
    events w.log = es₁ ++ .mint data.ipfsHash data.zapper data.seriesTotal
      data.serialNumber :: es₂ → data.publication ∈ publicationsOf es₁
  publish_with_first_mint : ∀ l₁ c l₂ p, w.log = l₁ ++ c :: l₂ → p ∈ publicationsOf c.events →
    (∃ data ∈ zapsOf c.events, data.publication = p) ∧
      ∀ data ∈ zapsOf (events l₁), data.fingerprint ≠ p.fingerprint
  exists_iff : ∀ id, w.state.Exists id ↔ ∃ data ∈ zapsOf (events w.log), tokenId P Z k data = id
  nodup_ids : ((zapsOf (events w.log)).map (tokenId P Z k)).Nodup
  totalSupply_eq : w.state.totalSupply = (zapsOf (events w.log)).length
  tokenByIndex_eq : ∀ index data, (zapsOf (events w.log))[index]? = some data →
    (w.state.tokenByIndex index).outcome = .ok (tokenId P Z k data)

/-- On one chain the ids of the tokens are those of the `Mint` events. -/
theorem keys_eq_map_zapsOf {k : Uint256} (hchain : ∀ c ∈ calls, c.chainId = k) :
    (run P D calls).state.tokenOwners.keys =
      (zapsOf (events (run P D calls).log)).map (tokenId P (D.code P).value k) := by
  rw [recorded_run.keys_eq, zapsOf_events_run, List.map_map]
  refine List.map_congr_left ?_
  intro m hm
  rw [Function.comp_apply, Minted.tokenId, chainId_of_mem_minted (Q := (· = k)) hchain hm]

/-- A mint finds its publication on file, or announces it. -/
theorem publication_mem_of_mint {k : Commit} {m : Minted}
    (hK : CollisionFree P.keccak256 ((run P D calls).hashed ++
      (exec P (D.code P).value k.call k.pre).hashed))
    (hpre : (run P D calls).state = k.pre)
    (hx : (exec P (D.code P).value k.call k.pre).outcome = .ok (k.post, k.events))
    (hm : mintOf k = some m) (hfull : (k.pre.seriesPublications
      (m.key P (D.code P).value)).seriesTotal ≠ 0) :
    m.data.publication ∈ publicationsOf (events (run P D calls).log) := by
  have h := coherent_run (P := P) (D := D) hK.append_left
  have hpublishing := publishing_run (P := P) (D := D) hK.append_left
  rw [← hpre] at hfull
  obtain ⟨m₀, hm₀, hkey₀, -⟩ := h.exists_of_record _ (mt h.record_eq_zero_iff.mp hfull)
  have hseries₀ := series_eq_of_key_eq_run hK hx hm hm₀ hkey₀
  obtain ⟨n, hn, hseries⟩ := hpublishing.exists_of_mem m₀ hm₀
  have hrecord := h.record_of_mem n (hpublishing.subset hn)
  rw [Coherent.key_eq_of_series_eq (hseries.trans hseries₀)] at hrecord
  -- the total on file is that of the new zap, since the mint went through
  have htotal : n.data.seriesTotal = m.data.seriesTotal := by
    have hallows := (mintedBy_of_mintOf hx hm).recordAllows
    rw [← hpre] at hallows
    exact (congrArg SeriesPublication.seriesTotal hrecord).symm.trans
      (hallows.resolve_left hfull)
  obtain ⟨hipfs, hzapper⟩ := SeriesFingerprint.mk.inj (Prod.mk.inj (hseries.trans hseries₀)).2
  rw [publicationsOf_events_run]
  refine List.mem_map.mpr ⟨n, hn, ?_⟩
  rw [SeriesPublication.mk.injEq]
  exact ⟨hipfs, hzapper, htotal⟩

/-- **No `Mint` without its `Publish`**, under any succession of chain ids. -/
theorem publish_before_mint_run (hK : CollisionFree P.keccak256 (run P D calls).hashed)
    {es₁ es₂ : List Event} {data : ZapData}
    (h : events (run P D calls).log = es₁ ++ .mint data.ipfsHash data.zapper data.seriesTotal
      data.serialNumber :: es₂) : data.publication ∈ publicationsOf es₁ := by
  obtain ⟨l₁, k, l₂, es, es', hlog, hevents, rfl⟩ := Commit.exists_of_events_split h
  obtain ⟨before, after, rfl, rfl, hpre, hx⟩ := exists_split_run hlog
  rw [publicationsOf_append, List.mem_append]
  have hzaps := zapsOf_step (step_of_exec hx)
  have hdata : data ∈ zapsOf k.events := by
    rw [hevents, zapsOf]
    exact List.mem_filterMap.mpr ⟨_, List.mem_append_right _ List.mem_cons_self, rfl⟩
  rw [hzaps, List.mem_map] at hdata
  obtain ⟨m, hm, rfl⟩ := hdata
  rw [Option.mem_toList] at hm
  by_cases hempty : (k.pre.seriesPublications (m.key P (D.code P).value)).seriesTotal = 0
  · -- the events of the call start with the `Publish`
    right
    have hmint := (mintedBy_of_mintOf hx hm).events_eq
    rw [hevents, State.mintEvents, if_pos hempty, List.singleton_append] at hmint
    cases es with
    | nil => exact absurd (List.cons.inj hmint).1 (by simp)
    | cons e es =>
      rw [(List.cons.inj hmint).1]
      exact List.mem_cons_self
  · left
    refine publication_mem_of_mint (hK.mono ?_) hpre hx hm hempty
    rw [← hpre]
    exact hashed_subset_run_append_cons

/-- **The `Publish` of a series comes with its first `Mint`**, on one chain. -/
theorem publish_with_first_mint_run {k : Uint256} (hchain : ∀ c ∈ calls, c.chainId = k)
    (hK : CollisionFree P.keccak256 (run P D calls).hashed) {l₁ l₂ : List Commit} {c : Commit}
    {p : SeriesPublication} (hlog : (run P D calls).log = l₁ ++ c :: l₂)
    (hp : p ∈ publicationsOf c.events) :
    (∃ data ∈ zapsOf c.events, data.publication = p) ∧
      ∀ data ∈ zapsOf (events l₁), data.fingerprint ≠ p.fingerprint := by
  obtain ⟨before, after, rfl, rfl, hpre, hx⟩ := exists_split_run hlog
  have h := coherent_run (P := P) (D := D) (hK.mono hashed_subset_run_append)
  rw [publicationsOf_step (step_of_exec hx), List.mem_map] at hp
  obtain ⟨m, hm, rfl⟩ := hp
  rw [Option.mem_toList, publishOf, Option.filter_eq_some_iff, decide_eq_true_iff] at hm
  obtain ⟨hm, hempty⟩ := hm
  refine ⟨⟨m.data, ?_, rfl⟩, fun data hdata hfingerprint => ?_⟩
  · rw [zapsOf_step (step_of_exec hx), hm]
    exact List.mem_singleton_self _
  · rw [zapsOf_events_run, List.mem_map] at hdata
    obtain ⟨m', hm', rfl⟩ := hdata
    have hk' : m'.chainId = k := chainId_of_mem_minted (Q := (· = k))
      (fun c' hc' => hchain c' (List.mem_append_left _ hc')) hm'
    have hk : m.chainId = k := by
      rw [← (mintedBy_of_mintOf hx hm).chainId_eq]
      exact hchain c.call (List.mem_append_right _ List.mem_cons_self)
    have hseries : m'.edition.series = m.edition.series :=
      Prod.ext (hk'.trans hk.symm) hfingerprint
    refine h.seriesTotal_ne_zero hm' ?_
    rw [← hpre, ← Coherent.key_eq_of_series_eq hseries, h.record_of_mem m' hm'] at hempty
    exact hempty

/-- **`tokenByIndex` enumerates the `Mint` events**, in the state after the run and in every
later one. -/
theorem tokenByIndex_run {k : Uint256} (hchain : ∀ c ∈ calls, c.chainId = k) {index : ℕ}
    {data : ZapData} (h : (zapsOf (events (run P D calls).log))[index]? = some data) :
    ((run P D (calls ++ later)).state.tokenByIndex index).outcome =
      .ok (tokenId P (D.code P).value k data) := by
  have hprefix : (run P D calls).state.tokenOwners.keys <+:
      (run P D (calls ++ later)).state.tokenOwners.keys := by
    rw [recorded_run.keys_eq, recorded_run.keys_eq]
    exact minted_prefix_run.map _
  obtain ⟨rest, hrest⟩ := hprefix
  have hindex : (run P D calls).state.tokenOwners.keys[index]? =
      some (tokenId P (D.code P).value k data) := by
    rw [keys_eq_map_zapsOf hchain, List.getElem?_map, h, Option.map_some]
  rw [ERC721.outcome_tokenByIndex_eq_ok, ← hrest,
    List.getElem?_append_left (List.getElem?_eq_some_iff.mp hindex).1]
  exact hindex

section OneChain

variable {k : Uint256} (hchain : ∀ c ∈ calls, c.chainId = k)
  (hK : CollisionFree P.keccak256 (run P D calls).hashed)

include hchain

/-- On one chain the key of a minted zap is the key of its publication. -/
theorem seriesKey_publication {m : Minted} (hm : m ∈ minted (run P D calls).log) :
    seriesKey P (D.code P).value k m.data.publication.fingerprint = m.key P (D.code P).value := by
  unfold Minted.key
  rw [chainId_of_mem_minted (Q := (· = k)) hchain hm]
  rfl

include hK

/-- The record of a series is the publication on the log. -/
theorem record_of_publish_run {p : SeriesPublication}
    (hp : p ∈ publicationsOf (events (run P D calls).log)) :
    (run P D calls).state.seriesPublications
      (seriesKey P (D.code P).value k p.fingerprint) = p ∧ p ≠ 0 := by
  have h := coherent_run hK
  rw [publicationsOf_events_run, List.mem_map] at hp
  obtain ⟨m, hm, rfl⟩ := hp
  have hm := (publishing_run hK).subset hm
  refine ⟨?_, fun hzero => h.seriesTotal_ne_zero hm ?_⟩
  · rw [seriesKey_publication hchain hm, h.record_of_mem m hm]
  · exact congrArg SeriesPublication.seriesTotal hzero

/-- A record that is not empty is a publication on the log. -/
theorem publish_of_record_run {key : Bytes32}
    (hrecord : (run P D calls).state.seriesPublications key ≠ 0) :
    ∃ p ∈ publicationsOf (events (run P D calls).log),
      seriesKey P (D.code P).value k p.fingerprint = key ∧
      (run P D calls).state.seriesPublications key = p := by
  have h := coherent_run hK
  obtain ⟨m, hm, rfl, -⟩ := h.exists_of_record key hrecord
  obtain ⟨n, hn, hseries⟩ := (publishing_run hK).exists_of_mem m hm
  have hn' := (publishing_run hK).subset hn
  refine ⟨n.data.publication, ?_, ?_, ?_⟩
  · rw [publicationsOf_events_run]
    exact List.mem_map_of_mem hn
  · rw [seriesKey_publication hchain hn', Coherent.key_eq_of_series_eq hseries]
  · rw [← Coherent.key_eq_of_series_eq hseries, h.record_of_mem n hn']

/-- The publications on the log can be read off the table. -/
theorem mem_publicationsOf_run_iff {p : SeriesPublication} :
    p ∈ publicationsOf (events (run P D calls).log) ↔
      p ≠ 0 ∧ (run P D calls).state.seriesPublications
        (seriesKey P (D.code P).value k p.fingerprint) = p := by
  constructor
  · intro hp
    exact (record_of_publish_run hchain hK hp).symm
  · rintro ⟨hne, hrecord⟩
    obtain ⟨p', hp', -, hrecord'⟩ := publish_of_record_run hchain hK (hrecord.trans_ne hne)
    rwa [← hrecord, hrecord']

/-- No publication is announced twice. -/
theorem nodup_publicationsOf_run : (publicationsOf (events (run P D calls).log)).Nodup := by
  have hpublishing := publishing_run hK
  rw [publicationsOf_events_run]
  refine List.pairwise_map.mpr ((List.pairwise_map.mp hpublishing.nodup_series).imp_of_mem ?_)
  intro m m' hm hm' hseries hpublication
  refine hseries (Prod.ext ?_ (congrArg SeriesPublication.fingerprint hpublication))
  exact (chainId_of_mem_minted (Q := (· = k)) hchain (hpublishing.subset hm)).trans
    (chainId_of_mem_minted (Q := (· = k)) hchain (hpublishing.subset hm')).symm

end OneChain

/-- **The event log determines the state.**  On one chain and without collisions, the log of
any run accounts for the table, the tokens and their order, and the order in which
`tokenByIndex` enumerates them is the same in every later state, on any chain. -/
theorem accounted_run {k : Uint256} (hchain : ∀ c ∈ calls, c.chainId = k)
    (hK : CollisionFree P.keccak256 (run P D calls).hashed) :
    Accounted P (D.code P).value k (run P D calls) ∧
    ∀ index data, (zapsOf (events (run P D calls).log))[index]? = some data →
      ((run P D (calls ++ later)).state.tokenByIndex index).outcome =
        .ok (tokenId P (D.code P).value k data) := by
  have hkeys := keys_eq_map_zapsOf hchain (P := P) (D := D)
  refine ⟨?_, fun index data hdata => tokenByIndex_run hchain hdata⟩
  constructor
  case record_of_publish => exact fun p hp => record_of_publish_run hchain hK hp
  case publish_of_record => exact fun key hrecord => publish_of_record_run hchain hK hrecord
  case nodup_publish => exact nodup_publicationsOf_run hchain hK
  case publish_before_mint => exact fun es₁ data es₂ => publish_before_mint_run hK
  case publish_with_first_mint =>
    exact fun l₁ c l₂ p hlog hp => publish_with_first_mint_run hchain hK hlog hp
  case exists_iff =>
    intro id
    rw [ERC721.Exists, hkeys, List.mem_map]
  case nodup_ids =>
    rw [← hkeys]
    exact EnumerableMap.nodup_keys _
  case totalSupply_eq =>
    rw [ERC721.totalSupply, EnumerableMap.length_eq, hkeys, List.length_map]
  case tokenByIndex_eq =>
    intro index data hdata
    rw [← List.append_nil calls]
    exact tokenByIndex_run hchain hdata

/-- The log of the sample run has one publication and two mints; it accounts for the state, and
the two tokens keep their positions when the chain id changes. -/
theorem sample_accounted :
    publicationsOf (events (run Sample.primitives Sample.deployment
      [Sample.handover, Sample.mint 420 42, Sample.mint 420 43]).log) =
        [(Sample.data 42).publication] ∧
    zapsOf (events (run Sample.primitives Sample.deployment
      [Sample.handover, Sample.mint 420 42, Sample.mint 420 43]).log) =
        [Sample.data 42, Sample.data 43] ∧
    Accounted Sample.primitives (Sample.deployment.code Sample.primitives).value 420
      (run Sample.primitives Sample.deployment
        [Sample.handover, Sample.mint 420 42, Sample.mint 420 43]) ∧
    ((run Sample.primitives Sample.deployment ([Sample.handover, Sample.mint 420 42,
      Sample.mint 420 43] ++ [Sample.mint 10 42])).state.tokenByIndex 0).outcome =
        .ok Sample.token42 ∧
    ((run Sample.primitives Sample.deployment ([Sample.handover, Sample.mint 420 42,
      Sample.mint 420 43] ++ [Sample.mint 10 42])).state.tokenByIndex 1).outcome =
        .ok Sample.token43 := by
  have hpublications : publicationsOf (events (run Sample.primitives Sample.deployment
      [Sample.handover, Sample.mint 420 42, Sample.mint 420 43]).log) =
        [(Sample.data 42).publication] := by
    rw [Sample.primitives_eq]
    decide +kernel
  have hzaps : zapsOf (events (run Sample.primitives Sample.deployment
      [Sample.handover, Sample.mint 420 42, Sample.mint 420 43]).log) =
        [Sample.data 42, Sample.data 43] := by
    rw [Sample.primitives_eq]
    decide +kernel
  have hids : tokenId Sample.primitives (Sample.deployment.code Sample.primitives).value 420
        (Sample.data 42) = Sample.token42 ∧
      tokenId Sample.primitives (Sample.deployment.code Sample.primitives).value 420
        (Sample.data 43) = Sample.token43 := by
    rw [Sample.primitives_eq]
    decide +kernel
  obtain ⟨haccounted, hindex⟩ := @accounted_run Sample.primitives Sample.deployment
    [Sample.handover, Sample.mint 420 42, Sample.mint 420 43] [Sample.mint 10 42] 420
    (by decide +kernel) Sample.collisionFree_run
  rw [hzaps] at hindex
  refine ⟨hpublications, hzaps, haccounted, ?_, ?_⟩
  · rw [← hids.1]
    exact hindex 0 _ rfl
  · rw [← hids.2]
    exact hindex 1 _ rfl

end Runs

end Zap
end OptimismZap
