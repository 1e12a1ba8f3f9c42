import OptimismZap.Contract.EventLog
import OptimismZap.Contract.Series

/-!
# Mints in any order

Independent parties send mints and cannot agree on an order.  They do not have
to.  A list of mints that pass their checks, do not contradict each other and do
not contradict what is on file goes through in every order, and the orders can
only be told apart by the positions in the enumerations (`mints_commute`).

The proof does not exchange neighbours.  The zaps of the list are admissible
copies next to those minted before, and admissibility does not depend on the
order, so by the registry criterion every call succeeds (`minted_run_mints`).
What the final state shows is then read off the set of minted zaps: the table by
coherence, the owners by `AfterMints`, and the balances by the owners.
-/

namespace OptimismZap
namespace Zap

/-- The zap a call mints if it succeeds, and its chain id. -/
def intended (owner : Address) (c : Call) : Option Minted :=
  (c.zapData owner).map (Minted.mk c.chainId)

/-- The call is a mint that passes its checks and names a proper zapper. -/
def Ready (P : Primitives) (Z : Deployed) (owner : Address) (c : Call) : Prop :=
  ∃ data, c.zapData owner = some data ∧ c.Authenticated P Z owner ∧ data.zapper ≠ 0

/-- The zap of a call fits what is on file: a serial number below the total that has not
been minted, and the total on record, if there is one. -/
structure Fits (P : Primitives) (Z : Deployed) (k : Uint256) (w : World) (data : ZapData) :
    Prop where
  serial_lt : data.serialNumber < data.seriesTotal
  not_minted : ∀ d ∈ mintedIn w.log data.fingerprint, d.serialNumber ≠ data.serialNumber
  total_eq : w.state.seriesPublications (seriesKey P Z k data.fingerprint) ≠ 0 →
    (w.state.seriesPublications (seriesKey P Z k data.fingerprint)).seriesTotal = data.seriesTotal

/-- A list of mints that pass their checks, fit what is on file, and fit each other: the
serial numbers in a series are distinct and the totals agree. -/
structure CompatibleMints (P : Primitives) (Z : Deployed) (k : Uint256) (w : World)
    (mints : List Call) : Prop where
  ready : ∀ c ∈ mints, Ready P Z w.state.owner c
  fits : ∀ c ∈ mints, ∀ data, c.zapData w.state.owner = some data → Fits P Z k w data
  pairwise : mints.Pairwise fun c c' => ∀ data data', c.zapData w.state.owner = some data →
    c'.zapData w.state.owner = some data' → data.fingerprint = data'.fingerprint →
      data.seriesTotal = data'.seriesTotal ∧ data.serialNumber ≠ data'.serialNumber

/-- What the two states show to a reader is the same. -/
structure SameView (σ σ' : State) : Prop where
  seriesPublications_eq : σ.seriesPublications = σ'.seriesPublications
  owner_eq : σ.owner = σ'.owner
  ownerOf_eq : ∀ id, (σ.ownerOf id).outcome = (σ'.ownerOf id).outcome
  getApproved_eq : ∀ id, (σ.getApproved id).outcome = (σ'.getApproved id).outcome
  balanceOf_eq : ∀ owner, (σ.balanceOf owner).outcome = (σ'.balanceOf owner).outcome
  totalSupply_eq : σ.totalSupply = σ'.totalSupply

/-! ## What a run of mints changes -/

/-- Between the two states nothing happened but mints of the zaps of `N`. -/
structure AfterMints (P : Primitives) (Z : Deployed) (σ σ' : State) (N : List Minted) :
    Prop where
  owner_eq : σ'.owner = σ.owner
  tokenApprovals_eq : σ'.tokenApprovals = σ.tokenApprovals
  lookup_iff : ∀ id owner, σ'.tokenOwners.lookup id = some owner ↔
    σ.tokenOwners.lookup id = some owner ∨ ∃ m ∈ N, m.tokenId P Z = id ∧ m.data.zapper = owner

section Mints

variable {P : Primitives} {Z : Deployed} {D : Deployment} {calls mints : List Call}
  {σ σ' : State} {N : List Minted} {m : Minted}

theorem afterMints_refl : AfterMints P Z σ σ [] := ⟨rfl, rfl, fun id owner => by simp⟩

theorem AfterMints.mint (h : AfterMints P Z σ σ' N) (hnew : ¬ σ'.Exists (m.tokenId P Z)) :
    AfterMints P Z σ (σ'.afterMint (m.key P Z) (m.tokenId P Z) m.data) (N ++ [m]) where
  owner_eq := h.owner_eq
  tokenApprovals_eq := h.tokenApprovals_eq
  lookup_iff id owner := by
    have hlookup : (σ'.toERC721.afterMint m.data.zapper (m.tokenId P Z)).tokenOwners.lookup id =
        some owner ↔ σ'.tokenOwners.lookup id = some owner ∨
          m.tokenId P Z = id ∧ m.data.zapper = owner := ERC721.lookup_afterMint_eq_some hnew
    unfold State.afterMint
    rw [hlookup, h.lookup_iff, or_assoc]
    refine or_congr_right ⟨?_, ?_⟩
    · rintro (⟨n, hn, hid⟩ | hid)
      · exact ⟨n, List.mem_append_left _ hn, hid⟩
      · exact ⟨m, List.mem_append_right _ (List.mem_singleton_self m), hid⟩
    · rintro ⟨n, hn, hid⟩
      rcases List.mem_append.mp hn with hn | hn
      · exact Or.inl ⟨n, hn, hid⟩
      · rw [List.mem_singleton.mp hn] at hid
        exact Or.inr hid

/-- **A run of mints changes owners as its mints say, and nothing else.**  Some of the mints
may fail. -/
theorem afterMints_run (hmints : ∀ c ∈ mints, ∃ data,
      c.zapData (run P D calls).state.owner = some data) :
    ∃ N, minted (run P D (calls ++ mints)).log = minted (run P D calls).log ++ N ∧
      AfterMints P (D.code P).value (run P D calls).state (run P D (calls ++ mints)).state N := by
  rw [run_append]
  refine World.log_induction
    (I := fun σ log => ∃ N, minted log = minted (run P D calls).log ++ N ∧
      AfterMints P (D.code P).value (run P D calls).state σ N)
    ?_ hmints ⟨[], by simp, afterMints_refl⟩
  rintro before c post events ⟨data, hdata⟩ hx ⟨N, hlog, hafter⟩
  rw [← hafter.owner_eq] at hdata
  have hm := mintedBy_of_mintOf hx (mintOf_eq_some hdata)
  refine ⟨N ++ [⟨c.chainId, data⟩], ?_, ?_⟩
  · rw [minted_concat, mintOf_eq_some hdata, hlog, List.append_assoc, Option.toList_some]
  · rw [show post = _ from hm.post_eq]
    exact hafter.mint hm.not_exists

theorem owner_run_mints (hmints : ∀ c ∈ mints, ∃ data,
      c.zapData (run P D calls).state.owner = some data) :
    (run P D (calls ++ mints)).state.owner = (run P D calls).state.owner := by
  obtain ⟨N, -, hafter⟩ := afterMints_run hmints
  exact hafter.owner_eq

/-- A run of mints that pass their checks hashes nothing but their strings. -/
theorem hashed_run_mints_subset {H : List Bytes} (hH : (run P D calls).hashed ⊆ H)
    (hmints : ∀ c ∈ mints, ∃ data, c.zapData (run P D calls).state.owner = some data ∧
      c.Authenticated P (D.code P).value (run P D calls).state.owner ∧
      c.strings P (D.code P).value (run P D calls).state.owner data ⊆ H) :
    (run P D (calls ++ mints)).hashed ⊆ H := by
  induction mints using List.reverseRecOn with
  | nil => rwa [List.append_nil]
  | append_singleton before c ih =>
    have hbefore := fun c' hc' => hmints c' (List.mem_append_left _ hc')
    obtain ⟨data, hdata, hauth, hstrings⟩ :=
      hmints c (List.mem_append_right _ (List.mem_singleton_self c))
    have howner : (run P D (calls ++ before)).state.owner = (run P D calls).state.owner :=
      owner_run_mints fun c' hc' => (hbefore c' hc').imp fun _ h => h.1
    rw [← List.append_assoc, run_concat, World.hashed_attempt]
    rw [← howner] at hdata hauth hstrings
    exact List.append_subset.mpr ⟨ih hbefore,
      List.Subset.trans (hashed_exec_subset_strings hdata hauth) hstrings⟩

/-! ## All of them go through -/

/-- **Admissible mints all succeed.** -/
theorem minted_run_mints
    (hready : ∀ c ∈ mints, Ready P (D.code P).value (run P D calls).state.owner c)
    (hadmissible : Edition.Admissible ((minted (run P D calls).log ++
      mints.filterMap (intended (run P D calls).state.owner)).map Minted.edition))
    (hK : CollisionFree P.keccak256 (run P D (calls ++ mints)).hashed) :
    minted (run P D (calls ++ mints)).log = minted (run P D calls).log ++
        mints.filterMap (intended (run P D calls).state.owner) ∧
      ∀ before c after, mints = before ++ c :: after →
        (exec P (D.code P).value c (run P D (calls ++ before)).state).Succeeds := by
  induction mints using List.reverseRecOn with
  | nil => exact ⟨by simp, fun before c after h => by simp at h⟩
  | append_singleton mints c ih =>
    rw [← List.append_assoc] at hK
    have hbefore := fun c' hc' => hready c' (List.mem_append_left _ hc')
    obtain ⟨data, hdata, hauth, hzapper⟩ :=
      hready c (List.mem_append_right _ (List.mem_singleton_self c))
    have hintended : intended (run P D calls).state.owner c = some ⟨c.chainId, data⟩ := by
      unfold intended
      rw [hdata]
      rfl
    rw [List.filterMap_append, List.filterMap_cons_some hintended, List.filterMap_nil,
      ← List.append_assoc, List.map_append, List.map_singleton,
      Edition.admissible_concat] at hadmissible
    obtain ⟨hlog, hsucceeds⟩ := ih hbefore hadmissible.1 (hK.mono hashed_subset_run_append)
    have howner : (run P D (calls ++ mints)).state.owner = (run P D calls).state.owner :=
      owner_run_mints fun c' hc' => (hbefore c' hc').imp fun _ h => h.1
    rw [← howner] at hdata hauth
    have hlast : (exec P (D.code P).value c (run P D (calls ++ mints)).state).Succeeds := by
      rw [succeeds_iff_admits hdata hauth hzapper hK, hlog]
      exact hadmissible.2
    refine ⟨?_, fun before c' after heq => ?_⟩
    · obtain ⟨⟨post, events⟩, hx⟩ := hlast
      rw [← List.append_assoc, run_concat, World.attempt_of_ok hx, minted_concat, hlog,
        mintOf_eq_some hdata, List.filterMap_append, List.filterMap_cons_some hintended,
        List.append_assoc]
      rfl
    · rcases List.eq_nil_or_concat after with rfl | ⟨after, c'', rfl⟩
      · obtain ⟨rfl, hc⟩ := List.append_inj' heq rfl
        obtain rfl := (List.cons.inj hc).1
        exact hlast
      · rw [List.concat_eq_append, ← List.cons_append, ← List.append_assoc] at heq
        exact hsucceeds before c' after (List.append_inj' heq rfl).1

/-- Compatible mints are admissible next to the zaps minted before. -/
theorem CompatibleMints.admissible {k : Uint256} (hchain : ∀ c ∈ calls ++ mints, c.chainId = k)
    (h : CompatibleMints P (D.code P).value k (run P D calls) mints)
    (hK : CollisionFree P.keccak256 (run P D calls).hashed) :
    Edition.Admissible ((minted (run P D calls).log ++
      mints.filterMap (intended (run P D calls).state.owner)).map Minted.edition) := by
  have hcoherent := coherent_run hK
  have hold : ∀ c ∈ calls, c.chainId = k := fun c hc => hchain c (List.mem_append_left _ hc)
  have hnew : ∀ c ∈ mints, c.chainId = k := fun c hc => hchain c (List.mem_append_right _ hc)
  have hintended : ∀ m ∈ mints.filterMap (intended (run P D calls).state.owner),
      m.chainId = k ∧ Fits P (D.code P).value k (run P D calls) m.data := by
    intro m hm
    obtain ⟨c, hc, hcm⟩ := List.mem_filterMap.mp hm
    obtain ⟨data, hdata, rfl⟩ := Option.map_eq_some_iff.mp hcm
    exact ⟨hnew c hc, h.fits c hc data hdata⟩
  constructor
  · intro e he
    obtain ⟨m, hm, rfl⟩ := List.mem_map.mp he
    rcases List.mem_append.mp hm with hm | hm
    · exact FixedBytes.lt_iff_toNat_lt.mp (hcoherent.serial_lt m hm)
    · exact FixedBytes.lt_iff_toNat_lt.mp (hintended m hm).2.serial_lt
  · rw [List.map_append, List.pairwise_append]
    refine ⟨hcoherent.admissible.pairwise, ?_, ?_⟩
    · rw [List.pairwise_map, List.pairwise_filterMap]
      refine h.pairwise.imp fun {c c'} hcc' m hm m' hm' hseries => ?_
      obtain ⟨data, hdata, rfl⟩ := Option.map_eq_some_iff.mp hm
      obtain ⟨data', hdata', rfl⟩ := Option.map_eq_some_iff.mp hm'
      obtain ⟨htotal, hserial⟩ := hcc' data data' hdata hdata' (Prod.mk.inj hseries).2
      exact ⟨congrArg FixedBytes.toNat htotal, fun heq => hserial (FixedBytes.toNat_injective heq)⟩
    · intro e he e' he' hseries
      obtain ⟨m, hm, rfl⟩ := List.mem_map.mp he
      obtain ⟨m', hm', rfl⟩ := List.mem_map.mp he'
      obtain ⟨hchain', hfits⟩ := hintended m' hm'
      obtain ⟨-, hfingerprint⟩ := Prod.mk.inj hseries
      have hmk : m.chainId = k := chainId_of_mem_minted (Q := (· = k)) hold hm
      constructor
      · -- the earlier zap has a record, and it is the one the new zap fits
        have hrecord := hcoherent.record_of_mem m hm
        unfold Minted.key at hrecord
        rw [hmk, hfingerprint] at hrecord
        have hne : (run P D calls).state.seriesPublications
            (seriesKey P (D.code P).value k m'.data.fingerprint) ≠ 0 := fun hzero =>
          hcoherent.seriesTotal_ne_zero hm
            (congrArg SeriesPublication.seriesTotal (hrecord.symm.trans hzero))
        have htotal := hfits.total_eq hne
        rw [hrecord] at htotal
        exact congrArg FixedBytes.toNat htotal
      · intro hserial
        refine hfits.not_minted m.data ((mem_mintedIn_iff hold).mpr ⟨?_, hfingerprint⟩)
          (FixedBytes.toNat_injective hserial)
        rwa [← hmk]

/-- A run of mints that all succeed has hashed all their strings. -/
theorem strings_subset_run_mints {c : Call} {data : ZapData}
    (hmints : ∀ c ∈ mints, ∃ data, c.zapData (run P D calls).state.owner = some data)
    (hsucceeds : ∀ before c after, mints = before ++ c :: after →
      (exec P (D.code P).value c (run P D (calls ++ before)).state).Succeeds)
    (hc : c ∈ mints) (hdata : c.zapData (run P D calls).state.owner = some data) :
    c.strings P (D.code P).value (run P D calls).state.owner data ⊆
      (run P D (calls ++ mints)).hashed := by
  obtain ⟨before, after, rfl⟩ := List.append_of_mem hc
  obtain ⟨⟨post, events⟩, hx⟩ := hsucceeds before c after rfl
  have howner : (run P D (calls ++ before)).state.owner = (run P D calls).state.owner :=
    owner_run_mints fun c' hc' => hmints c' (List.mem_append_left _ hc')
  rw [← howner] at hdata ⊢
  have hm := mintedBy_of_mintOf hx (mintOf_eq_some hdata)
  refine List.Subset.trans
    (strings_subset_hashed_exec hdata hm.authenticated hm.recordAllows hm.serial_lt) ?_
  rw [← List.append_assoc]
  exact hashed_exec_subset_run

/-- In every order of a list of compatible mints all of them succeed. -/
theorem CompatibleMints.run_perm {k : Uint256} {mints' : List Call}
    (hchain : ∀ c ∈ calls ++ mints, c.chainId = k)
    (h : CompatibleMints P (D.code P).value k (run P D calls) mints)
    (hK : CollisionFree P.keccak256 (run P D (calls ++ mints)).hashed)
    (hperm : mints.Perm mints') :
    CollisionFree P.keccak256 (run P D (calls ++ mints')).hashed ∧
      minted (run P D (calls ++ mints')).log = minted (run P D calls).log ++
        mints'.filterMap (intended (run P D calls).state.owner) ∧
      ∀ before c after, mints' = before ++ c :: after →
        (exec P (D.code P).value c (run P D (calls ++ before)).state).Succeeds := by
  have hadmissible := h.admissible hchain (hK.mono hashed_subset_run_append)
  have hsucceeds := (minted_run_mints h.ready hadmissible hK).2
  have hready : ∀ c ∈ mints', Ready P (D.code P).value (run P D calls).state.owner c :=
    fun c hc => h.ready c (hperm.mem_iff.mpr hc)
  -- the given order has hashed the strings of all calls, so no order hashes anything else
  have hsub : (run P D (calls ++ mints')).hashed ⊆ (run P D (calls ++ mints)).hashed := by
    refine hashed_run_mints_subset hashed_subset_run_append ?_
    intro c hc
    obtain ⟨data, hdata, hauth, -⟩ := hready c hc
    exact ⟨data, hdata, hauth, strings_subset_run_mints
      (fun c hc => (h.ready c hc).imp fun _ h => h.1) hsucceeds (hperm.mem_iff.mpr hc) hdata⟩
  have hadmissible' := hadmissible.perm (((hperm.filterMap _).append_left _).map _)
  exact ⟨hK.mono hsub, minted_run_mints hready hadmissible' (hK.mono hsub)⟩

/-! ## What the final states show -/

/-- The table depends on the set of minted zaps. -/
theorem Coherent.seriesPublications_congr {M M' : List Minted} (h : Coherent P Z σ M)
    (h' : Coherent P Z σ' M') (hM : ∀ m, m ∈ M ↔ m ∈ M') :
    σ.seriesPublications = σ'.seriesPublications := by
  funext key
  by_cases hrecord : σ.seriesPublications key = 0
  · by_cases hrecord' : σ'.seriesPublications key = 0
    · rw [hrecord, hrecord']
    · obtain ⟨m, hm, rfl, hpublication⟩ := h'.exists_of_record key hrecord'
      rw [hpublication, h.record_of_mem m ((hM m).mpr hm)]
  · obtain ⟨m, hm, rfl, hpublication⟩ := h.exists_of_record key hrecord
    rw [hpublication, h'.record_of_mem m ((hM m).mp hm)]

/-- The owners of the tokens depend on the set of minted zaps. -/
theorem AfterMints.lookup_congr {σ₀ : State} {N' : List Minted} (h : AfterMints P Z σ₀ σ N)
    (h' : AfterMints P Z σ₀ σ' N') (hN : ∀ m, m ∈ N ↔ m ∈ N') :
    σ.tokenOwners.lookup = σ'.tokenOwners.lookup := by
  funext id
  refine Option.ext ?_
  intro owner
  rw [h.lookup_iff, h'.lookup_iff]
  simp only [hN]

/-- Two states after mints of the same zaps show the same. -/
theorem sameView_of_afterMints {σ₀ : State} {M M' N' : List Minted} (h : Recorded P Z σ M)
    (h' : Recorded P Z σ' M') (htable : σ.seriesPublications = σ'.seriesPublications)
    (hafter : AfterMints P Z σ₀ σ N) (hafter' : AfterMints P Z σ₀ σ' N')
    (hN : ∀ m, m ∈ N ↔ m ∈ N') (hlength : M.length = M'.length) : SameView σ σ' where
  seriesPublications_eq := htable
  owner_eq := hafter.owner_eq.trans hafter'.owner_eq.symm
  ownerOf_eq id :=
    ERC721.outcome_ownerOf_congr (congrFun (hafter.lookup_congr hafter' hN) id)
  getApproved_eq id := by
    have happrovals := hafter.tokenApprovals_eq.trans hafter'.tokenApprovals_eq.symm
    rw [ERC721.getApproved_congr (congrFun (hafter.lookup_congr hafter' hN) id)
      (congrFun happrovals id)]
  balanceOf_eq owner := by
    rw [h.wellFormed.balanceOf_congr h'.wellFormed (hafter.lookup_congr hafter' hN)]
  totalSupply_eq := by
    rw [ERC721.totalSupply, EnumerableMap.length_eq, h.keys_eq, List.length_map, hlength,
      ERC721.totalSupply, EnumerableMap.length_eq, h'.keys_eq, List.length_map]

/-- **Compatible mints commute.**  On one chain and without collisions, a list of compatible
mints goes through in every order.  Any two orders end in states that show the same, and the
`Publish` and `Mint` events they have emitted are the same up to order. -/
theorem mints_commute {k : Uint256} {mints₁ mints₂ : List Call}
    (hchain : ∀ c ∈ calls ++ mints, c.chainId = k)
    (h : CompatibleMints P (D.code P).value k (run P D calls) mints)
    (hK : CollisionFree P.keccak256 (run P D (calls ++ mints)).hashed)
    (hperm₁ : mints.Perm mints₁) (hperm₂ : mints.Perm mints₂) :
    (∀ before c after, mints₁ = before ++ c :: after →
      (exec P (D.code P).value c (run P D (calls ++ before)).state).Succeeds) ∧
    SameView (run P D (calls ++ mints₁)).state (run P D (calls ++ mints₂)).state ∧
    (publicationsOf (events (run P D (calls ++ mints₁)).log)).Perm
      (publicationsOf (events (run P D (calls ++ mints₂)).log)) ∧
    (zapsOf (events (run P D (calls ++ mints₁)).log)).Perm
      (zapsOf (events (run P D (calls ++ mints₂)).log)) := by
  obtain ⟨hK₁, hlog₁, hsucceeds⟩ := h.run_perm hchain hK hperm₁
  obtain ⟨hK₂, hlog₂, -⟩ := h.run_perm hchain hK hperm₂
  have hzaps : (mints₁.filterMap (intended (run P D calls).state.owner)).Perm
      (mints₂.filterMap (intended (run P D calls).state.owner)) :=
    (hperm₁.symm.trans hperm₂).filterMap _
  have hlog : (minted (run P D (calls ++ mints₁)).log).Perm
      (minted (run P D (calls ++ mints₂)).log) := by
    rw [hlog₁, hlog₂]
    exact hzaps.append_left _
  have hafter : ∀ l, mints.Perm l → minted (run P D (calls ++ l)).log =
      minted (run P D calls).log ++ l.filterMap (intended (run P D calls).state.owner) →
      AfterMints P (D.code P).value (run P D calls).state (run P D (calls ++ l)).state
        (l.filterMap (intended (run P D calls).state.owner)) := by
    intro l hl hlog
    have hmints : ∀ c ∈ l, ∃ data, c.zapData (run P D calls).state.owner = some data :=
      fun c hc => (h.ready c (hl.mem_iff.mpr hc)).imp fun _ h => h.1
    obtain ⟨N, hN, hafter⟩ := afterMints_run hmints
    rwa [List.append_cancel_left (hlog.symm.trans hN)]
  have hview := sameView_of_afterMints recorded_run recorded_run
    ((coherent_run hK₁).seriesPublications_congr (coherent_run hK₂) fun m => hlog.mem_iff)
    (hafter mints₁ hperm₁ hlog₁) (hafter mints₂ hperm₂ hlog₂) (fun m => hzaps.mem_iff)
    hlog.length_eq
  have hchain' : ∀ l, mints.Perm l → ∀ c ∈ calls ++ l, c.chainId = k := fun l hl c hc =>
    hchain c ((hl.append_left calls).mem_iff.mpr hc)
  refine ⟨hsucceeds, hview, ?_, ?_⟩
  · refine (List.perm_ext_iff_of_nodup (nodup_publicationsOf_run (hchain' _ hperm₁) hK₁)
      (nodup_publicationsOf_run (hchain' _ hperm₂) hK₂)).mpr fun p => ?_
    rw [mem_publicationsOf_run_iff (hchain' _ hperm₁) hK₁,
      mem_publicationsOf_run_iff (hchain' _ hperm₂) hK₂, hview.seriesPublications_eq]
  · rw [zapsOf_events_run, zapsOf_events_run]
    exact hlog.map _

/-- The two example mints are compatible: the second one goes through first and the first one
after it, with the same series published and the same zaps minted as in the other order. -/
theorem sample_mints_commute :
    (exec Sample.primitives (Sample.deployment.code Sample.primitives).value (Sample.mint 420 43)
      (run Sample.primitives Sample.deployment [Sample.handover]).state).Succeeds ∧
    (exec Sample.primitives (Sample.deployment.code Sample.primitives).value (Sample.mint 420 42)
      (run Sample.primitives Sample.deployment
        [Sample.handover, Sample.mint 420 43]).state).Succeeds ∧
    SameView
      (run Sample.primitives Sample.deployment
        [Sample.handover, Sample.mint 420 43, Sample.mint 420 42]).state
      (run Sample.primitives Sample.deployment
        [Sample.handover, Sample.mint 420 42, Sample.mint 420 43]).state ∧
    (publicationsOf (events (run Sample.primitives Sample.deployment
        [Sample.handover, Sample.mint 420 43, Sample.mint 420 42]).log)).Perm
      [(Sample.data 42).publication] ∧
    (zapsOf (events (run Sample.primitives Sample.deployment
        [Sample.handover, Sample.mint 420 43, Sample.mint 420 42]).log)).Perm
      [Sample.data 42, Sample.data 43] := by
  have howner : (run Sample.primitives Sample.deployment [Sample.handover]).state.owner =
      Sample.zapper := by decide +kernel
  have hzap : ∀ c ∈ [Sample.mint 420 42, Sample.mint 420 43], ∃ n, c = Sample.mint 420 n ∧
      (Sample.data n).serialNumber < (Sample.data n).seriesTotal := by
    intro c hc
    rcases List.mem_pair.mp hc with rfl | rfl
    · exact ⟨42, rfl, by decide +kernel⟩
    · exact ⟨43, rfl, by decide +kernel⟩
  have hcompatible : CompatibleMints Sample.primitives
      (Sample.deployment.code Sample.primitives).value 420
      (run Sample.primitives Sample.deployment [Sample.handover])
      [Sample.mint 420 42, Sample.mint 420 43] := by
    refine ⟨fun c hc => ?_, fun c hc data hdata => ?_, ?_⟩
    · obtain ⟨n, rfl, -⟩ := hzap c hc
      exact ⟨Sample.data n, Sample.zapData_mint howner, Sample.authenticated_mint howner,
        show Sample.zapper ≠ 0 by decide +kernel⟩
    · obtain ⟨n, rfl, hlt⟩ := hzap c hc
      rw [Sample.zapData_mint howner] at hdata
      obtain rfl := Option.some.inj hdata
      exact ⟨hlt, fun d hd => absurd hd List.not_mem_nil, fun h => absurd rfl h⟩
    · refine List.pairwise_pair.mpr fun data data' hdata hdata' _ => ?_
      rw [Sample.zapData_mint howner] at hdata hdata'
      rw [← Option.some.inj hdata, ← Option.some.inj hdata']
      decide +kernel
  -- the log of the order as it stands
  have hlog : publicationsOf (events (run Sample.primitives Sample.deployment
        [Sample.handover, Sample.mint 420 42, Sample.mint 420 43]).log) =
          [(Sample.data 42).publication] ∧
      zapsOf (events (run Sample.primitives Sample.deployment
        [Sample.handover, Sample.mint 420 42, Sample.mint 420 43]).log) =
          [Sample.data 42, Sample.data 43] := by
    rw [Sample.primitives_eq]
    decide +kernel
  obtain ⟨hsucceeds, hview, hpublications, hzaps⟩ :=
    mints_commute (by decide +kernel) hcompatible Sample.collisionFree_run
      (List.Perm.swap _ _ _) (List.Perm.refl _)
  exact ⟨hsucceeds [] _ _ rfl, hsucceeds [_] _ [] rfl, hview, hlog.1 ▸ hpublications,
    hlog.2 ▸ hzaps⟩

end Mints

end Zap
end OptimismZap
