import OptimismZap.Contract.Series

/-!
# Why a mint is refused

Four entry points lead to `_mint`, each past checks of its own.  Behind the checks they
are one function (`outcome_exec_of_authenticated`), and what it answers can be told
from the zaps minted so far: the registry of numbered copies has at most one reason
to refuse, and the message of the revert names it (`mint_verdict`).

Without any assumption on the hash function, what has been minted can never be minted
again on the same chain id, through whichever entry point and with whichever signatures
(`minted_never_again`): an intent is good for one token.
-/

namespace OptimismZap
namespace Zap

/-! ## Following `_mint` to its end -/

/-- `_mint` from the check of the serial number on, the table having been written with the
events `es`. -/
def State.mintToken (P : Primitives) (Z : Deployed) (k : Uint256) (publication : SeriesPublication)
    (serialNumber : Bytes4) (es : List Event) (σ : State) : Body := do
  Exec.require (serialNumber < publication.seriesTotal)
    "OptimismZap: Mint of a serialNumber greater than or equal to the seriesTotal."
  let zapHash ← eip712HashZapData P Z k publication serialNumber
  let (σ, transferred) ← σ.onToken fun token => token.mint publication.zapper (uint256 zapHash)
  return (σ, es ++ transferred ++
    [Event.mint publication.ipfsHash publication.zapper publication.seriesTotal serialNumber])

section Functions

variable {P : Primitives} {Z : Deployed} {k : Uint256} {σ : State} {data : ZapData} {c : Call}
  {es : List Event} {publication : SeriesPublication} {serialNumber : Bytes4}

/-- Behind their checks all mints are one function. -/
theorem outcome_exec_of_authenticated (hdata : c.zapData σ.owner = some data)
    (hauth : c.Authenticated P Z σ.owner) : (exec P Z c σ).outcome =
      (mint P Z c.chainId σ data.publication data.serialNumber).outcome := by
  obtain ⟨howner, hsignatures⟩ := hauth data hdata
  obtain ⟨chain, msgSender, op⟩ := c
  simp only [Call.zapData] at hdata
  -- a signature check that passes is a step to the next statement
  have hcheck : ∀ {digest : Bytes32} {p : Bytes × Address} {message : String}
      {f : Unit → Body}, (ECDSA.recover P.ecrecover digest p.1).outcome = .ok p.2 →
        (ECDSA.recover P.ecrecover digest p.1 >>= fun signer =>
          Exec.require (signer = p.2) message >>= f).outcome = (f ()).outcome := by
    intro digest p message f hp
    rw [Exec.outcome_bind_of_ok hp, Exec.outcome_bind_require rfl]
  cases op with
  | mintByOwnerForOwner ipfsHash seriesTotal serialNumber =>
    obtain rfl := Option.some.inj hdata
    exact Exec.outcome_bind_require (howner rfl) _
  | mintByOwner ipfsHash seriesTotal serialNumber claimedZapper zapperSignatureData =>
    obtain rfl := Option.some.inj hdata
    have hzapper := hsignatures (zapperSignatureData, claimedZapper) (List.mem_singleton_self _)
    exact (Exec.outcome_bind_require (howner rfl) _).trans (hcheck hzapper)
  | mintByZapper ipfsHash seriesTotal serialNumber contractOwnerSignatureData =>
    obtain rfl := Option.some.inj hdata
    exact hcheck (hsignatures (contractOwnerSignatureData, σ.owner) (List.mem_singleton_self _))
  | mintBySignatures ipfsHash seriesTotal serialNumber claimedZapper zapperSignatureData
      contractOwnerSignatureData =>
    obtain rfl := Option.some.inj hdata
    have hzapper := hsignatures (zapperSignatureData, claimedZapper) List.mem_cons_self
    have hsigned := hsignatures (contractOwnerSignatureData, σ.owner)
      (List.mem_cons_of_mem _ List.mem_cons_self)
    exact (hcheck hzapper).trans (hcheck hsigned)
  | _ => exact absurd hdata (by simp [Op.zapData])

theorem outcome_mint_of_not_recordAllows
    (h : ¬ σ.RecordAllows (seriesKey P Z k data.fingerprint) data) :
    (mint P Z k σ data.publication data.serialNumber).outcome =
      .error "OptimismZap: Different seriesTotal than previously published" := by
  obtain ⟨hfull, hdifferent⟩ := not_or.mp h
  have hkey : (liftM (eip712HashSeriesFingerprint P Z k ⟨data.ipfsHash, data.zapper⟩) :
      Exec Bytes32).outcome = .ok (seriesKey P Z k data.fingerprint) := rfl
  unfold mint
  rw [Exec.outcome_bind_of_ok hkey]
  simp only [if_neg hfull]
  exact Exec.outcome_bind_require_of_not hdifferent _

/-- Past the record `_mint` goes on with the same tokens. -/
theorem outcome_mint_of_recordAllows
    (h : σ.RecordAllows (seriesKey P Z k data.fingerprint) data) :
    ∃ (σ' : State) (es : List Event), σ'.tokenOwners = σ.tokenOwners ∧
      (mint P Z k σ data.publication data.serialNumber).outcome =
        (σ'.mintToken P Z k data.publication data.serialNumber es).outcome := by
  have hkey : (liftM (eip712HashSeriesFingerprint P Z k ⟨data.ipfsHash, data.zapper⟩) :
      Exec Bytes32).outcome = .ok (seriesKey P Z k data.fingerprint) := rfl
  unfold mint
  rw [Exec.outcome_bind_of_ok hkey]
  by_cases hempty : (σ.seriesPublications (seriesKey P Z k data.fingerprint)).seriesTotal = 0
  · simp only [if_pos hempty]
    let table := Function.update σ.seriesPublications (seriesKey P Z k data.fingerprint)
      data.publication
    exact ⟨{ σ with seriesPublications := table },
      [Event.publish data.ipfsHash data.zapper data.seriesTotal], rfl, rfl⟩
  · simp only [if_neg hempty]
    rw [Exec.outcome_bind_require (h.resolve_left hempty)]
    exact ⟨σ, [], rfl, rfl⟩

theorem outcome_mintToken_of_not_lt (h : ¬ serialNumber < publication.seriesTotal) :
    (σ.mintToken P Z k publication serialNumber es).outcome =
      .error "OptimismZap: Mint of a serialNumber greater than or equal to the seriesTotal." :=
  Exec.outcome_bind_require_of_not h _

/-- A revert of the token standard is the revert of the mint. -/
theorem outcome_mintToken_of_error {message : String}
    (h : serialNumber < publication.seriesTotal)
    (htoken : (σ.toERC721.mint publication.zapper
      (uint256 (eip712HashZapData P Z k publication serialNumber).value)).outcome =
        .error message) :
    (σ.mintToken P Z k publication serialNumber es).outcome = .error message := by
  have hzap : (liftM (eip712HashZapData P Z k publication serialNumber) : Exec Bytes32).outcome =
      .ok (eip712HashZapData P Z k publication serialNumber).value := rfl
  unfold State.mintToken
  rw [Exec.outcome_bind_require h, Exec.outcome_bind_of_ok hzap]
  exact Exec.outcome_bind_of_error (Exec.outcome_bind_of_error htoken)

theorem outcome_mint_of_zero {token : ERC721} {tokenId : Uint256} :
    (token.mint 0 tokenId).outcome = .error "ERC721: mint to the zero address" :=
  Exec.outcome_bind_require_of_not (not_not.mpr rfl) _

theorem outcome_mint_of_exists {token : ERC721} {toAddr : Address} {tokenId : Uint256}
    (hto : toAddr ≠ 0) (hexists : token.Exists tokenId) :
    (token.mint toAddr tokenId).outcome = .error "ERC721: token already minted" := by
  have htrue := ERC721.existsToken_eq_true.mpr hexists
  unfold ERC721.mint
  rw [Exec.outcome_bind_require hto]
  exact Exec.outcome_bind_require_of_not (by simp [htrue]) _

end Functions

/-! ## The verdict of the registry -/

/-- The message of the contract for a reason of the registry. -/
def refusalMessage : Edition.Refusal → String
  | .otherTotal => "OptimismZap: Different seriesTotal than previously published"
  | .outOfRange =>
    "OptimismZap: Mint of a serialNumber greater than or equal to the seriesTotal."
  | .taken => "ERC721: token already minted"

/-- What `_mint` answers when these zaps have been minted. -/
def verdict (zaps : List Minted) (m : Minted) : Except String Unit :=
  match Edition.refusal (zaps.map Minted.edition) m.edition with
  | some refusal => .error (refusalMessage refusal)
  | none => if m.data.zapper = 0 then .error "ERC721: mint to the zero address" else .ok ()

section Verdict

variable {P : Primitives} {D : Deployment} {calls later : List Call} {c : Call} {data : ZapData}
  {σ : State} {M : List Minted} {m : Minted} {Z : Deployed}

/-- The verdict is favourable when the registry takes the copy and there is a zapper. -/
theorem verdict_eq_ok_iff : verdict M m = .ok () ↔
    Edition.Admits (M.map Minted.edition) m.edition ∧ m.data.zapper ≠ 0 := by
  unfold verdict
  rw [← Edition.refusal_eq_none_iff]
  cases Edition.refusal (M.map Minted.edition) m.edition with
  | some refusal => simp
  | none => by_cases hzapper : m.data.zapper = 0 <;> simp [hzapper]

/-- The record lets a zap pass if those of its series have the same total. -/
theorem Coherent.recordAllows_iff (h : Coherent P Z σ M)
    (hkey : ∀ m' ∈ M, m'.key P Z = m.key P Z → m'.edition.series = m.edition.series) :
    σ.RecordAllows (m.key P Z) m.data ↔
      ∀ f ∈ M.map Minted.edition, f.series = m.edition.series → f.total = m.edition.total := by
  rw [List.forall_mem_map]
  constructor
  · intro hrecord m' hm' hseries
    have hrecord' := h.record_of_mem m' hm'
    rw [Coherent.key_eq_of_series_eq hseries] at hrecord'
    unfold State.RecordAllows at hrecord
    rw [hrecord'] at hrecord
    exact congrArg FixedBytes.toNat (hrecord.resolve_left (h.seriesTotal_ne_zero hm'))
  · intro htotal
    refine or_iff_not_imp_left.mpr fun hfull => ?_
    obtain ⟨m', hm', hkey', hrecord'⟩ :=
      h.exists_of_record (m.key P Z) (mt h.record_eq_zero_iff.mp hfull)
    rw [hrecord']
    exact FixedBytes.toNat_injective (htotal m' hm' (hkey m' hm' hkey'))

/-- A zap is among the minted ones when its copy is in the registry. -/
theorem mem_of_edition_mem (h : m.edition ∈ M.map Minted.edition) : m ∈ M := by
  obtain ⟨m', hm', hedition⟩ := List.mem_map.mp h
  exact Coherent.edition_injective hedition ▸ hm'

/-- A mint that the record lets pass, with a good serial number and a zapper, is a matter of the
token alone. -/
theorem Coherent.outcome_mint_of_new (h : Coherent P Z σ M)
    (hallows : σ.RecordAllows (m.key P Z) m.data)
    (hserial : m.data.serialNumber < m.data.seriesTotal) (hzapper : m.data.zapper ≠ 0)
    (hid : ∀ m' ∈ M, m'.tokenId P Z = m.tokenId P Z → m' = m) (hnew : m ∉ M) :
    (Zap.mint P Z m.chainId σ m.data.publication m.data.serialNumber).outcome.map
      (fun _ => ()) = .ok () := by
  have hfree : ¬ σ.Exists (m.tokenId P Z) := by
    intro hexists
    obtain ⟨m', hm', hid'⟩ := h.exists_iff.mp hexists
    obtain rfl := hid m' hm' hid'
    exact hnew hm'
  rw [outcome_mint_eq_ok.mpr ⟨hallows, hserial, hzapper, hfree, rfl⟩]
  rfl

/-- On a coherent state `_mint` answers what the registry answers. -/
theorem Coherent.outcome_mint (h : Coherent P Z σ M)
    (hkey : ∀ m' ∈ M, m'.key P Z = m.key P Z → m'.edition.series = m.edition.series)
    (hid : σ.RecordAllows (m.key P Z) m.data → m.data.serialNumber < m.data.seriesTotal →
      ∀ m' ∈ M, m'.tokenId P Z = m.tokenId P Z → m' = m) :
    (Zap.mint P Z m.chainId σ m.data.publication m.data.serialNumber).outcome.map
      (fun _ => ()) = verdict M m := by
  have hrecord := h.recordAllows_iff hkey
  have hlt : m.data.serialNumber < m.data.seriesTotal ↔ m.edition.serial < m.edition.total :=
    FixedBytes.lt_iff_toNat_lt
  have hexamined := Edition.examined_refusal (M.map Minted.edition) m.edition
  unfold verdict
  generalize Edition.refusal (M.map Minted.edition) m.edition = r at hexamined ⊢
  cases hexamined with
  | otherTotal f hf hseries htotal =>
    rw [outcome_mint_of_not_recordAllows fun hallows =>
      htotal (hrecord.mp hallows f hf hseries)]
    rfl
  | outOfRange htotals hserial =>
    obtain ⟨σ', es, -, heq⟩ := outcome_mint_of_recordAllows (hrecord.mpr htotals)
    rw [heq, outcome_mintToken_of_not_lt (mt hlt.mp hserial)]
    rfl
  | taken htotals hserial hmem =>
    obtain ⟨σ', es, htokens, heq⟩ := outcome_mint_of_recordAllows (hrecord.mpr htotals)
    have hm := mem_of_edition_mem hmem
    have hexists : σ'.Exists (m.tokenId P Z) := by
      unfold ERC721.Exists
      rw [htokens]
      exact h.exists_iff.mpr ⟨m, hm, rfl⟩
    rw [heq, outcome_mintToken_of_error (hlt.mpr hserial)
      (outcome_mint_of_exists (h.zapper_ne_zero m hm) hexists)]
    rfl
  | admitted htotals hserial hnew =>
    have hallows := hrecord.mpr htotals
    by_cases hzapper : m.data.zapper = 0
    · obtain ⟨σ', es, -, heq⟩ := outcome_mint_of_recordAllows hallows
      have hzero : (σ'.toERC721.mint m.data.publication.zapper (m.tokenId P Z)).outcome =
          .error "ERC721: mint to the zero address" := by
        rw [show m.data.publication.zapper = 0 from hzapper]
        exact outcome_mint_of_zero
      rw [heq, outcome_mintToken_of_error (hlt.mpr hserial) hzero]
      exact (if_pos hzapper).symm
    · rw [h.outcome_mint_of_new hallows (hlt.mpr hserial) hzapper
        (hid hallows (hlt.mpr hserial)) fun hm => hnew (List.mem_map_of_mem hm)]
      exact (if_neg hzapper).symm

/-- In a run without collisions a mint that passes its checks answers what the registry answers. -/
theorem outcome_exec_run (hdata : c.zapData (run P D calls).state.owner = some data)
    (hauth : c.Authenticated P (D.code P).value (run P D calls).state.owner)
    (hK : CollisionFree P.keccak256 (run P D (calls ++ [c])).hashed) :
    (exec P (D.code P).value c (run P D calls).state).outcome.map (fun _ => ()) =
      verdict (minted (run P D calls).log) ⟨c.chainId, data⟩ := by
  rw [outcome_exec_of_authenticated hdata hauth]
  rw [run_concat, World.hashed_attempt] at hK
  have hcode : (D.code P).hashed ⊆ (run P D calls).hashed ++
      (exec P (D.code P).value c (run P D calls).state).hashed :=
    List.subset_append_of_subset_left _ code_hashed_subset_run
  refine (coherent_run hK.append_left).outcome_mint (m := ⟨c.chainId, data⟩)
    (fun m' hm' hkey => ?_) (fun hrecord hserial m' hm' hid => ?_)
  · refine Minted.series_eq_of_key_eq hK hcode ?_ ?_ hkey
    · exact List.subset_append_of_subset_left _ (keyStrings_subset_run hm')
    · exact List.subset_append_of_subset_right _ (fingerprint_hashed_subset_exec hdata hauth)
  · refine Minted.eq_of_tokenId_eq hK hcode ?_ ?_ hid
    · exact List.subset_append_of_subset_left _ (idStrings_subset_run hm')
    · refine List.subset_append_of_subset_right _ (List.Subset.trans ?_
        (strings_subset_hashed_exec hdata hauth hrecord hserial))
      exact List.subset_append_of_subset_right _ (List.subset_append_right _ _)

/-- **The revert of a mint names the reason of the registry.**  In every run without collisions a
mint that passes its checks, through whichever entry point, answers what the registry of the zaps
minted so far answers, in which a series is a fingerprint on a chain id, so that it goes through
exactly when the registry takes the copy and the zapper is not the zero address; and it makes no
difference which entry point that is. -/
theorem mint_verdict (hdata : c.zapData (run P D calls).state.owner = some data)
    (hauth : c.Authenticated P (D.code P).value (run P D calls).state.owner)
    (hK : CollisionFree P.keccak256 (run P D (calls ++ [c])).hashed) :
    (exec P (D.code P).value c (run P D calls).state).outcome.map (fun _ => ()) =
      verdict (minted (run P D calls).log) ⟨c.chainId, data⟩ ∧
    ((exec P (D.code P).value c (run P D calls).state).Succeeds ↔
      Edition.Admits ((minted (run P D calls).log).map Minted.edition)
        (Minted.mk c.chainId data).edition ∧ data.zapper ≠ 0) ∧
    ∀ c' : Call, c'.chainId = c.chainId → c'.zapData (run P D calls).state.owner = some data →
      c'.Authenticated P (D.code P).value (run P D calls).state.owner →
        (exec P (D.code P).value c' (run P D calls).state).outcome =
          (exec P (D.code P).value c (run P D calls).state).outcome := by
  have hverdict := outcome_exec_run hdata hauth hK
  refine ⟨hverdict, ?_, ?_⟩
  · rw [← verdict_eq_ok_iff (m := ⟨c.chainId, data⟩), ← hverdict]
    cases hx : (exec P (D.code P).value c (run P D calls).state).outcome with
    | ok r => exact iff_of_true (Exec.succeeds_of_outcome hx) rfl
    | error message =>
      exact iff_of_false (Exec.not_succeeds_of_outcome hx) (by simp [Except.map])
  · intro c' hchain hdata' hauth'
    rw [outcome_exec_of_authenticated hdata' hauth', outcome_exec_of_authenticated hdata hauth,
      hchain]

/-- The registry refuses to mint the first zap of the sample run again. -/
theorem sample_mint_verdict :
    (exec Sample.primitives (Sample.deployment.code Sample.primitives).value (Sample.mint 420 42)
        (run Sample.primitives Sample.deployment
          [Sample.handover, Sample.mint 420 42]).state).outcome.map (fun _ => ()) =
      .error "ERC721: token already minted" := by
  refine ((mint_verdict (Sample.zapData_mint Sample.owner_run)
    (Sample.authenticated_mint Sample.owner_run) (Sample.collisionFree ?_)).1).trans ?_
  · rw [Sample.primitives_eq]
    decide +kernel
  · rw [Sample.primitives_eq]
    decide +kernel

/-! ## Never again -/

/-- A record that has been written stays. -/
theorem Step.record_eq {c : Call} {σ σ' : State} {es : List Event} (hstep : Step P Z c σ σ' es)
    {key : Bytes32} (h : (σ.seriesPublications key).seriesTotal ≠ 0) :
    σ'.seriesPublications key = σ.seriesPublications key := by
  cases hstep with
  | mint data =>
    by_contra hchange
    obtain ⟨rfl, -⟩ := State.publicationsAfter_of_ne hchange
    refine hchange ?_
    simp only [State.afterMint, State.publicationsAfter, if_neg h]
  | token => rfl
  | ownership => rfl

/-- The record of a minted zap has its total, whatever the hash function does. -/
theorem seriesTotal_of_mem_run (hm : m ∈ minted (run P D calls).log) :
    ((run P D calls).state.seriesPublications (m.key P (D.code P).value)).seriesTotal =
      m.data.seriesTotal := by
  revert m
  refine World.log_induction (Q := fun _ => True)
    (I := fun σ log => ∀ {m}, m ∈ minted log →
      (σ.seriesPublications (m.key P (D.code P).value)).seriesTotal = m.data.seriesTotal) ?_
    (fun _ _ => trivial) (fun hm => absurd hm List.not_mem_nil)
  intro before c post events _ hx hI m hm
  rw [minted_concat, List.mem_append, Option.mem_toList] at hm
  rcases hm with hm | hm
  · have htotal := hI hm
    have hrecorded : Recorded P (D.code P).value (run P D before).state
      (minted (run P D before).log) := recorded_run
    have hne := hrecorded.seriesTotal_ne_zero hm
    rw [← htotal] at hne
    rw [(step_of_exec hx).record_eq hne, htotal]
  · have hmint := mintedBy_of_mintOf hx hm
    rw [show post = _ from hmint.post_eq]
    simp only [State.afterMint, State.publicationsAfter]
    split
    · rw [Function.update_self]
    · rename_i hfull
      exact hmint.recordAllows.resolve_left hfull

/-- **What has been minted is never minted again.**  In every run each zap is minted at most once
on a chain, and after any further calls, a call that asks for a minted zap on the same chain id
reverts, through whichever entry point it comes; if its own checks pass, the message says that the
token has been minted. -/
theorem minted_never_again (P : Primitives) (D : Deployment) (calls : List Call) :
    (minted (run P D calls).log).Nodup ∧
    ∀ later c m, m ∈ minted (run P D calls).log → c.chainId = m.chainId →
      c.zapData (run P D (calls ++ later)).state.owner = some m.data →
        ¬ (exec P (D.code P).value c (run P D (calls ++ later)).state).Succeeds ∧
        (c.Authenticated P (D.code P).value (run P D (calls ++ later)).state.owner →
          (exec P (D.code P).value c (run P D (calls ++ later)).state).outcome =
            .error "ERC721: token already minted") := by
  constructor
  · have hkeys := (run P D calls).state.tokenOwners.nodup_keys
    rw [recorded_run.keys_eq] at hkeys
    exact hkeys.of_map _
  · rintro later ⟨chainId, msgSender, op⟩ ⟨chain, data⟩ hm rfl hdata
    have hm : ⟨chainId, data⟩ ∈ minted (run P D (calls ++ later)).log :=
      minted_prefix_run.subset hm
    have hrecorded : Recorded P (D.code P).value (run P D (calls ++ later)).state
      (minted (run P D (calls ++ later)).log) := recorded_run
    have hexists : (run P D (calls ++ later)).state.Exists
        (tokenId P (D.code P).value chainId data) := hrecorded.exists_iff.mpr ⟨_, hm, rfl⟩
    refine ⟨fun ⟨r, hx⟩ => ?_, fun hauth => ?_⟩
    · exact (outcome_mint_eq_ok.mp ((outcome_exec_mint hdata).mp hx).2).2.2.2.1 hexists
    · have htotal := seriesTotal_of_mem_run hm
      have hallows : (run P D (calls ++ later)).state.RecordAllows
        (seriesKey P (D.code P).value chainId data.fingerprint) data := Or.inr htotal
      obtain ⟨σ', es, htokens, heq⟩ := outcome_mint_of_recordAllows hallows
      have hexists' : σ'.Exists (tokenId P (D.code P).value chainId data) := by
        unfold ERC721.Exists
        rw [htokens]
        exact hexists
      rw [outcome_exec_of_authenticated hdata hauth, heq]
      exact outcome_mintToken_of_error (hrecorded.serial_lt _ hm)
        (outcome_mint_of_exists (hrecorded.zapper_ne_zero _ hm) hexists')

/-- The first zap of the sample run is not minted twice. -/
theorem sample_minted_never_again :
    (exec Sample.primitives (Sample.deployment.code Sample.primitives).value (Sample.mint 420 42)
      (run Sample.primitives Sample.deployment
        ([Sample.handover, Sample.mint 420 42] ++ [Sample.mint 420 43])).state).outcome =
      .error "ERC721: token already minted" := by
  have howner : (run Sample.primitives Sample.deployment
      ([Sample.handover, Sample.mint 420 42] ++ [Sample.mint 420 43])).state.owner =
        Sample.zapper := by
    rw [Sample.primitives_eq]
    decide +kernel
  refine ((minted_never_again Sample.primitives Sample.deployment
    [Sample.handover, Sample.mint 420 42]).2 [Sample.mint 420 43] (Sample.mint 420 42)
      ⟨420, Sample.data 42⟩ ?_ rfl (Sample.zapData_mint howner)).2
        (Sample.authenticated_mint howner)
  rw [Sample.primitives_eq]
  decide +kernel

end Verdict

end Zap
end OptimismZap
