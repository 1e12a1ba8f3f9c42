import OptimismZap.Protocol.Timelines

/-!
# Both parties consent to every mint

A mint has two parties, the zapper it is for and the owner of the contract at the
moment of the call.  `Call.party_consents` goes through the four ways to mint and
finds for each party that it sent the call or that a signature was checked
against it.  With unforgeable signatures and no collisions the second means that
it signed the intent to mint precisely this zap, on the domain of this contract
on this chain (`signingOf_mem`).

Everything the contract holds was created by such a call (`mints_consented`).
-/

namespace OptimismZap
namespace Zap

open TypedData HashUtils

/-! ## What a signed digest is the digest of -/

section Binding

variable {P : Primitives} {D : Deployment} {k : Uint256} {data : ZapData} {s : Signing}
  {H : List Bytes}

/-- The string of the domain an account signs on. -/
def Signing.domainString (P : Primitives) (s : Signing) : Bytes :=
  EIP712.domainString P.keccak256 s.domain.verifyingContract s.domain.chainId s.domain.name
    s.domain.version

/-- The string of the message an account signs. -/
def Signing.structString (P : Primitives) (s : Signing) : Bytes :=
  abiEncode [.bytes32 (P.keccak256 (utf8 zapMintIntentType)),
    .bytes32 (P.keccak256 s.intent.mintIntent), .bytes32 s.intent.data.ipfsHash,
    .address s.intent.data.zapper, .bytes4 s.intent.data.seriesTotal,
    .bytes4 s.intent.data.serialNumber]

/-- What the wallet hashes, and the digest it arrives at. -/
theorem Signing.digest_eq (P : Primitives) (s : Signing) :
    s.typedData.digest P.keccak256 =
      ⟨.ok (P.keccak256 (EIP712.typedDataEncoding (P.keccak256 (s.domainString P))
          (P.keccak256 (s.structString P)))),
        [utf8 EIP712.domainType, s.domain.name, s.domain.version, s.domainString P] ++
          ([utf8 zapMintIntentType, s.intent.mintIntent, s.structString P] ++
            [EIP712.typedDataEncoding (P.keccak256 (s.domainString P))
              (P.keccak256 (s.structString P))])⟩ :=
  TypedData.digest_eq rfl rfl hashStruct_domain hashStruct_zapMintIntent

/-- **A digest the contract has computed is the digest of one message on one domain.** -/
theorem eq_signingOf_of_digest_eq (hK : CollisionFree P.keccak256 H)
    (hD : (D.code P).hashed ⊆ H)
    (hintent : (eip712HashZapMintIntent P (D.code P).value k data.publication
      data.serialNumber).hashed ⊆ H)
    (hs : (s.typedData.digest P.keccak256).hashed ⊆ H)
    (h : (s.typedData.digest P.keccak256).outcome =
      .ok (intentDigest P (D.code P).value k data)) :
    s = D.signingOf k s.account data := by
  rw [Signing.digest_eq] at hs h
  -- the contract's side, as an evaluation with its strings
  have hrun : ((⟨D, k, .zapMintIntent data.publication data.serialNumber⟩ :
      Evaluation).run P).hashed ⊆ H := List.append_subset.mpr ⟨hD, hintent⟩
  have hstatement : utf8 mintIntentStatement ∈ H := by
    refine hintent ?_
    show _ ∈ (Query.eval P (D.code P).value k
      (.zapMintIntent data.publication data.serialNumber)).hashed
    rw [Query.eval_eq]
    exact List.mem_append_left _ (List.mem_cons_of_mem _ List.mem_cons_self)
  have hvalue := (Except.ok.inj h).trans
    (Evaluation.value_run ⟨D, k, .zapMintIntent data.publication data.serialNumber⟩)
  have htyped := hK _ (hs (by simp)) _ (hrun (Evaluation.typedData_mem _)) hvalue
  obtain ⟨hdomain, hstruct⟩ := EIP712.typedDataEncoding_inj htyped
  have hstruct := hK _ (hs (by simp)) _ (hrun (Evaluation.structString_mem _)) hstruct
  have hdomain := hK _ (hs (by simp)) _ (hrun (Evaluation.domainString_mem _)) hdomain
  obtain ⟨hname, hversion, hchain, hthis⟩ := EIP712.domainEncoding_inj hdomain
  simp only [Signing.structString, Query.structString, SeriesPublication.words,
    List.cons_append, List.nil_append, abiEncode_cons_inj, AbiValue.encode_bytes32_inj,
    AbiValue.encode_address_inj, AbiValue.encode_bytes4_inj, and_true, true_and] at hstruct
  obtain ⟨hmintIntent, hipfs, hzapper, htotal, hserial⟩ := hstruct
  have hname := hK _ (hs (by simp)) _ (hD (List.mem_append_left _ EIP712.name_mem)) hname
  have hversion := hK _ (hs (by simp)) _ (hD (List.mem_append_left _ EIP712.version_mem)) hversion
  have hmintIntent := hK _ (hs (by simp)) _ hstatement hmintIntent
  exact Signing.ext rfl (Domain.ext hname hversion hchain hthis)
    (ZapMintIntent.ext hmintIntent (ZapData.ext hipfs hzapper htotal hserial))

/-- Conversely, whoever signs the intent to mint `data` signs the digest the contract
computes. -/
theorem outcome_digest_signingOf {account : Address} :
    ((D.signingOf k account data).typedData.digest P.keccak256).outcome =
      .ok (intentDigest P (D.code P).value k data) := by
  rw [Signing.digest_eq]
  exact congrArg Except.ok
    (Query.value_eval (q := .zapMintIntent data.publication data.serialNumber)).symm

/-- No signature is forged where every account a mint names has signed the intent itself. -/
theorem unforgeable_of_signed {timeline : List Action}
    (h : ∀ before c rest, timeline = before ++ .call c :: rest →
      ∀ data, c.zapData (worldAfter P D before).state.owner = some data →
        ∀ p ∈ c.op.signatures (worldAfter P D before).state.owner,
          D.signingOf c.chainId p.2 data ∈ signed before) : Unforgeable P D timeline :=
  fun before c rest hsplit data hdata p hp _ =>
    ⟨_, h before c rest hsplit data hdata p hp, rfl, outcome_digest_signingOf⟩

end Binding

/-! ## The two parties of a call -/

section Parties

variable {P : Primitives} {Z : Deployed} {D : Deployment} {c : Call} {owner : Address}
  {data : ZapData}

/-- **Each party of a mint sent it, or a signature is checked against it.** -/
theorem Call.party_consents {party : Address} (hdata : c.zapData owner = some data)
    (hauth : c.Authenticated P Z owner) (hparty : party = data.zapper ∨ party = owner) :
    c.msgSender = party ∨ ∃ signature, (signature, party) ∈ c.op.signatures owner ∧
      (ECDSA.recover P.ecrecover (intentDigest P Z c.chainId data) signature).outcome =
        .ok party := by
  obtain ⟨howner, hsignatures⟩ := hauth data hdata
  have hsigned : (∃ signature, (signature, party) ∈ c.op.signatures owner) →
      ∃ signature, (signature, party) ∈ c.op.signatures owner ∧
        (ECDSA.recover P.ecrecover (intentDigest P Z c.chainId data) signature).outcome =
          .ok party := fun ⟨signature, hmem⟩ => ⟨signature, hmem, hsignatures _ hmem⟩
  obtain ⟨chainId, msgSender, op⟩ := c
  cases op with
  | mintByOwnerForOwner =>
    obtain rfl := Option.some.inj hdata
    exact Or.inl ((howner rfl).symm.trans (hparty.elim Eq.symm Eq.symm))
  | mintByOwner =>
    obtain rfl := Option.some.inj hdata
    rcases hparty with rfl | rfl
    · exact Or.inr (hsigned ⟨_, List.mem_singleton_self _⟩)
    · exact Or.inl (howner rfl).symm
  | mintByZapper =>
    obtain rfl := Option.some.inj hdata
    rcases hparty with rfl | rfl
    · exact Or.inl rfl
    · exact Or.inr (hsigned ⟨_, List.mem_singleton_self _⟩)
  | mintBySignatures =>
    obtain rfl := Option.some.inj hdata
    rcases hparty with rfl | rfl
    · exact Or.inr (hsigned ⟨_, List.mem_cons_self⟩)
    · exact Or.inr (hsigned ⟨_, List.mem_cons_of_mem _ (List.mem_singleton_self _)⟩)
  | _ => exact absurd hdata (by simp [Call.zapData, Op.zapData])

/-- A mint that checks a signature hashes the intent. -/
theorem intent_hashed_subset_strings {p : Bytes × Address} (hp : p ∈ c.op.signatures owner) :
    (eip712HashZapMintIntent P Z c.chainId data.publication data.serialNumber).hashed ⊆
      c.strings P Z owner data := by
  unfold Call.strings
  rw [if_neg (List.ne_nil_of_mem hp)]
  exact List.subset_append_left _ _

end Parties

/-! ## Consent along a timeline -/

/-- The call is a mint of `data`, and both its parties sent it or had signed the intent to
mint `data` here. -/
structure ConsentedMint (P : Primitives) (D : Deployment) (before : List Action) (c : Call)
    (data : ZapData) : Prop where
  zapData_eq : c.zapData (worldAfter P D before).state.owner = some data
  zapper_consents : c.msgSender = data.zapper ∨
    D.signingOf c.chainId data.zapper data ∈ signed before
  owner_consents : c.msgSender = (worldAfter P D before).state.owner ∨
    D.signingOf c.chainId (worldAfter P D before).state.owner data ∈ signed before

/-- The call makes a property of the state true. -/
def Creates (P : Primitives) (D : Deployment) (A : State → Prop) (before : List Action)
    (c : Call) : Prop :=
  ¬ A (worldAfter P D before).state ∧ A (worldAfter P D (before ++ [.call c])).state

section Timelines

variable {P : Primitives} {D : Deployment} {timeline before rest : List Action} {c : Call}
  {data : ZapData}

/-- **A signature that passes a check is consent**: the account has signed the intent to mint
this zap with this contract on this chain. -/
theorem signingOf_mem (hK : CollisionFree P.keccak256 (hashedIn P D timeline))
    (hforge : Unforgeable P D timeline) (hsplit : timeline = before ++ .call c :: rest)
    {r : State × List Event}
    (hx : (exec P (D.code P).value c (worldAfter P D before).state).outcome = .ok r)
    (hdata : c.zapData (worldAfter P D before).state.owner = some data) {p : Bytes × Address}
    (hp : p ∈ c.op.signatures (worldAfter P D before).state.owner)
    (hrecover : (ECDSA.recover P.ecrecover (intentDigest P (D.code P).value c.chainId data)
      p.1).outcome = .ok p.2) : D.signingOf c.chainId p.2 data ∈ signed before := by
  obtain ⟨s, hs, haccount, hdigest⟩ := hforge before c rest hsplit data hdata p hp hrecover
  have hm := mintedBy_of_mintOf (k := ⟨c, (worldAfter P D before).state, r.1, r.2⟩) hx
    (mintOf_eq_some hdata)
  subst hsplit
  have hcalls : calls (before ++ .call c :: rest) = calls before ++ c :: calls rest :=
    calls_append
  have hcontract : (D.code P).hashed ⊆ hashedIn P D (before ++ .call c :: rest) :=
    List.subset_append_of_subset_left _ code_hashed_subset_run
  have hintent : (eip712HashZapMintIntent P (D.code P).value c.chainId data.publication
      data.serialNumber).hashed ⊆ hashedIn P D (before ++ .call c :: rest) := by
    refine List.subset_append_of_subset_left _ ?_
    unfold worldAfter
    rw [hcalls]
    refine List.Subset.trans (intent_hashed_subset_strings hp)
      (List.Subset.trans ?_ hashed_exec_subset_run)
    exact strings_subset_hashed_exec hdata hm.authenticated hm.recordAllows hm.serial_lt
  have hsigning : (s.typedData.digest P.keccak256).hashed ⊆
      hashedIn P D (before ++ .call c :: rest) := by
    refine List.subset_append_of_subset_right _ fun b hb => List.mem_flatMap.mpr ⟨s, ?_, hb⟩
    rw [signed_append]
    exact List.mem_append_left _ hs
  have heq := eq_signingOf_of_digest_eq hK hcontract hintent hsigning hdigest
  rw [← haccount, ← heq]
  exact hs

/-- **Every mint that goes through has the consent of both parties.** -/
theorem consentedMint_of_exec (hK : CollisionFree P.keccak256 (hashedIn P D timeline))
    (hforge : Unforgeable P D timeline) (hsplit : timeline = before ++ .call c :: rest)
    {r : State × List Event}
    (hx : (exec P (D.code P).value c (worldAfter P D before).state).outcome = .ok r)
    (hdata : c.zapData (worldAfter P D before).state.owner = some data) :
    ConsentedMint P D before c data := by
  have hauth := ((outcome_exec_mint hdata).mp hx).1
  have hconsent : ∀ party,
      party = data.zapper ∨ party = (worldAfter P D before).state.owner →
      c.msgSender = party ∨ D.signingOf c.chainId party data ∈ signed before := by
    intro party hparty
    rcases c.party_consents hdata hauth hparty with hsender | ⟨signature, hp, hrecover⟩
    · exact Or.inl hsender
    · exact Or.inr (signingOf_mem hK hforge hsplit hx hdata hp hrecover)
  exact ⟨hdata, hconsent _ (Or.inl rfl), hconsent _ (Or.inr rfl)⟩

/-- What becomes true in a timeline becomes true at a call. -/
theorem exists_creates {A : State → Prop} (h₀ : ¬ A (genesis D))
    (h : A (worldAfter P D timeline).state) :
    ∃ before c rest, timeline = before ++ .call c :: rest ∧ Creates P D A before c := by
  obtain ⟨l₁, c, l₂, hsplit, hbefore, hafter⟩ :=
    World.exists_change (w := deployed P D) (A := A) h₀ h
  obtain ⟨before, rest, rfl, rfl, -⟩ := exists_split_of_calls hsplit
  refine ⟨before, c, rest, rfl, hbefore, ?_⟩
  unfold worldAfter
  rw [calls_concat]
  exact hafter

/-- A call that changes the state has gone through. -/
theorem Creates.exists_step {A : State → Prop} (h : Creates P D A before c) :
    ∃ post events, (exec P (D.code P).value c (worldAfter P D before).state).outcome =
      .ok (post, events) ∧ (worldAfter P D (before ++ [.call c])).state = post := by
  have hafter : worldAfter P D (before ++ [.call c]) =
      (worldAfter P D before).attempt (exec P (D.code P).value) c := by
    unfold worldAfter
    rw [calls_concat, run_concat]
  rcases World.attempt_cases (exec P (D.code P).value) (worldAfter P D before) c with
    ⟨post, events, hx, heq⟩ | ⟨-, heq⟩
  · exact ⟨post, events, hx, by rw [hafter, heq]⟩
  · obtain ⟨hbefore, hnow⟩ := h
    rw [hafter, heq] at hnow
    exact absurd hnow hbefore

/-- **Both parties have consented to everything the contract holds.**  In every timeline of
signings and calls, with any changes of owner and chain id, every token and every record
was created by a call, and every call that creates one is a mint of some zap whose zapper
and whose owner of the moment sent the call or had signed the intent to mint precisely that
zap with this contract on this chain. -/
theorem mints_consented (hK : CollisionFree P.keccak256 (hashedIn P D timeline))
    (hforge : Unforgeable P D timeline) :
    (∀ id, (worldAfter P D timeline).state.Exists id →
      ∃ before c rest, timeline = before ++ .call c :: rest ∧
        Creates P D (fun σ => σ.Exists id) before c) ∧
    (∀ key, (worldAfter P D timeline).state.seriesPublications key ≠ 0 →
      ∃ before c rest, timeline = before ++ .call c :: rest ∧
        Creates P D (fun σ => σ.seriesPublications key ≠ 0) before c) ∧
    ∀ before c rest, timeline = before ++ .call c :: rest →
      (∀ id, Creates P D (fun σ => σ.Exists id) before c →
        ∃ data, tokenId P (D.code P).value c.chainId data = id ∧
          ConsentedMint P D before c data) ∧
      (∀ key, Creates P D (fun σ => σ.seriesPublications key ≠ 0) before c →
        ∃ data, seriesKey P (D.code P).value c.chainId data.fingerprint = key ∧
          (worldAfter P D (before ++ [.call c])).state.seriesPublications key =
            data.publication ∧
          ConsentedMint P D before c data) := by
  refine ⟨fun id h => exists_creates (fun h₀ => absurd h₀ List.not_mem_nil) h,
    fun key h => exists_creates (not_not.mpr rfl) h, fun before c rest hsplit =>
      ⟨fun id hid => ?_, fun key hkey => ?_⟩⟩
  · obtain ⟨post, events, hx, hpost⟩ := hid.exists_step
    obtain ⟨hbefore, hafter⟩ := hid
    rw [hpost] at hafter
    cases step_of_exec hx with
    | mint data hdata hauth hrecord hserial hzapper hnew =>
      have hid := ((State.exists_afterMint hnew).mp hafter).resolve_left hbefore
      exact ⟨data, hid.symm, consentedMint_of_exec hK hforge hsplit hx hdata⟩
    | token token events hop heffect =>
      rw [ERC721.Exists, heffect.keys_eq] at hafter
      exact absurd hafter hbefore
    | ownership newOwner hsender hop => exact absurd hafter hbefore
  · obtain ⟨post, events, hx, hpost⟩ := hkey.exists_step
    obtain ⟨hbefore, hafter⟩ := hkey
    rw [hpost] at hafter ⊢
    cases step_of_exec hx with
    | mint data hdata hauth hrecord hserial hzapper hnew =>
      have hne : (worldAfter P D before).state.publicationsAfter
          (seriesKey P (D.code P).value c.chainId data.fingerprint) data key ≠
            (worldAfter P D before).state.seriesPublications key := by
        rw [show (worldAfter P D before).state.seriesPublications key = 0 from not_not.mp hbefore]
        exact hafter
      obtain ⟨hkey, hpublication⟩ := State.publicationsAfter_of_ne hne
      exact ⟨data, hkey, hpublication, consentedMint_of_exec hK hforge hsplit hx hdata⟩
    | token token events hop heffect => exact absurd hafter hbefore
    | ownership newOwner hsender hop => exact absurd hafter hbefore

namespace Sample

/-- The zapper signs the intent. -/
def signing : Action := .sign (deployment.signingOf 420 zapper (Sample.data 42))

/-- The deployer, who is the owner, mints with the signature. -/
def mintWithSignature : Call where
  chainId := 420
  msgSender := deployer
  op := .mintByOwner (Sample.data 42).ipfsHash (Sample.data 42).seriesTotal
    (Sample.data 42).serialNumber zapper signature

/-- The one event after the other. -/
def consent : List Action := [signing, .call mintWithSignature]

/-- The call is the second event. -/
theorem eq_of_consent_split {before rest : List Action} {c : Call}
    (h : consent = before ++ .call c :: rest) : before = [signing] ∧ c = mintWithSignature := by
  rcases before with _ | ⟨a, _ | ⟨b, before⟩⟩
  · simp [consent, signing] at h
  · obtain ⟨rfl, hrest⟩ := List.cons.inj h
    exact ⟨rfl, (Action.call.inj (List.cons.inj hrest).1).symm⟩
  · simp [consent] at h

end Sample

/-- The token of the sample exists, and was minted with the consent of both parties: the deployer
sent the call, and the zapper had signed. -/
theorem sample_consented :
    (worldAfter Sample.primitives Sample.deployment Sample.consent).state.Exists
      Sample.token42 ∧
    Creates Sample.primitives Sample.deployment (fun σ => σ.Exists Sample.token42)
      [Sample.signing] Sample.mintWithSignature ∧
    ConsentedMint Sample.primitives Sample.deployment [Sample.signing] Sample.mintWithSignature
      (Sample.data 42) := by
  have hK : CollisionFree Sample.primitives.keccak256
      (hashedIn Sample.primitives Sample.deployment Sample.consent) := by
    refine Sample.collisionFree ?_
    rw [Sample.primitives_eq]
    decide +kernel
  have hforge : Unforgeable Sample.primitives Sample.deployment Sample.consent := by
    refine unforgeable_of_signed ?_
    intro before c rest hsplit data hdata p hp
    obtain ⟨rfl, rfl⟩ := Sample.eq_of_consent_split hsplit
    obtain rfl := Option.some.inj hdata
    obtain rfl := List.mem_singleton.mp hp
    exact List.mem_singleton_self _
  have hexists : (worldAfter Sample.primitives Sample.deployment Sample.consent).state.Exists
      Sample.token42 := by
    rw [Sample.primitives_eq]
    decide +kernel
  obtain ⟨htokens, -, hcreated⟩ := mints_consented hK hforge
  obtain ⟨before, c, rest, hsplit, hcreates⟩ := htokens _ hexists
  obtain ⟨data, -, hconsented⟩ := (hcreated before c rest hsplit).1 _ hcreates
  obtain ⟨rfl, rfl⟩ := Sample.eq_of_consent_split hsplit
  obtain rfl := Option.some.inj hconsented.zapData_eq
  exact ⟨hexists, hcreates, hconsented⟩

end Timelines

end Zap
end OptimismZap
