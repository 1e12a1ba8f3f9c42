import OptimismZap.Contract.CallStack
import OptimismZap.Contract.Registry

/-!
# Re-entrance is harmless

A receiver hook may call the contract again, in any way and to any depth, and any
frame on the way may revert.  `nested_of_reachable` describes the whole stack of a
walk: from the deployment to the outermost frame, from each frame to the next
inner one, and from the innermost frame to the present there is a plain sequence
of calls.  Hence nothing a frame found is changed behind its back, and what holds
of sequences holds in the middle of a hook: the calls that went through, made one
after the other, lead there (`run_log_of_reachable`), and the tables are those of
the registry that is asked for these calls (`reentrancy_harmless`).

A hook finds its transfer done.  The token is with the receiver and approved to
nobody, so there is no half-way state to take advantage of (`hook_finds_transfer`).
-/

namespace OptimismZap
namespace Zap

section Stack

variable {P : Primitives} {D : Deployment} {Q : Call → Prop} {u w : World} {frames : List World}

/-- A sequence of calls leads from the first world to the state and the log of the second. -/
def Reaches (P : Primitives) (D : Deployment) (Q : Call → Prop) (u w : World) : Prop :=
  ∃ calls, (∀ c ∈ calls, Q c) ∧ (u.run (exec P (D.code P).value) calls).state = w.state ∧
    (u.run (exec P (D.code P).value) calls).log = w.log

theorem reaches_refl : Reaches P D Q w w := ⟨[], by simp, rfl, rfl⟩

theorem Reaches.attempt (h : Reaches P D Q u w) {c : Call} (hc : Q c) :
    Reaches P D Q u (w.attempt (exec P (D.code P).value) c) := by
  obtain ⟨calls, hQ, hstate, hlog⟩ := h
  refine ⟨calls ++ [c], ?_, ?_⟩
  · exact List.forall_mem_append.mpr ⟨hQ, List.forall_mem_singleton.mpr hc⟩
  · rw [World.run_concat]
    exact World.attempt_congr hstate hlog

/-- **Every world of the stack comes from every outer one by a sequence of calls**, and all come
from the deployment. -/
theorem nested_of_reachable (h : Reachable P D Q w frames) :
    (w :: (frames ++ [deployed P D])).Pairwise fun inner outer => Reaches P D Q outer inner := by
  -- a call changes the innermost world only
  have hattempt : ∀ {w : World} {outer : List World} {c : Call}, Q c →
      (w :: outer).Pairwise (fun inner outer => Reaches P D Q outer inner) →
        (w.attempt (exec P (D.code P).value) c :: outer).Pairwise
          fun inner outer => Reaches P D Q outer inner := by
    intro w outer c hc h
    obtain ⟨hw, houter⟩ := List.pairwise_cons.mp h
    exact List.pairwise_cons.mpr ⟨fun u hu => (hw u hu).attempt hc, houter⟩
  -- entering a frame doubles it
  have henter : ∀ {w : World} {outer : List World},
      (w :: outer).Pairwise (fun inner outer => Reaches P D Q outer inner) →
        (w :: w :: outer).Pairwise fun inner outer => Reaches P D Q outer inner := by
    intro w outer h
    refine List.pairwise_cons.mpr ⟨fun u hu => ?_, h⟩
    rcases List.mem_cons.mp hu with rfl | hu
    · exact reaches_refl
    · exact (List.pairwise_cons.mp h).1 u hu
  induction h with
  | deploy => simp [reaches_refl]
  | call c hQ _ ih => exact hattempt hQ ih
  | hook c hQ _ _ _ ih => exact hattempt hQ (henter ih)
  | enter _ ih => exact henter ih
  | leave _ ih =>
    obtain ⟨hw, houter⟩ := List.pairwise_cons.mp ih
    exact List.pairwise_cons.mpr
      ⟨fun u hu => hw u (List.mem_cons_of_mem _ hu), (List.pairwise_cons.mp houter).2⟩
  | revert _ ih =>
    obtain ⟨-, houter⟩ := List.pairwise_cons.mp ih
    obtain ⟨hfallback, houter⟩ := List.pairwise_cons.mp houter
    exact List.pairwise_cons.mpr ⟨fun u hu => hfallback u hu, houter⟩

/-- The calls that went through lead to where the walk is, and hash no more. -/
theorem run_log_of_reachable (h : Reachable P D Q w frames) :
    (run P D (w.log.map Commit.call)).state = w.state ∧
      (run P D (w.log.map Commit.call)).log = w.log ∧
      (run P D (w.log.map Commit.call)).hashed ⊆ w.hashed := by
  obtain ⟨calls, -, hstate, hlog, hhashed⟩ := (flat_of_reachable h).1
  obtain ⟨hstate', hlog', hhashed'⟩ :
      (run P D ((run P D calls).log.map Commit.call)).state = (run P D calls).state ∧
        (run P D ((run P D calls).log.map Commit.call)).log = (run P D calls).log ∧
        (run P D ((run P D calls).log.map Commit.call)).hashed ⊆ (run P D calls).hashed :=
    World.run_log rfl
  rw [hlog] at hstate' hlog' hhashed'
  exact ⟨hstate'.trans hstate, hlog', List.Subset.trans hhashed' hhashed⟩

/-- A hook finds the token with its receiver and approved to nobody. -/
theorem hook_finds_transfer {c : Call} {fromAddr toAddr : Address} {tokenId : Uint256}
    {data : Bytes} (hop : c.op = .safeTransferFrom fromAddr toAddr tokenId data true)
    (hsucceeds : (exec P (D.code P).value c w.state).Succeeds) :
    ((w.attempt (exec P (D.code P).value) c).state.ownerOf tokenId).outcome = .ok toAddr ∧
      ((w.attempt (exec P (D.code P).value) c).state.getApproved tokenId).outcome = .ok 0 := by
  obtain ⟨⟨σ', es⟩, hx⟩ := hsucceeds
  rw [World.attempt_of_ok hx]
  have hafter : σ'.toERC721 = w.state.toERC721.afterTransfer fromAddr toAddr tokenId := by
    simp only [exec, hop, State.onToken, ERC721.safeTransferFrom, Exec.outcome_bind_eq_ok,
      Exec.outcome_pure_eq_ok, ERC721.outcome_transfer_eq_ok] at hx
    obtain ⟨-, ⟨-, -, -, -, -, ⟨-, -, rfl⟩, -, -, rfl⟩, heq⟩ := hx
    exact congrArg (fun r => r.1.toERC721) heq.symm
  have hholder : (w.state.toERC721.afterTransfer fromAddr toAddr tokenId).ledger.holder tokenId =
      some toAddr := by
    show (w.state.tokenOwners.set tokenId toAddr).1.lookup tokenId = some toAddr
    rw [EnumerableMap.lookup_set, Function.update_self]
  have happroved : (w.state.toERC721.afterTransfer fromAddr toAddr tokenId).ledger.approved
      tokenId = 0 := Function.update_self _ _ _
  rw [ERC721.outcome_ownerOf, ERC721.outcome_getApproved, hafter, hholder, happroved]
  exact ⟨rfl, rfl⟩

/-- **Re-entrance is harmless.**  At every moment of a walk each open frame leads to all inner
ones and to the present by a plain sequence of calls, as the deployment does.  The calls that went
through lead there when they are made one after the other, and without collisions the tables are
those of the registry that is asked for them.  A hook that runs next finds its token with the
receiver, approved to nobody. -/
theorem reentrancy_harmless (h : Reachable P D Q w frames) :
    (w :: (frames ++ [deployed P D])).Pairwise (fun inner outer => Reaches P D Q outer inner) ∧
    (run P D (w.log.map Commit.call)).state = w.state ∧
    (run P D (w.log.map Commit.call)).log = w.log ∧
    (CollisionFree P.keccak256 w.hashed →
      Shows P (D.code P).value w (registryRun P D (w.log.map Commit.call)).1) ∧
    ∀ c fromAddr toAddr tokenId data, c.op = .safeTransferFrom fromAddr toAddr tokenId data true →
      (exec P (D.code P).value c w.state).Succeeds →
        ((w.attempt (exec P (D.code P).value) c).state.ownerOf tokenId).outcome = .ok toAddr ∧
        ((w.attempt (exec P (D.code P).value) c).state.getApproved tokenId).outcome = .ok 0 := by
  obtain ⟨hstate, hlog, hhashed⟩ := run_log_of_reachable h
  refine ⟨nested_of_reachable h, hstate, hlog, fun hK => ?_,
    fun c fromAddr toAddr tokenId data hop hsucceeds => hook_finds_transfer hop hsucceeds⟩
  obtain ⟨⟨hzaps, howner, hledger⟩, hkeys, hrecord⟩ := shows_run (hK.mono hhashed)
  rw [hstate] at howner hledger hkeys hrecord
  rw [hlog] at hzaps
  exact ⟨⟨hzaps, howner, hledger⟩, hkeys, hrecord⟩

namespace Sample

/-- The zapper sends the token to the deployer, whose hook is called. -/
def sendToken : Call := ⟨420, zapper, .safeTransferFrom zapper deployer token42 [] true⟩

/-- The hook approves the zapper for the token. -/
def approveBack : Call := ⟨420, deployer, .approve zapper token42⟩

/-- The zapper sends the token, and the hook calls the contract. -/
theorem reachable_hook : Reachable primitives deployment (fun c => c.chainId = 420)
    (run primitives deployment [handover, mint 420 42, sendToken, approveBack])
    [run primitives deployment [handover, mint 420 42]] := by
  have hdeploy : Reachable primitives deployment (fun c => c.chainId = 420)
      (deployed primitives deployment) [] := .deploy
  have hmints : Reachable primitives deployment (fun c => c.chainId = 420)
      (run primitives deployment [handover, mint 420 42]) [] :=
    (hdeploy.call handover (by rfl)).call (mint 420 42) (by rfl)
  have hsucceeds : (exec primitives (deployment.code primitives).value sendToken
      (run primitives deployment [handover, mint 420 42]).state).Succeeds := by
    rw [primitives_eq]
    decide +kernel
  have hhook := hmints.hook sendToken (by rfl) rfl hsucceeds
  have hcall := hhook.call approveBack (by rfl)
  rw [← run_concat, ← run_concat] at hcall
  exact hcall

end Sample

/-- In the middle of the hook the tables are those of the registry that was asked for the four
calls, and the token is with the deployer. -/
theorem sample_reentrancy :
    [run Sample.primitives Sample.deployment
        [Sample.handover, Sample.mint 420 42, Sample.sendToken, Sample.approveBack],
      run Sample.primitives Sample.deployment [Sample.handover, Sample.mint 420 42],
      deployed Sample.primitives Sample.deployment].Pairwise (fun inner outer =>
        Reaches Sample.primitives Sample.deployment (fun c => c.chainId = 420) outer inner) ∧
    Shows Sample.primitives (Sample.deployment.code Sample.primitives).value
      (run Sample.primitives Sample.deployment
        [Sample.handover, Sample.mint 420 42, Sample.sendToken, Sample.approveBack])
      (registryRun Sample.primitives Sample.deployment
        [Sample.handover, Sample.mint 420 42, Sample.sendToken, Sample.approveBack]).1 ∧
    ((run Sample.primitives Sample.deployment [Sample.handover, Sample.mint 420 42,
      Sample.sendToken, Sample.approveBack]).state.ownerOf Sample.token42).outcome =
        .ok Sample.deployer := by
  have h := reentrancy_harmless Sample.reachable_hook
  have hcalls : (run Sample.primitives Sample.deployment [Sample.handover, Sample.mint 420 42,
      Sample.sendToken, Sample.approveBack]).log.map Commit.call =
        [Sample.handover, Sample.mint 420 42, Sample.sendToken, Sample.approveBack] := by
    rw [Sample.primitives_eq]
    decide +kernel
  rw [hcalls] at h
  refine ⟨h.1, h.2.2.2.1 (Sample.collisionFree ?_), ?_⟩
  all_goals
    rw [Sample.primitives_eq]
    decide +kernel

end Stack

end Zap
end OptimismZap
