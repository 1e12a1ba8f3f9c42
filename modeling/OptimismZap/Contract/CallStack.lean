import OptimismZap.Contract.History

/-!
# Calls inside calls

`safeTransferFrom` hands control to the receiver before it returns, and the
receiver may call the contract again; any contract on the way may revert, which
undoes what happened since it was entered.  A run is therefore not a sequence of
calls but a walk through a stack of open frames.

Nothing is lost by treating it as a sequence.  The hook is the last thing a
transfer does, so a re-entered call finds the storage the transfer leaves behind,
and reverted frames leave no trace in storage or log.  `flat_of_reachable` says
that whatever a walk arrives at, also in the middle of a hook, a plain sequence
of calls arrives at too, and with no more hashed.  So what is proved of sequences
holds at every moment of a walk.
-/

namespace OptimismZap
namespace Zap

section Stack

variable (P : Primitives) (D : Deployment) (Q : Call → Prop)

/-- The worlds a walk can be in, with the worlds its open frames would revert to, the
innermost first.  All its calls have the property `Q`. -/
inductive Reachable : World → List World → Prop
  /-- The contract has been deployed. -/
  | deploy : Reachable (deployed P D) []
  /-- A call that does not hand over control runs to its end or reverts. -/
  | call {w : World} {frames : List World} (c : Call) (hQ : Q c) (h : Reachable w frames) :
      Reachable (w.attempt (exec P (D.code P).value) c) frames
  /-- A transfer to a contract has reached the hook of the receiver, which may revert it. -/
  | hook {w : World} {frames : List World} (c : Call) (hQ : Q c)
      {fromAddr toAddr : Address} {tokenId : Uint256} {data : Bytes}
      (hop : c.op = .safeTransferFrom fromAddr toAddr tokenId data true)
      (hsucceeds : (exec P (D.code P).value c w.state).Succeeds) (h : Reachable w frames) :
      Reachable (w.attempt (exec P (D.code P).value) c) (w :: frames)
  /-- Another contract is entered. -/
  | enter {w : World} {frames : List World} (h : Reachable w frames) : Reachable w (w :: frames)
  /-- The innermost frame returns. -/
  | leave {w fallback : World} {frames : List World} (h : Reachable w (fallback :: frames)) :
      Reachable w frames
  /-- The innermost frame reverts.  What has been hashed has been hashed. -/
  | revert {w fallback : World} {frames : List World} (h : Reachable w (fallback :: frames)) :
      Reachable ⟨fallback.state, fallback.log, w.hashed⟩ frames

/-- A sequence of calls arrives at the same state with the same log, and hashes no more. -/
def Flat (w : World) : Prop :=
  ∃ calls, (∀ c ∈ calls, Q c) ∧ (run P D calls).state = w.state ∧
    (run P D calls).log = w.log ∧ (run P D calls).hashed ⊆ w.hashed

variable {P D Q} {w : World} {frames : List World}

theorem Flat.mono (h : Flat P D Q w) {H : List Bytes} (hH : w.hashed ⊆ H) :
    Flat P D Q ⟨w.state, w.log, H⟩ := by
  obtain ⟨calls, hQ, hstate, hlog, hhashed⟩ := h
  exact ⟨calls, hQ, hstate, hlog, List.Subset.trans hhashed hH⟩

theorem Flat.attempt (h : Flat P D Q w) {c : Call} (hc : Q c) :
    Flat P D Q (w.attempt (exec P (D.code P).value) c) := by
  obtain ⟨calls, hQ, hstate, hlog, hhashed⟩ := h
  refine ⟨calls ++ [c], ?_, ?_⟩
  · exact List.forall_mem_append.mpr ⟨hQ, List.forall_mem_singleton.mpr hc⟩
  · have hsub : (run P D calls).hashed ++ (exec P (D.code P).value c w.state).hashed ⊆
        w.hashed ++ (exec P (D.code P).value c w.state).hashed :=
      List.append_subset.mpr ⟨List.subset_append_of_subset_left _ hhashed,
        List.subset_append_right _ _⟩
    rw [run_concat]
    rcases World.attempt_cases (exec P (D.code P).value) w c with
      ⟨post, events, hx, heq⟩ | ⟨hfail, heq⟩
    · rw [heq, World.attempt_of_ok (hstate ▸ hx), hlog, hstate]
      exact ⟨rfl, rfl, hsub⟩
    · rw [heq, World.attempt_of_revert (hstate ▸ hfail), hlog, hstate]
      exact ⟨rfl, rfl, hsub⟩

/-- **Re-entrance adds nothing to sequences of calls.**  The world a walk is in is that of a
sequence, and so is every world an open frame would revert to. -/
theorem flat_of_reachable (h : Reachable P D Q w frames) :
    Flat P D Q w ∧ ∀ fallback ∈ frames, Flat P D Q fallback ∧ fallback.hashed ⊆ w.hashed := by
  have hgrow : ∀ {w : World} {c : Call},
      w.hashed ⊆ (w.attempt (exec P (D.code P).value) c).hashed := by
    intro w c
    rw [World.hashed_attempt]
    exact List.subset_append_left _ _
  induction h with
  | deploy => exact ⟨⟨[], by simp, rfl, rfl, List.Subset.refl _⟩, by simp⟩
  | call c hQ _ ih =>
    exact ⟨ih.1.attempt hQ, fun f hf => ⟨(ih.2 f hf).1, List.Subset.trans (ih.2 f hf).2 hgrow⟩⟩
  | hook c hQ _ _ _ ih =>
    refine ⟨ih.1.attempt hQ, fun f hf => ?_⟩
    rcases List.mem_cons.mp hf with rfl | hf
    · exact ⟨ih.1, hgrow⟩
    · exact ⟨(ih.2 f hf).1, List.Subset.trans (ih.2 f hf).2 hgrow⟩
  | enter _ ih =>
    refine ⟨ih.1, fun f hf => ?_⟩
    rcases List.mem_cons.mp hf with rfl | hf
    · exact ⟨ih.1, List.Subset.refl _⟩
    · exact ih.2 f hf
  | leave _ ih => exact ⟨ih.1, fun f hf => ih.2 f (List.mem_cons_of_mem _ hf)⟩
  | revert _ ih =>
    obtain ⟨hflat, hsub⟩ := ih.2 _ List.mem_cons_self
    exact ⟨hflat.mono hsub, fun f hf => ih.2 f (List.mem_cons_of_mem _ hf)⟩

end Stack

end Zap
end OptimismZap
