import OptimismZap.Contract.Replay
import OptimismZap.OpenZeppelin.Enumeration

/-!
# Listing the tokens

Galleries list what an account holds by asking for its tokens one index after the
other.  In every state the contract can be in they get each token once and nothing
else, the indices that fail are those from the balance on, and the balances add up
to the supply (`tokens_enumerated`).  A position in the list of a holder is not for
ever, since the last token takes the place of one that leaves; but the events
determine it (`events_tell_positions`).
-/

namespace OptimismZap
namespace Zap

section Steps

variable {P : Primitives} {Z : Deployed} {c : Call} {σ σ' : State} {es : List Event}

/-- A successful call enters its events in the roster. -/
theorem Step.roster_eq (hstep : Step P Z c σ σ' es) (hwf : σ.toERC721.WellFormed) :
    σ'.roster = σ.roster.replay (tokenEntries es) := by
  cases hstep with
  | mint data hdata hauth hrecord hserial hzapper hnew =>
    rw [tokenEntries_mintEvents]
    exact hwf.roster_afterMint hnew
  | token token events hop heffect =>
    rw [tokenEntries_map_token]
    exact hwf.roster_effect heffect
  | ownership => rfl

end Steps

section Runs

variable {P : Primitives} {D : Deployment} {calls : List Call}

/-- **The tokens are listed exactly.**  In every reachable state the positions of a holder, up to
the balance, are those of the tokens of the holder, each once; the positions below the total
supply are those of all tokens, each once; all other positions revert; and the balances of all
holders add up to the supply. -/
theorem tokens_enumerated (P : Primitives) (D : Deployment) (calls : List Call) :
    (run P D calls).state.Enumerated :=
  recorded_run.wellFormed.enumerated

/-- **The events tell every position.**  In every reachable state the tokens of a holder stand in
the order in which they arrived, except that the last one has taken the place of each one that
left, a token sent to its own holder going to the end. -/
theorem events_tell_positions (P : Primitives) (D : Deployment) (calls : List Call)
    (owner : Address) (i : ℕ) :
    ((run P D calls).state.tokenOfOwnerByIndex owner i).outcome =
      (Ledger.Roster.replay (fun _ => []) (tokenEntries (events (run P D calls).log))
        owner)[i]?.elim (.error "EnumerableSet: index out of bounds") Except.ok := by
  have hroster : (run P D calls).state.roster =
      Ledger.Roster.replay (fun _ => []) (tokenEntries (events (run P D calls).log)) := by
    refine World.log_induction (Q := fun _ => True) (I := fun σ log => σ.roster =
      Ledger.Roster.replay (fun _ => []) (tokenEntries (events log))) ?_ (fun _ _ => trivial) rfl
    intro before c post es _ hx hI
    have hwf : (run P D before).state.WellFormed := recorded_run.wellFormed
    rw [events_concat, tokenEntries_append, Ledger.Roster.replay_append, ← hI]
    exact (step_of_exec hx).roster_eq hwf
  rw [ERC721.outcome_tokenOfOwnerByIndex, hroster]

end Runs

end Zap
end OptimismZap
