import OptimismZap.Library.Ledgers
import OptimismZap.Library.PositionTable

/-!
# Who keeps what in which order

A ledger says what an account holds; a roster says in which order.  A token that
arrives goes to the end, and a token that departs leaves its place to the last
one, so the order is a function of the history of entries.
-/

namespace OptimismZap
namespace Ledger

/-- The tokens of each account, in order. -/
abbrev Roster (α τ : Type) := α → List τ

namespace Roster

variable {α τ : Type} [DecidableEq α] [DecidableEq τ]

/-- The roster with one more entry. -/
def enter (R : Roster α τ) : Entry α τ → Roster α τ
  | .transfer fromAccount toAccount token =>
    let departed := Function.update R fromAccount (withdraw (R fromAccount) token)
    Function.update departed toAccount (departed toAccount ++ [token])
  | _ => R

/-- The roster after a sequence of entries. -/
def replay (R : Roster α τ) (entries : List (Entry α τ)) : Roster α τ := entries.foldl enter R

variable {R : Roster α τ} {entries entries' : List (Entry α τ)}

/-- Three tokens arrive, and the first is sent to its own holder. -/
example : replay (fun _ => []) [Entry.transfer 0 7 1, .transfer 0 7 2, .transfer 0 7 3,
    .transfer 7 7 1] 7 = [3, 2, 1] := by decide

theorem replay_append : R.replay (entries ++ entries') = (R.replay entries).replay entries' :=
  List.foldl_append

end Roster
end Ledger
end OptimismZap
