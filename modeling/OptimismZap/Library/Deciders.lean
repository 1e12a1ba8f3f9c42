import OptimismZap.Library.Runs

/-!
# Deciders and their implementations

A decider is a machine that lives by its events: asked for something it refuses
or decides on a list of events, and its state is what the events make of it.

A program with calls that may revert implements a decider when a call goes through
exactly if the decider does not refuse what the call asks for, and then emits what
was decided.  `World.refines_run` is the simulation rule: if each call in a world
the run has come to keeps the two in step, whole runs are in step, and their
events are the same.
-/

namespace OptimismZap

/-- A machine that decides on events and records them. -/
structure Decider (τ κ δ : Type) where
  decide : τ → κ → Option (List δ)
  record : τ → δ → τ

namespace Decider

variable {τ κ δ α : Type} (M : Decider τ κ δ) (ask : τ → α → Option κ)

/-- The state after a list of events. -/
def replay (s : τ) (ds : List δ) : τ := ds.foldl M.record s

/-- The answer to a call that may not even ask for anything. -/
def respond (s : τ) (c : α) : Option (List δ) := (ask s c).bind (M.decide s)

/-- One call.  A refusal changes nothing. -/
def attempt (book : τ × List δ) (c : α) : τ × List δ :=
  match M.respond ask book.1 c with
  | some ds => (M.replay book.1 ds, book.2 ++ ds)
  | none => book

/-- The state after a sequence of calls, with all events so far. -/
def run (s : τ) (calls : List α) : τ × List δ := calls.foldl (M.attempt ask) (s, [])

variable {M ask} {s : τ} {calls : List α} {c : α}

theorem run_concat : M.run ask s (calls ++ [c]) = M.attempt ask (M.run ask s calls) c :=
  List.foldl_append

end Decider

namespace World

variable {σ α ε τ κ δ β : Type} {exec : α → σ → Exec (σ × List ε)} {w : World σ α ε}
  {calls : List α}

/-- The call goes through exactly if the decider answers, with the events of the answer, and
the relation holds afterwards. -/
structure InStep (exec : α → σ → Exec (σ × List ε)) (M : Decider τ κ δ) (ask : τ → α → Option κ)
    (render : δ → ε) (R : World σ α ε → τ → Prop) (w : World σ α ε) (s : τ) (c : α) : Prop where
  answered : ∀ ds, M.respond ask s c = some ds → (exec c w.state).Succeeds
  decided : ∀ post es, (exec c w.state).outcome = .ok (post, es) →
    ∃ ds, M.respond ask s c = some ds ∧ es = ds.map render ∧
      R (w.attempt exec c) (M.replay s ds)
  reverted : ¬ (exec c w.state).Succeeds → R (w.attempt exec c) s

/-- **The simulation rule.**  The step may assume that there is no collision among the strings
hashed up to the end of the call. -/
theorem refines_run {M : Decider τ κ δ} {ask : τ → α → Option κ} {render : δ → ε}
    {R : World σ α ε → τ → Prop} {K : Bytes → β} {s : τ}
    (step : ∀ before c t, CollisionFree K
        ((w.run exec before).hashed ++ (exec c (w.run exec before).state).hashed) →
      R (w.run exec before) t → InStep exec M ask render R (w.run exec before) t c)
    (hK : CollisionFree K (w.run exec calls).hashed) (h : R w s) (hlog : w.log = []) :
    R (w.run exec calls) (M.run ask s calls).1 ∧
      (w.run exec calls).log.flatMap Commit.events = (M.run ask s calls).2.map render := by
  induction calls using List.reverseRecOn with
  | nil => exact ⟨h, by rw [run_nil, hlog]; rfl⟩
  | append_singleton before c ih =>
    rw [run_concat, hashed_attempt] at hK
    obtain ⟨hR, hevents⟩ := ih hK.append_left
    have hstep := step before c _ hK hR
    rw [run_concat, Decider.run_concat]
    unfold Decider.attempt
    by_cases hx : (exec c (w.run exec before).state).Succeeds
    · obtain ⟨⟨post, es⟩, hx⟩ := hx
      obtain ⟨ds, hds, rfl, hnext⟩ := hstep.decided post es hx
      rw [hds]
      refine ⟨hnext, ?_⟩
      rw [attempt_of_ok hx, List.flatMap_append, hevents, List.map_append]
      simp
    · have hnone : M.respond ask (M.run ask s before).1 c = none := by
        rw [Option.eq_none_iff_forall_ne_some]
        exact fun ds hds => hx (hstep.answered ds hds)
      rw [hnone]
      refine ⟨hstep.reverted hx, ?_⟩
      rw [attempt_of_revert hx]
      exact hevents

end World

end OptimismZap
