import OptimismZap.Library.Hashing

/-!
# Runs of calls that may revert

A program driven by calls has a state; a call either goes through, with a new
state and some events, or reverts and leaves the state alone.  A `World` keeps
book of a run: the state it is in, the log of the calls that went through, each
with the states before and after it, and all strings hashed so far.  A call that
reverts adds to the third and to nothing else.

* `run_induction` is the invariant rule.  A property of the state and the log only
  has to be kept by the calls that go through (`log_induction`, and
  `state_induction` for the state alone).
* In `log_induction_of_collisionFree` the step may assume that there is no
  collision among the strings hashed up to and including the step: if there is
  none in the whole run there is none in any part of it.
* `run_log` makes the calls that went through once more, without the others.
* `filter_induction` compares a run with what is left of it when some calls are left
  out.
* `exists_split` is the way back from an entry of the log to the call that put
  it there, `Commit.exists_of_events_split` from an event to its entry.
-/

namespace OptimismZap

/-- A call that went through. -/
structure Commit (σ α ε : Type) where
  call : α
  /-- The state before the call. -/
  pre : σ
  /-- The state after the call. -/
  post : σ
  /-- The events the call emitted. -/
  events : List ε

/-- The books of a run. -/
structure World (σ α ε : Type) where
  state : σ
  /-- The calls that went through, in order. -/
  log : List (Commit σ α ε)
  /-- The strings hashed so far, also by calls that reverted. -/
  hashed : List Bytes

namespace World

variable {σ α ε β : Type} (exec : α → σ → Exec (σ × List ε))

/-- One call, which may revert. -/
def attempt (w : World σ α ε) (c : α) : World σ α ε :=
  let x := exec c w.state
  match x.outcome with
  | .ok (post, events) => ⟨post, w.log ++ [⟨c, w.state, post, events⟩], w.hashed ++ x.hashed⟩
  | .error _ => ⟨w.state, w.log, w.hashed ++ x.hashed⟩

/-- A sequence of calls. -/
def run (w : World σ α ε) (calls : List α) : World σ α ε := calls.foldl (attempt exec) w

variable {exec} {w : World σ α ε} {c : α} {calls calls' : List α}

/-! ## One call -/

theorem attempt_of_ok {post : σ} {events : List ε}
    (h : (exec c w.state).outcome = .ok (post, events)) : w.attempt exec c =
      ⟨post, w.log ++ [⟨c, w.state, post, events⟩], w.hashed ++ (exec c w.state).hashed⟩ := by
  simp only [attempt, h]

theorem attempt_of_revert (h : ¬ (exec c w.state).Succeeds) : w.attempt exec c =
    ⟨w.state, w.log, w.hashed ++ (exec c w.state).hashed⟩ := by
  cases hx : (exec c w.state).outcome with
  | ok r => exact absurd (Exec.succeeds_of_outcome hx) h
  | error message => simp only [attempt, hx]

/-- A call goes through or reverts. -/
theorem attempt_cases (exec : α → σ → Exec (σ × List ε)) (w : World σ α ε) (c : α) :
    (∃ post events, (exec c w.state).outcome = .ok (post, events) ∧ w.attempt exec c =
      ⟨post, w.log ++ [⟨c, w.state, post, events⟩], w.hashed ++ (exec c w.state).hashed⟩) ∨
    (¬ (exec c w.state).Succeeds ∧ w.attempt exec c =
      ⟨w.state, w.log, w.hashed ++ (exec c w.state).hashed⟩) := by
  by_cases h : (exec c w.state).Succeeds
  · obtain ⟨⟨post, events⟩, hx⟩ := h
    exact Or.inl ⟨post, events, hx, attempt_of_ok hx⟩
  · exact Or.inr ⟨h, attempt_of_revert h⟩

@[simp] theorem hashed_attempt :
    (w.attempt exec c).hashed = w.hashed ++ (exec c w.state).hashed := by
  rcases attempt_cases exec w c with ⟨post, events, -, heq⟩ | ⟨-, heq⟩
  · rw [heq]
  · rw [heq]

/-- What a call does to state and log depends on these only. -/
theorem attempt_congr {w' : World σ α ε} (hstate : w.state = w'.state) (hlog : w.log = w'.log) :
    (w.attempt exec c).state = (w'.attempt exec c).state ∧
      (w.attempt exec c).log = (w'.attempt exec c).log := by
  rcases attempt_cases exec w c with ⟨post, events, hx, heq⟩ | ⟨hx, heq⟩
  · rw [heq, attempt_of_ok (hstate ▸ hx), hlog, hstate]
    exact ⟨rfl, rfl⟩
  · rw [heq, attempt_of_revert (hstate ▸ hx)]
    exact ⟨hstate, hlog⟩

theorem log_prefix_attempt : w.log <+: (w.attempt exec c).log := by
  rcases attempt_cases exec w c with ⟨post, events, -, heq⟩ | ⟨-, heq⟩
  · rw [heq]
    exact List.prefix_append _ _
  · have hlog : (w.attempt exec c).log = w.log := by rw [heq]
    exact hlog ▸ List.prefix_rfl

/-! ## Sequences of calls -/

@[simp] theorem run_nil : w.run exec [] = w := rfl

theorem run_append : w.run exec (calls ++ calls') = (w.run exec calls).run exec calls' :=
  List.foldl_append

theorem run_concat : w.run exec (calls ++ [c]) = (w.run exec calls).attempt exec c :=
  run_append

/-- Nothing hashed is forgotten. -/
theorem hashed_subset_run : w.hashed ⊆ (w.run exec calls).hashed := by
  induction calls generalizing w with
  | nil => exact List.Subset.refl _
  | cons c calls ih =>
    refine List.Subset.trans ?_ ih
    rw [hashed_attempt]
    exact List.subset_append_left _ _

/-- The log only grows. -/
theorem log_prefix_run : w.log <+: (w.run exec calls).log := by
  induction calls generalizing w with
  | nil => exact List.prefix_rfl
  | cons c calls ih => exact log_prefix_attempt.trans ih

/-- **The log is a run of its own.**  The calls that went through, made one after the other, lead
to the same state and the same log, and hash nothing else. -/
theorem run_log (h : w.log = []) :
    (w.run exec ((w.run exec calls).log.map Commit.call)).state = (w.run exec calls).state ∧
      (w.run exec ((w.run exec calls).log.map Commit.call)).log = (w.run exec calls).log ∧
      (w.run exec ((w.run exec calls).log.map Commit.call)).hashed ⊆
        (w.run exec calls).hashed := by
  induction calls using List.reverseRecOn with
  | nil =>
    rw [run_nil, h]
    exact ⟨rfl, h, List.Subset.refl _⟩
  | append_singleton calls c ih =>
    obtain ⟨hstate, hlog, hhashed⟩ := ih
    rw [run_concat, hashed_attempt]
    rcases attempt_cases exec (w.run exec calls) c with ⟨post, events, -, heq⟩ | ⟨-, heq⟩
    · have hcongr := @attempt_congr _ _ _ exec _ c _ hstate hlog
      have hcalls : ((w.run exec calls).attempt exec c).log.map Commit.call =
          (w.run exec calls).log.map Commit.call ++ [c] := by
        rw [heq, List.map_append]
        rfl
      rw [hcalls, run_concat, hashed_attempt, hstate]
      exact ⟨hcongr.1, hcongr.2, List.append_subset.mpr
        ⟨List.subset_append_of_subset_left _ hhashed, List.subset_append_right _ _⟩⟩
    · rw [heq]
      exact ⟨hstate, hlog, List.subset_append_of_subset_left _ hhashed⟩

/-- **The invariant rule.**  What one call with the property `Q` keeps, every run of
such calls keeps.  The call is made in a world the run has come to. -/
theorem run_induction {Q : α → Prop} {I : World σ α ε → Prop}
    (step : ∀ before c, Q c → I (w.run exec before) → I ((w.run exec before).attempt exec c))
    (hQ : ∀ c ∈ calls, Q c) (h : I w) : I (w.run exec calls) := by
  induction calls using List.reverseRecOn with
  | nil => exact h
  | append_singleton before c ih =>
    rw [run_concat]
    refine step before c (hQ c (List.mem_append_right _ (List.mem_singleton_self c))) (ih ?_)
    exact fun c' hc' => hQ c' (List.mem_append_left _ hc')

/-- **The invariant rule for the state and the log.**  A call that reverts changes neither, so
only the calls that go through have to keep `I`. -/
theorem log_induction {Q : α → Prop} {I : σ → List (Commit σ α ε) → Prop}
    (step : ∀ before c post events, Q c →
      (exec c (w.run exec before).state).outcome = .ok (post, events) →
      I (w.run exec before).state (w.run exec before).log →
      I post ((w.run exec before).log ++ [⟨c, (w.run exec before).state, post, events⟩]))
    (hQ : ∀ c ∈ calls, Q c) (h : I w.state w.log) :
    I (w.run exec calls).state (w.run exec calls).log := by
  refine run_induction (I := fun w => I w.state w.log) ?_ hQ h
  intro before c hc hI
  rcases attempt_cases exec (w.run exec before) c with ⟨post, events, hx, heq⟩ | ⟨-, heq⟩
  · rw [heq]
    exact step before c post events hc hx hI
  · rw [heq]
    exact hI

/-- **The same without collisions.**  The step may assume that `K` has no collision among the
strings hashed up to the end of the call. -/
theorem log_induction_of_collisionFree {K : Bytes → β} {I : σ → List (Commit σ α ε) → Prop}
    (step : ∀ before c post events, CollisionFree K
        ((w.run exec before).hashed ++ (exec c (w.run exec before).state).hashed) →
      (exec c (w.run exec before).state).outcome = .ok (post, events) →
      I (w.run exec before).state (w.run exec before).log →
      I post ((w.run exec before).log ++ [⟨c, (w.run exec before).state, post, events⟩]))
    (hK : CollisionFree K (w.run exec calls).hashed) (h : I w.state w.log) :
    I (w.run exec calls).state (w.run exec calls).log := by
  refine run_induction (Q := fun _ => True)
    (I := fun w => CollisionFree K w.hashed → I w.state w.log) ?_ (fun _ _ => trivial)
    (fun _ => h) hK
  intro before c _ hI hK
  rw [hashed_attempt] at hK
  rcases attempt_cases exec (w.run exec before) c with ⟨post, events, hx, heq⟩ | ⟨-, heq⟩
  · rw [heq]
    exact step before c post events hK hx (hI hK.append_left)
  · rw [heq]
    exact hI hK.append_left

/-- **The invariant rule for states.**  What every call that goes through keeps, every
run keeps. -/
theorem state_induction {Q : α → Prop} {I : σ → Prop}
    (step : ∀ c s s' events, Q c → (exec c s).outcome = .ok (s', events) → I s → I s')
    (hQ : ∀ c ∈ calls, Q c) (h : I w.state) : I (w.run exec calls).state := by
  refine log_induction (I := fun s _ => I s) ?_ hQ h
  intro before c post events hc hx hI
  exact step c _ post events hc hx hI

/-- What is false of the first state and true of the last becomes true at some call. -/
theorem exists_change {A : σ → Prop} (h₀ : ¬ A w.state) (h : A (w.run exec calls).state) :
    ∃ before c after, calls = before ++ c :: after ∧ ¬ A (w.run exec before).state ∧
      A (w.run exec (before ++ [c])).state := by
  induction calls using List.reverseRecOn with
  | nil => exact absurd h h₀
  | append_singleton calls c ih =>
    by_cases hbefore : A (w.run exec calls).state
    · obtain ⟨before, c', after, rfl, hchange⟩ := ih hbefore
      exact ⟨before, c', after ++ [c], by simp, hchange⟩
    · exact ⟨calls, c, [], rfl, hbefore, h⟩

/-- **What is true now and was not at first has been true since some call made it so.** -/
theorem exists_since {A : σ → Prop} (h₀ : ¬ A w.state) (h : A (w.run exec calls).state) :
    ∃ before c after post events, calls = before ++ c :: after ∧
      (exec c (w.run exec before).state).outcome = .ok (post, events) ∧
      ¬ A (w.run exec before).state ∧ A post ∧
      ∀ mid, mid <+: after → A (w.run exec (before ++ c :: mid)).state := by
  induction calls using List.reverseRecOn with
  | nil => exact absurd h h₀
  | append_singleton calls c ih =>
    by_cases hbefore : A (w.run exec calls).state
    · obtain ⟨before, c', after, post, events, rfl, hx, hnot, hpost, hsince⟩ := ih hbefore
      refine ⟨before, c', after ++ [c], post, events, by simp, hx, hnot, hpost, ?_⟩
      intro mid hmid
      rcases List.prefix_concat_iff.mp hmid with rfl | hmid
      · simpa using h
      · exact hsince mid hmid
    · have hlast := h
      rw [run_concat] at hlast
      rcases attempt_cases exec (w.run exec calls) c with ⟨post, events, hx, heq⟩ | ⟨-, heq⟩
      · rw [heq] at hlast
        refine ⟨calls, c, [], post, events, rfl, hx, hbefore, hlast, ?_⟩
        intro mid hmid
        rw [List.prefix_nil.mp hmid]
        exact h
      · rw [heq] at hlast
        exact absurd hlast hbefore

/-! ## Leaving calls out -/

/-- **The rule for leaving calls out.**  A relation that is kept when both worlds make a call that
stays, and when the first alone makes one that is left out, relates a run to what is left of it.
The calls come as entries of any type, so that of two equal calls one may stay and one not. -/
theorem filter_induction {ι : Type} {call : ι → α} {keep : ι → Bool} {entries : List ι}
    {R : World σ α ε → World σ α ε → Prop}
    (both : ∀ (before : List ι) i, keep i = true →
      R (w.run exec (before.map call)) (w.run exec ((before.filter keep).map call)) →
      R ((w.run exec (before.map call)).attempt exec (call i))
        ((w.run exec ((before.filter keep).map call)).attempt exec (call i)))
    (alone : ∀ before i after, entries = before ++ i :: after → keep i = false →
      R (w.run exec (before.map call)) (w.run exec ((before.filter keep).map call)) →
      R ((w.run exec (before.map call)).attempt exec (call i))
        (w.run exec ((before.filter keep).map call)))
    (h : R w w) :
    R (w.run exec (entries.map call)) (w.run exec ((entries.filter keep).map call)) := by
  induction entries using List.reverseRecOn with
  | nil => exact h
  | append_singleton before i ih =>
    have hbefore := ih fun before' i' after hsplit =>
      alone before' i' (after ++ [i]) (by rw [hsplit]; simp)
    rw [List.map_append, List.map_cons, List.map_nil, run_concat, List.filter_append]
    cases hkeep : keep i with
    | true =>
      rw [List.filter_cons_of_pos hkeep, List.filter_nil, List.map_append, List.map_cons,
        List.map_nil, run_concat]
      exact both before i hkeep hbefore
    | false =>
      rw [List.filter_cons_of_neg (by simp [hkeep]), List.filter_nil, List.append_nil]
      exact alone before i [] rfl hkeep hbefore

/-! ## From the log back to the calls -/

/-- **Every entry of the log has its call.**  Where the log splits at an entry, the
run splits at the call that made it, and the first part of the run has the first
part of the log. -/
theorem exists_split {l₁ l₂ : List (Commit σ α ε)} {k : Commit σ α ε}
    (h : (w.run exec calls).log = w.log ++ (l₁ ++ k :: l₂)) :
    ∃ before after, calls = before ++ k.call :: after ∧
      (w.run exec before).log = w.log ++ l₁ ∧ (w.run exec before).state = k.pre ∧
      (exec k.call k.pre).outcome = .ok (k.post, k.events) := by
  induction calls using List.reverseRecOn generalizing l₂ with
  | nil =>
    have hlength := congrArg List.length h
    simp at hlength
  | append_singleton calls c ih =>
    rw [run_concat] at h
    rcases attempt_cases exec (w.run exec calls) c with ⟨post, events, hx, heq⟩ | ⟨-, heq⟩
    · rw [heq] at h
      rcases List.eq_nil_or_concat l₂ with rfl | ⟨l₂, k', rfl⟩
      · -- the entry is the last one, so its call is the last call
        rw [← List.append_assoc] at h
        obtain ⟨hlog, hk⟩ := List.append_inj' h rfl
        obtain rfl := (List.cons.inj hk).1
        exact ⟨calls, [], rfl, hlog, rfl, hx⟩
      · have hlog : (w.run exec calls).log ++ [⟨c, (w.run exec calls).state, post, events⟩] =
            (w.log ++ (l₁ ++ k :: l₂)) ++ [k'] := by simpa using h
        obtain ⟨before, after, rfl, hrest⟩ := ih (List.append_inj' hlog rfl).1
        exact ⟨before, after ++ [c], by simp, hrest⟩
    · rw [heq] at h
      obtain ⟨before, after, rfl, hrest⟩ := ih h
      exact ⟨before, after ++ [c], by simp, hrest⟩

end World

/-- **Every event has its entry.**  Where the sequence of all events splits at an event, the
log splits at the call that emitted it. -/
theorem Commit.exists_of_events_split {σ α ε : Type} {log : List (Commit σ α ε)}
    {es₁ es₂ : List ε} {e : ε} (h : log.flatMap Commit.events = es₁ ++ e :: es₂) :
    ∃ l₁ k l₂ before after, log = l₁ ++ k :: l₂ ∧ k.events = before ++ e :: after ∧
      es₁ = l₁.flatMap Commit.events ++ before := by
  induction log generalizing es₁ with
  | nil => simp at h
  | cons k log ih =>
    rw [List.flatMap_cons, List.append_eq_append_iff] at h
    rcases h with ⟨rest, rfl, hrest⟩ | ⟨after, hk, hafter⟩
    · obtain ⟨l₁, k', l₂, before, after, rfl, hevents, rfl⟩ := ih hrest
      refine ⟨k :: l₁, k', l₂, before, after, rfl, hevents, ?_⟩
      rw [List.flatMap_cons, List.append_assoc]
    · cases after with
      | nil =>
        have hrest : log.flatMap Commit.events = [] ++ e :: es₂ := by simpa using hafter.symm
        obtain ⟨l₁, k', l₂, before, after, rfl, hevents, hbefore⟩ := ih hrest
        refine ⟨k :: l₁, k', l₂, before, after, rfl, hevents, ?_⟩
        rw [List.flatMap_cons, List.append_assoc, ← hbefore, hk]
        simp
      | cons e' after =>
        obtain ⟨rfl, -⟩ := List.cons.inj hafter
        exact ⟨[], k, log, es₁, after, rfl, hk, by simp⟩

end OptimismZap
