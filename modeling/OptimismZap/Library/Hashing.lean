import Mathlib.Data.List.Nodup
import OptimismZap.Library.FixedBytes

/-!
# Computations that hash, and computations that may revert

A digest is only as good as the absence of collisions among the strings that
were hashed, and "the strings that were hashed" has to mean something.  Here it
is read off the computation: `Hashing α` is a value together with the byte
strings hashed on the way to it, `Exec α` the same with an outcome that may be a
revert.  Both are monads, so a function written in `do` notation after its
source carries its own log of hashed strings.

* `outcome_bind_eq_ok` and its companions turn "this body succeeded with that
  result" into the conjunction of what its statements require.
* `hashed_bind` and `hashed_bind_of_ok` say what a sequence hashes.
* `Alike` compares two bodies up to a view of their results, statement by statement
  (`Alike.bind`).
* `Collision K l m` exhibits two different strings with one value, the first
  from `l` and the second from `m`; `eq_or_collision` is the dichotomy every
  statement about digests starts from.
* `CollisionFree K l` is the assumption under which the second horn is gone: on
  the strings of `l`, the function `K` separates what it is given.  For a given
  computation a table of values settles it (`CollisionFree.of_table`), and the
  same table makes the computation cheap (`memo_eq`).
-/

namespace OptimismZap

/-! ## Hashing -/

/-- A value and the byte strings hashed while computing it. -/
structure Hashing (α : Type) where
  /-- The result. -/
  value : α
  /-- The arguments of the hash function, in the order of the calls. -/
  hashed : List Bytes

namespace Hashing

variable {α β : Type}

instance : Monad Hashing where
  pure a := ⟨a, []⟩
  bind x f := ⟨(f x.value).value, x.hashed ++ (f x.value).hashed⟩

@[simp] theorem value_pure (a : α) : (pure a : Hashing α).value = a := rfl

@[simp] theorem hashed_pure (a : α) : (pure a : Hashing α).hashed = [] := rfl

@[simp] theorem value_bind (x : Hashing α) (f : α → Hashing β) :
    (x >>= f).value = (f x.value).value := rfl

@[simp] theorem hashed_bind (x : Hashing α) (f : α → Hashing β) :
    (x >>= f).hashed = x.hashed ++ (f x.value).hashed := rfl

/-- One call of the hash function `K`. -/
def query (K : Bytes → α) (b : Bytes) : Hashing α := ⟨K b, [b]⟩

@[simp] theorem value_query (K : Bytes → α) (b : Bytes) : (query K b).value = K b := rfl

@[simp] theorem hashed_query (K : Bytes → α) (b : Bytes) : (query K b).hashed = [b] := rfl

end Hashing

/-! ## Reverting -/

/-- A function body: it ends with a result or reverts with a message, and either
way it leaves behind the byte strings it hashed. -/
structure Exec (α : Type) where
  /-- The result, or the message of the revert. -/
  outcome : Except String α
  /-- The arguments of the hash function, in the order of the calls. -/
  hashed : List Bytes

namespace Exec

variable {α β : Type}

/-- What the rest of a body hashes: nothing once it has reverted. -/
def hashedAfter (r : Except String α) (f : α → Exec β) : List Bytes :=
  match r with
  | .ok a => (f a).hashed
  | .error _ => []

instance : Monad Exec where
  pure a := ⟨.ok a, []⟩
  bind x f := ⟨x.outcome.bind fun a => (f a).outcome, x.hashed ++ hashedAfter x.outcome f⟩

/-- Hashing never reverts. -/
instance : MonadLift Hashing Exec := ⟨fun x => ⟨.ok x.value, x.hashed⟩⟩

/-- `revert(message)`. -/
def revert (message : String) : Exec α := ⟨.error message, []⟩

/-- `require(condition, message)`. -/
def require (condition : Prop) [Decidable condition] (message : String) : Exec Unit :=
  if condition then pure () else revert message

/-- The body ran to its end. -/
def Succeeds (x : Exec α) : Prop := ∃ a, x.outcome = .ok a

theorem succeeds_of_outcome {x : Exec α} {a : α} (h : x.outcome = .ok a) : x.Succeeds :=
  ⟨a, h⟩

theorem not_succeeds_of_outcome {x : Exec α} {message : String}
    (h : x.outcome = .error message) : ¬ x.Succeeds := by
  rintro ⟨a, ha⟩
  rw [h] at ha
  cases ha

instance (x : Exec α) : Decidable x.Succeeds :=
  match h : x.outcome with
  | .ok a => isTrue ⟨a, h⟩
  | .error _ => isFalse fun ⟨_, ha⟩ => by simp [h] at ha

/-! ### Inverting a successful body -/

@[simp] theorem outcome_pure_eq_ok {a b : α} :
    (pure a : Exec α).outcome = .ok b ↔ a = b := by
  show (Except.ok a : Except String α) = .ok b ↔ a = b
  exact ⟨Except.ok.inj, congrArg _⟩

@[simp] theorem outcome_bind_eq_ok {x : Exec α} {f : α → Exec β} {b : β} :
    (x >>= f).outcome = .ok b ↔ ∃ a, x.outcome = .ok a ∧ (f a).outcome = .ok b := by
  show (x.outcome.bind fun a => (f a).outcome) = .ok b ↔ _
  cases x.outcome with
  | error e => simp [Except.bind]
  | ok a => simp [Except.bind]

@[simp] theorem outcome_liftM_eq_ok {x : Hashing α} {a : α} :
    (liftM x : Exec α).outcome = .ok a ↔ x.value = a := by
  show (Except.ok x.value : Except String α) = .ok a ↔ x.value = a
  exact ⟨Except.ok.inj, congrArg _⟩

@[simp] theorem outcome_revert_eq_ok {message : String} {a : α} :
    (revert message : Exec α).outcome = .ok a ↔ False := by
  simp [revert]

@[simp] theorem outcome_require_eq_ok {condition : Prop} [Decidable condition]
    {message : String} {u : Unit} :
    (require condition message).outcome = .ok u ↔ condition := by
  unfold require
  split <;> simp_all

/-! ### Following a body to its revert -/

theorem outcome_bind_of_ok {x : Exec α} {f : α → Exec β} {a : α} (h : x.outcome = .ok a) :
    (x >>= f).outcome = (f a).outcome := by
  show (x.outcome.bind fun a => (f a).outcome) = _
  rw [h]
  rfl

theorem outcome_bind_of_error {x : Exec α} {f : α → Exec β} {message : String}
    (h : x.outcome = .error message) : (x >>= f).outcome = .error message := by
  show (x.outcome.bind fun a => (f a).outcome) = _
  rw [h]
  rfl

theorem outcome_bind_require {condition : Prop} [Decidable condition] {message : String}
    (h : condition) (f : Unit → Exec β) :
    (require condition message >>= f).outcome = (f ()).outcome := by
  unfold require
  rw [if_pos h]
  rfl

theorem outcome_bind_require_of_not {condition : Prop} [Decidable condition] {message : String}
    (h : ¬ condition) (f : Unit → Exec β) :
    (require condition message >>= f).outcome = .error message := by
  unfold require
  rw [if_neg h]
  rfl

/-! ### The strings a body hashes -/

theorem hashed_bind (x : Exec α) (f : α → Exec β) :
    (x >>= f).hashed = x.hashed ++ hashedAfter x.outcome f := rfl

@[simp] theorem hashed_pure (a : α) : (pure a : Exec α).hashed = [] := rfl

@[simp] theorem hashed_liftM (x : Hashing α) : (liftM x : Exec α).hashed = x.hashed := rfl

/-- A hash computation in front of a body hashes its own strings, then the body's. -/
theorem hashed_bind_liftM (x : Hashing α) (f : α → Exec β) :
    ((liftM x : Exec α) >>= f).hashed = x.hashed ++ (f x.value).hashed := rfl

theorem hashed_bind_pure (a : α) (f : α → Exec β) :
    ((pure a : Exec α) >>= f).hashed = (f a).hashed := rfl

/-- A requirement that is met leaves no trace. -/
theorem hashed_bind_require {condition : Prop} [Decidable condition] {message : String}
    (h : condition) (f : Unit → Exec β) :
    (require condition message >>= f).hashed = (f ()).hashed := by
  unfold require
  rw [if_pos h, hashed_bind_pure]

theorem hashed_bind_of_ok {x : Exec α} {f : α → Exec β} {a : α} (h : x.outcome = .ok a) :
    (x >>= f).hashed = x.hashed ++ (f a).hashed := by
  rw [hashed_bind, h]
  rfl

@[simp] theorem hashed_require {condition : Prop} [Decidable condition] {message : String} :
    (require condition message).hashed = [] := by
  unfold require
  split <;> rfl

/-- A bound on what each statement hashes bounds the body. -/
theorem hashed_bind_subset {x : Exec α} {f : α → Exec β} {l : List Bytes} (hx : x.hashed ⊆ l)
    (hf : ∀ a, (f a).hashed ⊆ l) : (x >>= f).hashed ⊆ l := by
  rw [hashed_bind]
  refine List.append_subset.mpr ⟨hx, ?_⟩
  cases x.outcome with
  | ok a => exact hf a
  | error message => exact List.nil_subset l

/-- Statements that hash nothing make a body that hashes nothing. -/
theorem hashed_bind_eq_nil {x : Exec α} {f : α → Exec β} (hx : x.hashed = [])
    (hf : ∀ a, (f a).hashed = []) : (x >>= f).hashed = [] :=
  List.subset_nil.mp
    (hashed_bind_subset (List.subset_nil.mpr hx) fun a => List.subset_nil.mpr (hf a))

/-! ### Bodies that end alike -/

section Alike

variable {γ δ : Type}

/-- The bodies hash the same and end alike: with one message, or with results of one view. -/
structure Alike (view : α → γ) (x y : Exec α) : Prop where
  outcome_eq : x.outcome.map view = y.outcome.map view
  hashed_eq : x.hashed = y.hashed

theorem alike_refl {view : α → γ} (x : Exec α) : Alike view x x := ⟨rfl, rfl⟩

theorem alike_pure {view : α → γ} {a b : α} (h : view a = view b) :
    Alike view (pure a) (pure b) :=
  ⟨congrArg Except.ok h, rfl⟩

/-- Both bodies revert, or both run to their end. -/
theorem Alike.cases {view : α → γ} {x y : Exec α} (h : Alike view x y) :
    (∃ message, x.outcome = .error message ∧ y.outcome = .error message) ∨
      ∃ a b, x.outcome = .ok a ∧ y.outcome = .ok b ∧ view a = view b := by
  have houtcome := h.outcome_eq
  cases hx : x.outcome with
  | error message =>
    cases hy : y.outcome with
    | error message' =>
      rw [hx, hy] at houtcome
      exact Or.inl ⟨message, rfl, congrArg Except.error (Except.error.inj houtcome).symm⟩
    | ok b =>
      rw [hx, hy] at houtcome
      cases houtcome
  | ok a =>
    cases hy : y.outcome with
    | error message' =>
      rw [hx, hy] at houtcome
      cases houtcome
    | ok b =>
      rw [hx, hy] at houtcome
      exact Or.inr ⟨a, b, rfl, rfl, Except.ok.inj houtcome⟩

/-- **Bodies that go on alike end alike**, if how they go on depends on the view only. -/
theorem Alike.bind {view : α → γ} {view' : β → δ} {x y : Exec α} {f g : α → Exec β}
    (h : Alike view x y) (hfg : ∀ a b, view a = view b → Alike view' (f a) (g b)) :
    Alike view' (x >>= f) (y >>= g) := by
  rcases h.cases with ⟨message, hx, hy⟩ | ⟨a, b, hx, hy, hview⟩
  · constructor
    case outcome_eq =>
      show (x.outcome.bind fun a => (f a).outcome).map view' =
        (y.outcome.bind fun a => (g a).outcome).map view'
      rw [hx, hy]
      rfl
    case hashed_eq => rw [hashed_bind, hashed_bind, h.hashed_eq, hx, hy, hashedAfter, hashedAfter]
  · obtain ⟨houtcome, hhashed⟩ := hfg a b hview
    constructor
    case outcome_eq =>
      show (x.outcome.bind fun a => (f a).outcome).map view' =
        (y.outcome.bind fun a => (g a).outcome).map view'
      rw [hx, hy]
      exact houtcome
    case hashed_eq => rw [hashed_bind_of_ok hx, hashed_bind_of_ok hy, h.hashed_eq, hhashed]

/-- Bodies with a common beginning. -/
theorem alike_bind_same {view : β → δ} {x : Exec α} {f g : α → Exec β}
    (hfg : ∀ a, Alike view (f a) (g a)) : Alike view (x >>= f) (x >>= g) := by
  have hx : Alike id x x := alike_refl x
  refine hx.bind ?_
  rintro a _ rfl
  exact hfg a

end Alike

end Exec

/-! ## Collisions -/

/-- Two different strings, one of each list, with the same value. -/
def Collision {β : Type*} (K : Bytes → β) (l m : List Bytes) : Prop :=
  ∃ a ∈ l, ∃ b ∈ m, a ≠ b ∧ K a = K b

/-- Strings with one value are equal or a collision. -/
theorem eq_or_collision {β : Type*} {K : Bytes → β} {l m : List Bytes} {a b : Bytes}
    (ha : a ∈ l) (hb : b ∈ m) (h : K a = K b) : a = b ∨ Collision K l m := by
  by_cases hab : a = b
  · exact Or.inl hab
  · exact Or.inr ⟨a, ha, b, hb, hab, h⟩

/-- `K` separates the strings of `l`. -/
def CollisionFree {β : Type*} (K : Bytes → β) (l : List Bytes) : Prop :=
  ∀ a ∈ l, ∀ b ∈ l, K a = K b → a = b

namespace CollisionFree

variable {β : Type*} {K : Bytes → β} {l m : List Bytes}

theorem mono (h : CollisionFree K m) (hlm : l ⊆ m) : CollisionFree K l :=
  fun a ha b hb => h a (hlm ha) b (hlm hb)

theorem append_left (h : CollisionFree K (l ++ m)) : CollisionFree K l :=
  h.mono (List.subset_append_left _ _)

theorem not_collision {n : List Bytes} (h : CollisionFree K n) (hl : l ⊆ n) (hm : m ⊆ n) :
    ¬ Collision K l m :=
  fun ⟨a, ha, b, hb, hab, hK⟩ => hab (h a (hl ha) b (hm hb) hK)

/-- A table of values that are pairwise distinct settles the assumption for its strings. -/
theorem of_table {table : List (Bytes × β)} (hvalues : ∀ p ∈ table, K p.1 = p.2)
    (hnodup : (table.map Prod.snd).Nodup) (hl : ∀ b ∈ l, b ∈ table.map Prod.fst) :
    CollisionFree K l := by
  have hmap : (table.map Prod.fst).map K = table.map Prod.snd := by
    rw [List.map_map]
    exact List.map_congr_left hvalues
  exact fun a ha b hb hK => List.inj_on_of_nodup_map (hmap ▸ hnodup) (hl a ha) (hl b hb) hK

end CollisionFree

/-! ## Known values -/

/-- The function `K`, with its values on some strings taken from a table. -/
def memo {β : Type*} (table : List (Bytes × β)) (K : Bytes → β) (b : Bytes) : β :=
  (table.lookup b).getD (K b)

/-- A correct table saves work and changes nothing. -/
theorem memo_eq {β : Type*} {K : Bytes → β} {table : List (Bytes × β)}
    (h : ∀ p ∈ table, K p.1 = p.2) : memo table K = K := by
  funext b
  unfold memo
  induction table with
  | nil => rfl
  | cons p table ih =>
    obtain ⟨a, v⟩ := p
    rw [List.lookup_cons]
    split
    · rename_i hb
      rw [eq_of_beq hb, Option.getD_some]
      exact (h (a, v) List.mem_cons_self).symm
    · exact ih fun p hp => h p (List.mem_cons_of_mem _ hp)

end OptimismZap
