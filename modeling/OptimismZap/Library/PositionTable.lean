import Mathlib.Data.List.Nodup
import Mathlib.Logic.Function.Basic

/-!
# Tables of one-based positions

Containers with constant-time membership keep, next to an array of distinct
entries, a table that holds for every entry its position *plus one*; the
position `0` says that an entry is absent.  `PositionTable l idx` is the
coherence of the two.

The two updates such containers make are appending an entry
(`PositionTable.concat`) and deleting one by moving the last entry into its
place and popping the end (`PositionTable.swapPop`).  The delicate case of the
second is the deletion of the last entry itself, where the table is first
pointed at the old place and then cleared.
-/

namespace OptimismZap

variable {α : Type*} [DecidableEq α]

/-- The table `idx` holds the positions of the entries of `l`, shifted by one,
and `0` for everything that is not an entry. -/
def PositionTable (l : List α) (idx : α → ℕ) : Prop :=
  ∀ a i, idx a = i + 1 ↔ l[i]? = some a

namespace PositionTable

variable {l : List α} {idx : α → ℕ} {a b : α}

omit [DecidableEq α] in
theorem nil : PositionTable ([] : List α) fun _ => 0 := by
  intro a i
  simp

omit [DecidableEq α] in
theorem eq_zero_iff (h : PositionTable l idx) : idx a = 0 ↔ a ∉ l := by
  constructor
  · intro hz hmem
    obtain ⟨i, hi⟩ := List.mem_iff_getElem?.mp hmem
    have hpos := (h a i).mpr hi
    omega
  · intro hmem
    by_contra hne
    obtain ⟨i, hi⟩ := Nat.exists_eq_succ_of_ne_zero hne
    exact hmem (List.mem_iff_getElem?.mpr ⟨i, (h a i).mp hi⟩)

omit [DecidableEq α] in
theorem ne_zero_iff (h : PositionTable l idx) : idx a ≠ 0 ↔ a ∈ l := by
  rw [ne_eq, h.eq_zero_iff, not_not]

omit [DecidableEq α] in
/-- The entry at the position on file. -/
theorem getElem?_pred (h : PositionTable l idx) (ha : idx a ≠ 0) :
    l[idx a - 1]? = some a :=
  (h a (idx a - 1)).mp (by omega)

omit [DecidableEq α] in
/-- Entries with a position on file are distinct. -/
theorem nodup (h : PositionTable l idx) : l.Nodup := by
  rw [List.nodup_iff_getElem?_ne_getElem?]
  intro i j hij hj heq
  rw [List.getElem?_eq_getElem hj] at heq
  have hi' := (h _ i).mpr heq
  have hj' := (h _ j).mpr (List.getElem?_eq_getElem hj)
  omega

/-- Appending a new entry. -/
theorem concat (h : PositionTable l idx) (ha : a ∉ l) :
    PositionTable (l ++ [a]) (Function.update idx a (l.length + 1)) := by
  intro b i
  by_cases hb : b = a
  · subst hb
    have hnone : l[i]? ≠ some b := fun hi => ha (List.mem_of_getElem? hi)
    rw [Function.update_self, List.getElem?_append]
    grind
  · rw [Function.update_of_ne hb, h b i, List.getElem?_append]
    grind

/-- **Deleting by swap and pop.**  The last entry `z` moves into the place of
the deleted entry `a`, the end is popped, and the table follows: first `z` is
given the place, then `a` is cleared.  When `a` is itself the last entry the
second write undoes the first. -/
theorem swapPop (h : PositionTable l idx) {z : α} {i : ℕ} (ha : idx a = i + 1)
    (hz : l[l.length - 1]? = some z) :
    PositionTable ((l.set i z).dropLast)
      (Function.update (Function.update idx z (i + 1)) a 0) := by
  have hai : l[i]? = some a := (h a i).mp ha
  have hza : idx z = l.length - 1 + 1 := (h z _).mpr hz
  have hi : i < l.length := (List.getElem?_eq_some_iff.mp hai).1
  intro b j
  have hbj := h b j
  rw [List.getElem?_dropLast, List.getElem?_set, List.length_set]
  rcases eq_or_ne b a with rfl | hba
  · rw [Function.update_self]
    grind
  · rw [Function.update_of_ne hba]
    rcases eq_or_ne b z with rfl | hbz
    · rw [Function.update_self]
      grind
    · rw [Function.update_of_ne hbz]
      grind

/-- The table finds an entry where a search finds it. -/
theorem eq_idxOf_add_one (h : PositionTable l idx) (ha : a ∈ l) : idx a = l.idxOf a + 1 :=
  (h a (l.idxOf a)).mpr (List.getElem?_idxOf ha)

end PositionTable

/-- The list without `a`, deleted by swap and pop. -/
def withdraw (l : List α) (a : α) : List α :=
  if a ∈ l then (l.set (l.idxOf a) (l.getLastD a)).dropLast else l

end OptimismZap
