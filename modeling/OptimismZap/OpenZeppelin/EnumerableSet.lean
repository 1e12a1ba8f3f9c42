import OptimismZap.Library.Hashing
import OptimismZap.Library.PositionTable

/-!
# `utils/EnumerableSet.sol`

The enumerable set: an array of values and a table of their one-based positions.
The coherence of the two is a field, so every value of `EnumerableSet α` is a
well-formed one and `add` and `remove` have to say why they keep it that way.
The source works with `bytes32` values and wraps them for each element type; the
element type is a parameter here.

Membership is read off either component (`contains_iff`), and the two writes are
described by what they do to membership and to the length.
-/

namespace OptimismZap

/-- `EnumerableSet.Set`. -/
structure EnumerableSet (α : Type) where
  /-- The values, in storage order. -/
  values : List α
  /-- The position of each value, plus one; `0` means absent. -/
  indexes : α → ℕ
  /-- The table is the table of the array. -/
  positions : PositionTable values indexes

namespace EnumerableSet

variable {α : Type}

/-- What uninitialised storage holds. -/
def empty : EnumerableSet α := ⟨[], fun _ => 0, PositionTable.nil⟩

/-- `_contains`. -/
def contains (set : EnumerableSet α) (value : α) : Bool := set.indexes value != 0

/-- `_length`. -/
def length (set : EnumerableSet α) : ℕ := set.values.length

/-- `_at`. -/
def atIndex (set : EnumerableSet α) (index : ℕ) : Exec α :=
  match set.values[index]? with
  | some value => pure value
  | none => Exec.revert "EnumerableSet: index out of bounds"

theorem contains_iff {set : EnumerableSet α} {value : α} :
    set.contains value = true ↔ value ∈ set.values := by
  unfold contains
  rw [bne_iff_ne, set.positions.ne_zero_iff]

theorem not_contains_iff {set : EnumerableSet α} {value : α} :
    set.contains value = false ↔ value ∉ set.values := by
  rw [← contains_iff, Bool.not_eq_true]

theorem nodup_values (set : EnumerableSet α) : set.values.Nodup := set.positions.nodup

@[simp] theorem values_empty : (empty : EnumerableSet α).values = [] := rfl

variable [DecidableEq α]

/-- `_add`: whether the value was added, that is, was not already present. -/
def add (set : EnumerableSet α) (value : α) : EnumerableSet α × Bool :=
  if h : set.contains value = false then
    ({ values := set.values ++ [value]
       indexes := Function.update set.indexes value (set.values.length + 1)
       positions := set.positions.concat (not_contains_iff.mp h) }, true)
  else
    (set, false)

/-- `_remove`: whether the value was removed, that is, was present.  The last
value takes the place of the removed one. -/
def remove (set : EnumerableSet α) (value : α) : EnumerableSet α × Bool :=
  let valueIndex := set.indexes value
  if h : valueIndex ≠ 0 then
    let toDeleteIndex := valueIndex - 1
    let lastIndex := set.values.length - 1
    have hlast : lastIndex < set.values.length :=
      Nat.sub_lt (List.length_pos_of_mem (set.positions.ne_zero_iff.mp h)) Nat.one_pos
    let lastvalue := set.values.get ⟨lastIndex, hlast⟩
    ({ values := (set.values.set toDeleteIndex lastvalue).dropLast
       indexes := Function.update
         (Function.update set.indexes lastvalue (toDeleteIndex + 1)) value 0
       positions := set.positions.swapPop (Nat.succ_pred_eq_of_ne_zero h).symm
         (List.getElem?_eq_getElem hlast) }, true)
  else
    (set, false)

/-! ## What the writes do -/

section Writes

variable {set : EnumerableSet α} {a b : α}

theorem values_add (h : a ∉ set.values) : (set.add a).1.values = set.values ++ [a] := by
  unfold add
  rw [dif_pos (not_contains_iff.mpr h)]

theorem length_add (h : a ∉ set.values) : (set.add a).1.length = set.length + 1 := by
  unfold length
  rw [values_add h, List.length_append, List.length_singleton]

theorem mem_add : b ∈ (set.add a).1.values ↔ b = a ∨ b ∈ set.values := by
  by_cases h : a ∈ set.values
  · have hsame : (set.add a).1 = set := by
      unfold add
      rw [dif_neg (by simpa [not_contains_iff] using h)]
    rw [hsame]
    exact ⟨Or.inr, fun hb => hb.elim (fun hba => hba ▸ h) id⟩
  · rw [values_add h, List.mem_append, List.mem_singleton, or_comm]

/-- **Removing is swap and pop.** -/
theorem values_remove : (set.remove a).1.values = withdraw set.values a := by
  by_cases h : a ∈ set.values
  · have hplace : set.indexes a - 1 = set.values.idxOf a := by
      rw [set.positions.eq_idxOf_add_one h, Nat.add_sub_cancel]
    have hlast : set.values.getLastD a = set.values.get ⟨set.values.length - 1,
        Nat.sub_lt (List.length_pos_of_mem h) Nat.one_pos⟩ := by
      rw [List.getLastD_eq_getLast?, List.getLast?_eq_getElem?,
        List.getElem?_eq_getElem (Nat.sub_lt (List.length_pos_of_mem h) Nat.one_pos)]
      rfl
    unfold remove withdraw
    rw [dif_pos (set.positions.ne_zero_iff.mpr h), if_pos h, hlast, ← hplace]
  · unfold remove withdraw
    rw [dif_neg (not_not.mpr (set.positions.eq_zero_iff.mpr h)), if_neg h]

theorem mem_remove : b ∈ (set.remove a).1.values ↔ b ∈ set.values ∧ b ≠ a := by
  by_cases h : set.indexes a ≠ 0
  · rw [← (set.remove a).1.positions.ne_zero_iff, remove, dif_pos h]
    have hlast := List.get_mem set.values ⟨set.values.length - 1,
      Nat.sub_lt (List.length_pos_of_mem (set.positions.ne_zero_iff.mp h)) Nat.one_pos⟩
    have hb := set.positions.ne_zero_iff (a := b)
    by_cases hba : b = a
    · simp [hba]
    · dsimp only
      rw [Function.update_of_ne hba, Function.update_apply]
      split
      · rename_i heq
        simp [heq ▸ hlast, hba]
      · simp [hb, hba]
  · unfold remove
    rw [dif_neg h]
    have hmem : a ∉ set.values := set.positions.eq_zero_iff.mp (not_not.mp h)
    exact ⟨fun hb => ⟨hb, fun hba => hmem (hba ▸ hb)⟩, And.left⟩

end Writes

end EnumerableSet

end OptimismZap
