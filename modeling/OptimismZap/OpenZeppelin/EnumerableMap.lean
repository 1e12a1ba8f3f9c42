import OptimismZap.Library.Hashing
import OptimismZap.Library.PositionTable

/-!
# `utils/EnumerableMap.sol`

The enumerable map: an array of key-value entries and a table of the one-based
positions of the keys, coherent by construction.  Keys and values are type
parameters; the source instantiates them at `uint256` and `address`.

Two views of a map are used downstream.  `keys` lists the keys in storage order:
writing under a new key appends it and writing under an old one changes nothing
(`keys_set`), so positions are never reassigned.  `lookup` is the map as a
partial function, and `set` is a point update of it (`lookup_set`).
-/

namespace OptimismZap

/-- `EnumerableMap.Map`. -/
structure EnumerableMap (κ ν : Type) where
  /-- The entries, in storage order. -/
  entries : List (κ × ν)
  /-- The position of each key, plus one; `0` means absent. -/
  indexes : κ → ℕ
  /-- The table is the table of the keys of the array. -/
  positions : PositionTable (entries.map Prod.fst) indexes

namespace EnumerableMap

variable {κ ν : Type}

/-- What uninitialised storage holds. -/
def empty : EnumerableMap κ ν := ⟨[], fun _ => 0, PositionTable.nil⟩

/-- The keys, in storage order. -/
def keys (map : EnumerableMap κ ν) : List κ := map.entries.map Prod.fst

theorem nodup_keys (map : EnumerableMap κ ν) : map.keys.Nodup := map.positions.nodup

theorem mem_keys_iff {map : EnumerableMap κ ν} {key : κ} :
    key ∈ map.keys ↔ map.indexes key ≠ 0 := map.positions.ne_zero_iff.symm

theorem pred_index_lt {map : EnumerableMap κ ν} {key : κ} (h : map.indexes key ≠ 0) :
    map.indexes key - 1 < map.entries.length := by
  have hkey := (List.getElem?_eq_some_iff.mp (map.positions.getElem?_pred h)).1
  rwa [List.length_map] at hkey

/-- `_contains`. -/
def contains (map : EnumerableMap κ ν) (key : κ) : Bool := map.indexes key != 0

/-- `_length`. -/
def length (map : EnumerableMap κ ν) : ℕ := map.entries.length

/-- `_at`. -/
def atIndex (map : EnumerableMap κ ν) (index : ℕ) : Exec (κ × ν) :=
  match map.entries[index]? with
  | some entry => pure entry
  | none => Exec.revert "EnumerableMap: index out of bounds"

/-- `_get`, with the error message of the caller. -/
def get (map : EnumerableMap κ ν) (key : κ) (errorMessage : String) : Exec ν :=
  if h : map.indexes key ≠ 0 then
    pure (map.entries.get ⟨map.indexes key - 1, pred_index_lt h⟩).2
  else
    Exec.revert errorMessage

/-- The map as a partial function. -/
def lookup (map : EnumerableMap κ ν) (key : κ) : Option ν :=
  if h : map.indexes key ≠ 0 then
    some (map.entries.get ⟨map.indexes key - 1, pred_index_lt h⟩).2
  else
    none

@[simp] theorem lookup_empty (key : κ) : (empty : EnumerableMap κ ν).lookup key = none := rfl

theorem contains_iff {map : EnumerableMap κ ν} {key : κ} :
    map.contains key = true ↔ key ∈ map.keys := by
  unfold contains
  rw [bne_iff_ne, mem_keys_iff]

theorem length_eq (map : EnumerableMap κ ν) : map.length = map.keys.length := by
  unfold length keys
  rw [List.length_map]

theorem isSome_lookup {map : EnumerableMap κ ν} {key : κ} :
    (map.lookup key).isSome ↔ key ∈ map.keys := by
  rw [mem_keys_iff, lookup]
  split <;> simp_all

theorem lookup_eq_none_iff {map : EnumerableMap κ ν} {key : κ} :
    map.lookup key = none ↔ key ∉ map.keys := by
  rw [← isSome_lookup, Option.not_isSome_iff_eq_none]

theorem lookup_eq_getElem? (map : EnumerableMap κ ν) (key : κ) : map.lookup key =
    if map.indexes key = 0 then none else map.entries[map.indexes key - 1]?.map Prod.snd := by
  by_cases h : map.indexes key = 0
  · unfold lookup
    rw [dif_neg (not_not.mpr h), if_pos h]
  · unfold lookup
    rw [dif_pos h, if_neg h, List.getElem?_eq_getElem (pred_index_lt h)]
    rfl

/-- `get` succeeds with what `lookup` finds. -/
@[simp] theorem outcome_get_eq_ok {map : EnumerableMap κ ν} {key : κ} {errorMessage : String}
    {value : ν} : (map.get key errorMessage).outcome = .ok value ↔
      map.lookup key = some value := by
  unfold get lookup
  split <;> simp

theorem outcome_get {map : EnumerableMap κ ν} {key : κ} {errorMessage : String} :
    (map.get key errorMessage).outcome =
      (map.lookup key).elim (.error errorMessage) Except.ok := by
  unfold get lookup
  split <;> rfl

@[simp] theorem hashed_get {map : EnumerableMap κ ν} {key : κ} {errorMessage : String} :
    (map.get key errorMessage).hashed = [] := by
  unfold get
  split <;> rfl

theorem outcome_atIndex_eq_ok {map : EnumerableMap κ ν} {index : ℕ} {entry : κ × ν} :
    (map.atIndex index).outcome = .ok entry ↔ map.entries[index]? = some entry := by
  unfold atIndex
  split <;> simp_all

/-- Rewriting a value in place leaves the keys alone. -/
theorem map_fst_modify (entries : List (κ × ν)) (i : ℕ) (value : ν) :
    (entries.modify i fun entry => (entry.1, value)).map Prod.fst = entries.map Prod.fst := by
  apply List.ext_getElem?
  intro j
  rw [List.getElem?_map, List.getElem?_map, List.getElem?_modify]
  cases entries[j]? with
  | none => rfl
  | some entry => by_cases hij : i = j <;> simp [hij]

variable [DecidableEq κ]

/-- `_set`: whether the key was added, that is, was not already present. -/
def set (map : EnumerableMap κ ν) (key : κ) (value : ν) : EnumerableMap κ ν × Bool :=
  let keyIndex := map.indexes key
  if h : keyIndex = 0 then
    ({ entries := map.entries ++ [(key, value)]
       indexes := Function.update map.indexes key (map.entries.length + 1)
       positions := by
        have hnew := map.positions.concat (map.positions.eq_zero_iff.mp h)
        simpa using hnew }, true)
  else
    ({ entries := map.entries.modify (keyIndex - 1) fun entry => (entry.1, value)
       indexes := map.indexes
       positions := by
        rw [map_fst_modify]
        exact map.positions }, false)

section Writes

variable {map : EnumerableMap κ ν} {key : κ} {value : ν}

/-- **Keys are appended and never moved.** -/
theorem keys_set : (map.set key value).1.keys =
    if key ∈ map.keys then map.keys else map.keys ++ [key] := by
  by_cases h : map.indexes key = 0
  · rw [if_neg (fun hmem => mem_keys_iff.mp hmem h), set, dif_pos h]
    simp [keys]
  · rw [if_pos (mem_keys_iff.mpr h), set, dif_neg h]
    exact map_fst_modify map.entries (map.indexes key - 1) value

/-- **`set` is a point update.** -/
theorem lookup_set : (map.set key value).1.lookup =
    Function.update map.lookup key (some value) := by
  funext k
  rw [Function.update_apply, lookup_eq_getElem?, lookup_eq_getElem?]
  by_cases h : map.indexes key = 0
  · unfold set
    rw [dif_pos h]
    simp only [Function.update_apply]
    by_cases heq : k = key
    · simp [heq]
    · by_cases hk : map.indexes k = 0
      · simp [heq, hk]
      · simp [heq, hk, List.getElem?_append_left (pred_index_lt hk)]
  · unfold set
    rw [dif_neg h]
    simp only [List.getElem?_modify]
    by_cases hk : map.indexes k = 0
    · have heq : k ≠ key := fun heq => h (heq ▸ hk)
      simp [heq, hk]
    · by_cases heq : k = key
      · subst heq
        simp [hk, List.getElem?_eq_getElem (pred_index_lt hk)]
      · -- distinct keys have distinct positions
        have hpos : map.indexes key - 1 ≠ map.indexes k - 1 := by
          intro hpos
          have hkey := map.positions.getElem?_pred h
          rw [hpos, map.positions.getElem?_pred hk] at hkey
          exact heq (Option.some.inj hkey)
        simp [heq, hk, hpos]

end Writes

end EnumerableMap

end OptimismZap
