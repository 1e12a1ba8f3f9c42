import Mathlib.Data.List.Nodup
import Mathlib.Data.List.Pairwise
import Mathlib.Data.List.Perm.Subperm
import Mathlib.Data.Nat.Notation

/-!
# Limited editions

A plain registry of numbered copies.  A copy names its series, the total the
series was announced with, and its own number; the registry takes a copy when
the number is below the total and the copies already there do not speak against
it: those of the same series have the same total and another number.

What a registry accepted one by one is characterised by pairs (`Admissible`), so
it does not depend on the order (`Admissible.perm`), and a series never has more
copies than its total (`Admissible.length_le`).  A finished one has each number below
the total once (`Admissible.serials_perm_range`).
-/

namespace OptimismZap

/-- A numbered copy. -/
structure Edition (S : Type*) where
  series : S
  total : ℕ
  serial : ℕ

namespace Edition

variable {S : Type*} {e f : Edition S} {l l' : List (Edition S)}

/-- Two copies can stand in one registry. -/
def Compatible (e f : Edition S) : Prop :=
  e.series = f.series → e.total = f.total ∧ e.serial ≠ f.serial

theorem Compatible.symm (h : Compatible e f) : Compatible f e :=
  fun hseries => ⟨(h hseries.symm).1.symm, (h hseries.symm).2.symm⟩

instance : Std.Symm (Compatible : Edition S → Edition S → Prop) := ⟨fun _ _ => Compatible.symm⟩

/-- The registry `l` takes the copy `e`. -/
def Admits (l : List (Edition S)) (e : Edition S) : Prop :=
  e.serial < e.total ∧ ∀ f ∈ l, Compatible f e

instance [DecidableEq S] : Decidable (Compatible e f) :=
  inferInstanceAs (Decidable (_ → _ ∧ _))

instance [DecidableEq S] : Decidable (Admits l e) :=
  inferInstanceAs (Decidable (_ ∧ ∀ f ∈ l, _))

/-- Why a registry does not take a copy. -/
inductive Refusal where
  /-- The series was announced with another total. -/
  | otherTotal
  /-- The number is not below the total. -/
  | outOfRange
  /-- There is a copy with this number. -/
  | taken
  deriving DecidableEq

/-- The first reason, in the order of the list above. -/
def refusal [DecidableEq S] (l : List (Edition S)) (e : Edition S) : Option Refusal :=
  if ∃ f ∈ l, f.series = e.series ∧ f.total ≠ e.total then some .otherTotal
  else if ¬ e.serial < e.total then some .outOfRange
  else if ∃ f ∈ l, f.series = e.series ∧ f.serial = e.serial then some .taken
  else none

/-- What the registry knows of a copy when it gives a reason, or none. -/
inductive Examined (l : List (Edition S)) (e : Edition S) : Option Refusal → Prop
  | otherTotal (f : Edition S) (hf : f ∈ l) (hseries : f.series = e.series)
      (htotal : f.total ≠ e.total) : Examined l e (some .otherTotal)
  | outOfRange (htotals : ∀ f ∈ l, f.series = e.series → f.total = e.total)
      (hserial : ¬ e.serial < e.total) : Examined l e (some .outOfRange)
  | taken (htotals : ∀ f ∈ l, f.series = e.series → f.total = e.total)
      (hserial : e.serial < e.total) (hmem : e ∈ l) : Examined l e (some .taken)
  | admitted (htotals : ∀ f ∈ l, f.series = e.series → f.total = e.total)
      (hserial : e.serial < e.total) (hnew : e ∉ l) : Examined l e none

theorem eq_of_fields_eq (hseries : f.series = e.series) (htotal : f.total = e.total)
    (hserial : f.serial = e.serial) : f = e := by
  rw [Edition.mk.injEq]
  exact ⟨hseries, htotal, hserial⟩

theorem examined_refusal [DecidableEq S] (l : List (Edition S)) (e : Edition S) :
    Examined l e (refusal l e) := by
  unfold refusal
  split
  · rename_i h
    obtain ⟨f, hf, hseries, htotal⟩ := h
    exact .otherTotal f hf hseries htotal
  · rename_i hno
    push Not at hno
    split
    · rename_i hserial
      exact .outOfRange hno hserial
    · rename_i hserial
      split
      · rename_i h
        -- the copy with this number is the copy itself
        obtain ⟨f, hf, hseries, hnumber⟩ := h
        obtain rfl := eq_of_fields_eq hseries (hno f hf hseries) hnumber
        exact .taken hno (not_not.mp hserial) hf
      · rename_i hfree
        exact .admitted hno (not_not.mp hserial) fun he => hfree ⟨e, he, rfl, rfl⟩

/-- **A registry takes what it has no reason to refuse.** -/
theorem refusal_eq_none_iff [DecidableEq S] : refusal l e = none ↔ Admits l e := by
  have h := examined_refusal l e
  generalize refusal l e = r at h ⊢
  cases h with
  | otherTotal f hf hseries htotal =>
    exact iff_of_false (by simp) fun hadmits => htotal (hadmits.2 f hf hseries).1
  | outOfRange htotals hserial => exact iff_of_false (by simp) fun hadmits => hserial hadmits.1
  | taken htotals hserial hmem =>
    exact iff_of_false (by simp) fun hadmits => (hadmits.2 e hmem rfl).2 rfl
  | admitted htotals hserial hnew =>
    refine iff_of_true rfl ⟨hserial, fun f hf hseries => ⟨htotals f hf hseries, ?_⟩⟩
    exact fun hnumber => hnew (eq_of_fields_eq hseries (htotals f hf hseries) hnumber ▸ hf)

/-- The contents a registry can have. -/
structure Admissible (l : List (Edition S)) : Prop where
  serial_lt : ∀ e ∈ l, e.serial < e.total
  pairwise : l.Pairwise Compatible

/-- **A registry fills up by admitting.** -/
theorem admissible_concat : Admissible (l ++ [e]) ↔ Admissible l ∧ Admits l e := by
  constructor
  · rintro ⟨hserial, hpairwise⟩
    obtain ⟨hl, hlt⟩ := List.forall_mem_append.mp hserial
    obtain ⟨hpairwise, -, hcompatible⟩ := List.pairwise_append.mp hpairwise
    refine ⟨⟨hl, hpairwise⟩, hlt e (List.mem_singleton_self e), ?_⟩
    intro f hf
    exact hcompatible f hf e (List.mem_singleton_self e)
  · rintro ⟨⟨hserial, hpairwise⟩, hlt, hcompatible⟩
    constructor
    · exact List.forall_mem_append.mpr ⟨hserial, List.forall_mem_singleton.mpr hlt⟩
    · refine List.pairwise_append.mpr ⟨hpairwise, List.pairwise_singleton _ _, ?_⟩
      intro f hf
      exact List.forall_mem_singleton.mpr (hcompatible f hf)

/-- **The order of the copies does not matter.** -/
theorem Admissible.perm (h : Admissible l) (hperm : l.Perm l') : Admissible l' where
  serial_lt e he := h.serial_lt e (hperm.mem_iff.mpr he)
  pairwise := (hperm.pairwise_iff Compatible.symm).mp h.pairwise

theorem Admissible.sublist (h : Admissible l) (hsub : l'.Sublist l) : Admissible l' where
  serial_lt e he := h.serial_lt e (hsub.subset he)
  pairwise := h.pairwise.sublist hsub

/-- The numbers of copies of one series are distinct. -/
theorem Admissible.nodup_serials (h : Admissible l) {s : S} (hs : ∀ e ∈ l, e.series = s) :
    (l.map Edition.serial).Nodup := by
  refine List.pairwise_map.mpr (h.pairwise.imp_of_mem fun he hf hcompatible => ?_)
  exact (hcompatible ((hs _ he).trans (hs _ hf).symm)).2

/-- **A series has at most as many copies as its total.** -/
theorem Admissible.length_le (h : Admissible l) {s : S} {t : ℕ} (hs : ∀ e ∈ l, e.series = s)
    (ht : ∀ e ∈ l, e.total = t) : l.length ≤ t := by
  have hsub : l.map Edition.serial ⊆ List.range t := by
    intro n hn
    obtain ⟨e, he, rfl⟩ := List.mem_map.mp hn
    rw [List.mem_range, ← ht e he]
    exact h.serial_lt e he
  have hle := ((h.nodup_serials hs).subperm hsub).length_le
  rwa [List.length_map, List.length_range] at hle

/-- Copies of one series stand in a registry with one total. -/
theorem Admissible.total_eq (h : Admissible l) (he : e ∈ l) (hf : f ∈ l)
    (hseries : e.series = f.series) : e.total = f.total := by
  by_cases hne : e = f
  · rw [hne]
  · exact (h.pairwise.forall he hf hne hseries).1

/-! ## Finished series -/

/-- A series that has all copies it was announced with. -/
def Finished (l : List (Edition S)) (s : S) (t : ℕ) : Prop := ∀ n < t, ⟨s, t, n⟩ ∈ l

/-- The numbers of the copies of a series, in the order of the registry. -/
def serials [DecidableEq S] (l : List (Edition S)) (s : S) : List ℕ :=
  (l.filter fun e => e.series = s).map Edition.serial

/-- A copy that is not taken, though its data and the totals are right, is there already. -/
theorem mem_of_not_admits (h : ¬ Admits l e) (hserial : e.serial < e.total)
    (htotals : ∀ f ∈ l, f.series = e.series → f.total = e.total) : e ∈ l := by
  by_contra hnot
  refine h ⟨hserial, fun f hf hseries => ⟨htotals f hf hseries, fun hnumber => hnot ?_⟩⟩
  exact eq_of_fields_eq hseries (htotals f hf hseries) hnumber ▸ hf

/-- **A finished series has each number below its total once.** -/
theorem Admissible.serials_perm_range [DecidableEq S] (h : Admissible l) {s : S} {t : ℕ}
    (hpos : 0 < t) (hfinished : Finished l s t) : (serials l s).Perm (List.range t) := by
  have hseries : ∀ e ∈ l.filter fun e => e.series = s, e.series = s := fun e he =>
    of_decide_eq_true (List.mem_filter.mp he).2
  have hnodup := (h.sublist List.filter_sublist).nodup_serials hseries
  refine (List.perm_ext_iff_of_nodup hnodup List.nodup_range).mpr fun n => ?_
  rw [List.mem_range]
  constructor
  · intro hn
    obtain ⟨e, he, rfl⟩ := List.mem_map.mp hn
    have hmem := List.mem_of_mem_filter he
    -- the first copy has the total, so this one has it
    have htotal : e.total = t := h.total_eq hmem (hfinished 0 hpos) (hseries e he)
    rw [← htotal]
    exact h.serial_lt e hmem
  · intro hn
    exact List.mem_map.mpr ⟨_, List.mem_filter.mpr ⟨hfinished n hn, decide_eq_true rfl⟩, rfl⟩

end Edition

end OptimismZap
