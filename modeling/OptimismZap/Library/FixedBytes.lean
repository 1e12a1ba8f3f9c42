import Mathlib.Data.List.Basic
import Mathlib.Data.List.Induction
import Mathlib.Tactic.Linarith
import Mathlib.Tactic.Ring

/-!
# Byte strings of a fixed width

A `FixedBytes n` is a byte string together with the proof that it is `n` bytes
long, so a digest of the wrong length or a padded address cannot be built.  Two
readings of such a string matter downstream and both live here.

* `FixedBytes.toNat` reads the bytes as a big-endian number.  It is injective,
  it is below `256 ^ n`, and `FixedBytes.ofNat` writes every number below that
  bound back.
* `FixedBytes.leftAligned` reads the string as the machine does when it sits at
  the *top* of a 32-byte word, zeros behind it.  The order `<` on `FixedBytes n`
  is the order of these words, and `lt_iff_toNat_lt` says that the alignment
  does not matter: it is the order of the numbers.
-/

namespace OptimismZap

/-- Byte strings of any length. -/
abbrev Bytes := List UInt8

/-! ## Big-endian readings -/

/-- The number a byte string spells, most significant byte first. -/
def bigEndian (l : Bytes) : ℕ := l.foldl (fun n x => n * 256 + x.toNat) 0

@[simp] theorem bigEndian_nil : bigEndian [] = 0 := rfl

theorem bigEndian_concat (l : Bytes) (x : UInt8) :
    bigEndian (l ++ [x]) = bigEndian l * 256 + x.toNat := by
  simp [bigEndian, List.foldl_append]

/-- Appending shifts by one byte for each byte appended. -/
theorem bigEndian_append (l m : Bytes) :
    bigEndian (l ++ m) = bigEndian l * 256 ^ m.length + bigEndian m := by
  induction m using List.reverseRecOn with
  | nil => simp
  | append_singleton m x ih =>
    rw [← List.append_assoc, bigEndian_concat, bigEndian_concat, ih, List.length_append,
      List.length_singleton, pow_succ]
    ring

theorem bigEndian_replicate_zero (k : ℕ) : bigEndian (List.replicate k 0) = 0 := by
  induction k with
  | zero => rfl
  | succ k ih => rw [List.replicate_succ', bigEndian_concat, ih]; rfl

theorem bigEndian_lt (l : Bytes) : bigEndian l < 256 ^ l.length := by
  induction l using List.reverseRecOn with
  | nil => simp
  | append_singleton l x ih =>
    have hx : x.toNat < 256 := UInt8.toNat_lt x
    rw [bigEndian_concat, List.length_append, List.length_singleton, pow_succ]
    omega

/-- Strings of one length that spell the same number are equal: the last bytes
agree modulo 256, and the rest by induction. -/
theorem bigEndian_inj {l m : Bytes} (hlen : l.length = m.length)
    (h : bigEndian l = bigEndian m) : l = m := by
  induction l using List.reverseRecOn generalizing m with
  | nil => exact (List.length_eq_zero_iff.mp hlen.symm).symm
  | append_singleton l x ih =>
    rcases List.eq_nil_or_concat' m with rfl | ⟨m, y, rfl⟩
    · simp at hlen
    · rw [bigEndian_concat, bigEndian_concat] at h
      have hx : x.toNat < 256 := UInt8.toNat_lt x
      have hy : y.toNat < 256 := UInt8.toNat_lt y
      have hxy : x = y := UInt8.toNat_inj.mp (by omega)
      have hlm : l = m := ih (by simpa using hlen) (by omega)
      rw [hlm, hxy]

/-- The `n` low bytes of a number, most significant first. -/
def toBigEndian : ℕ → ℕ → Bytes
  | 0, _ => []
  | n + 1, k => toBigEndian n (k / 256) ++ [UInt8.ofNat (k % 256)]

theorem length_toBigEndian (n k : ℕ) : (toBigEndian n k).length = n := by
  induction n generalizing k with
  | zero => rfl
  | succ n ih => simp [toBigEndian, ih]

theorem bigEndian_toBigEndian {n k : ℕ} (h : k < 256 ^ n) :
    bigEndian (toBigEndian n k) = k := by
  induction n generalizing k with
  | zero => simp_all [toBigEndian]
  | succ n ih =>
    have hdiv : k / 256 < 256 ^ n := by
      rw [pow_succ] at h
      omega
    have hbyte : (UInt8.ofNat (k % 256)).toNat = k % 256 := by
      rw [UInt8.toNat_ofNat']
      omega
    unfold toBigEndian
    rw [bigEndian_concat, ih hdiv, hbyte]
    omega

/-! ## Fixed widths -/

/-- A byte string of exactly `n` bytes. -/
@[ext] structure FixedBytes (n : ℕ) where
  /-- The bytes, first to last. -/
  bytes : Bytes
  /-- There are `n` of them. -/
  length_bytes : bytes.length = n
  deriving DecidableEq

namespace FixedBytes

variable {n : ℕ}

attribute [simp] length_bytes

/-- The zero value: what uninitialised storage holds. -/
instance : Zero (FixedBytes n) := ⟨⟨List.replicate n 0, List.length_replicate⟩⟩

instance : Inhabited (FixedBytes n) := ⟨0⟩

/-- The first `n` bytes of a string, zeros once it has run out: a read of
memory that was never written yields zeros. -/
def ofBytes (n : ℕ) (l : Bytes) : FixedBytes n :=
  ⟨(l ++ List.replicate n 0).take n, by simp⟩

/-- The number an `n`-byte string spells. -/
def toNat (b : FixedBytes n) : ℕ := bigEndian b.bytes

/-- The `n`-byte string that spells a number, high bytes cut off. -/
def ofNat (n k : ℕ) : FixedBytes n := ⟨toBigEndian n k, length_toBigEndian n k⟩

theorem toNat_lt (b : FixedBytes n) : b.toNat < 256 ^ n := by
  have h := bigEndian_lt b.bytes
  rwa [b.length_bytes] at h

theorem toNat_injective : Function.Injective (toNat : FixedBytes n → ℕ) := by
  intro a b h
  have hlen : a.bytes.length = b.bytes.length := by rw [a.length_bytes, b.length_bytes]
  exact FixedBytes.ext (bigEndian_inj hlen h)

@[simp] theorem toNat_zero : (0 : FixedBytes n).toNat = 0 := bigEndian_replicate_zero n

theorem toNat_ofNat {k : ℕ} (h : k < 256 ^ n) : (ofNat n k).toNat = k :=
  bigEndian_toBigEndian h

/-! ## The order of left-aligned words -/

/-- The 32-byte word that carries the string in its top bytes. -/
def leftAligned (b : FixedBytes n) : ℕ := bigEndian (b.bytes ++ List.replicate (32 - n) 0)

theorem leftAligned_eq (b : FixedBytes n) : b.leftAligned = b.toNat * 256 ^ (32 - n) := by
  unfold leftAligned
  rw [bigEndian_append, bigEndian_replicate_zero, List.length_replicate]
  rfl

/-- Fixed-width strings are compared as the words that carry them. -/
instance : LT (FixedBytes n) := ⟨fun a b => a.leftAligned < b.leftAligned⟩

instance (a b : FixedBytes n) : Decidable (a < b) :=
  inferInstanceAs (Decidable (a.leftAligned < b.leftAligned))

/-- **The alignment is immaterial.**  Comparing left-aligned words compares the
numbers the strings spell. -/
theorem lt_iff_toNat_lt {a b : FixedBytes n} : a < b ↔ a.toNat < b.toNat := by
  show a.leftAligned < b.leftAligned ↔ _
  rw [leftAligned_eq, leftAligned_eq]
  exact Nat.mul_lt_mul_right (by positivity)

theorem not_lt_zero (a : FixedBytes n) : ¬ a < 0 := by
  simp [lt_iff_toNat_lt]

end FixedBytes

end OptimismZap
