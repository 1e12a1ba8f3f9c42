import Mathlib.Data.List.FinRange
import Mathlib.Data.Nat.Digits.Lemmas
import OptimismZap.Library.FixedBytes

/-!
# Numbers as hexadecimal strings

A program without machine integers writes a number as a string of hexadecimal
digits and lets somebody else read the string as bytes.  On the way there are a
loop over the digits (`prependDigits`), a correction to whole bytes
(`wholeBytes`), a padding to the width of the type (`List.leftpad`), and on the
other side pairs of digits that become bytes (`toBytes`).

Zeros in front of a number do not change it and zeros behind it do, so what has
to be kept apart is the number a list of digits spells (`value`) and its length.

* `value_prependDigits` and `length_prependDigits_le_iff` are the two facts about
  the loop; both come from the digits of a number in Mathlib.
* `value_wholeBytes` and `value_leftpad` say that the corrections are made at the
  right end, and `length_wholeBytes_le_iff` that the first does not cost a byte.
* `bigEndian_toBytes` says that the bytes spell the number of the digits.

At the end stand the characters: `hexString` writes a list of digits and
`ofHexString` reads it back.
-/

namespace OptimismZap

/-- Hexadecimal digits, most significant first. -/
abbrev HexDigits := List (Fin 16)

namespace HexDigits

/-- The number the digits spell. -/
def value (l : HexDigits) : ℕ := Nat.ofDigits 16 (l.reverse.map Fin.val)

theorem value_append (l m : HexDigits) :
    value (l ++ m) = value l * 16 ^ m.length + value m := by
  unfold value
  rw [List.reverse_append, List.map_append, Nat.ofDigits_append, List.length_map,
    List.length_reverse, add_comm, mul_comm]

theorem value_pair (hi lo : Fin 16) : value [hi, lo] = 16 * hi.val + lo.val := by
  simp [value, Nat.ofDigits_cons, add_comm]

/-- Zeros in front change nothing. -/
theorem value_replicate_append (k : ℕ) (l : HexDigits) :
    value (List.replicate k 0 ++ l) = value l := by
  unfold value
  rw [List.reverse_append, List.reverse_replicate, List.map_append, List.map_replicate,
    Fin.val_zero, Nat.ofDigits_append_replicate_zero]

theorem value_leftpad (k : ℕ) (l : HexDigits) : value (l.leftpad k 0) = value l :=
  value_replicate_append _ l

theorem length_leftpad {k : ℕ} {l : HexDigits} (h : l.length ≤ k) :
    (l.leftpad k 0).length = k := by
  unfold List.leftpad
  rw [List.length_append, List.length_replicate]
  omega

/-! ## From a number to its digits -/

/-- The digits of `n` in front of `l`: as long as anything is left, the low digit is taken
off and prepended. -/
def prependDigits (n : ℕ) (l : HexDigits) : HexDigits :=
  if n = 0 then l else prependDigits (n / 16) (Fin.ofNat 16 n :: l)
termination_by n
decreasing_by omega

/-- The loop computes the digits of Mathlib, in the order of writing. -/
theorem prependDigits_eq (n : ℕ) (l : HexDigits) :
    prependDigits n l = ((Nat.digits 16 n).map (Fin.ofNat 16)).reverse ++ l := by
  induction n, l using prependDigits.induct with
  | case1 l =>
    unfold prependDigits
    rw [if_pos rfl]
    simp
  | case2 n l hn ih =>
    have hdigit : Fin.ofNat 16 (n % 16) = Fin.ofNat 16 n := by
      rw [Fin.ext_iff, Fin.val_ofNat, Fin.val_ofNat, Nat.mod_mod]
    unfold prependDigits
    rw [if_neg hn, ih, Nat.digits_def' (by decide) (Nat.pos_of_ne_zero hn), List.map_cons,
      List.reverse_cons, List.append_assoc, List.singleton_append, hdigit]

/-- **The loop spells the number.** -/
theorem value_prependDigits (n : ℕ) : value (prependDigits n []) = n := by
  have hmap : ((Nat.digits 16 n).map (Fin.ofNat 16)).map Fin.val = Nat.digits 16 n := by
    rw [List.map_map]
    refine (List.map_congr_left fun d hd => ?_).trans (List.map_id _)
    exact Nat.mod_eq_of_lt (Nat.digits_lt_base (by decide) hd)
  unfold value
  rw [prependDigits_eq, List.append_nil, List.reverse_reverse, hmap, Nat.ofDigits_digits]

/-- **The loop writes no digit too many.** -/
theorem length_prependDigits_le_iff {n k : ℕ} :
    (prependDigits n []).length ≤ k ↔ n < 16 ^ k := by
  rw [prependDigits_eq, List.append_nil, List.length_reverse, List.length_map]
  exact Nat.digits_length_le_iff (by decide) n

/-! ## Whole bytes -/

/-- The digits made up to whole bytes, and to one byte at least: a zero in front where their
number is odd, two zeros where there are none. -/
def wholeBytes (l : HexDigits) : HexDigits :=
  if l = [] then [0, 0] else if l.length % 2 = 1 then 0 :: l else l

theorem value_wholeBytes (l : HexDigits) : value (wholeBytes l) = value l := by
  unfold wholeBytes
  split
  · rename_i hnil
    rw [hnil]
    rfl
  · split
    · exact value_replicate_append 1 l
    · rfl

/-- Making up to whole bytes does not cost a byte: there is a digit of it already. -/
theorem length_wholeBytes_le_iff {l : HexDigits} {k : ℕ} (hk : 0 < k) :
    (wholeBytes l).length ≤ 2 * k ↔ l.length ≤ 2 * k := by
  unfold wholeBytes
  split
  · rename_i hnil
    simp only [hnil, List.length_cons, List.length_nil]
    omega
  · split
    · rename_i hodd
      rw [List.length_cons]
      omega
    · rfl

/-- **The number of bytes a number needs.** -/
theorem length_wholeBytes_prependDigits_le_iff {n k : ℕ} (hk : 0 < k) :
    (wholeBytes (prependDigits n [])).length ≤ 2 * k ↔ n < 256 ^ k := by
  rw [length_wholeBytes_le_iff hk, length_prependDigits_le_iff, pow_mul]
  norm_num

/-- The bytes of pairs of digits, high digit first. -/
def toBytes : HexDigits → Bytes
  | hi :: lo :: l => UInt8.ofNat (16 * hi.val + lo.val) :: toBytes l
  | _ => []

theorem exists_pair {l : HexDigits} {k : ℕ} (h : l.length = 2 * (k + 1)) :
    ∃ hi lo m, l = hi :: lo :: m ∧ m.length = 2 * k := by
  match l with
  | [] => simp at h
  | [_] =>
    rw [List.length_singleton] at h
    omega
  | hi :: lo :: m =>
    refine ⟨hi, lo, m, rfl, ?_⟩
    rw [List.length_cons, List.length_cons] at h
    omega

theorem length_toBytes {l : HexDigits} {k : ℕ} (h : l.length = 2 * k) :
    (toBytes l).length = k := by
  induction k generalizing l with
  | zero =>
    rw [List.eq_nil_of_length_eq_zero h]
    rfl
  | succ k ih =>
    obtain ⟨hi, lo, m, rfl, hm⟩ := exists_pair h
    rw [toBytes, List.length_cons, ih hm]

/-- **The bytes spell the number of the digits.** -/
theorem bigEndian_toBytes {l : HexDigits} {k : ℕ} (h : l.length = 2 * k) :
    bigEndian (toBytes l) = value l := by
  induction k generalizing l with
  | zero =>
    rw [List.eq_nil_of_length_eq_zero h]
    rfl
  | succ k ih =>
    obtain ⟨hi, lo, m, rfl, hm⟩ := exists_pair h
    have hbyte : bigEndian [UInt8.ofNat (16 * hi.val + lo.val)] = value [hi, lo] := by
      have hhi := hi.isLt
      have hlo := lo.isLt
      rw [value_pair, bigEndian, List.foldl_cons, List.foldl_nil, UInt8.toNat_ofNat']
      omega
    calc bigEndian (toBytes (hi :: lo :: m))
        = bigEndian ([UInt8.ofNat (16 * hi.val + lo.val)] ++ toBytes m) := by
          rw [toBytes, List.singleton_append]
      _ = value [hi, lo] * 256 ^ k + value m := by
          rw [bigEndian_append, hbyte, ih hm, length_toBytes hm]
      _ = value [hi, lo] * 16 ^ m.length + value m := by
          rw [hm, pow_mul]
          norm_num
      _ = value ([hi, lo] ++ m) := (value_append _ _).symm

end HexDigits

/-! ## Characters -/

/-- The character of a digit. -/
def hexCharacter (d : Fin 16) : Char := "0123456789abcdef".toList.getD d.val '0'

/-- The digit of a character, in either case. -/
def hexDigit (c : Char) : Option (Fin 16) :=
  (List.finRange 16).find? fun d => hexCharacter d = c.toLower

theorem hexDigit_hexCharacter : ∀ d, hexDigit (hexCharacter d) = some d := by
  decide +kernel

/-- A hexadecimal string, with its prefix. -/
def hexString (l : HexDigits) : String := "0x" ++ String.ofList (l.map hexCharacter)

/-- The digits of a hexadecimal string, if it is one. -/
def ofHexString (s : String) : Option HexDigits :=
  match s.toList with
  | '0' :: 'x' :: l => l.mapM hexDigit
  | _ => none

theorem toList_hexString (l : HexDigits) :
    (hexString l).toList = '0' :: 'x' :: l.map hexCharacter := by
  simp [hexString]

/-- Reading undoes writing. -/
theorem ofHexString_hexString (l : HexDigits) : ofHexString (hexString l) = some l := by
  have hread : (l.map hexCharacter).mapM hexDigit = some l := by
    induction l with
    | nil => rfl
    | cons d l ih => simp [hexDigit_hexCharacter, ih]
  unfold ofHexString
  rw [toList_hexString]
  exact hread

/-- Zeros in front of the digits are zeros in front of the characters. -/
theorem hexString_leftpad (k : ℕ) (l : HexDigits) : hexString (l.leftpad k 0) =
    "0x" ++ String.ofList ((l.map hexCharacter).leftpad k '0') := by
  have hzero : hexCharacter 0 = '0' := by decide +kernel
  unfold hexString List.leftpad
  rw [List.map_append, List.map_replicate, List.length_map, hzero]

end OptimismZap
