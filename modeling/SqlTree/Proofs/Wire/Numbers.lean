import Mathlib.Tactic.Ring
import SqlTree.Number.Width
import SqlTree.Wire.Bytes

/-!
# Wire — numbers and their bytes

A number is read back from its bytes, as long as it fits in them: a natural number as it is
(`readNat_natBytes`), and an integer in two's complement (`readInt_intBytes`).
-/

namespace SqlTree.Wire
open Number (fitsSigned)

theorem fitsSigned_iff {bits : Nat} {i : Int} :
    fitsSigned bits i = true ↔ -2 ^ (bits - 1) ≤ i ∧ i < 2 ^ (bits - 1) := by
  rw [fitsSigned, Bool.and_eq_true, decide_eq_true_iff, decide_eq_true_iff, and_comm,
    Nat.one_shiftLeft, Nat.cast_pow, Nat.cast_ofNat]

theorem length_natBytes (width n : Nat) : (natBytes width n).length = width := by
  induction width with
  | zero => rfl
  | succ width ih => rw [natBytes, List.length_cons, ih]

theorem foldl_natOfBytes (n : Nat) (bs : Bytes) :
    bs.foldl (fun n b => n * 256 + b.toNat) n = n * 256 ^ bs.length + natOfBytes bs := by
  induction bs generalizing n with
  | nil => simp [natOfBytes]
  | cons b bs ih =>
    rw [natOfBytes, List.foldl_cons, List.foldl_cons, ih, ih (0 * 256 + b.toNat), List.length_cons]
    ring

theorem natOfBytes_cons (b : UInt8) (bs : Bytes) :
    natOfBytes (b :: bs) = b.toNat * 256 ^ bs.length + natOfBytes bs := by
  rw [natOfBytes, List.foldl_cons, foldl_natOfBytes, Nat.zero_mul, Nat.zero_add]

theorem shiftRight_bytes (width n : Nat) : n >>> (8 * width) = n / 256 ^ width := by
  rw [Nat.shiftRight_eq_div_pow, Nat.pow_mul]

theorem shiftLeft_bytes (width : Nat) : 1 <<< (8 * width) = 256 ^ width := by
  rw [Nat.one_shiftLeft, Nat.pow_mul]

/-- The bytes hold the number as far as it fits in them. -/
theorem natOfBytes_natBytes (width n : Nat) : natOfBytes (natBytes width n) = n % 256 ^ width := by
  induction width with
  | zero => rw [Nat.pow_zero, Nat.mod_one]; rfl
  | succ width ih =>
    rw [natBytes, natOfBytes_cons, length_natBytes, ih, UInt8.toNat_ofNat', shiftRight_bytes,
      Nat.mod_pow_succ (b := 256), Nat.mul_comm, Nat.add_comm]

theorem readNat_natBytes (width : Nat) {n : Nat} (h : n < 256 ^ width) :
    readNat width (natBytes width n) = some n := by
  rw [readNat, if_pos (length_natBytes width n), natOfBytes_natBytes, Nat.mod_eq_of_lt h]

/-- An integer that fits is read back: a negative one stands in the upper half of the numbers that
the bytes can hold. -/
theorem readInt_intBytes (width : Nat) (hwidth : 0 < width) {i : Int}
    (h : fitsSigned (8 * width) i = true) : readInt width (intBytes width i) = some i := by
  obtain ⟨hlow, hhigh⟩ := fitsSigned_iff.1 h
  have hsize : 256 ^ width = 2 * 2 ^ (8 * width - 1) := by
    rw [← Nat.pow_succ', Nat.succ_eq_add_one, Nat.sub_add_cancel (by omega), Nat.pow_mul]
  rw [readInt, intBytes, if_pos (length_natBytes ..), intOfBytes, length_natBytes,
    natOfBytes_natBytes, shiftLeft_bytes, hsize]
  have hhalf : ((2 ^ (8 * width - 1) : Nat) : Int) = 2 ^ (8 * width - 1) := by norm_cast
  rw [← hhalf] at hlow hhigh
  generalize 2 ^ (8 * width - 1) = half at hlow hhigh
  rcases le_or_gt 0 i with hi | hi
  · have hmod : i % (2 * half : Nat) = i := Int.emod_eq_of_lt hi (by omega)
    rw [hmod, Nat.mod_eq_of_lt (by omega), if_pos (by omega), Int.toNat_of_nonneg hi]
  · have hmod : i % (2 * half : Nat) = i + (2 * half : Nat) := by
      rw [← Int.add_emod_right, Int.emod_eq_of_lt (by omega) (by omega)]
    rw [hmod, Nat.mod_eq_of_lt (by omega), if_neg (by omega), Int.toNat_of_nonneg (by omega),
      Int.add_sub_cancel]

end SqlTree.Wire
