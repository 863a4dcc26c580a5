import Mathlib.Algebra.Group.Nat.Defs
import Mathlib.Tactic.Common
import Mathlib.Tactic.Ring

/-!
# Little-endian bytes

* `leBytes w n`     the `w` low bytes of `n`, the lowest first (`to_le_bytes`);
* `leValue`         the number a list of bytes stands for (`from_le_bytes`);
* `leValue_leBytes` what is read back, for a number that fits;
* `leBytes_leValue` what is written back.
-/

namespace LittleEndian

def leBytes : Nat → Nat → List UInt8
  | 0, _ => []
  | w + 1, n => UInt8.ofNat n :: leBytes w (n / 256)

def leValue : List UInt8 → Nat
  | [] => 0
  | b :: l => b.toNat + 256 * leValue l

@[simp] lemma leBytes_length (w n : Nat) : (leBytes w n).length = w := by
  induction w generalizing n with
  | zero => rfl
  | succ w ih => rw [leBytes, List.length_cons, ih]

lemma leValue_leBytes {w n : Nat} (h : n < 256 ^ w) : leValue (leBytes w n) = n := by
  induction w generalizing n with
  | zero =>
    have h0 : n = 0 := by simpa using h
    rw [h0]
    rfl
  | succ w ih =>
    have hw : n / 256 < 256 ^ w := by
      rw [Nat.pow_succ] at h
      exact Nat.div_lt_of_lt_mul (by rw [Nat.mul_comm]; exact h)
    rw [leBytes, leValue, ih hw, UInt8.toNat_ofNat']
    omega

lemma leBytes_leValue (l : List UInt8) : leBytes l.length (leValue l) = l := by
  induction l with
  | nil => rfl
  | cons b l ih =>
    have hb : b.toNat < 256 := b.toNat_lt
    have hdiv : (b.toNat + 256 * leValue l) / 256 = leValue l := by omega
    have hmod : UInt8.ofNat (b.toNat + 256 * leValue l) = b := by
      apply UInt8.toNat_inj.mp
      rw [UInt8.toNat_ofNat']
      omega
    rw [List.length_cons, leBytes, leValue, hdiv, hmod, ih]

end LittleEndian
