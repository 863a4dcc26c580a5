import Mathlib.Logic.Function.Basic
import TerminalManager.Lib.Table

/-!
# A sparse map laid over a base

Every key has a value: its entry where it has one, else the one of the base.

* `Overlay.value base t`   the values;
* `value_insert`, `value_remove`   an entry that is set or taken out replaces one value;
* `injective_update_iff`   distinct values stay distinct when one is replaced by a value no other key has.
-/

namespace Overlay
open Function
section
variable {κ α : Type*} [DecidableEq κ] (base : κ → α)

def value (t : Table κ α) (k : κ) : α := (t.get k).getD (base k)

@[simp] lemma value_empty : value base ∅ = base := rfl

lemma value_insert (t : Table κ α) (k : κ) (a : α) : value base (t.insert k a) = update (value base t) k a := by
  funext j
  unfold value
  rw [Table.get_insert, update_apply]
  split_ifs <;> rfl

/-- without its entry the key has the value of the base again -/
lemma value_remove (t : Table κ α) (k : κ) : value base (t.remove k) = update (value base t) k (base k) := by
  funext j
  unfold value
  rw [Table.get_remove, update_apply]
  by_cases h : j = k
  · rw [if_pos h, if_pos h, h]
    rfl
  · rw [if_neg h, if_neg h]

variable {base}

/-- **Replacement rule**: distinct values stay distinct exactly when no other key has the new one. -/
theorem injective_update_iff {f : κ → α} (hf : Injective f) (k : κ) (a : α) :
    Injective (update f k a) ↔ ∀ j, j ≠ k → f j ≠ a := by
  constructor
  · intro h j hj heq
    apply hj
    apply h
    rw [update_of_ne hj, update_self, heq]
  · intro h i j hij
    by_cases hi : i = k
    · by_cases hj : j = k
      · rw [hi, hj]
      · rw [hi, update_self, update_of_ne hj] at hij
        exact absurd hij.symm (h j hj)
    · by_cases hj : j = k
      · rw [hj, update_self, update_of_ne hi] at hij
        exact absurd hij (h i hi)
      · rw [update_of_ne hi, update_of_ne hj] at hij
        exact hf hij

end
end Overlay
