import Mathlib.Tactic.Common

/-!
# Slices that panic

The slice operations of the source on a list: an operation whose index or range is out of bounds
panics, so it is an `Option` here (`none` is the panic), over the operation that goes through.

* `set?`, `range?`, `overwrite?`, `copyWithin?`, `fillFrom?`, `sub?`   the checked operations;
* `getElem?_overwrite`, `getElem?_range`, `getElem?_copyWithin`, `getElem?_fillFrom`   what the
  list holds afterwards, entry by entry.
-/

namespace Slice

section
variable {α : Type*}

/-- `xs[i] = x` -/
def set? (xs : List α) (i : Nat) (x : α) : Option (List α) :=
  if i < xs.length then some (xs.set i x) else none

/-- the entries of `xs[a..b]` -/
def range (xs : List α) (a b : Nat) : List α := (xs.take b).drop a

/-- `&xs[a..b]` -/
def range? (xs : List α) (a b : Nat) : Option (List α) :=
  if a ≤ b ∧ b ≤ xs.length then some (range xs a b) else none

/-- `xs` with the entries from `k` on replaced by `ys` -/
def overwrite (xs : List α) (k : Nat) (ys : List α) : List α :=
  xs.take k ++ ys ++ xs.drop (k + ys.length)

/-- `xs[k..k + ys.len()].copy_from_slice(ys)` -/
def overwrite? (xs : List α) (k : Nat) (ys : List α) : Option (List α) :=
  if k + ys.length ≤ xs.length then some (overwrite xs k ys) else none

/-- the entries of `xs[a..b]` copied to `k` -/
def copyWithin (xs : List α) (a b k : Nat) : List α := overwrite xs k (range xs a b)

/-- `xs.copy_within(a..b, k)` -/
def copyWithin? (xs : List α) (a b k : Nat) : Option (List α) :=
  if a ≤ b ∧ b ≤ xs.length ∧ k + (b - a) ≤ xs.length then some (copyWithin xs a b k) else none

/-- every entry from `a` on set to `x` -/
def fillFrom (xs : List α) (a : Nat) (x : α) : List α :=
  xs.take a ++ List.replicate (xs.length - a) x

/-- `xs[a..].fill(x)` -/
def fillFrom? (xs : List α) (a : Nat) (x : α) : Option (List α) :=
  if a ≤ xs.length then some (fillFrom xs a x) else none

/-- `a - b` on unsigned integers -/
def sub? (a b : Nat) : Option Nat := if b ≤ a then some (a - b) else none

variable {xs ys : List α} {x : α} {a b k : Nat}

lemma set?_eq (h : k < xs.length) : set? xs k x = some (xs.set k x) := if_pos h

lemma range?_eq (hab : a ≤ b) (hb : b ≤ xs.length) : range? xs a b = some (range xs a b) :=
  if_pos ⟨hab, hb⟩

lemma overwrite?_eq (h : k + ys.length ≤ xs.length) : overwrite? xs k ys = some (overwrite xs k ys) :=
  if_pos h

lemma copyWithin?_eq (hab : a ≤ b) (hb : b ≤ xs.length) (hk : k + (b - a) ≤ xs.length) :
    copyWithin? xs a b k = some (copyWithin xs a b k) := if_pos ⟨hab, hb, hk⟩

lemma fillFrom?_eq (h : a ≤ xs.length) : fillFrom? xs a x = some (fillFrom xs a x) := if_pos h

lemma sub?_eq (h : b ≤ a) : sub? a b = some (a - b) := if_pos h

lemma length_range (hb : b ≤ xs.length) : (range xs a b).length = b - a := by
  rw [range, List.length_drop, List.length_take, Nat.min_eq_left hb]

lemma length_overwrite (h : k + ys.length ≤ xs.length) : (overwrite xs k ys).length = xs.length := by
  simp only [overwrite, List.length_append, List.length_take, List.length_drop]
  omega

lemma length_copyWithin (hb : b ≤ xs.length) (hk : k + (b - a) ≤ xs.length) :
    (copyWithin xs a b k).length = xs.length :=
  length_overwrite (by rwa [length_range hb])

lemma length_fillFrom (h : a ≤ xs.length) : (fillFrom xs a x).length = xs.length := by
  simp only [fillFrom, List.length_append, List.length_take, List.length_replicate]
  omega

lemma getElem?_range (i : Nat) : (range xs a b)[i]? = if a + i < b then xs[a + i]? else none := by
  rw [range, List.getElem?_drop, List.getElem?_take]

lemma getElem?_overwrite (h : k + ys.length ≤ xs.length) (i : Nat) :
    (overwrite xs k ys)[i]? = if k ≤ i ∧ i < k + ys.length then ys[i - k]? else xs[i]? := by
  have hk : (xs.take k).length = k := by rw [List.length_take]; omega
  rw [overwrite, List.append_assoc]
  by_cases hlt : i < k
  · rw [List.getElem?_append_left (by omega), List.getElem?_take_of_lt hlt, if_neg (by omega)]
  rw [List.getElem?_append_right (by omega), hk]
  by_cases hin : i < k + ys.length
  · rw [List.getElem?_append_left (by omega), if_pos (by omega)]
  · rw [List.getElem?_append_right (by omega), List.getElem?_drop, if_neg (by omega)]
    congr 1
    omega

lemma getElem?_copyWithin (hab : a ≤ b) (hb : b ≤ xs.length) (hk : k + (b - a) ≤ xs.length) (i : Nat) :
    (copyWithin xs a b k)[i]? = if k ≤ i ∧ i < k + (b - a) then xs[a + (i - k)]? else xs[i]? := by
  rw [copyWithin, getElem?_overwrite (by rwa [length_range hb]), length_range hb, getElem?_range]
  by_cases hi : k ≤ i ∧ i < k + (b - a)
  · rw [if_pos hi, if_pos hi, if_pos (by omega)]
  · rw [if_neg hi, if_neg hi]

lemma getElem?_fillFrom (h : a ≤ xs.length) (i : Nat) :
    (fillFrom xs a x)[i]? = if a ≤ i then xs[i]?.map fun _ => x else xs[i]? := by
  have ha : (xs.take a).length = a := by rw [List.length_take]; omega
  rw [fillFrom]
  by_cases hi : a ≤ i
  · rw [List.getElem?_append_right (by omega), ha, List.getElem?_replicate, if_pos hi]
    by_cases hlt : i < xs.length
    · rw [if_pos (by omega), List.getElem?_eq_getElem hlt]
      rfl
    · rw [if_neg (by omega), List.getElem?_eq_none (by omega)]
      rfl
  · rw [List.getElem?_append_left (by omega), List.getElem?_take_of_lt (by omega), if_neg hi]

end
end Slice
