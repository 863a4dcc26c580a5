import Mathlib.Data.List.Infix

/-!
# Deleting a pattern until there is none left

A sweep goes over a list once and leaves out an entry and the `n` after it wherever a test of what lies ahead holds.
What was apart before can come together, so that one sweep is not enough; the sweeps are repeated until one of them
leaves nothing out.

* `sweep`, `exhaust`       one sweep and whether it left out something; the sweeps;
* `Clean`                 the test holds nowhere in the list;
* `exhaust_clean`, `exhaust_of_clean`   the sweeps end in a clean list, and do nothing to one;
* `exhaust_keeps`         what one sweep keeps, the sweeps keep.
-/

namespace Deletion

variable {α : Type*} (hit : List α → Bool) (n : Nat)

/-- the entries that stay, and whether there are others -/
def sweep : List α → List α × Bool
  | [] => ([], false)
  | x :: xs =>
    if hit (x :: xs) then ((sweep (xs.drop n)).1, true)
    else (x :: (sweep xs).1, (sweep xs).2)
termination_by xs => xs.length
decreasing_by
  · rw [List.length_drop, List.length_cons]
    omega
  · exact Nat.lt_succ_self _

lemma sweep_length (xs : List α) : (sweep hit n xs).1.length ≤ xs.length ∧
    ((sweep hit n xs).2 = true → (sweep hit n xs).1.length < xs.length) := by
  induction xs using sweep.induct hit n with
  | case1 => simp [sweep]
  | case2 x xs h ih =>
    rw [sweep, if_pos h]
    have hlen := ih.1
    rw [List.length_drop] at hlen
    simp only [List.length_cons]
    omega
  | case3 x xs h ih =>
    rw [sweep, if_neg h]
    exact ⟨Nat.succ_le_succ ih.1, fun hr => Nat.succ_lt_succ (ih.2 hr)⟩

def exhaust (xs : List α) : List α :=
  if _h : (sweep hit n xs).2 = true then exhaust (sweep hit n xs).1 else (sweep hit n xs).1
termination_by xs.length
decreasing_by exact (sweep_length hit n xs).2 _h

/-- nowhere in the list does the test hold of what lies ahead -/
def Clean (xs : List α) : Prop := ∀ x ys, x :: ys <:+ xs → hit (x :: ys) = false

variable {hit n} {x : α} {xs : List α}

lemma clean_nil : Clean hit [] := by
  intro x ys h
  exact absurd (List.suffix_nil.mp h) (List.cons_ne_nil _ _)

lemma clean_cons : Clean hit (x :: xs) ↔ hit (x :: xs) = false ∧ Clean hit xs := by
  constructor
  · intro h
    exact ⟨h x xs (List.suffix_refl _), fun y ys hys => h y ys (hys.trans (List.suffix_cons x xs))⟩
  · intro h y ys hys
    rcases List.suffix_cons_iff.mp hys with heq | hin
    · rw [heq]
      exact h.1
    · exact h.2 y ys hin

/-- a sweep leaves out something unless the list is clean -/
lemma sweep_clean (xs : List α) (h : (sweep hit n xs).2 = false) : (sweep hit n xs).1 = xs ∧ Clean hit xs := by
  induction xs using sweep.induct hit n with
  | case1 => exact ⟨by rw [sweep], clean_nil⟩
  | case2 x xs hx ih =>
    rw [sweep, if_pos hx] at h
    exact absurd h Bool.true_eq_false.mp
  | case3 x xs hx ih =>
    rw [sweep, if_neg hx] at h ⊢
    obtain ⟨hsame, hclean⟩ := ih h
    exact ⟨by rw [hsame], clean_cons.mpr ⟨Bool.eq_false_iff.mpr hx, hclean⟩⟩

lemma sweep_of_clean (xs : List α) (h : Clean hit xs) : sweep hit n xs = (xs, false) := by
  induction xs with
  | nil => rw [sweep]
  | cons x xs ih =>
    obtain ⟨hx, hxs⟩ := clean_cons.mp h
    rw [sweep, if_neg (Bool.eq_false_iff.mp hx), ih hxs]

/-- entries at which the test never holds stay -/
lemma sweep_append (xs ys : List α) (h : ∀ x ∈ xs, ∀ zs, hit (x :: zs) = false) :
    (sweep hit n (xs ++ ys)).1 = xs ++ (sweep hit n ys).1 := by
  induction xs with
  | nil => rfl
  | cons x xs ih =>
    rw [List.cons_append, sweep, if_neg (Bool.eq_false_iff.mp (h x List.mem_cons_self _)),
      ih fun y hy => h y (List.mem_cons_of_mem x hy)]
    rfl

theorem exhaust_clean (xs : List α) : Clean hit (exhaust hit n xs) := by
  induction xs using exhaust.induct hit n with
  | case1 xs h ih =>
    rw [exhaust, dif_pos h]
    exact ih
  | case2 xs h =>
    rw [exhaust, dif_neg h]
    obtain ⟨hsame, hclean⟩ := sweep_clean xs (Bool.eq_false_iff.mpr h)
    rwa [hsame]

theorem exhaust_of_clean (h : Clean hit xs) : exhaust hit n xs = xs := by
  rw [exhaust, sweep_of_clean xs h, dif_neg Bool.false_ne_true]

theorem exhaust_keeps {P : List α → Prop} (hP : ∀ xs, P xs → P (sweep hit n xs).1) (xs : List α) (h : P xs) :
    P (exhaust hit n xs) := by
  induction xs using exhaust.induct hit n with
  | case1 xs hr ih =>
    rw [exhaust, dif_pos hr]
    exact ih (hP xs h)
  | case2 xs hr =>
    rw [exhaust, dif_neg hr]
    exact hP xs h

end Deletion
