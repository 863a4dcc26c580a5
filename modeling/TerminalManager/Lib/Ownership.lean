import Mathlib.Data.List.Nodup
import Mathlib.Data.List.Perm.Basic
import Mathlib.Logic.Function.Basic

/-!
# A part of a heap

A heap is a partial map.  A step of a program works on a few of its cells, and leaves the others as they are:

* `Owns heap cells rest`   the heap is `cells`, each at its own place, beside `rest`;
* `Owns.write`, `Owns.alloc`, `Owns.free`, `Owns.modify`   what one assignment does to the cells;
* `without heap ids`       the heap beside the cells at `ids`;
* `Owns.frame`             what is shown of a part holds of it beside more cells.
-/

namespace Ownership

section
variable {ι α : Type*}

/-- the heap is the `cells`, at different places, and the `rest` beside them -/
structure Owns (heap : ι → Option α) (cells : List (ι × α)) (rest : ι → Option α) : Prop where
  nodup : (cells.map Prod.fst).Nodup
  stored : ∀ c ∈ cells, heap c.1 = some c.2
  outside : ∀ i, i ∉ cells.map Prod.fst → heap i = rest i
  apart : ∀ i ∈ cells.map Prod.fst, rest i = none

variable {heap heap' rest : ι → Option α} {cells xs xs' ys : List (ι × α)} {i : ι} {a b : α}

lemma Owns.perm (h : Owns heap xs rest) (hp : xs.Perm ys) : Owns heap ys rest where
  nodup := (hp.map Prod.fst).nodup_iff.mp h.nodup
  stored := fun c hc => h.stored c (hp.mem_iff.mpr hc)
  outside := fun i hi => h.outside i fun hmem => hi ((hp.map Prod.fst).mem_iff.mp hmem)
  apart := fun i hi => h.apart i ((hp.map Prod.fst).mem_iff.mpr hi)

lemma Owns.get (h : Owns heap cells rest) (hc : (i, a) ∈ cells) : heap i = some a := h.stored (i, a) hc

lemma owns_nil (heap : ι → Option α) : Owns heap [] heap where
  nodup := List.nodup_nil
  stored := fun _ hc => by (cases hc)
  outside := fun _ _ => rfl
  apart := fun _ hi => by (cases hi)

section
variable [DecidableEq ι]

lemma Owns.write (h : Owns heap ((i, a) :: cells) rest) (b : α) :
    Owns (Function.update heap i (some b)) ((i, b) :: cells) rest where
  nodup := h.nodup
  stored := by
    intro c hc
    rcases List.mem_cons.mp hc with rfl | hmem
    · exact Function.update_self _ _ _
    · have hne : c.1 ≠ i := fun heq => (List.nodup_cons.mp h.nodup).1 (List.mem_map.mpr ⟨c, hmem, heq⟩)
      rw [Function.update_of_ne hne]
      exact h.stored c (List.mem_cons_of_mem _ hmem)
  outside := by
    intro j hj
    have hne : j ≠ i := by
      rintro rfl
      exact hj List.mem_cons_self
    rw [Function.update_of_ne hne]
    exact h.outside j hj
  apart := h.apart

lemma Owns.alloc (h : Owns heap cells rest) (hi : heap i = none) (a : α) :
    Owns (Function.update heap i (some a)) ((i, a) :: cells) rest where
  nodup := by
    refine List.nodup_cons.mpr ⟨fun hmem => ?_, h.nodup⟩
    obtain ⟨c, hc, rfl⟩ := List.mem_map.mp hmem
    rw [h.stored c hc] at hi
    cases hi
  stored := by
    intro c hc
    rcases List.mem_cons.mp hc with rfl | hmem
    · exact Function.update_self _ _ _
    · have hne : c.1 ≠ i := by
        intro heq
        rw [← heq, h.stored c hmem] at hi
        cases hi
      rw [Function.update_of_ne hne]
      exact h.stored c hmem
  outside := by
    intro j hj
    have hne : j ≠ i := by
      rintro rfl
      exact hj List.mem_cons_self
    rw [Function.update_of_ne hne]
    exact h.outside j fun hmem => hj (List.mem_cons_of_mem _ hmem)
  apart := by
    intro j hj
    rcases List.mem_cons.mp hj with heq | hj
    · by_cases hmem : j ∈ cells.map Prod.fst
      · exact h.apart j hmem
      · rw [← h.outside j hmem, heq]
        exact hi
    · exact h.apart j hj

lemma Owns.free (h : Owns heap ((i, a) :: cells) rest) : Owns (Function.update heap i none) cells rest where
  nodup := (List.nodup_cons.mp h.nodup).2
  stored := by
    intro c hc
    have hne : c.1 ≠ i := fun heq => (List.nodup_cons.mp h.nodup).1 (List.mem_map.mpr ⟨c, hc, heq⟩)
    rw [Function.update_of_ne hne]
    exact h.stored c (List.mem_cons_of_mem _ hc)
  outside := by
    intro j hj
    by_cases hji : j = i
    · rw [hji, Function.update_self]
      exact (h.apart i List.mem_cons_self).symm
    · rw [Function.update_of_ne hji]
      refine h.outside j fun hmem => ?_
      rcases List.mem_cons.mp hmem with heq | hmem
      · exact hji heq
      · exact hj hmem
  apart := fun j hj => h.apart j (List.mem_cons_of_mem _ hj)

/-- a cell that is there is changed -/
def modify (heap : ι → Option α) (i : ι) (f : α → α) : ι → Option α := Function.update heap i ((heap i).map f)

lemma Owns.modify (h : Owns heap ((i, a) :: cells) rest) (f : α → α) :
    Owns (modify heap i f) ((i, f a) :: cells) rest := by
  unfold Ownership.modify
  rw [h.get List.mem_cons_self]
  exact h.write (f a)

/-- a change beside the cells -/
lemma Owns.modify_rest (h : Owns heap cells rest) (hi : rest i ≠ none) (f : α → α) :
    Owns (Ownership.modify heap i f) cells (Ownership.modify rest i f) := by
  have hnot : i ∉ cells.map Prod.fst := fun hmem => hi (h.apart i hmem)
  unfold Ownership.modify
  rw [h.outside i hnot]
  refine ⟨h.nodup, fun c hc => ?_, fun j hj => ?_, fun j hj => ?_⟩
  · have hne : c.1 ≠ i := fun heq => hnot (heq ▸ List.mem_map_of_mem hc)
    rw [Function.update_of_ne hne]
    exact h.stored c hc
  · rw [Function.update_apply, Function.update_apply, h.outside j hj]
  · have hne : j ≠ i := fun heq => hnot (heq ▸ hj)
    rw [Function.update_of_ne hne]
    exact h.apart j hj

/-! ## the frame -/

/-- the heap beside the cells at `ids` -/
def without (heap : ι → Option α) (ids : List ι) : ι → Option α := fun i => if i ∈ ids then none else heap i

lemma modify_without (heap : ι → Option α) (ids : List ι) (i : ι) (f : α → α) :
    Ownership.modify (without heap ids) i f = without (Ownership.modify heap i f) ids := by
  funext j
  unfold Ownership.modify without
  rw [Function.update_apply, Function.update_apply]
  by_cases hj : j = i
  · rw [if_pos hj, if_pos hj, hj]
    split_ifs <;> rfl
  · rw [if_neg hj, if_neg hj]

/-- a part of the cells, beside what is left of the heap -/
lemma Owns.focus (h : Owns heap (xs ++ ys) rest) : Owns heap xs (without heap (xs.map Prod.fst)) where
  nodup := by
    have hnd := h.nodup
    rw [List.map_append] at hnd
    exact hnd.of_append_left
  stored := fun c hc => h.stored c (List.mem_append_left _ hc)
  outside := fun i hi => (if_neg hi).symm
  apart := fun i hi => if_pos hi

/-- **Frame rule.** When the part `xs` of the heap became `xs'` and nothing else changed, `xs ++ ys` became
`xs' ++ ys`.  (Where the rest was changed too, `heap` is the heap with that change alone.) -/
theorem Owns.frame (h : Owns heap (xs ++ ys) rest) (h' : Owns heap' xs' (without heap (xs.map Prod.fst))) :
    Owns heap' (xs' ++ ys) rest := by
  have hnd := h.nodup
  rw [List.map_append] at hnd
  obtain ⟨-, hys, hdisj⟩ := List.nodup_append.mp hnd
  -- what is in `ys` was not in `xs`, so it is not in `xs'` either
  have hleft : ∀ c ∈ ys, without heap (xs.map Prod.fst) c.1 = some c.2 := by
    intro c hc
    have hnot : c.1 ∉ xs.map Prod.fst := fun hmem => hdisj _ hmem _ (List.mem_map_of_mem hc) rfl
    show (if c.1 ∈ xs.map Prod.fst then none else heap c.1) = some c.2
    rw [if_neg hnot]
    exact h.stored c (List.mem_append_right _ hc)
  have hapart : ∀ c ∈ ys, c.1 ∉ xs'.map Prod.fst := by
    intro c hc hmem
    have hnone := h'.apart c.1 hmem
    rw [hleft c hc] at hnone
    cases hnone
  refine ⟨?_, ?_, ?_, ?_⟩
  · rw [List.map_append]
    refine List.nodup_append.mpr ⟨h'.nodup, hys, ?_⟩
    rintro i hi j hj rfl
    obtain ⟨c, hc, rfl⟩ := List.mem_map.mp hj
    exact hapart c hc hi
  · intro c hc
    rcases List.mem_append.mp hc with hc | hc
    · exact h'.stored c hc
    · rw [h'.outside c.1 (hapart c hc)]
      exact hleft c hc
  · intro i hi
    rw [List.map_append, List.mem_append, not_or] at hi
    rw [h'.outside i hi.1]
    show (if i ∈ xs.map Prod.fst then none else heap i) = rest i
    split_ifs with hmem
    · refine (h.apart i ?_).symm
      rw [List.map_append]
      exact List.mem_append_left _ hmem
    · refine h.outside i fun hmem' => ?_
      rw [List.map_append] at hmem'
      rcases List.mem_append.mp hmem' with hmem' | hmem'
      · exact hmem hmem'
      · exact hi.2 hmem'
  · intro i hi
    rw [List.map_append] at hi
    by_cases hmem : i ∈ (xs ++ ys).map Prod.fst
    · exact h.apart i hmem
    · rw [← h.outside i hmem]
      rw [List.map_append, List.mem_append, not_or] at hmem
      rcases List.mem_append.mp hi with hi | hi
      · have hnone := h'.apart i hi
        exact (if_neg hmem.1).symm.trans hnone
      · exact absurd hi hmem.2

/-- cells beside a whole heap, and the heap is cells -/
lemma Owns.beside (h' : Owns heap' xs heap) (h : Owns heap ys rest) : Owns heap' (xs ++ ys) rest :=
  @Owns.frame _ _ heap heap' rest [] xs ys _ h (by
    have hnone : without heap (([] : List (ι × α)).map Prod.fst) = heap := by
      funext i
      exact if_neg List.not_mem_nil
    rw [hnone]
    exact h')

/-- the part `xs` is gone -/
lemma Owns.drop (h : Owns heap (xs ++ ys) rest) (h' : heap' = without heap (xs.map Prod.fst)) : Owns heap' ys rest := by
  rw [h']
  exact h.frame (owns_nil _)

end

end

end Ownership
