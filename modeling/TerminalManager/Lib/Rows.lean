import Mathlib.Algebra.Order.Field.Basic
import Mathlib.Tactic.Linarith

/-!
# Rows under each other

Rows of given heights stand under each other with a gap after each of them.

* `tops`, `bottom`    where the rows begin, and where the next one would;
* `foldl_tops`        a loop that adds the heights up;
* `top_spec`          a row is between the first top and the bottom;
* `top_add_le`        a later row begins after an earlier one with its gap.
-/

namespace Rows
section
variable {K : Type*} [Field K]

/-- where the rows begin, the first one at `y` -/
def tops (gap y : K) : List K → List K
  | [] => []
  | height :: heights => y :: tops gap (y + (height + gap)) heights

/-- where the next row would begin -/
def bottom (gap y : K) : List K → K
  | [] => y
  | height :: heights => bottom gap (y + (height + gap)) heights

lemma foldl_tops (gap y : K) (above heights : List K) :
    heights.foldl (fun s height => (s.1 ++ [s.2], s.2 + (height + gap))) (above, y) =
      (above ++ tops gap y heights, bottom gap y heights) := by
  induction heights generalizing above y with
  | nil => simp [tops, bottom]
  | cons height heights ih => simp [ih, tops, bottom]

lemma length_tops (gap y : K) (heights : List K) : (tops gap y heights).length = heights.length := by
  induction heights generalizing y with
  | nil => rfl
  | cons height heights ih => rw [tops, List.length_cons, ih, List.length_cons]

variable [LinearOrder K] [IsStrictOrderedRing K] {gap y t u height : K} {heights : List K} {d e : Nat}

lemma le_bottom (hgap : 0 ≤ gap) (hheights : ∀ h ∈ heights, 0 ≤ h) : y ≤ bottom gap y heights := by
  induction heights generalizing y with
  | nil => exact le_refl y
  | cons height heights ih =>
    have hnext : y + (height + gap) ≤ bottom gap (y + (height + gap)) heights :=
      ih fun h hh => hheights h (List.mem_cons_of_mem height hh)
    have hpos := hheights height List.mem_cons_self
    rw [bottom]
    linarith

/-- a row is between the first top and the bottom -/
lemma top_spec (hgap : 0 ≤ gap) (hheights : ∀ h ∈ heights, 0 ≤ h) (ht : (tops gap y heights)[d]? = some t)
    (hh : heights[d]? = some height) : y ≤ t ∧ t + height + gap ≤ bottom gap y heights := by
  induction heights generalizing y d with
  | nil => nomatch hh
  | cons first heights ih =>
    have hrest : ∀ h ∈ heights, 0 ≤ h := fun h hh => hheights h (List.mem_cons_of_mem first hh)
    have hfirst := hheights first List.mem_cons_self
    rw [bottom]
    cases d with
    | zero =>
      have htop : y = t := Option.some_inj.mp ht
      have hheight : first = height := Option.some_inj.mp hh
      have hle := @le_bottom K _ _ _ gap (y + (first + gap)) heights hgap hrest
      exact ⟨htop.le, by linarith⟩
    | succ d =>
      obtain ⟨hle, hbottom⟩ := ih hrest ht hh
      exact ⟨by linarith, hbottom⟩

/-- a later row begins after an earlier one and its gap -/
lemma top_add_le (hgap : 0 ≤ gap) (hheights : ∀ h ∈ heights, 0 ≤ h) (hde : d < e)
    (ht : (tops gap y heights)[d]? = some t) (hh : heights[d]? = some height)
    (hu : (tops gap y heights)[e]? = some u) : t + height + gap ≤ u := by
  induction heights generalizing y d e with
  | nil => nomatch hh
  | cons first heights ih =>
    have hrest : ∀ h ∈ heights, 0 ≤ h := fun h hh => hheights h (List.mem_cons_of_mem first hh)
    obtain ⟨e, rfl⟩ : ∃ e', e = e' + 1 := ⟨e - 1, by omega⟩
    cases d with
    | zero =>
      have htop : y = t := Option.some_inj.mp ht
      have hheight : first = height := Option.some_inj.mp hh
      have hlater : (tops gap (y + (first + gap)) heights)[e]? = some u := hu
      have hlt : e < heights.length := by
        rw [← length_tops gap (y + (first + gap))]
        exact (List.getElem?_eq_some_iff.mp hlater).1
      obtain ⟨height', hh'⟩ : ∃ h, heights[e]? = some h := ⟨_, List.getElem?_eq_getElem hlt⟩
      have hle := (top_spec hgap hrest hlater hh').1
      linarith
    | succ d => exact ih hrest (by omega) ht hh hu

end
end Rows
