import Mathlib.Data.List.Nodup
import Mathlib.Logic.Relation

/-!
# A worklist

What is found is listed once, in the order in which it is found, and waits for its turn; a turn takes the first one that
waits and finds more.

* `Worklist`, `add`, `turn`   what is found and what waits, one more found, and a turn;
* `Worklist.Ok`               what waits is the end of what is found;
* `length_le_of_ok`           there are no more turns than there are things to find;
* `Closed.mem_iff`            at the end, when every turn finds what follows, all that is reached is found.
-/

/-- what is found, and what of it waits -/
structure Worklist (α : Type*) where
  found : List α
  pending : List α

namespace Worklist
variable {α : Type*} [DecidableEq α]

def add (w : Worklist α) (x : α) : Worklist α :=
  if x ∈ w.found then w else ⟨w.found ++ [x], w.pending ++ [x]⟩

/-- the first one that waits is done, and has found some more -/
def turn (w : Worklist α) (more : List α) : Worklist α := more.foldl add ⟨w.found, w.pending.tail⟩

/-- what waits is the end of what is found, and nothing is found twice -/
structure Ok (w : Worklist α) (done : List α) : Prop where
  found : w.found = done ++ w.pending
  nodup : w.found.Nodup

variable {w : Worklist α} {done : List α} {x : α}

lemma Ok.add (h : w.Ok done) (x : α) : (w.add x).Ok done := by
  unfold Worklist.add
  by_cases hx : x ∈ w.found
  · rwa [if_pos hx]
  · rw [if_neg hx]
    refine ⟨by rw [h.found, List.append_assoc], ?_⟩
    exact h.nodup.append (List.nodup_singleton x) (List.disjoint_singleton.mpr hx)

lemma Ok.foldl_add (h : w.Ok done) (xs : List α) : (xs.foldl Worklist.add w).Ok done := by
  induction xs generalizing w with
  | nil => exact h
  | cons x xs ih => exact ih (h.add x)

lemma found_add (w : Worklist α) (x : α) {y : α} : y ∈ (w.add x).found ↔ y ∈ w.found ∨ y = x := by
  unfold Worklist.add
  by_cases hx : x ∈ w.found
  · rw [if_pos hx]
    exact ⟨.inl, fun h => h.elim id fun heq => heq ▸ hx⟩
  · rw [if_neg hx, List.mem_append, List.mem_singleton]

lemma found_foldl_add (w : Worklist α) (xs : List α) {y : α} :
    y ∈ (xs.foldl add w).found ↔ y ∈ w.found ∨ y ∈ xs := by
  induction xs generalizing w with
  | nil => simp
  | cons x xs ih => rw [List.foldl_cons, ih, found_add, List.mem_cons, or_assoc]

lemma found_turn (w : Worklist α) (more : List α) {y : α} :
    y ∈ (w.turn more).found ↔ y ∈ w.found ∨ y ∈ more := found_foldl_add ⟨w.found, w.pending.tail⟩ more

/-- **Step lemma**: after its turn one more is done. -/
lemma Ok.turn {rest : List α} (h : w.Ok done) (hw : w.pending = x :: rest) (more : List α) :
    (w.turn more).Ok (done ++ [x]) := by
  have hrest : Ok ⟨w.found, w.pending.tail⟩ (done ++ [x]) := by
    refine ⟨?_, h.nodup⟩
    rw [h.found, hw, List.append_assoc]
    rfl
  exact hrest.foldl_add more

omit [DecidableEq α] in
/-- there are no more turns than there are things to find -/
lemma length_le_of_ok (h : w.Ok done) {all : List α} (hall : w.found ⊆ all) (hw : all.length ≤ done.length) :
    w.pending = [] := by
  have hle := h.nodup.length_le_of_subset hall
  rw [h.found, List.length_append] at hle
  exact List.eq_nil_of_length_eq_zero (by omega)

/-! ## what is reached -/

/-- what is reached from the roots, one after the other -/
def Reached (succ : α → List α) (roots : List α) (x : α) : Prop :=
  ∃ r ∈ roots, Relation.ReflTransGen (fun a b => b ∈ succ a) r x

/-- only what is reached is found, and what follows what is done is found as well -/
structure Closed (succ : α → List α) (roots : List α) (w : Worklist α) (done : List α) : Prop where
  ok : w.Ok done
  start : roots ⊆ w.found
  reached : ∀ x ∈ w.found, Reached succ roots x
  next : ∀ x ∈ done, succ x ⊆ w.found

variable {succ : α → List α} {roots rest : List α}

lemma closed_roots (succ : α → List α) (roots : List α) : Closed succ roots (roots.foldl add ⟨[], []⟩) [] where
  ok := Ok.foldl_add ⟨rfl, List.nodup_nil⟩ roots
  start := fun _ hx => (found_foldl_add _ _).mpr (.inr hx)
  reached := fun x hx => ⟨x, ((found_foldl_add _ _).mp hx).resolve_left List.not_mem_nil, .refl⟩
  next := fun _ h => nomatch h

/-- **Step lemma**: a turn that finds what follows. -/
lemma Closed.turn (h : Closed succ roots w done) (hw : w.pending = x :: rest) :
    Closed succ roots (w.turn (succ x)) (done ++ [x]) := by
  have hx : x ∈ w.found := by
    rw [h.ok.found, hw]
    exact List.mem_append_right _ List.mem_cons_self
  constructor
  case ok => exact h.ok.turn hw _
  case start => exact fun y hy => (found_turn _ _).mpr (.inl (h.start hy))
  case reached =>
    intro y hy
    rcases (found_turn _ _).mp hy with hy | hy
    · exact h.reached y hy
    · obtain ⟨r, hr, hrx⟩ := h.reached x hx
      exact ⟨r, hr, hrx.tail hy⟩
  case next =>
    intro y hy z hz
    rcases List.mem_append.mp hy with hy | hy
    · exact (found_turn _ _).mpr (.inl (h.next y hy hz))
    · cases List.mem_singleton.mp hy
      exact (found_turn _ _).mpr (.inr hz)

omit [DecidableEq α] in
/-- **When nothing waits**, all that is reached is found, and nothing else. -/
theorem Closed.mem_iff (h : Closed succ roots w done) (hw : w.pending = []) :
    x ∈ w.found ↔ Reached succ roots x := by
  refine ⟨h.reached x, ?_⟩
  rintro ⟨r, hr, hrx⟩
  have hdone : w.found = done := by rw [h.ok.found, hw, List.append_nil]
  induction hrx with
  | refl => exact h.start hr
  | tail _ hstep ih => exact h.next _ (hdone ▸ ih) hstep

end Worklist
