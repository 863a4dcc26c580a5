import Mathlib.Tactic.Common

/-!
# Reading from a stream that arrives in pieces

A stream is the list of its pieces, in the order in which they arrive.  One read gives some of what
has arrived, and nothing only at the end of the stream.

* `read k`       one read of at most `k` items;
* `fill want`    reads until `want` items are there or the stream ends;
* `fill_fst`, `fill_snd`   **main result**: however the stream is cut, `fill` takes its first `want`
  items and leaves the others.
-/

namespace Chunked
variable {α : Type*}

/-- at most `k` items of the first piece that has any -/
def read (k : Nat) : List (List α) → List α × List (List α)
  | [] => ([], [])
  | [] :: pieces => read k pieces
  | (a :: l) :: pieces => ((a :: l).take k, (a :: l).drop k :: pieces)

lemma read_append (k : Nat) (pieces : List (List α)) :
    (read k pieces).1 ++ (read k pieces).2.flatten = pieces.flatten := by
  induction pieces with
  | nil => rfl
  | cons p pieces ih =>
    cases p with
    | nil => exact ih
    | cons a l =>
      show (a :: l).take k ++ ((a :: l).drop k ++ pieces.flatten) = (a :: l) ++ pieces.flatten
      rw [← List.append_assoc, List.take_append_drop]

lemma read_length (k : Nat) (pieces : List (List α)) : (read k pieces).1.length ≤ k := by
  induction pieces with
  | nil => exact Nat.zero_le _
  | cons p pieces ih =>
    cases p with
    | nil => exact ih
    | cons a l => exact List.length_take_le _ _

/-- nothing is read only at the end -/
lemma read_nil {k : Nat} (hk : 0 < k) {pieces : List (List α)} (h : (read k pieces).1 = []) :
    pieces.flatten = [] ∧ (read k pieces).2.flatten = [] := by
  have hnil : pieces.flatten = [] := by
    induction pieces with
    | nil => rfl
    | cons p pieces ih =>
      cases p with
      | nil => exact ih h
      | cons a l =>
        obtain ⟨n, rfl⟩ := Nat.exists_eq_succ_of_ne_zero (Nat.ne_of_gt hk)
        cases h
  have happ := read_append k pieces
  rw [hnil, h] at happ
  exact ⟨hnil, happ⟩

/-- reads until `want` items are there; the stream may end before -/
def fill (want : Nat) (got : List α) (pieces : List (List α)) : List α × List (List α) :=
  if got.length < want then
    if (read (want - got.length) pieces).1 = [] then (got, (read (want - got.length) pieces).2)
    else fill want (got ++ (read (want - got.length) pieces).1) (read (want - got.length) pieces).2
  else (got, pieces)
termination_by want - got.length
decreasing_by
  rename_i hne
  have hpos := List.length_pos_iff.mpr hne
  rw [List.length_append]
  omega

lemma fill_eq {want : Nat} {got : List α} {pieces : List (List α)} (hle : got.length ≤ want) :
    (fill want got pieces).1 = got ++ pieces.flatten.take (want - got.length) ∧
      (fill want got pieces).2.flatten = pieces.flatten.drop (want - got.length) := by
  induction got, pieces using fill.induct want with
  | case1 got pieces hlt hnil =>
    obtain ⟨h1, h2⟩ := read_nil (Nat.sub_pos_of_lt hlt) hnil
    rw [fill, if_pos hlt, if_pos hnil, h1, h2, List.take_nil, List.drop_nil, List.append_nil]
    exact ⟨rfl, rfl⟩
  | case2 got pieces hlt hne ih =>
    have happ := read_append (want - got.length) pieces
    have hlen := read_length (want - got.length) pieces
    have hlen' : (got ++ (read (want - got.length) pieces).1).length ≤ want := by
      rw [List.length_append]
      omega
    obtain ⟨h1, h2⟩ := ih hlen'
    have hrest : want - (got ++ (read (want - got.length) pieces).1).length =
        want - got.length - (read (want - got.length) pieces).1.length := by
      rw [List.length_append]
      omega
    rw [hrest] at h1 h2
    rw [fill, if_pos hlt, if_neg hne, h1, h2, ← happ, List.take_append, List.drop_append,
      List.take_of_length_le hlen, List.drop_of_length_le hlen, List.append_assoc, List.nil_append]
    exact ⟨rfl, rfl⟩
  | case3 got pieces hge =>
    have hzero : want - got.length = 0 := by omega
    rw [fill, if_neg hge, hzero, List.take_zero, List.drop_zero, List.append_nil]
    exact ⟨rfl, rfl⟩

/-- **What `fill` takes** does not depend on the pieces. -/
theorem fill_fst (want : Nat) (pieces : List (List α)) :
    (fill want [] pieces).1 = pieces.flatten.take want := (fill_eq (Nat.zero_le want)).1

/-- **What `fill` leaves** does not depend on the pieces. -/
theorem fill_snd (want : Nat) (pieces : List (List α)) :
    (fill want [] pieces).2.flatten = pieces.flatten.drop want := (fill_eq (Nat.zero_le want)).2

end Chunked
