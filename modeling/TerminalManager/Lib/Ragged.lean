import Mathlib.Data.List.Forall2
import Mathlib.Data.List.Perm.Basic
import Mathlib.Tactic.Common

/-!
# Lists by position, and ragged grids

A list with one entry taken out, put in or exchanged has the entries it had, up to that one.  A
ragged grid is a list of rows; its entries are those of its rows.  Two grids with the same row
lengths keep having them when the same position of both is changed the same way.

* `perm_of_getElem?`         a list is its `i`-th entry and the others;
* `perm_modify`, `perm_set`  one entry changed;
* `perm_move`              an entry put elsewhere;
* `perm_eraseIdx_of_ne`      two entries taken out, one after the other;
* `forall₂_filterMap`, …     lists related entry by entry, filtered, mapped and changed together;
* `Ragged.cell?`             the entry at a row and a column;
* `Ragged.flatten_modify`    the entries when one row is changed;
* `Ragged.lengths_*`         the row lengths after each change;
* `Ragged.find?`             where the first entry that meets a test is.
-/

section
variable {α β : Type*}

/-- a list is its `i`-th entry and the others -/
lemma perm_of_getElem? {xs : List α} {i : Nat} {x : α} (h : xs[i]? = some x) :
    xs.Perm (x :: xs.eraseIdx i) := by
  obtain ⟨hi, rfl⟩ := List.getElem?_eq_some_iff.mp h
  exact (List.getElem_cons_eraseIdx_perm hi).symm

lemma perm_modify {xs : List α} {i : Nat} {x : α} (h : xs[i]? = some x) (f : α → α) :
    (xs.modify i f).Perm (f x :: xs.eraseIdx i) := by
  have hget : (xs.modify i f)[i]? = some (f x) := by
    rw [List.getElem?_modify_eq, h]
    rfl
  have hperm := perm_of_getElem? hget
  rwa [List.eraseIdx_modify_of_eq] at hperm

lemma mem_of_mem_modify {xs : List α} {i : Nat} {x y : α} {f : α → α} (h : xs[i]? = some x)
    (hy : y ∈ xs.modify i f) : y = f x ∨ y ∈ xs :=
  (List.mem_cons.mp ((perm_modify h f).mem_iff.mp hy)).imp_right List.mem_of_mem_eraseIdx

lemma perm_set {xs : List α} {i : Nat} {x : α} (h : xs[i]? = some x) (y : α) :
    (xs.set i y).Perm (y :: xs.eraseIdx i) := by
  obtain ⟨hi, -⟩ := List.getElem?_eq_some_iff.mp h
  have hget : (xs.set i y)[i]? = some y := List.getElem?_set_self hi
  have hperm := perm_of_getElem? hget
  rwa [List.eraseIdx_set_eq] at hperm

/-- an entry taken out and put in elsewhere -/
lemma perm_move {xs : List α} {i j : Nat} {x : α} (hi : xs[i]? = some x)
    (hj : j ≤ (xs.eraseIdx i).length) : ((xs.eraseIdx i).insertIdx j x).Perm xs :=
  (List.perm_insertIdx x _ hj).trans (perm_of_getElem? hi).symm

/-- the other entries of two lists with the same entries -/
lemma perm_eraseIdx {xs ys : List α} {i j : Nat} {x : α} (h : xs.Perm ys) (hi : xs[i]? = some x)
    (hj : ys[j]? = some x) : (xs.eraseIdx i).Perm (ys.eraseIdx j) :=
  (List.perm_cons x).mp ((perm_of_getElem? hi).symm.trans (h.trans (perm_of_getElem? hj)))

/-- where an entry is once an earlier or a later one is gone -/
lemma getElem?_eraseIdx_shift {xs : List α} {i j : Nat} (h : i ≠ j) :
    (xs.eraseIdx i)[if i < j then j - 1 else j]? = xs[j]? := by
  rw [List.getElem?_eraseIdx]
  by_cases hij : i < j
  · rw [if_pos hij, if_neg (by omega), Nat.sub_add_cancel (by omega)]
  · rw [if_neg hij, if_pos (by omega)]

/-- a list without its `j`-th entry still has the `i`-th one -/
lemma perm_eraseIdx_of_ne {xs : List α} {i j : Nat} {x : α} (hi : xs[i]? = some x) (hj : j < xs.length) (h : i ≠ j) :
    (xs.eraseIdx j).Perm (x :: (xs.eraseIdx i).eraseIdx (if i < j then j - 1 else j)) := by
  have hget := List.getElem?_eq_getElem hj
  have hshift := (getElem?_eraseIdx_shift h).trans hget
  have hboth : (xs[j] :: xs.eraseIdx j).Perm
      (xs[j] :: x :: (xs.eraseIdx i).eraseIdx (if i < j then j - 1 else j)) :=
    (perm_of_getElem? hget).symm.trans ((perm_of_getElem? hi).trans
      (((perm_of_getElem? hshift).cons x).trans (List.Perm.swap ..)))
  exact (List.perm_cons _).mp hboth

lemma mem_eraseIdx_of_ne {xs : List α} {i : Nat} {x y : α} (hi : xs[i]? = some x) (hy : y ∈ xs)
    (hne : y ≠ x) : y ∈ xs.eraseIdx i :=
  (List.mem_cons.mp ((perm_of_getElem? hi).mem_iff.mp hy)).resolve_left hne

end

section
variable {α β γ : Type*}

/-- related lists, one filtered and the other mapped -/
lemma forall₂_filterMap {R : α → β → Prop} {S : α → γ → Prop} {p : α → Bool} {f : β → Option γ}
    (hf : ∀ a b, R a b → (p a = false ∧ f b = none) ∨ p a = true ∧ ∃ c, f b = some c ∧ S a c) {xs : List α} {ys : List β}
    (h : List.Forall₂ R xs ys) : List.Forall₂ S (xs.filter p) (ys.filterMap f) := by
  induction h with
  | nil => exact .nil
  | cons hab _ ih =>
    rcases hf _ _ hab with ⟨hp, hb⟩ | ⟨hp, c, hb, hs⟩
    · rw [List.filter_cons_of_neg (by simp [hp]), List.filterMap_cons_none hb]
      exact ih
    · rw [List.filter_cons_of_pos hp, List.filterMap_cons_some hb]
      exact .cons hs ih

lemma forall₂_getElem? {R : α → β → Prop} {xs : List α} {ys : List β} (h : List.Forall₂ R xs ys) {i : Nat} {x : α}
    (hx : xs[i]? = some x) : ∃ y, ys[i]? = some y ∧ R x y := by
  obtain ⟨hlt, rfl⟩ := List.getElem?_eq_some_iff.mp hx
  have hlt' : i < ys.length := h.length_eq ▸ hlt
  exact ⟨ys[i], List.getElem?_eq_getElem hlt', h.get hlt hlt'⟩

lemma forall₂_modify {R : α → β → Prop} {f : α → α} {g : β → β} {xs : List α} {ys : List β} (i : Nat)
    (hfg : ∀ a b, R a b → R (f a) (g b)) (h : List.Forall₂ R xs ys) : List.Forall₂ R (xs.modify i f) (ys.modify i g) := by
  induction h generalizing i with
  | nil =>
    rw [List.modify_nil, List.modify_nil]
    exact .nil
  | cons hab hrest ih =>
    cases i with
    | zero => exact .cons (hfg _ _ hab) hrest
    | succ i => exact .cons hab (ih i)

lemma map_mapIdx (f : Nat → α → β) (g : β → γ) (xs : List α) : (xs.mapIdx f).map g = xs.mapIdx fun i x => g (f i x) := by
  apply List.ext_getElem?
  intro i
  rw [List.getElem?_map, List.getElem?_mapIdx, List.getElem?_mapIdx, Option.map_map]
  rfl

/-- the entries that `p` keeps: those before one of them, it, and those after it -/
lemma length_filter_split {p : α → Bool} {xs : List α} {i : Nat} {x : α} (hi : xs[i]? = some x) (hp : p x = true) :
    (xs.filter p).length = ((xs.take i).filter p).length + (1 + ((xs.drop (i + 1)).filter p).length) := by
  obtain ⟨hlt, rfl⟩ := List.getElem?_eq_some_iff.mp hi
  have hsplit : xs.filter p = (xs.take i).filter p ++ xs[i] :: (xs.drop (i + 1)).filter p := by
    rw [← List.filter_cons_of_pos hp, ← List.drop_eq_getElem_cons hlt, ← List.filter_append, List.take_append_drop]
  rw [hsplit, List.length_append, List.length_cons, Nat.add_comm 1]

/-- where an entry is among those that `p` keeps -/
lemma filter_take_lt {p : α → Bool} {xs : List α} {i : Nat} {x : α} (hi : xs[i]? = some x) (hp : p x = true) :
    ((xs.take i).filter p).length < (xs.filter p).length := by
  rw [length_filter_split hi hp]
  omega

end

namespace Ragged
section
variable {α β : Type*} {rows : List (List α)} {r c : Nat}

/-- the entry at row `r`, column `c` -/
def cell? (rows : List (List α)) (r c : Nat) : Option α := rows[r]?.bind (·[c]?)

lemma cell?_eq_some {a : α} : cell? rows r c = some a ↔ ∃ row, rows[r]? = some row ∧ row[c]? = some a :=
  Option.bind_eq_some_iff

lemma mem_flatten_of_cell? {a : α} (h : cell? rows r c = some a) : a ∈ rows.flatten := by
  obtain ⟨row, hr, hc⟩ := cell?_eq_some.mp h
  exact List.mem_flatten.mpr ⟨row, List.mem_of_getElem? hr, List.mem_of_getElem? hc⟩

/-- the row lengths -/
def lengths (rows : List (List α)) : List Nat := rows.map List.length

@[simp] lemma length_lengths (rows : List (List α)) : (lengths rows).length = rows.length :=
  List.length_map ..

/-- grids with the same row lengths have entries at the same places -/
lemma exists_cell {cols : List (List β)} (h : lengths rows = lengths cols) {a : α}
    (ha : cell? rows r c = some a) : ∃ b, cell? cols r c = some b := by
  obtain ⟨row, hr, hc⟩ := cell?_eq_some.mp ha
  have hlen : (lengths cols)[r]? = some row.length := by
    rw [← h, lengths, List.getElem?_map, hr]
    rfl
  rw [lengths, List.getElem?_map, Option.map_eq_some_iff] at hlen
  obtain ⟨ratios, hcols, hlen⟩ := hlen
  obtain ⟨hlt, -⟩ := List.getElem?_eq_some_iff.mp hc
  exact ⟨ratios[c], cell?_eq_some.mpr ⟨ratios, hcols, List.getElem?_eq_getElem (hlen ▸ hlt)⟩⟩

/-- the entries when one row is changed -/
lemma flatten_modify (gone extra : List α) {row : List α} {f : List α → List α} (hr : rows[r]? = some row)
    (h : (gone ++ f row).Perm (extra ++ row)) :
    (gone ++ (rows.modify r f).flatten).Perm (extra ++ rows.flatten) := by
  have h1 : (rows.modify r f).flatten.Perm (f row ++ (rows.eraseIdx r).flatten) :=
    (perm_modify hr f).flatten
  have h2 : rows.flatten.Perm (row ++ (rows.eraseIdx r).flatten) := (perm_of_getElem? hr).flatten
  have h3 : ((gone ++ f row) ++ (rows.eraseIdx r).flatten).Perm
      ((extra ++ row) ++ (rows.eraseIdx r).flatten) := h.append_right _
  rw [List.append_assoc, List.append_assoc] at h3
  exact ((h1.append_left gone).trans h3).trans (h2.symm.append_left extra)

/-- an entry put into a row -/
lemma flatten_insert {row : List α} {a : α} (hr : rows[r]? = some row) (hc : c ≤ row.length) :
    (rows.modify r (·.insertIdx c a)).flatten.Perm (a :: rows.flatten) :=
  flatten_modify [] [a] hr (List.perm_insertIdx a row hc)

/-- an entry taken out of a row -/
lemma flatten_erase {a : α} (h : cell? rows r c = some a) :
    (a :: (rows.modify r (·.eraseIdx c)).flatten).Perm rows.flatten := by
  obtain ⟨row, hr, hc⟩ := cell?_eq_some.mp h
  exact flatten_modify [a] [] hr (perm_of_getElem? hc).symm

lemma flatten_insertRow {a : α} (hr : r ≤ rows.length) :
    (rows.insertIdx r [a]).flatten.Perm (a :: rows.flatten) :=
  (List.perm_insertIdx [a] rows hr).flatten

lemma flatten_eraseRow {row : List α} (hr : rows[r]? = some row) :
    (row ++ (rows.eraseIdx r).flatten).Perm rows.flatten :=
  (perm_of_getElem? hr).symm.flatten

lemma lengths_insertIdx (rows : List (List α)) (row : List α) (r : Nat) :
    lengths (rows.insertIdx r row) = (lengths rows).insertIdx r row.length := by
  unfold lengths
  exact List.map_insertIdx ..

lemma lengths_eraseIdx (rows : List (List α)) (r : Nat) :
    lengths (rows.eraseIdx r) = (lengths rows).eraseIdx r := by
  unfold lengths
  exact (List.eraseIdx_map ..).symm

lemma lengths_set {row row' : List α} (hr : rows[r]? = some row) (h : row'.length = row.length) :
    lengths (rows.set r row') = lengths rows := by
  obtain ⟨hlt, rfl⟩ := List.getElem?_eq_some_iff.mp hr
  unfold lengths
  rw [List.map_set, h, ← List.map_set, List.set_getElem_self]

lemma lengths_modify {row : List α} {f : List α → List α} {g : Nat → Nat} (hr : rows[r]? = some row)
    (h : (f row).length = g row.length) : lengths (rows.modify r f) = (lengths rows).modify r g := by
  apply List.ext_getElem?
  intro i
  unfold lengths
  rw [List.getElem?_map, List.getElem?_modify, List.getElem?_modify, List.getElem?_map]
  by_cases hi : r = i
  · subst hi
    simp [hr, h]
  · cases rows[i]? <;> simp [hi]

end
end Ragged
