import TerminalManager.Lib.Slice

/-!
# Pictures and their row-major buffers

A picture gives the entry at each row and column, `none` outside of it.  The operations are those
that text screens are made of, over any type of entries:

* `fill`, `moveRows`, `moveCells`, `resize`, `stack`   overwrite a rectangle, move whole rows or a part
  of one row, cut or extend, put rows on top;
* `map`           the picture seen through a function; it goes past every operation (`map_fill`, …);
* `fill_row_succ`, `moveRows_up_succ`, …   one more turn of the loop that does the operation;
* `mirror`        the picture upside down;
* `cut`           some of the rows; what is above them put back on top gives the picture (`Shape.stack_cut`);
* `ofCells`       the picture of a flat buffer with `rows * cols` entries, row after row, and what
  the slice operations on the buffer do to it (`ofCells_set`, `ofCells_copyWithin`, …); rows written one by one
  (`ofCells_writes`), and the buffer from its rows (`eq_flatMap_rows`).
-/

open Slice

/-- the entries by row and column -/
abbrev Picture (α : Type*) := Nat → Nat → Option α

namespace Picture

section
variable {α β : Type*}

/-- exactly the entries of `rows` rows and `cols` columns are there -/
def Shape (rows cols : Nat) (p : Picture α) : Prop := ∀ i j, (p i j).isSome ↔ i < rows ∧ j < cols

def map (f : α → β) (p : Picture α) : Picture β := fun i j => (p i j).map f

/-- the rows `[r, r')` of the columns `[c, c')` set to `x` -/
def fill (r r' c c' : Nat) (x : α) (p : Picture α) : Picture α := fun i j =>
  if r ≤ i ∧ i < r' ∧ c ≤ j ∧ j < c' then (p i j).map fun _ => x else p i j

/-- `n` rows copied from `src` on to `dst` on -/
def moveRows (dst src n : Nat) (p : Picture α) : Picture α := fun i j =>
  if dst ≤ i ∧ i < dst + n then p (src + (i - dst)) j else p i j

/-- `n` entries of the row `r` copied from the column `src` on to the column `dst` on -/
def moveCells (r dst src n : Nat) (p : Picture α) : Picture α := fun i j =>
  if i = r ∧ dst ≤ j ∧ j < dst + n then p i (src + (j - dst)) else p i j

/-- cut or extended to `rows` rows and `cols` columns, new entries are `x` -/
def resize (rows cols : Nat) (x : α) (p : Picture α) : Picture α := fun i j =>
  if i < rows ∧ j < cols then some ((p i j).getD x) else none

/-- a row of `cols` entries, cut or extended with `x` -/
def line (cols : Nat) (x : α) (xs : List α) (j : Nat) : Option α :=
  if j < cols then some (xs[j]?.getD x) else none

/-- the rows `top` on top of the picture -/
def stack (cols : Nat) (x : α) (top : List (List α)) (p : Picture α) : Picture α := fun i j =>
  if i < top.length then line cols x (top[i]?.getD []) j else p (i - top.length) j

/-- the `n` rows from the row `k` on -/
def cut (k n : Nat) (p : Picture α) : Picture α := fun i j => if i < n then p (k + i) j else none

/-- upside down -/
def mirror (m : Nat) (p : Picture α) : Picture α := fun i j => if i < m then p (m - 1 - i) j else none

/-- the first `cols` entries of a row -/
def row (cols : Nat) (p : Picture α) (i : Nat) : List α := (List.range cols).filterMap (p i)

/-- the rows of a picture, from the top -/
def rows (n cols : Nat) (p : Picture α) : List (List α) := (List.range n).map (row cols p)

/-! ## operations seen through a function -/

variable {f : α → β} {p q : Picture α} {x y : α} {r r' c c' n dst src cols m : Nat} {i j : Nat}

@[simp] lemma map_fill : (fill r r' c c' x p).map f = fill r r' c c' (f x) (p.map f) := by
  funext i j
  simp only [map, fill]
  split
  · rw [Option.map_map, Option.map_map]
    rfl
  · rfl

@[simp] lemma map_moveRows : (moveRows dst src n p).map f = moveRows dst src n (p.map f) := by
  funext i j
  simp only [map, moveRows]
  split <;> rfl

@[simp] lemma map_moveCells : (moveCells r dst src n p).map f = moveCells r dst src n (p.map f) := by
  funext i j
  simp only [map, moveCells]
  split <;> rfl

@[simp] lemma map_resize : (resize m n x p).map f = resize m n (f x) (p.map f) := by
  funext i j
  simp only [map, resize]
  split
  · cases p i j <;> rfl
  · rfl

lemma map_line (xs : List α) : (line cols x xs j).map f = line cols (f x) (xs.map f) j := by
  simp only [line]
  split
  · rw [List.getElem?_map]
    cases xs[j]? <;> rfl
  · rfl

@[simp] lemma map_stack (top : List (List α)) :
    (stack cols x top p).map f = stack cols (f x) (top.map (List.map f)) (p.map f) := by
  funext i j
  simp only [map, stack, List.length_map]
  split
  · rw [map_line, List.getElem?_map]
    cases top[i]? <;> rfl
  · rfl

@[simp] lemma row_map : row cols (p.map f) i = (row cols p i).map f := by
  rw [row, row, List.map_filterMap]
  rfl

@[simp] lemma rows_map : rows n cols (p.map f) = (rows n cols p).map (List.map f) := by
  rw [rows, rows, List.map_map]
  exact List.map_congr_left fun i _ => row_map

/-! ## shapes -/

lemma Shape.some (h : Shape m n p) (hi : i < m) (hj : j < n) : ∃ x, p i j = some x :=
  Option.isSome_iff_exists.mp ((h i j).mpr ⟨hi, hj⟩)

lemma Shape.none (h : Shape m n p) (hij : ¬(i < m ∧ j < n)) : p i j = none :=
  Option.not_isSome_iff_eq_none.mp (mt (h i j).mp hij)

lemma Shape.map (h : Shape m n p) : Shape m n (p.map f) := fun i j => by
  rw [← h i j]
  exact Bool.eq_iff_iff.mp Option.isSome_map

lemma Shape.fill (h : Shape m n p) : Shape m n (fill r r' c c' x p) := fun i j => by
  rw [← h i j]
  simp only [Picture.fill]
  split
  · rw [Option.isSome_map]
  · rfl

lemma Shape.moveRows (h : Shape m n p) (hd : dst + c ≤ m) (hs : src + c ≤ m) :
    Shape m n (moveRows dst src c p) := fun i j => by
  simp only [Picture.moveRows]
  split
  · rw [h]
    omega
  · exact h i j

lemma Shape.moveCells (h : Shape m n p) (hd : dst + c ≤ n) (hs : src + c ≤ n) :
    Shape m n (moveCells r dst src c p) := fun i j => by
  simp only [Picture.moveCells]
  split
  · rw [h]
    omega
  · exact h i j

lemma Shape.stack {top : List (List α)} (h : Shape m n p) :
    Shape (m + top.length) n (stack n x top p) := fun i j => by
  simp only [Picture.stack, line]
  split
  · split <;> simp <;> omega
  · rw [h]
    omega

private lemma filterMap_range {g : Nat → Option α} {k : Nat} (h : ∀ j < k, (g j).isSome) :
    ((List.range k).filterMap g).length = k ∧ ∀ j < k, ((List.range k).filterMap g)[j]? = g j := by
  induction k with
  | zero => exact ⟨rfl, fun j hj => absurd hj (Nat.not_lt_zero j)⟩
  | succ k ih =>
    obtain ⟨hlen, hget⟩ := ih fun j hj => h j (by omega)
    obtain ⟨y, hy⟩ := Option.isSome_iff_exists.mp (h k (by omega))
    rw [List.range_succ, List.filterMap_append, List.filterMap_cons_some hy, List.filterMap_nil]
    refine ⟨by rw [List.length_append, hlen]; rfl, fun j hj => ?_⟩
    by_cases hjk : j < k
    · rw [List.getElem?_append_left (by omega), hget j hjk]
    · obtain rfl : j = k := by omega
      rw [List.getElem?_append_right (by omega), hlen, Nat.sub_self, hy]
      rfl

lemma Shape.length_row (h : Shape m n p) (hi : i < m) : (row n p i).length = n :=
  (filterMap_range fun j hj => (h i j).mpr ⟨hi, hj⟩).1

lemma Shape.getElem?_row (h : Shape m n p) (hi : i < m) (j : Nat) : (row n p i)[j]? = p i j := by
  by_cases hj : j < n
  · exact (filterMap_range fun j hj => (h i j).mpr ⟨hi, hj⟩).2 j hj
  · rw [List.getElem?_eq_none (by rw [h.length_row hi]; omega), h.none (by omega)]

/-- a row is what its entries are -/
lemma Shape.row_eq {xs : List α} (h : Shape m n p) (hi : i < m) (hx : ∀ j, xs[j]? = p i j) :
    xs = row n p i :=
  List.ext_getElem? fun j => by rw [hx, h.getElem?_row hi]

/-! ## stacked rows -/

/-- the rows of `top` below `d` missing ones -/
lemma stack_blank {top : List (List α)} {d : Nat} (hi : i < d) (hj : j < cols) :
    stack cols x (List.replicate d [] ++ top) p i j = some x := by
  have hlen : (List.replicate d ([] : List α)).length = d := List.length_replicate
  rw [stack, if_pos (by rw [List.length_append, hlen]; omega), line, if_pos hj,
    List.getElem?_append_left (by omega), List.getElem?_replicate, if_pos hi]
  rfl

lemma stack_top {top : List (List α)} {xs : List α} {d k : Nat} (hk : top[k]? = some xs) (hj : j < cols) :
    stack cols x (List.replicate d [] ++ top) p (d + k) j = some (xs[j]?.getD x) := by
  have hlen : (List.replicate d ([] : List α)).length = d := List.length_replicate
  have hlt := (List.getElem?_eq_some_iff.mp hk).1
  rw [stack, if_pos (by rw [List.length_append, hlen]; omega), line, if_pos hj,
    List.getElem?_append_right (by omega), hlen, Nat.add_sub_cancel_left, hk]
  rfl

lemma stack_below {top : List (List α)} : stack cols x top p (i + top.length) j = p i j := by
  rw [stack, if_neg (by omega), Nat.add_sub_cancel_right]

/-! ## rows that leave at the top -/

lemma Shape.resize_self (h : Shape m n p) : resize m n x p = p := by
  funext i j
  unfold resize
  split
  next hij =>
    obtain ⟨y, hy⟩ := h.some hij.1 hij.2
    rw [hy]
    rfl
  next hij => exact (h.none hij).symm

lemma Shape.cut {k : Nat} (h : Shape m cols p) (hn : k + n ≤ m) : Shape n cols (cut k n p) := fun i j => by
  simp only [Picture.cut]
  split
  · rw [h]
    omega
  · constructor
    · intro hi
      exact absurd hi (by simp)
    · omega

lemma Shape.cut_self (h : Shape m cols p) : Picture.cut 0 m p = p := by
  funext i j
  unfold Picture.cut
  rw [Nat.zero_add]
  split
  · rfl
  next hi => exact (h.none (by omega)).symm

/-- the rows move up by `k` and the screen is cut to `n` rows -/
lemma Shape.resize_moveRows {k : Nat} (h : Shape m cols p) (hn : k + n ≤ m) :
    Picture.resize n cols x (Picture.fill (m - k) m 0 cols y (Picture.moveRows 0 k (m - k) p)) = Picture.cut k n p := by
  funext i j
  unfold Picture.resize Picture.cut
  by_cases hi : i < n
  · by_cases hj : j < cols
    · obtain ⟨z, hz⟩ := h.some (show k + i < m by omega) hj
      rw [if_pos ⟨hi, hj⟩, if_pos hi, Picture.fill, if_neg (by omega), Picture.moveRows, if_pos (by omega),
        Nat.sub_zero, hz]
      rfl
    · rw [if_neg (by omega), if_pos hi, h.none (by omega)]
  · rw [if_neg (by omega), if_neg hi]

/-- rows that move down are rows that move up, upside down -/
lemma mirror_moveRows (hd : dst + n ≤ m) (hs : src + n ≤ m) :
    mirror m (moveRows dst src n p) = moveRows (m - (dst + n)) (m - (src + n)) n (mirror m p) := by
  funext i j
  simp only [mirror, moveRows]
  by_cases hi : i < m
  · by_cases hin : dst ≤ m - 1 - i ∧ m - 1 - i < dst + n
    · rw [if_pos hi, if_pos hin, if_pos (by omega), if_pos (by omega)]
      congr 1
      omega
    · rw [if_pos hi, if_neg hin, if_neg (by omega), if_pos hi]
  · rw [if_neg hi, if_neg (by omega), if_neg hi]

lemma mirror_fill (hr : r' ≤ m) (h : r ≤ r') :
    mirror m (fill r r' c c' x p) = fill (m - r') (m - r) c c' x (mirror m p) := by
  funext i j
  simp only [mirror, fill]
  by_cases hi : i < m
  · by_cases hin : r ≤ m - 1 - i ∧ m - 1 - i < r' ∧ c ≤ j ∧ j < c'
    · rw [if_pos hi, if_pos hin, if_pos (by omega), if_pos hi]
    · rw [if_pos hi, if_neg hin, if_neg (by omega), if_pos hi]
  · rw [if_neg hi, if_neg (α := Option α) hi]
    split <;> rfl

lemma take_rows {k : Nat} (hk : k ≤ m) : (rows m cols p).take k = rows k cols p := by
  rw [rows, ← List.map_take, List.take_range, Nat.min_eq_left hk]
  rfl

lemma rows_cut {k : Nat} (hn : k + n ≤ m) : rows n cols (cut k n p) = ((rows m cols p).drop k).take n := by
  have hrow : ∀ i < n, row cols (cut k n p) i = row cols p (k + i) := by
    intro i hi
    unfold row cut
    congr 1
    funext j
    rw [if_pos hi]
  refine List.ext_getElem? fun i => ?_
  rw [List.getElem?_take, List.getElem?_drop]
  unfold rows
  by_cases hi : i < n
  · rw [if_pos hi, List.getElem?_map, List.getElem?_map, List.getElem?_range hi,
      List.getElem?_range (show k + i < m by omega)]
    exact congrArg some (hrow i hi)
  · rw [if_neg hi, List.getElem?_eq_none]
    rw [List.length_map, List.length_range]
    omega

/-- the rows above a cut, back on top of it -/
lemma Shape.stack_cut {k : Nat} (h : Shape (k + n) cols p) :
    Picture.stack cols x (rows k cols p) (Picture.cut k n p) = p := by
  have hlen : (rows k cols p).length = k := by rw [Picture.rows, List.length_map, List.length_range]
  funext i j
  rw [Picture.stack, hlen]
  split
  next hi =>
    have hrow : (rows k cols p)[i]? = Option.some (row cols p i) := by
      rw [Picture.rows, List.getElem?_map, List.getElem?_range hi]
      rfl
    rw [hrow, line]
    split
    next hj =>
      obtain ⟨z, hz⟩ := h.some (show i < k + n by omega) hj
      rw [Option.getD_some, h.getElem?_row (by omega), hz]
      rfl
    next hj => rw [h.none (by omega)]
  next hi =>
    unfold Picture.cut
    split
    next hin =>
      congr 1
      omega
    next hin => rw [h.none (by omega)]

/-! ## loops -/

lemma fill_none_rows (h : r' ≤ r) : fill r r' c c' x p = p := by
  funext i j
  exact if_neg (by omega)

lemma fill_none_cols (h : c' ≤ c) : fill r r' c c' x p = p := by
  funext i j
  exact if_neg (by omega)

lemma fill_col_succ (h : c ≤ j) :
    fill r r' j (j + 1) x (fill r r' c j x p) = fill r r' c (j + 1) x p := by
  funext a b
  simp only [fill]
  by_cases h₁ : r ≤ a ∧ a < r' ∧ j ≤ b ∧ b < j + 1
  · rw [if_pos h₁, if_neg (by omega), if_pos (by omega)]
  by_cases h₂ : r ≤ a ∧ a < r' ∧ c ≤ b ∧ b < j
  · rw [if_neg h₁, if_pos h₂, if_pos (by omega)]
  · rw [if_neg h₁, if_neg h₂, if_neg (by omega)]

lemma fill_row_succ (h : r ≤ i) :
    fill i (i + 1) c c' x (fill r i c c' x p) = fill r (i + 1) c c' x p := by
  funext a b
  simp only [fill]
  by_cases h₁ : i ≤ a ∧ a < i + 1 ∧ c ≤ b ∧ b < c'
  · rw [if_pos h₁, if_neg (by omega), if_pos (by omega)]
  by_cases h₂ : r ≤ a ∧ a < i ∧ c ≤ b ∧ b < c'
  · rw [if_neg h₁, if_pos h₂, if_pos (by omega)]
  · rw [if_neg h₁, if_neg h₂, if_neg (by omega)]

lemma moveRows_zero : moveRows dst src 0 p = p := by
  funext i j
  exact if_neg (by omega)

lemma moveRows_self : moveRows r r n p = p := by
  funext i j
  unfold moveRows
  split
  · congr 1
    omega
  · rfl

lemma moveCells_zero : moveCells r dst src 0 p = p := by
  funext i j
  exact if_neg (by omega)

lemma moveRows_up_succ (d : Nat) (h : r ≤ i) :
    moveRows i (i + d) 1 (moveRows r (r + d) (i - r) p) = moveRows r (r + d) (i + 1 - r) p := by
  funext a b
  simp only [moveRows]
  by_cases h₁ : i ≤ a ∧ a < i + 1
  · obtain rfl : a = i := by omega
    rw [if_pos h₁, if_neg (by omega), if_pos (by omega)]
    congr 1
    omega
  by_cases h₂ : r ≤ a ∧ a < r + (i - r)
  · rw [if_neg h₁, if_pos h₂, if_pos (by omega)]
  · rw [if_neg h₁, if_neg h₂, if_neg (by omega)]

lemma moveRows_down_succ (d : Nat) (h : d ≤ i) (hr : i < r) :
    moveRows i (i - d) 1 (moveRows (i + 1) (i + 1 - d) (r - (i + 1)) p)
      = moveRows i (i - d) (r - i) p := by
  funext a b
  simp only [moveRows]
  by_cases h₁ : i ≤ a ∧ a < i + 1
  · obtain rfl : a = i := by omega
    rw [if_pos h₁, if_neg (by omega), if_pos (by omega)]
  by_cases h₂ : i + 1 ≤ a ∧ a < i + 1 + (r - (i + 1))
  · rw [if_neg h₁, if_pos h₂, if_pos (by omega)]
    congr 1
    omega
  · rw [if_neg h₁, if_neg h₂, if_neg (by omega)]

lemma moveCells_left_succ (d : Nat) (h : c ≤ j) :
    moveCells r j (j + d) 1 (moveCells r c (c + d) (j - c) p)
      = moveCells r c (c + d) (j + 1 - c) p := by
  funext a b
  simp only [moveCells]
  by_cases h₁ : a = r ∧ j ≤ b ∧ b < j + 1
  · obtain rfl : b = j := by omega
    rw [if_pos h₁, if_neg (by omega), if_pos (by omega)]
    congr 1
    omega
  by_cases h₂ : a = r ∧ c ≤ b ∧ b < c + (j - c)
  · rw [if_neg h₁, if_pos h₂, if_pos (by omega)]
  · rw [if_neg h₁, if_neg h₂, if_neg (by omega)]

lemma moveCells_right_succ (d : Nat) (h : d ≤ j) (hr : j < c) :
    moveCells r j (j - d) 1 (moveCells r (j + 1) (j + 1 - d) (c - (j + 1)) p)
      = moveCells r j (j - d) (c - j) p := by
  funext a b
  simp only [moveCells]
  by_cases h₁ : a = r ∧ j ≤ b ∧ b < j + 1
  · obtain rfl : b = j := by omega
    rw [if_pos h₁, if_neg (by omega), if_pos (by omega)]
  by_cases h₂ : a = r ∧ j + 1 ≤ b ∧ b < j + 1 + (c - (j + 1))
  · rw [if_neg h₁, if_pos h₂, if_pos (by omega)]
    congr 1
    omega
  · rw [if_neg h₁, if_neg h₂, if_neg (by omega)]

/-! ## flat buffers -/

/-- the picture of `rows * cols` entries, row after row -/
def ofCells (rows cols : Nat) (xs : List α) : Picture α := fun i j =>
  if i < rows ∧ j < cols then xs[i * cols + j]? else none

lemma index_lt_iff (hj : j < cols) : i * cols + j < n * cols ↔ i < n := by
  constructor
  · intro h
    by_contra hn
    have := Nat.mul_le_mul_right cols (Nat.le_of_not_lt hn)
    omega
  · intro h
    have := Nat.mul_le_mul_right cols (Nat.succ_le_of_lt h)
    rw [Nat.succ_mul] at this
    omega

lemma index_inj (hj : j < cols) (hc : c < cols) : i * cols + j = r * cols + c ↔ i = r ∧ j = c := by
  constructor
  · intro h
    have h₁ : i < r + 1 := (index_lt_iff hj).mp (by rw [Nat.succ_mul]; omega)
    have h₂ : r < i + 1 := (index_lt_iff hc).mp (by rw [Nat.succ_mul]; omega)
    obtain rfl : i = r := by omega
    exact ⟨rfl, by omega⟩
  · rintro ⟨rfl, rfl⟩
    rfl

lemma shape_ofCells {xs : List α} (hx : xs.length = m * n) : Shape m n (ofCells m n xs) := fun i j => by
  simp only [ofCells]
  split
  next h =>
    rw [List.getElem?_eq_getElem (by rw [hx]; exact (index_lt_iff h.2).mpr h.1)]
    simpa using h
  next h => simpa using h

/-- a buffer of the right length is what it shows -/
lemma ofCells_inj {xs ys : List α} (hx : xs.length = m * n) (hy : ys.length = m * n)
    (h : ofCells m n xs = ofCells m n ys) : xs = ys := by
  refine List.ext_getElem? fun k => ?_
  by_cases hk : k < m * n
  · have hn : 0 < n := Nat.pos_of_ne_zero fun h₀ => by
      subst h₀
      exact Nat.not_lt_zero k hk
    have hrow : k / n < m := Nat.div_lt_of_lt_mul (by rwa [Nat.mul_comm])
    have hentry : ∀ zs : List α, ofCells m n zs (k / n) (k % n) = zs[k]? := fun zs => by
      rw [ofCells, if_pos ⟨hrow, Nat.mod_lt k hn⟩, Nat.mul_comm, Nat.div_add_mod]
    rw [← hentry xs, ← hentry ys, h]
  · rw [List.getElem?_eq_none (by omega), List.getElem?_eq_none (by omega)]

lemma ofCells_replicate : ofCells m n (List.replicate (m * n) x) = resize m n x (fun _ _ => none) := by
  funext i j
  simp only [ofCells, resize]
  split
  next h => rw [List.getElem?_replicate, if_pos ((index_lt_iff h.2).mpr h.1)]; rfl
  next => rfl

lemma ofCells_set {xs : List α} (hx : xs.length = m * n) (hr : r < m) (hc : c < n) :
    ofCells m n (xs.set (r * n + c) x) = fill r (r + 1) c (c + 1) x (ofCells m n xs) := by
  funext i j
  simp only [ofCells, fill]
  by_cases h : i < m ∧ j < n
  · rw [if_pos h, if_pos h, List.getElem?_set]
    by_cases heq : i = r ∧ j = c
    · obtain ⟨rfl, rfl⟩ := heq
      have hlt : i * n + j < xs.length := by rw [hx]; exact (index_lt_iff hc).mpr hr
      rw [if_pos rfl, if_pos hlt, if_pos (by omega), List.getElem?_eq_getElem hlt]
      rfl
    · rw [if_neg fun he => heq ((index_inj h.2 hc).mp he.symm), if_neg (by omega)]
  · rw [if_neg h, if_neg h]
    split <;> rfl

/-- moving whole rows inside the buffer -/
lemma ofCells_copyWithin {xs : List α} (src dst c : Nat) (hx : xs.length = m * n) (hs : src + c ≤ m) (hd : dst + c ≤ m) :
    (copyWithin xs (src * n) (src * n + c * n) (dst * n)).length = m * n ∧
      ofCells m n (copyWithin xs (src * n) (src * n + c * n) (dst * n))
        = moveRows dst src c (ofCells m n xs) := by
  have hb : src * n + c * n ≤ xs.length := by
    rw [hx, ← Nat.add_mul]
    exact Nat.mul_le_mul_right n hs
  have hk : dst * n + (src * n + c * n - src * n) ≤ xs.length := by
    rw [hx, Nat.add_sub_cancel_left, ← Nat.add_mul]
    exact Nat.mul_le_mul_right n hd
  refine ⟨by rw [length_copyWithin hb hk, hx], ?_⟩
  funext i j
  simp only [ofCells, moveRows]
  by_cases h : i < m ∧ j < n
  · rw [if_pos h, getElem?_copyWithin (by omega) hb hk, Nat.add_sub_cancel_left, ← Nat.add_mul]
    by_cases hi : dst ≤ i ∧ i < dst + c
    · have h₁ : dst * n ≤ i * n + j := Nat.le_add_right_of_le (Nat.mul_le_mul_right n hi.1)
      rw [if_pos ⟨h₁, (index_lt_iff h.2).mpr hi.2⟩, if_pos hi, if_pos (by omega)]
      congr 1
      rw [Nat.add_mul, Nat.sub_mul]
      have := Nat.mul_le_mul_right n hi.1
      omega
    · rw [if_neg, if_neg hi, if_pos h]
      intro hc
      have h₁ : ¬ i < dst := fun hlt => by
        have := (index_lt_iff h.2).mpr hlt
        omega
      exact hi ⟨by omega, (index_lt_iff h.2).mp hc.2⟩
  · rw [if_neg h]
    split
    · rw [if_neg (by omega)]
    · rfl

lemma ofCells_fillFrom {xs : List α} (hx : xs.length = m * n) (hr : r ≤ m) :
    ofCells m n (fillFrom xs (r * n) x) = fill r m 0 n x (ofCells m n xs) := by
  funext i j
  simp only [ofCells, fill]
  by_cases h : i < m ∧ j < n
  · have hle : r * n ≤ xs.length := by
      rw [hx]
      exact Nat.mul_le_mul_right n hr
    rw [if_pos h, if_pos h, getElem?_fillFrom hle]
    by_cases hi : r ≤ i
    · rw [if_pos (Nat.le_add_right_of_le (Nat.mul_le_mul_right n hi)), if_pos (by omega)]
    · rw [if_neg, if_neg (by omega)]
      have : i * n + j < r * n := (index_lt_iff h.2).mpr (by omega)
      omega
  · rw [if_neg h, if_neg h]
    split <;> rfl

/-- overwriting the front of one row of the buffer -/
lemma ofCells_overwrite {xs : List α} (ys : List α) (hx : xs.length = m * n) (hr : r < m) (hy : ys.length ≤ n) :
    (overwrite xs (r * n) ys).length = m * n ∧ ofCells m n (overwrite xs (r * n) ys) =
      fun i j => if i = r ∧ j < ys.length then ys[j]? else ofCells m n xs i j := by
  have hfit : r * n + ys.length ≤ xs.length := by
    have := Nat.mul_le_mul_right n (Nat.succ_le_of_lt hr)
    rw [Nat.succ_mul] at this
    omega
  refine ⟨by rw [length_overwrite hfit, hx], ?_⟩
  funext i j
  simp only [ofCells]
  by_cases h : i < m ∧ j < n
  · rw [if_pos h, getElem?_overwrite hfit]
    by_cases hi : i = r ∧ j < ys.length
    · obtain ⟨rfl, hj⟩ := hi
      rw [if_pos (by omega), if_pos ⟨rfl, hj⟩]
      congr 1
      omega
    · rw [if_neg, if_neg hi, if_pos h]
      rintro ⟨h₁, h₂⟩
      have h₃ : i < r + 1 := (index_lt_iff h.2).mp (by rw [Nat.succ_mul]; omega)
      have h₄ : ¬ i < r := fun hlt => by
        have := (index_lt_iff h.2).mpr hlt
        omega
      obtain rfl : i = r := by omega
      exact hi ⟨rfl, by omega⟩
  · rw [if_neg h, if_neg (by omega), if_neg h]

/-- one row in front of the buffer -/
lemma ofCells_cons {xs ys zs : List α} (hy : ∀ j < n, ys[j]? = line n x zs j) (hlen : ys.length = n) :
    ofCells (m + 1) n (ys ++ xs) = stack n x [zs] (ofCells m n xs) := by
  funext i j
  rw [ofCells, stack, List.length_singleton]
  by_cases hi : i < 1
  · obtain rfl : i = 0 := by omega
    rw [if_pos hi, Nat.zero_mul, Nat.zero_add]
    by_cases hj : j < n
    · rw [if_pos (by omega), List.getElem?_append_left (by omega), hy j hj]
      rfl
    · rw [if_neg (by omega), line, if_neg hj]
  · rw [if_neg hi, ofCells]
    by_cases hij : i - 1 < m ∧ j < n
    · have hrow : i * n + j = n + ((i - 1) * n + j) := by
        obtain ⟨k, rfl⟩ : ∃ k, i = k + 1 := ⟨i - 1, by omega⟩
        rw [Nat.add_sub_cancel, Nat.succ_mul]
        omega
      rw [if_pos (by omega), if_pos hij, hrow, List.getElem?_append_right (by omega), hlen, Nat.add_sub_cancel_left]
    · rw [if_neg (by omega), if_neg hij]

/-- one row of the buffer -/
lemma range_row {xs : List α} (hx : xs.length = m * n) (hr : r < m) :
    r * n + n ≤ xs.length ∧ range xs (r * n) (r * n + n) = row n (ofCells m n xs) r := by
  have hle : r * n + n ≤ xs.length := by
    rw [hx, ← Nat.succ_mul]
    exact Nat.mul_le_mul_right n hr
  refine ⟨hle, (shape_ofCells hx).row_eq hr fun j => ?_⟩
  rw [getElem?_range]
  simp only [ofCells]
  by_cases hj : j < n
  · rw [if_pos (by omega), if_pos ⟨hr, hj⟩]
  · rw [if_neg (by omega), if_neg (by omega)]

/-- whole rows written into the buffer, one after the other -/
lemma ofCells_writes {xs : List α} (rs : List Nat) (f : Nat → List α) (hx : xs.length = m * n)
    (h : ∀ r ∈ rs, r < m ∧ (f r).length = n) :
    (rs.foldl (fun ys r => overwrite ys (r * n) (f r)) xs).length = m * n ∧
      ofCells m n (rs.foldl (fun ys r => overwrite ys (r * n) (f r)) xs) =
        fun i j => if i ∈ rs then (f i)[j]? else ofCells m n xs i j := by
  induction rs generalizing xs with
  | nil => exact ⟨hx, by simp⟩
  | cons r rs ih =>
    obtain ⟨⟨hr, hlen⟩, hrest⟩ := List.forall_mem_cons.mp h
    obtain ⟨hlength, hwritten⟩ := ofCells_overwrite (f r) hx hr (Nat.le_of_eq hlen)
    obtain ⟨hlength', hwritten'⟩ := ih hlength hrest
    refine ⟨hlength', ?_⟩
    rw [List.foldl_cons, hwritten', hwritten, hlen]
    funext i j
    by_cases hi : i ∈ rs
    · simp [hi]
    · by_cases hir : i = r
      · subst hir
        simp only [hi, if_false, List.mem_cons, true_or, if_true, true_and]
        split
        · rfl
        next hj => rw [List.getElem?_eq_none (by omega), ofCells, if_neg (by omega)]
      · simp [hi, hir]

/-- a buffer is its rows -/
lemma eq_flatMap_rows {xs : List α} {f : Nat → List α} (hx : xs.length = m * n)
    (h : ∀ r < m, ∀ j, (f r)[j]? = ofCells m n xs r j) : xs = (List.range m).flatMap f := by
  have hrow : ∀ r < m, range xs (r * n) (r * n + n) = f r := by
    intro r hr
    rw [(range_row hx hr).2]
    exact ((shape_ofCells hx).row_eq hr (h r hr)).symm
  have htake : ∀ k ≤ m, xs.take (k * n) = (List.range k).flatMap f := by
    intro k hk
    induction k with
    | zero => simp
    | succ k ih =>
      have hle : k * n + n ≤ xs.length := (range_row hx hk).1
      rw [List.range_succ, List.flatMap_append, ← ih (by omega), List.flatMap_singleton, ← hrow k hk, range, Nat.succ_mul]
      conv_lhs => rw [← List.take_append_drop (k * n) (xs.take (k * n + n)), List.take_take, Nat.min_eq_left (Nat.le_add_right _ _)]
  rw [← htake m (Nat.le_refl m), ← hx, List.take_length]

end
end Picture
