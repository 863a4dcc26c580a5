import Mathlib.Data.List.Perm.Basic
import TerminalManager.DiffReview.Patch

/-!
# No line is lost side by side

What the rows of `align` show of a patch.  A cell has room for one note, and `align` puts a second note after
the same line over the first.

* `Row.indices`        the lines of the patch that a row shows;
* `InOrder`            the lines are on their own side and in their order;
* `overwritten`        the notes that another note takes the place of;
* `alignFrom_inOrder`, `alignFrom_perm`   both, from any line on;
* `align_losesNoLine`  every line is shown once when no two notes follow a changed line, and only then.
-/

namespace TerminalManager.DiffReview.Split

/-- every cell of a column, from the rows that are padded to the longer one -/
lemma range_filterMap_getElem? {α : Type*} (xs : List α) {n : Nat} (h : xs.length ≤ n) :
    (List.range n).filterMap (xs[·]?) = xs := by
  induction xs generalizing n with
  | nil =>
    rw [List.filterMap_eq_nil_iff]
    intro i _
    exact List.getElem?_nil
  | cons x xs ih =>
    obtain ⟨n, rfl⟩ := Nat.exists_eq_succ_of_ne_zero (show n ≠ 0 by rw [List.length_cons] at h; omega)
    rw [List.range_succ_eq_map, List.filterMap_cons_some (List.getElem?_cons_zero), List.filterMap_map]
    exact congrArg (x :: ·) (ih (Nat.le_of_succ_le_succ h))

/-! ## what a row shows -/

def Cell.indices (c : Cell) : List Nat := c.line :: c.note.toList

def Row.old : Row → Option Cell
  | .shared _ => none
  | .pair old _ => old

def Row.new : Row → Option Cell
  | .shared _ => none
  | .pair _ new => new

/-- the lines of the patch that a row shows -/
def Row.indices : Row → List Nat
  | .shared line => [line]
  | .pair old new => old.toList.flatMap Cell.indices ++ new.toList.flatMap Cell.indices

def Row.isShared : Row → Bool
  | .shared _ => true
  | .pair _ _ => false

def indices (rows : List Row) : List Nat := rows.flatMap Row.indices

/-- where one of two rows is shared, the first one shows earlier lines -/
def Row.Ordered (r r' : Row) : Prop :=
  (r.isShared || r'.isShared) = true → ∀ i ∈ r.indices, ∀ j ∈ r'.indices, i < j

/-- the kind of a line of the patch -/
def kindAt (all : List PatchLine) (index : Nat) : Option LineKind := (all[index]?).map PatchLine.kind

/-- the rows show lines from `lo` on, each side its own and in order, and no row is empty -/
structure InOrder (all : List PatchLine) (lo : Nat) (rows : List Row) : Prop where
  old : ∀ c ∈ rows.filterMap Row.old, kindAt all c.line = some .removed
  new : ∀ c ∈ rows.filterMap Row.new, kindAt all c.line = some .added
  oldSorted : ((rows.filterMap Row.old).map Cell.line).Pairwise (· < ·)
  newSorted : ((rows.filterMap Row.new).map Cell.line).Pairwise (· < ·)
  filled : Row.pair none none ∉ rows
  ordered : rows.Pairwise Row.Ordered
  ge : ∀ i ∈ indices rows, lo ≤ i

/-- the rows of a patch show every line of it once, each where it belongs -/
structure LosesNoLine (lines : List PatchLine) (rows : List Row) : Prop extends InOrder lines 0 rows where
  once : (indices rows).Perm (List.range lines.length)

section
variable {all lines : List PatchLine} {rows rest : List Row} {cells : List Cell} {b b' : Block} {line : PatchLine}
  {lo mid index : Nat}

@[simp] lemma indices_append (rows rest : List Row) : indices (rows ++ rest) = indices rows ++ indices rest :=
  List.flatMap_append

@[simp] lemma indices_shared (index : Nat) (rest : List Row) : indices (.shared index :: rest) = index :: indices rest :=
  rfl

lemma old_index {c : Cell} (h : c ∈ rows.filterMap Row.old) : c.line ∈ indices rows := by
  obtain ⟨r, hr, hold⟩ := List.mem_filterMap.mp h
  cases r with
  | shared _ => cases hold
  | pair old new =>
    obtain rfl : old = some c := hold
    exact List.mem_flatMap.mpr ⟨_, hr, List.mem_append_left _ List.mem_cons_self⟩

lemma new_index {c : Cell} (h : c ∈ rows.filterMap Row.new) : c.line ∈ indices rows := by
  obtain ⟨r, hr, hnew⟩ := List.mem_filterMap.mp h
  cases r with
  | shared _ => cases hnew
  | pair old new =>
    obtain rfl : new = some c := hnew
    exact List.mem_flatMap.mpr ⟨_, hr, List.mem_append_right _ (List.mem_append_left _ List.mem_cons_self)⟩

lemma inOrder_nil (all : List PatchLine) (lo : Nat) : InOrder all lo [] where
  old _ h := absurd h List.not_mem_nil
  new _ h := absurd h List.not_mem_nil
  oldSorted := .nil
  newSorted := .nil
  filled := List.not_mem_nil
  ordered := .nil
  ge _ h := absurd h List.not_mem_nil

lemma inOrder_shared (all : List PatchLine) (index : Nat) : InOrder all index [.shared index] where
  old _ h := absurd h List.not_mem_nil
  new _ h := absurd h List.not_mem_nil
  oldSorted := .nil
  newSorted := .nil
  filled h := nomatch List.mem_singleton.mp h
  ordered := List.pairwise_singleton _ _
  ge i h := by
    rw [List.mem_singleton.mp h]

/-- rows that show later lines may follow -/
lemma InOrder.append (h : InOrder all lo rows) (hlt : ∀ i ∈ indices rows, i < mid) (hle : lo ≤ mid)
    (hrest : InOrder all mid rest) : InOrder all lo (rows ++ rest) where
  old c hc := by
    rw [List.filterMap_append] at hc
    exact (List.mem_append.mp hc).elim (h.old c) (hrest.old c)
  new c hc := by
    rw [List.filterMap_append] at hc
    exact (List.mem_append.mp hc).elim (h.new c) (hrest.new c)
  oldSorted := by
    rw [List.filterMap_append, List.map_append, List.pairwise_append]
    refine ⟨h.oldSorted, hrest.oldSorted, ?_⟩
    intro i hi j hj
    obtain ⟨c, hc, rfl⟩ := List.mem_map.mp hi
    obtain ⟨d, hd, rfl⟩ := List.mem_map.mp hj
    exact Nat.lt_of_lt_of_le (hlt _ (old_index hc)) (hrest.ge _ (old_index hd))
  newSorted := by
    rw [List.filterMap_append, List.map_append, List.pairwise_append]
    refine ⟨h.newSorted, hrest.newSorted, ?_⟩
    intro i hi j hj
    obtain ⟨c, hc, rfl⟩ := List.mem_map.mp hi
    obtain ⟨d, hd, rfl⟩ := List.mem_map.mp hj
    exact Nat.lt_of_lt_of_le (hlt _ (new_index hc)) (hrest.ge _ (new_index hd))
  filled hmem := (List.mem_append.mp hmem).elim h.filled hrest.filled
  ordered := by
    rw [List.pairwise_append]
    refine ⟨h.ordered, hrest.ordered, ?_⟩
    intro r hr r' hr' _ i hi j hj
    have hi' : i < mid := hlt i (List.mem_flatMap.mpr ⟨r, hr, hi⟩)
    have hj' : mid ≤ j := hrest.ge j (List.mem_flatMap.mpr ⟨r', hr', hj⟩)
    omega
  ge i hi := by
    rw [indices_append, List.mem_append] at hi
    rcases hi with hi | hi
    · exact h.ge i hi
    · exact Nat.le_trans hle (hrest.ge i hi)

/-! ## blocks -/

namespace Block

/-- the side of the last changed line -/
def current (b : Block) : List Cell := if b.oldSide then b.old else b.new

/-- the note of the last changed line -/
def lastNote (b : Block) : Option Nat := b.current.getLast?.bind Cell.note

def indices (b : Block) : List Nat := b.old.flatMap Cell.indices ++ b.new.flatMap Cell.indices

lemma rows_old (b : Block) : b.rows.filterMap Row.old = b.old := by
  rw [rows, List.filterMap_map]
  exact range_filterMap_getElem? b.old (Nat.le_max_left _ _)

lemma rows_new (b : Block) : b.rows.filterMap Row.new = b.new := by
  rw [rows, List.filterMap_map]
  exact range_filterMap_getElem? b.new (Nat.le_max_right _ _)

lemma flatMap_column (cells : List Cell) {n : Nat} (h : cells.length ≤ n) :
    ((List.range n).flatMap fun i => (cells[i]?).toList.flatMap Cell.indices) = cells.flatMap Cell.indices := by
  conv_rhs => rw [← range_filterMap_getElem? cells h, List.filterMap_eq_flatMap_toList, List.flatMap_assoc]

/-- the rows of a block show what is in its cells -/
lemma rows_indices (b : Block) : (Split.indices b.rows).Perm b.indices := by
  have h := List.flatMap_append_perm (List.range (max b.old.length b.new.length))
    (fun i => (b.old[i]?).toList.flatMap Cell.indices) (fun i => (b.new[i]?).toList.flatMap Cell.indices)
  rw [flatMap_column b.old (Nat.le_max_left _ _), flatMap_column b.new (Nat.le_max_right _ _)] at h
  rw [Split.indices, rows, List.flatMap_map]
  exact h.symm

/-- what is known of a block before the line `index` -/
structure Inv (all : List PatchLine) (lo index : Nat) (b : Block) : Prop where
  old : ∀ i ∈ b.old.map Cell.line, kindAt all i = some .removed
  new : ∀ i ∈ b.new.map Cell.line, kindAt all i = some .added
  oldSorted : (b.old.map Cell.line).Pairwise (· < ·)
  newSorted : (b.new.map Cell.line).Pairwise (· < ·)
  bounds : ∀ i ∈ b.indices, lo ≤ i ∧ i < index

def empty : Block := ⟨[], [], true⟩

lemma empty_inv (all : List PatchLine) (lo index : Nat) : empty.Inv all lo index where
  old _ h := absurd h List.not_mem_nil
  new _ h := absurd h List.not_mem_nil
  oldSorted := .nil
  newSorted := .nil
  bounds _ h := absurd h List.not_mem_nil

lemma Inv.inOrder (h : b.Inv all lo index) : InOrder all lo b.rows where
  old c hc := by
    rw [rows_old] at hc
    exact h.old _ (List.mem_map_of_mem hc)
  new c hc := by
    rw [rows_new] at hc
    exact h.new _ (List.mem_map_of_mem hc)
  oldSorted := by rw [rows_old]; exact h.oldSorted
  newSorted := by rw [rows_new]; exact h.newSorted
  filled hmem := by
    obtain ⟨i, hi, hrow⟩ := List.mem_map.mp hmem
    injection hrow with hold hnew
    rw [List.getElem?_eq_none_iff] at hold hnew
    rw [List.mem_range] at hi
    omega
  ordered := by
    rw [rows, List.pairwise_map]
    exact List.pairwise_of_forall fun _ _ hshared => nomatch hshared
  ge i hi := (h.bounds i (b.rows_indices.mem_iff.mp hi)).1

/-! ### one more line -/

def isChanged (line : PatchLine) : Bool := line.kind = .removed || line.kind = .added

def isNote (line : PatchLine) : Bool := line.kind = .metaLine && Diff.startsWith ['\\', ' '] line.text

/-- the block with one more changed line -/
def change (b : Block) (index : Nat) (line : PatchLine) : Block := b.push (line.kind = .removed) ⟨index, none⟩

/-- the block with one more note -/
def note (b : Block) (index : Nat) : Block :=
  if b.oldSide then { b with old := noteLast b.old index } else { b with new := noteLast b.new index }

lemma add_eq (b : Block) (index : Nat) (line : PatchLine) :
    b.add index line =
      if isChanged line then some (b.change index line) else if isNote line then some (b.note index) else none := by
  unfold add isChanged isNote change note
  cases line.kind <;> simp

lemma change_lastNote (b : Block) (index : Nat) (line : PatchLine) :
    (b.change index line).lastNote = none ∧ (b.change index line).current ≠ [] := by
  unfold change
  cases decide (line.kind = .removed) <;> simp [push, lastNote, current]

lemma change_indices (b : Block) (index : Nat) (line : PatchLine) :
    (b.change index line).indices.Perm (b.indices ++ [index]) := by
  unfold change
  cases decide (line.kind = .removed) with
  | true =>
    simp only [push, if_true, indices, List.flatMap_append, List.append_assoc]
    exact List.Perm.append_left _ List.perm_append_comm
  | false =>
    simp only [push, Bool.false_eq_true, if_false, indices, List.flatMap_append, List.append_assoc]
    exact List.Perm.refl _

/-- a note takes the place of the one that the last cell had -/
lemma noteLast_indices (hne : cells ≠ []) (index : Nat) :
    ((noteLast cells index).flatMap Cell.indices ++ (cells.getLast?.bind Cell.note).toList).Perm
      (cells.flatMap Cell.indices ++ [index]) ∧
    (noteLast cells index).getLast?.bind Cell.note = some index ∧
    (noteLast cells index).map Cell.line = cells.map Cell.line := by
  rcases List.eq_nil_or_concat cells with rfl | ⟨cells, c, rfl⟩
  · exact absurd rfl hne
  have hnote : noteLast (cells ++ [c]) index = cells ++ [{ c with note := some index }] := by
    rw [noteLast, List.length_append, List.length_singleton, Nat.add_sub_cancel,
      List.modify_eq_take_cons_drop (by rw [List.length_append, List.length_singleton]; omega)]
    simp
  rw [List.concat_eq_append, hnote]
  simp only [List.getLast?_concat, Option.bind_some, List.flatMap_append, List.flatMap_singleton, Cell.indices,
    List.map_append, List.append_assoc, true_and]
  refine ⟨List.Perm.append_left _ ?_, rfl⟩
  have hswap : ([index] ++ c.note.toList).Perm (c.note.toList ++ [index]) := List.perm_append_comm
  exact hswap.cons c.line

lemma note_lines (b : Block) (hne : b.current ≠ []) (index : Nat) :
    (b.note index).old.map Cell.line = b.old.map Cell.line ∧ (b.note index).new.map Cell.line = b.new.map Cell.line := by
  unfold note current at *
  cases hside : b.oldSide with
  | true =>
    rw [hside, if_pos rfl] at hne
    rw [if_pos rfl]
    exact ⟨(noteLast_indices hne index).2.2, rfl⟩
  | false =>
    rw [hside, if_neg Bool.false_ne_true] at hne
    rw [if_neg Bool.false_ne_true]
    exact ⟨rfl, (noteLast_indices hne index).2.2⟩

lemma note_lastNote (b : Block) (hne : b.current ≠ []) (index : Nat) :
    (b.note index).lastNote = some index ∧ (b.note index).current ≠ [] := by
  have hnote : (b.note index).current = noteLast b.current index := by
    unfold note current
    cases hside : b.oldSide <;> simp
  have hlast := (noteLast_indices hne index).2.1
  rw [lastNote, hnote]
  refine ⟨hlast, ?_⟩
  intro hnil
  rw [hnil] at hlast
  cases hlast

lemma note_indices (b : Block) (hne : b.current ≠ []) (index : Nat) :
    ((b.note index).indices ++ b.lastNote.toList).Perm (b.indices ++ [index]) := by
  unfold note lastNote current indices at *
  cases hside : b.oldSide with
  | true =>
    rw [hside, if_pos rfl] at hne
    simp only [if_true]
    have h := (noteLast_indices hne index).1
    calc ((noteLast b.old index).flatMap Cell.indices ++ b.new.flatMap Cell.indices) ++ _
        |>.Perm ((noteLast b.old index).flatMap Cell.indices ++ _ ++ b.new.flatMap Cell.indices) := by
          rw [List.append_assoc, List.append_assoc]
          exact List.Perm.append_left _ List.perm_append_comm
      _ |>.Perm (b.old.flatMap Cell.indices ++ [index] ++ b.new.flatMap Cell.indices) := h.append_right _
      _ |>.Perm (b.old.flatMap Cell.indices ++ b.new.flatMap Cell.indices ++ [index]) := by
          rw [List.append_assoc, List.append_assoc]
          exact List.Perm.append_left _ List.perm_append_comm
  | false =>
    rw [hside, if_neg Bool.false_ne_true] at hne
    simp only [Bool.false_eq_true, if_false]
    rw [List.append_assoc, List.append_assoc]
    exact List.Perm.append_left _ (noteLast_indices hne index).1

lemma Inv.old_lt (h : b.Inv all lo index) : ∀ i ∈ b.old.map Cell.line, i < index := by
  intro i hi
  obtain ⟨c, hc, rfl⟩ := List.mem_map.mp hi
  exact (h.bounds _ (List.mem_append_left _ (List.mem_flatMap.mpr ⟨c, hc, List.mem_cons_self⟩))).2

lemma Inv.new_lt (h : b.Inv all lo index) : ∀ i ∈ b.new.map Cell.line, i < index := by
  intro i hi
  obtain ⟨c, hc, rfl⟩ := List.mem_map.mp hi
  exact (h.bounds _ (List.mem_append_right _ (List.mem_flatMap.mpr ⟨c, hc, List.mem_cons_self⟩))).2

/-- **Step lemma**: a changed line keeps the order. -/
theorem Inv.change (h : b.Inv all lo index) (hlo : lo ≤ index) (hline : all[index]? = some line)
    (hchanged : isChanged line = true) : (b.change index line).Inv all lo (index + 1) := by
  have hbounds : ∀ i ∈ (b.change index line).indices, lo ≤ i ∧ i < index + 1 := by
    intro i hi
    rcases List.mem_append.mp ((b.change_indices index line).mem_iff.mp hi) with hi | hi
    · have := h.bounds i hi
      omega
    · rw [List.mem_singleton.mp hi]
      omega
  have hkind : kindAt all index = some line.kind := by rw [kindAt, hline, Option.map_some]
  rcases hside : line.kind with _ | _ | _ | _ | _
  case hunk | context | metaLine =>
    rw [isChanged, hside] at hchanged
    cases hchanged
  case removed =>
    have heq : b.change index line = { b with old := b.old ++ [⟨index, none⟩], oldSide := true } := by
      unfold Block.change
      rw [hside]
      rfl
    rw [heq] at hbounds ⊢
    refine ⟨?_, h.new, ?_, h.newSorted, hbounds⟩
    · rw [List.map_append, List.forall_mem_append]
      exact ⟨h.old, List.forall_mem_singleton.mpr (hkind.trans (congrArg some hside))⟩
    · rw [List.map_append, List.pairwise_append]
      refine ⟨h.oldSorted, List.pairwise_singleton _ _, ?_⟩
      intro i hi j hj
      rw [List.mem_singleton.mp hj]
      exact h.old_lt i hi
  case added =>
    have heq : b.change index line = { b with new := b.new ++ [⟨index, none⟩], oldSide := false } := by
      unfold Block.change
      rw [hside]
      rfl
    rw [heq] at hbounds ⊢
    refine ⟨h.old, ?_, h.oldSorted, ?_, hbounds⟩
    · rw [List.map_append, List.forall_mem_append]
      exact ⟨h.new, List.forall_mem_singleton.mpr (hkind.trans (congrArg some hside))⟩
    · rw [List.map_append, List.pairwise_append]
      refine ⟨h.newSorted, List.pairwise_singleton _ _, ?_⟩
      intro i hi j hj
      rw [List.mem_singleton.mp hj]
      exact h.new_lt i hi

/-- **Step lemma**: so does a note. -/
theorem Inv.note (h : b.Inv all lo index) (hlo : lo ≤ index) (hne : b.current ≠ []) :
    (b.note index).Inv all lo (index + 1) := by
  obtain ⟨hold, hnew⟩ := b.note_lines hne index
  refine ⟨?_, ?_, ?_, ?_, ?_⟩
  · rw [hold]
    exact h.old
  · rw [hnew]
    exact h.new
  · rw [hold]
    exact h.oldSorted
  · rw [hnew]
    exact h.newSorted
  · intro i hi
    rcases List.mem_append.mp ((b.note_indices hne index).mem_iff.mp (List.mem_append_left _ hi)) with hi | hi
    · have := h.bounds i hi
      omega
    · rw [List.mem_singleton.mp hi]
      omega

end Block

/-! ## all the rows -/

open Block (isChanged isNote)

lemma alignFrom_nil (index : Nat) (open' : Option Block) : alignFrom index open' [] = (open'.getD .empty).rows := by
  cases open' <;> rfl

/-- a changed line goes to the open block, or opens one -/
lemma alignFrom_changed (index : Nat) (open' : Option Block) (lines : List PatchLine) (h : isChanged line = true) :
    alignFrom index open' (line :: lines) =
      alignFrom (index + 1) (some ((open'.getD .empty).change index line)) lines := by
  cases open' with
  | none =>
    have hkind : line.kind = .removed ∨ line.kind = .added := by
      rw [isChanged, Bool.or_eq_true, decide_eq_true_eq, decide_eq_true_eq] at h
      exact h
    rw [alignFrom, if_pos hkind, show (⟨[], [], true⟩ : Block) = .empty from rfl, Block.add_eq, if_pos h]
    rfl
  | some b =>
    rw [alignFrom, Block.add_eq, if_pos h]
    rfl

lemma alignFrom_note (index : Nat) (b : Block) (lines : List PatchLine) (h : isChanged line = false)
    (hnote : isNote line = true) :
    alignFrom index (some b) (line :: lines) = alignFrom (index + 1) (some (b.note index)) lines := by
  rw [alignFrom, Block.add_eq, if_neg (by rw [h]; exact Bool.false_ne_true), if_pos hnote]

/-- any other line ends the block -/
lemma alignFrom_shared (index : Nat) (open' : Option Block) (lines : List PatchLine) (h : isChanged line = false)
    (hnote : open' = none ∨ isNote line = false) :
    alignFrom index open' (line :: lines) =
      (open'.getD .empty).rows ++ .shared index :: alignFrom (index + 1) none lines := by
  cases open' with
  | none =>
    have hkind : ¬ (line.kind = .removed ∨ line.kind = .added) := by
      rw [isChanged, Bool.or_eq_false_iff, decide_eq_false_iff_not, decide_eq_false_iff_not] at h
      exact not_or.mpr h
    rw [alignFrom, if_neg hkind]
    rfl
  | some b =>
    have hnote' : isNote line = false := hnote.resolve_left (Option.some_ne_none b)
    rw [alignFrom, Block.add_eq, if_neg (by rw [h]; exact Bool.false_ne_true),
      if_neg (by rw [hnote']; exact Bool.false_ne_true)]
    rfl

/-- **Run lemma**: the rows are in order, whatever the lines are. -/
theorem alignFrom_inOrder {done : List PatchLine} {open' : Option Block} (hall : all = done ++ lines)
    (hindex : done.length = index) (hinv : (open'.getD .empty).Inv all lo index) (hlo : lo ≤ index)
    (hopen : ∀ b ∈ open', b.current ≠ []) : InOrder all lo (alignFrom index open' lines) := by
  induction lines generalizing done index open' lo with
  | nil =>
    rw [alignFrom_nil]
    exact hinv.inOrder
  | cons line lines ih =>
    have hline : all[index]? = some line := by rw [hall, ← hindex, List.getElem?_append_right (Nat.le_refl _)]; simp
    have hall' : all = (done ++ [line]) ++ lines := by rw [hall, List.append_assoc]; rfl
    have hindex' : (done ++ [line]).length = index + 1 := by rw [List.length_append, hindex]; rfl
    by_cases hchanged : isChanged line = true
    · rw [alignFrom_changed index open' lines hchanged]
      refine ih hall' hindex' (hinv.change hlo hline hchanged) (Nat.le_succ_of_le hlo) ?_
      rintro b ⟨⟩
      exact (Block.change_lastNote _ index line).2
    rw [Bool.not_eq_true] at hchanged
    by_cases hnote : open' = none ∨ isNote line = false
    · rw [alignFrom_shared index open' lines hchanged hnote]
      have hrest : InOrder all (index + 1) (alignFrom (index + 1) none lines) :=
        ih hall' hindex' (Block.empty_inv all _ _) (Nat.le_refl _) (fun _ h => nomatch h)
      have hshared := (inOrder_shared all index).append
        (fun i hi => by rw [List.mem_singleton.mp hi]; exact Nat.lt_succ_self _) (Nat.le_succ _) hrest
      refine hinv.inOrder.append ?_ hlo hshared
      intro i hi
      exact (hinv.bounds i ((Block.rows_indices _).mem_iff.mp hi)).2
    · obtain ⟨hsome, hbody⟩ := not_or.mp hnote
      obtain ⟨b, rfl⟩ := Option.ne_none_iff_exists'.mp hsome
      rw [Bool.not_eq_false] at hbody
      have hcurrent := hopen b rfl
      rw [alignFrom_note index b lines hchanged hbody]
      refine ih hall' hindex' (hinv.note hlo hcurrent) (Nat.le_succ_of_le hlo) ?_
      rintro b' ⟨⟩
      exact (b.note_lastNote hcurrent index).2

/-! ## the notes -/

/-- the notes that another note takes the place of; `last` is the note of the last changed line, in a block -/
def overwritten : (last : Option (Option Nat)) → (index : Nat) → List PatchLine → List Nat
  | _, _, [] => []
  | last, index, line :: rest =>
    if isChanged line then overwritten (some none) (index + 1) rest
    else
      match last with
      | none => overwritten none (index + 1) rest
      | some note =>
        if isNote line then note.toList ++ overwritten (some (some index)) (index + 1) rest
        else overwritten none (index + 1) rest

lemma overwritten_changed (last : Option (Option Nat)) (index : Nat) (lines : List PatchLine)
    (h : isChanged line = true) : overwritten last index (line :: lines) = overwritten (some none) (index + 1) lines := by
  rw [overwritten.eq_def]
  exact if_pos h

lemma overwritten_note (note : Option Nat) (index : Nat) (lines : List PatchLine) (h : isChanged line = false)
    (hnote : isNote line = true) : overwritten (some note) index (line :: lines) =
      note.toList ++ overwritten (some (some index)) (index + 1) lines := by
  rw [overwritten.eq_def]
  dsimp only
  rw [h, hnote]
  rfl

lemma overwritten_other (last : Option (Option Nat)) (index : Nat) (lines : List PatchLine) (h : isChanged line = false)
    (hnote : last = none ∨ isNote line = false) :
    overwritten last index (line :: lines) = overwritten none (index + 1) lines := by
  rw [overwritten.eq_def]
  dsimp only
  rw [h]
  rcases hnote with rfl | hnote
  · rfl
  · rw [hnote]
    cases last <;> rfl

/-- **Run lemma**: all other lines are shown once. -/
theorem alignFrom_perm (index : Nat) (lines : List PatchLine) (open' : Option Block)
    (hopen : ∀ b ∈ open', b.current ≠ []) :
    (indices (alignFrom index open' lines) ++ overwritten (open'.map Block.lastNote) index lines).Perm
      ((open'.getD .empty).indices ++ List.range' index lines.length) := by
  induction lines generalizing index open' with
  | nil =>
    rw [alignFrom_nil, overwritten]
    exact (Block.rows_indices _).append_right _
  | cons line lines ih =>
    rw [List.length_cons, List.range'_succ]
    by_cases hchanged : isChanged line = true
    · obtain ⟨hlast, hcurrent⟩ := Block.change_lastNote (open'.getD .empty) index line
      have hrest := ih (index + 1) (some ((open'.getD .empty).change index line)) (by rintro b ⟨⟩; exact hcurrent)
      rw [Option.map_some, hlast] at hrest
      rw [alignFrom_changed index open' lines hchanged, overwritten_changed _ _ _ hchanged]
      refine hrest.trans ?_
      have h := (Block.change_indices (open'.getD .empty) index line).append_right (List.range' (index + 1) lines.length)
      rwa [List.append_assoc] at h
    rw [Bool.not_eq_true] at hchanged
    by_cases hnote : open' = none ∨ isNote line = false
    · have hlost := overwritten_other (open'.map Block.lastNote) index lines hchanged
        (hnote.imp_left fun hnone => congrArg (Option.map Block.lastNote) hnone)
      rw [hlost, alignFrom_shared index open' lines hchanged hnote, indices_append, indices_shared, List.append_assoc]
      have hrest := ih (index + 1) none (fun _ h => nomatch h)
      exact (Block.rows_indices _).append (hrest.cons index)
    · obtain ⟨hsome, hbody⟩ := not_or.mp hnote
      obtain ⟨b, rfl⟩ := Option.ne_none_iff_exists'.mp hsome
      rw [Bool.not_eq_false] at hbody
      obtain ⟨hlast, hcurrent⟩ := b.note_lastNote (hopen b rfl) index
      have hrest := ih (index + 1) (some (b.note index)) (by rintro b' ⟨⟩; exact hcurrent)
      rw [Option.map_some, hlast, Option.getD_some] at hrest
      have hstep := b.note_indices (hopen b rfl) index
      rw [alignFrom_note index b lines hchanged hbody, Option.map_some, overwritten_note _ _ _ hchanged hbody,
        Option.getD_some]
      generalize indices (alignFrom (index + 1) (some (b.note index)) lines) = shown at hrest ⊢
      generalize overwritten (some (some index)) (index + 1) lines = lost at hrest ⊢
      calc shown ++ (b.lastNote.toList ++ lost)
          |>.Perm (b.lastNote.toList ++ (shown ++ lost)) := by
            rw [← List.append_assoc, ← List.append_assoc]
            exact List.perm_append_comm.append_right lost
        _ |>.Perm (b.lastNote.toList ++ ((b.note index).indices ++ List.range' (index + 1) lines.length)) :=
            hrest.append_left _
        _ |>.Perm ((b.note index).indices ++ b.lastNote.toList ++ List.range' (index + 1) lines.length) := by
            rw [← List.append_assoc]
            exact List.perm_append_comm.append_right _
        _ |>.Perm (b.indices ++ [index] ++ List.range' (index + 1) lines.length) := hstep.append_right _
        _ |>.Perm (b.indices ++ index :: List.range' (index + 1) lines.length) := by
            rw [List.append_assoc]
            rfl

/-- no changed line has two notes after it -/
def SingleNotes (lines : List PatchLine) : Prop :=
  ∀ a b c, [a, b, c] <:+: lines → isChanged a = true → isNote b = true → isNote c = false

lemma isNote_of_isChanged (h : isChanged line = true) : isNote line = false := by
  unfold isChanged isNote at *
  cases hkind : line.kind <;> simp [hkind] at h ⊢

/-- the first lines are not two notes -/
def HeadSingle (lines : List PatchLine) : Prop := ∀ b c, [b, c] <+: lines → isNote b = true → isNote c = false

lemma singleNotes_cons (line : PatchLine) (lines : List PatchLine) :
    SingleNotes (line :: lines) ↔ (isChanged line = true → HeadSingle lines) ∧ SingleNotes lines := by
  constructor
  · intro h
    refine ⟨?_, fun a b c hmem => h a b c (List.infix_cons hmem)⟩
    intro hchanged b c hmem
    exact h line b c ((List.cons_prefix_cons.mpr ⟨rfl, hmem⟩).isInfix) hchanged
  · rintro ⟨hhead, hrest⟩ a b c hmem
    rcases List.infix_cons_iff.mp hmem with hprefix | hmem
    · obtain ⟨rfl, hbc⟩ := List.cons_prefix_cons.mp hprefix
      exact fun hchanged => hhead hchanged b c hbc
    · exact hrest a b c hmem

lemma headSingle_cons (line : PatchLine) (lines : List PatchLine) :
    HeadSingle (line :: lines) ↔ (isNote line = true → ∀ c ∈ lines.head?, isNote c = false) := by
  constructor
  · intro h hnote c hc
    obtain ⟨rest, rfl⟩ := List.head?_eq_some_iff.mp hc
    exact h line c ⟨rest, rfl⟩ hnote
  · rintro h b c ⟨rest, hrest⟩
    obtain ⟨rfl, rfl⟩ := List.cons.inj hrest
    exact fun hnote => h hnote c rfl

/-- a note is lost exactly when it has another one before it, after a changed line -/
lemma overwritten_eq_nil (lines : List PatchLine) (index : Nat) :
    (overwritten none index lines = [] ↔ SingleNotes lines) ∧
    (overwritten (some none) index lines = [] ↔ SingleNotes lines ∧ HeadSingle lines) ∧
    ∀ note, overwritten (some (some note)) index lines = [] ↔
      SingleNotes lines ∧ ∀ line ∈ lines.head?, isNote line = false := by
  induction lines generalizing index with
  | nil =>
    have hsingle : SingleNotes [] := fun a b c h => absurd (List.eq_nil_of_infix_nil h) (List.cons_ne_nil _ _)
    have hhead : HeadSingle [] := fun b c h => absurd (List.prefix_nil.mp h) (List.cons_ne_nil _ _)
    simp [overwritten, hsingle, hhead]
  | cons line lines ih =>
    obtain ⟨hnone, hplain, hnoted⟩ := ih (index + 1)
    rw [singleNotes_cons, headSingle_cons]
    by_cases hchanged : isChanged line = true
    · have hnot := isNote_of_isChanged hchanged
      simp only [overwritten_changed _ _ _ hchanged, hplain, hchanged, hnot, forall_const, Bool.false_eq_true,
        false_imp_iff, and_true, List.head?_cons, Option.mem_some_iff, forall_eq', and_self]
      exact and_comm
    rw [Bool.not_eq_true] at hchanged
    cases hnote : isNote line with
    | false =>
      simp only [overwritten_other _ _ _ hchanged (.inr hnote), hnone, hchanged, Bool.false_eq_true, false_imp_iff,
        true_and, and_true, List.head?_cons, Option.mem_some_iff, forall_eq', hnote]
      exact fun _ => trivial
    | true =>
      simp only [overwritten_other _ _ _ hchanged (.inl rfl), overwritten_note _ _ _ hchanged hnote, hnone, hnoted,
        hchanged, Bool.false_eq_true, false_imp_iff, true_and, forall_const, List.head?_cons, Option.mem_some_iff,
        forall_eq', hnote, Option.toList_none, Option.toList_some, List.nil_append]
      simp

/-- **Main result.**  The rows show every line of the patch once, each on its own side and in its order, exactly
when no changed line has two notes after it. -/
theorem align_losesNoLine (lines : List PatchLine) : LosesNoLine lines (align lines) ↔ SingleNotes lines := by
  have horder : InOrder lines 0 (align lines) :=
    alignFrom_inOrder (List.nil_append lines).symm rfl (Block.empty_inv lines 0 0) (Nat.le_refl _) fun _ h => nomatch h
  have hperm := alignFrom_perm 0 lines none fun _ h => nomatch h
  rw [← (overwritten_eq_nil lines 0).1]
  constructor
  · intro h
    have hlen := hperm.length_eq
    have honce := h.once.length_eq
    rw [List.length_append, List.length_append, List.length_range'] at hlen
    rw [List.length_range] at honce
    have hshown : (indices (alignFrom 0 none lines)).length = lines.length := honce
    have hempty : ((none : Option Block).getD .empty).indices.length = 0 := rfl
    exact List.eq_nil_of_length_eq_zero (by rw [Option.map_none] at hlen; omega)
  · intro hlost
    rw [Option.map_none, hlost, List.append_nil] at hperm
    refine ⟨horder, ?_⟩
    rw [List.range_eq_range']
    exact hperm

/-- one of the two notes after the removed line is on no row -/
theorem align_overwrites :
    let lines : List PatchLine := [⟨some 1, none, .removed, "-old".toList⟩,
      ⟨none, none, .metaLine, "\\ No newline at end of file".toList⟩,
      ⟨none, none, .metaLine, "\\ No newline at end of file".toList⟩]
    align lines = [.pair (some ⟨0, some 2⟩) none] ∧ ¬ LosesNoLine lines (align lines) := by
  refine ⟨by decide, fun h => ?_⟩
  have honce := h.once
  revert honce
  decide

end

end TerminalManager.DiffReview.Split
