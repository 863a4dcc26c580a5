import TerminalManager.Lib.Loops
import TerminalManager.Lib.Picture
import TerminalManager.Term.Vte

/-!
# The cell grid of the framework

`CellGrid` of the UI framework: the cells in one flat vector and, for each row, the identity of the
logical line it shows, the key of the renderer's line cache.  Damage and paint state are left out.

* `CellGrid` and its operations   `setCell`, `shiftRows`, `resetLineIdentity`, `resize`, `insertOverscanRowTop`, as in the source;
* `CellGrid.WellFormed`           `rows * cols` cells and `rows` identities;
* `view_setCell`, `shiftRows_spec`, `resize_spec`, `view_insertOverscanRowTop`   what a well-formed grid shows afterwards.

On a well-formed grid no range is out of bounds, so the operations are total here.
-/

namespace TerminalManager.Ui
open Loops Slice Term

structure Cell where
  ch : Char
  fg : Color
  bg : Color
  attrs : CellAttrs
  wideContinuation : Bool
deriving DecidableEq

/-- `Cell::default()`: no character -/
def Cell.empty : Cell := ⟨'\x00', .white, .transparent, 0, false⟩

structure CellGrid where
  rows : Nat
  cols : Nat
  cells : List Cell
  lineIds : List UInt64
  nextLineId : UInt64
  cursorRow : Nat
  cursorCol : Nat
  cursorVisible : Bool
deriving DecidableEq

namespace CellGrid

/-- the next `n` identities of the counter `next`, which wraps -/
def freshIds (next : UInt64) (n : Nat) : List UInt64 := (List.range n).map fun i => next + UInt64.ofNat i

def new (rows cols : Nat) : CellGrid where
  rows
  cols
  cells := List.replicate (rows * cols) .empty
  lineIds := freshIds 1 rows
  nextLineId := 1 + UInt64.ofNat rows
  cursorRow := 0
  cursorCol := 0
  cursorVisible := true

def setCursor (g : CellGrid) (row col : Nat) : CellGrid :=
  { g with cursorRow := min row (g.rows - 1), cursorCol := min col (g.cols - 1) }

def setCursorVisible (g : CellGrid) (visible : Bool) : CellGrid := { g with cursorVisible := visible }

/-- a position outside of the grid is ignored -/
def setCell (g : CellGrid) (row col : Nat) (cell : Cell) : CellGrid :=
  if row < g.rows ∧ col < g.cols then { g with cells := g.cells.set (row * g.cols + col) cell } else g

def getCell (g : CellGrid) (row col : Nat) : Option Cell :=
  if row < g.rows ∧ col < g.cols then g.cells[row * g.cols + col]? else none

/-- `count` rows copied from `src` on to `dst` on, their identities with them -/
def shiftRows (g : CellGrid) (dst src count : Nat) : CellGrid :=
  if count = 0 ∨ g.rows = 0 ∨ g.cols = 0 then g
  else
    let count := min count (g.rows - max dst src)
    if count = 0 ∨ dst = src then g
    else { g with
      cells := copyWithin g.cells (src * g.cols) (src * g.cols + count * g.cols) (dst * g.cols)
      lineIds := copyWithin g.lineIds src (src + count) dst }

/-- a new identity for the row -/
def resetLineIdentity (g : CellGrid) (row : Nat) : CellGrid :=
  if row ≥ g.rows then g
  else { g with lineIds := g.lineIds.set row g.nextLineId, nextLineId := g.nextLineId + 1 }

/-- rows that survive keep their identity, new ones get fresh ones -/
def resize (g : CellGrid) (newRows newCols : Nat) : CellGrid :=
  if newRows = g.rows ∧ newCols = g.cols then g
  else
    let copyRows := min g.rows newRows
    let copyCols := min g.cols newCols
    { g with
      rows := newRows
      cols := newCols
      cells := iter 0 copyRows (fun next r => overwrite next (r * newCols)
        (range g.cells (r * g.cols) (r * g.cols + copyCols))) (List.replicate (newRows * newCols) .empty)
      lineIds := g.lineIds.take copyRows ++ freshIds g.nextLineId (newRows - copyRows)
      nextLineId := g.nextLineId + UInt64.ofNat (newRows - copyRows) }

/-- a row put in at the top, the content moves down with the cursor -/
def insertOverscanRowTop (g : CellGrid) (cells : Option (List Cell)) (lineId : UInt64) : CellGrid :=
  let newRow := List.replicate g.cols Cell.empty
  let newRow := match cells with
    | some src => overwrite newRow 0 (src.take (min src.length g.cols))
    | none => newRow
  { g with
    cells := newRow ++ g.cells
    lineIds := lineId :: g.lineIds
    rows := g.rows + 1
    cursorRow := min (g.cursorRow + 1) (g.rows + 1 - 1) }

/-! ## what the operations show -/

variable {g : CellGrid} {rows cols r c n dst src : Nat} {x : Cell}

def view (g : CellGrid) : Picture Cell := fun r c => g.getCell r c

structure WellFormed (g : CellGrid) : Prop where
  length : g.cells.length = g.rows * g.cols
  lineIds : g.lineIds.length = g.rows

lemma view_eq : g.view = Picture.ofCells g.rows g.cols g.cells := rfl

lemma WellFormed.shape (h : g.WellFormed) : Picture.Shape g.rows g.cols g.view :=
  Picture.shape_ofCells h.length

lemma length_freshIds (next : UInt64) (n : Nat) : (freshIds next n).length = n := by
  rw [freshIds, List.length_map, List.length_range]

lemma wellFormed_new (rows cols : Nat) : (new rows cols).WellFormed :=
  ⟨List.length_replicate, length_freshIds 1 rows⟩

lemma view_new (rows cols : Nat) :
    (new rows cols).view = Picture.resize rows cols Cell.empty fun _ _ => none :=
  Picture.ofCells_replicate

@[simp] lemma rows_setCell : (g.setCell r c x).rows = g.rows := by
  unfold setCell
  split <;> rfl

@[simp] lemma cols_setCell : (g.setCell r c x).cols = g.cols := by
  unfold setCell
  split <;> rfl

@[simp] lemma lineIds_setCell : (g.setCell r c x).lineIds = g.lineIds := by
  unfold setCell
  split <;> rfl

@[simp] lemma nextLineId_setCell : (g.setCell r c x).nextLineId = g.nextLineId := by
  unfold setCell
  split <;> rfl

lemma WellFormed.setCell (h : g.WellFormed) : (g.setCell r c x).WellFormed := by
  refine ⟨?_, by rw [lineIds_setCell, rows_setCell]; exact h.lineIds⟩
  rw [rows_setCell, cols_setCell]
  unfold CellGrid.setCell
  split
  · rw [List.length_set]
    exact h.length
  · exact h.length

theorem view_setCell (h : g.WellFormed) :
    (g.setCell r c x).view = Picture.fill r (r + 1) c (c + 1) x g.view := by
  unfold setCell
  split
  next hrc => exact Picture.ofCells_set h.length hrc.1 hrc.2
  next hrc =>
    funext i j
    unfold Picture.fill
    split
    · rw [h.shape.none (by omega)]
      rfl
    · rfl

@[simp] lemma rows_shiftRows : (g.shiftRows dst src n).rows = g.rows := by
  unfold shiftRows
  dsimp only
  split_ifs <;> rfl

@[simp] lemma cols_shiftRows : (g.shiftRows dst src n).cols = g.cols := by
  unfold shiftRows
  dsimp only
  split_ifs <;> rfl

@[simp] lemma nextLineId_shiftRows : (g.shiftRows dst src n).nextLineId = g.nextLineId := by
  unfold shiftRows
  dsimp only
  split_ifs <;> rfl

/-- a shift inside of the grid moves the rows, and without columns there is nothing to move -/
theorem shiftRows_spec (h : g.WellFormed) (hd : dst + n ≤ g.rows) (hs : src + n ≤ g.rows) :
    (g.shiftRows dst src n).WellFormed ∧
      (g.shiftRows dst src n).view = Picture.moveRows dst src n g.view := by
  unfold shiftRows
  split
  next hempty =>
    refine ⟨h, ?_⟩
    rcases hempty with rfl | hr | hc
    · exact Picture.moveRows_zero.symm
    · rw [show n = 0 by omega]
      exact Picture.moveRows_zero.symm
    · funext i j
      unfold Picture.moveRows
      split
      · rw [h.shape.none (by omega), h.shape.none (by omega)]
      · rfl
  dsimp only
  rw [show min n (g.rows - max dst src) = n by omega]
  split
  next hsame =>
    refine ⟨h, ?_⟩
    obtain rfl : dst = src := by omega
    funext i j
    unfold Picture.moveRows
    split
    · congr 1
      omega
    · rfl
  next =>
    obtain ⟨hlen, hview⟩ := Picture.ofCells_copyWithin src dst n h.length hs hd
    refine ⟨⟨hlen, ?_⟩, hview⟩
    show (copyWithin g.lineIds src (src + n) dst).length = g.rows
    have hids := h.lineIds
    rw [length_copyWithin (by omega) (by omega)]
    exact hids

@[simp] lemma rows_resetLineIdentity : (g.resetLineIdentity r).rows = g.rows := by
  unfold resetLineIdentity
  split <;> rfl

@[simp] lemma cols_resetLineIdentity : (g.resetLineIdentity r).cols = g.cols := by
  unfold resetLineIdentity
  split <;> rfl

@[simp] lemma view_resetLineIdentity : (g.resetLineIdentity r).view = g.view := by
  unfold resetLineIdentity
  split <;> rfl

lemma WellFormed.resetLineIdentity (h : g.WellFormed) : (g.resetLineIdentity r).WellFormed := by
  unfold CellGrid.resetLineIdentity
  split
  · exact h
  · refine ⟨h.length, ?_⟩
    show (g.lineIds.set r g.nextLineId).length = g.rows
    rw [List.length_set]
    exact h.lineIds

/-- the loop of `resize` over the rows that stay -/
private lemma resize_cells (h : g.WellFormed) (rows cols : Nat) (cells : List Cell)
    (hc : cells = iter 0 (min g.rows rows) (fun next r => overwrite next (r * cols)
        (range g.cells (r * g.cols) (r * g.cols + min g.cols cols)))
      (List.replicate (rows * cols) .empty)) :
    cells.length = rows * cols ∧
      Picture.ofCells rows cols cells = Picture.resize rows cols .empty g.view := by
  have hrow : ∀ r, r < g.rows → r * g.cols + min g.cols cols ≤ g.cells.length ∧
      ∀ j, j < min g.cols cols →
        (range g.cells (r * g.cols) (r * g.cols + min g.cols cols))[j]? = g.view r j := by
    intro r hr
    have hle := (Picture.range_row h.length hr).1
    refine ⟨by omega, fun j hj => ?_⟩
    rw [getElem?_range, if_pos (by omega), view_eq, Picture.ofCells, if_pos (by omega)]
  have hloop := iter_rule (a := 0) (b := min g.rows rows) (s := List.replicate (rows * cols) Cell.empty)
    (g := fun next r => overwrite next (r * cols) (range g.cells (r * g.cols) (r * g.cols + min g.cols cols)))
    (P := fun r next => next.length = rows * cols ∧ ∀ i j, i < rows → j < cols →
      Picture.ofCells rows cols next i j = some (if i < r then (g.view i j).getD .empty else .empty))
    ⟨List.length_replicate, fun i j hi hj => by
      rw [Picture.ofCells_replicate, Picture.resize, if_pos ⟨hi, hj⟩]
      rfl⟩ (by
      rintro r next - hr ⟨hlen, hget⟩
      obtain ⟨hfit, hentry⟩ := hrow r (by omega)
      have hlr := @length_range _ g.cells (r * g.cols) _ hfit
      rw [Nat.add_sub_cancel_left] at hlr
      obtain ⟨hlen', hview⟩ := Picture.ofCells_overwrite
        (range g.cells (r * g.cols) (r * g.cols + min g.cols cols)) hlen (r := r) (by omega) (by omega)
      refine ⟨hlen', fun i j hi hj => ?_⟩
      rw [hview, hlr]
      dsimp only
      rw [hget i j hi hj]
      by_cases hir : i = r
      · subst hir
        rw [if_neg (Nat.lt_irrefl i), if_pos (Nat.lt_succ_self i)]
        by_cases hjc : j < min g.cols cols
        · obtain ⟨y, hy⟩ := h.shape.some (i := i) (j := j) (by omega) (by omega)
          rw [if_pos ⟨rfl, hjc⟩, hentry j hjc, hy]
          rfl
        · rw [if_neg (fun hx => hjc hx.2), h.shape.none (by omega)]
          rfl
      · rw [if_neg (fun hx => hir hx.1)]
        congr 2
        exact propext (by omega))
  rw [← hc, Nat.max_eq_right (Nat.zero_le _)] at hloop
  obtain ⟨hlen, hget⟩ := hloop
  refine ⟨hlen, ?_⟩
  funext i j
  unfold Picture.resize
  split
  next hij =>
    rw [hget i j hij.1 hij.2]
    congr 1
    by_cases hi : i < g.rows
    · rw [if_pos (by omega)]
    · rw [h.shape.none (by omega)]
      split <;> rfl
  next hij => exact (Picture.shape_ofCells hlen).none hij

@[simp] lemma rows_resize : (g.resize rows cols).rows = rows := by
  unfold resize
  split
  next h => exact h.1.symm
  next => rfl

@[simp] lemma cols_resize : (g.resize rows cols).cols = cols := by
  unfold resize
  split
  next h => exact h.2.symm
  next => rfl

theorem resize_spec (h : g.WellFormed) (rows cols : Nat) : (g.resize rows cols).WellFormed ∧
    (g.resize rows cols).view = Picture.resize rows cols .empty g.view := by
  unfold resize
  split
  next heq =>
    obtain ⟨rfl, rfl⟩ := heq
    refine ⟨h, ?_⟩
    funext i j
    unfold Picture.resize
    split
    next hij =>
      obtain ⟨y, hy⟩ := h.shape.some hij.1 hij.2
      rw [hy]
      rfl
    next hij => exact h.shape.none hij
  next =>
    obtain ⟨hlen, hview⟩ := resize_cells h rows cols _ rfl
    refine ⟨⟨hlen, ?_⟩, hview⟩
    show (g.lineIds.take (min g.rows rows) ++ freshIds g.nextLineId (rows - min g.rows rows)).length = rows
    rw [List.length_append, List.length_take, h.lineIds, length_freshIds]
    omega

/-- the new row has as many cells as the others -/
lemma length_overscanRow (cols : Nat) (cells : Option (List Cell)) :
    (match cells with
      | some src => overwrite (List.replicate cols Cell.empty) 0 (src.take (min src.length cols))
      | none => List.replicate cols Cell.empty).length = cols := by
  cases cells with
  | none => exact List.length_replicate
  | some src =>
    refine (length_overwrite ?_).trans List.length_replicate
    rw [List.length_take, List.length_replicate]
    omega

/-- the content below the new row, which is cut or filled with empty cells -/
theorem view_insertOverscanRowTop {g : CellGrid} (cells : Option (List Cell)) (lineId : UInt64) :
    (g.insertOverscanRowTop cells lineId).view = Picture.stack g.cols .empty [cells.getD []] g.view := by
  refine Picture.ofCells_cons (fun j hj => ?_) ?_
  · have hcol : j < g.cols := hj
    clear hj
    cases cells with
    | none =>
      rw [Picture.line, if_pos (by exact hcol)]
      exact List.getElem?_replicate_of_lt hcol
    | some src =>
      have hfit : 0 + (src.take (min src.length g.cols)).length ≤ (List.replicate g.cols Cell.empty).length := by
        rw [List.length_take, List.length_replicate]
        omega
      dsimp only
      rw [Picture.line, if_pos (by exact hcol), getElem?_overwrite hfit, List.length_take, List.getElem?_take,
        List.getElem?_replicate, if_pos hcol, Option.getD_some, Nat.sub_zero]
      by_cases hsrc : j < src.length
      · rw [if_pos (by omega), if_pos (by omega), List.getElem?_eq_getElem hsrc]
        rfl
      · rw [if_neg (by omega), List.getElem?_eq_none (by omega)]
        rfl
  · exact length_overscanRow g.cols cells

lemma WellFormed.insertOverscanRowTop (h : g.WellFormed) (cells : Option (List Cell)) (lineId : UInt64) :
    (g.insertOverscanRowTop cells lineId).WellFormed := by
  refine ⟨?_, congrArg Nat.succ h.lineIds⟩
  show (_ ++ g.cells).length = (g.rows + 1) * g.cols
  rw [List.length_append, h.length, Nat.succ_mul, Nat.add_comm]
  congr 1
  exact length_overscanRow g.cols cells

end CellGrid
end TerminalManager.Ui
