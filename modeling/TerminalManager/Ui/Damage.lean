import Mathlib.Algebra.Group.Nat.Defs
import TerminalManager.Ui.CellGrid

/-!
# The damage of the cell grid

Every row of the grid has a record of the columns that were written since the damage was last cleared.  It moves with
the row, as the identity of the line does.

* `LineDamage`                the record of a row;
* `DamagedGrid`, `GridOp`     the grid with its damage, and the methods that change it;
* `GridRow.Sound`             a row that is clean is the one it was;
* `Origins`                   which row of the last frame a row was, unless it was written past the last column that
  can be recorded or its damage was cleared since;
* `apply_sound`               every method keeps the rows sound.

The dirty bits of the cells are left out, and so are the offset, the overscan rows and the size of a cell: nothing here
reads them.
-/

namespace TerminalManager.Ui
open Slice Term

structure LineDamage where
  firstDirtyCol : UInt16
  lastDirtyCol : UInt16
  seqno : UInt64
deriving DecidableEq, Repr

namespace LineDamage

/-- `u16::MAX`: no column -/
def CLEAN : UInt16 := 65535

/-- `LineDamage::default()` -/
def fresh : LineDamage := ⟨CLEAN, 0, 0⟩

def isClean (d : LineDamage) : Bool := d.firstDirtyCol == CLEAN

/-- the next number, unless it is the largest -/
def nextSeqno (n : UInt64) : UInt64 := if n = 18446744073709551615 then n else n + 1

def markRange (d : LineDamage) (start stop : UInt16) : LineDamage :=
  if start > stop then d
  else if d.isClean then ⟨start, stop, nextSeqno d.seqno⟩
  else
    ⟨if start < d.firstDirtyCol then start else d.firstDirtyCol,
      if stop > d.lastDirtyCol then stop else d.lastDirtyCol, nextSeqno d.seqno⟩

def markCol (d : LineDamage) (col : UInt16) : LineDamage := d.markRange col col

def clearCols (d : LineDamage) : LineDamage := { d with firstDirtyCol := CLEAN, lastDirtyCol := 0 }

variable {d : LineDamage} {a b : UInt16}

@[simp] lemma isClean_clearCols : d.clearCols.isClean = true := beq_self_eq_true CLEAN

lemma isClean_iff : d.isClean = true ↔ d.firstDirtyCol = CLEAN := beq_iff_eq

/-- what is damaged stays so -/
lemma markRange_damaged (h : d.isClean = false) : (d.markRange a b).isClean = false := by
  have hne : d.firstDirtyCol ≠ CLEAN := fun heq => by simp [isClean, heq] at h
  unfold markRange
  split
  · exact h
  · rw [if_neg (by simp [h])]
    apply beq_eq_false_iff_ne.mpr
    dsimp only
    split
    next hlt =>
      -- what is smaller than a column is not the largest
      rintro rfl
      have hmax := d.firstDirtyCol.toNat_lt
      have := UInt16.lt_iff_toNat_lt.mp hlt
      rw [show CLEAN.toNat = 65535 from rfl] at this
      omega
    next => exact hne

/-- a range that begins before the last column that there can be is recorded -/
lemma markRange_recorded (hab : a ≤ b) (ha : a ≠ CLEAN) : (d.markRange a b).isClean = false := by
  cases h : d.isClean with
  | false => exact markRange_damaged h
  | true =>
    unfold markRange
    rw [if_neg (fun hlt => UInt16.not_lt.mpr hab hlt), if_pos h]
    exact beq_eq_false_iff_ne.mpr ha

@[simp] lemma markRange_zero : (d.markRange 0 b).isClean = false :=
  markRange_recorded (UInt16.le_iff_toNat_le.mpr (Nat.zero_le _)) (by decide)

@[simp] lemma isClean_fresh : fresh.isClean = true := rfl

end LineDamage

/-! ## the methods -/

namespace CellGrid

/-- a wide character and the column it goes on in, which wraps -/
def setWideCell (g : CellGrid) (row col : Nat) (cell : Cell) : CellGrid :=
  let next := (col + 1) % 2 ^ 64
  if next ≥ g.cols then g
  else
    (g.setCell row col { cell with wideContinuation := false }).setCell row next
      ⟨'\x00', cell.fg, cell.bg, cell.attrs, true⟩

def clear (g : CellGrid) : CellGrid :=
  { g with
    cells := List.replicate g.cells.length .empty
    lineIds := overwrite g.lineIds 0 (freshIds g.nextLineId g.rows)
    nextLineId := g.nextLineId + UInt64.ofNat g.rows }

/-- what there is for each row, moved up with the rows -/
def scrollLines {α : Type} (g : CellGrid) (xs : List α) (n : Nat) : List α :=
  if 0 < g.rows - n then copyWithin xs n g.rows 0 else xs

def scrollUp (g : CellGrid) (n : Nat) : CellGrid :=
  if n = 0 then g
  else
    let n := min n g.rows
    let shift := n * g.cols
    let total := g.rows * g.cols
    { g with
      cells := fillFrom (copyWithin g.cells shift total 0) (total - shift) .empty
      lineIds := overwrite (g.scrollLines g.lineIds n) (g.rows - n) (freshIds g.nextLineId n)
      nextLineId := g.nextLineId + UInt64.ofNat n }

/-- what there is for each row, moved with the rows that `shiftRows` moves -/
def shiftLines {α : Type} (g : CellGrid) (xs : List α) (dst src count : Nat) : List α :=
  if count = 0 ∨ g.rows = 0 ∨ g.cols = 0 then xs
  else
    let count := min count (g.rows - max dst src)
    if count = 0 ∨ dst = src then xs else copyWithin xs src (src + count) dst

end CellGrid

/-- the grid with the damage of its rows -/
structure DamagedGrid extends CellGrid where
  lineDamage : List LineDamage
deriving DecidableEq

namespace DamagedGrid
open LineDamage (fresh)

/-- the last column, as far as it can be recorded -/
def lastColU16 (cols : Nat) : UInt16 := UInt16.ofNat (min (cols - 1) 65535)

/-- a column, as far as it can be recorded -/
def colU16 (col : Nat) : UInt16 := UInt16.ofNat (min col 65535)

def markAllLinesFullyDamaged (lines : List LineDamage) (cols : Nat) : List LineDamage :=
  lines.map fun d => d.markRange 0 (lastColU16 cols)

def new (rows cols : Nat) : DamagedGrid :=
  ⟨.new rows cols, markAllLinesFullyDamaged (List.replicate rows fresh) cols⟩

variable (g : DamagedGrid)

def setCell (row col : Nat) (cell : Cell) : DamagedGrid :=
  if row < g.rows ∧ col < g.cols then
    ⟨g.toCellGrid.setCell row col cell, g.lineDamage.modify row fun d => d.markCol (colU16 col)⟩
  else g

def setWideCell (row col : Nat) (cell : Cell) : DamagedGrid :=
  let next := (col + 1) % 2 ^ 64
  if next ≥ g.cols then g
  else
    ⟨g.toCellGrid.setWideCell row col cell, g.lineDamage.modify row fun d => d.markRange (colU16 col) (colU16 next)⟩

def clear : DamagedGrid := ⟨g.toCellGrid.clear, markAllLinesFullyDamaged g.lineDamage g.cols⟩

def scrollUp (n : Nat) : DamagedGrid :=
  if n = 0 then g
  else
    let kept := g.rows - min n g.rows
    ⟨g.toCellGrid.scrollUp n, (g.scrollLines g.lineDamage (min n g.rows)).mapIdx fun row d =>
      if row < kept then d else d.markRange 0 (lastColU16 g.cols)⟩

def resize (newRows newCols : Nat) : DamagedGrid :=
  if newRows = g.rows ∧ newCols = g.cols then g
  else ⟨g.toCellGrid.resize newRows newCols, markAllLinesFullyDamaged (List.replicate newRows fresh) newCols⟩

def shiftRows (dst src count : Nat) : DamagedGrid :=
  ⟨g.toCellGrid.shiftRows dst src count, g.shiftLines g.lineDamage dst src count⟩

def resetLineIdentity (row : Nat) : DamagedGrid :=
  if row ≥ g.rows then g
  else ⟨g.toCellGrid.resetLineIdentity row, g.lineDamage.modify row fun d => d.markRange 0 (lastColU16 g.cols)⟩

def insertOverscanRowTop (cells : Option (List Cell)) (lineId : UInt64) : DamagedGrid :=
  ⟨g.toCellGrid.insertOverscanRowTop cells lineId, fresh.markRange 0 (lastColU16 g.cols) :: g.lineDamage⟩

def clearDirty : DamagedGrid := { g with lineDamage := g.lineDamage.map LineDamage.clearCols }

def markAllDirty : DamagedGrid := { g with lineDamage := markAllLinesFullyDamaged g.lineDamage g.cols }

end DamagedGrid

/-- the methods of the grid that change what is modelled of it -/
inductive GridOp
  | setCell (row col : Nat) (cell : Cell)
  | setWideCell (row col : Nat) (cell : Cell)
  | clear
  | scrollUp (n : Nat)
  | resize (rows cols : Nat)
  | shiftRows (dst src count : Nat)
  | resetLineIdentity (row : Nat)
  | insertOverscanRowTop (cells : Option (List Cell)) (lineId : UInt64)
  | clearDirty
  | markAllDirty
  | setCursor (row col : Nat)
  | setCursorVisible (visible : Bool)

def DamagedGrid.apply (g : DamagedGrid) : GridOp → DamagedGrid
  | .setCell row col cell => g.setCell row col cell
  | .setWideCell row col cell => g.setWideCell row col cell
  | .clear => g.clear
  | .scrollUp n => g.scrollUp n
  | .resize rows cols => g.resize rows cols
  | .shiftRows dst src count => g.shiftRows dst src count
  | .resetLineIdentity row => g.resetLineIdentity row
  | .insertOverscanRowTop cells lineId => g.insertOverscanRowTop cells lineId
  | .clearDirty => g.clearDirty
  | .markAllDirty => g.markAllDirty
  | .setCursor row col => { g with toCellGrid := g.toCellGrid.setCursor row col }
  | .setCursorVisible visible => { g with toCellGrid := g.toCellGrid.setCursorVisible visible }

/-! ## where the rows come from -/

namespace CellGrid

variable {g : CellGrid} {α : Type} {xs : List α} {row col n i dst src count : Nat}

/-- the row that `shiftRows` puts at row `i` -/
def movedFrom (g : CellGrid) (dst src count i : Nat) : Nat :=
  if 0 < g.cols ∧ dst ≤ i ∧ i < dst + min count (g.rows - max dst src) then src + (i - dst) else i

/-- what there is for the rows is moved as the rows are -/
lemma getElem?_shiftLines (hx : xs.length = g.rows) (i : Nat) :
    (g.shiftLines xs dst src count)[i]? = xs[g.movedFrom dst src count i]? := by
  unfold shiftLines movedFrom
  split
  next h => rw [if_neg (by omega)]
  next h =>
    dsimp only
    split
    next h' =>
      rcases h' with h' | rfl
      · rw [if_neg (by omega)]
      · split
        · congr 1
          omega
        · rfl
    next h' =>
      rw [getElem?_copyWithin (by omega) (by omega) (by omega), Nat.add_sub_cancel_left]
      by_cases hi : dst ≤ i ∧ i < dst + min count (g.rows - max dst src)
      · rw [if_pos hi, if_pos ⟨by omega, hi⟩]
      · rw [if_neg hi, if_neg (fun hmoved => hi hmoved.2)]

lemma length_shiftLines (hx : xs.length = g.rows) : (g.shiftLines xs dst src count).length = g.rows := by
  unfold shiftLines
  split
  · exact hx
  · dsimp only
    split
    · exact hx
    · rw [length_copyWithin (by omega) (by omega), hx]

lemma shiftRows_clamped (dst src count : Nat) :
    g.shiftRows dst src count = g.shiftRows dst src (min count (g.rows - max dst src)) := by
  unfold shiftRows
  by_cases h : count = 0 ∨ g.rows = 0 ∨ g.cols = 0
  · rw [if_pos h]
    split
    · rfl
    · dsimp only
      rw [if_pos (by omega)]
  · rw [if_neg h]
    dsimp only
    rw [Nat.min_assoc, Nat.min_self]
    by_cases hn : min count (g.rows - max dst src) = 0
    · rw [if_pos (.inl hn), if_pos (.inl hn)]
    · rw [if_neg (c := _ ∨ g.rows = 0 ∨ g.cols = 0) (by omega)]

lemma view_shiftRows (h : g.WellFormed) (i : Nat) :
    (g.shiftRows dst src count).view i = g.view (g.movedFrom dst src count i) := by
  have hcols : g.cols = 0 → ∀ r r', g.view r = g.view r' := by
    intro hzero r r'
    funext j
    rw [h.shape.none (by omega), h.shape.none (by omega)]
  by_cases hfit : max dst src ≤ g.rows
  · rw [shiftRows_clamped, (shiftRows_spec h (by omega) (by omega)).2]
    funext j
    unfold Picture.moveRows movedFrom
    split
    next hi =>
      by_cases hzero : g.cols = 0
      · rw [hcols hzero]
      · rw [if_pos ⟨by omega, hi⟩]
    next hi => rw [if_neg (fun hmoved => hi hmoved.2)]
  · have hnone : g.shiftRows dst src count = g := by
      rw [shiftRows_clamped, show min count (g.rows - max dst src) = 0 by omega]
      exact if_pos (.inl rfl)
    rw [hnone, movedFrom, if_neg (by omega)]

lemma WellFormed.shiftRows (h : g.WellFormed) : (g.shiftRows dst src count).WellFormed := by
  by_cases hfit : max dst src ≤ g.rows
  · rw [shiftRows_clamped]
    exact (shiftRows_spec h (by omega) (by omega)).1
  · rw [shiftRows_clamped, show min count (g.rows - max dst src) = 0 by omega, CellGrid.shiftRows, if_pos (.inl rfl)]
    exact h

lemma getElem?_scrollLines (hx : xs.length = g.rows) (hi : i < g.rows - n) : (g.scrollLines xs n)[i]? = xs[i + n]? := by
  unfold scrollLines
  rw [if_pos (by omega), getElem?_copyWithin (by omega) (by omega) (by omega), if_pos (by omega)]
  congr 1
  omega

lemma length_scrollLines (hx : xs.length = g.rows) : (g.scrollLines xs n).length = g.rows := by
  unfold scrollLines
  split
  · rw [length_copyWithin (by omega) (by omega), hx]
  · exact hx

@[simp] lemma rows_scrollUp : (g.scrollUp n).rows = g.rows := by
  unfold scrollUp
  split <;> rfl

/-- the rows move up, and blank ones come in below -/
lemma scrollUp_spec (h : g.WellFormed) (hn : n ≠ 0) : (g.scrollUp n).WellFormed ∧
    ∀ i < g.rows - min n g.rows, (g.scrollUp n).view i = g.view (i + min n g.rows) := by
  unfold scrollUp
  rw [if_neg hn]
  dsimp only
  have hk : min n g.rows ≤ g.rows := Nat.min_le_right _ _
  generalize min n g.rows = k at hk ⊢
  have htotal : g.rows * g.cols = k * g.cols + (g.rows - k) * g.cols := by rw [← Nat.add_mul, Nat.add_sub_cancel' hk]
  have hclear : g.rows * g.cols - k * g.cols = (g.rows - k) * g.cols := by omega
  have hmove := Picture.ofCells_copyWithin k 0 (g.rows - k) h.length (by omega) (by omega)
  rw [Nat.zero_mul, ← htotal] at hmove
  rw [hclear]
  refine ⟨⟨?_, ?_⟩, ?_⟩
  · show (fillFrom _ _ _).length = g.rows * g.cols
    rw [length_fillFrom (by rw [hmove.1]; omega), hmove.1]
  · show (overwrite _ _ _).length = g.rows
    rw [length_overwrite, length_scrollLines h.lineIds]
    rw [length_scrollLines h.lineIds, length_freshIds]
    omega
  · intro i hi
    show Picture.ofCells g.rows g.cols _ i = _
    rw [Picture.ofCells_fillFrom hmove.1 (by omega), hmove.2]
    funext j
    rw [Picture.fill, if_neg (by omega), Picture.moveRows, if_pos (by omega), view_eq]
    congr 1
    omega

lemma WellFormed.clear (h : g.WellFormed) : g.clear.WellFormed := by
  refine ⟨List.length_replicate.trans h.length, ?_⟩
  show (overwrite _ _ _).length = g.rows
  rw [length_overwrite (by rw [length_freshIds, h.lineIds]; omega), h.lineIds]

@[simp] lemma rows_setWideCell (cell : Cell) : (g.setWideCell row col cell).rows = g.rows := by
  unfold setWideCell
  dsimp only
  split
  · rfl
  · rw [rows_setCell, rows_setCell]

lemma WellFormed.setWideCell (h : g.WellFormed) (cell : Cell) : (g.setWideCell row col cell).WellFormed := by
  unfold CellGrid.setWideCell
  dsimp only
  split
  · exact h
  · exact h.setCell.setCell

lemma view_setCell_ne (h : g.WellFormed) (cell : Cell) (hi : i ≠ row) : (g.setCell row col cell).view i = g.view i := by
  rw [view_setCell h]
  funext j
  exact if_neg (by omega)

lemma view_setWideCell_ne (h : g.WellFormed) (cell : Cell) (hi : i ≠ row) :
    (g.setWideCell row col cell).view i = g.view i := by
  unfold setWideCell
  dsimp only
  split
  · rfl
  · rw [view_setCell_ne h.setCell _ hi, view_setCell_ne h _ hi]

end CellGrid

/-! ## clean rows -/

/-- a row of the grid: its cells, its damage and, when it is known, the row of the last frame that it was -/
structure GridRow where
  content : Nat → Option Cell
  damage : Option LineDamage
  origin : Option (Option Nat)

namespace GridRow
variable {old : Picture Cell} {r : GridRow}

/-- a clean row that was row `j` shows what row `j` showed -/
def Sound (old : Picture Cell) (r : GridRow) : Prop :=
  ∀ d, r.damage = some d → d.isClean = true → ∀ j, r.origin = some (some j) → r.content = old j

lemma sound_of_damaged (h : ∀ d, r.damage = some d → d.isClean = false) : r.Sound old := by
  intro d hd hclean
  rw [h d hd] at hclean
  cases hclean

lemma sound_of_unknown (h : ∀ j, r.origin ≠ some (some j)) : r.Sound old := fun _ _ _ j hj => absurd hj (h j)

end GridRow

namespace DamagedGrid

structure WellFormed (g : DamagedGrid) : Prop where
  grid : g.toCellGrid.WellFormed
  lineDamage : g.lineDamage.length = g.rows

def rowAt (g : DamagedGrid) (origins : List (Option Nat)) (i : Nat) : GridRow := ⟨g.view i, g.lineDamage[i]?, origins[i]?⟩

/-- where the rows are from after a method: it is forgotten for a row that is written from a column on that is not
recorded, and for the damaged rows when the damage is cleared -/
def moveOrigins (g : DamagedGrid) (origins : List (Option Nat)) : GridOp → List (Option Nat)
  | .setCell row col _ => if row < g.rows ∧ col < g.cols ∧ 65535 ≤ col then origins.set row none else origins
  | .setWideCell row col _ => if (col + 1) % 2 ^ 64 < g.cols ∧ 65535 ≤ col then origins.set row none else origins
  | .scrollUp n => if n = 0 then origins else g.scrollLines origins (min n g.rows)
  | .resize rows cols => if rows = g.rows ∧ cols = g.cols then origins else List.replicate rows none
  | .shiftRows dst src count => g.shiftLines origins dst src count
  | .insertOverscanRowTop _ _ => none :: origins
  | .clearDirty => List.zipWith (fun o d => if d.isClean then o else none) origins g.lineDamage
  | _ => origins

variable {g g' : DamagedGrid} {origins : List (Option Nat)} {old : Picture Cell} {row col i : Nat}

lemma toNat_colU16 (col : Nat) : (colU16 col).toNat = min col 65535 := by
  apply UInt16.toNat_ofNat_of_lt'
  show min col 65535 < 65536
  omega

lemma colU16_le {a b : Nat} (h : a ≤ b) : colU16 a ≤ colU16 b := by
  apply UInt16.le_iff_toNat_le.mpr
  rw [toNat_colU16, toNat_colU16]
  omega

lemma colU16_ne (h : col < 65535) : colU16 col ≠ LineDamage.CLEAN := by
  intro heq
  have := congrArg UInt16.toNat heq
  rw [toNat_colU16, show LineDamage.CLEAN.toNat = 65535 from rfl] at this
  omega

/-- one row was written and its damage recorded, unless the columns are too far right for it -/
lemma sound_write (col : Nat) {b : UInt16} (hview : ∀ i ≠ row, g'.view i = g.view i)
    (hdamage : g'.lineDamage = g.lineDamage.modify row fun d => d.markRange (colU16 col) b)
    (hb : col < 65535 → colU16 col ≤ b) (h : ∀ i, (g.rowAt origins i).Sound old) (i : Nat) :
    (g'.rowAt (if 65535 ≤ col then origins.set row none else origins) i).Sound old := by
  by_cases hi : i = row
  · subst hi
    split
    next =>
      apply GridRow.sound_of_unknown
      intro j hj
      rw [rowAt, List.getElem?_set_self'] at hj
      cases ho : origins[i]? <;> simp [ho] at hj
    next hcol =>
      apply GridRow.sound_of_damaged
      intro d hd
      rw [rowAt, hdamage, List.getElem?_modify_eq] at hd
      obtain ⟨d', -, rfl⟩ := Option.map_eq_some_iff.mp hd
      exact LineDamage.markRange_recorded (hb (by omega)) (colU16_ne (by omega))
  · have hsame : g'.rowAt (if 65535 ≤ col then origins.set row none else origins) i = g.rowAt origins i := by
      rw [rowAt, rowAt, hview i hi, hdamage, List.getElem?_modify_ne _ _ (Ne.symm hi)]
      congr 1
      split
      · exact List.getElem?_set_ne (Ne.symm hi)
      · rfl
    rw [hsame]
    exact h i

/-- every row is damaged -/
lemma sound_marked {lines : List LineDamage} {cols : Nat} (h : g'.lineDamage = markAllLinesFullyDamaged lines cols) (i : Nat) :
    (g'.rowAt origins i).Sound old := by
  apply GridRow.sound_of_damaged
  intro d hd
  rw [rowAt, h, markAllLinesFullyDamaged, List.getElem?_map] at hd
  obtain ⟨d', -, rfl⟩ := Option.map_eq_some_iff.mp hd
  exact LineDamage.markRange_zero

/-- the methods keep the shape of the grid -/
theorem WellFormed.apply (h : g.WellFormed) (op : GridOp) : (g.apply op).WellFormed := by
  obtain ⟨hgrid, hlines⟩ := h
  cases op with
  | setCell row col cell =>
    unfold DamagedGrid.apply DamagedGrid.setCell
    dsimp only
    split
    · exact ⟨hgrid.setCell, by simp [hlines]⟩
    · exact ⟨hgrid, hlines⟩
  | setWideCell row col cell =>
    unfold DamagedGrid.apply DamagedGrid.setWideCell
    dsimp only
    split
    · exact ⟨hgrid, hlines⟩
    · exact ⟨hgrid.setWideCell cell, by simp [hlines]⟩
  | clear => exact ⟨hgrid.clear, by simp [DamagedGrid.apply, DamagedGrid.clear, markAllLinesFullyDamaged, hlines, CellGrid.clear]⟩
  | scrollUp n =>
    unfold DamagedGrid.apply DamagedGrid.scrollUp
    dsimp only
    split
    · exact ⟨hgrid, hlines⟩
    next hn => exact ⟨(CellGrid.scrollUp_spec hgrid hn).1, by simp [CellGrid.length_scrollLines hlines]⟩
  | resize rows cols =>
    unfold DamagedGrid.apply DamagedGrid.resize
    dsimp only
    split
    · exact ⟨hgrid, hlines⟩
    · exact ⟨(CellGrid.resize_spec hgrid rows cols).1, by simp [markAllLinesFullyDamaged]⟩
  | shiftRows dst src count => exact ⟨hgrid.shiftRows, by simp [DamagedGrid.apply, DamagedGrid.shiftRows, CellGrid.length_shiftLines hlines]⟩
  | resetLineIdentity row =>
    unfold DamagedGrid.apply DamagedGrid.resetLineIdentity
    dsimp only
    split
    · exact ⟨hgrid, hlines⟩
    · exact ⟨hgrid.resetLineIdentity, by simp [hlines]⟩
  | insertOverscanRowTop cells lineId => exact ⟨hgrid.insertOverscanRowTop cells lineId, congrArg Nat.succ hlines⟩
  | clearDirty => exact ⟨hgrid, by simp [DamagedGrid.apply, DamagedGrid.clearDirty, hlines]⟩
  | markAllDirty => exact ⟨hgrid, by simp [DamagedGrid.apply, DamagedGrid.markAllDirty, markAllLinesFullyDamaged, hlines]⟩
  | setCursor row col => exact ⟨⟨hgrid.length, hgrid.lineIds⟩, hlines⟩
  | setCursorVisible visible => exact ⟨⟨hgrid.length, hgrid.lineIds⟩, hlines⟩

/-- there is an origin for every row -/
lemma length_moveOrigins (h : g.WellFormed) (ho : origins.length = g.rows) (op : GridOp) :
    (g.moveOrigins origins op).length = (g.apply op).rows := by
  cases op with
  | setCell row col cell =>
    unfold moveOrigins DamagedGrid.apply DamagedGrid.setCell
    dsimp only
    split <;> split <;> simp [ho]
  | setWideCell row col cell =>
    unfold moveOrigins DamagedGrid.apply DamagedGrid.setWideCell
    dsimp only
    split <;> split <;> simp [ho]
  | scrollUp n =>
    unfold moveOrigins DamagedGrid.apply DamagedGrid.scrollUp
    dsimp only
    split
    · exact ho
    · simp [CellGrid.length_scrollLines ho]
  | resize rows cols =>
    unfold moveOrigins DamagedGrid.apply DamagedGrid.resize
    dsimp only
    split <;> simp [ho]
  | shiftRows dst src count =>
    rw [moveOrigins, CellGrid.length_shiftLines ho]
    exact CellGrid.rows_shiftRows.symm
  | resetLineIdentity row =>
    unfold moveOrigins DamagedGrid.apply DamagedGrid.resetLineIdentity
    dsimp only
    split <;> simp [ho]
  | insertOverscanRowTop cells lineId => exact congrArg Nat.succ ho
  | clearDirty =>
    rw [moveOrigins, List.length_zipWith, ho, h.lineDamage, Nat.min_self]
    rfl
  | clear | markAllDirty | setCursor _ _ | setCursorVisible _ => exact ho

/-- **Step lemma**: after every method a clean row whose origin is known is still the one it was. -/
theorem apply_sound (h : g.WellFormed) (ho : origins.length = g.rows) (hs : ∀ i, (g.rowAt origins i).Sound old) (op : GridOp)
    (i : Nat) : ((g.apply op).rowAt (g.moveOrigins origins op) i).Sound old := by
  cases op with
  | setCell row col cell =>
    unfold moveOrigins DamagedGrid.apply DamagedGrid.setCell
    dsimp only
    by_cases hin : row < g.rows ∧ col < g.cols
    · simp only [hin, and_self, true_and, if_true]
      exact sound_write col (fun i hi => CellGrid.view_setCell_ne h.grid cell hi) rfl (fun _ => UInt16.le_refl _) hs i
    · rw [if_neg hin, if_neg (fun hall => hin ⟨hall.1, hall.2.1⟩)]
      exact hs i
  | setWideCell row col cell =>
    unfold moveOrigins DamagedGrid.apply DamagedGrid.setWideCell
    dsimp only
    by_cases hin : (col + 1) % 2 ^ 64 < g.cols
    · rw [if_neg (by omega)]
      simp only [hin, true_and]
      -- the next column wraps only far beyond what is recorded
      have hnext : col < 65535 → colU16 col ≤ colU16 ((col + 1) % 2 ^ 64) := by
        intro hcol
        rw [Nat.mod_eq_of_lt (by omega)]
        exact colU16_le (Nat.le_succ col)
      exact sound_write col (fun i hi => CellGrid.view_setWideCell_ne h.grid cell hi) rfl hnext hs i
    · rw [if_pos (by omega), if_neg (fun hall => hin hall.1)]
      exact hs i
  | clear => exact sound_marked rfl i
  | scrollUp n =>
    unfold moveOrigins DamagedGrid.apply DamagedGrid.scrollUp
    dsimp only
    split
    next => exact hs i
    next hn =>
      by_cases hi : i < g.rows - min n g.rows
      · -- a row that moved up
        have hsame : rowAt ⟨g.toCellGrid.scrollUp n, (g.scrollLines g.lineDamage (min n g.rows)).mapIdx fun row d =>
            if row < g.rows - min n g.rows then d else d.markRange 0 (lastColU16 g.cols)⟩
            (g.scrollLines origins (min n g.rows)) i = g.rowAt origins (i + min n g.rows) := by
          rw [rowAt, rowAt, (CellGrid.scrollUp_spec h.grid hn).2 i hi, List.getElem?_mapIdx,
            CellGrid.getElem?_scrollLines h.lineDamage hi, CellGrid.getElem?_scrollLines ho hi]
          simp [hi]
        rw [hsame]
        exact hs _
      · apply GridRow.sound_of_damaged
        intro d hd
        rw [rowAt, List.getElem?_mapIdx] at hd
        obtain ⟨d', -, rfl⟩ := Option.map_eq_some_iff.mp hd
        rw [if_neg hi]
        exact LineDamage.markRange_zero
  | resize rows cols =>
    unfold moveOrigins DamagedGrid.apply DamagedGrid.resize
    dsimp only
    split
    · exact hs i
    · exact sound_marked rfl i
  | shiftRows dst src count =>
    have hsame : (g.apply (.shiftRows dst src count)).rowAt (g.moveOrigins origins (.shiftRows dst src count)) i =
        g.rowAt origins (g.movedFrom dst src count i) := by
      simp only [rowAt, DamagedGrid.apply, DamagedGrid.shiftRows, moveOrigins, CellGrid.view_shiftRows h.grid,
        CellGrid.getElem?_shiftLines h.lineDamage, CellGrid.getElem?_shiftLines ho]
    rw [hsame]
    exact hs _
  | resetLineIdentity row =>
    unfold moveOrigins DamagedGrid.apply DamagedGrid.resetLineIdentity
    dsimp only
    split
    · exact hs i
    · exact sound_write 0 (fun i _ => by rw [CellGrid.view_resetLineIdentity]) rfl
        (fun _ => UInt16.le_iff_toNat_le.mpr (Nat.zero_le _)) hs i
  | insertOverscanRowTop cells lineId =>
    cases i with
    | zero => exact GridRow.sound_of_unknown (fun j hj => by cases hj)
    | succ i =>
      have hsame : (g.apply (.insertOverscanRowTop cells lineId)).rowAt
          (g.moveOrigins origins (.insertOverscanRowTop cells lineId)) (i + 1) = g.rowAt origins i := by
        have hview : (g.toCellGrid.insertOverscanRowTop cells lineId).view (i + 1) = g.view i := by
          funext c
          rw [CellGrid.view_insertOverscanRowTop]
          exact Picture.stack_below
        exact congrArg (GridRow.mk · g.lineDamage[i]? origins[i]?) hview
      rw [hsame]
      exact hs i
  | clearDirty =>
    intro d hd _ j hj
    -- a row whose origin is still known was clean before
    obtain ⟨o, d', ho', hd', heq⟩ := List.getElem?_zipWith_eq_some.mp hj
    split at heq
    next hclean =>
      subst heq
      exact hs i d' hd' hclean j ho'
    next => cases heq
  | markAllDirty => exact sound_marked rfl i
  | setCursor row col => exact hs i
  | setCursorVisible visible => exact hs i

end DamagedGrid

end TerminalManager.Ui
