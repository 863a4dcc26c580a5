import TerminalManager.Ui.AbsLines

/-!
# What is displayed

`display_grid` builds the grid that is drawn: a row above the viewport, for positions between two rows, and the
viewport.  At the live bottom it is a clone of the screen with a row put in, elsewhere it is composed from the
scrollback and the screen.  Selection and hit testing go by absolute lines (`cellAtAbs`).

* `displayGrid`, `topAbsLine`   as in the source;
* `composed_shows`        what the second way shows;
* `live_shows`            and that they agree at the live bottom;
* `displayGrid_shows`     **main result**: whichever way, each cell is that of the line it stands for.

The rows that are declared as overscan and the offset in pixels are paint state, like the damage of the rows.
-/

set_option linter.unusedSectionVars false

namespace TerminalManager.Ui
open Loops Slice Term F32

def overscanLineIdNamespace : UInt64 := (1 : UInt64) <<< 63

namespace Terminal

variable {F : Type} [F32 F] {t : Terminal F}

/-- the cells that there are, written into a row of the view -/
def composeRow (view : CellGrid) (row cols : Nat) (cells : Nat → Option Cell) : CellGrid :=
  iter 0 cols (fun view col => match cells col with
    | some cell => view.setCell row col cell
    | none => view) view

/-- one display row of the scrolled view, `base` is the line at the top of the viewport -/
def composeLine (t : Terminal F) (base : Nat) (view : CellGrid) (displayRow : Nat) : CellGrid :=
  let sbLen := t.scrollback.length
  if base + displayRow = 0 then view
  else
    let virtualLine := base + displayRow - 1
    if virtualLine < sbLen then
      let sbRow := t.scrollback[virtualLine]?.getD []
      composeRow view displayRow t.cols fun col => sbRow[col]?
    else
      let screenRow := virtualLine - sbLen
      if screenRow < t.rows then composeRow view displayRow t.cols fun col => t.grid.getCell screenRow col
      else view

/-- the scrolled view: the cells of the scrollback and of the upper part of the screen -/
def composedGrid (t : Terminal F) (offset : Nat) : CellGrid :=
  (iter 0 (t.rows + 1) (t.composeLine (t.scrollback.length - offset)) (.new (t.rows + 1) t.cols)).setCursorVisible false

def displayGrid (t : Terminal F) : CellGrid :=
  let (offset, fraction) := t.fractionalViewPosition
  if offset = 0 ∧ eq fraction zero then
    match t.scrollback.getLast? with
    | some row => t.grid.insertOverscanRowTop (some row)
        (overscanLineIdNamespace ||| UInt64.ofNat (t.evictedLines + t.scrollback.length - 1))
    | none => t.grid.insertOverscanRowTop none overscanLineIdNamespace
  else t.composedGrid offset

/-- the line at the top of the viewport, below the overscan row -/
def topAbsLine (t : Terminal F) : Nat :=
  let (offset, _) := t.fractionalViewPosition
  t.evictedLines + (t.scrollback.length - offset)

/-- the cell of the line that display row `d` stands for, empty when there is no such line or the line is shorter -/
def cellShown (t : Terminal F) (d c : Nat) : Cell :=
  (if t.topAbsLine + d = 0 then none else t.cellAtAbs (t.topAbsLine + d - 1) c).getD .empty

variable {view : CellGrid} {rows cols : Nat}

/-- a row of empty cells with cells written over it -/
lemma composeRow_spec (h : view.Sized rows cols) {row : Nat} (hr : row < rows) (cells : Nat → Option Cell)
    (hblank : ∀ c, c < cols → view.view row c = some .empty) :
    (composeRow view row cols cells).Sized rows cols ∧ ∀ i j, (composeRow view row cols cells).view i j =
      if i = row ∧ j < cols then some ((cells j).getD .empty) else view.view i j := by
  obtain ⟨hsized, hview⟩ := iter_rule (a := 0) (b := cols) (s := view)
    (g := fun view col => match cells col with
      | some cell => CellGrid.setCell view row col cell
      | none => view)
    (P := fun c g => g.Sized rows cols ∧
      ∀ i j, g.view i j = if i = row ∧ j < c then some ((cells j).getD .empty) else view.view i j)
    ⟨h, fun i j => by rw [if_neg (by omega)]⟩ (by
      intro c g _ hc ⟨hsized, hview⟩
      cases hcell : cells c with
      | none =>
        refine ⟨hsized, fun i j => ?_⟩
        dsimp only
        rw [hview]
        by_cases hij : i = row ∧ j = c
        · obtain ⟨rfl, rfl⟩ := hij
          rw [if_neg (by omega), if_pos (by omega), hcell, hblank j hc]
          rfl
        · congr 1
          exact propext (by omega)
      | some cell =>
        refine ⟨hsized.setCell row c cell, fun i j => ?_⟩
        dsimp only
        rw [CellGrid.view_setCell hsized.wellFormed, Picture.fill, hview]
        by_cases hij : i = row ∧ j = c
        · obtain ⟨rfl, rfl⟩ := hij
          rw [if_pos (by omega), if_neg (by omega), if_pos (by omega), hblank j hc, hcell]
          rfl
        · rw [if_neg (by omega)]
          congr 1
          exact propext (by omega))
  refine ⟨hsized, fun i j => ?_⟩
  rw [show (composeRow view row cols cells).view i j = _ from hview i j, Nat.max_eq_right (Nat.zero_le _)]

/-- the cell that the composed view has in display row `d` -/
def composedCell (t : Terminal F) (base d c : Nat) : Cell :=
  if base + d = 0 then .empty else t.lineCell (base + d - 1) c

/-- one row of it, written over empty cells -/
lemma composeLine_spec (base : Nat) {row : Nat} (hb : base ≤ t.scrollback.length) (hr : row < t.rows + 1)
    (h : view.Sized (t.rows + 1) t.cols) (hblank : ∀ c, c < t.cols → view.view row c = some .empty) :
    (t.composeLine base view row).Sized (t.rows + 1) t.cols ∧ ∀ i j, j < t.cols →
      (t.composeLine base view row).view i j = if i = row then some (t.composedCell base row j) else view.view i j := by
  unfold composeLine composedCell
  dsimp only
  have hrow : ∀ cells : Nat → Option Cell, (∀ j < t.cols, (cells j).getD .empty = t.lineCell (base + row - 1) j) →
      (composeRow view row t.cols cells).Sized (t.rows + 1) t.cols ∧ ∀ i j, j < t.cols →
        (composeRow view row t.cols cells).view i j
          = if i = row then some (t.lineCell (base + row - 1) j) else view.view i j := by
    intro cells hcells
    obtain ⟨hsized, hview⟩ := composeRow_spec h hr cells hblank
    refine ⟨hsized, fun i j hj => ?_⟩
    rw [hview]
    by_cases hi : i = row
    · rw [if_pos ⟨hi, hj⟩, if_pos hi, hcells j hj]
    · rw [if_neg fun hx => hi hx.1, if_neg hi]
  split
  next hzero =>
    refine ⟨h, fun i j hj => ?_⟩
    split
    next hi => rw [hi, hblank j hj]
    next => rfl
  split
  next hlt =>
    refine hrow _ fun j hj => ?_
    rw [lineCell, if_pos hlt]
  next hge =>
    rw [if_pos (show base + row - 1 - t.scrollback.length < t.rows by omega)]
    refine hrow _ fun j hj => ?_
    rw [lineCell, if_neg hge]
    rfl

/-- the composed view shows the buffer from the line above the viewport on -/
theorem composed_shows (t : Terminal F) (offset : Nat) : (t.composedGrid offset).Sized (t.rows + 1) t.cols ∧
    ∀ d < t.rows + 1, ∀ c < t.cols,
      (t.composedGrid offset).getCell d c = some (t.composedCell (t.scrollback.length - offset) d c) := by
  obtain ⟨base, hbase⟩ : ∃ base, base = t.scrollback.length - offset := ⟨_, rfl⟩
  unfold composedGrid
  rw [← hbase]
  obtain ⟨hsized, hview⟩ := iter_rule (a := 0) (b := t.rows + 1) (s := CellGrid.new (t.rows + 1) t.cols)
    (g := t.composeLine base)
    (P := fun r g => g.Sized (t.rows + 1) t.cols ∧ ∀ d < t.rows + 1, ∀ c < t.cols,
      g.view d c = some (if d < r then t.composedCell base d c else .empty))
    ⟨CellGrid.sized_new _ _, fun d hd c hc => by
      rw [CellGrid.view_new, Picture.resize, if_pos ⟨hd, hc⟩, if_neg (Nat.not_lt_zero d)]
      rfl⟩ (by
      rintro r g - hr ⟨hsized, hview⟩
      obtain ⟨hsized', hview'⟩ := composeLine_spec base (by omega) hr hsized fun c hc => by
        rw [hview r hr c hc, if_neg (Nat.lt_irrefl r)]
      refine ⟨hsized', fun d hd c hc => ?_⟩
      rw [hview' d c hc]
      by_cases hdr : d = r
      · rw [if_pos hdr, if_pos (by omega), hdr]
      · rw [if_neg hdr, hview d hd c hc]
        congr 2
        exact propext (by omega))
  refine ⟨hsized.setCursorVisible false, fun d hd c hc => ?_⟩
  refine (hview d hd c hc).trans ?_
  rw [if_pos (by omega)]

/-- a display row of the composed view stands for the line at `topAbsLine + d - 1` -/
lemma cellShown_eq (h : t.Sound) {offset : Nat} (hoffset : offset = t.fractionalViewPosition.1) {d c : Nat}
    (hc : c < t.cols) : t.cellShown d c = t.composedCell (t.scrollback.length - offset) d c := by
  have htop : t.topAbsLine = t.evictedLines + (t.scrollback.length - offset) := by
    rw [hoffset]
    rfl
  unfold cellShown composedCell
  rw [htop]
  obtain ⟨base, hbase⟩ : ∃ base, base = t.scrollback.length - offset := ⟨_, rfl⟩
  rw [← hbase]
  by_cases hzero : base + d = 0
  · rw [if_pos hzero]
    split
    · rfl
    · -- the line above the oldest one is gone
      unfold cellAtAbs
      rw [if_pos (by omega)]
      rfl
  · rw [if_neg hzero, if_neg (by omega), show t.evictedLines + base + d - 1 = t.evictedLines + (base + d - 1) by omega,
      cellAtAbs_eq h hc]

/-- at the live bottom the clone with a row put in shows what the composed view would -/
lemma live_shows (h : t.Sound) (lineId : UInt64) {d c : Nat} (hd : d < t.rows + 1) (hc : c < t.cols) :
    (t.grid.insertOverscanRowTop t.scrollback.getLast? lineId).getCell d c
      = some (t.composedCell t.scrollback.length d c) := by
  show (t.grid.insertOverscanRowTop t.scrollback.getLast? lineId).view d c = _
  rw [CellGrid.view_insertOverscanRowTop, h.grid.cols, Picture.stack, List.length_singleton]
  unfold composedCell
  by_cases hzero : d < 1
  · obtain rfl : d = 0 := by omega
    rw [if_pos hzero, Picture.line, if_pos hc, List.getLast?_eq_getElem?]
    split
    next hnone => rw [List.length_eq_zero_iff.mp (show t.scrollback.length = 0 by omega)]; rfl
    next hsome =>
      rw [lineCell, if_pos (by omega)]
      rfl
  · obtain ⟨x, hx⟩ := h.grid.shape.some (show d - 1 < t.rows by omega) hc
    rw [if_neg hzero, if_neg (by omega), lineCell, if_neg (by omega),
      show t.scrollback.length + d - 1 - t.scrollback.length = d - 1 by omega, hx]
    rfl

/-- **Main result.** Whatever the scroll position, the displayed grid has a row more than the screen, and each of
its cells is that of the absolute line it stands for, or empty where there is none. -/
theorem displayGrid_shows (h : t.Sound) : t.displayGrid.rows = t.rows + 1 ∧ t.displayGrid.cols = t.cols ∧
    ∀ d < t.rows + 1, ∀ c < t.cols, t.displayGrid.getCell d c = some (t.cellShown d c) := by
  by_cases hlive : t.fractionalViewPosition.1 = 0 ∧ eq t.fractionalViewPosition.2 zero
  · have hclone : ∃ lineId, t.displayGrid = t.grid.insertOverscanRowTop t.scrollback.getLast? lineId := by
      unfold displayGrid
      dsimp only
      rw [if_pos hlive]
      cases t.scrollback.getLast? with
      | some row => exact ⟨_, rfl⟩
      | none => exact ⟨_, rfl⟩
    obtain ⟨lineId, hclone⟩ := hclone
    rw [hclone]
    refine ⟨congrArg (· + 1) h.grid.rows, h.grid.cols, fun d hd c hc => ?_⟩
    rw [live_shows h lineId hd hc, cellShown_eq h hlive.1.symm hc, Nat.sub_zero]
  · have hcomposed : t.displayGrid = t.composedGrid t.fractionalViewPosition.1 := by
      unfold displayGrid
      dsimp only
      rw [if_neg hlive]
    obtain ⟨hsized, hshows⟩ := composed_shows t t.fractionalViewPosition.1
    rw [hcomposed]
    refine ⟨hsized.rows, hsized.cols, fun d hd c hc => ?_⟩
    rw [hshows d hd c hc, cellShown_eq h rfl hc]

/-- a new terminal of two rows shows three of them, the last column of the last one as addressed -/
theorem displayGrid_new : (@displayGrid ℚ exactF32 (@new ℚ exactF32 false 2 2)).rows = 3
    ∧ (@displayGrid ℚ exactF32 (@new ℚ exactF32 false 2 2)).getCell 2 1
      = some (@cellShown ℚ exactF32 (@new ℚ exactF32 false 2 2) 2 1) := by
  obtain ⟨hrows, -, hshows⟩ := @displayGrid_shows ℚ exactF32 _ (@sound_new ℚ exactF32 false 2 2)
  exact ⟨hrows, hshows 2 (by decide) 1 (by decide)⟩

end Terminal
end TerminalManager.Ui
