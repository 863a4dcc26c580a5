import TerminalManager.Ui.Terminal

/-!
# What the operations of the UI's emulator do to the picture

The same picture operations as for the daemon's emulator, reached with the framework's grid.

* `Redrawn t u p`      `u` is the terminal `t` with other cells, that show `p`;
* `clearRow_redrawn`, `shiftRows_redrawn`, `clearRegion_redrawn`   the primitives;
* `scrollUp_spec`, `scrollDown_redrawn`   the scroll region moves one row, a blank row comes in, and
  what leaves at the top of the main screen goes to the scrollback;
* `insertLines_redrawn`, `deleteLines_redrawn`, `insertChars_redrawn`, …   the control sequences;
* `growRows_spec`, `shrinkRows_spec`, `resizeGrids_spec`, `settle_eq`   the parts of a resize.
-/

set_option linter.unusedSectionVars false

namespace TerminalManager.Ui
open Loops Slice Term

namespace CellGrid

/-- a well-formed grid of the size `rows` by `cols` -/
structure Sized (g : CellGrid) (rows cols : Nat) : Prop where
  wellFormed : g.WellFormed
  rows : g.rows = rows
  cols : g.cols = cols

variable {g : CellGrid} {rows cols : Nat}

lemma Sized.shape (h : g.Sized rows cols) : Picture.Shape rows cols g.view := by
  have := h.wellFormed.shape
  rwa [h.rows, h.cols] at this

lemma sized_new (rows cols : Nat) : (new rows cols).Sized rows cols := ⟨wellFormed_new rows cols, rfl, rfl⟩

lemma Sized.setCursor (h : g.Sized rows cols) (row col : Nat) : (g.setCursor row col).Sized rows cols :=
  ⟨⟨h.wellFormed.length, h.wellFormed.lineIds⟩, h.rows, h.cols⟩

lemma Sized.setCursorVisible (h : g.Sized rows cols) (on : Bool) : (g.setCursorVisible on).Sized rows cols :=
  ⟨⟨h.wellFormed.length, h.wellFormed.lineIds⟩, h.rows, h.cols⟩

@[simp] lemma view_setCursor (row col : Nat) : (g.setCursor row col).view = g.view := rfl

@[simp] lemma view_setCursorVisible (on : Bool) : (g.setCursorVisible on).view = g.view := rfl

lemma Sized.setCell (h : g.Sized rows cols) (r c : Nat) (x : Cell) : (g.setCell r c x).Sized rows cols :=
  ⟨h.wellFormed.setCell, rows_setCell.trans h.rows, cols_setCell.trans h.cols⟩

lemma Sized.resetLineIdentity (h : g.Sized rows cols) (r : Nat) : (g.resetLineIdentity r).Sized rows cols :=
  ⟨h.wellFormed.resetLineIdentity, rows_resetLineIdentity.trans h.rows, cols_resetLineIdentity.trans h.cols⟩

lemma Sized.shiftRows (h : g.Sized rows cols) (dst src n : Nat) (hd : dst + n ≤ rows) (hs : src + n ≤ rows) :
    (g.shiftRows dst src n).Sized rows cols ∧
      (g.shiftRows dst src n).view = Picture.moveRows dst src n g.view := by
  obtain ⟨hwf, hview⟩ := shiftRows_spec h.wellFormed (h.rows ▸ hd) (h.rows ▸ hs)
  exact ⟨⟨hwf, rows_shiftRows.trans h.rows, cols_shiftRows.trans h.cols⟩, hview⟩

lemma WellFormed.resize (h : g.WellFormed) (rows cols : Nat) : (g.resize rows cols).Sized rows cols :=
  ⟨(resize_spec h rows cols).1, rows_resize, cols_resize⟩

/-- a loop that writes one cell after the other into a row -/
lemma fillRow_spec (h : g.Sized rows cols) (r c c' : Nat) (x : Cell) :
    (iter c c' (fun g col => g.setCell r col x) g).Sized rows cols ∧
      (iter c c' (fun g col => g.setCell r col x) g).view = Picture.fill r (r + 1) c c' x g.view := by
  obtain ⟨hsized, hview⟩ := iter_rule (a := c) (b := c') (g := fun g col => setCell g r col x)
    (P := fun i g' => g'.Sized rows cols ∧ g'.view = Picture.fill r (r + 1) c i x g.view)
    ⟨h, (Picture.fill_none_cols (Nat.le_refl c)).symm⟩ (by
      intro i g' hi _ ⟨hsized, hview⟩
      refine ⟨hsized.setCell r i x, ?_⟩
      rw [view_setCell hsized.wellFormed, hview, Picture.fill_col_succ hi])
  refine ⟨hsized, hview.trans ?_⟩
  by_cases hc : c ≤ c'
  · rw [Nat.max_eq_right hc]
  · rw [Nat.max_eq_left (by omega), Picture.fill_none_cols (Nat.le_refl c), Picture.fill_none_cols (by omega)]

/-- a loop over such rows -/
lemma fillRows_spec (h : g.Sized rows cols) (r r' c c' : Nat) (x : Cell) :
    (iter r r' (fun g r => iter c c' (fun g col => g.setCell r col x) g) g).Sized rows cols ∧
      (iter r r' (fun g r => iter c c' (fun g col => g.setCell r col x) g) g).view
        = Picture.fill r r' c c' x g.view := by
  obtain ⟨hsized, hview⟩ := iter_rule (a := r) (b := r')
    (g := fun g r => iter c c' (fun g col => setCell g r col x) g)
    (P := fun i g' => g'.Sized rows cols ∧ g'.view = Picture.fill r i c c' x g.view)
    ⟨h, (Picture.fill_none_rows (Nat.le_refl r)).symm⟩ (by
      intro i g' hi _ ⟨hsized, hview⟩
      obtain ⟨hsized', hview'⟩ := fillRow_spec hsized i c c' x
      refine ⟨hsized', ?_⟩
      rw [hview', hview, Picture.fill_row_succ hi])
  refine ⟨hsized, hview.trans ?_⟩
  by_cases hr : r ≤ r'
  · rw [Nat.max_eq_right hr]
  · rw [Nat.max_eq_left (by omega), Picture.fill_none_rows (Nat.le_refl r), Picture.fill_none_rows (by omega)]

end CellGrid

namespace Terminal

variable {F : Type} [F32 F] {t u v : Terminal F} {p q : Picture Cell}

/-- `u` is `t` with cells that show `p` -/
def Redrawn (t u : Terminal F) (p : Picture Cell) : Prop :=
  ∃ grid : CellGrid, u = { t with grid } ∧ grid.Sized t.rows t.cols ∧ grid.view = p

abbrev Fits (t : Terminal F) : Prop := t.grid.Sized t.rows t.cols

lemma Fits.self (h : t.Fits) : Redrawn t t t.grid.view := ⟨t.grid, rfl, h, rfl⟩

lemma Redrawn.fits (h : Redrawn t u p) : u.Fits := by
  obtain ⟨grid, rfl, hsized, -⟩ := h
  exact hsized

/-- a loop of operations that only redraw -/
lemma redrawn_iter {a b : Nat} {f : Terminal F → Nat → Terminal F} {P : Nat → Picture Cell}
    (hab : a ≤ b) (h : t.Fits) (h₀ : t.grid.view = P a)
    (hstep : ∀ i, a ≤ i → i < b → ∀ grid : CellGrid, grid.Sized t.rows t.cols → grid.view = P i →
      Redrawn { t with grid } (f { t with grid } i) (P (i + 1))) :
    Redrawn t (iter a b f t) (P b) := by
  obtain ⟨grid, heq, hsized, hview⟩ := iter_rule (b := b) (g := f)
    (P := fun i u => ∃ grid : CellGrid, u = { t with grid } ∧ grid.Sized t.rows t.cols ∧ grid.view = P i)
    ⟨t.grid, rfl, h, h₀⟩ (by
      rintro i _ ha hb ⟨grid, rfl, hsized, hview⟩
      obtain ⟨grid', heq, hsized', hview'⟩ := hstep i ha hb grid hsized hview
      exact ⟨grid', heq, hsized', hview'⟩)
  rw [Nat.max_eq_right hab] at hview
  exact ⟨grid, heq, hsized, hview⟩

/-! ## primitives -/

theorem clearRow_redrawn (h : t.Fits) (r : Nat) :
    Redrawn t (t.clearRow r) (Picture.fill r (r + 1) 0 t.cols t.erased t.grid.view) := by
  obtain ⟨hsized, hview⟩ := CellGrid.fillRow_spec h r 0 t.cols t.erased
  exact ⟨_, rfl, hsized.resetLineIdentity r, CellGrid.view_resetLineIdentity.trans hview⟩

/-- blank rows `[r, r')` one after the other -/
theorem clearRows_redrawn (h : t.Fits) {r r' : Nat} (hr : r ≤ r') :
    Redrawn t (iter r r' (fun t r => t.clearRow r) t) (Picture.fill r r' 0 t.cols t.erased t.grid.view) := by
  refine redrawn_iter (P := fun i => Picture.fill r i 0 t.cols t.erased t.grid.view) hr h
    (Picture.fill_none_rows (Nat.le_refl r)).symm fun i hi _ grid hsized hview => ?_
  have := clearRow_redrawn (t := { t with grid }) hsized i
  rwa [hview, show Terminal.erased { t with grid } = t.erased from rfl, Picture.fill_row_succ hi] at this

theorem shiftRows_redrawn (h : t.Fits) (dst src n : Nat) (hd : dst + n ≤ t.rows) (hs : src + n ≤ t.rows) :
    Redrawn t (t.shiftRows dst src n) (Picture.moveRows dst src n t.grid.view) := by
  obtain ⟨hsized, hview⟩ := h.shiftRows dst src n hd hs
  exact ⟨_, rfl, hsized, hview⟩

/-- no rows need no shift -/
lemma shiftRows_if_redrawn (h : t.Fits) (dst src n : Nat) (hd : dst + n ≤ t.rows) (hs : src + n ≤ t.rows) :
    Redrawn t (if n > 0 then t.shiftRows dst src n else t) (Picture.moveRows dst src n t.grid.view) := by
  split
  · exact shiftRows_redrawn h dst src n hd hs
  next hzero =>
    obtain rfl : n = 0 := by omega
    rw [Picture.moveRows_zero]
    exact h.self

/-- the cells of the inclusive rectangle, clipped to the grid -/
theorem clearRegion_redrawn (h : t.Fits) (r c r' c' : Nat) :
    Redrawn t (t.clearRegion r c r' c') (Picture.fill r (min r' (t.rows - 1) + 1) c
      (min c' (t.cols - 1) + 1) t.erased t.grid.view) := by
  obtain ⟨hsized, hview⟩ := CellGrid.fillRows_spec h r (min r' (t.rows - 1) + 1) c
    (min c' (t.cols - 1) + 1) t.erased
  exact ⟨_, rfl, hsized, hview⟩

theorem blankCells_redrawn {g : CellGrid} (hg : g.Sized t.rows t.cols) (c c' : Nat) :
    Redrawn t (t.blankCells c c' g) (Picture.fill t.cursorRow (t.cursorRow + 1) c c' t.erased g.view) := by
  obtain ⟨hsized, hview⟩ := CellGrid.fillRow_spec hg t.cursorRow c c' t.erased
  exact ⟨_, rfl, hsized, hview⟩

/-! ## scrolling -/

/-- a row of the grid as a line is what it shows -/
lemma rowCells_eq (h : t.Fits) {row : Nat} (hr : row < t.rows) :
    t.rowCells row = Picture.row t.cols t.grid.view row := by
  apply h.shape.row_eq hr
  intro j
  rw [rowCells, List.getElem?_map]
  by_cases hj : j < t.cols
  · obtain ⟨x, hx⟩ := h.shape.some hr hj
    rw [List.getElem?_range hj, hx]
    show some ((t.grid.view row j).getD Cell.empty) = _
    rw [hx]
    rfl
  · rw [List.getElem?_eq_none (by rw [List.length_range]; omega), h.shape.none (by omega)]
    rfl

/-- the scroll region is a part of the screen -/
def Region (t : Terminal F) : Prop := t.scrollTop < t.scrollBot ∧ t.scrollBot ≤ t.rows

/-- how many lines leave the scrollback when one more comes in -/
def overflow (lines : List (List Cell)) : Nat := if lines.length ≥ maxScrollback then 1 else 0

lemma pushLine_eq (lines : List (List Cell)) (line : List Cell) :
    pushLine lines line = (lines ++ [line]).drop (overflow lines) := by
  unfold pushLine overflow
  dsimp only
  rw [List.length_append, List.length_singleton]
  split
  · rw [if_pos (by omega)]
  · rw [if_neg (by omega)]
    rfl

/-- the captured line goes to the scrollback, the rest is the view -/
lemma captureTop_eq : ∃ scrollOffset scrollAnim, t.captureTop = { t with
    scrollback := pushLine t.scrollback (t.rowCells t.scrollTop)
    evictedLines := t.evictedLines + overflow t.scrollback
    scrollOffset, scrollAnim } := by
  obtain ⟨w, hw⟩ : ∃ w : Terminal F, w = { t with
      scrollback := pushLine t.scrollback (t.rowCells t.scrollTop)
      evictedLines := t.evictedLines + overflow t.scrollback } := ⟨_, rfl⟩
  have hin : (if (t.scrollback ++ [t.rowCells t.scrollTop]).length > maxScrollback then
        { t with scrollback := (t.scrollback ++ [t.rowCells t.scrollTop]).drop 1, evictedLines := t.evictedLines + 1 }
      else { t with scrollback := t.scrollback ++ [t.rowCells t.scrollTop] }) = w := by
    rw [hw, pushLine_eq]
    unfold overflow
    rw [List.length_append, List.length_singleton]
    split
    · rw [if_pos (by omega)]
    · rw [if_neg (by omega)]
      rfl
  unfold captureTop
  dsimp only
  rw [hin]
  subst hw
  split
  · exact ⟨_, _, rfl⟩
  · exact ⟨_, _, rfl⟩

/-- the rows of a region one up, the last one blanked -/
lemma scrollRegion_redrawn (h : t.Fits) (hr : t.Region) : Redrawn t
    (clearRow (if t.scrollBot - t.scrollTop - 1 > 0 then
      t.shiftRows t.scrollTop (t.scrollTop + 1) (t.scrollBot - t.scrollTop - 1) else t) (t.scrollBot - 1))
    (Picture.fill (t.scrollBot - 1) t.scrollBot 0 t.cols t.erased
      (Picture.moveRows t.scrollTop (t.scrollTop + 1) (t.scrollBot - t.scrollTop - 1) t.grid.view)) := by
  obtain ⟨htop, hbot⟩ := hr
  obtain ⟨grid, heq, hsized, hview⟩ := shiftRows_if_redrawn h t.scrollTop (t.scrollTop + 1)
    (t.scrollBot - t.scrollTop - 1) (by omega) (by omega)
  rw [heq]
  have := clearRow_redrawn (t := { t with grid }) hsized (t.scrollBot - 1)
  rwa [hview, Nat.sub_add_cancel (by omega)] at this

theorem scrollUp_spec (h : t.Fits) (hr : t.Region) : ∃ (grid : CellGrid) (scrollOffset : Nat)
    (scrollAnim : Option (ScrollMotion F)), t.scrollUp = { t with
      grid, scrollOffset, scrollAnim
      scrollback := if t.scrollTop = 0 ∧ t.altGrid.isNone then
        pushLine t.scrollback (Picture.row t.cols t.grid.view 0) else t.scrollback
      evictedLines := if t.scrollTop = 0 ∧ t.altGrid.isNone then
        t.evictedLines + overflow t.scrollback else t.evictedLines } ∧
    grid.Sized t.rows t.cols ∧ grid.view = Picture.fill (t.scrollBot - 1) t.scrollBot 0 t.cols t.erased
      (Picture.moveRows t.scrollTop (t.scrollTop + 1) (t.scrollBot - t.scrollTop - 1) t.grid.view) := by
  obtain ⟨htop, hbot⟩ := hr
  unfold scrollUp
  rw [if_neg (by omega)]
  dsimp only
  by_cases hcap : t.scrollTop = 0 ∧ t.altGrid.isNone = true
  · obtain ⟨scrollOffset, scrollAnim, heq⟩ := captureTop_eq (t := t)
    have hline : t.rowCells t.scrollTop = Picture.row t.cols t.grid.view 0 := by
      rw [rowCells_eq h (by omega), hcap.1]
    rw [if_pos hcap, if_pos hcap, if_pos hcap, heq, hline]
    obtain ⟨grid, heq', hsized, hview⟩ := scrollRegion_redrawn (t := { t with
      scrollback := pushLine t.scrollback (Picture.row t.cols t.grid.view 0)
      evictedLines := t.evictedLines + overflow t.scrollback
      scrollOffset, scrollAnim }) h ⟨htop, hbot⟩
    exact ⟨grid, scrollOffset, scrollAnim, heq', hsized, hview⟩
  · rw [if_neg hcap, if_neg hcap, if_neg hcap]
    obtain ⟨grid, heq, hsized, hview⟩ := scrollRegion_redrawn h ⟨htop, hbot⟩
    exact ⟨grid, t.scrollOffset, t.scrollAnim, heq, hsized, hview⟩

theorem scrollDown_redrawn (h : t.Fits) (hr : t.Region) : Redrawn t t.scrollDown
    (Picture.fill t.scrollTop (t.scrollTop + 1) 0 t.cols t.erased
      (Picture.moveRows (t.scrollTop + 1) t.scrollTop (t.scrollBot - t.scrollTop - 1) t.grid.view)) := by
  obtain ⟨htop, hbot⟩ := hr
  unfold scrollDown
  rw [if_neg (by omega)]
  dsimp only
  obtain ⟨grid, heq, hsized, hview⟩ := shiftRows_if_redrawn h (t.scrollTop + 1) t.scrollTop
    (t.scrollBot - t.scrollTop - 1) (by omega) (by omega)
  rw [heq]
  have := clearRow_redrawn (t := { t with grid }) hsized t.scrollTop
  rwa [hview] at this

/-! ## lines and characters -/

/-- the rows from `row` on to the end of the region move down by `n`, blank rows come in -/
theorem insertLines_redrawn (h : t.Fits) (hb : t.scrollBot ≤ t.rows) (n : Nat) :
    Redrawn t (t.insertLines n) (if t.scrollTop ≤ t.cursorRow ∧ t.cursorRow < t.scrollBot then
      Picture.fill t.cursorRow (t.cursorRow + min n (t.scrollBot - t.cursorRow)) 0 t.cols t.erased
        (Picture.moveRows (t.cursorRow + min n (t.scrollBot - t.cursorRow)) t.cursorRow
          (t.scrollBot - (t.cursorRow + min n (t.scrollBot - t.cursorRow))) t.grid.view)
      else t.grid.view) := by
  unfold insertLines
  dsimp only
  by_cases hin : t.scrollTop ≤ t.cursorRow ∧ t.cursorRow < t.scrollBot
  case neg =>
    rw [if_pos (by omega), if_neg hin]
    exact h.self
  rw [if_neg (by omega), if_pos hin]
  obtain ⟨m, hm⟩ : ∃ m, m = min n (t.scrollBot - t.cursorRow) := ⟨_, rfl⟩
  rw [← hm]
  split
  next hpos =>
    obtain ⟨grid, heq, hsized, hview⟩ := shiftRows_if_redrawn h (t.cursorRow + m) t.cursorRow
      (t.scrollBot - (t.cursorRow + m)) (by omega) (by omega)
    rw [heq]
    have := clearRows_redrawn (t := { t with grid }) hsized (show t.cursorRow ≤ t.cursorRow + m by omega)
    rwa [hview] at this
  next hzero =>
    obtain rfl : m = 0 := by omega
    have hself := h.self
    rwa [Picture.fill_none_rows (by omega), Nat.add_zero, Picture.moveRows_self]

/-- the rows below the cursor move up by `n` inside the region, blank rows come in at its end -/
theorem deleteLines_redrawn (h : t.Fits) (hb : t.scrollBot ≤ t.rows) (n : Nat) :
    Redrawn t (t.deleteLines n) (if t.scrollTop ≤ t.cursorRow ∧ t.cursorRow < t.scrollBot then
      Picture.fill (t.scrollBot - min n (t.scrollBot - t.cursorRow)) t.scrollBot 0 t.cols t.erased
        (Picture.moveRows t.cursorRow (t.cursorRow + min n (t.scrollBot - t.cursorRow))
          (t.scrollBot - min n (t.scrollBot - t.cursorRow) - t.cursorRow) t.grid.view)
      else t.grid.view) := by
  unfold deleteLines
  dsimp only
  by_cases hin : t.scrollTop ≤ t.cursorRow ∧ t.cursorRow < t.scrollBot
  case neg =>
    rw [if_pos (by omega), if_neg hin]
    exact h.self
  rw [if_neg (by omega), if_pos hin]
  obtain ⟨m, hm⟩ : ∃ m, m = min n (t.scrollBot - t.cursorRow) := ⟨_, rfl⟩
  rw [← hm, show t.scrollBot - m - t.cursorRow = t.scrollBot - (t.cursorRow + m) by omega]
  split
  next hpos =>
    obtain ⟨grid, heq, hsized, hview⟩ := shiftRows_if_redrawn h t.cursorRow (t.cursorRow + m)
      (t.scrollBot - (t.cursorRow + m)) (by omega) (by omega)
    rw [heq]
    have := clearRows_redrawn (t := { t with grid }) hsized (show t.scrollBot - m ≤ t.scrollBot by omega)
    rwa [hview] at this
  next hzero =>
    obtain rfl : m = 0 := by omega
    have hself := h.self
    rwa [Picture.fill_none_rows (by omega), Nat.add_zero, Picture.moveRows_self]

/-- one turn of a loop that copies a cell inside a row -/
private lemma copyCell_view {g : CellGrid} (hg : g.Sized t.rows t.cols) (row dst src : Nat) (hd : dst < t.cols)
    (hs : src < t.cols) : (copyCell g row dst src).Sized t.rows t.cols ∧
      (copyCell g row dst src).view = Picture.moveCells row dst src 1 g.view := by
  unfold copyCell
  by_cases hr : row < t.rows
  · obtain ⟨x, hx⟩ := hg.shape.some hr hs
    obtain ⟨y, hy⟩ := hg.shape.some hr hd
    rw [show g.getCell row src = some x from hx]
    refine ⟨hg.setCell row dst x, ?_⟩
    show (g.setCell row dst x).view = _
    rw [CellGrid.view_setCell hg.wellFormed]
    funext i j
    unfold Picture.fill Picture.moveCells
    by_cases hij : i = row ∧ j = dst
    · obtain ⟨rfl, rfl⟩ := hij
      rw [if_pos (by omega), if_pos (by omega), Nat.sub_self, Nat.add_zero, hx, hy]
      rfl
    · rw [if_neg (by omega), if_neg (by omega)]
  · rw [show g.getCell row src = none from hg.shape.none (by omega)]
    refine ⟨hg, ?_⟩
    show g.view = _
    funext i j
    unfold Picture.moveCells
    split
    · rw [hg.shape.none (by omega), hg.shape.none (by omega)]
    · rfl

theorem insertChars_redrawn (h : t.Fits) (hc : t.cursorCol ≤ t.cols) (n : Nat) :
    Redrawn t (t.insertChars n) (Picture.fill t.cursorRow (t.cursorRow + 1) t.cursorCol
      (t.cursorCol + min n (t.cols - t.cursorCol)) t.erased
      (Picture.moveCells t.cursorRow (t.cursorCol + min n (t.cols - t.cursorCol)) t.cursorCol
        (t.cols - (t.cursorCol + min n (t.cols - t.cursorCol))) t.grid.view)) := by
  unfold insertChars
  dsimp only
  obtain ⟨m, hm⟩ : ∃ m, m = min n (t.cols - t.cursorCol) := ⟨_, rfl⟩
  rw [← hm]
  obtain ⟨hsized, hview⟩ := iterRev_rule (a := t.cursorCol + m) (b := t.cols) (s := t.grid)
    (P := fun i g => g.Sized t.rows t.cols ∧
      g.view = Picture.moveCells t.cursorRow i (i - m) (t.cols - i) t.grid.view)
    (g := fun g col => copyCell g t.cursorRow col (col - m))
    ⟨h, by rw [Nat.max_eq_right (by omega), Nat.sub_self, Picture.moveCells_zero]⟩ (by
      intro i g hi hib ⟨hsized, hview⟩
      obtain ⟨hsized', hview'⟩ := copyCell_view hsized t.cursorRow i (i - m) hib (by omega)
      refine ⟨hsized', ?_⟩
      rw [hview', hview, Picture.moveCells_right_succ m (by omega) hib])
  have := blankCells_redrawn hsized t.cursorCol (t.cursorCol + m)
  rwa [hview, Nat.add_sub_cancel] at this

theorem deleteChars_redrawn (h : t.Fits) (n : Nat) :
    Redrawn t (t.deleteChars n) (Picture.fill t.cursorRow (t.cursorRow + 1)
      (t.cols - min n (t.cols - t.cursorCol)) t.cols t.erased
      (Picture.moveCells t.cursorRow t.cursorCol (t.cursorCol + min n (t.cols - t.cursorCol))
        (t.cols - min n (t.cols - t.cursorCol) - t.cursorCol) t.grid.view)) := by
  unfold deleteChars
  dsimp only
  obtain ⟨m, hm⟩ : ∃ m, m = min n (t.cols - t.cursorCol) := ⟨_, rfl⟩
  rw [← hm]
  obtain ⟨hsized, hview⟩ := iter_rule (a := t.cursorCol) (b := t.cols - m) (s := t.grid)
    (P := fun i g => g.Sized t.rows t.cols ∧
      g.view = Picture.moveCells t.cursorRow t.cursorCol (t.cursorCol + m) (i - t.cursorCol) t.grid.view)
    (g := fun g col => copyCell g t.cursorRow col (col + m))
    ⟨h, by rw [Nat.sub_self, Picture.moveCells_zero]⟩ (by
      intro i g hi hib ⟨hsized, hview⟩
      obtain ⟨hsized', hview'⟩ := copyCell_view hsized t.cursorRow i (i + m) (by omega) (by omega)
      refine ⟨hsized', ?_⟩
      rw [hview', hview, Picture.moveCells_left_succ m hi])
  have := blankCells_redrawn hsized (t.cols - m) t.cols
  rwa [hview, show max t.cursorCol (t.cols - m) - t.cursorCol = t.cols - m - t.cursorCol by omega] at this

theorem eraseChars_redrawn (h : t.Fits) (n : Nat) :
    Redrawn t (t.eraseChars n) (Picture.fill t.cursorRow (t.cursorRow + 1) t.cursorCol
      (t.cursorCol + min n (t.cols - t.cursorCol)) t.erased t.grid.view) :=
  blankCells_redrawn h _ _

/-! ## resizing -/

/-- a line written over a row of empty cells -/
private lemma writeLine_spec {g : CellGrid} {rows cols r : Nat} (h : g.Sized rows cols) (hr : r < rows)
    (hblank : ∀ j, j < cols → g.view r j = some .empty) (xs : List Cell) :
    (iter 0 (min xs.length cols) (fun g c => g.setCell r c (xs[c]?.getD .empty)) g).Sized rows cols ∧
    ∀ i j, (iter 0 (min xs.length cols) (fun g c => g.setCell r c (xs[c]?.getD .empty)) g).view i j
      = if i = r then Picture.line cols .empty xs j else g.view i j := by
  obtain ⟨hsized, hview⟩ := iter_rule (a := 0) (b := min xs.length cols) (s := g)
    (g := fun g c => CellGrid.setCell g r c (xs[c]?.getD .empty))
    (P := fun c g' => g'.Sized rows cols ∧
      ∀ i j, g'.view i j = if i = r ∧ j < c then xs[j]? else g.view i j)
    ⟨h, fun i j => by rw [if_neg (by omega)]⟩ (by
      intro c g' _ hc ⟨hsized, hview⟩
      refine ⟨hsized.setCell r c _, fun i j => ?_⟩
      rw [CellGrid.view_setCell hsized.wellFormed, Picture.fill, hview]
      by_cases hij : i = r ∧ j = c
      · obtain ⟨rfl, rfl⟩ := hij
        have hlt : j < xs.length := by omega
        rw [if_pos (by omega), if_neg (by omega), if_pos (by omega), hblank j (by omega),
          List.getElem?_eq_getElem hlt]
        rfl
      · rw [if_neg (by omega)]
        congr 1
        exact propext (by omega))
  refine ⟨hsized, fun i j => ?_⟩
  rw [hview, Nat.max_eq_right (Nat.zero_le _)]
  by_cases hi : i = r
  · subst hi
    rw [if_pos rfl, Picture.line]
    by_cases hj : j < min xs.length cols
    · rw [if_pos ⟨rfl, hj⟩, if_pos (by omega), List.getElem?_eq_getElem (show j < xs.length by omega)]
      rfl
    · rw [if_neg (fun hx => hj hx.2)]
      by_cases hjc : j < cols
      · rw [if_pos hjc, hblank j hjc, List.getElem?_eq_none (by omega)]
        rfl
      · rw [if_neg hjc, h.shape.none (by omega)]
  · rw [if_neg fun hx => hi hx.1, if_neg hi]

/-- growing: the newest lines of the scrollback come in on top -/
theorem growRows_spec (h : t.Fits) (k : Nat) : ∃ grid : CellGrid,
    t.growRowsLiftingScrollback k = { t with
      grid, scrollback := t.scrollback.take (t.scrollback.length - k) } ∧
    grid.Sized (t.rows + k) t.cols ∧ grid.view = Picture.stack t.cols .empty
      (List.replicate (k - t.scrollback.length) [] ++ t.scrollback.drop (t.scrollback.length - k)) t.grid.view := by
  obtain ⟨lifted, hlifted⟩ : ∃ lifted, lifted = t.scrollback.drop (t.scrollback.length - k) := ⟨_, rfl⟩
  obtain ⟨d, hd⟩ : ∃ d, d = k - lifted.length := ⟨_, rfl⟩
  have hlen : lifted.length = min k t.scrollback.length := by
    rw [hlifted, List.length_drop]
    omega
  have hbase := h.wellFormed.resize (t.rows + k) t.cols
  obtain ⟨hsized₀, hview₀⟩ := hbase.shiftRows k 0 t.rows (by omega) (by omega)
  obtain ⟨hsized₁, hview₁⟩ := CellGrid.fillRows_spec hsized₀ 0 k 0 t.cols .empty
  obtain ⟨base, hbase⟩ : ∃ base, base = iter 0 k (fun g r => iter 0 t.cols (fun g c => g.setCell r c .empty) g)
      ((t.grid.resize (t.rows + k) t.cols).shiftRows k 0 t.rows) := ⟨_, rfl⟩
  rw [← hbase] at hsized₁ hview₁
  have hempty : ∀ i j, i < k → j < t.cols → base.view i j = some .empty := by
    intro i j hi hj
    obtain ⟨x, hx⟩ := hsized₀.shape.some (i := i) (j := j) (by omega) hj
    rw [hview₁, Picture.fill, if_pos (by omega), hx]
    rfl
  -- the lines that are written so far are the rows from `d` on
  obtain ⟨hsized, hview⟩ := iter_rule (a := 0) (b := lifted.length) (s := base)
    (g := fun g i => iter 0 (min (lifted[i]?.getD []).length t.cols)
      (fun g c => CellGrid.setCell g (d + i) c ((lifted[i]?.getD [])[c]?.getD .empty)) g)
    (P := fun n g => g.Sized (t.rows + k) t.cols ∧ ∀ i j, g.view i j =
      if d ≤ i ∧ i < d + n then Picture.line t.cols .empty (lifted[i - d]?.getD []) j else base.view i j)
    ⟨hsized₁, fun i j => by rw [if_neg (by omega)]⟩ (by
      rintro n g - hn ⟨hsized, hview⟩
      obtain ⟨hsized', hview'⟩ := writeLine_spec hsized (r := d + n) (by omega) (fun j hj => by
        rw [hview, if_neg (by omega)]
        exact hempty _ _ (by omega) hj) (lifted[n]?.getD [])
      refine ⟨hsized', fun i j => ?_⟩
      rw [hview', hview]
      by_cases hi : i = d + n
      · rw [if_pos hi, if_pos (by omega), hi, Nat.add_sub_cancel_left]
      · rw [if_neg hi]
        congr 1
        exact propext (by omega))
  refine ⟨_, ?_, hsized, ?_⟩
  · unfold growRowsLiftingScrollback
    rw [hbase, hd, hlifted]
  · rw [← hlifted, show k - t.scrollback.length = d by omega]
    funext i j
    rw [hview, Nat.max_eq_right (Nat.zero_le _)]
    have htop : (List.replicate d ([] : List Cell) ++ lifted).length = k := by
      rw [List.length_append, List.length_replicate]
      omega
    unfold Picture.stack
    rw [htop]
    by_cases hi : i < k
    · rw [if_pos hi]
      by_cases hdi : d ≤ i
      · rw [if_pos (by omega), List.getElem?_append_right (by rw [List.length_replicate]; exact hdi),
          List.length_replicate]
      · rw [if_neg (by omega), List.getElem?_append_left (by rw [List.length_replicate]; omega),
          List.getElem?_replicate, if_pos (by omega), Picture.line]
        by_cases hj : j < t.cols
        · rw [if_pos hj, hempty i j hi hj]
          rfl
        · rw [if_neg hj, hsized₁.shape.none (by omega)]
    · rw [if_neg (by omega), if_neg hi, hview₁, Picture.fill, if_neg (by omega), hview₀, Picture.moveRows,
        (CellGrid.resize_spec h.wellFormed _ _).2]
      by_cases hij : i < t.rows + k ∧ j < t.cols
      · obtain ⟨x, hx⟩ := h.shape.some (i := i - k) (j := j) (by omega) hij.2
        rw [if_pos (by omega), Picture.resize, if_pos (by omega), Nat.zero_add, hx]
        rfl
      · rw [h.shape.none (by omega), Picture.resize, Picture.resize]
        split
        · rw [if_neg (by omega)]
        · rfl

/-- shrinking: rows at the top go to the scrollback -/
theorem shrinkRows_spec (h : t.Fits) {n : Nat} (hn : n ≤ t.rows) : ∃ grid : CellGrid,
    t.shrinkRowsEvictingToScrollback n = { t with
      grid, scrollback := (Picture.rows n t.cols t.grid.view).foldl pushLine t.scrollback } ∧
    grid.Sized t.rows t.cols ∧ grid.view = Picture.moveRows 0 n (t.rows - n) t.grid.view := by
  obtain ⟨hsized, hview⟩ := h.shiftRows 0 n (t.rows - n) (by omega) (by omega)
  have hlines := iter_rule (a := 0) (b := n) (s := t.scrollback)
    (g := fun lines r => pushLine lines (t.rowCells r))
    (P := fun r lines => lines = (Picture.rows r t.cols t.grid.view).foldl pushLine t.scrollback) rfl (by
      rintro r _ - hr rfl
      rw [rowCells_eq h (by omega), Picture.rows, Picture.rows, List.range_succ, List.map_append,
        List.foldl_append]
      rfl)
  rw [Nat.max_eq_right (Nat.zero_le _)] at hlines
  refine ⟨_, ?_, hsized, hview⟩
  unfold shrinkRowsEvictingToScrollback
  rw [hlines]

/-- both grids, each cut or extended to the new size -/
theorem resizeGrids_spec (hg : t.grid.WellFormed) (ha : ∀ g ∈ t.altGrid, g.WellFormed) (rows cols : Nat) :
    ∃ grid altGrid, t.resizeGrids rows cols = { t with grid, altGrid, rows, cols } ∧
      grid.Sized rows cols ∧ (∀ g ∈ altGrid, g.Sized rows cols) ∧ altGrid.isSome = t.altGrid.isSome ∧
      match t.altGrid, altGrid with
      | some alt, some main => main.view = Picture.resize rows cols .empty t.grid.view ∧
          grid.view = Picture.resize rows cols .empty alt.view
      | _, _ => grid.view = Picture.resize rows cols .empty t.grid.view := by
  have hmain := hg.resize rows cols
  have hview := (CellGrid.resize_spec hg rows cols).2
  unfold resizeGrids swapGrids
  cases halt : t.altGrid with
  | none =>
    refine ⟨_, none, ?_, hmain, by simp, rfl, hview⟩
    simp only [Option.isSome_none, Bool.false_eq_true, if_false]
  | some alt =>
    refine ⟨_, _, rfl, (ha alt halt).resize rows cols, ?_, rfl, hview,
      (CellGrid.resize_spec (ha alt halt) rows cols).2⟩
    rintro g hg
    cases hg
    exact hmain

/-- after a resize the region fits the screen again -/
lemma clampScrollRegion_eq (t : Terminal F) (rows : Nat) (full : Bool) : ∃ top bot,
    t.clampScrollRegionAfterResize rows full = { t with scrollTop := top, scrollBot := bot } ∧
      (top < bot ∧ bot ≤ rows ∨ rows = 0 ∧ top = 0 ∧ bot = 0) := by
  unfold clampScrollRegionAfterResize
  split
  next => exact ⟨0, rows, rfl, by omega⟩
  next h => exact ⟨t.scrollTop, t.scrollBot, rfl, by omega⟩

/-- the end of a resize puts the region and the cursors back on the screen -/
lemma settle_eq (t : Terminal F) (rows cols : Nat) (full : Bool) : ∃ top bot parked,
    ((t.clampScrollRegionAfterResize rows full).clampCursors rows cols).syncCursor = { t with
      scrollTop := top
      scrollBot := bot
      cursorRow := min t.cursorRow (rows - 1)
      cursorCol := min t.cursorCol (cols - 1)
      wrapPending := false
      altSavedCursor := parked
      grid := t.grid.setCursor (min t.cursorRow (rows - 1)) (min t.cursorCol (cols - 1)) } ∧
    (top < bot ∧ bot ≤ rows ∨ rows = 0 ∧ top = 0 ∧ bot = 0) := by
  obtain ⟨top, bot, hclamp, hregion⟩ := clampScrollRegion_eq t rows full
  rw [hclamp]
  unfold clampCursors syncCursor
  dsimp only
  split
  · exact ⟨top, bot, _, rfl, hregion⟩
  · exact ⟨top, bot, _, rfl, hregion⟩

end Terminal
end TerminalManager.Ui
