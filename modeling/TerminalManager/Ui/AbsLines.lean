import TerminalManager.Ui.Invariant

/-!
# Absolute line indices

The lines of the scrollback and below them the rows of the screen form one buffer.  A selection names
its lines by their position in it plus the number of lines that the cap evicted, the absolute index,
which is meant to be a line's for life.

* `firstAbsLine`, `endAbsLine`, `cellAtAbs`   the addresses and what they show, as in the source;
* `Scrolling`, `scrolled`   what moves lines through the buffer of the main screen;
* `gone`, `padded`          the lines that leave it at the top and the blank ones that come in there;
* `scrolled_lines`          every other line goes from position `j` to `padded + (j - gone)`, with its cells;
* `Stable`                  it has its index there, and what is gone is below the first index;
* `stable_iff`              **main result**: when that is so, for every terminal that a run reaches.

Output that scrolls counts the line it evicts; a resize and erasing the history do not.
-/

set_option linter.unusedSectionVars false

namespace TerminalManager.Ui
open Loops Slice Term Transition
namespace Terminal

variable {F : Type} [F32 F] {t u : Terminal F}

/-- the oldest line that is still there -/
def firstAbsLine (t : Terminal F) : Nat := t.evictedLines

/-- one past the last line -/
def endAbsLine (t : Terminal F) : Nat := t.evictedLines + (t.scrollback.length + t.rows)

/-- the cell of a line, from the scrollback or from the screen -/
def cellAtAbs (t : Terminal F) (abs col : Nat) : Option Cell :=
  if col ≥ t.cols ∨ abs < t.evictedLines then none
  else
    let virtualLine := abs - t.evictedLines
    let sbLen := t.scrollback.length
    if virtualLine < sbLen then (t.scrollback[virtualLine]?.getD [])[col]?
    else
      let screenRow := virtualLine - sbLen
      if screenRow < t.rows then t.grid.getCell screenRow col else none

/-- what moves lines through the buffer -/
inductive Scrolling where
  | lineFeed
  | autowrap
  | resizeRows (rows : Nat)
  | eraseScrollback

/-- it happens: a wrap is pending, or the rows that leave are above the cursor -/
def Happens (t : Terminal F) : Scrolling → Prop
  | .autowrap => t.wrapPending
  | .resizeRows rows => rows < t.rows → t.rows - rows ≤ t.cursorRow
  | _ => True

def scrolled (parity : Bool) (t : Terminal F) : Scrolling → Terminal F
  | .lineFeed => t.execute 0x0a
  | .autowrap => t.prepareForPrintable
  | .resizeRows rows => t.resize rows t.cols
  | .eraseScrollback => t.csiDispatch parity [⟨3, []⟩] [] 'J'

/-- the lines that leave the buffer at the top -/
def gone (t : Terminal F) : Scrolling → Nat
  | .lineFeed | .autowrap => if t.cursorRow + 1 = t.scrollBot then overflow t.scrollback else 0
  | .resizeRows rows => t.scrollback.length + (t.rows - rows) - max t.scrollback.length maxScrollback
  | .eraseScrollback => t.scrollback.length

/-- the blank lines that come in at the top -/
def padded (t : Terminal F) : Scrolling → Nat
  | .resizeRows rows => rows - t.rows - t.scrollback.length
  | _ => 0

/-- the cell of the line at position `j` of the buffer; a short line goes on with empty cells -/
def lineCell (t : Terminal F) (j col : Nat) : Cell :=
  if j < t.scrollback.length then (t.scrollback[j]?.getD [])[col]?.getD .empty
  else (t.grid.view (j - t.scrollback.length) col).getD .empty

/-- what becomes of a cell of a line that stays; erasing the history blanks the display with it -/
def afterwards (t : Terminal F) (op : Scrolling) (x : Cell) : Cell :=
  match op with
  | .eraseScrollback => t.erased
  | _ => x

/-- every line that stays keeps its absolute index, every line that is gone is below the first one -/
structure Stable (t u : Terminal F) (op : Scrolling) : Prop where
  stays : ∀ j, t.gone op ≤ j → j < t.scrollback.length + t.rows →
    u.evictedLines + (t.padded op + (j - t.gone op)) = t.evictedLines + j
  leaves : ∀ j, j < t.gone op → j < t.scrollback.length + t.rows → t.evictedLines + j < u.firstAbsLine

/-- the condition for it -/
def CountsLines (t : Terminal F) : Scrolling → Prop
  | .lineFeed | .autowrap => True
  | .resizeRows rows => (t.rows < rows → t.scrollback.length + t.rows = 0 ∨ rows - t.rows ≤ t.scrollback.length) ∧
      (rows < t.rows → t.scrollback.length + (t.rows - rows) ≤ maxScrollback)
  | .eraseScrollback => t.scrollback = []

/-! ## what is where afterwards -/

/-- the address of a position -/
lemma cellAtAbs_eq (h : t.Sound) {j col : Nat} (hc : col < t.cols) :
    (t.cellAtAbs (t.evictedLines + j) col).getD .empty = t.lineCell j col := by
  unfold cellAtAbs lineCell
  rw [if_neg (by omega), Nat.add_sub_cancel_left]
  dsimp only
  split
  · rfl
  split
  · rfl
  next hr => rw [h.grid.shape.none (by omega)]

/-- the lines of `t` and where they are in `u` -/
def Carries (t u : Terminal F) (gone padded : Nat) : Prop :=
  ∀ j col, gone ≤ j → j < t.scrollback.length + t.rows → col < t.cols →
    u.lineCell (padded + (j - gone)) col = t.lineCell j col

lemma carries_self (t : Terminal F) : t.Carries t 0 0 := by
  intro j col _ _ _
  rw [Nat.zero_add, Nat.sub_zero]

lemma foldl_pushLine (xs lines : List (List Cell)) : xs.foldl pushLine lines
    = (lines ++ xs).drop (lines.length + xs.length - max lines.length maxScrollback) := by
  induction xs generalizing lines with
  | nil =>
    rw [List.foldl_nil, List.append_nil, List.length_nil, show lines.length + 0 - max lines.length maxScrollback = 0 by omega]
    rfl
  | cons x xs ih =>
    have hover : overflow lines ≤ (lines ++ [x]).length := by
      unfold overflow
      rw [List.length_append, List.length_singleton]
      split <;> omega
    rw [List.foldl_cons, ih, pushLine_eq, ← List.drop_append_of_le_length hover, List.drop_drop,
      List.append_assoc, List.singleton_append]
    congr 1
    rw [List.length_drop, List.length_append, List.length_singleton, List.length_cons]
    unfold overflow
    split <;> omega

/-- scrolling the full screen up: its first row is the newest line of the scrollback -/
theorem scrollUp_carries (h : t.Sound) (hmain : t.altGrid = none) (hfull : t.regionIsFullScreen) (hr : 0 < t.rows) :
    t.Carries t.scrollUp (overflow t.scrollback) 0 ∧
      t.scrollUp.evictedLines = t.evictedLines + overflow t.scrollback := by
  obtain ⟨htop, hbot⟩ : t.scrollTop = 0 ∧ t.scrollBot = t.rows := by simpa [regionIsFullScreen] using hfull
  obtain ⟨grid, scrollOffset, scrollAnim, heq, hsized, hview⟩ := scrollUp_spec h.grid ⟨by omega, by omega⟩
  have hcap : t.scrollTop = 0 ∧ t.altGrid.isNone = true := ⟨htop, by rw [hmain]; rfl⟩
  rw [if_pos hcap, if_pos hcap] at heq
  rw [heq]
  refine ⟨?_, rfl⟩
  intro j col hj hlt hc
  have hover : overflow t.scrollback ≤ t.scrollback.length := by
    unfold overflow maxScrollback
    split <;> omega
  have hlines : (pushLine t.scrollback (Picture.row t.cols t.grid.view 0)).length
      = t.scrollback.length + 1 - overflow t.scrollback := by
    rw [pushLine_eq, List.length_drop, List.length_append, List.length_singleton]
  unfold lineCell
  dsimp only
  rw [hlines, Nat.zero_add]
  by_cases hold : j < t.scrollback.length
  · rw [if_pos (by omega), if_pos hold, pushLine_eq, List.getElem?_drop, Nat.add_sub_cancel' hj,
      List.getElem?_append_left hold]
  rw [if_neg hold]
  by_cases hfirst : j = t.scrollback.length
  · subst hfirst
    rw [if_pos (by omega), pushLine_eq, List.getElem?_drop, Nat.add_sub_cancel' hj, List.getElem?_concat_length,
      Nat.sub_self]
    show (Picture.row t.cols t.grid.view 0)[col]?.getD .empty = _
    rw [h.grid.shape.getElem?_row hr]
  · rw [if_neg (by omega), hview, Picture.fill, if_neg (by omega), Picture.moveRows, if_pos (by omega)]
    congr 2
    omega

/-- a resize of the main screen: the rows are moved, then cut or extended -/
lemma resize_main (h : t.Sound) (hmain : t.altGrid = none) (rows : Nat) : ∃ w : Terminal F,
    (w.Fits ∧ w.rows = t.rows ∧ w.cols = t.cols ∧ w.grid = t.grid ∧ w.scrollback = t.scrollback ∧
      w.evictedLines = t.evictedLines ∧ w.mainRow = t.cursorRow) ∧
    (t.resize rows t.cols).evictedLines = (w.reflow rows).evictedLines ∧
    (t.resize rows t.cols).scrollback = (w.reflow rows).scrollback ∧
    (t.resize rows t.cols).rows = rows ∧ (t.resize rows t.cols).cols = t.cols ∧
    (t.resize rows t.cols).grid.view = ((w.reflow rows).grid.resize rows t.cols).view := by
  obtain ⟨w, hw⟩ : ∃ w, w = if rows ≠ t.rows ∨ t.cols ≠ t.cols then t.collapseScrollAnimation else t := ⟨_, rfl⟩
  have hview : t.ViewOf w := by
    rw [hw]
    split
    · exact viewOf_collapse t
    · exact ViewOf.refl t
  have halt : w.altGrid = none := by
    obtain ⟨_, _, _, _, _, _, rfl⟩ := hview
    exact hmain
  have hswap : w.swapGrids = w := by
    unfold swapGrids
    rw [halt]
  have hmain' : (w.reflow rows).altGrid = none := by rw [reflow_altGrid, halt]
  have hgrids : (w.reflow rows).resizeGrids rows t.cols = { w.reflow rows with
      grid := (w.reflow rows).grid.resize rows t.cols, rows, cols := t.cols } := by
    unfold resizeGrids swapGrids
    rw [hmain']
    simp [halt]
  have hw' : w.Fits ∧ w.rows = t.rows ∧ w.cols = t.cols ∧ w.grid = t.grid ∧ w.scrollback = t.scrollback ∧
      w.evictedLines = t.evictedLines ∧ w.mainRow = t.cursorRow := by
    obtain ⟨_, _, _, _, _, _, rfl⟩ := hview
    refine ⟨h.grid, rfl, rfl, rfl, rfl, rfl, ?_⟩
    unfold mainRow
    rw [halt]
    rfl
  refine ⟨w, hw', ?_⟩
  unfold resize
  rw [← hw]
  dsimp only
  rw [hswap, hgrids]
  obtain ⟨top, bot, parked, heq, -⟩ := settle_eq { w.reflow rows with
    grid := (w.reflow rows).grid.resize rows t.cols, rows, cols := t.cols } rows t.cols w.regionIsFullScreen
  rw [heq]
  exact ⟨rfl, rfl, rfl, rfl, rfl⟩

@[simp] lemma setMainRow_evictedLines (row : Nat) : (t.setMainRow row).evictedLines = t.evictedLines := by
  unfold setMainRow
  split <;> rfl

lemma resize_same {g : CellGrid} {rows cols : Nat} (h : g.Sized rows cols) : (g.resize rows cols).view = g.view := by
  rw [CellGrid.resize, if_pos ⟨h.rows.symm, h.cols.symm⟩]

/-- growing: the newest lines of the scrollback are the first rows of the screen -/
theorem grow_carries (h : t.Sound) (hmain : t.altGrid = none) {rows : Nat} (hr : t.rows < rows) :
    t.Carries (t.resize rows t.cols) 0 (rows - t.rows - t.scrollback.length) ∧
      (t.resize rows t.cols).evictedLines = t.evictedLines := by
  obtain ⟨w, ⟨hfits, hrows, hcols, hsame, hlines, hev, -⟩, hevicted, hscrollback, -, -, hgrid⟩ :=
    resize_main h hmain rows
  obtain ⟨k, hk⟩ : ∃ k, k = rows - t.rows := ⟨_, rfl⟩
  obtain ⟨grid, heq, hsized, hpicture⟩ := growRows_spec hfits k
  rw [hrows, hcols] at hsized
  rw [hcols, hsame, hlines] at hpicture
  unfold reflow at hevicted hscrollback hgrid
  rw [if_pos (by omega)] at hevicted hscrollback hgrid
  dsimp only at hevicted hscrollback hgrid
  rw [hrows, ← hk] at hevicted hscrollback hgrid
  rw [setMainRow_evictedLines, heq] at hevicted
  rw [setMainRow_scrollback, heq] at hscrollback
  rw [show t.rows + k = rows by omega] at hsized
  rw [setMainRow_grid, heq, resize_same hsized, hpicture] at hgrid
  rw [show rows - t.rows = k from hk.symm]
  refine ⟨?_, hevicted.trans hev⟩
  intro j col _ hlt hc
  have hlen : (t.resize rows t.cols).scrollback.length = t.scrollback.length - k := by
    rw [hscrollback, hlines]
    show (List.take _ _).length = _
    rw [List.length_take]
    omega
  obtain ⟨d, hd⟩ : ∃ d, d = k - t.scrollback.length := ⟨_, rfl⟩
  obtain ⟨top, htop⟩ : ∃ top, top = t.scrollback.drop (t.scrollback.length - k) := ⟨_, rfl⟩
  have hheight : (List.replicate d ([] : List Cell) ++ top).length = k := by
    rw [htop, List.length_append, List.length_replicate, List.length_drop]
    omega
  unfold lineCell
  rw [hlen, Nat.sub_zero, ← hd]
  by_cases hstill : d + j < t.scrollback.length - k
  · -- still in the scrollback
    rw [if_pos hstill, if_pos (by omega), hscrollback, hlines, show d + j = j by omega]
    show ((t.scrollback.take _)[j]?.getD [])[col]?.getD .empty = _
    rw [List.getElem?_take_of_lt (by omega)]
  rw [if_neg hstill, hgrid, ← hd, ← htop]
  by_cases hold : j < t.scrollback.length
  · -- lifted
    have hentry : top[j - (t.scrollback.length - k)]? = some t.scrollback[j] := by
      rw [htop, List.getElem?_drop, Nat.add_sub_cancel' (by omega), List.getElem?_eq_getElem hold]
    rw [if_pos hold, show d + j - (t.scrollback.length - k) = d + (j - (t.scrollback.length - k)) by omega,
      Picture.stack_top hentry hc, List.getElem?_eq_getElem hold]
    rfl
  · -- on the screen, below them
    have hbelow : Picture.stack t.cols Cell.empty (List.replicate d [] ++ top) t.grid.view
        (j - t.scrollback.length + (List.replicate d ([] : List Cell) ++ top).length) col
          = t.grid.view (j - t.scrollback.length) col := Picture.stack_below
    rw [hheight] at hbelow
    rw [if_neg hold, ← hbelow]
    congr 2
    omega

/-- shrinking: the rows above the cursor are the newest lines of the scrollback -/
theorem shrink_carries (h : t.Sound) (hmain : t.altGrid = none) {rows : Nat} (hr : rows < t.rows)
    (hcursor : t.rows - rows ≤ t.cursorRow) : t.Carries (t.resize rows t.cols)
      (t.scrollback.length + (t.rows - rows) - max t.scrollback.length maxScrollback) 0 ∧
      (t.resize rows t.cols).evictedLines = t.evictedLines := by
  obtain ⟨w, ⟨hfits, hrows, hcols, hsame, hlines, hev, hmainRow⟩, hevicted, hscrollback, -, -, hgrid⟩ :=
    resize_main h hmain rows
  obtain ⟨k, hk⟩ : ∃ k, k = t.rows - rows := ⟨_, rfl⟩
  obtain ⟨grid, heq, hsized, hpicture⟩ := shrinkRows_spec hfits (n := k) (by omega)
  rw [hrows, hcols] at hsized
  rw [hrows, hsame] at hpicture
  unfold reflow at hevicted hscrollback hgrid
  rw [if_neg (by omega), if_pos (by omega)] at hevicted hscrollback hgrid
  dsimp only at hevicted hscrollback hgrid
  rw [hrows, hmainRow, ← hk, Nat.min_eq_left (by omega), if_pos (by omega)] at hevicted hscrollback hgrid
  rw [setMainRow_evictedLines, heq] at hevicted
  rw [setMainRow_scrollback, heq, hlines, hcols, hsame] at hscrollback
  rw [setMainRow_grid, heq, (CellGrid.resize_spec hsized.wellFormed _ _).2, hpicture] at hgrid
  rw [← hk]
  refine ⟨?_, hevicted.trans hev⟩
  obtain ⟨m, hm⟩ : ∃ m, m = t.scrollback.length + k - max t.scrollback.length maxScrollback := ⟨_, rfl⟩
  obtain ⟨pushed, hpushed⟩ : ∃ pushed, pushed = Picture.rows k t.cols t.grid.view := ⟨_, rfl⟩
  have hpl : pushed.length = k := by
    rw [hpushed, Picture.rows, List.length_map, List.length_range]
  have hstack : (t.resize rows t.cols).scrollback = (t.scrollback ++ pushed).drop m := by
    rw [hscrollback]
    show (Picture.rows k t.cols t.grid.view).foldl pushLine t.scrollback = _
    rw [foldl_pushLine, ← hpushed, hpl, hm]
  rw [← hm]
  intro j col hj hlt hc
  have hlen : (t.resize rows t.cols).scrollback.length = t.scrollback.length + k - m := by
    rw [hstack, List.length_drop, List.length_append, hpl]
  unfold lineCell
  rw [hlen, Nat.zero_add]
  by_cases hstill : j - m < t.scrollback.length + k - m
  · rw [if_pos hstill, hstack, List.getElem?_drop, Nat.add_sub_cancel' hj]
    by_cases hold : j < t.scrollback.length
    · rw [if_pos hold, List.getElem?_append_left hold]
    · rw [if_neg hold, List.getElem?_append_right (by omega), hpushed, Picture.rows, List.getElem?_map,
        List.getElem?_range (by omega)]
      show (Picture.row t.cols t.grid.view _)[col]?.getD .empty = _
      rw [h.grid.shape.getElem?_row (by omega)]
  · rw [if_neg hstill, if_neg (by omega), hgrid, Picture.resize, if_pos (by omega), Picture.moveRows, if_pos (by omega)]
    show (t.grid.view _ col).getD .empty = _
    congr 2
    omega

/-- a resize to the size it has -/
lemma same_carries (h : t.Sound) (hmain : t.altGrid = none) : t.Carries (t.resize t.rows t.cols) 0 0 ∧
    (t.resize t.rows t.cols).evictedLines = t.evictedLines := by
  obtain ⟨w, ⟨hfits, hrows, hcols, hsame, hlines, hev, -⟩, hevicted, hscrollback, -, -, hgrid⟩ :=
    resize_main h hmain t.rows
  have hreflow : w.reflow t.rows = w := by
    unfold reflow
    rw [if_neg (by omega), if_neg (by omega)]
  rw [hreflow] at hevicted hscrollback hgrid
  rw [hsame, resize_same h.grid] at hgrid
  refine ⟨?_, hevicted.trans hev⟩
  intro j col _ _ _
  unfold lineCell
  rw [Nat.zero_add, Nat.sub_zero, hscrollback, hlines, hgrid]

/-- one row down scrolls only from the last row -/
lemma lineDown_carries (h : t.Sound) (hmain : t.altGrid = none) (hfull : t.regionIsFullScreen) :
    t.Carries t.lineDown (t.gone .lineFeed) 0 ∧ t.lineDown.evictedLines = t.evictedLines + t.gone .lineFeed ∧
      t.lineDown.cols = t.cols := by
  obtain ⟨htop, hbot⟩ : t.scrollTop = 0 ∧ t.scrollBot = t.rows := by simpa [regionIsFullScreen] using hfull
  unfold lineDown gone
  dsimp only
  split
  · obtain ⟨hcarries, hev⟩ := scrollUp_carries h hmain hfull (by omega)
    refine ⟨hcarries, hev, ?_⟩
    obtain ⟨grid, scrollOffset, scrollAnim, heq, -, -⟩ := scrollUp_spec h.grid ⟨by omega, by omega⟩
    rw [heq]
  split
  · exact ⟨carries_self t, rfl, rfl⟩
  · exact ⟨carries_self t, rfl, rfl⟩

/-- the display is blanked in place and the scrollback is empty -/
lemma erase_lines (h : t.Sound) : (t.eraseDisplay 3).scrollback = [] ∧
    (t.eraseDisplay 3).evictedLines = t.evictedLines ∧ (t.eraseDisplay 3).cols = t.cols ∧
    ∀ r col, r < t.rows → col < t.cols → (t.eraseDisplay 3).lineCell r col = t.erased := by
  obtain ⟨grid, heq, hsized, hview⟩ := clearRegion_redrawn h.grid 0 0 (t.rows - 1) (t.cols - 1)
  unfold eraseDisplay
  dsimp only
  rw [heq]
  refine ⟨rfl, rfl, rfl, ?_⟩
  intro r col hr hc
  obtain ⟨x, hx⟩ := h.grid.shape.some hr hc
  show (grid.view (r - 0) col).getD .empty = _
  rw [hview, Picture.fill, if_pos (by omega), Nat.sub_zero, hx]
  rfl

/-- where the lines are afterwards, and the index of the first one -/
theorem scrolled_lines (h : t.Sound) (parity : Bool) (hmain : t.altGrid = none) (hfull : t.regionIsFullScreen)
    {op : Scrolling} (hop : t.Happens op) :
    (∀ j col, t.gone op ≤ j → j < t.scrollback.length + t.rows → col < t.cols →
      (t.scrolled parity op).lineCell (t.padded op + (j - t.gone op)) col = t.afterwards op (t.lineCell j col)) ∧
    (t.scrolled parity op).evictedLines = t.evictedLines +
      (match op with | .lineFeed | .autowrap => t.gone op | _ => 0) ∧
    (t.scrolled parity op).cols = t.cols ∧ (t.scrolled parity op).Sound := by
  cases op with
  | lineFeed =>
    obtain ⟨hcarries, hev, hcols⟩ := lineDown_carries (t := t.clearPendingWrap)
      ⟨h.grid, h.alt, h.onScreen.cursorRow, h.onScreen.cursorCol, h.onScreen.region⟩ hmain hfull
    exact ⟨hcarries, hev, hcols, perform_kept (n := 0) sound_kept parity (.execute 0x0a) h⟩
  | autowrap =>
    have hready : t.prepareForPrintable = t.wrapToNextLine := if_pos hop
    obtain ⟨hcarries, hev, hcols⟩ := lineDown_carries (t := { t with cursorCol := 0 })
      ⟨h.grid, h.alt, h.onScreen.cursorRow, Nat.zero_le _, h.onScreen.region⟩ hmain hfull
    have hsound : t.wrapToNextLine.Sound := sound_kept.clearPendingWrap (n := 0) (sound_kept.lineDown (n := 0)
      (sound_kept.move (n := 0) h t.wrapPending h.onScreen.cursorRow (Nat.zero_le _)))
    show (∀ j col, _ → _ → _ → t.prepareForPrintable.lineCell _ col = _) ∧ _
    unfold scrolled
    rw [hready]
    exact ⟨hcarries, hev, hcols, hsound⟩
  | resizeRows rows =>
    have hcols := (resize_main h hmain rows).choose_spec.2.2.2.2.1
    rcases Nat.lt_trichotomy t.rows rows with hr | hr | hr
    · obtain ⟨hcarries, hev⟩ := grow_carries h hmain hr
      have hgone : t.gone (.resizeRows rows) = 0 := by
        show t.scrollback.length + (t.rows - rows) - max t.scrollback.length maxScrollback = 0
        omega
      rw [hgone]
      exact ⟨hcarries, hev, hcols, h.resize rows t.cols⟩
    · subst hr
      obtain ⟨hcarries, hev⟩ := same_carries h hmain
      have hgone : t.gone (.resizeRows t.rows) = 0 := by
        show t.scrollback.length + (t.rows - t.rows) - max t.scrollback.length maxScrollback = 0
        omega
      have hpadded : t.padded (.resizeRows t.rows) = 0 := by
        show t.rows - t.rows - t.scrollback.length = 0
        omega
      rw [hgone, hpadded]
      exact ⟨hcarries, hev, hcols, h.resize t.rows t.cols⟩
    · obtain ⟨hcarries, hev⟩ := shrink_carries h hmain hr (hop hr)
      have hpadded : t.padded (.resizeRows rows) = 0 := by
        show rows - t.rows - t.scrollback.length = 0
        omega
      rw [hpadded]
      exact ⟨hcarries, hev, hcols, h.resize rows t.cols⟩
  | eraseScrollback =>
    have hw : t.clearPendingWrap.Sound :=
      ⟨h.grid, h.alt, h.onScreen.cursorRow, h.onScreen.cursorCol, h.onScreen.region⟩
    obtain ⟨-, hev, hcols, hblank⟩ := erase_lines hw
    refine ⟨?_, hev, hcols, perform_kept (n := 0) sound_kept parity (.csiDispatch [⟨3, []⟩] [] false 'J') h⟩
    intro j col hj hlt hc
    have hj' : t.scrollback.length ≤ j := hj
    show (t.clearPendingWrap.eraseDisplay 3).lineCell (0 + (j - t.scrollback.length)) col = t.erased
    rw [Nat.zero_add]
    exact hblank _ col (show j - t.scrollback.length < t.rows by omega) hc

/-- **Main result.** On the main screen with a full scroll region every line goes where `scrolled_lines`
says; it keeps its absolute index exactly when the operation counts the lines that it moves, and then a
line that is addressable before and after shows the same cells. -/
theorem stable_iff (parity : Bool) {rows cols : Nat} {ops : List (Op F)}
    (h : exec (next parity) (new parity rows cols) ops = some t) (hmain : t.altGrid = none)
    (hfull : t.regionIsFullScreen) {op : Scrolling} (hop : t.Happens op) :
    (∀ j col, t.gone op ≤ j → j < t.scrollback.length + t.rows → col < t.cols →
      (t.scrolled parity op).lineCell (t.padded op + (j - t.gone op)) col = t.afterwards op (t.lineCell j col)) ∧
    (t.Stable (t.scrolled parity op) op ↔ t.CountsLines op) ∧
    (t.CountsLines op → ∀ abs col, (t.scrolled parity op).firstAbsLine ≤ abs → t.firstAbsLine ≤ abs →
      abs < t.endAbsLine → col < t.cols → ((t.scrolled parity op).cellAtAbs abs col).getD .empty
        = t.afterwards op ((t.cellAtAbs abs col).getD .empty)) := by
  have hsound := sound_of_run parity h
  obtain ⟨hlines, hev, hcols, hsound'⟩ := scrolled_lines hsound parity hmain hfull hop
  have hiff : t.Stable (t.scrolled parity op) op ↔ t.CountsLines op := by
    cases op with
    | lineFeed =>
      exact iff_of_true ⟨fun j hj _ => by rw [hev]; dsimp only [padded]; omega,
        fun j hj _ => by unfold firstAbsLine; rw [hev]; dsimp only; omega⟩ trivial
    | autowrap =>
      exact iff_of_true ⟨fun j hj _ => by rw [hev]; dsimp only [padded]; omega,
        fun j hj _ => by unfold firstAbsLine; rw [hev]; dsimp only; omega⟩ trivial
    | resizeRows rows =>
      have hgone : t.gone (.resizeRows rows)
          = t.scrollback.length + (t.rows - rows) - max t.scrollback.length maxScrollback := rfl
      have hpadded : t.padded (.resizeRows rows) = rows - t.rows - t.scrollback.length := rfl
      have hrow := hsound.onScreen.cursorRow
      constructor
      · intro ⟨hstays, hleaves⟩
        unfold firstAbsLine at hleaves
        dsimp only at hev
        rw [hev, hgone] at hleaves
        rw [hev, hgone, hpadded] at hstays
        refine ⟨fun hr => ?_, fun hr => ?_⟩
        · have := hstays 0
          omega
        · have := hleaves 0
          omega
      · intro ⟨hgrow, hshrink⟩
        refine ⟨fun j hj hlt => ?_, fun j hj hlt => ?_⟩
        · dsimp only at hev
          rw [hev, hgone, hpadded]
          omega
        · rw [hgone] at hj
          omega
    | eraseScrollback =>
      have hgone : t.gone .eraseScrollback = t.scrollback.length := rfl
      constructor
      · intro ⟨_, hleaves⟩
        show t.scrollback = []
        by_contra hne
        have := hleaves 0 (List.length_pos_iff.mpr hne) (by have := List.length_pos_iff.mpr hne; omega)
        unfold firstAbsLine at this
        dsimp only at hev
        omega
      · intro hnil
        have hzero : t.scrollback.length = 0 := by rw [show t.scrollback = [] from hnil]; rfl
        refine ⟨fun j hj hlt => ?_, fun j hj hlt => ?_⟩
        · dsimp only at hev
          rw [hev, hgone, hzero]
          show _ + (0 + (j - 0)) = _
          omega
        · omega
  refine ⟨hlines, hiff, ?_⟩
  intro hcounts abs col hfirst habs hend hc
  obtain ⟨hstays, hleaves⟩ := hiff.mpr hcounts
  obtain ⟨j, rfl⟩ : ∃ j, abs = t.evictedLines + j := ⟨abs - t.evictedLines, (Nat.add_sub_cancel' habs).symm⟩
  have hj : j < t.scrollback.length + t.rows := by
    unfold endAbsLine at hend
    omega
  have hstill : t.gone op ≤ j := by
    by_contra hgone
    have := hleaves j (Nat.lt_of_not_le hgone) hj
    omega
  rw [cellAtAbs_eq hsound hc, ← hstays j hstill hj, cellAtAbs_eq hsound' (hcols.symm ▸ hc), hlines j col hstill hj hc]

/-- a line feed below a printed character -/
theorem stable_iff_lineFeed : ∃ t : Terminal ℚ,
    exec (@next ℚ exactF32 false) (@new ℚ exactF32 false 1 1) [.call (.print 'x')] = some t ∧
    (t.Stable (@scrolled ℚ exactF32 false t .lineFeed) .lineFeed ↔ t.CountsLines .lineFeed) := by
  refine ⟨_, rfl, ?_⟩
  exact (@stable_iff ℚ exactF32 _ false 1 1 [.call (.print 'x')] rfl rfl (by decide) .lineFeed trivial).2.1

/-- a printed character is at index 0 until the screen grows by a row -/
theorem absLine_moved : ∃ t : Terminal ℚ,
    exec (@next ℚ exactF32 false) (@new ℚ exactF32 false 1 1) [.call (.print 'x')] = some t ∧
    t.altGrid = none ∧ t.regionIsFullScreen ∧ t.firstAbsLine ≤ 0 ∧ 0 < t.endAbsLine ∧
    (@scrolled ℚ exactF32 false t (.resizeRows 2)).firstAbsLine ≤ 0 ∧
    (@scrolled ℚ exactF32 false t (.resizeRows 2)).cellAtAbs 0 0 ≠ t.cellAtAbs 0 0 := by
  refine ⟨_, rfl, ?_⟩
  decide

end Terminal
end TerminalManager.Ui
