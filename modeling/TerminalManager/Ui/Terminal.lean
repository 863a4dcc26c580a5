import TerminalManager.Term.Sgr
import TerminalManager.Core.Terminal
import TerminalManager.Ui.CellGrid
import TerminalManager.Ui.Motion

/-!
# The UI's emulator

The `terminal` module of the UI: the same emulator as the daemon's, written over the framework's
`CellGrid`, with a scroll position into the scrollback and its wheel animation.

* `resize`, `resizeViewportGrowth`, `applySnapshot`   the ways its size and content are replaced;
* `scrollUp`, `scrollDown`, `putChar`, `csiDispatch`, …   the callbacks of the parser;
* `scrollViewUp`, `scrollViewByLines`, `scrollAnimateByPx`, `sampleScrollAnimation`, …   the view;
* `processBytes`   a chunk of output, given as the callbacks that the parser makes of it;
* `step`           one event of an emulator that is fed callbacks;
* `Op`, `apply`    everything that is done to the emulator of a pane.

Indices and subtractions stay in range in every state that a new terminal reaches, so they are total
here.  Telemetry and tracing are left out; `globalCellH` is the cell height that the renderer
published last, a global of the framework.
-/

namespace TerminalManager.Ui
open Loops Slice Term F32

/-- lines kept in the scrollback -/
def maxScrollback : Nat := 10000
def maxPendingTerminalSignals : Nat := 32
def maxOsc9PayloadBytes : Nat := 4096

inductive TerminalSignal where
  | bell
  | osc9 (payload : String)

def defaultFg (parity : Bool) : Color := if parity then windowsTerminalParityDefaultFg else ⟨212, 163, 72, 255⟩

structure Terminal (F : Type) where
  grid : CellGrid
  cursorRow : Nat
  cursorCol : Nat
  wrapPending : Bool
  savedCursor : Nat × Nat
  fg : Color
  bg : Color
  attrs : CellAttrs
  rows : Nat
  cols : Nat
  title : String
  scrollback : List (List Cell)
  scrollOffset : Nat
  scrollAccumLines : F
  scrollAnim : Option (ScrollMotion F)
  scrollAnimCellH : F
  scrollViewFraction : F
  altGrid : Option CellGrid
  altSavedCursor : Nat × Nat
  altSavedFg : Color
  altSavedBg : Color
  altSavedAttrs : CellAttrs
  scrollTop : Nat
  scrollBot : Nat
  pendingResponse : List UInt8
  pendingSignals : List TerminalSignal
  synchronizedOutputActive : Bool
  bracketedPaste : Bool
  focusReporting1004 : Bool
  mouseReport1000 : Bool
  mouseReport1002 : Bool
  mouseReport1003 : Bool
  mouseSgr : Bool
  mouseWheelAccum : F
  evictedLines : Nat
  globalCellH : F

namespace Terminal

variable {F : Type} [F32 F]

def new (parity : Bool) (rows cols : Nat) : Terminal F where
  grid := .new rows cols
  cursorRow := 0
  cursorCol := 0
  wrapPending := false
  savedCursor := (0, 0)
  fg := defaultFg parity
  bg := .transparent
  attrs := 0
  rows
  cols
  title := ""
  scrollback := []
  scrollOffset := 0
  scrollAccumLines := zero
  scrollAnim := none
  scrollAnimCellH := zero
  scrollViewFraction := zero
  altGrid := none
  altSavedCursor := (0, 0)
  altSavedFg := defaultFg parity
  altSavedBg := .transparent
  altSavedAttrs := 0
  scrollTop := 0
  scrollBot := rows
  pendingResponse := []
  pendingSignals := []
  synchronizedOutputActive := false
  bracketedPaste := false
  focusReporting1004 := false
  mouseReport1000 := false
  mouseReport1002 := false
  mouseReport1003 := false
  mouseSgr := false
  mouseWheelAccum := zero
  evictedLines := 0
  globalCellH := zero

/-! ## the scroll position -/

def resetScroll (t : Terminal F) : Terminal F :=
  { t with scrollOffset := 0, scrollAccumLines := zero, scrollAnim := none, scrollViewFraction := zero }

/-- the sampled fraction goes back to the carry -/
def collapseScrollAnimation (t : Terminal F) : Terminal F :=
  if t.scrollAnim.isSome then
    { t with scrollAnim := none, scrollAccumLines := t.scrollViewFraction, scrollViewFraction := zero }
  else t

/-- the animation's pixel space follows the cell height -/
def rescaleScrollAnimation (t : Terminal F) (cellH : F) : Terminal F :=
  match t.scrollAnim with
  | none => t
  | some m =>
    if lt zero t.scrollAnimCellH && lt zero cellH && !eq t.scrollAnimCellH cellH then
      let ratio := div cellH t.scrollAnimCellH
      { t with
        scrollAnim := some { m with start := mul m.start ratio, target := mul m.target ratio }
        scrollAnimCellH := cellH }
    else t

/-- whole rows and the fraction of a row that is rendered -/
def fractionalViewPosition (t : Terminal F) : Nat × F :=
  if t.scrollAnim.isSome then (t.scrollOffset, t.scrollViewFraction)
  else
    let carry := t.scrollAccumLines
    if lt zero carry then
      if t.scrollOffset ≥ t.scrollback.length then (t.scrollOffset, zero) else (t.scrollOffset, carry)
    else if lt carry zero && t.scrollOffset ≥ 1 then (t.scrollOffset - 1, add one carry)
    else (t.scrollOffset, zero)

def renderedScrollPx (t : Terminal F) (cellH : F) : Nat × Int :=
  let (offset, fraction) := t.fractionalViewPosition
  (offset, roundToI64 (mul (sub fraction one) cellH))

/-- the view follows the output -/
def liveBottomIntent (t : Terminal F) : Bool :=
  match t.scrollAnim with
  | some m => lt (abs m.target) half
  | none =>
    let (offset, fraction) := t.fractionalViewPosition
    if offset ≠ 0 then false
    else if eq fraction zero then true
    else
      let cellH := if lt zero t.scrollAnimCellH then t.scrollAnimCellH else t.globalCellH
      lt zero cellH && lt (mul fraction cellH) half

def scrollViewUp (t : Terminal F) (n : Nat) : Terminal F :=
  let t := t.collapseScrollAnimation
  { t with scrollOffset := min (t.scrollOffset + n) t.scrollback.length }

def scrollViewDown (t : Terminal F) (n : Nat) : Terminal F :=
  let t := t.collapseScrollAnimation
  { t with scrollOffset := t.scrollOffset - n }

/-- whole lines are applied, the rest is carried over; the lines that were applied -/
def scrollViewByLines (t : Terminal F) (deltaLines : F) : Int × Terminal F :=
  if !isFinite deltaLines then (0, t)
  else
    let t := t.collapseScrollAnimation
    let accum := add t.scrollAccumLines deltaLines
    let accum := if isFinite accum then accum else zero
    let whole := truncToI32 accum
    let t := { t with scrollAccumLines := sub accum (ofInt whole) }
    let before := t.scrollOffset
    let t :=
      if whole > 0 then t.scrollViewUp whole.toNat
      else if whole < 0 then t.scrollViewDown (-whole).toNat
      else t
    let applied : Int := t.scrollOffset - before
    let t := if applied ≠ whole then { t with scrollAccumLines := zero } else t
    let t :=
      if (t.scrollOffset = 0 && lt t.scrollAccumLines zero)
          || (t.scrollOffset = t.scrollback.length && lt zero t.scrollAccumLines) then
        { t with scrollAccumLines := zero }
      else t
    (applied, t)

/-- the whole rows of a pixel position, no more than there is history -/
def wholeRows (t : Terminal F) (posPx cellH : F) : Nat :=
  min (toUsize (F32.max (floor (div posPx cellH)) zero)) t.scrollback.length

/-- the part of a row beyond the whole rows -/
def partRow (t : Terminal F) (posPx cellH : F) : F :=
  let whole := t.wholeRows posPx cellH
  if whole ≥ t.scrollback.length then zero
  else clamp (sub (div posPx cellH) (ofNat whole)) zero (sub one epsilon)

def settleScrollPositionPx (t : Terminal F) (posPx cellH : F) : Terminal F :=
  { t with
    scrollOffset := t.wholeRows posPx cellH
    scrollAccumLines := t.partRow posPx cellH
    scrollViewFraction := zero }

/-- start or retarget the wheel animation; whether a repaint is needed -/
def scrollAnimateByPx (t : Terminal F) (deltaPx : F) (now duration : Nat) (initialSlope cellH : F) :
    Bool × Terminal F :=
  if !isFinite deltaPx || !isFinite initialSlope || !isFinite cellH || le cellH zero then (false, t)
  else
    let t := t.rescaleScrollAnimation cellH
    let maxPx := mul (ofNat t.scrollback.length) cellH
    let hadAnim := t.scrollAnim.isSome
    let (current, t) := match t.scrollAnim with
      | some m => (clamp (m.sample now).1 zero maxPx, t)
      | none =>
        let (offset, fraction) := t.fractionalViewPosition
        (clamp (mul (add (ofNat offset) fraction) cellH) zero maxPx,
          { t with scrollOffset := offset, scrollViewFraction := fraction, scrollAccumLines := zero })
    match ScrollMotion.retarget t.scrollAnim current (neg deltaPx) maxPx now duration initialSlope with
    | some m => (true, { t with scrollAnim := some m, scrollAnimCellH := cellH })
    | none => (hadAnim, settleScrollPositionPx { t with scrollAnim := none } current cellH)

/-- advance the wheel animation; whether the picture changed and whether it is over -/
def sampleScrollAnimation (t : Terminal F) (now : Nat) (cellH : F) : Option (Bool × Bool) × Terminal F :=
  match t.scrollAnim with
  | none => (none, t)
  | some motion =>
    if !isFinite cellH || le cellH zero then (some (false, false), t)
    else
      let t := t.rescaleScrollAnimation cellH
      let motion := t.scrollAnim.getD motion
      let maxPx := mul (ofNat t.scrollback.length) cellH
      let (rawPos, _, finished) := motion.sample now
      let pos := clamp rawPos zero maxPx
      let before := t.renderedScrollPx cellH
      let t :=
        if finished then settleScrollPositionPx { t with scrollAnim := none } pos cellH
        else { t with scrollOffset := t.wholeRows pos cellH, scrollViewFraction := t.partRow pos cellH }
      (some (before ≠ t.renderedScrollPx cellH, finished), t)

/-! ## scrolling and erasing -/

def clearPendingWrap (t : Terminal F) : Terminal F := { t with wrapPending := false }

def regionIsFullScreen (t : Terminal F) : Bool := t.scrollTop = 0 ∧ t.scrollBot = t.rows

/-- a blank cell in the colours of the pen -/
def erased (t : Terminal F) : Cell := ⟨' ', t.fg, t.bg, 0, false⟩

/-- a row of the grid as a line of the scrollback -/
def rowCells (t : Terminal F) (row : Nat) : List Cell :=
  (List.range t.cols).map fun col => (t.grid.getCell row col).getD .empty

/-- a line that leaves the screen; a view into the history moves with it -/
def captureTop (t : Terminal F) : Terminal F :=
  let scrollback := t.scrollback ++ [t.rowCells t.scrollTop]
  let t := if scrollback.length > maxScrollback then
      { t with scrollback := scrollback.drop 1, evictedLines := t.evictedLines + 1 }
    else { t with scrollback }
  if t.liveBottomIntent then t
  else
    let anim := t.scrollAnim.map fun m =>
      if lt zero t.scrollAnimCellH then
        { m with
          start := add m.start t.scrollAnimCellH
          target :=
            let target := add m.target t.scrollAnimCellH
            let maxPx := mul (ofNat t.scrollback.length) t.scrollAnimCellH
            if lt maxPx target then maxPx else target }
      else m
    { t with scrollOffset := min (t.scrollOffset + 1) t.scrollback.length, scrollAnim := anim }

def clearRow (t : Terminal F) (row : Nat) : Terminal F :=
  { t with grid :=
    (iter 0 t.cols (fun g col => g.setCell row col t.erased) t.grid).resetLineIdentity row }

def shiftRows (t : Terminal F) (dst src count : Nat) : Terminal F :=
  { t with grid := t.grid.shiftRows dst src count }

def scrollUp (t : Terminal F) : Terminal F :=
  if t.rows = 0 ∨ t.scrollBot ≤ t.scrollTop then t
  else
    let top := t.scrollTop
    let bot := t.scrollBot
    let t := if top = 0 ∧ t.altGrid.isNone then t.captureTop else t
    let moveCount := bot - top - 1
    let t := if moveCount > 0 then t.shiftRows top (top + 1) moveCount else t
    t.clearRow (bot - 1)

def scrollDown (t : Terminal F) : Terminal F :=
  if t.rows = 0 ∨ t.scrollBot ≤ t.scrollTop then t
  else
    let top := t.scrollTop
    let bot := t.scrollBot
    let moveCount := bot - top - 1
    let t := if moveCount > 0 then t.shiftRows (top + 1) top moveCount else t
    t.clearRow top

/-- both ends are inclusive -/
def clearRegion (t : Terminal F) (startRow startCol endRow endCol : Nat) : Terminal F :=
  let er := min endRow (t.rows - 1)
  let ec := min endCol (t.cols - 1)
  { t with grid := iter startRow (er + 1) (fun g r =>
    iter startCol (ec + 1) (fun g c => g.setCell r c t.erased) g) t.grid }

/-- one row down, or the region one row up when the cursor is on its last row -/
def lineDown (t : Terminal F) : Terminal F :=
  if t.cursorRow + 1 = t.scrollBot then t.scrollUp
  else if t.cursorRow + 1 < t.rows then { t with cursorRow := t.cursorRow + 1 }
  else { t with cursorRow := t.rows - 1 }

def wrapToNextLine (t : Terminal F) : Terminal F := (lineDown { t with cursorCol := 0 }).clearPendingWrap

def prepareForPrintable (t : Terminal F) : Terminal F := if t.wrapPending then t.wrapToNextLine else t

def putChar (t : Terminal F) (c : Char) : Terminal F :=
  if t.rows = 0 ∨ t.cols = 0 then t
  else
    let t := t.prepareForPrintable
    let t := { t with grid := t.grid.setCell t.cursorRow t.cursorCol ⟨c, t.fg, t.bg, t.attrs, false⟩ }
    if t.cursorCol + 1 ≥ t.cols then { t with cursorCol := t.cols - 1, wrapPending := true }
    else { t with cursorCol := t.cursorCol + 1, wrapPending := false }

def enterAltScreen (t : Terminal F) : Terminal F :=
  if t.altGrid.isSome then t
  else
    let t := t.resetScroll
    { t with
      altSavedCursor := (t.cursorRow, t.cursorCol)
      altSavedFg := t.fg
      altSavedBg := t.bg
      altSavedAttrs := t.attrs
      grid := (CellGrid.new t.rows t.cols).setCursor 0 0
      altGrid := some t.grid
      cursorRow := 0
      cursorCol := 0
      wrapPending := false }

def exitAltScreen (t : Terminal F) : Terminal F :=
  match t.altGrid with
  | none => t
  | some main =>
    let t := t.resetScroll
    let row := min t.altSavedCursor.1 (t.rows - 1)
    let col := min t.altSavedCursor.2 (t.cols - 1)
    { t with
      grid := main.setCursor row col
      altGrid := none
      cursorRow := row
      cursorCol := col
      wrapPending := false
      fg := t.altSavedFg
      bg := t.altSavedBg
      attrs := t.altSavedAttrs }

/-! ## size and content replaced -/

def swapGrids (t : Terminal F) : Terminal F :=
  match t.altGrid with
  | none => t
  | some other => { t with grid := other, altGrid := some t.grid }

/-- the cursor of the main screen, parked while the alternate screen is active -/
def mainRow (t : Terminal F) : Nat := if t.altGrid.isSome then t.altSavedCursor.1 else t.cursorRow

def setMainRow (t : Terminal F) (row : Nat) : Terminal F :=
  if t.altGrid.isSome then { t with altSavedCursor := (row, t.altSavedCursor.2) }
  else { t with cursorRow := row }

/-- the newest `k` lines of the scrollback become the top rows -/
def growRowsLiftingScrollback (t : Terminal F) (k : Nat) : Terminal F :=
  let splitAt := t.scrollback.length - k
  let lifted := t.scrollback.drop splitAt
  let grid := (t.grid.resize (t.rows + k) t.cols).shiftRows k 0 t.rows
  let grid := iter 0 k (fun g r => iter 0 t.cols (fun g c => g.setCell r c .empty) g) grid
  let blankTop := k - lifted.length
  let grid := iter 0 lifted.length (fun g i =>
    let row := lifted[i]?.getD []
    iter 0 (min row.length t.cols) (fun g c => g.setCell (blankTop + i) c (row[c]?.getD .empty)) g) grid
  { t with grid, scrollback := t.scrollback.take splitAt }

/-- a line for the scrollback, the oldest one leaves when there are too many -/
def pushLine (lines : List (List Cell)) (line : List Cell) : List (List Cell) :=
  let lines := lines ++ [line]
  if lines.length > maxScrollback then lines.drop 1 else lines

/-- the top `n` rows become lines of the scrollback -/
def shrinkRowsEvictingToScrollback (t : Terminal F) (n : Nat) : Terminal F :=
  { t with
    scrollback := iter 0 n (fun lines r => pushLine lines (t.rowCells r)) t.scrollback
    grid := t.grid.shiftRows 0 n (t.rows - n) }

/-- the rows of the main grid move with the bottom of the screen -/
def reflow (t : Terminal F) (rows : Nat) : Terminal F :=
  if rows > t.rows then
    let k := rows - t.rows
    (t.growRowsLiftingScrollback k).setMainRow (t.mainRow + k)
  else if rows < t.rows then
    let evictAbove := min (t.rows - rows) t.mainRow
    if evictAbove > 0 then (t.shrinkRowsEvictingToScrollback evictAbove).setMainRow (t.mainRow - evictAbove)
    else t
  else t

/-- the main grid, then, back in its place, the grid of the alternate screen -/
def resizeGrids (t : Terminal F) (rows cols : Nat) : Terminal F :=
  let t := swapGrids { t with grid := t.grid.resize rows cols }
  { t with grid := if t.altGrid.isSome then t.grid.resize rows cols else t.grid, rows, cols }

def clampScrollRegionAfterResize (t : Terminal F) (rows : Nat) (wasFullScreen : Bool) : Terminal F :=
  if wasFullScreen ∨ t.scrollTop ≥ rows ∨ t.scrollBot > rows ∨ t.scrollTop ≥ t.scrollBot then
    { t with scrollTop := 0, scrollBot := rows }
  else t

def clampCursors (t : Terminal F) (rows cols : Nat) : Terminal F :=
  let t := { t with
    cursorRow := min t.cursorRow (rows - 1), cursorCol := min t.cursorCol (cols - 1), wrapPending := false }
  if t.altGrid.isSome then
    { t with altSavedCursor := (min t.altSavedCursor.1 (rows - 1), min t.altSavedCursor.2 (cols - 1)) }
  else t

/-- the cursor is shown on the grid -/
def syncCursor (t : Terminal F) : Terminal F := { t with grid := t.grid.setCursor t.cursorRow t.cursorCol }

def resize (t : Terminal F) (rows cols : Nat) : Terminal F :=
  let t := if rows ≠ t.rows ∨ cols ≠ t.cols then t.collapseScrollAnimation else t
  let wasFullScreen := t.regionIsFullScreen
  let t := (t.swapGrids.reflow rows).resizeGrids rows cols
  ((t.clampScrollRegionAfterResize rows wasFullScreen).clampCursors rows cols).syncCursor

/-- growth that leaves the rows where they are -/
def resizeViewportGrowth (t : Terminal F) (rows cols : Nat) : Terminal F :=
  if rows ≤ t.rows then t.resize rows cols
  else
    let t := t.collapseScrollAnimation
    let wasFullScreen := t.regionIsFullScreen
    let t := { t with
      grid := t.grid.resize rows cols, altGrid := t.altGrid.map fun (alt : CellGrid) => alt.resize rows cols, rows, cols }
    ((t.clampScrollRegionAfterResize rows wasFullScreen).clampCursors rows cols).syncCursor

/-- what the daemon sends when a pane attaches -/
structure Snapshot where
  grid : Core.Grid
  scrollback : List (List Core.Cell)
  mouseModes : Core.MouseModes
  focusReporting1004 : Bool

def coreCellToUi (cell : Core.Cell) : Cell := ⟨cell.ch, cell.fg, cell.bg, cell.attrs, false⟩

/-- the size of the snapshot, its rows at the top of the grid -/
def fitSnapshot (t : Terminal F) (rows cols : Nat) : Terminal F :=
  if rows ≠ t.rows ∨ cols ≠ t.cols then
    let wasFullScreen := t.regionIsFullScreen
    clampScrollRegionAfterResize { t with
      rows, cols, grid := t.grid.resize rows cols,
      altGrid := t.altGrid.map fun (alt : CellGrid) => alt.resize rows cols } rows wasFullScreen
  else t

/-- the cells of the snapshot, one after the other -/
def paintSnapshot (snapshot : Core.Grid) (grid : CellGrid) : CellGrid :=
  iter 0 snapshot.rows (fun g r => iter 0 snapshot.cols (fun g c =>
    match snapshot.get r c with
    | some cell => g.setCell r c (coreCellToUi cell)
    | none => g) g) grid

def applySnapshot (t : Terminal F) (s : Snapshot) : Terminal F :=
  let rows := s.grid.rows
  let cols := s.grid.cols
  let t := t.fitSnapshot rows cols
  let grid := paintSnapshot s.grid t.grid
  let cursorRow := min s.grid.cursorRow (rows - 1)
  let cursorCol := min s.grid.cursorCol (cols - 1)
  resetScroll { t with
    grid := (grid.setCursor cursorRow cursorCol).setCursorVisible s.grid.cursorVisible
    cursorRow
    cursorCol
    wrapPending := false
    mouseReport1000 := s.mouseModes.report1000
    mouseReport1002 := s.mouseModes.report1002
    mouseReport1003 := s.mouseModes.report1003
    mouseSgr := s.mouseModes.sgr
    focusReporting1004 := s.focusReporting1004
    mouseWheelAccum := zero
    scrollback := s.scrollback.map fun line => line.map coreCellToUi }

/-! ## control sequences -/

/-- `handle_sgr` with this emulator's default foreground -/
def handleSgr (parity : Bool) (t : Terminal F) (pv : List Nat) : Terminal F :=
  let pen := (Pen.handleSgr parity (defaultFg parity) ⟨t.fg, t.bg, t.attrs⟩ pv).getD ⟨t.fg, t.bg, t.attrs⟩
  { t with fg := pen.fg, bg := pen.bg, attrs := pen.attrs }

/-- `p(idx, default)`: a missing parameter and zero are the default -/
def param (pv : List Nat) (idx default : Nat) : Nat := max (pv[idx]?.getD 0) default

/-- DECSET and DECRST -/
def setPrivateMode (on : Bool) (t : Terminal F) (mode : Nat) : Terminal F :=
  match mode with
  | 25 => { t with grid := t.grid.setCursorVisible on }
  | 1000 => { t with mouseReport1000 := on }
  | 1002 => { t with mouseReport1002 := on }
  | 1003 => { t with mouseReport1003 := on }
  | 1006 => { t with mouseSgr := on }
  | 1004 => { t with focusReporting1004 := on }
  | 2004 => { t with bracketedPaste := on }
  | 2026 => { t with synchronizedOutputActive := on }
  | 47 | 1047 | 1049 => if on then t.enterAltScreen else t.exitAltScreen
  | _ => t

/-- ED -/
def eraseDisplay (t : Terminal F) (mode : Nat) : Terminal F :=
  match mode with
  | 0 =>
    let t := t.clearRegion t.cursorRow t.cursorCol t.cursorRow (t.cols - 1)
    if t.cursorRow + 1 < t.rows then t.clearRegion (t.cursorRow + 1) 0 (t.rows - 1) (t.cols - 1) else t
  | 1 =>
    let t := if t.cursorRow > 0 then t.clearRegion 0 0 (t.cursorRow - 1) (t.cols - 1) else t
    t.clearRegion t.cursorRow 0 t.cursorRow t.cursorCol
  | 2 => t.clearRegion 0 0 (t.rows - 1) (t.cols - 1)
  | 3 =>
    let t := t.clearRegion 0 0 (t.rows - 1) (t.cols - 1)
    resetScroll { t with scrollback := [] }
  | _ => t

/-- EL -/
def eraseLine (t : Terminal F) (mode : Nat) : Terminal F :=
  match mode with
  | 0 => t.clearRegion t.cursorRow t.cursorCol t.cursorRow (t.cols - 1)
  | 1 => t.clearRegion t.cursorRow 0 t.cursorRow t.cursorCol
  | 2 => t.clearRegion t.cursorRow 0 t.cursorRow (t.cols - 1)
  | _ => t

/-- IL -/
def insertLines (t : Terminal F) (n : Nat) : Terminal F :=
  let row := t.cursorRow
  let bot := t.scrollBot
  if row < t.scrollTop ∨ row ≥ bot then t
  else
    let n := min n (bot - row)
    if n > 0 then
      let moveCount := bot - (row + n)
      let t := if moveCount > 0 then t.shiftRows (row + n) row moveCount else t
      iter row (row + n) (fun t r => t.clearRow r) t
    else t

/-- DL -/
def deleteLines (t : Terminal F) (n : Nat) : Terminal F :=
  let row := t.cursorRow
  let bot := t.scrollBot
  if row < t.scrollTop ∨ row ≥ bot then t
  else
    let n := min n (bot - row)
    if n > 0 then
      let moveCount := bot - (row + n)
      let t := if moveCount > 0 then t.shiftRows row (row + n) moveCount else t
      iter (bot - n) bot (fun t r => t.clearRow r) t
    else t

/-- a cell copied inside a row, when there is one to copy -/
def copyCell (g : CellGrid) (row dst src : Nat) : CellGrid :=
  match g.getCell row src with
  | some cell => g.setCell row dst cell
  | none => g

/-- blanks over the columns `[c, c')` of the cursor's row -/
def blankCells (t : Terminal F) (c c' : Nat) (grid : CellGrid) : Terminal F :=
  { t with grid := iter c c' (fun g col => g.setCell t.cursorRow col t.erased) grid }

/-- ICH -/
def insertChars (t : Terminal F) (n : Nat) : Terminal F :=
  let n := min n (t.cols - t.cursorCol)
  let grid := iterRev (t.cursorCol + n) t.cols (fun g col => copyCell g t.cursorRow col (col - n)) t.grid
  t.blankCells t.cursorCol (t.cursorCol + n) grid

/-- DCH -/
def deleteChars (t : Terminal F) (n : Nat) : Terminal F :=
  let n := min n (t.cols - t.cursorCol)
  let grid := iter t.cursorCol (t.cols - n) (fun g col => copyCell g t.cursorRow col (col + n)) t.grid
  t.blankCells (t.cols - n) t.cols grid

/-- ECH -/
def eraseChars (t : Terminal F) (n : Nat) : Terminal F :=
  let n := min n (t.cols - t.cursorCol)
  t.blankCells t.cursorCol (t.cursorCol + n) t.grid

/-- DECSTBM -/
def setMargins (t : Terminal F) (pv : List Nat) : Terminal F :=
  let top := if pv[0]?.getD 0 = 0 then 1 else pv[0]?.getD 0
  let bot := if pv[1]?.getD 0 = 0 then t.rows else pv[1]?.getD 0
  let newTop := top - 1
  let newBot := min bot t.rows
  if newTop < newBot ∧ newBot ≤ t.rows then
    { t with scrollTop := newTop, scrollBot := newBot, cursorRow := 0, cursorCol := 0 }
  else t

def respond (t : Terminal F) (reply : String) : Terminal F :=
  { t with pendingResponse := t.pendingResponse ++ utf8 reply }

/-- the sequences leave the pending wrap alone or have cleared it -/
def csiAction (parity : Bool) (t : Terminal F) (pv : List Nat) (intermediates : List UInt8) (action : Char) :
    Terminal F :=
  let p0 := param pv 0 1
  let lastRow := t.rows - 1
  let lastCol := t.cols - 1
  match action with
  | 'A' => { t with cursorRow := t.cursorRow - p0 }
  | 'B' => { t with cursorRow := min (t.cursorRow + p0) lastRow }
  | 'C' => { t with cursorCol := min (t.cursorCol + p0) lastCol }
  | 'D' => { t with cursorCol := t.cursorCol - p0 }
  | 'H' | 'f' => { t with
      cursorRow := min (param pv 0 1 - 1) lastRow, cursorCol := min (param pv 1 1 - 1) lastCol }
  | 'd' => { t with cursorRow := min (p0 - 1) lastRow }
  | 'G' => { t with cursorCol := min (p0 - 1) lastCol }
  | 'J' => t.eraseDisplay (pv[0]?.getD 0)
  | 'K' => t.eraseLine (pv[0]?.getD 0)
  | 'L' => t.insertLines p0
  | 'M' => if intermediates = [] then t.deleteLines p0 else t
  | 'S' => iter 0 p0 (fun t _ => t.scrollUp) t
  | 'T' => iter 0 p0 (fun t _ => t.scrollDown) t
  | '@' => t.insertChars p0
  | 'P' => t.deleteChars p0
  | 'X' => t.eraseChars p0
  | 'm' => t.handleSgr parity pv
  | 'r' => if intermediates = [] then t.setMargins pv else t
  | 'h' => if intermediates = [0x3f] then pv.foldl (setPrivateMode true) t else t
  | 'l' => if intermediates = [0x3f] then pv.foldl (setPrivateMode false) t else t
  | 'c' => if intermediates = [] then t.respond "\x1b[?1;2c"
      else if intermediates = [0x3e] then t.respond "\x1b[>0;95;0c" else t
  | 'n' => if intermediates = [] ∧ pv[0]? = some 5 then t.respond "\x1b[0n"
      else if intermediates = [] ∧ pv[0]? = some 6 then
        t.respond ("\x1b[" ++ toString (t.cursorRow + 1) ++ ";" ++ toString (t.cursorCol + 1) ++ "R")
      else t
  | 'q' => if intermediates = [0x3e] then t.respond "\x1bP>|godly-terminal 0.1\x1b\\" else t
  | _ => t

/-- the sequences that leave a pending wrap alone -/
def preservesPendingWrap (intermediates : List UInt8) (action : Char) : Bool :=
  (action = 'm' || action = 'c' || action = 'n' || action = 'q') ||
    (intermediates = [0x3f] && (action = 'h' || action = 'l'))

def csiDispatch (parity : Bool) (t : Terminal F) (params : List Param) (intermediates : List UInt8)
    (action : Char) : Terminal F :=
  csiAction parity (if preservesPendingWrap intermediates action then t else t.clearPendingWrap)
    (firsts params) intermediates action

/-! ## the other callbacks -/

/-- the oldest signal gives way when too many wait -/
def queueSignal (t : Terminal F) (signal : TerminalSignal) : Terminal F :=
  let waiting := if t.pendingSignals.length ≥ maxPendingTerminalSignals then t.pendingSignals.drop 1
    else t.pendingSignals
  { t with pendingSignals := waiting ++ [signal] }

/-- OSC 9: the fields after the command, joined by semicolons again -/
def queueOsc9 (t : Terminal F) (params : List (List UInt8)) : Terminal F :=
  let payload := [0x3b].intercalate (params.drop 1)
  if params.length < 2 ∨ payload.length > maxOsc9PayloadBytes ∨ payload = [] then t
  else match fromUtf8 payload with
    | some text => t.queueSignal (.osc9 text)
    | none => t

def execute (t : Terminal F) (byte : UInt8) : Terminal F :=
  match byte with
  | 0x0a => t.clearPendingWrap.lineDown
  | 0x0d => { t.clearPendingWrap with cursorCol := 0 }
  | 0x09 => { t.clearPendingWrap with cursorCol := min ((t.cursorCol / 8 + 1) * 8) (t.cols - 1) }
  | 0x08 => { t.clearPendingWrap with cursorCol := t.cursorCol - 1 }
  | 0x07 => t.queueSignal .bell
  | _ => t

/-- OSC 0 and 2 set the title, OSC 9 is a notification -/
def oscDispatch (t : Terminal F) (params : List (List UInt8)) : Terminal F :=
  match params with
  | cmd :: text :: _ =>
    if cmd = utf8 "0" ∨ cmd = utf8 "2" then { t with title := (fromUtf8 text).getD t.title }
    else if cmd = utf8 "9" then t.queueOsc9 params
    else t
  | _ => t

def escDispatch (t : Terminal F) (byte : UInt8) : Terminal F :=
  match byte with
  | 0x37 => { t with savedCursor := (t.cursorRow, t.cursorCol) }
  | 0x38 => { t.clearPendingWrap with
      cursorRow := min t.savedCursor.1 (t.rows - 1), cursorCol := min t.savedCursor.2 (t.cols - 1) }
  | 0x4d =>
    let t := t.clearPendingWrap
    if t.cursorRow = 0 then t.scrollDown else { t with cursorRow := t.cursorRow - 1 }
  | _ => t

def perform (parity : Bool) (t : Terminal F) : Callback → Terminal F
  | .print c => t.putChar c
  | .execute byte => t.execute byte
  | .csiDispatch params intermediates _ action => t.csiDispatch parity params intermediates action
  | .oscDispatch params _ => t.oscDispatch params
  | .escDispatch _ _ byte => t.escDispatch byte

/-- one event of an emulator that is fed callbacks -/
def step (parity : Bool) (t : Terminal F) : Event → Terminal F
  | .call c => t.perform parity c
  | .flush => t.syncCursor
  | .resize rows cols => t.resize rows cols

/-- a chunk of output: a view at the live bottom drops its carry, then the callbacks -/
def processBytes (parity : Bool) (t : Terminal F) (calls : List Callback) : Terminal F :=
  let t := if t.liveBottomIntent then { t with scrollAccumLines := zero } else t
  (calls.foldl (perform parity) t).syncCursor

/-- what is done to the emulator of a pane, and the cell height that a new frame publishes -/
inductive Op (F : Type) where
  | call (c : Callback)
  | processBytes (calls : List Callback)
  | resize (rows cols : Nat)
  | resizeViewportGrowth (rows cols : Nat)
  | applySnapshot (s : Snapshot)
  | scrollViewUp (n : Nat)
  | scrollViewDown (n : Nat)
  | scrollViewByLines (deltaLines : F)
  | scrollAnimateByPx (deltaPx : F) (now duration : Nat) (initialSlope cellH : F)
  | sampleScrollAnimation (now : Nat) (cellH : F)
  | resetScroll
  | publishCellH (cellH : F)

def apply (parity : Bool) (t : Terminal F) : Op F → Terminal F
  | .call c => t.perform parity c
  | .processBytes calls => t.processBytes parity calls
  | .resize rows cols => t.resize rows cols
  | .resizeViewportGrowth rows cols => t.resizeViewportGrowth rows cols
  | .applySnapshot s => t.applySnapshot s
  | .scrollViewUp n => t.scrollViewUp n
  | .scrollViewDown n => t.scrollViewDown n
  | .scrollViewByLines deltaLines => (t.scrollViewByLines deltaLines).2
  | .scrollAnimateByPx deltaPx now duration initialSlope cellH =>
    (t.scrollAnimateByPx deltaPx now duration initialSlope cellH).2
  | .sampleScrollAnimation now cellH => (t.sampleScrollAnimation now cellH).2
  | .resetScroll => t.resetScroll
  | .publishCellH cellH => { t with globalCellH := cellH }

/-- no operation fails -/
def next (parity : Bool) (t : Terminal F) (op : Op F) : Option (Terminal F) := some (t.apply parity op)

end Terminal
end TerminalManager.Ui
