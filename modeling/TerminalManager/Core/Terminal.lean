import TerminalManager.Term.Sgr
import TerminalManager.Core.Grid

/-!
# The daemon's emulator

`unshit-terminal-core`'s `Terminal`: a grid, its scrollback, the parked main grid while the
alternate screen is active, and what each callback of the `vte` parser does to them.  `none` is a
panic: an index or a range out of bounds, or a subtraction below zero.

* `resize`, `scrollUp`, `scrollDown`, `clearRegion`, `putChar`   the methods of `Terminal`;
* `csiDispatch`, `execute`, `escDispatch`, `oscDispatch`   those of its `Performer`;
* `step`, `run`   one event, and a list of them.

The sizes are those of a pseudo terminal (`u16`), so that sums and products of `usize` are exact.
The flag `parity` is the environment switch for Windows Terminal colours.
-/

namespace TerminalManager.Core
open Loops Slice Term

structure MouseModes where
  report1000 : Bool
  report1002 : Bool
  report1003 : Bool
  sgr : Bool
deriving DecidableEq

structure Terminal where
  grid : Grid
  scrollback : Scrollback
  rows : Nat
  cols : Nat
  cursorRow : Nat
  cursorCol : Nat
  wrapPending : Bool
  savedCursor : Nat × Nat
  fg : Color
  bg : Color
  attrs : CellAttrs
  title : String
  altGrid : Option Grid
  altSavedCursor : Nat × Nat
  altSavedFg : Color
  altSavedBg : Color
  altSavedAttrs : CellAttrs
  scrollTop : Nat
  scrollBot : Nat
  pendingResponse : List UInt8
  synchronizedOutputActive : Bool
  mouseModes : MouseModes
  focusReporting1004 : Bool
deriving DecidableEq

def defaultFg (parity : Bool) : Color := if parity then windowsTerminalParityDefaultFg else .white

namespace Terminal

def new (parity : Bool) (rows cols maxScrollback : Nat) : Terminal where
  grid := .new rows cols
  scrollback := .new maxScrollback
  rows
  cols
  cursorRow := 0
  cursorCol := 0
  wrapPending := false
  savedCursor := (0, 0)
  fg := defaultFg parity
  bg := .transparent
  attrs := 0
  title := ""
  altGrid := none
  altSavedCursor := (0, 0)
  altSavedFg := defaultFg parity
  altSavedBg := .transparent
  altSavedAttrs := 0
  scrollTop := 0
  scrollBot := rows
  pendingResponse := []
  synchronizedOutputActive := false
  mouseModes := ⟨false, false, false, false⟩
  focusReporting1004 := false

def regionIsFullScreen (t : Terminal) : Bool := t.scrollTop = 0 ∧ t.scrollBot = t.rows

def clearPendingWrap (t : Terminal) : Terminal := { t with wrapPending := false }

/-- a blank cell in the colours of the pen -/
def erased (t : Terminal) : Cell := ⟨' ', t.fg, t.bg, 0⟩

/-! ## resizing -/

/-- the grid and the parked one change places -/
def swapGrids (t : Terminal) : Terminal :=
  match t.altGrid with
  | none => t
  | some other => { t with grid := other, altGrid := some t.grid }

/-- the cursor of the main screen, parked while the alternate screen is active -/
def mainRow (t : Terminal) : Nat := if t.altGrid.isSome then t.altSavedCursor.1 else t.cursorRow

def setMainRow (t : Terminal) (row : Nat) : Terminal :=
  if t.altGrid.isSome then { t with altSavedCursor := (row, t.altSavedCursor.2) }
  else { t with cursorRow := row }

/-- the rows of the main grid move with the bottom of the screen -/
def reflow (t : Terminal) (rows : Nat) : Option Terminal :=
  if rows > t.rows then do
    let k := rows - t.rows
    let (lifted, scrollback) ← t.scrollback.popBackN k
    let grid ← t.grid.growRowsAtTop k lifted
    some (setMainRow { t with grid, scrollback } (t.mainRow + k))
  else if rows < t.rows then
    let evictAbove := min (t.rows - rows) t.mainRow
    if evictAbove > 0 then do
      let (evicted, grid) ← t.grid.shrinkRowsFromTop evictAbove
      let row ← sub? t.mainRow evictAbove
      some (setMainRow { t with grid, scrollback := evicted.foldl .push t.scrollback } row)
    else some t
  else some t

def clampScrollRegionAfterResize (t : Terminal) (rows : Nat) (wasFullScreen : Bool) : Terminal :=
  if wasFullScreen ∨ t.scrollTop ≥ rows ∨ t.scrollBot > rows ∨ t.scrollTop ≥ t.scrollBot then
    { t with scrollTop := 0, scrollBot := rows }
  else t

def clampCursors (t : Terminal) (rows cols : Nat) : Terminal :=
  let t := { t with
    cursorRow := min t.cursorRow (rows - 1), cursorCol := min t.cursorCol (cols - 1), wrapPending := false }
  if t.altGrid.isSome then
    { t with altSavedCursor := (min t.altSavedCursor.1 (rows - 1), min t.altSavedCursor.2 (cols - 1)) }
  else t

/-- the main grid, then, back in its place, the grid of the alternate screen -/
def resizeGrids (t : Terminal) (rows cols : Nat) : Option Terminal := do
  let main ← t.grid.resize rows cols
  let t := swapGrids { t with grid := main }
  let grid ← if t.altGrid.isSome then t.grid.resize rows cols else some t.grid
  some { t with grid, rows, cols }

def resize (t : Terminal) (rows cols : Nat) : Option Terminal := do
  let wasFullScreen := t.regionIsFullScreen
  let t ← t.swapGrids.reflow rows
  let t ← t.resizeGrids rows cols
  let t := (t.clampScrollRegionAfterResize rows wasFullScreen).clampCursors rows cols
  some { t with grid := t.grid.setCursor t.cursorRow t.cursorCol }

/-! ## scrolling and erasing -/

def copyRow (t : Terminal) (dst src : Nat) : Option Terminal :=
  if dst ≥ t.rows ∨ src ≥ t.rows then some t
  else (forRange 0 t.cols (fun g col => g.set dst col ((g.get src col).getD .blank)) t.grid).map
    fun grid => { t with grid }

def clearRow (t : Terminal) (row : Nat) : Option Terminal :=
  if row ≥ t.rows then some t
  else (forRange 0 t.cols (fun g col => g.set row col t.erased) t.grid).map fun grid => { t with grid }

def scrollUpAndCapture (t : Terminal) : Option Terminal := do
  let (evicted, grid) ← t.grid.scrollUp
  if t.altGrid.isNone ∧ evicted ≠ [] then
    some { t with grid, scrollback := t.scrollback.push evicted }
  else some { t with grid }

def scrollUp (t : Terminal) : Option Terminal :=
  if t.rows = 0 ∨ t.scrollBot ≤ t.scrollTop then some t
  else if t.regionIsFullScreen then t.scrollUpAndCapture
  else do
    let top := t.scrollTop
    let bot := t.scrollBot
    let t := if top = 0 ∧ t.altGrid.isNone then
        { t with scrollback := t.scrollback.push ((List.range t.cols).filterMap fun col => t.grid.get top col) }
      else t
    let t ← forRange top (bot - 1) (fun t row => t.copyRow row (row + 1)) t
    t.clearRow (← sub? bot 1)

def scrollDown (t : Terminal) : Option Terminal :=
  if t.rows = 0 ∨ t.scrollBot ≤ t.scrollTop then some t
  else do
    let top := t.scrollTop
    let t ← forRangeRev (top + 1) t.scrollBot (fun t row => do t.copyRow row (← sub? row 1)) t
    t.clearRow top

/-- both ends are inclusive -/
def clearRegion (t : Terminal) (startRow startCol endRow endCol : Nat) : Option Terminal :=
  let er := min endRow (t.rows - 1)
  let ec := min endCol (t.cols - 1)
  (forRange startRow (er + 1) (fun g r => forRange startCol (ec + 1) (fun g c => g.set r c t.erased) g)
    t.grid).map fun grid => { t with grid }

/-- one row down, or the region one row up when the cursor is on its last row -/
def lineDown (t : Terminal) : Option Terminal :=
  if t.cursorRow + 1 = t.scrollBot then t.scrollUp
  else if t.cursorRow + 1 < t.rows then some { t with cursorRow := t.cursorRow + 1 }
  else some { t with cursorRow := t.rows - 1 }

def wrapToNextLine (t : Terminal) : Option Terminal :=
  (lineDown { t with cursorCol := 0 }).map clearPendingWrap

def prepareForPrintable (t : Terminal) : Option Terminal :=
  if t.wrapPending then t.wrapToNextLine else some t

def putChar (t : Terminal) (c : Char) : Option Terminal :=
  if t.rows = 0 ∨ t.cols = 0 then some t
  else do
    let t ← t.prepareForPrintable
    let grid ← t.grid.set t.cursorRow t.cursorCol ⟨c, t.fg, t.bg, t.attrs⟩
    if t.cursorCol + 1 ≥ t.cols then
      some { t with grid, cursorCol := ← sub? t.cols 1, wrapPending := true }
    else some { t with grid, cursorCol := t.cursorCol + 1, wrapPending := false }

def enterAltScreen (t : Terminal) : Terminal :=
  if t.altGrid.isSome then t
  else { t with
    wrapPending := false
    altSavedCursor := (t.cursorRow, t.cursorCol)
    altSavedFg := t.fg
    altSavedBg := t.bg
    altSavedAttrs := t.attrs
    grid := (Grid.new t.rows t.cols).setCursor 0 0
    altGrid := some t.grid
    cursorRow := 0
    cursorCol := 0 }

def exitAltScreen (t : Terminal) : Terminal :=
  match t.altGrid with
  | none => t
  | some main =>
    let row := min t.altSavedCursor.1 (t.rows - 1)
    let col := min t.altSavedCursor.2 (t.cols - 1)
    { t with
      grid := main.setCursor row col
      altGrid := none
      cursorRow := row
      cursorCol := col
      wrapPending := false
      fg := t.altSavedFg
      bg := t.altSavedBg
      attrs := t.altSavedAttrs }

/-- `handle_sgr` with this emulator's default foreground -/
def handleSgr (parity : Bool) (t : Terminal) (pv : List Nat) : Option Terminal := do
  let pen ← Pen.handleSgr parity (defaultFg parity) ⟨t.fg, t.bg, t.attrs⟩ pv
  some { t with fg := pen.fg, bg := pen.bg, attrs := pen.attrs }

/-! ## control sequences -/

/-- `p(idx, default)`: a missing parameter and zero are the default -/
def param (pv : List Nat) (idx default : Nat) : Nat :=
  if pv[idx]?.getD 0 = 0 then default else pv[idx]?.getD 0

/-- DECSET and DECRST -/
def setPrivateMode (on : Bool) (t : Terminal) (code : Nat) : Terminal :=
  match code with
  | 25 => { t with grid := { t.grid with cursorVisible := on } }
  | 1000 => { t with mouseModes := { t.mouseModes with report1000 := on } }
  | 1002 => { t with mouseModes := { t.mouseModes with report1002 := on } }
  | 1003 => { t with mouseModes := { t.mouseModes with report1003 := on } }
  | 1006 => { t with mouseModes := { t.mouseModes with sgr := on } }
  | 1004 => { t with focusReporting1004 := on }
  | 2026 => { t with synchronizedOutputActive := on }
  | 47 | 1047 | 1049 => if on then t.enterAltScreen else t.exitAltScreen
  | _ => t

/-- ED -/
def eraseDisplay (t : Terminal) (mode : Nat) : Option Terminal :=
  match mode with
  | 0 => do
    let t ← t.clearRegion t.cursorRow t.cursorCol t.cursorRow (t.cols - 1)
    if t.cursorRow + 1 < t.rows then
      t.clearRegion (t.cursorRow + 1) 0 (← sub? t.rows 1) (t.cols - 1)
    else some t
  | 1 =>
    if t.cursorRow > 0 then do
      let t ← t.clearRegion 0 0 (← sub? t.cursorRow 1) (t.cols - 1)
      t.clearRegion t.cursorRow 0 t.cursorRow t.cursorCol
    else t.clearRegion t.cursorRow 0 t.cursorRow t.cursorCol
  | 2 => t.clearRegion 0 0 (t.rows - 1) (t.cols - 1)
  | 3 => do
    let t ← t.clearRegion 0 0 (t.rows - 1) (t.cols - 1)
    some { t with scrollback := t.scrollback.clear }
  | _ => some t

/-- EL -/
def eraseLine (t : Terminal) (mode : Nat) : Option Terminal :=
  match mode with
  | 0 => t.clearRegion t.cursorRow t.cursorCol t.cursorRow (t.cols - 1)
  | 1 => t.clearRegion t.cursorRow 0 t.cursorRow t.cursorCol
  | 2 => t.clearRegion t.cursorRow 0 t.cursorRow (t.cols - 1)
  | _ => some t

/-- IL -/
def insertLines (t : Terminal) (n : Nat) : Option Terminal :=
  let row := t.cursorRow
  let bot := t.scrollBot
  if row ≥ t.scrollTop ∧ row < bot then
    let n := min n (bot - row)
    if n > 0 then do
      let t ← forRangeRev (row + n) bot (fun t r => do t.copyRow r (← sub? r n)) t
      forRange row (row + n) (fun t r => t.clearRow r) t
    else some t
  else some t

/-- DL -/
def deleteLines (t : Terminal) (n : Nat) : Option Terminal :=
  let row := t.cursorRow
  let bot := t.scrollBot
  if row ≥ t.scrollTop ∧ row < bot then
    let n := min n (bot - row)
    if n > 0 then do
      let t ← forRange row (bot - n) (fun t r => t.copyRow r (r + n)) t
      forRange (bot - n) bot (fun t r => t.clearRow r) t
    else some t
  else some t

/-- blanks over the columns `[c, c')` of the cursor's row -/
def blankCells (t : Terminal) (c c' : Nat) (grid : Grid) : Option Terminal :=
  (forRange c c' (fun g col => g.set t.cursorRow col t.erased) grid).map fun grid => { t with grid }

/-- a cell copied inside a row, when there is one to copy -/
def copyCell (g : Grid) (row dst src : Nat) : Option Grid :=
  match g.get row src with
  | some cell => g.set row dst cell
  | none => some g

/-- ICH -/
def insertChars (t : Terminal) (n : Nat) : Option Terminal := do
  let n := min n (t.cols - t.cursorCol)
  let grid ← forRangeRev (t.cursorCol + n) t.cols (fun g col => do
    copyCell g t.cursorRow col (← sub? col n)) t.grid
  t.blankCells t.cursorCol (t.cursorCol + n) grid

/-- DCH -/
def deleteChars (t : Terminal) (n : Nat) : Option Terminal := do
  let n := min n (t.cols - t.cursorCol)
  let grid ← forRange t.cursorCol (t.cols - n) (fun g col => copyCell g t.cursorRow col (col + n)) t.grid
  t.blankCells (t.cols - n) t.cols grid

/-- ECH -/
def eraseChars (t : Terminal) (n : Nat) : Option Terminal :=
  let n := min n (t.cols - t.cursorCol)
  t.blankCells t.cursorCol (t.cursorCol + n) t.grid

/-- DECSTBM -/
def setMargins (t : Terminal) (pv : List Nat) : Terminal :=
  let top := if pv[0]?.getD 0 = 0 then 1 else pv[0]?.getD 0
  let bot := if pv[1]?.getD 0 = 0 then t.rows else pv[1]?.getD 0
  let newTop := top - 1
  let newBot := min bot t.rows
  if newTop < newBot ∧ newBot ≤ t.rows then
    { t with scrollTop := newTop, scrollBot := newBot, cursorRow := 0, cursorCol := 0 }
  else t

def respond (t : Terminal) (reply : String) : Terminal :=
  { t with pendingResponse := t.pendingResponse ++ utf8 reply }

/-- the sequences without the intermediate `?` -/
def csiAction (parity : Bool) (t : Terminal) (pv : List Nat) (intermediates : List UInt8) (action : Char) :
    Option Terminal :=
  let p0 := param pv 0 1
  let lastRow := t.rows - 1
  let lastCol := t.cols - 1
  match action with
  | 'A' => some { t with cursorRow := t.cursorRow - p0 }
  | 'B' => some { t with cursorRow := min (t.cursorRow + p0) lastRow }
  | 'C' => some { t with cursorCol := min (t.cursorCol + p0) lastCol }
  | 'D' => some { t with cursorCol := t.cursorCol - p0 }
  | 'H' | 'f' => some { t with
      cursorRow := min (param pv 0 1 - 1) lastRow, cursorCol := min (param pv 1 1 - 1) lastCol }
  | 'd' => some { t with cursorRow := min (p0 - 1) lastRow }
  | 'G' => some { t with cursorCol := min (p0 - 1) lastCol }
  | 'J' => t.eraseDisplay (pv[0]?.getD 0)
  | 'K' => t.eraseLine (pv[0]?.getD 0)
  | 'L' => t.insertLines p0
  | 'M' => if intermediates = [] then t.deleteLines p0 else some t
  | 'S' => forRange 0 p0 (fun t _ => t.scrollUp) t
  | 'T' => forRange 0 p0 (fun t _ => t.scrollDown) t
  | '@' => t.insertChars p0
  | 'P' => t.deleteChars p0
  | 'X' => t.eraseChars p0
  | 'r' => some (if intermediates = [] then t.setMargins pv else t)
  | 'c' => some (if intermediates = [] then t.respond "\x1b[?1;2c"
      else if intermediates = [0x3e] then t.respond "\x1b[>0;95;0c" else t)
  | 'n' => some (if intermediates = [] ∧ pv[0]? = some 5 then t.respond "\x1b[0n"
      else if intermediates = [] ∧ pv[0]? = some 6 then
        t.respond ("\x1b[" ++ toString (t.cursorRow + 1) ++ ";" ++ toString (t.cursorCol + 1) ++ "R")
      else t)
  | 'q' => some (if intermediates = [0x3e] then t.respond "\x1bP>|godly-terminal 0.1\x1b\\" else t)
  | 'm' => t.handleSgr parity pv
  | _ => some t

/-- the actions that leave a pending wrap alone -/
def keepsWrap (action : Char) : Bool := action = 'm' || action = 'c' || action = 'n' || action = 'q'

def csiDispatch (parity : Bool) (t : Terminal) (params : List Param) (intermediates : List UInt8)
    (action : Char) : Option Terminal :=
  let pv := firsts params
  if intermediates = [0x3f] then
    some (if action = 'h' ∨ action = 'l' then pv.foldl (setPrivateMode (action = 'h')) t else t)
  else if intermediates = [0x20] ∧ action = 'q' then some t
  else csiAction parity (if keepsWrap action then t else t.clearPendingWrap) pv intermediates action

/-! ## the other callbacks -/

def execute (t : Terminal) (byte : UInt8) : Option Terminal :=
  match byte with
  | 0x0a => t.clearPendingWrap.lineDown
  | 0x0d => some { t.clearPendingWrap with cursorCol := 0 }
  | 0x09 => some { t.clearPendingWrap with cursorCol := min ((t.cursorCol / 8 + 1) * 8) (t.cols - 1) }
  | 0x08 => some { t.clearPendingWrap with cursorCol := t.cursorCol - 1 }
  | _ => some t

/-- OSC 0 and 2 set the title -/
def oscDispatch (t : Terminal) (params : List (List UInt8)) : Terminal :=
  match params with
  | cmd :: text :: _ =>
    if cmd = utf8 "0" ∨ cmd = utf8 "2" then { t with title := (fromUtf8 text).getD t.title } else t
  | _ => t

def escDispatch (t : Terminal) (byte : UInt8) : Option Terminal :=
  match byte with
  | 0x37 => some { t with savedCursor := (t.cursorRow, t.cursorCol) }
  | 0x38 => some { t.clearPendingWrap with
      cursorRow := min t.savedCursor.1 (t.rows - 1), cursorCol := min t.savedCursor.2 (t.cols - 1) }
  | 0x4d =>
    let t := t.clearPendingWrap
    if t.cursorRow = 0 then t.scrollDown
    else do some { t with cursorRow := ← sub? t.cursorRow 1 }
  | _ => some t

def perform (parity : Bool) (t : Terminal) : Callback → Option Terminal
  | .print c => t.putChar c
  | .execute byte => t.execute byte
  | .csiDispatch params intermediates _ action => t.csiDispatch parity params intermediates action
  | .oscDispatch params _ => some (t.oscDispatch params)
  | .escDispatch _ _ byte => t.escDispatch byte

/-- one event; the end of `process_bytes` shows the cursor on the grid -/
def step (parity : Bool) (t : Terminal) : Event → Option Terminal
  | .call c => t.perform parity c
  | .flush => some { t with grid := t.grid.setCursor t.cursorRow t.cursorCol }
  | .resize rows cols => t.resize rows cols

end Terminal
end TerminalManager.Core
