import TerminalManager.Lib.Transition
import TerminalManager.Ui.Screen

/-!
# Invariants of the UI's emulator

Every callback is made of a few parts: cells are painted, the cursor and the modes change, the
region scrolls, lines are inserted or deleted, the screens are switched, the history is erased.  An
invariant that those parts keep is kept by every callback.

* `Kept I`          the parts keep `I`; `I` carries a budget, the line identities that may still be
  handed out, and scrolling and line edits spend it;
* `perform_kept`    **rule**: then `I` survives a callback, with `idsTaken` less of the budget;
* `Sound`           both grids have the size of the terminal, the cursor is on the screen, the scroll
  region is a part of it;
* `sound_of_run`    every terminal that a run reaches is sound.
-/

set_option linter.unusedSectionVars false

namespace TerminalManager.Ui
open Loops Slice Term Transition

/-- the same grid but for its cells, cursor and visibility -/
structure CellGrid.Painted (g g' : CellGrid) : Prop where
  rows : g'.rows = g.rows
  cols : g'.cols = g.cols
  lineIds : g'.lineIds = g.lineIds
  nextLineId : g'.nextLineId = g.nextLineId
  wellFormed : g.WellFormed → g'.WellFormed

namespace CellGrid

variable {g g' g'' : CellGrid} {rows cols : Nat}

lemma Painted.refl (g : CellGrid) : g.Painted g := ⟨rfl, rfl, rfl, rfl, id⟩

lemma Painted.trans (h : g.Painted g') (h' : g'.Painted g'') : g.Painted g'' :=
  ⟨h'.rows.trans h.rows, h'.cols.trans h.cols, h'.lineIds.trans h.lineIds, h'.nextLineId.trans h.nextLineId,
    fun hg => h'.wellFormed (h.wellFormed hg)⟩

lemma Sized.painted (h : g.Sized rows cols) (hp : g.Painted g') : g'.Sized rows cols :=
  ⟨hp.wellFormed h.wellFormed, hp.rows.trans h.rows, hp.cols.trans h.cols⟩

lemma painted_setCell (g : CellGrid) (r c : Nat) (x : Cell) : g.Painted (g.setCell r c x) :=
  ⟨rows_setCell, cols_setCell, lineIds_setCell, nextLineId_setCell, WellFormed.setCell⟩

lemma painted_setCursor (g : CellGrid) (r c : Nat) : g.Painted (g.setCursor r c) :=
  ⟨rfl, rfl, rfl, rfl, fun h => ⟨h.length, h.lineIds⟩⟩

lemma painted_setCursorVisible (g : CellGrid) (on : Bool) : g.Painted (g.setCursorVisible on) :=
  ⟨rfl, rfl, rfl, rfl, fun h => ⟨h.length, h.lineIds⟩⟩

lemma painted_iter {a b : Nat} {f : CellGrid → Nat → CellGrid} (hf : ∀ g i, Painted g (f g i)) (g : CellGrid) :
    g.Painted (iter a b f g) := by
  apply iter_rule (P := fun _ => g.Painted) (Painted.refl g)
  intro i g' _ _ h
  exact h.trans (hf g' i)

lemma painted_iterRev {a b : Nat} {f : CellGrid → Nat → CellGrid} (hf : ∀ g i, Painted g (f g i)) (g : CellGrid) :
    g.Painted (iterRev a b f g) := by
  apply iterRev_rule (P := fun _ => g.Painted) (Painted.refl g)
  intro i g' _ _ h
  exact h.trans (hf g' i)

lemma painted_fillRow (g : CellGrid) (r c c' : Nat) (x : Cell) :
    g.Painted (iter c c' (fun g col => g.setCell r col x) g) :=
  painted_iter (fun g col => painted_setCell g r col x) g

/-- a line written over a row -/
lemma painted_writeLine (g : CellGrid) (r c : Nat) (xs : List Cell) :
    g.Painted (iter 0 c (fun g c => g.setCell r c (xs[c]?.getD .empty)) g) :=
  painted_iter (fun g c => painted_setCell g r c _) g

lemma painted_fillRows (g : CellGrid) (r r' c c' : Nat) (x : Cell) :
    g.Painted (iter r r' (fun g r => iter c c' (fun g col => g.setCell r col x) g) g) :=
  painted_iter (fun g r => painted_fillRow g r c c' x) g

end CellGrid

namespace Terminal

variable {F : Type} [F32 F] {t u : Terminal F} {n : Nat}

/-- the cursor is on the screen and the scroll region is a part of it -/
structure OnScreen (t : Terminal F) : Prop where
  cursorRow : t.cursorRow ≤ t.rows - 1
  cursorCol : t.cursorCol ≤ t.cols - 1
  region : t.Region ∨ t.rows = 0 ∧ t.scrollTop = 0 ∧ t.scrollBot = 0

/-- neither the grids nor the history are different, and what was on the screen still is -/
structure Beside (t u : Terminal F) : Prop where
  grid : u.grid = t.grid
  altGrid : u.altGrid = t.altGrid
  rows : u.rows = t.rows
  cols : u.cols = t.cols
  scrollback : u.scrollback = t.scrollback
  scrollOffset : u.scrollOffset = t.scrollOffset
  onScreen : t.OnScreen → u.OnScreen

/-- the parts of the callbacks keep `I` -/
structure Kept (I : Nat → Terminal F → Prop) : Prop where
  spend : ∀ {m n t}, I n t → m ≤ n → I m t
  onScreen : ∀ {n t}, I n t → t.OnScreen
  beside : ∀ {n t u}, I n t → t.Beside u → I n u
  paint : ∀ {n t}, I n t → ∀ grid, t.grid.Painted grid → I n { t with grid }
  scrollUp : ∀ {n t}, I (n + 1) t → I n t.scrollUp
  scrollDown : ∀ {n t}, I (n + 1) t → I n t.scrollDown
  insertLines : ∀ {n t k}, I (n + k) t → I n (t.insertLines k)
  deleteLines : ∀ {n t k}, I (n + k) t → I n (t.deleteLines k)
  enterAltScreen : ∀ {n t}, I n t → I n t.enterAltScreen
  exitAltScreen : ∀ {n t}, I n t → I n t.exitAltScreen
  forget : ∀ {n t}, I n t → I n (resetScroll { t with scrollback := [] })

lemma painted_copyCell (g : CellGrid) (row dst src : Nat) : g.Painted (copyCell g row dst src) := by
  unfold copyCell
  split
  · exact CellGrid.painted_setCell _ _ _ _
  · exact CellGrid.Painted.refl g

/-- how many line identities a callback hands out at most -/
def idsTaken : Callback → Nat
  | .print _ | .execute _ | .escDispatch _ _ _ => 1
  | .csiDispatch params _ _ action =>
    if action = 'S' ∨ action = 'T' ∨ action = 'L' ∨ action = 'M' then param (firsts params) 0 1 else 0
  | .oscDispatch _ _ => 0

/-! ## the rule -/

section
variable {I : Nat → Terminal F → Prop} (hI : Kept I)
include hI

/-- the cursor moves on the screen -/
lemma Kept.move (h : I n t) (wrap : Bool) {row col : Nat} (hr : row ≤ t.rows - 1) (hc : col ≤ t.cols - 1) :
    I n { t with cursorRow := row, cursorCol := col, wrapPending := wrap } :=
  hI.beside h ⟨rfl, rfl, rfl, rfl, rfl, rfl, fun hs => ⟨hr, hc, hs.region⟩⟩

lemma Kept.clearPendingWrap (h : I n t) : I n t.clearPendingWrap :=
  hI.move h false (hI.onScreen h).cursorRow (hI.onScreen h).cursorCol

/-- modes, the pen, the title, answers and signals -/
lemma Kept.rest (h : I n t) (hu : u = { t with
      savedCursor := u.savedCursor, fg := u.fg, bg := u.bg, attrs := u.attrs, title := u.title
      pendingResponse := u.pendingResponse, pendingSignals := u.pendingSignals
      synchronizedOutputActive := u.synchronizedOutputActive, bracketedPaste := u.bracketedPaste
      focusReporting1004 := u.focusReporting1004, mouseReport1000 := u.mouseReport1000
      mouseReport1002 := u.mouseReport1002, mouseReport1003 := u.mouseReport1003, mouseSgr := u.mouseSgr }) :
    I n u := by
  rw [hu]
  exact hI.beside h ⟨rfl, rfl, rfl, rfl, rfl, rfl, fun hs => ⟨hs.cursorRow, hs.cursorCol, hs.region⟩⟩

lemma Kept.clearRegion (h : I n t) (r c r' c' : Nat) : I n (t.clearRegion r c r' c') :=
  hI.paint h _ (CellGrid.painted_fillRows _ _ _ _ _ _)

lemma Kept.iter {a b : Nat} {f : Terminal F → Nat → Terminal F} (hf : ∀ {n t i}, I (n + 1) t → I n (f t i))
    (hab : a ≤ b) (h : I (n + (b - a)) t) : I n (Loops.iter a b f t) := by
  have := iter_rule (a := a) (b := b) (g := f) (P := fun i t => I (n + (b - i)) t) h (by
    intro i t _ hi ht
    apply hf
    rwa [show n + (b - (i + 1)) + 1 = n + (b - i) by omega])
  rwa [Nat.max_eq_right hab, Nat.sub_self] at this

lemma Kept.lineDown (h : I (n + 1) t) : I n t.lineDown := by
  have hs := hI.onScreen h
  have hrest := hI.spend h (Nat.le_succ n)
  unfold Terminal.lineDown
  split
  · exact hI.scrollUp h
  split
  · exact hI.move hrest t.wrapPending (by omega) hs.cursorCol
  · exact hI.move hrest t.wrapPending (Nat.le_refl _) hs.cursorCol

lemma Kept.putChar (h : I (n + 1) t) (c : Char) : I n (t.putChar c) := by
  have hready : I n t.prepareForPrintable := by
    unfold prepareForPrintable
    split
    · exact hI.clearPendingWrap (hI.lineDown (hI.move h t.wrapPending (hI.onScreen h).cursorRow (Nat.zero_le _)))
    · exact hI.spend h (Nat.le_succ n)
  unfold Terminal.putChar
  split
  · exact hI.spend h (Nat.le_succ n)
  dsimp only
  generalize t.prepareForPrintable = u at hready
  have hpaint := hI.paint hready _ (CellGrid.painted_setCell u.grid u.cursorRow u.cursorCol ⟨c, u.fg, u.bg, u.attrs, false⟩)
  have hs := hI.onScreen hready
  split
  · exact hI.move hpaint true hs.cursorRow (Nat.le_refl _)
  · exact hI.move hpaint false hs.cursorRow (by dsimp only; omega)

lemma Kept.setPrivateMode (h : I n t) (on : Bool) (mode : Nat) : I n (t.setPrivateMode on mode) := by
  unfold Terminal.setPrivateMode
  split
  case h_1 => exact hI.paint h _ (CellGrid.painted_setCursorVisible _ _)
  case h_9 | h_10 | h_11 =>
    split
    · exact hI.enterAltScreen h
    · exact hI.exitAltScreen h
  case h_12 => exact h
  all_goals exact hI.rest h rfl

lemma Kept.setPrivateModes (h : I n t) (on : Bool) (modes : List Nat) :
    I n (modes.foldl (Terminal.setPrivateMode on) t) := by
  induction modes generalizing t with
  | nil => exact h
  | cons mode modes ih => exact ih (hI.setPrivateMode h on mode)

lemma Kept.eraseDisplay (h : I n t) (mode : Nat) : I n (t.eraseDisplay mode) := by
  unfold Terminal.eraseDisplay
  split
  · dsimp only
    split
    · exact hI.clearRegion (hI.clearRegion h _ _ _ _) _ _ _ _
    · exact hI.clearRegion h _ _ _ _
  · dsimp only
    split
    · exact hI.clearRegion (hI.clearRegion h _ _ _ _) _ _ _ _
    · exact hI.clearRegion h _ _ _ _
  · exact hI.clearRegion h _ _ _ _
  · exact hI.forget (hI.clearRegion h _ _ _ _)
  · exact h

lemma Kept.eraseLine (h : I n t) (mode : Nat) : I n (t.eraseLine mode) := by
  unfold Terminal.eraseLine
  split
  · exact hI.clearRegion h _ _ _ _
  · exact hI.clearRegion h _ _ _ _
  · exact hI.clearRegion h _ _ _ _
  · exact h

lemma Kept.setMargins (h : I n t) (pv : List Nat) : I n (t.setMargins pv) := by
  unfold Terminal.setMargins
  generalize (if pv[0]?.getD 0 = 0 then 1 else pv[0]?.getD 0) = top
  generalize (if pv[1]?.getD 0 = 0 then t.rows else pv[1]?.getD 0) = bot
  dsimp only
  split
  next hin => exact hI.beside h ⟨rfl, rfl, rfl, rfl, rfl, rfl, fun _ => ⟨Nat.zero_le _, Nat.zero_le _, .inl hin⟩⟩
  · exact h

/-- the control sequences that only paint cells of the cursor's row -/
lemma Kept.chars (h : I n t) (k : Nat) :
    I n (t.insertChars k) ∧ I n (t.deleteChars k) ∧ I n (t.eraseChars k) := by
  refine ⟨hI.paint h _ ?_, hI.paint h _ ?_, hI.paint h _ (CellGrid.painted_fillRow _ _ _ _ _)⟩
  · exact (CellGrid.painted_iterRev (fun g col => painted_copyCell g t.cursorRow col _) t.grid).trans
      (CellGrid.painted_fillRow _ _ _ _ _)
  · exact (CellGrid.painted_iter (fun g col => painted_copyCell g t.cursorRow col _) t.grid).trans
      (CellGrid.painted_fillRow _ _ _ _ _)

lemma Kept.csiAction (parity : Bool) (pv : List Nat) (intermediates : List UInt8) (action : Char)
    (h : I (n + if action = 'S' ∨ action = 'T' ∨ action = 'L' ∨ action = 'M' then param pv 0 1 else 0) t) :
    I n (t.csiAction parity pv intermediates action) := by
  have hs := hI.onScreen h
  have hrow := hs.cursorRow
  have hcol := hs.cursorCol
  have hrest : I n t := hI.spend h (Nat.le_add_right _ _)
  have hmove : ∀ row col, row ≤ t.rows - 1 → col ≤ t.cols - 1 → I n { t with cursorRow := row, cursorCol := col } :=
    fun row col hr hc => hI.move hrest t.wrapPending hr hc
  unfold Terminal.csiAction
  dsimp only
  split
  case h_1 => exact hmove _ _ (by omega) hcol
  case h_2 => exact hmove _ _ (Nat.min_le_right _ _) hcol
  case h_3 => exact hmove _ _ hrow (Nat.min_le_right _ _)
  case h_4 => exact hmove _ _ hrow (by omega)
  case h_5 | h_6 => exact hmove _ _ (Nat.min_le_right _ _) (Nat.min_le_right _ _)
  case h_7 => exact hmove _ _ (Nat.min_le_right _ _) hcol
  case h_8 => exact hmove _ _ hrow (Nat.min_le_right _ _)
  case h_9 => exact hI.eraseDisplay hrest _
  case h_10 => exact hI.eraseLine hrest _
  case h_11 => exact hI.insertLines h
  case h_12 =>
    split
    · exact hI.deleteLines h
    · exact hrest
  case h_13 => exact hI.iter (fun ht => hI.scrollUp ht) (Nat.zero_le _) h
  case h_14 => exact hI.iter (fun ht => hI.scrollDown ht) (Nat.zero_le _) h
  case h_15 => exact (hI.chars hrest _).1
  case h_16 => exact (hI.chars hrest _).2.1
  case h_17 => exact (hI.chars hrest _).2.2
  case h_18 => exact hI.rest hrest rfl
  case h_19 =>
    split
    · exact hI.setMargins hrest pv
    · exact hrest
  case h_20 | h_21 =>
    split
    · exact hI.setPrivateModes hrest _ _
    · exact hrest
  case h_22 | h_23 | h_24 =>
    split_ifs
    all_goals first | exact hrest | exact hI.rest hrest rfl
  case h_25 => exact hrest

lemma Kept.oscDispatch (h : I n t) (params : List (List UInt8)) : I n (t.oscDispatch params) := by
  unfold Terminal.oscDispatch
  split
  · split_ifs
    · exact hI.rest h rfl
    · unfold queueOsc9
      dsimp only
      split
      · exact h
      · split
        · exact hI.rest h rfl
        · exact h
    · exact h
  · exact h

lemma Kept.execute (h : I (n + 1) t) (byte : UInt8) : I n (t.execute byte) := by
  have hs := hI.onScreen h
  have hcol := hs.cursorCol
  have hrest := hI.spend h (Nat.le_succ n)
  unfold Terminal.execute
  split
  · exact hI.lineDown (hI.clearPendingWrap h)
  · exact hI.move hrest false hs.cursorRow (Nat.zero_le _)
  · exact hI.move hrest false hs.cursorRow (Nat.min_le_right _ _)
  · exact hI.move hrest false hs.cursorRow (by omega)
  · exact hI.rest hrest rfl
  · exact hrest

lemma Kept.escDispatch (h : I (n + 1) t) (byte : UInt8) : I n (t.escDispatch byte) := by
  have hs := hI.onScreen h
  have hrow := hs.cursorRow
  have hrest := hI.spend h (Nat.le_succ n)
  unfold Terminal.escDispatch
  split
  · exact hI.rest hrest rfl
  · exact hI.move hrest false (Nat.min_le_right _ _) (Nat.min_le_right _ _)
  · dsimp only
    split
    · exact hI.scrollDown (hI.clearPendingWrap h)
    · exact hI.move hrest false (show t.cursorRow - 1 ≤ _ by omega) hs.cursorCol
  · exact hrest

/-- **Rule**: what the parts keep, every callback keeps. -/
theorem perform_kept (parity : Bool) (c : Callback) (h : I (n + idsTaken c) t) : I n (t.perform parity c) := by
  cases c with
  | print c => exact hI.putChar h c
  | execute byte => exact hI.execute h byte
  | csiDispatch params intermediates ignore action =>
    show I n (csiDispatch parity t params intermediates action)
    unfold csiDispatch
    split
    · exact hI.csiAction parity _ _ _ h
    · exact hI.csiAction parity _ _ _ (hI.clearPendingWrap h)
  | oscDispatch params bell => exact hI.oscDispatch h params
  | escDispatch intermediates ignore byte => exact hI.escDispatch h byte

end

/-! ## sound terminals -/

structure Sound (t : Terminal F) : Prop where
  grid : t.Fits
  alt : ∀ g ∈ t.altGrid, g.Sized t.rows t.cols
  onScreen : t.OnScreen

lemma Redrawn.sound {p : Picture Cell} (hu : Redrawn t u p) (h : t.Sound) : u.Sound := by
  obtain ⟨grid, rfl, hsized, -⟩ := hu
  exact ⟨hsized, h.alt, h.onScreen.cursorRow, h.onScreen.cursorCol, h.onScreen.region⟩

lemma OnScreen.scrollBot_le (h : t.OnScreen) : t.scrollBot ≤ t.rows := by
  rcases h.region with hr | hr
  · exact hr.2
  · omega

lemma Sound.scrollUp (h : t.Sound) : t.scrollUp.Sound := by
  rcases h.onScreen.region with hr | ⟨hrows, -, -⟩
  · obtain ⟨grid, scrollOffset, scrollAnim, heq, hsized, -⟩ := scrollUp_spec h.grid hr
    rw [heq]
    exact ⟨hsized, h.alt, h.onScreen.cursorRow, h.onScreen.cursorCol, h.onScreen.region⟩
  · unfold Terminal.scrollUp
    rw [if_pos (.inl hrows)]
    exact h

lemma Sound.scrollDown (h : t.Sound) : t.scrollDown.Sound := by
  rcases h.onScreen.region with hr | ⟨hrows, -, -⟩
  · exact (scrollDown_redrawn h.grid hr).sound h
  · unfold Terminal.scrollDown
    rw [if_pos (.inl hrows)]
    exact h

lemma Sound.enterAltScreen (h : t.Sound) : t.enterAltScreen.Sound := by
  unfold Terminal.enterAltScreen
  split
  · exact h
  exact {
    grid := (CellGrid.sized_new _ _).setCursor 0 0
    alt := by
      intro g hg
      cases hg
      exact h.grid
    onScreen := ⟨Nat.zero_le _, Nat.zero_le _, h.onScreen.region⟩ }

lemma Sound.exitAltScreen (h : t.Sound) : t.exitAltScreen.Sound := by
  unfold Terminal.exitAltScreen
  split
  · exact h
  next main halt =>
    exact {
      grid := (h.alt main halt).setCursor _ _
      alt := by simp
      onScreen := ⟨Nat.min_le_right _ _, Nat.min_le_right _ _, h.onScreen.region⟩ }

theorem sound_kept : Kept fun _ (t : Terminal F) => t.Sound where
  spend h _ := h
  onScreen h := h.onScreen
  beside {_ t u} h hu := by
    refine ⟨?_, ?_, hu.onScreen h.onScreen⟩
    · show u.grid.Sized u.rows u.cols
      rw [hu.grid, hu.rows, hu.cols]
      exact h.grid
    · rw [hu.altGrid, hu.rows, hu.cols]
      exact h.alt
  paint h grid hp := ⟨h.grid.painted hp, h.alt, h.onScreen.cursorRow, h.onScreen.cursorCol, h.onScreen.region⟩
  scrollUp h := h.scrollUp
  scrollDown h := h.scrollDown
  insertLines h := (insertLines_redrawn h.grid h.onScreen.scrollBot_le _).sound h
  deleteLines h := (deleteLines_redrawn h.grid h.onScreen.scrollBot_le _).sound h
  enterAltScreen h := h.enterAltScreen
  exitAltScreen h := h.exitAltScreen
  forget h := ⟨h.grid, h.alt, h.onScreen.cursorRow, h.onScreen.cursorCol, h.onScreen.region⟩

/-! ## size and content replaced -/

lemma Sound.collapse (h : t.Sound) : t.collapseScrollAnimation.Sound := by
  unfold collapseScrollAnimation
  split
  · exact ⟨h.grid, h.alt, h.onScreen.cursorRow, h.onScreen.cursorCol, h.onScreen.region⟩
  · exact h

/-- what the end of a resize makes of two grids of the new size -/
lemma settle_sound (hg : t.Fits) (ha : ∀ g ∈ t.altGrid, g.Sized t.rows t.cols) (full : Bool) :
    ((t.clampScrollRegionAfterResize t.rows full).clampCursors t.rows t.cols).syncCursor.Sound := by
  obtain ⟨top, bot, parked, heq, hregion⟩ := settle_eq t t.rows t.cols full
  rw [heq]
  exact ⟨hg.setCursor _ _, ha, Nat.min_le_right _ _, Nat.min_le_right _ _, hregion⟩

/-- the main grid, in front, has the size of the terminal, and the other one is well formed -/
lemma swapGrids_fits (h : t.Sound) : t.swapGrids.Fits ∧ ∀ g ∈ t.swapGrids.altGrid, g.WellFormed := by
  unfold swapGrids
  split
  next => exact ⟨h.grid, fun g hg => (h.alt g hg).wellFormed⟩
  next other halt =>
    refine ⟨h.alt other halt, ?_⟩
    intro g hg
    cases hg
    exact h.grid.wellFormed

@[simp] lemma swapGrids_rows : t.swapGrids.rows = t.rows := by
  unfold swapGrids
  split <;> rfl

@[simp] lemma swapGrids_cols : t.swapGrids.cols = t.cols := by
  unfold swapGrids
  split <;> rfl

@[simp] lemma setMainRow_grid (row : Nat) : (t.setMainRow row).grid = t.grid := by
  unfold setMainRow
  split <;> rfl

@[simp] lemma setMainRow_scrollback (row : Nat) : (t.setMainRow row).scrollback = t.scrollback := by
  unfold setMainRow
  split <;> rfl

@[simp] lemma setMainRow_altGrid (row : Nat) : (t.setMainRow row).altGrid = t.altGrid := by
  unfold setMainRow
  split <;> rfl

lemma reflow_wellFormed (hg : t.Fits) (ha : ∀ g ∈ t.altGrid, g.WellFormed) (rows : Nat) :
    (t.reflow rows).grid.WellFormed ∧ ∀ g ∈ (t.reflow rows).altGrid, g.WellFormed := by
  unfold reflow
  dsimp only
  split
  · obtain ⟨grid, heq, hsized, -⟩ := growRows_spec hg (rows - t.rows)
    rw [setMainRow_grid, setMainRow_altGrid, heq]
    exact ⟨hsized.wellFormed, ha⟩
  split
  · split
    · obtain ⟨grid, heq, hsized, -⟩ := shrinkRows_spec hg (n := min (t.rows - rows) t.mainRow) (by omega)
      rw [setMainRow_grid, setMainRow_altGrid, heq]
      exact ⟨hsized.wellFormed, ha⟩
    · exact ⟨hg.wellFormed, ha⟩
  · exact ⟨hg.wellFormed, ha⟩

@[simp] lemma reflow_altGrid (rows : Nat) : (t.reflow rows).altGrid = t.altGrid := by
  unfold reflow
  dsimp only
  split_ifs
  · exact setMainRow_altGrid _
  · exact setMainRow_altGrid _
  · rfl
  · rfl

lemma Sound.resize (h : t.Sound) (rows cols : Nat) : (t.resize rows cols).Sound := by
  obtain ⟨u, hu⟩ : ∃ u, u = if rows ≠ t.rows ∨ cols ≠ t.cols then t.collapseScrollAnimation else t := ⟨_, rfl⟩
  have hsound : u.Sound := by
    rw [hu]
    split
    · exact h.collapse
    · exact h
  obtain ⟨hg, ha⟩ := swapGrids_fits hsound
  obtain ⟨hg', ha'⟩ := reflow_wellFormed hg ha rows
  obtain ⟨grid, altGrid, heq, hsized, halt, -, -⟩ := resizeGrids_spec hg' ha' rows cols
  unfold Terminal.resize
  rw [← hu]
  dsimp only
  rw [heq]
  exact settle_sound (t := { u.swapGrids.reflow rows with grid, altGrid, rows, cols }) hsized halt _

lemma Sound.resizeViewportGrowth (h : t.Sound) (rows cols : Nat) : (t.resizeViewportGrowth rows cols).Sound := by
  unfold Terminal.resizeViewportGrowth
  split
  · exact h.resize rows cols
  dsimp only
  have hsound := h.collapse
  refine settle_sound (t := { t.collapseScrollAnimation with
    grid := t.collapseScrollAnimation.grid.resize rows cols
    altGrid := t.collapseScrollAnimation.altGrid.map fun (alt : CellGrid) => alt.resize rows cols
    rows, cols }) (hsound.grid.wellFormed.resize rows cols) ?_ _
  intro g hg
  obtain ⟨alt, halt, rfl⟩ := Option.map_eq_some_iff.mp hg
  exact (hsound.alt alt halt).wellFormed.resize rows cols

lemma painted_paintSnapshot (snapshot : Core.Grid) (g : CellGrid) : g.Painted (paintSnapshot snapshot g) := by
  apply CellGrid.painted_iter
  intro g r
  apply CellGrid.painted_iter
  intro g c
  split
  · exact CellGrid.painted_setCell _ _ _ _
  · exact CellGrid.Painted.refl g

/-- both grids get the size, the region is put back on the screen -/
lemma fitSnapshot_spec (h : t.Sound) (rows cols : Nat) :
    (t.fitSnapshot rows cols).rows = rows ∧ (t.fitSnapshot rows cols).cols = cols ∧
    (t.fitSnapshot rows cols).Fits ∧ (∀ g ∈ (t.fitSnapshot rows cols).altGrid, g.Sized rows cols) ∧
    ((t.fitSnapshot rows cols).Region ∨ rows = 0 ∧ (t.fitSnapshot rows cols).scrollTop = 0 ∧
      (t.fitSnapshot rows cols).scrollBot = 0) := by
  unfold fitSnapshot
  split
  · dsimp only
    obtain ⟨top, bot, hclamp, hregion⟩ := clampScrollRegion_eq { t with
      rows, cols, grid := t.grid.resize rows cols
      altGrid := t.altGrid.map fun (alt : CellGrid) => alt.resize rows cols } rows t.regionIsFullScreen
    rw [hclamp]
    refine ⟨rfl, rfl, h.grid.wellFormed.resize _ _, ?_, hregion⟩
    intro g hg
    obtain ⟨alt, halt, rfl⟩ := Option.map_eq_some_iff.mp hg
    exact (h.alt alt halt).wellFormed.resize _ _
  next hsame =>
    obtain ⟨rfl, rfl⟩ : rows = t.rows ∧ cols = t.cols := by omega
    exact ⟨rfl, rfl, h.grid, h.alt, h.onScreen.region⟩

/-- the snapshot's cells are painted over the grid, its cursor clamped -/
lemma Sound.applySnapshot (h : t.Sound) (s : Snapshot) : (t.applySnapshot s).Sound := by
  obtain ⟨hrows, hcols, hfits, halt, hregion⟩ := fitSnapshot_spec h s.grid.rows s.grid.cols
  unfold Terminal.applySnapshot
  dsimp only
  generalize t.fitSnapshot s.grid.rows s.grid.cols = u at *
  refine ⟨?_, ?_, ?_, ?_, ?_⟩
  · exact ((hfits.painted (painted_paintSnapshot s.grid u.grid)).setCursor _ _).setCursorVisible _
  · show ∀ g ∈ u.altGrid, g.Sized u.rows u.cols
    rw [hrows, hcols]
    exact halt
  · show min s.grid.cursorRow (s.grid.rows - 1) ≤ u.rows - 1
    omega
  · show min s.grid.cursorCol (s.grid.cols - 1) ≤ u.cols - 1
    omega
  · rw [← hrows] at hregion
    exact hregion

/-! ## the view -/

/-- `u` is `t` seen at another position -/
def ViewOf (t u : Terminal F) : Prop :=
  ∃ scrollOffset scrollAccumLines scrollAnim scrollAnimCellH scrollViewFraction globalCellH, u = { t with
    scrollOffset, scrollAccumLines, scrollAnim, scrollAnimCellH, scrollViewFraction, globalCellH }

lemma ViewOf.refl (t : Terminal F) : t.ViewOf t := ⟨_, _, _, _, _, _, rfl⟩

lemma ViewOf.trans {v : Terminal F} (h : t.ViewOf u) (h' : u.ViewOf v) : t.ViewOf v := by
  obtain ⟨_, _, _, _, _, _, rfl⟩ := h
  obtain ⟨_, _, _, _, _, _, rfl⟩ := h'
  exact ⟨_, _, _, _, _, _, rfl⟩

lemma ViewOf.sound (h : t.ViewOf u) (ht : t.Sound) : u.Sound := by
  obtain ⟨_, _, _, _, _, _, rfl⟩ := h
  exact ⟨ht.grid, ht.alt, ht.onScreen.cursorRow, ht.onScreen.cursorCol, ht.onScreen.region⟩

lemma viewOf_collapse (t : Terminal F) : t.ViewOf t.collapseScrollAnimation := by
  unfold collapseScrollAnimation
  split
  · exact ⟨_, _, _, _, _, _, rfl⟩
  · exact ViewOf.refl t

lemma viewOf_rescale (t : Terminal F) (cellH : F) : t.ViewOf (t.rescaleScrollAnimation cellH) := by
  unfold rescaleScrollAnimation
  split
  · exact ViewOf.refl t
  dsimp only
  split
  · exact ⟨_, _, _, _, _, _, rfl⟩
  · exact ViewOf.refl t

lemma viewOf_scrollViewUp (t : Terminal F) (k : Nat) : t.ViewOf (t.scrollViewUp k) :=
  (viewOf_collapse t).trans ⟨_, _, _, _, _, _, rfl⟩

lemma viewOf_scrollViewDown (t : Terminal F) (k : Nat) : t.ViewOf (t.scrollViewDown k) :=
  (viewOf_collapse t).trans ⟨_, _, _, _, _, _, rfl⟩

lemma viewOf_scrollViewByLines (t : Terminal F) (deltaLines : F) : t.ViewOf (t.scrollViewByLines deltaLines).2 := by
  unfold scrollViewByLines
  split
  · exact ViewOf.refl t
  have hdrop : ∀ (b : Prop) [Decidable b] (u : Terminal F), t.ViewOf u →
      t.ViewOf (if b then { u with scrollAccumLines := F32.zero } else u) := by
    intro b _ u hu
    split
    · exact hu.trans ⟨_, _, _, _, _, _, rfl⟩
    · exact hu
  have hmove : ∀ (u : Terminal F) (whole : Int), t.ViewOf u →
      t.ViewOf (if whole > 0 then u.scrollViewUp whole.toNat
        else if whole < 0 then u.scrollViewDown (-whole).toNat else u) := by
    intro u whole hu
    split
    · exact hu.trans (viewOf_scrollViewUp u _)
    split
    · exact hu.trans (viewOf_scrollViewDown u _)
    · exact hu
  apply hdrop
  apply hdrop
  apply hmove
  exact (viewOf_collapse t).trans ⟨_, _, _, _, _, _, rfl⟩

lemma viewOf_scrollAnimateByPx (t : Terminal F) (deltaPx : F) (now duration : Nat) (initialSlope cellH : F) :
    t.ViewOf (t.scrollAnimateByPx deltaPx now duration initialSlope cellH).2 := by
  unfold scrollAnimateByPx
  split
  · exact ViewOf.refl t
  dsimp only
  refine (viewOf_rescale t cellH).trans ?_
  generalize t.rescaleScrollAnimation cellH = u
  cases u.scrollAnim with
  | some m =>
    dsimp only
    split <;> exact ⟨_, _, _, _, _, _, rfl⟩
  | none =>
    dsimp only
    split <;> exact ⟨_, _, _, _, _, _, rfl⟩

lemma viewOf_sampleScrollAnimation (t : Terminal F) (now : Nat) (cellH : F) :
    t.ViewOf (t.sampleScrollAnimation now cellH).2 := by
  unfold sampleScrollAnimation
  split
  · exact ViewOf.refl t
  split
  · exact ViewOf.refl t
  dsimp only
  refine (viewOf_rescale t cellH).trans ?_
  split <;> exact ⟨_, _, _, _, _, _, rfl⟩

/-! ## operations and runs -/

/-- the callbacks of a chunk, with the identities that they take -/
lemma Kept.calls {I : Nat → Terminal F → Prop} (hI : Kept I) (parity : Bool) (calls : List Callback)
    (h : I (n + (calls.map idsTaken).foldr (· + ·) 0) t) : I n (calls.foldl (perform parity) t) := by
  induction calls generalizing t with
  | nil => exact h
  | cons c calls ih =>
    apply ih
    apply perform_kept hI
    rwa [Nat.add_assoc, Nat.add_comm _ (idsTaken c)]

lemma Kept.processBytes {I : Nat → Terminal F → Prop} (hI : Kept I) (parity : Bool) (calls : List Callback)
    (hview : ∀ {n t u}, I n t → t.ViewOf u → I n u)
    (h : I (n + (calls.map idsTaken).foldr (· + ·) 0) t) : I n (t.processBytes parity calls) := by
  unfold Terminal.processBytes
  dsimp only
  refine hI.paint (hI.calls parity calls ?_) _ (CellGrid.painted_setCursor _ _ _)
  split
  · exact hview h ⟨_, _, _, _, _, _, rfl⟩
  · exact h

theorem apply_sound (h : t.Sound) (parity : Bool) (op : Op F) : (t.apply parity op).Sound := by
  cases op with
  | call c => exact perform_kept (n := 0) sound_kept parity c h
  | processBytes calls => exact sound_kept.processBytes (n := 0) parity calls (fun h hu => hu.sound h) h
  | resize rows cols => exact h.resize rows cols
  | resizeViewportGrowth rows cols => exact h.resizeViewportGrowth rows cols
  | applySnapshot s => exact h.applySnapshot s
  | scrollViewUp k => exact (viewOf_scrollViewUp t k).sound h
  | scrollViewDown k => exact (viewOf_scrollViewDown t k).sound h
  | scrollViewByLines deltaLines => exact (viewOf_scrollViewByLines t deltaLines).sound h
  | scrollAnimateByPx deltaPx now duration initialSlope cellH =>
    exact (viewOf_scrollAnimateByPx t deltaPx now duration initialSlope cellH).sound h
  | sampleScrollAnimation now cellH => exact (viewOf_sampleScrollAnimation t now cellH).sound h
  | resetScroll => exact ViewOf.sound ⟨_, _, _, _, _, _, rfl⟩ h
  | publishCellH cellH => exact ViewOf.sound ⟨_, _, _, _, _, _, rfl⟩ h

lemma sound_new (parity : Bool) (rows cols : Nat) : (new parity rows cols : Terminal F).Sound where
  grid := CellGrid.sized_new rows cols
  alt := by simp [new]
  onScreen := by
    refine ⟨Nat.zero_le _, Nat.zero_le _, ?_⟩
    rcases Nat.eq_zero_or_pos rows with hr | hr
    · exact .inr ⟨hr, rfl, hr⟩
    · exact .inl ⟨hr, Nat.le_refl rows⟩

lemma sound_invariant (parity : Bool) : Invariant (next parity) (Sound (F := F)) := by
  intro t op u ht hu
  cases hu
  exact apply_sound ht parity op

/-- **Main result.** Every terminal that a run reaches is sound. -/
theorem sound_of_run (parity : Bool) {rows cols : Nat} {ops : List (Op F)}
    (h : exec (next parity) (new parity rows cols) ops = some t) : t.Sound :=
  (sound_invariant parity).exec (sound_new parity rows cols) h

end Terminal
end TerminalManager.Ui
