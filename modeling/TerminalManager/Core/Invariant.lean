import TerminalManager.Lib.Transition
import TerminalManager.Core.Screen

/-!
# The daemon's emulator never panics and keeps its shape

* `Terminal.Sound limit`   both grids have the size of the terminal, the cursors are on the screen, the
  scroll region is a part of it and the scrollback has at most `limit` lines;
* `reflow_grow`, `reflow_shrink`, `resizeGrids_spec`   what the parts of `resize` do;
* `structure_kept`       **main result**: from a new terminal, whatever its size, every list of events
  runs without a panic and ends in a sound terminal.
-/

namespace TerminalManager.Core
open Loops Slice Term Transition
namespace Terminal

variable {t : Terminal} {limit : Nat}

structure Sound (limit : Nat) (t : Terminal) : Prop where
  grid : t.grid.Sized t.rows t.cols
  alt : ∀ g ∈ t.altGrid, g.Sized t.rows t.cols
  cursorRow : t.cursorRow ≤ t.rows - 1
  cursorCol : t.cursorCol ≤ t.cols - 1
  parked : t.altGrid.isSome → t.altSavedCursor.1 ≤ t.rows - 1 ∧ t.altSavedCursor.2 ≤ t.cols - 1
  region : t.Region ∨ t.rows = 0 ∧ t.scrollTop = 0 ∧ t.scrollBot = 0
  maxLines : t.scrollback.maxLines = limit
  scrollback : t.scrollback.lines.length ≤ limit

/-- `o` is a sound terminal, not a panic -/
def Goes (limit : Nat) (o : Option Terminal) : Prop := ∃ t, o = some t ∧ t.Sound limit

lemma Sound.goes (h : t.Sound limit) : Goes limit (some t) := ⟨t, rfl, h⟩

lemma Goes.bind {o : Option Terminal} {f : Terminal → Option Terminal} (ho : Goes limit o)
    (hf : ∀ t, t.Sound limit → Goes limit (f t)) : Goes limit (o.bind f) := by
  obtain ⟨t, rfl, ht⟩ := ho
  exact hf t ht

lemma Redrawn.goes {o : Option Terminal} {p : Picture Cell} (ho : Redrawn t o p) (h : t.Sound limit) :
    Goes limit o := by
  obtain ⟨grid, rfl, hlike, -⟩ := ho
  exact ⟨_, rfl, { h with grid := h.grid.like hlike }⟩

lemma goes_forRange {a b : Nat} {f : Terminal → Nat → Option Terminal} (h : t.Sound limit)
    (hf : ∀ t i, t.Sound limit → Goes limit (f t i)) : Goes limit (forRange a b f t) :=
  forRange_rule (f := f) (P := fun _ t => t.Sound limit) h fun i t _ _ ht => hf t i ht

lemma Sound.clearPendingWrap (h : t.Sound limit) : t.clearPendingWrap.Sound limit := { h with }

lemma Sound.move (h : t.Sound limit) (wrap : Bool) {row col : Nat} (hr : row ≤ t.rows - 1)
    (hc : col ≤ t.cols - 1) :
    Sound limit { t with cursorRow := row, cursorCol := col, wrapPending := wrap } :=
  { h with cursorRow := hr, cursorCol := hc }

lemma Sound.push (h : t.Sound limit) (line : List Cell) :
    Sound limit { t with scrollback := t.scrollback.push line } where
  grid := h.grid
  alt := h.alt
  cursorRow := h.cursorRow
  cursorCol := h.cursorCol
  parked := h.parked
  region := h.region
  maxLines := Scrollback.push_maxLines.trans h.maxLines
  scrollback := by
    have hlen := h.scrollback
    rw [← h.maxLines] at hlen
    have := Scrollback.length_push line hlen
    rwa [h.maxLines] at this

/-! ## resizing -/

lemma foldl_push (lines : List (List Cell)) {s : Scrollback} (h : s.lines.length ≤ s.maxLines) :
    (lines.foldl Scrollback.push s).maxLines = s.maxLines ∧
      (lines.foldl Scrollback.push s).lines.length ≤ s.maxLines := by
  induction lines generalizing s with
  | nil => exact ⟨rfl, h⟩
  | cons line lines ih =>
    have := ih (s := s.push line) (by rw [Scrollback.push_maxLines]; exact Scrollback.length_push line h)
    rwa [Scrollback.push_maxLines] at this

/-- growing: the newest lines of the scrollback come in on top -/
theorem reflow_grow (h : t.grid.Sized t.rows t.cols) {rows : Nat} (hr : t.rows < rows) :
    ∃ grid, t.reflow rows = some (setMainRow { t with grid, scrollback :=
        ⟨t.scrollback.lines.take (t.scrollback.lines.length - (rows - t.rows)), t.scrollback.maxLines⟩ }
        (t.mainRow + (rows - t.rows))) ∧
      grid.Sized rows t.cols ∧ grid.cursorVisible = t.grid.cursorVisible ∧
      grid.view = Picture.stack t.cols .blank
        (List.replicate (rows - t.rows - t.scrollback.lines.length) [] ++
          t.scrollback.lines.drop (t.scrollback.lines.length - (rows - t.rows))) t.grid.view := by
  have hlen : (t.scrollback.lines.drop (t.scrollback.lines.length - (rows - t.rows))).length
      = min (rows - t.rows) t.scrollback.lines.length := by
    rw [List.length_drop]
    omega
  obtain ⟨grid, hrun, hwf, hrows, hcols, hvis, hview⟩ := Grid.growRowsAtTop_spec h.wellFormed
    (n := rows - t.rows) (hlen.symm ▸ Nat.min_le_left _ _)
  refine ⟨grid, ?_, ⟨hwf, ?_, hcols.trans h.cols⟩, hvis, ?_⟩
  · unfold reflow
    rw [if_pos hr]
    dsimp only
    rw [Scrollback.popBackN_eq]
    show (Grid.growRowsAtTop _ _ _).bind _ = _
    rw [hrun]
    rfl
  · rw [hrows, h.rows]
    omega
  · rw [hview, hlen, h.cols, show rows - t.rows - min (rows - t.rows) t.scrollback.lines.length
      = rows - t.rows - t.scrollback.lines.length by omega]

/-- shrinking: rows above the main cursor go to the scrollback, as many as have to -/
theorem reflow_shrink (h : t.grid.Sized t.rows t.cols) {rows : Nat} (hr : rows ≤ t.rows) (hc : 0 < t.cols) :
    ∃ grid, t.reflow rows = some (setMainRow { t with grid, scrollback :=
        (Picture.rows (min (t.rows - rows) t.mainRow) t.cols t.grid.view).foldl .push t.scrollback }
        (t.mainRow - min (t.rows - rows) t.mainRow)) ∧
      t.grid.Like grid ∧ grid.view = Picture.fill (t.rows - min (t.rows - rows) t.mainRow) t.rows 0 t.cols .blank
        (Picture.moveRows 0 (min (t.rows - rows) t.mainRow) (t.rows - min (t.rows - rows) t.mainRow)
          t.grid.view) := by
  obtain ⟨n, hn⟩ : ∃ n, n = min (t.rows - rows) t.mainRow := ⟨_, rfl⟩
  obtain ⟨grid, hrun, hlike, hview⟩ := Grid.shrinkRowsFromTop_spec h.wellFormed (n := n)
    (by rw [h.rows]; omega) (by rw [h.cols]; exact hc)
  rw [h.rows, h.cols] at hview
  unfold reflow
  rw [if_neg (by omega), ← hn]
  by_cases hpos : n > 0
  · refine ⟨grid, ?_, hlike, hview⟩
    rw [if_pos (by omega)]
    dsimp only
    rw [if_pos hpos, hrun, sub?_eq (by omega), h.cols]
    rfl
  · obtain rfl : n = 0 := by omega
    refine ⟨t.grid, ?_, h.wellFormed.like, ?_⟩
    · have hself : setMainRow { t with grid := t.grid, scrollback :=
          (Picture.rows 0 t.cols t.grid.view).foldl .push t.scrollback } (t.mainRow - 0) = t := by
        unfold setMainRow mainRow
        split <;> rfl
      rw [hself]
      split
      · dsimp only
        rw [if_neg hpos]
      · rfl
    · rw [Nat.sub_zero, Picture.fill_none_rows (Nat.le_refl _)]
      funext i j
      unfold Picture.moveRows
      split
      · rw [Nat.zero_add, Nat.sub_zero]
      · rfl

@[simp] lemma setMainRow_grid (row : Nat) : (t.setMainRow row).grid = t.grid := by
  unfold setMainRow
  split <;> rfl

@[simp] lemma setMainRow_altGrid (row : Nat) : (t.setMainRow row).altGrid = t.altGrid := by
  unfold setMainRow
  split <;> rfl

@[simp] lemma setMainRow_scrollback (row : Nat) : (t.setMainRow row).scrollback = t.scrollback := by
  unfold setMainRow
  split <;> rfl

lemma setMainRow_mainRow : t.setMainRow t.mainRow = t := by
  unfold setMainRow mainRow
  split <;> rfl

/-- what holds between the parts of `resize` -/
structure Resizing (limit : Nat) (t : Terminal) : Prop where
  grid : t.grid.WellFormed
  alt : ∀ g ∈ t.altGrid, g.WellFormed
  maxLines : t.scrollback.maxLines = limit
  scrollback : t.scrollback.lines.length ≤ limit

/-- the main grid is in front while its rows move -/
lemma Sound.swapGrids (h : t.Sound limit) : t.swapGrids.Resizing limit ∧ t.swapGrids.Fits := by
  unfold Terminal.swapGrids
  split
  next =>
    exact ⟨⟨h.grid.wellFormed, fun g hg => (h.alt g hg).wellFormed, h.maxLines, h.scrollback⟩, h.grid⟩
  next other halt =>
    refine ⟨⟨(h.alt other halt).wellFormed, ?_, h.maxLines, h.scrollback⟩, h.alt other halt⟩
    rintro g hg
    cases hg
    exact h.grid.wellFormed

lemma Resizing.reflow (h : t.Resizing limit) (hf : t.Fits) (rows : Nat) :
    ∃ t', t.reflow rows = some t' ∧ t'.Resizing limit := by
  by_cases hr : t.rows < rows
  · obtain ⟨grid, hrun, hsized, -, -⟩ := reflow_grow hf hr
    refine ⟨_, hrun, by simpa using hsized.wellFormed, by simpa using h.alt, by simpa using h.maxLines, ?_⟩
    rw [setMainRow_scrollback, List.length_take]
    exact Nat.le_trans (Nat.min_le_right _ _) h.scrollback
  by_cases hc : 0 < t.cols
  · obtain ⟨grid, hrun, hlike, -⟩ := reflow_shrink hf (Nat.le_of_not_lt hr) hc
    obtain ⟨hmax, hlen⟩ := foldl_push
      (Picture.rows (min (t.rows - rows) t.mainRow) t.cols t.grid.view) (s := t.scrollback)
      (by rw [h.maxLines]; exact h.scrollback)
    rw [h.maxLines] at hmax hlen
    exact ⟨_, hrun, by simpa using hlike.wellFormed, by simpa using h.alt, by simpa using hmax,
      by simpa using hlen⟩
  -- without columns no row leaves the grid
  have hempty : ∀ n, t.grid.shrinkRowsFromTop n = some ([], t.grid) := fun n => by
    unfold Grid.shrinkRowsFromTop
    rw [if_pos (by rw [hf.cols]; omega)]
  unfold Terminal.reflow
  rw [if_neg hr]
  split
  case isFalse => exact ⟨t, rfl, h⟩
  dsimp only
  split
  case isFalse => exact ⟨t, rfl, h⟩
  rw [hempty, sub?_eq (Nat.min_le_right _ _)]
  exact ⟨_, rfl, by simpa using h.grid, by simpa using h.alt, by simpa using h.maxLines,
    by simpa using h.scrollback⟩

/-- both grids, each cut or extended to the new size -/
theorem resizeGrids_spec (hg : t.grid.WellFormed) (ha : ∀ g ∈ t.altGrid, g.WellFormed) (rows cols : Nat) :
    ∃ grid altGrid, t.resizeGrids rows cols = some { t with grid, altGrid, rows, cols } ∧
      grid.Sized rows cols ∧ (∀ g ∈ altGrid, g.Sized rows cols) ∧ altGrid.isSome = t.altGrid.isSome ∧
      match t.altGrid, altGrid with
      | some alt, some main => main.view = Picture.resize rows cols .blank t.grid.view ∧
          grid.view = Picture.resize rows cols .blank alt.view
      | _, _ => grid.view = Picture.resize rows cols .blank t.grid.view := by
  obtain ⟨main, hmain, hwf, hrows, hcols, -, hview⟩ := Grid.resize_spec hg rows cols
  unfold resizeGrids
  rw [hmain]
  cases halt : t.altGrid with
  | none =>
    refine ⟨main, none, ?_, ⟨hwf, hrows, hcols⟩, by simp, rfl, hview⟩
    simp only [Option.bind_some, Option.bind_eq_bind, swapGrids]
    rfl
  | some alt =>
    obtain ⟨grid, hgrid, hwf', hrows', hcols', -, hview'⟩ :=
      Grid.resize_spec (ha alt halt) rows cols
    refine ⟨grid, some main, ?_, ⟨hwf', hrows', hcols'⟩, ?_, rfl, hview, hview'⟩
    · simp only [Option.bind_some, Option.bind_eq_bind, swapGrids]
      show (Grid.resize alt rows cols).bind _ = _
      rw [hgrid]
      rfl
    · rintro g hg
      cases hg
      exact ⟨hwf, hrows, hcols⟩

/-- after a resize the region fits the screen again -/
lemma clampScrollRegion_spec (t : Terminal) (rows : Nat) (full : Bool) : ∃ top bot,
    t.clampScrollRegionAfterResize rows full = { t with scrollTop := top, scrollBot := bot } ∧
      (top < bot ∧ bot ≤ rows ∨ rows = 0 ∧ top = 0 ∧ bot = 0) := by
  unfold clampScrollRegionAfterResize
  split
  next => exact ⟨0, rows, rfl, by omega⟩
  next h => exact ⟨t.scrollTop, t.scrollBot, rfl, by omega⟩

/-- the end of `resize` puts the region and the cursors back on the screen -/
lemma settle_sound (hg : t.Fits) (ha : ∀ g ∈ t.altGrid, g.Sized t.rows t.cols) (h : t.Resizing limit)
    (full : Bool) : ∃ u, u = (t.clampScrollRegionAfterResize t.rows full).clampCursors t.rows t.cols ∧
      Sound limit { u with grid := u.grid.setCursor u.cursorRow u.cursorCol } := by
  obtain ⟨top, bot, hclamp, hregion⟩ := clampScrollRegion_spec t t.rows full
  refine ⟨_, rfl, ?_⟩
  rw [hclamp]
  unfold clampCursors
  dsimp only
  split
  case isTrue =>
    exact {
      grid := hg.like (Grid.like_setCursor hg.wellFormed)
      alt := ha
      cursorRow := Nat.min_le_right _ _
      cursorCol := Nat.min_le_right _ _
      parked := fun _ => ⟨Nat.min_le_right _ _, Nat.min_le_right _ _⟩
      region := hregion
      maxLines := h.maxLines
      scrollback := h.scrollback }
  case isFalse hoff =>
    exact {
      grid := hg.like (Grid.like_setCursor hg.wellFormed)
      alt := ha
      cursorRow := Nat.min_le_right _ _
      cursorCol := Nat.min_le_right _ _
      parked := fun hon => absurd hon hoff
      region := hregion
      maxLines := h.maxLines
      scrollback := h.scrollback }

theorem resize_goes (h : t.Sound limit) (rows cols : Nat) : Goes limit (t.resize rows cols) := by
  obtain ⟨hmid, hfits⟩ := h.swapGrids
  obtain ⟨t₁, hreflow, h₁⟩ := hmid.reflow hfits rows
  obtain ⟨grid, altGrid, hgrids, hgrid, halt, -, -⟩ := resizeGrids_spec h₁.grid h₁.alt rows cols
  obtain ⟨u, hu, hsound⟩ := settle_sound (t := { t₁ with grid, altGrid, rows, cols }) hgrid halt
    ⟨hgrid.wellFormed, fun g hg => (halt g hg).wellFormed, h₁.maxLines, h₁.scrollback⟩ t.regionIsFullScreen
  refine ⟨_, ?_, hsound⟩
  unfold resize
  rw [hreflow]
  show (t₁.resizeGrids rows cols).bind _ = _
  rw [hgrids, hu]
  rfl

/-! ## scrolling and printing -/

/-- scrolling up also leaves the width alone, `putChar` relies on it -/
lemma scrollUp_sound (h : t.Sound limit) :
    ∃ t', t.scrollUp = some t' ∧ t'.Sound limit ∧ t'.cols = t.cols := by
  rcases h.region with hr | ⟨hrows, -, -⟩
  · obtain ⟨grid, hrun, hlike, -⟩ := scrollUp_spec h.grid hr
    have hg : Sound limit { t with grid } := { h with grid := h.grid.like hlike }
    refine ⟨_, hrun, ?_, rfl⟩
    split
    · exact hg.push _
    · exact hg
  · unfold scrollUp
    rw [if_pos (.inl hrows)]
    exact ⟨t, rfl, h, rfl⟩

lemma scrollDown_goes (h : t.Sound limit) : Goes limit t.scrollDown := by
  rcases h.region with hr | ⟨hrows, -, -⟩
  · exact (scrollDown_redrawn h.grid hr).goes h
  · unfold scrollDown
    rw [if_pos (.inl hrows)]
    exact h.goes

lemma lineDown_sound (h : t.Sound limit) :
    ∃ t', t.lineDown = some t' ∧ t'.Sound limit ∧ t'.cols = t.cols := by
  unfold lineDown
  split
  · exact scrollUp_sound h
  split
  · exact ⟨_, rfl, h.move t.wrapPending (by omega) h.cursorCol, rfl⟩
  · exact ⟨_, rfl, h.move t.wrapPending (Nat.le_refl _) h.cursorCol, rfl⟩

lemma prepareForPrintable_sound (h : t.Sound limit) :
    ∃ t', t.prepareForPrintable = some t' ∧ t'.Sound limit ∧ t'.cols = t.cols := by
  unfold prepareForPrintable
  split
  · obtain ⟨t', hrun, ht', hcols⟩ :=
      lineDown_sound (h.move t.wrapPending h.cursorRow (Nat.zero_le _))
    refine ⟨_, ?_, ht'.clearPendingWrap, hcols⟩
    rw [wrapToNextLine, hrun]
    rfl
  · exact ⟨t, rfl, h, rfl⟩

lemma putChar_goes (h : t.Sound limit) (c : Char) : Goes limit (t.putChar c) := by
  unfold putChar
  split
  · exact h.goes
  obtain ⟨t', hrun, ht', hcols⟩ := prepareForPrintable_sound h
  obtain ⟨grid, hset, hlike, -⟩ := Grid.set_spec ht'.grid.wellFormed (r := t'.cursorRow)
    (c := t'.cursorCol) (x := ⟨c, t'.fg, t'.bg, t'.attrs⟩)
  have hg : Sound limit { t' with grid } := { ht' with grid := ht'.grid.like hlike }
  have hcol := ht'.cursorCol
  rw [hrun]
  show Goes limit ((t'.grid.set _ _ _).bind _)
  rw [hset]
  show Goes limit (if t'.cursorCol + 1 ≥ t'.cols then _ else _)
  split
  · rw [sub?_eq (by omega)]
    exact (hg.move _ hg.cursorRow (Nat.le_refl _)).goes
  · exact (hg.move _ hg.cursorRow (by dsimp only; omega)).goes

/-! ## control sequences -/

lemma enterAltScreen_sound (h : t.Sound limit) : t.enterAltScreen.Sound limit := by
  unfold enterAltScreen
  split
  · exact h
  exact {
    grid := ⟨(Grid.like_setCursor (Grid.wellFormed_new _ _)).wellFormed, rfl, rfl⟩
    alt := by
      rintro g hg
      cases hg
      exact h.grid
    cursorRow := Nat.zero_le _
    cursorCol := Nat.zero_le _
    parked := fun _ => ⟨h.cursorRow, h.cursorCol⟩
    region := h.region
    maxLines := h.maxLines
    scrollback := h.scrollback }

lemma exitAltScreen_sound (h : t.Sound limit) : t.exitAltScreen.Sound limit := by
  unfold exitAltScreen
  split
  · exact h
  next main halt =>
    have hmain := h.alt main halt
    exact {
      grid := hmain.like (Grid.like_setCursor hmain.wellFormed)
      alt := by simp
      cursorRow := Nat.min_le_right _ _
      cursorCol := Nat.min_le_right _ _
      parked := by simp
      region := h.region
      maxLines := h.maxLines
      scrollback := h.scrollback }

lemma setPrivateMode_sound (h : t.Sound limit) (on : Bool) (code : Nat) :
    (t.setPrivateMode on code).Sound limit := by
  unfold setPrivateMode
  split
  case h_1 =>
    exact { h with grid :=
      ⟨⟨h.grid.wellFormed.length, h.grid.wellFormed.cursorRow, h.grid.wellFormed.cursorCol⟩,
        h.grid.rows, h.grid.cols⟩ }
  case h_8 | h_9 | h_10 =>
    split
    · exact enterAltScreen_sound h
    · exact exitAltScreen_sound h
  all_goals exact { h with }

lemma setPrivateModes_sound (h : t.Sound limit) (on : Bool) (codes : List Nat) :
    (codes.foldl (setPrivateMode on) t).Sound limit := by
  induction codes generalizing t with
  | nil => exact h
  | cons code codes ih => exact ih (setPrivateMode_sound h on code)

lemma handleSgr_goes (h : t.Sound limit) (parity : Bool) (pv : List Nat) :
    Goes limit (t.handleSgr parity pv) := by
  obtain ⟨pen, hpen⟩ := Pen.handleSgr_isSome parity (defaultFg parity)
    ⟨t.fg, t.bg, t.attrs⟩ pv
  unfold handleSgr
  rw [hpen]
  exact ⟨_, rfl, { h with }⟩

lemma eraseDisplay_goes (h : t.Sound limit) (mode : Nat) : Goes limit (t.eraseDisplay mode) := by
  have hclear : ∀ {t : Terminal}, t.Sound limit → ∀ r c r' c', Goes limit (t.clearRegion r c r' c') :=
    fun h r c r' c' => (clearRegion_redrawn h.grid r c r' c').goes h
  unfold eraseDisplay
  split
  · refine (hclear h _ _ _ _).bind fun t ht => ?_
    split
    next hlt =>
      rw [sub?_eq (by omega)]
      exact hclear ht _ _ _ _
    · exact ht.goes
  · split
    next hpos =>
      rw [sub?_eq hpos]
      exact (hclear h _ _ _ _).bind fun t ht => hclear ht _ _ _ _
    · exact hclear h _ _ _ _
  · exact hclear h _ _ _ _
  · refine (hclear h _ _ _ _).bind fun t ht => ⟨_, rfl, { ht with
      maxLines := ht.maxLines
      scrollback := Nat.zero_le _ }⟩
  · exact h.goes

lemma eraseLine_goes (h : t.Sound limit) (mode : Nat) : Goes limit (t.eraseLine mode) := by
  unfold eraseLine
  split
  · exact (clearRegion_redrawn h.grid _ _ _ _).goes h
  · exact (clearRegion_redrawn h.grid _ _ _ _).goes h
  · exact (clearRegion_redrawn h.grid _ _ _ _).goes h
  · exact h.goes

lemma setMargins_sound (h : t.Sound limit) (pv : List Nat) : (t.setMargins pv).Sound limit := by
  unfold setMargins
  generalize (if pv[0]?.getD 0 = 0 then 1 else pv[0]?.getD 0) = top
  generalize (if pv[1]?.getD 0 = 0 then t.rows else pv[1]?.getD 0) = bot
  dsimp only
  split
  next hin => exact { h with cursorRow := Nat.zero_le _, cursorCol := Nat.zero_le _, region := .inl hin }
  · exact h

lemma respond_sound (h : t.Sound limit) (reply : String) : (t.respond reply).Sound limit := { h with }

lemma Sound.scrollBot_le (h : t.Sound limit) : t.scrollBot ≤ t.rows := by
  rcases h.region with hr | hr
  · exact hr.2
  · omega

lemma csiAction_goes (h : t.Sound limit) (parity : Bool) (pv : List Nat) (intermediates : List UInt8)
    (action : Char) : Goes limit (t.csiAction parity pv intermediates action) := by
  have hrow := h.cursorRow
  have hcol := h.cursorCol
  have hmove : ∀ row col, row ≤ t.rows - 1 → col ≤ t.cols - 1 →
      Goes limit (some { t with cursorRow := row, cursorCol := col }) :=
    fun row col hr hc => (h.move t.wrapPending hr hc).goes
  unfold csiAction
  dsimp only
  split
  case h_1 => exact hmove _ _ (by omega) hcol
  case h_2 => exact hmove _ _ (Nat.min_le_right _ _) hcol
  case h_3 => exact hmove _ _ hrow (Nat.min_le_right _ _)
  case h_4 => exact hmove _ _ hrow (by omega)
  case h_5 | h_6 => exact hmove _ _ (Nat.min_le_right _ _) (Nat.min_le_right _ _)
  case h_7 => exact hmove _ _ (Nat.min_le_right _ _) hcol
  case h_8 => exact hmove _ _ hrow (Nat.min_le_right _ _)
  case h_9 => exact eraseDisplay_goes h _
  case h_10 => exact eraseLine_goes h _
  case h_11 => exact (insertLines_redrawn h.grid h.scrollBot_le _).goes h
  case h_12 =>
    split
    · exact (deleteLines_redrawn h.grid h.scrollBot_le _).goes h
    · exact h.goes
  case h_13 => exact goes_forRange h fun t _ ht => (scrollUp_sound ht).imp fun _ h => ⟨h.1, h.2.1⟩
  case h_14 => exact goes_forRange h fun t _ ht => scrollDown_goes ht
  case h_15 => exact (insertChars_redrawn h.grid (by omega) _).goes h
  case h_16 => exact (deleteChars_redrawn h.grid _).goes h
  case h_17 => exact (eraseChars_redrawn h.grid _).goes h
  case h_18 =>
    split
    · exact (setMargins_sound h pv).goes
    · exact h.goes
  case h_19 | h_20 | h_21 =>
    split_ifs
    all_goals first | exact (respond_sound h _).goes | exact h.goes
  case h_22 => exact handleSgr_goes h parity pv
  case h_23 => exact h.goes

lemma csiDispatch_goes (h : t.Sound limit) (parity : Bool) (params : List Param) (intermediates : List UInt8)
    (action : Char) : Goes limit (t.csiDispatch parity params intermediates action) := by
  unfold csiDispatch
  dsimp only
  split
  · split
    · exact (setPrivateModes_sound h _ _).goes
    · exact h.goes
  split
  · exact h.goes
  split
  · exact csiAction_goes h parity _ _ _
  · exact csiAction_goes h.clearPendingWrap parity _ _ _

/-! ## events -/

lemma execute_goes (h : t.Sound limit) (byte : UInt8) : Goes limit (t.execute byte) := by
  have hcol := h.cursorCol
  unfold execute
  split
  · exact (lineDown_sound h.clearPendingWrap).imp fun _ h => ⟨h.1, h.2.1⟩
  · exact (h.move _ h.cursorRow (Nat.zero_le _)).goes
  · exact (h.move _ h.cursorRow (Nat.min_le_right _ _)).goes
  · exact (h.move _ h.cursorRow (show t.cursorCol - 1 ≤ _ by omega)).goes
  · exact h.goes

lemma oscDispatch_sound (h : t.Sound limit) (params : List (List UInt8)) :
    (t.oscDispatch params).Sound limit := by
  unfold oscDispatch
  split
  · split
    · exact { h with }
    · exact h
  · exact h

lemma escDispatch_goes (h : t.Sound limit) (byte : UInt8) : Goes limit (t.escDispatch byte) := by
  have hrow := h.cursorRow
  unfold escDispatch
  split
  · exact ⟨_, rfl, { h with }⟩
  · exact (h.move _ (Nat.min_le_right _ _) (Nat.min_le_right _ _)).goes
  · dsimp only
    split
    · exact scrollDown_goes h.clearPendingWrap
    next hpos =>
      rw [sub?_eq (Nat.pos_of_ne_zero hpos)]
      exact (h.move _ (show t.cursorRow - 1 ≤ _ by omega) h.cursorCol).goes
  · exact h.goes

theorem step_goes (h : t.Sound limit) (parity : Bool) (e : Event) : Goes limit (t.step parity e) := by
  cases e with
  | call c =>
    cases c with
    | print c => exact putChar_goes h c
    | execute byte => exact execute_goes h byte
    | csiDispatch params intermediates ignore action => exact csiDispatch_goes h parity _ _ _
    | oscDispatch params bell => exact (oscDispatch_sound h params).goes
    | escDispatch intermediates ignore byte => exact escDispatch_goes h byte
  | flush => exact ⟨_, rfl, { h with grid := h.grid.like (Grid.like_setCursor h.grid.wellFormed) }⟩
  | resize rows cols => exact resize_goes h rows cols

lemma sound_new (parity : Bool) (rows cols limit : Nat) : (new parity rows cols limit).Sound limit where
  grid := ⟨Grid.wellFormed_new rows cols, rfl, rfl⟩
  alt := by simp [new]
  cursorRow := Nat.zero_le _
  cursorCol := Nat.zero_le _
  parked := by simp [new]
  region := by
    rcases Nat.eq_zero_or_pos rows with hr | hr
    · exact .inr ⟨hr, rfl, hr⟩
    · exact .inl ⟨hr, Nat.le_refl rows⟩
  maxLines := rfl
  scrollback := Nat.zero_le _

/-- **Main result.** Whatever the size of the new terminal and the events that reach it, nothing
panics and the terminal is sound. -/
theorem structure_kept (parity : Bool) (rows cols limit : Nat) (es : List Event) :
    ∃ t, exec (step parity) (new parity rows cols limit) es = some t ∧ t.Sound limit :=
  exec_progress (fun _ e _ h => step_goes h parity e) (sound_new parity rows cols limit)

end Terminal
end TerminalManager.Core
