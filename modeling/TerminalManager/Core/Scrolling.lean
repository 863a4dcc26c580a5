import TerminalManager.Core.Resizing

/-!
# Two ways to scroll, and the two line moves

The daemon's emulator scrolls the whole screen by moving the buffer of the grid (`Grid.scrollUp`), a part of
it by copying row after row; line feed scrolls up at the end of the scroll region, reverse index down.

* `scrollUpRegion`        the branch of `scrollUp` for a part of the screen, on its own;
* `scrolls_agree_iff`     **main result**: on the whole screen the two branches do the same exactly when the
  pen draws in the colours of a blank cell;
* `lineFed`, `reverseIndexed`   what the two line moves do to the cursor's row and the picture by the scroll
  region; they are mirror images (`mirror_reverseIndexed`);
* `lineFeed_law`          line feed does it;
* `reverseIndex_iff`      **main result**: reverse index, which scrolls on row zero wherever the region starts,
  does it in the cases that are given.
-/

namespace TerminalManager.Core
open Loops Slice Term Transition
namespace Terminal

variable {t : Terminal} {limit : Nat} {rows cols top bot : Nat} {x y : Cell} {p : Picture Cell}

/-! ## the two branches of `scrollUp` -/

/-- the branch of `scrollUp` for a part of the screen -/
def scrollUpRegion (t : Terminal) (top bot : Nat) : Option Terminal := do
  let t := if top = 0 ∧ t.altGrid.isNone then
      { t with scrollback := t.scrollback.push ((List.range t.cols).filterMap fun col => t.grid.get top col) }
    else t
  let t ← forRange top (bot - 1) (fun t row => t.copyRow row (row + 1)) t
  t.clearRow (← sub? bot 1)

lemma scrollUp_eq (t : Terminal) : t.scrollUp =
    if t.rows = 0 ∨ t.scrollBot ≤ t.scrollTop then some t
    else if t.regionIsFullScreen then t.scrollUpAndCapture
    else t.scrollUpRegion t.scrollTop t.scrollBot := rfl

lemma regionIsFullScreen_iff : t.regionIsFullScreen = true ↔ t.scrollTop = 0 ∧ t.scrollBot = t.rows := by
  rw [regionIsFullScreen, decide_eq_true_iff]

/-- pictures that scrolled with different blanks are different -/
lemma scrolledUp_inj (hp : Picture.Shape rows cols p) (htop : top < bot) (hbot : bot ≤ rows) (hc : 0 < cols) :
    scrolledUp top bot cols x p = scrolledUp top bot cols y p ↔ x = y := by
  constructor
  · intro h
    have hlast : ∀ z, scrolledUp top bot cols z p (bot - 1) 0 = some z := by
      intro z
      obtain ⟨w, hw⟩ := hp.some (show bot - 1 < rows by omega) hc
      rw [scrolledUp, Picture.fill, if_pos (by omega), Picture.moveRows, if_neg (by omega), hw]
      rfl
    exact Option.some.inj ((hlast x).symm.trans ((congrFun (congrFun h (bot - 1)) 0).trans (hlast y)))
  · rintro rfl
    rfl

lemma erased_eq_blank_iff : t.erased = .blank ↔ t.fg = .white ∧ t.bg = .transparent := by
  rw [erased, Cell.blank, Cell.mk.injEq]
  simp

/-- **Main result.** On the main screen, with the whole of it as scroll region, the branch for the whole screen and
the branch for a part of it leave the same cells and the same scrollback exactly when the pen has the colours of a
blank cell. -/
theorem scrolls_agree_iff (h : t.Sound limit) (hmain : t.altGrid = none) (hfull : t.regionIsFullScreen = true)
    (hrows : 0 < t.rows) (hcols : 0 < t.cols) :
    ∃ u v, t.scrollUp = some u ∧ t.scrollUp = t.scrollUpAndCapture ∧ t.scrollUpRegion 0 t.rows = some v ∧
      (u.grid.cells = v.grid.cells ∧ u.scrollback = v.scrollback ↔ t.fg = .white ∧ t.bg = .transparent) := by
  obtain ⟨htop, hbot⟩ := regionIsFullScreen_iff.mp hfull
  have hregion : t.Region := ⟨by omega, by omega⟩
  obtain ⟨grid, hrun, hlike, hview⟩ := scrollUp_spec h.grid hregion
  have hcap : t.captures := ⟨htop, by rw [hmain]; rfl, .inl hcols⟩
  rw [if_pos hcap] at hrun
  rw [incoming, if_pos hfull] at hview
  obtain ⟨grid', hrun', hlike', hview'⟩ := scrollRegion_redrawn
    (t := { t with scrollback := t.scrollback.push (Picture.row t.cols t.grid.view 0) }) h.grid hregion
  have hpart : t.scrollUpRegion 0 t.rows = some { t with
      grid := grid', scrollback := t.scrollback.push (Picture.row t.cols t.grid.view 0) } := by
    rw [← hrun', scrollUpRegion, if_pos ⟨rfl, by rw [hmain]; rfl⟩]
    dsimp only
    rw [htop, hbot]
    rfl
  refine ⟨_, _, hrun, ?_, hpart, ?_⟩
  · rw [scrollUp_eq, if_neg (by omega), if_pos hfull]
  have hsized := h.grid.like hlike
  have hsized' := h.grid.like hlike'
  rw [and_iff_left rfl, ← erased_eq_blank_iff]
  constructor
  · intro hcells
    have hviews : grid.view = grid'.view := by
      rw [Grid.view_eq, Grid.view_eq, hsized.rows, hsized.cols, hsized'.rows, hsized'.cols]
      exact congrArg (Picture.ofCells t.rows t.cols) hcells
    rw [hview, hview'] at hviews
    exact ((scrolledUp_inj h.grid.shape hregion.1 hregion.2 hcols).mp hviews).symm
  · intro hblank
    refine cells_eq_of_view hsized hsized' ?_
    rw [hview, hview', ← hblank]
    rfl

/-- a new terminal scrolls both ways alike -/
theorem scrolls_agree_new : ∃ u v, (new false 2 2 10).scrollUp = some u ∧
    (new false 2 2 10).scrollUpRegion 0 2 = some v ∧ u.grid.cells = v.grid.cells ∧ u.scrollback = v.scrollback := by
  obtain ⟨u, v, hu, -, hv, hagree⟩ := scrolls_agree_iff (sound_new false 2 2 10) rfl rfl (by decide) (by decide)
  obtain ⟨hcells, hhistory⟩ := hagree.mpr ⟨rfl, rfl⟩
  exact ⟨u, v, hu, hv, hcells, hhistory⟩

/-- with a red background the two branches leave different cells in the last row -/
theorem scrolls_differ_red : ∃ t u v, exec (step false) (new false 2 2 10)
      [.call (.csiDispatch [⟨41, []⟩] [] false 'm')] = some t ∧ t.altGrid = none ∧ t.regionIsFullScreen = true ∧
    t.scrollUp = some u ∧ t.scrollUpRegion 0 t.rows = some v ∧ u.grid.cells ≠ v.grid.cells :=
  ⟨_, _, _, rfl, rfl, rfl, rfl, rfl, by decide⟩

/-! ## line feed and reverse index -/

/-- the cursor's row and the picture after a line feed: on the last row of the region `[top, bot)` the region
scrolls up, elsewhere the cursor goes down as far as it can -/
def lineFed (rows top bot cols : Nat) (x : Cell) (row : Nat) (p : Picture Cell) : Nat × Picture Cell :=
  if row = bot - 1 then (row, scrolledUp top bot cols x p) else (min (row + 1) (rows - 1), p)

/-- the same after a reverse index: on the first row of the region it scrolls down, elsewhere the cursor goes up
as far as it can -/
def reverseIndexed (top bot cols : Nat) (x : Cell) (row : Nat) (p : Picture Cell) : Nat × Picture Cell :=
  if row = top then (row, scrolledDown top bot cols x p) else (row - 1, p)

/-- `rows` rows, upside down -/
def upsideDown (rows : Nat) (v : Nat × Picture Cell) : Nat × Picture Cell :=
  (rows - 1 - v.1, Picture.mirror rows v.2)

/-- a reverse index is a line feed upside down -/
theorem mirror_reverseIndexed {row : Nat} (htop : top < bot) (hbot : bot ≤ rows) (hrow : row < rows) :
    upsideDown rows (reverseIndexed top bot cols x row p)
      = lineFed rows (rows - bot) (rows - top) cols x (rows - 1 - row) (Picture.mirror rows p) := by
  unfold upsideDown reverseIndexed lineFed
  by_cases h : row = top
  · rw [if_pos h, if_pos (by omega)]
    unfold scrolledDown scrolledUp
    rw [Picture.mirror_fill (by omega) (by omega), Picture.mirror_moveRows (by omega) (by omega),
      show rows - (top + 1) = rows - top - 1 by omega, show rows - (top + 1 + (bot - 1 - top)) = rows - bot by omega,
      show rows - (top + (bot - 1 - top)) = rows - bot + 1 by omega,
      show bot - 1 - top = rows - top - 1 - (rows - bot) by omega]
  · rw [if_neg h, if_neg (by omega)]
    congr 1
    dsimp only
    omega

/-- the region shows blanks of the pen all over -/
def RegionErased (t : Terminal) : Prop :=
  ∀ i j, t.scrollTop ≤ i → i < t.scrollBot → j < t.cols → t.grid.view i j = some t.erased

/-- scrolling down changes nothing exactly when the rows that scroll are all blank -/
lemma scrolledDown_eq_self_iff (hp : Picture.Shape rows cols p) (htop : top < bot) (hbot : bot ≤ rows) :
    scrolledDown top bot cols x p = p ↔ ∀ i j, top ≤ i → i < bot → j < cols → p i j = some x := by
  have hfirst : ∀ j < cols, scrolledDown top bot cols x p top j = some x := by
    intro j hj
    obtain ⟨y, hy⟩ := hp.some (show top < rows by omega) hj
    rw [scrolledDown, Picture.fill, if_pos (by omega), Picture.moveRows, if_neg (by omega), hy]
    rfl
  have hnext : ∀ i j, top ≤ i → i + 1 < bot → scrolledDown top bot cols x p (i + 1) j = p i j := by
    intro i j hi hib
    rw [scrolledDown, Picture.fill, if_neg (by omega), Picture.moveRows, if_pos (by omega)]
    congr 1
    omega
  constructor
  · intro h i j hi hib hj
    obtain ⟨d, rfl⟩ := Nat.exists_eq_add_of_le hi
    induction d with
    | zero => rw [Nat.add_zero, ← h, hfirst j hj]
    | succ d ih =>
      rw [← h, ← Nat.add_assoc, hnext _ j (by omega) (by omega)]
      exact ih (by omega) (by omega)
  · intro h
    funext i j
    by_cases hin : top ≤ i ∧ i < bot ∧ j < cols
    · rw [h i j hin.1 hin.2.1 hin.2.2]
      rcases Nat.eq_or_lt_of_le hin.1 with heq | hlt
      · rw [← heq, hfirst j hin.2.2]
      · obtain ⟨i, rfl⟩ : ∃ i', i = i' + 1 := ⟨i - 1, by omega⟩
        rw [hnext i j (by omega) hin.2.1]
        exact h i j (by omega) (by omega) hin.2.2
    · rw [scrolledDown, Picture.fill, if_neg (by omega), Picture.moveRows]
      split
      · rw [hp.none (by omega), hp.none (by omega)]
      · rfl

/-- nothing scrolls on a screen without rows -/
lemma scrolled_empty (hp : Picture.Shape 0 cols p) :
    scrolledUp top bot cols x p = p ∧ scrolledDown top bot cols x p = p ∧ Picture.mirror 0 p = p := by
  have hnone : p = fun _ _ => none := funext fun i => funext fun j => hp.none (by omega)
  subst hnone
  refine ⟨?_, ?_, ?_⟩
  all_goals
    funext i j
    simp [scrolledUp, scrolledDown, Picture.fill, Picture.moveRows, Picture.mirror]

/-- what line feed does, whatever the region and the cursor -/
lemma lineDown_law (h : t.Sound limit) : ∃ u, t.lineDown = some u ∧ u.cursorCol = t.cursorCol ∧
    (u.cursorRow, u.grid.view)
      = lineFed t.rows t.scrollTop t.scrollBot t.cols t.incoming t.cursorRow t.grid.view := by
  have hrow := h.cursorRow
  unfold lineDown
  rcases h.region with hregion | ⟨hrows, htop, hbot⟩
  case inr =>
    -- the cursor is on row zero, and stays there
    have hshape := h.grid.shape
    rw [hrows] at hshape
    rw [if_neg (by omega), if_neg (by omega)]
    refine ⟨_, rfl, rfl, ?_⟩
    rw [lineFed, if_pos (by omega), (scrolled_empty hshape).1]
    exact Prod.ext (show t.rows - 1 = t.cursorRow by omega) rfl
  split
  next hlast =>
    obtain ⟨grid, hrun, -, hview⟩ := scrollUp_spec h.grid hregion
    refine ⟨_, hrun, rfl, ?_⟩
    rw [lineFed, if_pos (Nat.eq_sub_of_add_eq hlast)]
    exact Prod.ext rfl hview
  next hlast =>
    have htop := hregion.1
    rw [lineFed, if_neg (show ¬t.cursorRow = t.scrollBot - 1 by omega)]
    split
    · exact ⟨_, rfl, rfl, Prod.ext (show t.cursorRow + 1 = min _ _ by omega) rfl⟩
    · exact ⟨_, rfl, rfl, Prod.ext (show t.rows - 1 = min _ _ by omega) rfl⟩

theorem lineFeed_law (h : t.Sound limit) : ∃ u, t.execute 0x0a = some u ∧ u.cursorCol = t.cursorCol ∧
    (u.cursorRow, u.grid.view)
      = lineFed t.rows t.scrollTop t.scrollBot t.cols t.incoming t.cursorRow t.grid.view :=
  lineDown_law h.clearPendingWrap

/-- what reverse index should do to the cursor and the cells, which is what a line feed does upside down -/
def ReverseIndex (t u : Terminal) : Prop :=
  u.cursorCol = t.cursorCol ∧
    (u.cursorRow, u.grid.view) = reverseIndexed t.scrollTop t.scrollBot t.cols t.erased t.cursorRow t.grid.view ∧
    upsideDown t.rows (u.cursorRow, u.grid.view) = lineFed t.rows (t.rows - t.scrollBot) (t.rows - t.scrollTop)
      t.cols t.erased (t.rows - 1 - t.cursorRow) (Picture.mirror t.rows t.grid.view)

/-- the picture of a reverse index is enough, it is a line feed upside down -/
lemma reverseIndex_of_picture {u : Terminal} (h : t.Sound limit) (hcol : u.cursorCol = t.cursorCol) :
    ReverseIndex t u ↔ (u.cursorRow, u.grid.view)
      = reverseIndexed t.scrollTop t.scrollBot t.cols t.erased t.cursorRow t.grid.view := by
  have hrow := h.cursorRow
  constructor
  · intro hr
    exact hr.2.1
  · intro hr
    refine ⟨hcol, hr, ?_⟩
    rw [hr]
    rcases h.region with ⟨htop, hbot⟩ | ⟨hrows, htop, hbot⟩
    · exact mirror_reverseIndexed htop hbot (by omega)
    · have hshape := h.grid.shape
      rw [hrows] at hshape
      obtain ⟨hup, hdown, hself⟩ := @scrolled_empty t.cols 0 0 t.erased _ hshape
      rw [show t.cursorRow = 0 by omega, htop, hbot, hrows, reverseIndexed, if_pos rfl, upsideDown, hdown, hself,
        lineFed, if_pos rfl, hup]

/-- **Main result.** Reverse index respects the scroll region exactly when the cursor is on neither of the rows zero
and `scrollTop`, or on row zero with the region starting there, or with nothing to see in the region. -/
theorem reverseIndex_iff (h : t.Sound limit) : ∃ u, t.escDispatch 0x4d = some u ∧ (ReverseIndex t u ↔
    t.cursorRow ≠ 0 ∧ t.cursorRow ≠ t.scrollTop ∨ t.cursorRow = 0 ∧ (t.scrollTop = 0 ∨ t.RegionErased)) := by
  by_cases hzero : t.cursorRow = 0
  case neg =>
    obtain ⟨u, hu, hrow, hcol, hview⟩ : ∃ u, t.escDispatch 0x4d = some u ∧ u.cursorRow = t.cursorRow - 1 ∧
        u.cursorCol = t.cursorCol ∧ u.grid.view = t.grid.view := by
      refine ⟨{ t.clearPendingWrap with cursorRow := t.cursorRow - 1 }, ?_, rfl, rfl, rfl⟩
      show (if t.cursorRow = 0 then _ else (sub? t.cursorRow 1).bind _) = _
      rw [if_neg hzero, sub?_eq (by omega)]
      rfl
    refine ⟨u, hu, ?_⟩
    rw [reverseIndex_of_picture h hcol, hrow, hview, reverseIndexed]
    split
    next htop => exact iff_of_false (fun heq => absurd (congrArg Prod.fst heq) (by dsimp only; omega)) (by omega)
    next htop => exact iff_of_true rfl (.inl ⟨hzero, htop⟩)
  obtain ⟨u, hu, hrow, hcol, hview⟩ : ∃ u, t.escDispatch 0x4d = some u ∧ u.cursorRow = t.cursorRow ∧
      u.cursorCol = t.cursorCol ∧
      u.grid.view = scrolledDown t.scrollTop t.scrollBot t.cols t.erased t.grid.view := by
    have hrun : t.escDispatch 0x4d = t.clearPendingWrap.scrollDown := if_pos hzero
    rw [hrun]
    rcases h.region with hregion | ⟨hrows, htop, hbot⟩
    · obtain ⟨grid, hgrid, -, hview⟩ := scrollDown_redrawn (t := t.clearPendingWrap) h.grid hregion
      exact ⟨_, hgrid, rfl, rfl, hview⟩
    · have hshape := h.grid.shape
      rw [hrows] at hshape
      refine ⟨t.clearPendingWrap, ?_, rfl, rfl, ((scrolled_empty hshape).2.1).symm⟩
      unfold scrollDown
      exact if_pos (.inl hrows)
  refine ⟨u, hu, ?_⟩
  rw [reverseIndex_of_picture h hcol, hrow, hview, reverseIndexed]
  split
  next htop => exact iff_of_true rfl (.inr ⟨hzero, .inl (by omega)⟩)
  next htop =>
    have hregion : t.Region := by
      rcases h.region with hregion | ⟨-, htop', -⟩
      · exact hregion
      · omega
    rw [hzero, Prod.mk.injEq, and_iff_right rfl, scrolledDown_eq_self_iff h.grid.shape hregion.1 hregion.2]
    constructor
    · intro hblank
      exact .inr ⟨rfl, .inr hblank⟩
    · rintro (⟨hne, -⟩ | ⟨-, htop' | hblank⟩)
      · exact absurd rfl hne
      · omega
      · exact hblank

/-- with the whole screen as region and the cursor at its top it does -/
theorem reverseIndex_new : ∃ u, (new false 3 2 10).escDispatch 0x4d = some u ∧ ReverseIndex (new false 3 2 10) u := by
  obtain ⟨u, hu, hlaw⟩ := reverseIndex_iff (sound_new false 3 2 10)
  exact ⟨u, hu, hlaw.mpr (.inr ⟨rfl, .inl rfl⟩)⟩

/-- a character on the second row, the region from that row on, the cursor on its first row -/
def atMargin : List Event :=
  [.call (.execute 0x0a), .call (.print 'x'), .call (.csiDispatch [⟨2, []⟩] [] false 'r'),
    .call (.csiDispatch [⟨2, []⟩] [] false 'H')]

/-- there the cursor leaves the region, and nothing scrolls -/
theorem reverseIndex_atMargin : ∃ t u, exec (step false) (new false 3 2 10) atMargin = some t ∧
    t.cursorRow = t.scrollTop ∧ t.escDispatch 0x4d = some u ∧ u.cursorRow + 1 = t.cursorRow ∧ u.grid = t.grid ∧
    ¬ReverseIndex t u := by
  obtain ⟨t, ht, hrow, htop, u, hu, hup, hsame⟩ : ∃ t, exec (step false) (new false 3 2 10) atMargin = some t ∧
      t.cursorRow = 1 ∧ t.scrollTop = 1 ∧ ∃ u, t.escDispatch 0x4d = some u ∧ u.cursorRow + 1 = t.cursorRow ∧
      u.grid = t.grid := ⟨_, rfl, rfl, rfl, _, rfl, rfl, rfl⟩
  refine ⟨t, u, ht, hrow.trans htop.symm, hu, hup, hsame, fun hr => ?_⟩
  have hstays := congrArg Prod.fst hr.2.1
  rw [reverseIndexed, if_pos (hrow.trans htop.symm)] at hstays
  dsimp only at hstays
  omega

end Terminal
end TerminalManager.Core
