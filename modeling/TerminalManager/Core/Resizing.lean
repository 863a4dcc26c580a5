import TerminalManager.Core.Invariant

/-!
# What a resize of the daemon's emulator does with the lines

A resize that leaves the columns alone, on the main screen.  Fewer rows push rows above the cursor into the
scrollback, as many as there are, and clip the rest at the bottom; more rows lift lines out of it.

* `Terminal.Shows`       a terminal on the main screen, by what it shows;
* `shrink_shows`, `grow_shows`   the terminal after the resize;
* `shrink_keeps_iff`     **main result**: no row with text is lost exactly when the rows that are clipped at
  the bottom have none;
* `roundTrip_iff`        **main result**: rows taken away and given back restore the terminal exactly, but for
  a terminal without columns, that takes lines from the scrollback it never put there.
-/

namespace TerminalManager.Core
open Loops Slice Term Transition

lemma Scrollback.foldl_push_room (lines : List (List Cell)) {s : Scrollback}
    (h : s.lines.length + lines.length ≤ s.maxLines) :
    lines.foldl Scrollback.push s = ⟨s.lines ++ lines, s.maxLines⟩ := by
  induction lines generalizing s with
  | nil => rw [List.append_nil]; rfl
  | cons line lines ih =>
    rw [List.length_cons] at h
    have hpush : s.push line = ⟨s.lines ++ [line], s.maxLines⟩ := by
      unfold push
      rw [if_neg (by omega), show s.lines.length + 1 - s.maxLines = 0 by omega]
      rfl
    rw [List.foldl_cons, hpush, ih, List.append_assoc]
    · rfl
    · rw [List.length_append, List.length_singleton]
      dsimp only
      omega

namespace Terminal

variable {t u : Terminal} {limit rows : Nat}

/-- the cells of the two grids are the same -/
lemma cells_eq_of_view {g g' : Grid} {cols : Nat} (h : g.Sized rows cols) (h' : g'.Sized rows cols)
    (hview : g.view = g'.view) : g.cells = g'.cells := by
  have hlen := h.wellFormed.length
  have hlen' := h'.wellFormed.length
  rw [Grid.view_eq, Grid.view_eq, h.rows, h.cols, h'.rows, h'.cols] at hview
  rw [h.rows, h.cols] at hlen
  rw [h'.rows, h'.cols] at hlen'
  exact Picture.ofCells_inj hlen hlen' hview

/-- `u` is on the main screen and shows `p`, beside `scrollback` and with the cursor at `cursor` -/
structure Shows (u : Terminal) (rows cols : Nat) (p : Picture Cell) (scrollback : Scrollback)
    (cursor : Nat × Nat) : Prop where
  main : u.altGrid = none
  rows : u.rows = rows
  cols : u.cols = cols
  sized : u.grid.Sized u.rows u.cols
  view : u.grid.view = p
  history : u.scrollback = scrollback
  cursor : (u.cursorRow, u.cursorCol) = cursor

lemma mainRow_main (hmain : t.altGrid = none) : t.mainRow = t.cursorRow := by
  unfold mainRow
  rw [hmain]
  rfl

lemma setMainRow_main (hmain : t.altGrid = none) (row : Nat) : t.setMainRow row = { t with cursorRow := row } := by
  unfold setMainRow
  rw [hmain]
  rfl

/-- the rows that a shrink pushes, none from a grid without columns -/
def evicted (t : Terminal) (n : Nat) : List (List Cell) :=
  if 0 < t.cols then Picture.rows n t.cols t.grid.view else []

/-- what is left of `resize` when the rows have moved -/
lemma resize_of_reflow {t₁ : Terminal} (hmain : t.altGrid = none) (hrun : t.reflow rows = some t₁)
    (hwf : t₁.grid.WellFormed) (h₁ : t₁.altGrid = none) (cols : Nat) : ∃ u, t.resize rows cols = some u ∧
      u.Shows rows cols (Picture.resize rows cols .blank t₁.grid.view) t₁.scrollback
        (min t₁.cursorRow (rows - 1), min t₁.cursorCol (cols - 1)) := by
  obtain ⟨grid, altGrid, hgrids, hgrid, -, hsome, hview⟩ :=
    resizeGrids_spec hwf (by simp [h₁]) rows cols
  obtain rfl : altGrid = none := by
    rw [h₁] at hsome
    exact Option.not_isSome_iff_eq_none.mp (by rw [hsome]; simp)
  obtain ⟨top, bot, hclamp, -⟩ := clampScrollRegion_spec
    { t₁ with grid, altGrid := none, rows, cols } rows t.regionIsFullScreen
  have hswap : t.swapGrids = t := by
    unfold swapGrids
    rw [hmain]
  rw [h₁] at hview
  unfold resize
  rw [hswap, hrun]
  show ∃ u, (t₁.resizeGrids rows cols).bind _ = some u ∧ _
  rw [hgrids]
  refine ⟨_, rfl, ?_⟩
  rw [hclamp]
  exact ⟨rfl, rfl, rfl, hgrid.like (Grid.like_setCursor hgrid.wellFormed), hview, rfl, rfl⟩

lemma reflow_evict (h : t.Fits) (hr : rows ≤ t.rows) :
    ∃ grid, t.reflow rows = some (setMainRow { t with grid, scrollback :=
        (t.evicted (min (t.rows - rows) t.mainRow)).foldl .push t.scrollback }
        (t.mainRow - min (t.rows - rows) t.mainRow)) ∧ grid.WellFormed ∧
      Picture.resize rows t.cols .blank grid.view
        = Picture.cut (min (t.rows - rows) t.mainRow) rows t.grid.view := by
  obtain ⟨n, hn⟩ : ∃ n, n = min (t.rows - rows) t.mainRow := ⟨_, rfl⟩
  by_cases hc : 0 < t.cols
  · obtain ⟨grid, hrun, hlike, hview⟩ := reflow_shrink h hr hc
    refine ⟨grid, ?_, hlike.wellFormed, ?_⟩
    · rw [hrun, evicted, if_pos hc]
    · rw [hview, h.shape.resize_moveRows (by omega)]
  -- without columns no row leaves the grid
  refine ⟨t.grid, ?_, h.wellFormed, ?_⟩
  · have hempty : t.grid.shrinkRowsFromTop n = some ([], t.grid) := by
      unfold Grid.shrinkRowsFromTop
      rw [if_pos (by rw [h.cols]; omega)]
    have hnone : setMainRow { t with grid := t.grid, scrollback := t.scrollback } (t.mainRow - 0) = t :=
      setMainRow_mainRow
    rw [← hn, evicted, if_neg hc]
    unfold reflow
    rw [if_neg (by omega), ← hn]
    dsimp only
    split
    · split
      · rw [hempty, sub?_eq (by omega)]
        rfl
      next hzero =>
        obtain rfl : n = 0 := by omega
        exact congrArg some hnone.symm
    next hle =>
      obtain rfl : n = 0 := by omega
      exact congrArg some hnone.symm
  · funext i j
    unfold Picture.resize Picture.cut
    rw [if_neg (by omega)]
    split
    · rw [h.shape.none (by omega)]
    · rfl

/-- the rows above the cursor leave, the rows that are left over at the bottom are clipped -/
theorem shrink_shows (h : t.Sound limit) (hmain : t.altGrid = none) (hr : rows ≤ t.rows)
    (hroom : t.scrollback.lines.length + min (t.rows - rows) t.cursorRow ≤ limit) :
    ∃ u, t.resize rows t.cols = some u ∧
      u.Shows rows t.cols (Picture.cut (min (t.rows - rows) t.cursorRow) rows t.grid.view)
        ⟨t.scrollback.lines ++ t.evicted (min (t.rows - rows) t.cursorRow), limit⟩
        (min (t.cursorRow - min (t.rows - rows) t.cursorRow) (rows - 1), t.cursorCol) := by
  obtain ⟨grid, hrun, hwf, hview⟩ := reflow_evict h.grid hr
  rw [mainRow_main hmain] at hrun hview
  obtain ⟨n, hn⟩ : ∃ n, n = min (t.rows - rows) t.cursorRow := ⟨_, rfl⟩
  rw [← hn] at hrun hview hroom ⊢
  have hlen : (t.evicted n).length ≤ n := by
    unfold evicted Picture.rows
    split
    · exact Nat.le_of_eq (by rw [List.length_map, List.length_range])
    · exact Nat.zero_le n
  have hpush : (t.evicted n).foldl .push t.scrollback = ⟨t.scrollback.lines ++ t.evicted n, limit⟩ := by
    rw [Scrollback.foldl_push_room _ (by rw [h.maxLines]; omega), h.maxLines]
  rw [hpush, setMainRow_main (by exact hmain)] at hrun
  obtain ⟨u, hu, hshows⟩ := resize_of_reflow hmain hrun hwf hmain t.cols
  refine ⟨u, hu, ?_⟩
  have hcol := h.cursorCol
  rwa [hview, Nat.min_eq_left hcol] at hshows

/-- the newest lines of the scrollback come in on top -/
theorem grow_shows (h : t.Fits) (hmain : t.altGrid = none) (hcol : t.cursorCol ≤ t.cols - 1) (hr : t.rows < rows) :
    ∃ u, t.resize rows t.cols = some u ∧
      u.Shows rows t.cols (Picture.stack t.cols .blank
        (List.replicate (rows - t.rows - t.scrollback.lines.length) [] ++
          t.scrollback.lines.drop (t.scrollback.lines.length - (rows - t.rows))) t.grid.view)
        ⟨t.scrollback.lines.take (t.scrollback.lines.length - (rows - t.rows)), t.scrollback.maxLines⟩
        (min (t.cursorRow + (rows - t.rows)) (rows - 1), t.cursorCol) := by
  obtain ⟨grid, hrun, hsized, -, hview⟩ := reflow_grow h hr
  rw [mainRow_main hmain, setMainRow_main (by exact hmain)] at hrun
  obtain ⟨u, hu, hshows⟩ := resize_of_reflow hmain hrun hsized.wellFormed hmain t.cols
  refine ⟨u, hu, ?_⟩
  rwa [hsized.shape.resize_self, hview, Nat.min_eq_left hcol] at hshows

/-! ## shrinking -/

/-- a row that is not blank all over -/
def hasText (row : List Cell) : Bool := row.any fun cell => cell ≠ .blank

/-- the lines of the scrollback, then the rows of the grid -/
def history (t : Terminal) : List (List Cell) := t.scrollback.lines ++ Picture.rows t.rows t.cols t.grid.view

/-- without columns there is no text on the grid -/
lemma filter_hasText_rows (n : Nat) (p : Picture Cell) : (Picture.rows n 0 p).filter hasText = [] := by
  rw [List.filter_eq_nil_iff]
  intro row hrow
  obtain ⟨i, -, rfl⟩ := List.mem_map.mp hrow
  simp [Picture.row, hasText]

/-- the entries of a kind are all in the first part exactly when the rest has none -/
private lemma filter_sublist_left {α : Type*} {q : α → Bool} (xs ys : List α) :
    ((xs ++ ys).filter q).Sublist xs ↔ ∀ y ∈ ys, q y = false := by
  constructor
  · intro h
    have hkept : ((xs ++ ys).filter q).Sublist (xs.filter q) := by
      have := h.filter q
      rwa [List.filter_filter, show (fun a => q a && q a) = q from funext fun a => Bool.and_self _] at this
    have hlen := hkept.length_le
    rw [List.filter_append, List.length_append] at hlen
    have hnil : ys.filter q = [] := List.length_eq_zero_iff.mp (by omega)
    intro y hy
    exact Bool.eq_false_iff.mpr (List.filter_eq_nil_iff.mp hnil y hy)
  · intro h
    have hnil : ys.filter q = [] := List.filter_eq_nil_iff.mpr fun y hy => by
      rw [h y hy]
      exact Bool.false_ne_true
    rw [List.filter_append, hnil, List.append_nil]
    exact List.filter_sublist

/-- **Main result.** A shrink, with room in the scrollback, keeps every row with text, in the same order, exactly
when there is none in the rows that are left over at the bottom. -/
theorem shrink_keeps_iff (h : t.Sound limit) (hmain : t.altGrid = none) (hpos : 1 ≤ rows) (hr : rows < t.rows)
    (hroom : t.scrollback.lines.length + min (t.rows - rows) t.cursorRow ≤ limit) :
    ∃ u, t.resize rows t.cols = some u ∧ ((t.history.filter hasText).Sublist u.history ↔
      ∀ row ∈ (Picture.rows t.rows t.cols t.grid.view).drop (min (t.rows - rows) t.cursorRow + rows),
        hasText row = false) := by
  obtain ⟨u, hu, hshows⟩ := shrink_shows h hmain (Nat.le_of_lt hr) hroom
  obtain ⟨n, hn⟩ : ∃ n, n = min (t.rows - rows) t.cursorRow := ⟨_, rfl⟩
  rw [← hn] at hshows ⊢
  refine ⟨u, hu, ?_⟩
  have hafter : u.history = t.scrollback.lines ++ t.evicted n ++
      ((Picture.rows t.rows t.cols t.grid.view).drop n).take rows := by
    rw [history, hshows.history, hshows.rows, hshows.cols, hshows.view,
      Picture.rows_cut (show n + rows ≤ t.rows by omega)]
  by_cases hc : 0 < t.cols
  · have hkept : u.history = t.scrollback.lines ++ (Picture.rows t.rows t.cols t.grid.view).take (n + rows) := by
      rw [hafter, evicted, if_pos hc, List.append_assoc, ← Picture.take_rows (show n ≤ t.rows by omega),
        List.take_add]
    have hbefore : t.history
        = u.history ++ (Picture.rows t.rows t.cols t.grid.view).drop (n + rows) := by
      rw [hkept, List.append_assoc, List.take_append_drop]
      rfl
    rw [hbefore]
    exact filter_sublist_left _ _
  · -- no row of a grid without columns has text
    have hcols : t.cols = 0 := by omega
    have hnone := filter_hasText_rows t.rows t.grid.view
    rw [hcols]
    constructor
    · intro _ row hrow
      exact Bool.eq_false_iff.mpr (List.filter_eq_nil_iff.mp hnone row (List.mem_of_mem_drop hrow))
    · intro _
      rw [history, hcols, List.filter_append, hnone, List.append_nil, hafter, List.append_assoc]
      exact List.filter_sublist.trans (List.sublist_append_left _ _)

/-- the cursor on the first of three rows, a character on the last one -/
def drawnBelow : List Event :=
  [.call (.csiDispatch [⟨3, []⟩] [] false 'H'), .call (.print 'x'), .call (.csiDispatch [] [] false 'H')]

/-- two rows fewer: the character is in no row any more -/
theorem drawnBelow_clipped : ∃ t u, exec (step false) (new false 3 2 100) drawnBelow = some t ∧
    t.altGrid = none ∧ t.resize 1 t.cols = some u ∧ t.scrollback.lines.length + 2 ≤ t.scrollback.maxLines ∧
      ¬(t.history.filter hasText).Sublist u.history :=
  ⟨_, _, rfl, rfl, rfl, by decide, by decide⟩

/-- a line and a prompt below it -/
def prompted : List Event :=
  [.call (.print 'a'), .call (.execute 0x0d), .call (.execute 0x0a), .call (.print '>')]

/-- a prompt on the last of two rows: one row fewer, and both lines are still there -/
theorem shrink_keeps_prompt : ∃ t u, exec (step false) (new false 2 2 100) prompted = some t ∧
    t.resize 1 t.cols = some u ∧ (t.history.filter hasText).Sublist u.history := by
  obtain ⟨t, ht, hsound⟩ := structure_kept false 2 2 100 prompted
  obtain ⟨t', ht', hmain, hrows, hrow, hlines, hbelow⟩ : ∃ t, exec (step false) (new false 2 2 100) prompted = some t ∧
      t.altGrid = none ∧ t.rows = 2 ∧ t.cursorRow = 1 ∧ t.scrollback.lines = [] ∧
      (Picture.rows t.rows t.cols t.grid.view).drop (min (t.rows - 1) t.cursorRow + 1) = [] :=
    ⟨_, rfl, rfl, rfl, rfl, rfl, rfl⟩
  obtain rfl : t = t' := Option.some.inj (ht.symm.trans ht')
  obtain ⟨u, hu, hkeeps⟩ := shrink_keeps_iff hsound hmain (Nat.le_refl 1) (by omega)
    (by rw [hlines, hrows, hrow]; decide)
  refine ⟨t, u, ht, hu, hkeeps.mpr ?_⟩
  rw [hbelow]
  intro row hrow
  exact absurd hrow (List.not_mem_nil)

/-! ## there and back -/

/-- `u` has the cells, the scrollback and the cursor of `t` -/
def Restored (t u : Terminal) : Prop :=
  u.grid.rows = t.grid.rows ∧ u.grid.cols = t.grid.cols ∧ u.grid.cells = t.grid.cells ∧
    u.scrollback = t.scrollback ∧ (u.cursorRow, u.cursorCol) = (t.cursorRow, t.cursorCol)

lemma Shows.restored (h : u.Shows t.rows t.cols t.grid.view t.scrollback (t.cursorRow, t.cursorCol))
    (ht : t.Fits) : Restored t u := by
  have hu : u.grid.Sized t.rows t.cols := by
    have := h.sized
    rwa [h.rows, h.cols] at this
  exact ⟨hu.rows.trans ht.rows.symm, hu.cols.trans ht.cols.symm, cells_eq_of_view hu ht h.view, h.history, h.cursor⟩

lemma evicted_zero : t.evicted 0 = [] := by
  unfold evicted
  split <;> rfl

/-- a resize to the size it has -/
lemma resize_same (h : t.Sound limit) (hmain : t.altGrid = none) : ∃ u, t.resize t.rows t.cols = some u ∧
    u.Shows t.rows t.cols t.grid.view t.scrollback (t.cursorRow, t.cursorCol) := by
  have hlen := h.scrollback
  have hrow := h.cursorRow
  obtain ⟨u, hu, hshows⟩ := shrink_shows h hmain (Nat.le_refl t.rows) (by omega)
  rw [Nat.sub_self, Nat.zero_min, evicted_zero, List.append_nil, ← h.maxLines, Nat.sub_zero, Nat.min_eq_left hrow,
    h.grid.shape.cut_self] at hshows
  exact ⟨u, hu, hshows⟩

/-- the rows come back over those that stayed, and the lines are lifted whether they were pushed or not -/
lemma Shows.regrown {t' : Terminal} {k : Nat} (hshows : t'.Shows (t.rows - k) t.cols
      (Picture.cut k (t.rows - k) t.grid.view) ⟨t.scrollback.lines ++ t.evicted k, limit⟩
      (t.cursorRow - k, t.cursorCol)) (h : t.Sound limit) (h' : t'.Sound limit) (hpos : 0 < k)
    (hk : k ≤ t.cursorRow) (hkr : k < t.rows) : ∃ u, t'.resize t.rows t.cols = some u ∧
      u.Shows t.rows t.cols t.grid.view ⟨if 0 < t.cols then t.scrollback.lines else
        t.scrollback.lines.take (t.scrollback.lines.length - k), limit⟩ (t.cursorRow, t.cursorCol) := by
  obtain ⟨u, hu, hgrown⟩ := grow_shows h'.grid hshows.main h'.cursorCol
    (show t'.rows < t.rows by rw [hshows.rows]; omega)
  have hrow := h.cursorRow
  have hcursor := hshows.cursor
  rw [Prod.mk.injEq] at hcursor
  rw [hshows.history, hshows.view, hshows.rows, hshows.cols, hcursor.1, hcursor.2,
    show t.rows - (t.rows - k) = k by omega, Nat.sub_add_cancel hk, Nat.min_eq_left hrow] at hgrown
  rw [hshows.cols] at hu
  refine ⟨u, hu, ?_⟩
  unfold evicted at hgrown
  split
  next hc =>
    have hlen : (Picture.rows k t.cols t.grid.view).length = k := by
      rw [Picture.rows, List.length_map, List.length_range]
    rw [if_pos hc, List.length_append, hlen, Nat.add_sub_cancel, List.drop_left' rfl, List.take_left' rfl,
      show k - (t.scrollback.lines.length + k) = 0 by omega] at hgrown
    have hshape := h.grid.shape
    rw [show t.rows = k + (t.rows - k) by omega] at hshape
    rwa [List.replicate_zero, List.nil_append, hshape.stack_cut] at hgrown
  next hc =>
    rw [if_neg hc, List.append_nil] at hgrown
    have hnone : u.grid.view = t.grid.view := by
      have hshape := hgrown.sized.shape
      rw [hgrown.cols] at hshape
      funext i j
      rw [hshape.none (by omega), h.grid.shape.none (by omega)]
    rw [← hgrown.view, hnone] at hgrown
    exact hgrown

/-- **Main result.** `k` rows taken away, no more than are above the cursor, and given back: the terminal is
as before, exactly when it has columns, or `k` is zero, or the scrollback is empty. -/
theorem roundTrip_iff (h : t.Sound limit) (hmain : t.altGrid = none) {k : Nat} (hk : k ≤ t.cursorRow)
    (hpos : 1 ≤ t.rows - k) (hroom : t.scrollback.lines.length + k ≤ limit) :
    ∃ u, ((t.resize (t.rows - k) t.cols).bind fun t' => t'.resize t.rows t.cols) = some u ∧
      (Restored t u ↔ 0 < t.cols ∨ k = 0 ∨ t.scrollback.lines = []) := by
  have hcursor := h.cursorRow
  have hmin : min (t.rows - (t.rows - k)) t.cursorRow = k := by omega
  obtain ⟨t', ht', hsound⟩ := resize_goes h (t.rows - k) t.cols
  obtain ⟨_, hrun, hshows⟩ := shrink_shows h hmain (Nat.sub_le t.rows k) (by rwa [hmin])
  cases ht'.symm.trans hrun
  rw [hmin, Nat.min_eq_left (by omega)] at hshows
  rw [ht']
  show ∃ u, t'.resize t.rows t.cols = some u ∧ _
  rcases Nat.eq_zero_or_pos k with hk₀ | hkpos
  case inl =>
    subst hk₀
    obtain ⟨u₁, hu₁, hsame⟩ := resize_same h hmain
    cases hu₁.symm.trans ht'
    obtain ⟨u, hu, hagain⟩ := resize_same hsound hsame.main
    rw [hsame.rows, hsame.cols, hsame.view, hsame.history, hsame.cursor] at hagain
    rw [hsame.rows, hsame.cols] at hu
    exact ⟨u, hu, iff_of_true (hagain.restored h.grid) (.inr (.inl rfl))⟩
  obtain ⟨u, hu, hback⟩ := hshows.regrown h hsound hkpos hk (by omega)
  refine ⟨u, hu, ?_⟩
  constructor
  · intro hrestored
    have hlines := congrArg Scrollback.lines (hback.history.symm.trans hrestored.2.2.2.1)
    by_cases hc : 0 < t.cols
    · exact .inl hc
    · dsimp only at hlines
      rw [if_neg hc] at hlines
      have hlen := congrArg List.length hlines
      rw [List.length_take] at hlen
      exact .inr (.inr (List.length_eq_zero_iff.mp (by omega)))
  · intro hcase
    have hlines : (if 0 < t.cols then t.scrollback.lines else
        t.scrollback.lines.take (t.scrollback.lines.length - k)) = t.scrollback.lines := by
      split
      · rfl
      next hc =>
        have hnil : t.scrollback.lines = [] := by
          rcases hcase with hc' | hk₀ | hnil
          · exact absurd hc' hc
          · omega
          · exact hnil
        rw [hnil, List.take_nil]
    rw [hlines, ← h.maxLines] at hback
    exact hback.restored h.grid

/-- the prompt moves up by a row and down again -/
theorem roundTrip_prompt : ∃ t u, exec (step false) (new false 2 2 100) prompted = some t ∧
    ((t.resize (t.rows - 1) t.cols).bind fun t' => t'.resize t.rows t.cols) = some u ∧ Restored t u := by
  obtain ⟨t, ht, hsound⟩ := structure_kept false 2 2 100 prompted
  obtain ⟨t', ht', hmain, hrows, hcols, hrow, hlines⟩ : ∃ t, exec (step false) (new false 2 2 100) prompted = some t ∧
      t.altGrid = none ∧ t.rows = 2 ∧ t.cols = 2 ∧ t.cursorRow = 1 ∧ t.scrollback.lines = [] :=
    ⟨_, rfl, rfl, rfl, rfl, rfl, rfl⟩
  obtain rfl : t = t' := Option.some.inj (ht.symm.trans ht')
  obtain ⟨u, hu, hback⟩ := roundTrip_iff hsound hmain (show 1 ≤ t.cursorRow by omega) (by omega)
    (by rw [hlines]; decide)
  exact ⟨t, u, ht, hu, hback.mpr (.inl (by omega))⟩

/-- two lines of text on one row each, the first one in the scrollback, then no columns -/
def columnless : List Event :=
  [.call (.print 'a'), .call (.execute 0x0a), .call (.execute 0x0a), .resize 2 0]

/-- a row taken away and given back takes the line out of the scrollback -/
theorem columnless_loses : ∃ t u, exec (step false) (new false 2 1 100) columnless = some t ∧
    t.altGrid = none ∧ 1 ≤ t.cursorRow ∧ t.scrollback.lines.length + 1 ≤ t.scrollback.maxLines ∧
    ((t.resize (t.rows - 1) t.cols).bind fun t' => t'.resize t.rows t.cols) = some u ∧ ¬Restored t u :=
  ⟨_, _, rfl, rfl, by decide, by decide, rfl, fun h => absurd h.2.2.2.1 (by decide)⟩

end Terminal
end TerminalManager.Core
