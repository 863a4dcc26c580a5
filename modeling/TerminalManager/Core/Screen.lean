import TerminalManager.Core.Terminal

/-!
# What the operations of the daemon's emulator do to the picture

An operation of a terminal whose grid has the terminal's size does not panic, and what it shows is
an operation on the picture.

* `Redrawn t o p`      `o` is the terminal `t` with other cells, that show `p`;
* `clearRow_redrawn`, `copyRow_redrawn`, `clearRegion_redrawn`   the primitives;
* `scrollUp_spec`, `scrollDown_redrawn`   the scroll region moves one row, a blank row comes in, and
  what leaves at the top of the main screen goes to the scrollback;
* `insertLines_redrawn`, `deleteLines_redrawn`, `insertChars_redrawn`, …   the control sequences.
-/

namespace TerminalManager.Core
open Loops Slice Term

/-- a well-formed grid of the size `rows` by `cols` -/
structure Grid.Sized (g : Grid) (rows cols : Nat) : Prop where
  wellFormed : g.WellFormed
  rows : g.rows = rows
  cols : g.cols = cols

lemma Grid.Sized.shape {g : Grid} {rows cols : Nat} (h : g.Sized rows cols) :
    Picture.Shape rows cols g.view := by
  have := h.wellFormed.shape
  rwa [h.rows, h.cols] at this

lemma Grid.Sized.like {g g' : Grid} {rows cols : Nat} (h : g.Sized rows cols) (hg : g.Like g') :
    g'.Sized rows cols :=
  ⟨hg.wellFormed, hg.rows.trans h.rows, hg.cols.trans h.cols⟩

namespace Terminal

variable {t : Terminal} {r c n : Nat}

/-- `o` is `t` with cells that show `p` -/
def Redrawn (t : Terminal) (o : Option Terminal) (p : Picture Cell) : Prop :=
  ∃ grid, o = some { t with grid } ∧ t.grid.Like grid ∧ grid.view = p

abbrev Fits (t : Terminal) : Prop := t.grid.Sized t.rows t.cols

lemma Fits.self (h : t.Fits) : Redrawn t (some t) t.grid.view :=
  ⟨t.grid, rfl, h.wellFormed.like, rfl⟩

/-- a second operation after a first one -/
lemma Redrawn.bind {o : Option Terminal} {f : Terminal → Option Terminal} {p q : Picture Cell}
    (ho : Redrawn t o p)
    (hf : ∀ grid : Grid, t.grid.Like grid → grid.view = p →
      Redrawn { t with grid } (f { t with grid }) q) :
    Redrawn t (o.bind f) q := by
  obtain ⟨grid, rfl, hlike, hview⟩ := ho
  obtain ⟨grid', hrun, hlike', hview'⟩ := hf grid hlike hview
  exact ⟨grid', hrun, hlike.trans hlike', hview'⟩

/-- a loop of operations that only redraw -/
lemma redrawn_forRange {a b : Nat} {f : Terminal → Nat → Option Terminal} {P : Nat → Picture Cell}
    (hab : a ≤ b) (h : t.Fits) (h₀ : t.grid.view = P a)
    (hstep : ∀ i, a ≤ i → i < b → ∀ grid : Grid, t.grid.Like grid → grid.view = P i →
      Redrawn { t with grid } (f { t with grid } i) (P (i + 1))) :
    Redrawn t (forRange a b f t) (P b) := by
  obtain ⟨t', hrun, grid, rfl, hlike, hview⟩ := forRange_rule (b := b) (f := f)
    (P := fun i t' => ∃ grid : Grid, t' = { t with grid } ∧ t.grid.Like grid ∧ grid.view = P i)
    ⟨t.grid, rfl, h.wellFormed.like, h₀⟩ (by
      rintro i _ ha hb ⟨grid, rfl, hlike, hview⟩
      obtain ⟨grid', hrun, hlike', hview'⟩ := hstep i ha hb grid hlike hview
      exact ⟨_, hrun, grid', rfl, hlike.trans hlike', hview'⟩)
  rw [Nat.max_eq_right hab] at hview
  exact ⟨grid, hrun, hlike, hview⟩

lemma redrawn_forRangeRev {a b : Nat} {f : Terminal → Nat → Option Terminal} {P : Nat → Picture Cell}
    (hab : a ≤ b) (h : t.Fits) (h₀ : t.grid.view = P b)
    (hstep : ∀ i, a ≤ i → i < b → ∀ grid : Grid, t.grid.Like grid → grid.view = P (i + 1) →
      Redrawn { t with grid } (f { t with grid } i) (P i)) :
    Redrawn t (forRangeRev a b f t) (P a) := by
  obtain ⟨t', hrun, grid, rfl, hlike, hview⟩ := forRangeRev_rule (a := a) (b := b) (f := f) (s := t)
    (P := fun i t' => ∃ grid : Grid, t' = { t with grid } ∧ t.grid.Like grid ∧ grid.view = P i)
    ⟨t.grid, rfl, h.wellFormed.like, by rw [Nat.max_eq_right hab, h₀]⟩ (by
      rintro i _ ha hb ⟨grid, rfl, hlike, hview⟩
      obtain ⟨grid', hrun, hlike', hview'⟩ := hstep i ha hb grid hlike hview
      exact ⟨_, hrun, grid', rfl, hlike.trans hlike', hview'⟩)
  exact ⟨grid, hrun, hlike, hview⟩

/-! ## primitives -/

/-- a loop that writes one cell after the other into a row -/
lemma fillRow_spec {g : Grid} (hg : g.WellFormed) (r c c' : Nat) (x : Cell) :
    ∃ g', forRange c c' (fun g col => g.set r col x) g = some g' ∧ g.Like g' ∧
      g'.view = Picture.fill r (r + 1) c c' x g.view := by
  obtain ⟨g', hrun, hlike, hview⟩ := forRange_rule (a := c) (b := c') (s := g)
    (P := fun i g' => g.Like g' ∧ g'.view = Picture.fill r (r + 1) c i x g.view)
    (f := fun g col => g.set r col x) ⟨hg.like, (Picture.fill_none_cols (Nat.le_refl c)).symm⟩ (by
      rintro i g' hi - ⟨hlike, hview⟩
      obtain ⟨g'', hrun, hlike', hview'⟩ := Grid.set_spec hlike.wellFormed (r := r) (c := i) (x := x)
      refine ⟨g'', hrun, hlike.trans hlike', ?_⟩
      rw [hview', hview, Picture.fill_col_succ hi])
  refine ⟨g', hrun, hlike, hview.trans ?_⟩
  by_cases hc : c ≤ c'
  · rw [Nat.max_eq_right hc]
  · rw [Nat.max_eq_left (by omega), Picture.fill_none_cols (Nat.le_refl c), Picture.fill_none_cols (by omega)]

theorem clearRow_redrawn (h : t.Fits) (r : Nat) :
    Redrawn t (t.clearRow r) (Picture.fill r (r + 1) 0 t.cols t.erased t.grid.view) := by
  unfold clearRow
  split
  next hr =>
    refine ⟨t.grid, rfl, h.wellFormed.like, ?_⟩
    funext i j
    unfold Picture.fill
    split
    · rw [h.shape.none (by omega)]
      rfl
    · rfl
  next =>
    obtain ⟨g, hrun, hlike, hview⟩ := fillRow_spec h.wellFormed r 0 t.cols t.erased
    rw [hrun]
    exact ⟨g, rfl, hlike, hview⟩

/-- blank rows `[r, r')` one after the other -/
theorem clearRows_redrawn (h : t.Fits) {r' : Nat} (hr : r ≤ r') :
    Redrawn t (forRange r r' (fun t r => t.clearRow r) t)
      (Picture.fill r r' 0 t.cols t.erased t.grid.view) := by
  refine redrawn_forRange (P := fun i => Picture.fill r i 0 t.cols t.erased t.grid.view) hr h
    (Picture.fill_none_rows (Nat.le_refl r)).symm fun i hi _ grid hlike hview => ?_
  have := clearRow_redrawn (t := { t with grid }) (h.like hlike) i
  rwa [hview, show Terminal.erased { t with grid } = t.erased from rfl, Picture.fill_row_succ hi] at this

theorem copyRow_redrawn (h : t.Fits) (dst src : Nat) (hd : dst < t.rows) (hs : src < t.rows) :
    Redrawn t (t.copyRow dst src) (Picture.moveRows dst src 1 t.grid.view) := by
  unfold copyRow
  rw [if_neg (by omega)]
  obtain ⟨g, hrun, hlike, hview⟩ := forRange_rule (a := 0) (b := t.cols) (s := t.grid)
    (P := fun c g => t.grid.Like g ∧ ∀ i j,
      g.view i j = if i = dst ∧ j < c then t.grid.view src j else t.grid.view i j)
    (f := fun g col => g.set dst col ((g.get src col).getD .blank))
    ⟨h.wellFormed.like, fun i j => by rw [if_neg (by omega)]⟩ (by
      rintro c g - hc ⟨hlike, hview⟩
      obtain ⟨x, hx⟩ := h.shape.some hs hc
      have hget : g.get src c = some x := by
        rw [show g.get src c = g.view src c from rfl, hview, hx]
        split <;> rfl
      obtain ⟨g', hrun, hlike', hview'⟩ :=
        Grid.set_spec hlike.wellFormed (r := dst) (c := c) (x := (g.get src c).getD .blank)
      refine ⟨g', hrun, hlike.trans hlike', fun i j => ?_⟩
      rw [hview', Picture.fill, hview, hget]
      by_cases hij : i = dst ∧ j = c
      · obtain ⟨rfl, rfl⟩ := hij
        obtain ⟨y, hy⟩ := h.shape.some hd hc
        rw [if_pos (by omega), if_neg (by omega), if_pos (by omega), hy, hx]
        rfl
      · rw [if_neg (by omega)]
        congr 1
        exact propext (by omega))
  rw [hrun]
  refine ⟨g, rfl, hlike, ?_⟩
  funext i j
  rw [hview, Nat.max_eq_right (Nat.zero_le t.cols), Picture.moveRows]
  by_cases hi : i = dst
  · subst hi
    rw [if_pos (show i ≤ i ∧ i < i + 1 by omega), Nat.sub_self, Nat.add_zero]
    split
    · rfl
    · rw [h.shape.none (by omega), h.shape.none (by omega)]
  · rw [if_neg (by omega), if_neg (by omega)]

/-- the cells of the inclusive rectangle, clipped to the grid -/
theorem clearRegion_redrawn (h : t.Fits) (r c r' c' : Nat) :
    Redrawn t (t.clearRegion r c r' c') (Picture.fill r (min r' (t.rows - 1) + 1) c
      (min c' (t.cols - 1) + 1) t.erased t.grid.view) := by
  unfold clearRegion
  dsimp only
  obtain ⟨g, hrun, hlike, hview⟩ := forRange_rule (a := r) (b := min r' (t.rows - 1) + 1) (s := t.grid)
    (P := fun i g => t.grid.Like g ∧
      g.view = Picture.fill r i c (min c' (t.cols - 1) + 1) t.erased t.grid.view)
    (f := fun g r => forRange c (min c' (t.cols - 1) + 1) (fun g c => g.set r c t.erased) g)
    ⟨h.wellFormed.like, (Picture.fill_none_rows (Nat.le_refl r)).symm⟩ (by
      rintro i g hi - ⟨hlike, hview⟩
      obtain ⟨g', hrun, hlike', hview'⟩ :=
        fillRow_spec hlike.wellFormed i c (min c' (t.cols - 1) + 1) t.erased
      refine ⟨g', hrun, hlike.trans hlike', ?_⟩
      rw [hview', hview, Picture.fill_row_succ hi])
  rw [hrun]
  refine ⟨g, rfl, hlike, hview.trans ?_⟩
  by_cases hr : r ≤ min r' (t.rows - 1) + 1
  · rw [Nat.max_eq_right hr]
  · rw [Nat.max_eq_left (by omega), Picture.fill_none_rows (Nat.le_refl r),
      Picture.fill_none_rows (by omega)]

theorem blankCells_spec {g : Grid} (hg : t.grid.Like g) (c c' : Nat) :
    Redrawn t (t.blankCells c c' g)
      (Picture.fill t.cursorRow (t.cursorRow + 1) c c' t.erased g.view) := by
  unfold blankCells
  obtain ⟨g', hrun, hlike, hview⟩ := fillRow_spec hg.wellFormed t.cursorRow c c' t.erased
  rw [hrun]
  exact ⟨g', rfl, hg.trans hlike, hview⟩

/-! ## scrolling -/

/-- the rows `[top, bot)` one row up, `x` in the last one -/
def scrolledUp (top bot cols : Nat) (x : Cell) (p : Picture Cell) : Picture Cell :=
  Picture.fill (bot - 1) bot 0 cols x (Picture.moveRows top (top + 1) (bot - 1 - top) p)

/-- the rows `[top, bot)` one row down, `x` in the first one -/
def scrolledDown (top bot cols : Nat) (x : Cell) (p : Picture Cell) : Picture Cell :=
  Picture.fill top (top + 1) 0 cols x (Picture.moveRows (top + 1) top (bot - 1 - top) p)

/-- the scroll region is a part of the screen -/
def Region (t : Terminal) : Prop := t.scrollTop < t.scrollBot ∧ t.scrollBot ≤ t.rows

/-- the rows of a region copied one up, the last one blanked -/
lemma scrollRegion_redrawn (h : t.Fits) (hr : t.Region) :
    Redrawn t ((forRange t.scrollTop (t.scrollBot - 1) (fun t row => t.copyRow row (row + 1)) t).bind
      fun t' => (sub? t.scrollBot 1).bind t'.clearRow)
      (scrolledUp t.scrollTop t.scrollBot t.cols t.erased t.grid.view) := by
  obtain ⟨htop, hbot⟩ := hr
  refine Redrawn.bind (p := Picture.moveRows t.scrollTop (t.scrollTop + 1)
    (t.scrollBot - 1 - t.scrollTop) t.grid.view) ?_ fun grid hlike hview => ?_
  · refine redrawn_forRange (P := fun i => Picture.moveRows t.scrollTop (t.scrollTop + 1)
      (i - t.scrollTop) t.grid.view) (by omega) h ?_ fun i hi hib grid hlike hview => ?_
    · rw [Nat.sub_self, Picture.moveRows_zero]
    · have := copyRow_redrawn (t := { t with grid }) (h.like hlike) i (i + 1)
        (show i < t.rows by omega) (show i + 1 < t.rows by omega)
      rwa [hview, Picture.moveRows_up_succ 1 hi] at this
  · have := clearRow_redrawn (t := { t with grid }) (h.like hlike) (t.scrollBot - 1)
    rw [hview, Nat.sub_add_cancel (by omega)] at this
    rw [sub?_eq (by omega)]
    exact this

/-- whether a row that leaves the region at the top goes to the scrollback -/
def captures (t : Terminal) : Prop :=
  t.scrollTop = 0 ∧ t.altGrid.isNone ∧ (0 < t.cols ∨ t.regionIsFullScreen = false)

instance : Decidable t.captures := inferInstanceAs (Decidable (_ ∧ _ ∧ _))

/-- the cells of the row that comes in at the bottom: blank when the whole screen scrolls, in the colours of the
pen when a part of it does -/
def incoming (t : Terminal) : Cell := if t.regionIsFullScreen then .blank else t.erased

theorem scrollUp_spec (h : t.Fits) (hr : t.Region) : ∃ grid : Grid,
    t.scrollUp = some { t with grid, scrollback :=
      if t.captures then t.scrollback.push (Picture.row t.cols t.grid.view 0) else t.scrollback } ∧
    t.grid.Like grid ∧ grid.view = scrolledUp t.scrollTop t.scrollBot t.cols t.incoming t.grid.view := by
  obtain ⟨htop, hbot⟩ := hr
  unfold scrollUp
  rw [if_neg (by omega)]
  split
  next hfull =>
    have hfull' : t.scrollTop = 0 ∧ t.scrollBot = t.rows := by
      rw [regionIsFullScreen, decide_eq_true_iff] at hfull
      exact hfull
    unfold scrollUpAndCapture
    by_cases hc : 0 < t.cols
    · obtain ⟨grid, hrun, hlike, hview⟩ := Grid.scrollUp_spec h.wellFormed (by rw [h.rows]; omega)
        (by rw [h.cols]; exact hc)
      rw [h.rows, h.cols] at hview
      have hne : Picture.row t.cols t.grid.view 0 ≠ [] := by
        intro he
        have := h.shape.length_row (show 0 < t.rows by omega)
        rw [he] at this
        exact absurd this (Nat.ne_of_lt hc)
      refine ⟨grid, ?_, hlike, ?_⟩
      · rw [hrun, h.cols]
        show (if t.altGrid.isNone ∧ Picture.row t.cols t.grid.view 0 ≠ [] then _ else _) = _
        by_cases ha : t.altGrid.isNone
        · rw [if_pos ⟨ha, hne⟩, if_pos ⟨hfull'.1, ha, .inl hc⟩]
        · rw [if_neg fun hx => ha hx.1, if_neg fun hx => ha hx.2.1]
      · rw [hview, hfull'.1, hfull'.2, incoming, if_pos hfull]
        rfl
    · refine ⟨t.grid, ?_, h.wellFormed.like, ?_⟩
      · unfold Grid.scrollUp
        rw [if_pos (by rw [h.cols]; omega), if_neg fun hx => hx.2.2.elim hc (by rw [hfull]; simp)]
        show (if t.altGrid.isNone ∧ ([] : List Cell) ≠ [] then _ else _) = _
        rw [if_neg fun hx => hx.2 rfl]
      · funext i j
        rw [scrolledUp, h.shape.none (by omega), Picture.fill, if_neg (by omega), Picture.moveRows]
        split
        · rw [h.shape.none (by omega)]
        · rw [h.shape.none (by omega)]
  next hfull =>
    have hfull' : t.regionIsFullScreen = false := Bool.eq_false_iff.mpr hfull
    have hin : t.incoming = t.erased := if_neg hfull
    rw [hin]
    dsimp only
    by_cases hcap : t.scrollTop = 0 ∧ t.altGrid.isNone = true
    · rw [if_pos hcap, if_pos ⟨hcap.1, hcap.2, .inr hfull'⟩]
      obtain ⟨grid, hrun, hlike, hview⟩ := scrollRegion_redrawn
        (t := { t with scrollback := t.scrollback.push (Picture.row t.cols t.grid.view 0) }) h ⟨htop, hbot⟩
      refine ⟨grid, ?_, hlike, hview⟩
      rw [← hrun, hcap.1]
      rfl
    · rw [if_neg hcap, if_neg fun hx => hcap ⟨hx.1, hx.2.1⟩]
      obtain ⟨grid, hrun, hlike, hview⟩ := scrollRegion_redrawn h ⟨htop, hbot⟩
      exact ⟨grid, hrun, hlike, hview⟩

theorem scrollDown_redrawn (h : t.Fits) (hr : t.Region) : Redrawn t t.scrollDown
    (scrolledDown t.scrollTop t.scrollBot t.cols t.erased t.grid.view) := by
  obtain ⟨htop, hbot⟩ := hr
  unfold scrollDown
  rw [if_neg (by omega)]
  refine Redrawn.bind (p := Picture.moveRows (t.scrollTop + 1) t.scrollTop
    (t.scrollBot - 1 - t.scrollTop) t.grid.view) ?_ fun grid hlike hview => ?_
  · have := redrawn_forRangeRev (a := t.scrollTop + 1) (b := t.scrollBot)
      (f := fun t row => do t.copyRow row (← sub? row 1))
      (P := fun i => Picture.moveRows i (i - 1) (t.scrollBot - i) t.grid.view) (by omega) h
      (by rw [Nat.sub_self, Picture.moveRows_zero]) fun i hi hib grid hlike hview => ?_
    · rwa [Nat.add_sub_cancel, show t.scrollBot - (t.scrollTop + 1) = t.scrollBot - 1 - t.scrollTop by omega]
        at this
    · have := copyRow_redrawn (t := { t with grid }) (h.like hlike) i (i - 1)
        (show i < t.rows by omega) (show i - 1 < t.rows by omega)
      rw [hview, Picture.moveRows_down_succ 1 (by omega) hib] at this
      rw [sub?_eq (by omega)]
      exact this
  · have := clearRow_redrawn (t := { t with grid }) (h.like hlike) t.scrollTop
    rw [hview] at this
    exact this

/-! ## lines and characters -/

/-- the rows from `row` on to the end of the region move down by `n`, blank rows come in -/
theorem insertLines_redrawn (h : t.Fits) (hb : t.scrollBot ≤ t.rows) (n : Nat) :
    Redrawn t (t.insertLines n) (if t.scrollTop ≤ t.cursorRow ∧ t.cursorRow < t.scrollBot then
      Picture.fill t.cursorRow (t.cursorRow + min n (t.scrollBot - t.cursorRow)) 0 t.cols t.erased
        (Picture.moveRows (t.cursorRow + min n (t.scrollBot - t.cursorRow)) t.cursorRow
          (t.scrollBot - (t.cursorRow + min n (t.scrollBot - t.cursorRow))) t.grid.view)
      else t.grid.view) := by
  unfold insertLines
  dsimp only
  by_cases hin : t.scrollTop ≤ t.cursorRow ∧ t.cursorRow < t.scrollBot
  case neg =>
    rw [if_neg hin, if_neg hin]
    exact h.self
  rw [if_pos hin, if_pos hin]
  obtain ⟨m, hm⟩ : ∃ m, m = min n (t.scrollBot - t.cursorRow) := ⟨_, rfl⟩
  rw [← hm]
  split
  next hpos =>
    refine Redrawn.bind (p := Picture.moveRows (t.cursorRow + m) t.cursorRow
      (t.scrollBot - (t.cursorRow + m)) t.grid.view) ?_ fun grid hlike hview => ?_
    · have := redrawn_forRangeRev (a := t.cursorRow + m) (b := t.scrollBot)
        (f := fun t r => do t.copyRow r (← sub? r m))
        (P := fun i => Picture.moveRows i (i - m) (t.scrollBot - i) t.grid.view) (by omega) h
        (by rw [Nat.sub_self, Picture.moveRows_zero]) fun i hi hib grid hlike hview => ?_
      · rwa [Nat.add_sub_cancel] at this
      · have := copyRow_redrawn (t := { t with grid }) (h.like hlike) i (i - m)
          (show i < t.rows by omega) (show i - m < t.rows by omega)
        rw [hview, Picture.moveRows_down_succ m (by omega) hib] at this
        rw [sub?_eq (by omega)]
        exact this
    · have := clearRows_redrawn (t := { t with grid }) (h.like hlike)
        (show t.cursorRow ≤ t.cursorRow + m by omega)
      rw [hview] at this
      exact this
  next hzero =>
    obtain rfl : m = 0 := by omega
    have hself := h.self
    rwa [Picture.fill_none_rows (by omega), Nat.add_zero, show Picture.moveRows t.cursorRow t.cursorRow
      (t.scrollBot - t.cursorRow) t.grid.view = t.grid.view from ?_]
    funext i j
    unfold Picture.moveRows
    split
    · congr 1
      omega
    · rfl

/-- the rows below the cursor move up by `n` inside the region, blank rows come in at its end -/
theorem deleteLines_redrawn (h : t.Fits) (hb : t.scrollBot ≤ t.rows) (n : Nat) :
    Redrawn t (t.deleteLines n) (if t.scrollTop ≤ t.cursorRow ∧ t.cursorRow < t.scrollBot then
      Picture.fill (t.scrollBot - min n (t.scrollBot - t.cursorRow)) t.scrollBot 0 t.cols t.erased
        (Picture.moveRows t.cursorRow (t.cursorRow + min n (t.scrollBot - t.cursorRow))
          (t.scrollBot - min n (t.scrollBot - t.cursorRow) - t.cursorRow) t.grid.view)
      else t.grid.view) := by
  unfold deleteLines
  dsimp only
  by_cases hin : t.scrollTop ≤ t.cursorRow ∧ t.cursorRow < t.scrollBot
  case neg =>
    rw [if_neg hin, if_neg hin]
    exact h.self
  rw [if_pos hin, if_pos hin]
  obtain ⟨m, hm⟩ : ∃ m, m = min n (t.scrollBot - t.cursorRow) := ⟨_, rfl⟩
  rw [← hm]
  split
  next hpos =>
    refine Redrawn.bind (p := Picture.moveRows t.cursorRow (t.cursorRow + m)
      (t.scrollBot - m - t.cursorRow) t.grid.view) ?_ fun grid hlike hview => ?_
    · refine redrawn_forRange (P := fun i => Picture.moveRows t.cursorRow (t.cursorRow + m)
        (i - t.cursorRow) t.grid.view) (by omega) h ?_ fun i hi hib grid hlike hview => ?_
      · rw [Nat.sub_self, Picture.moveRows_zero]
      · have := copyRow_redrawn (t := { t with grid }) (h.like hlike) i (i + m)
          (show i < t.rows by omega) (show i + m < t.rows by omega)
        rwa [hview, Picture.moveRows_up_succ m hi] at this
    · have := clearRows_redrawn (t := { t with grid }) (h.like hlike)
        (show t.scrollBot - m ≤ t.scrollBot by omega)
      rw [hview] at this
      exact this
  next hzero =>
    obtain rfl : m = 0 := by omega
    have hself := h.self
    rwa [Picture.fill_none_rows (by omega), Nat.add_zero, show Picture.moveRows t.cursorRow t.cursorRow
      (t.scrollBot - 0 - t.cursorRow) t.grid.view = t.grid.view from ?_]
    funext i j
    unfold Picture.moveRows
    split
    · congr 1
      omega
    · rfl

/-- one turn of a loop that copies a cell inside a row -/
private lemma copyCell_spec {g : Grid} (hg : g.Sized t.rows t.cols) (row dst src : Nat) (hd : dst < t.cols)
    (hs : src < t.cols) : ∃ g', copyCell g row dst src = some g' ∧ g.Like g' ∧
      g'.view = Picture.moveCells row dst src 1 g.view := by
  unfold copyCell
  by_cases hr : row < t.rows
  · obtain ⟨x, hx⟩ := hg.shape.some hr hs
    obtain ⟨y, hy⟩ := hg.shape.some hr hd
    rw [show g.get row src = some x from hx]
    obtain ⟨g', hrun, hlike, hview⟩ := Grid.set_spec hg.wellFormed (r := row) (c := dst) (x := x)
    refine ⟨g', hrun, hlike, ?_⟩
    rw [hview]
    funext i j
    unfold Picture.fill Picture.moveCells
    by_cases hij : i = row ∧ j = dst
    · obtain ⟨rfl, rfl⟩ := hij
      rw [if_pos (by omega), if_pos (by omega), Nat.sub_self, Nat.add_zero, hx, hy]
      rfl
    · rw [if_neg (by omega), if_neg (by omega)]
  · rw [show g.get row src = none from hg.shape.none (by omega)]
    refine ⟨g, rfl, hg.wellFormed.like, ?_⟩
    funext i j
    unfold Picture.moveCells
    split
    · rw [hg.shape.none (by omega), hg.shape.none (by omega)]
    · rfl

theorem insertChars_redrawn (h : t.Fits) (hc : t.cursorCol ≤ t.cols) (n : Nat) :
    Redrawn t (t.insertChars n) (Picture.fill t.cursorRow (t.cursorRow + 1) t.cursorCol
      (t.cursorCol + min n (t.cols - t.cursorCol)) t.erased
      (Picture.moveCells t.cursorRow (t.cursorCol + min n (t.cols - t.cursorCol)) t.cursorCol
        (t.cols - (t.cursorCol + min n (t.cols - t.cursorCol))) t.grid.view)) := by
  unfold insertChars
  dsimp only
  obtain ⟨m, hm⟩ : ∃ m, m = min n (t.cols - t.cursorCol) := ⟨_, rfl⟩
  rw [← hm]
  obtain ⟨g, hrun, hlike, hview⟩ := forRangeRev_rule (a := t.cursorCol + m) (b := t.cols) (s := t.grid)
    (P := fun i g => t.grid.Like g ∧
      g.view = Picture.moveCells t.cursorRow i (i - m) (t.cols - i) t.grid.view)
    (f := fun g col => do copyCell g t.cursorRow col (← sub? col m))
    ⟨h.wellFormed.like, by rw [Nat.max_eq_right (by omega), Nat.sub_self, Picture.moveCells_zero]⟩ (by
      rintro i g hi hib ⟨hlike, hview⟩
      obtain ⟨g', hrun, hlike', hview'⟩ := copyCell_spec (h.like hlike) t.cursorRow i (i - m) hib (by omega)
      refine ⟨g', ?_, hlike.trans hlike', ?_⟩
      · rw [sub?_eq (by omega)]
        exact hrun
      · rw [hview', hview, Picture.moveCells_right_succ m (by omega) hib])
  rw [hrun]
  have := blankCells_spec hlike t.cursorCol (t.cursorCol + m)
  rwa [hview, Nat.add_sub_cancel] at this

theorem deleteChars_redrawn (h : t.Fits) (n : Nat) :
    Redrawn t (t.deleteChars n) (Picture.fill t.cursorRow (t.cursorRow + 1)
      (t.cols - min n (t.cols - t.cursorCol)) t.cols t.erased
      (Picture.moveCells t.cursorRow t.cursorCol (t.cursorCol + min n (t.cols - t.cursorCol))
        (t.cols - min n (t.cols - t.cursorCol) - t.cursorCol) t.grid.view)) := by
  unfold deleteChars
  dsimp only
  obtain ⟨m, hm⟩ : ∃ m, m = min n (t.cols - t.cursorCol) := ⟨_, rfl⟩
  rw [← hm]
  obtain ⟨g, hrun, hlike, hview⟩ := forRange_rule (a := t.cursorCol) (b := t.cols - m) (s := t.grid)
    (P := fun i g => t.grid.Like g ∧
      g.view = Picture.moveCells t.cursorRow t.cursorCol (t.cursorCol + m) (i - t.cursorCol) t.grid.view)
    (f := fun g col => copyCell g t.cursorRow col (col + m))
    ⟨h.wellFormed.like, by rw [Nat.sub_self, Picture.moveCells_zero]⟩ (by
      rintro i g hi hib ⟨hlike, hview⟩
      obtain ⟨g', hrun, hlike', hview'⟩ := copyCell_spec (h.like hlike) t.cursorRow i (i + m) (by omega) (by omega)
      refine ⟨g', hrun, hlike.trans hlike', ?_⟩
      rw [hview', hview, Picture.moveCells_left_succ m hi])
  rw [hrun]
  have := blankCells_spec hlike (t.cols - m) t.cols
  rwa [hview, show max t.cursorCol (t.cols - m) - t.cursorCol = t.cols - m - t.cursorCol by omega] at this

theorem eraseChars_redrawn (h : t.Fits) (n : Nat) :
    Redrawn t (t.eraseChars n) (Picture.fill t.cursorRow (t.cursorRow + 1) t.cursorCol
      (t.cursorCol + min n (t.cols - t.cursorCol)) t.erased t.grid.view) :=
  blankCells_spec h.wellFormed.like _ _

end Terminal
end TerminalManager.Core
