import TerminalManager.Core.Intermediates
import TerminalManager.Ui.Invariant

/-!
# Control sequences whose intermediates nothing implements (UI)

The emulator of the UI has no early return for `?`: its private sequences act like the standard ones, too.

* `Unchanged t u`     the grid, cursor, scrollback, scroll region and pen are the same;
* `csiDispatch_inert`, `csiDispatch_changes`   a sequence that does not act changes nothing, any other one changes a
  terminal that some operations lead to;
* `intermediates_inert_iff`   both emulators.
-/

set_option linter.unusedSectionVars false

namespace TerminalManager.Ui.Terminal
open Loops Slice Term Transition

variable {F : Type} [F32 F] {t u : Terminal F} {parity : Bool} {pv : List Nat} {params : List Param}
  {intermediates : List UInt8} {action : Char} {n : Nat}

/-- neither the grid, the cursor, the scrollback, the scroll region nor the pen is different -/
structure Unchanged (t u : Terminal F) : Prop where
  grid : u.grid = t.grid
  cursorRow : u.cursorRow = t.cursorRow
  cursorCol : u.cursorCol = t.cursorCol
  scrollback : u.scrollback = t.scrollback
  scrollTop : u.scrollTop = t.scrollTop
  scrollBot : u.scrollBot = t.scrollBot
  fg : u.fg = t.fg
  bg : u.bg = t.bg
  attrs : u.attrs = t.attrs

lemma Unchanged.refl (t : Terminal F) : Unchanged t t := ⟨rfl, rfl, rfl, rfl, rfl, rfl, rfl, rfl, rfl⟩

/-- the wrap that a sequence clears is none of them -/
lemma Unchanged.of_wrap {b : Bool} (h : Unchanged (if b then t else t.clearPendingWrap) u) : Unchanged t u := by
  cases b with
  | true => exact h
  | false => exact ⟨h.grid, h.cursorRow, h.cursorCol, h.scrollback, h.scrollTop, h.scrollBot, h.fg, h.bg, h.attrs⟩

/-! ## sequences that do not act -/

lemma handleSgr_inert (h : Pen.sgrIdle pv = true) (t : Terminal F) : Unchanged t (t.handleSgr parity pv) := by
  unfold handleSgr
  rw [Pen.handleSgr_idle h]
  exact .refl t

lemma eraseDisplay_inert {mode : Nat} (h : ¬mode ≤ 3) (t : Terminal F) : t.eraseDisplay mode = t := by
  unfold eraseDisplay
  split
  case h_5 => rfl
  all_goals omega

lemma eraseLine_inert {mode : Nat} (h : ¬mode ≤ 2) (t : Terminal F) : t.eraseLine mode = t := by
  unfold eraseLine
  split
  case h_4 => rfl
  all_goals omega

lemma csiAction_inert (hne : intermediates ≠ []) (himp : ¬Implemented intermediates action)
    (h : acts pv action = false) (t : Terminal F) : Unchanged t (t.csiAction parity pv intermediates action) := by
  unfold csiAction
  dsimp only
  split
  case h_9 => rw [eraseDisplay_inert (by simpa [acts] using h)]; exact .refl t
  case h_10 => rw [eraseLine_inert (by simpa [acts] using h)]; exact .refl t
  case h_12 => rw [if_neg hne]; exact .refl t
  case h_18 => exact handleSgr_inert (by simpa [acts] using h) t
  case h_19 => rw [if_neg hne]; exact .refl t
  case h_20 => rw [if_neg fun hx => himp (.inl ⟨hx, .inl rfl⟩)]; exact .refl t
  case h_21 => rw [if_neg fun hx => himp (.inl ⟨hx, .inr rfl⟩)]; exact .refl t
  case h_22 => rw [if_neg hne, if_neg fun hx => himp (.inr (.inl ⟨hx, .inl rfl⟩))]; exact .refl t
  case h_23 => rw [if_neg fun hx => hne hx.1, if_neg fun hx => hne hx.1]; exact .refl t
  case h_24 => rw [if_neg fun hx => himp (.inr (.inl ⟨hx, .inr rfl⟩))]; exact .refl t
  case h_25 => exact .refl t
  all_goals exact absurd h (by simp [acts])

theorem csiDispatch_inert (hne : intermediates ≠ []) (himp : ¬Implemented intermediates action)
    (h : acts (firsts params) action = false) (t : Terminal F) :
    Unchanged t (t.csiDispatch parity params intermediates action) :=
  (csiAction_inert hne himp h _).of_wrap

/-! ## sequences that act -/

/-- what some operations make of a new terminal -/
def Reachable (parity : Bool) (t : Terminal F) : Prop :=
  ∃ rows cols ops, exec (next parity) (new parity rows cols) ops = some t

/-- one cell, the cursor on it -/
structure Single (t : Terminal F) : Prop where
  fits : t.Fits
  rows : t.rows = 1
  cols : t.cols = 1
  cursorRow : t.cursorRow = 0
  cursorCol : t.cursorCol = 0
  scrollTop : t.scrollTop = 0
  scrollBot : t.scrollBot = 1

/-- the character in the first cell -/
def Draws (t : Terminal F) (c : Char) : Prop := ∃ x : Cell, t.grid.view 0 0 = some x ∧ x.ch = c

lemma Draws.changes (h : t.Draws 'x') (h' : u.Draws ' ') : ¬Unchanged t u := by
  intro hsame
  obtain ⟨x, hx, hxc⟩ := h
  obtain ⟨y, hy, hyc⟩ := h'
  rw [hsame.grid, hx] at hy
  cases hy
  rw [hxc] at hyc
  exact absurd hyc (by decide)

lemma Single.some (h : t.Single) : ∃ x, t.grid.view 0 0 = Option.some x := by
  have hshape := h.fits.shape
  rw [h.rows, h.cols] at hshape
  exact hshape.some (by omega) (by omega)

lemma Single.region (h : t.Single) : t.Region := by
  unfold Region
  rw [h.scrollTop, h.scrollBot, h.rows]
  omega

/-- an operation that blanks the only cell -/
lemma Redrawn.blanks {p : Picture Cell} (hu : Redrawn t u p) (hp : p 0 0 = some t.erased) : u.Draws ' ' := by
  obtain ⟨grid, rfl, -, hview⟩ := hu
  exact ⟨t.erased, by rw [← hp, ← hview], rfl⟩

/-- the rectangle that starts at the first cell -/
lemma Single.fill (h : t.Single) {r c : Nat} (hr : 0 < r) (hc : 0 < c) :
    Picture.fill 0 r 0 c t.erased t.grid.view 0 0 = Option.some t.erased := by
  obtain ⟨x, hx⟩ := h.some
  rw [Picture.fill, if_pos ⟨Nat.le_refl 0, hr, Nat.le_refl 0, hc⟩, hx]
  rfl

lemma clearRegion_blanks (h : t.Single) (r c : Nat) : (t.clearRegion 0 0 r c).Draws ' ' :=
  (clearRegion_redrawn h.fits 0 0 r c).blanks (h.fill (Nat.succ_pos _) (Nat.succ_pos _))

lemma eraseLine_blanks (h : t.Single) {mode : Nat} (hm : mode ≤ 2) : (t.eraseLine mode).Draws ' ' := by
  have hmode : mode = 0 ∨ mode = 1 ∨ mode = 2 := by omega
  unfold eraseLine
  rw [h.cursorRow, h.cursorCol]
  rcases hmode with rfl | rfl | rfl
  · exact clearRegion_blanks h _ _
  · exact clearRegion_blanks h _ _
  · exact clearRegion_blanks h _ _

lemma eraseDisplay_blanks (h : t.Single) {mode : Nat} (hm : mode ≤ 3) : (t.eraseDisplay mode).Draws ' ' := by
  have hmode : mode = 0 ∨ mode = 1 ∨ mode = 2 ∨ mode = 3 := by omega
  unfold eraseDisplay
  rcases hmode with rfl | rfl | rfl | rfl
  · have hlast : ¬t.cursorRow + 1 < t.rows := by rw [h.cursorRow, h.rows]; omega
    show Draws (if t.cursorRow + 1 < t.rows then _ else
      t.clearRegion t.cursorRow t.cursorCol t.cursorRow (t.cols - 1)) ' '
    rw [if_neg hlast, h.cursorRow, h.cursorCol]
    exact clearRegion_blanks h _ _
  · have hnone : (if t.cursorRow > 0 then t.clearRegion 0 0 (t.cursorRow - 1) (t.cols - 1) else t) = t :=
      if_neg (by rw [h.cursorRow]; omega)
    dsimp only
    rw [hnone, h.cursorRow, h.cursorCol]
    exact clearRegion_blanks h _ _
  · exact clearRegion_blanks h _ _
  · exact clearRegion_blanks h _ _

lemma insertLines_blanks (h : t.Single) (hn : 1 ≤ n) : (t.insertLines n).Draws ' ' := by
  have hdrawn := insertLines_redrawn h.fits h.region.2 n
  rw [h.scrollTop, h.scrollBot, h.cursorRow, if_pos (by omega), Core.Terminal.min_one hn,
    Picture.moveRows_zero] at hdrawn
  exact hdrawn.blanks (h.fill (by omega) (by rw [h.cols]; omega))

lemma insertChars_blanks (h : t.Single) (hn : 1 ≤ n) : (t.insertChars n).Draws ' ' := by
  have hdrawn := insertChars_redrawn h.fits (by rw [h.cursorCol]; omega) n
  rw [h.cursorRow, h.cursorCol, h.cols, Core.Terminal.min_one hn, Picture.moveCells_zero] at hdrawn
  exact hdrawn.blanks (h.fill (by omega) (by omega))

lemma deleteChars_blanks (h : t.Single) (hn : 1 ≤ n) : (t.deleteChars n).Draws ' ' := by
  have hdrawn := deleteChars_redrawn h.fits n
  rw [h.cursorRow, h.cursorCol, h.cols, Core.Terminal.min_one hn, Picture.moveCells_zero] at hdrawn
  exact hdrawn.blanks (h.fill (by omega) (by omega))

lemma eraseChars_blanks (h : t.Single) (hn : 1 ≤ n) : (t.eraseChars n).Draws ' ' := by
  have hdrawn := eraseChars_redrawn h.fits n
  rw [h.cursorRow, h.cursorCol, h.cols, Core.Terminal.min_one hn] at hdrawn
  exact hdrawn.blanks (h.fill (by omega) (by omega))

lemma scrollDown_blanks (h : t.Single) : t.scrollDown.Single ∧ t.scrollDown.Draws ' ' := by
  have hdrawn := scrollDown_redrawn h.fits h.region
  have hblank := hdrawn.blanks (by
    rw [h.scrollTop, h.scrollBot, Picture.moveRows_zero]
    exact h.fill (by omega) (by rw [h.cols]; omega))
  obtain ⟨grid, heq, hsized, -⟩ := hdrawn
  refine ⟨?_, hblank⟩
  rw [heq]
  exact { h with fits := hsized }

lemma scrollUp_blanks (h : t.Single) : t.scrollUp.Single ∧ t.scrollUp.Draws ' ' := by
  obtain ⟨grid, scrollOffset, scrollAnim, heq, hsized, hview⟩ := scrollUp_spec h.fits h.region
  rw [heq]
  refine ⟨⟨hsized, h.rows, h.cols, h.cursorRow, h.cursorCol, h.scrollTop, h.scrollBot⟩, t.erased, ?_, rfl⟩
  show grid.view 0 0 = _
  rw [hview, h.scrollTop, h.scrollBot, h.cols, Picture.moveRows_zero]
  exact h.fill (by omega) (by omega)

/-- one scroll or more of the only row -/
lemma scrolls_blank {f : Terminal F → Terminal F} (h : t.Single)
    (hf : ∀ t : Terminal F, t.Single → (f t).Single ∧ (f t).Draws ' ') (hn : 1 ≤ n) :
    (iter 0 n (fun t _ => f t) t).Draws ' ' := by
  obtain ⟨-, hshows⟩ := iter_rule (a := 0) (b := n) (g := fun t _ => f t) (s := t)
    (P := fun i t => t.Single ∧ (1 ≤ i → t.Draws ' ')) ⟨h, by omega⟩ (by
      rintro i t - - ⟨ht, -⟩
      exact ⟨(hf t ht).1, fun _ => (hf t ht).2⟩)
  exact hshows (by omega)

lemma one_le_param (pv : List Nat) (i : Nat) : 1 ≤ param pv i 1 := Nat.le_max_right _ _

/-- a terminal of one cell with an `x` in it -/
lemma exists_single (parity : Bool) :
    ∃ t : Terminal F, Reachable parity t ∧ t.wrapPending = false ∧ t.Single ∧ t.Draws 'x' := by
  obtain ⟨t, ht, hwrap, hrows, hcols, hrow, hcol, htop, hbot, hshows⟩ :
      ∃ t : Terminal F, exec (next parity) (new parity 1 1) [.call (.print 'x'), .call (.execute 0x0d)] = some t ∧
        t.wrapPending = false ∧ t.rows = 1 ∧ t.cols = 1 ∧ t.cursorRow = 0 ∧ t.cursorCol = 0 ∧ t.scrollTop = 0 ∧
        t.scrollBot = 1 ∧ t.Draws 'x' := ⟨_, rfl, rfl, rfl, rfl, rfl, rfl, rfl, rfl, _, rfl, rfl⟩
  exact ⟨t, ⟨1, 1, _, ht⟩, hwrap, ⟨(sound_of_run parity ht).grid, hrows, hcols, hrow, hcol, htop, hbot⟩, hshows⟩

/-- a terminal of two rows and columns with the cursor in the first corner or the last -/
lemma exists_corner (parity : Bool) {k : Nat} (hk : k ≤ 1) : ∃ t : Terminal F, Reachable parity t ∧
    t.wrapPending = false ∧ t.rows = 2 ∧ t.cols = 2 ∧ t.cursorRow = k ∧ t.cursorCol = k := by
  have hcorner : k = 0 ∨ k = 1 := by omega
  rcases hcorner with rfl | rfl
  · exact ⟨_, ⟨2, 2, [], rfl⟩, rfl, rfl, rfl, rfl, rfl⟩
  · exact ⟨_, ⟨2, 2, [.call (.csiDispatch [⟨2, []⟩, ⟨2, []⟩] [] false 'H')], rfl⟩, rfl, rfl, rfl, rfl, rfl⟩

/-- a terminal with a pen that some codes give -/
lemma exists_pen {pen : Pen} (h : Pen.Reached parity (defaultFg parity) pen) :
    ∃ t : Terminal F, Reachable parity t ∧ t.wrapPending = false ∧ (⟨t.fg, t.bg, t.attrs⟩ : Pen) = pen := by
  obtain ⟨params, hpen⟩ := h
  refine ⟨{ new parity 1 1 with fg := pen.fg, bg := pen.bg, attrs := pen.attrs },
    ⟨1, 1, [.call (.csiDispatch params [] false 'm')], ?_⟩, rfl, rfl⟩
  have hsgr : handleSgr (F := F) parity (new parity 1 1) (firsts params)
      = { new parity 1 1 with fg := pen.fg, bg := pen.bg, attrs := pen.attrs } := by
    unfold handleSgr
    rw [hpen]
    rfl
  show some (handleSgr parity (new parity 1 1) (firsts params)) = _
  rw [hsgr]

lemma csiDispatch_eq (hw : t.wrapPending = false) : t.csiDispatch parity params intermediates action
    = t.csiAction parity (firsts params) intermediates action := by
  have hclear : t.clearPendingWrap = t := by
    unfold clearPendingWrap
    rw [← hw]
  unfold csiDispatch
  rw [hclear, ite_self]

variable (F parity pv intermediates action) in
/-- there is a terminal that the sequence changes -/
def Acting : Prop := ∃ t : Terminal F, Reachable parity t ∧ t.wrapPending = false ∧
  ¬Unchanged t (t.csiAction parity pv intermediates action)

/-- a sequence that blanks the cell of every terminal of one cell -/
lemma Acting.of_blanks (h : ∀ t : Terminal F, t.Single → (t.csiAction parity pv intermediates action).Draws ' ') :
    Acting F parity pv intermediates action := by
  obtain ⟨t, ht, hwrap, hsingle, hshows⟩ := exists_single (F := F) parity
  exact ⟨t, ht, hwrap, hshows.changes (h t hsingle)⟩

/-- a sequence that moves the cursor out of a corner -/
lemma Acting.of_move {k : Nat} (hk : k ≤ 1) (h : ∀ t : Terminal F, t.rows = 2 → t.cols = 2 → t.cursorRow = k →
    t.cursorCol = k → (t.csiAction parity pv intermediates action).cursorRow ≠ k ∨
      (t.csiAction parity pv intermediates action).cursorCol ≠ k) : Acting F parity pv intermediates action := by
  obtain ⟨t, ht, hwrap, hrows, hcols, hr, hc⟩ := exists_corner (F := F) parity hk
  refine ⟨t, ht, hwrap, ?_⟩
  intro hsame
  rcases h t hrows hcols hr hc with hne | hne
  · exact hne (hsame.cursorRow.trans hr)
  · exact hne (hsame.cursorCol.trans hc)

/-- a code list that changes a pen -/
lemma Acting.of_pen (h : Pen.sgrIdle pv = false) : Acting F parity pv intermediates 'm' := by
  obtain ⟨pen, hpen, hne⟩ := @Pen.handleSgr_changes parity (defaultFg parity) pv h
  obtain ⟨t, ht, hwrap, hpen'⟩ := exists_pen (F := F) hpen
  refine ⟨t, ht, hwrap, ?_⟩
  intro hsame
  obtain ⟨pen', hsgr⟩ := Pen.handleSgr_isSome parity (defaultFg parity) pen pv
  have hrun : t.csiAction parity pv intermediates 'm' = { t with fg := pen'.fg, bg := pen'.bg, attrs := pen'.attrs } := by
    show t.handleSgr parity pv = _
    unfold handleSgr
    rw [hpen', hsgr]
    rfl
  rw [hrun] at hsame
  have hfg : pen'.fg = t.fg := hsame.fg
  have hbg : pen'.bg = t.bg := hsame.bg
  have hattrs : pen'.attrs = t.attrs := hsame.attrs
  apply hne
  rw [hsgr, ← hpen', ← hfg, ← hbg, ← hattrs]

lemma csiAction_changes (h : acts pv action = true) : Acting F parity pv intermediates action := by
  have hp := one_le_param pv 0
  unfold acts at h
  split at h
  · refine .of_move (k := 1) (by omega) fun t _ _ hr _ => .inl ?_
    show t.cursorRow - param pv 0 1 ≠ 1
    omega
  · refine .of_move (k := 0) (by omega) fun t hrows _ hr _ => .inl ?_
    show min (t.cursorRow + param pv 0 1) (t.rows - 1) ≠ 0
    omega
  · refine .of_move (k := 0) (by omega) fun t _ hcols _ hc => .inr ?_
    show min (t.cursorCol + param pv 0 1) (t.cols - 1) ≠ 0
    omega
  · refine .of_move (k := 1) (by omega) fun t _ _ _ hc => .inr ?_
    show t.cursorCol - param pv 0 1 ≠ 1
    omega
  · refine .of_move (Core.Terminal.corner_ne (param pv 0 1 - 1)).1 fun t hrows _ _ _ => .inl ?_
    show min (param pv 0 1 - 1) (t.rows - 1) ≠ _
    rw [hrows]
    exact (Core.Terminal.corner_ne _).2
  · refine .of_move (Core.Terminal.corner_ne (param pv 0 1 - 1)).1 fun t hrows _ _ _ => .inl ?_
    show min (param pv 0 1 - 1) (t.rows - 1) ≠ _
    rw [hrows]
    exact (Core.Terminal.corner_ne _).2
  · refine .of_move (Core.Terminal.corner_ne (param pv 0 1 - 1)).1 fun t hrows _ _ _ => .inl ?_
    show min (param pv 0 1 - 1) (t.rows - 1) ≠ _
    rw [hrows]
    exact (Core.Terminal.corner_ne _).2
  · refine .of_move (Core.Terminal.corner_ne (param pv 0 1 - 1)).1 fun t _ hcols _ _ => .inr ?_
    show min (param pv 0 1 - 1) (t.cols - 1) ≠ _
    rw [hcols]
    exact (Core.Terminal.corner_ne _).2
  · exact .of_blanks fun t ht => insertLines_blanks ht hp
  · exact .of_blanks fun t ht => scrolls_blank ht (fun _ => scrollUp_blanks) hp
  · exact .of_blanks fun t ht => scrolls_blank ht (fun _ => scrollDown_blanks) hp
  · exact .of_blanks fun t ht => insertChars_blanks ht hp
  · exact .of_blanks fun t ht => deleteChars_blanks ht hp
  · exact .of_blanks fun t ht => eraseChars_blanks ht hp
  · exact .of_blanks fun t ht => eraseDisplay_blanks ht (by simpa using h)
  · exact .of_blanks fun t ht => eraseLine_blanks ht (by simpa using h)
  · exact .of_pen (by simpa using h)
  · exact absurd h Bool.false_ne_true

theorem csiDispatch_changes (h : acts (firsts params) action = true) : ∃ t : Terminal F, Reachable parity t ∧
    ¬Unchanged t (t.csiDispatch parity params intermediates action) := by
  obtain ⟨t, ht, hwrap, hchanges⟩ := @csiAction_changes F _ parity (firsts params) intermediates action h
  exact ⟨t, ht, by rwa [csiDispatch_eq hwrap]⟩

/-! ## both emulators -/

/-- **Main result.** A sequence with intermediates that are not implemented leaves every terminal of the daemon as it
was if and only if it has `?` alone or does not act, and every terminal of the UI if and only if it does not act. -/
theorem intermediates_inert_iff (parity : Bool) (params : List Param) {intermediates : List UInt8} {action : Char}
    (hne : intermediates ≠ []) (himp : ¬Implemented intermediates action) :
    ((∀ t, Core.Terminal.Reachable parity t → ∃ t', t.csiDispatch parity params intermediates action = some t' ∧
        Core.Terminal.Unchanged t t') ↔
      intermediates = [0x3f] ∨ acts (firsts params) action = false) ∧
    ((∀ t : Terminal F, Reachable parity t → Unchanged t (t.csiDispatch parity params intermediates action)) ↔
      acts (firsts params) action = false) := by
  refine ⟨⟨fun h => ?_, fun h t _ => Core.Terminal.csiDispatch_inert hne himp h t⟩,
    fun h => ?_, fun h t _ => csiDispatch_inert hne himp h t⟩
  · by_contra hn
    obtain ⟨hq, hacts⟩ := not_or.mp hn
    obtain ⟨t, ht, hchanges⟩ := @Core.Terminal.csiDispatch_changes parity _ _ _ hq (Bool.eq_true_of_not_eq_false hacts)
    obtain ⟨t', hrun, hsame⟩ := h t ht
    exact hchanges t' hrun hsame
  · by_contra hacts
    obtain ⟨t, ht, hchanges⟩ := @csiDispatch_changes F _ parity _ _ _ (Bool.eq_true_of_not_eq_false hacts)
    exact hchanges (h t ht)

/-- there is no fifth way to erase the display, with `>` or without -/
theorem inert_erase : (∀ t : @Terminal ℚ, @Reachable ℚ exactF32 false t →
    @Unchanged ℚ t (@csiDispatch ℚ exactF32 false t [⟨5, []⟩] [0x3e] 'J')) ↔ acts [5] 'J' = false :=
  (@intermediates_inert_iff ℚ exactF32 false [⟨5, []⟩] [0x3e] 'J' (by decide) (by decide)).2

/-- `CSI > 4 ; 2 m`, which asks for the reports of modified keys, underlines and dims what comes next -/
theorem modifyOtherKeys_underlines : [0x3e] ≠ ([] : List UInt8) ∧ ¬Implemented [0x3e] 'm' ∧
    (∃ t', (Core.Terminal.new false 24 80 100).csiDispatch false [⟨4, []⟩, ⟨2, []⟩] [0x3e] 'm' = some t' ∧
      t'.attrs = .underline ||| .dim ∧ ¬Core.Terminal.Unchanged (.new false 24 80 100) t') ∧
    (@csiDispatch ℚ exactF32 false (@new ℚ exactF32 false 24 80) [⟨4, []⟩, ⟨2, []⟩] [0x3e] 'm').attrs
      = .underline ||| .dim ∧
    ¬@Unchanged ℚ (@new ℚ exactF32 false 24 80)
      (@csiDispatch ℚ exactF32 false (@new ℚ exactF32 false 24 80) [⟨4, []⟩, ⟨2, []⟩] [0x3e] 'm') := by
  refine ⟨by decide, by decide, ⟨_, rfl, by decide, ?_⟩, by decide, ?_⟩
  · intro hsame
    exact absurd hsame.attrs (by decide)
  · intro hsame
    exact absurd hsame.attrs (by decide)

end TerminalManager.Ui.Terminal
