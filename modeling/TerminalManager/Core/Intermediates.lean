import TerminalManager.Core.Invariant

/-!
# Control sequences whose intermediates nothing implements (daemon)

Of the arms of `csi_dispatch` only some look at the intermediates, so a private sequence does what the
standard sequence with the same final character does.

* `Implemented`       the forms with intermediates that are implemented;
* `acts`              the sequences that change what is shown, for some state;
* `Unchanged t t'`    the grid, cursor, scrollback, scroll region and pen are the same;
* `csiDispatch_inert`, `csiDispatch_changes`   an early return makes the sequences with `?` alone inert, the other
  ones are when they do not act; else a terminal that some events lead to is changed.
-/

namespace TerminalManager.Term

/-- `?` with `h` and `l`, `>` with `c` and `q`, a space with `q` -/
def Implemented (intermediates : List UInt8) (action : Char) : Prop :=
  intermediates = [0x3f] ∧ (action = 'h' ∨ action = 'l') ∨
    intermediates = [0x3e] ∧ (action = 'c' ∨ action = 'q') ∨ intermediates = [0x20] ∧ action = 'q'

instance (intermediates : List UInt8) (action : Char) : Decidable (Implemented intermediates action) :=
  inferInstanceAs (Decidable (_ ∨ _))

/-- the arms without a look at the intermediates, for the parameters with which they do something -/
def acts (pv : List Nat) (action : Char) : Bool :=
  match action with
  | 'A' | 'B' | 'C' | 'D' | 'H' | 'f' | 'd' | 'G' | 'L' | 'S' | 'T' | '@' | 'P' | 'X' => true
  | 'J' => pv[0]?.getD 0 ≤ 3
  | 'K' => pv[0]?.getD 0 ≤ 2
  | 'm' => !Pen.sgrIdle pv
  | _ => false

end TerminalManager.Term

namespace TerminalManager.Core.Terminal
open Loops Slice Term Transition

/-- neither the grid, the cursor, the scrollback, the scroll region nor the pen is different -/
structure Unchanged (t t' : Terminal) : Prop where
  grid : t'.grid = t.grid
  cursorRow : t'.cursorRow = t.cursorRow
  cursorCol : t'.cursorCol = t.cursorCol
  scrollback : t'.scrollback = t.scrollback
  scrollTop : t'.scrollTop = t.scrollTop
  scrollBot : t'.scrollBot = t.scrollBot
  fg : t'.fg = t.fg
  bg : t'.bg = t.bg
  attrs : t'.attrs = t.attrs

variable {t t' u : Terminal} {parity : Bool} {o : Option Terminal} {pv : List Nat} {params : List Param}
  {intermediates : List UInt8} {action : Char} {c : Char} {n : Nat}

lemma Unchanged.refl (t : Terminal) : Unchanged t t := ⟨rfl, rfl, rfl, rfl, rfl, rfl, rfl, rfl, rfl⟩

/-- the wrap that a sequence clears is none of them -/
lemma Unchanged.of_wrap {b : Bool} (h : Unchanged (if b then t else t.clearPendingWrap) t') : Unchanged t t' := by
  cases b with
  | true => exact h
  | false => exact ⟨h.grid, h.cursorRow, h.cursorCol, h.scrollback, h.scrollTop, h.scrollBot, h.fg, h.bg, h.attrs⟩

lemma Unchanged.wrap {b : Bool} (h : Unchanged t t') : Unchanged (if b then t else t.clearPendingWrap) t' := by
  cases b with
  | true => exact h
  | false => exact ⟨h.grid, h.cursorRow, h.cursorCol, h.scrollback, h.scrollTop, h.scrollBot, h.fg, h.bg, h.attrs⟩

/-! ## sequences that do not act -/

lemma handleSgr_inert (h : Pen.sgrIdle pv = true) (t : Terminal) :
    ∃ t', t.handleSgr parity pv = some t' ∧ Unchanged t t' := by
  unfold handleSgr
  rw [Pen.handleSgr_idle h]
  exact ⟨_, rfl, rfl, rfl, rfl, rfl, rfl, rfl, rfl, rfl, rfl⟩

lemma eraseDisplay_inert {mode : Nat} (h : ¬mode ≤ 3) (t : Terminal) : t.eraseDisplay mode = some t := by
  unfold eraseDisplay
  split
  case h_5 => rfl
  all_goals omega

lemma eraseLine_inert {mode : Nat} (h : ¬mode ≤ 2) (t : Terminal) : t.eraseLine mode = some t := by
  unfold eraseLine
  split
  case h_4 => rfl
  all_goals omega

lemma csiAction_inert (hne : intermediates ≠ []) (h : acts pv action = false) (t : Terminal) :
    ∃ t', t.csiAction parity pv intermediates action = some t' ∧ Unchanged t t' := by
  unfold csiAction
  dsimp only
  split
  case h_9 => rw [eraseDisplay_inert (by simpa [acts] using h)]; exact ⟨t, rfl, .refl t⟩
  case h_10 => rw [eraseLine_inert (by simpa [acts] using h)]; exact ⟨t, rfl, .refl t⟩
  case h_12 => rw [if_neg hne]; exact ⟨t, rfl, .refl t⟩
  case h_18 => rw [if_neg hne]; exact ⟨t, rfl, .refl t⟩
  case h_19 =>
    rw [if_neg hne]
    split <;> exact ⟨_, rfl, rfl, rfl, rfl, rfl, rfl, rfl, rfl, rfl, rfl⟩
  case h_20 => rw [if_neg fun hx => hne hx.1, if_neg fun hx => hne hx.1]; exact ⟨t, rfl, .refl t⟩
  case h_21 => split <;> exact ⟨_, rfl, rfl, rfl, rfl, rfl, rfl, rfl, rfl, rfl, rfl⟩
  case h_22 => exact handleSgr_inert (by simpa [acts] using h) t
  case h_23 => exact ⟨t, rfl, .refl t⟩
  all_goals exact absurd h (by simp [acts])

theorem csiDispatch_inert (hne : intermediates ≠ []) (himp : ¬Implemented intermediates action)
    (h : intermediates = [0x3f] ∨ acts (firsts params) action = false) (t : Terminal) :
    ∃ t', t.csiDispatch parity params intermediates action = some t' ∧ Unchanged t t' := by
  unfold csiDispatch
  dsimp only
  split
  next hq =>
    rw [if_neg fun hx => himp (.inl ⟨hq, hx⟩)]
    exact ⟨t, rfl, .refl t⟩
  split
  · exact ⟨t, rfl, .refl t⟩
  next hq _ =>
    obtain ⟨t', hrun, hsame⟩ := @csiAction_inert parity (firsts params) intermediates action hne
      (h.resolve_left hq) (if keepsWrap action then t else t.clearPendingWrap)
    exact ⟨t', hrun, hsame.of_wrap⟩

/-! ## sequences that act -/

/-- what some events make of a new terminal -/
def Reachable (parity : Bool) (t : Terminal) : Prop :=
  ∃ rows cols limit es, exec (step parity) (new parity rows cols limit) es = some t

/-- one cell, the cursor on it -/
structure Single (t : Terminal) : Prop where
  fits : t.Fits
  rows : t.rows = 1
  cols : t.cols = 1
  cursorRow : t.cursorRow = 0
  cursorCol : t.cursorCol = 0
  scrollTop : t.scrollTop = 0
  scrollBot : t.scrollBot = 1

/-- the character in the first cell -/
def Draws (t : Terminal) (c : Char) : Prop := ∃ x : Cell, t.grid.view 0 0 = some x ∧ x.ch = c

lemma Draws.changes (h : t.Draws 'x') (h' : t'.Draws ' ') : ¬Unchanged t t' := by
  intro hsame
  obtain ⟨x, hx, hxc⟩ := h
  obtain ⟨y, hy, hyc⟩ := h'
  rw [hsame.grid, hx] at hy
  cases hy
  rw [hxc] at hyc
  exact absurd hyc (by decide)

lemma Single.some (h : t.Single) : ∃ x, t.grid.view 0 0 = Option.some x := by
  have hshape := h.fits.shape
  rw [h.rows, h.cols] at hshape
  exact hshape.some (by omega) (by omega)

/-- the only cell is blank after the operation -/
def Blanks (o : Option Terminal) : Prop := ∀ t', o = some t' → t'.Draws ' '

lemma Redrawn.blanks {p : Picture Cell} (ho : Redrawn t o p) (hp : p 0 0 = some t.erased) : Blanks o := by
  intro t' ht'
  obtain ⟨grid, rfl, -, hview⟩ := ho
  cases ht'
  exact ⟨t.erased, by rw [← hp, ← hview], rfl⟩

/-- the rectangle that starts at the first cell -/
lemma Single.fill (h : t.Single) {r c : Nat} (hr : 0 < r) (hc : 0 < c) :
    Picture.fill 0 r 0 c t.erased t.grid.view 0 0 = Option.some t.erased := by
  obtain ⟨x, hx⟩ := h.some
  rw [Picture.fill, if_pos ⟨Nat.le_refl 0, hr, Nat.le_refl 0, hc⟩, hx]
  rfl

lemma clearRegion_blanks (h : t.Single) (r c : Nat) : Blanks (t.clearRegion 0 0 r c) :=
  (clearRegion_redrawn h.fits 0 0 r c).blanks (h.fill (Nat.succ_pos _) (Nat.succ_pos _))

lemma eraseLine_blanks (h : t.Single) {mode : Nat} (hm : mode ≤ 2) : Blanks (t.eraseLine mode) := by
  have hmode : mode = 0 ∨ mode = 1 ∨ mode = 2 := by omega
  unfold eraseLine
  rw [h.cursorRow, h.cursorCol]
  rcases hmode with rfl | rfl | rfl
  · exact clearRegion_blanks h _ _
  · exact clearRegion_blanks h _ _
  · exact clearRegion_blanks h _ _

lemma eraseDisplay_blanks (h : t.Single) {mode : Nat} (hm : mode ≤ 3) : Blanks (t.eraseDisplay mode) := by
  have hmode : mode = 0 ∨ mode = 1 ∨ mode = 2 ∨ mode = 3 := by omega
  unfold eraseDisplay
  rw [h.cursorRow, h.cursorCol]
  rcases hmode with rfl | rfl | rfl | rfl
  · intro t' ht'
    obtain ⟨u, hu, hrest⟩ := Option.bind_eq_some_iff.mp ht'
    obtain ⟨grid, hgrid, -⟩ := clearRegion_redrawn h.fits 0 0 0 (t.cols - 1)
    obtain rfl := Option.some.inj (hgrid.symm.trans hu)
    rw [if_neg (by rw [h.rows]; omega)] at hrest
    obtain rfl := Option.some.inj hrest
    exact clearRegion_blanks h _ _ _ hu
  · exact clearRegion_blanks h _ _
  · exact clearRegion_blanks h _ _
  · intro t' ht'
    obtain ⟨u, hu, hrest⟩ := Option.bind_eq_some_iff.mp ht'
    obtain rfl := Option.some.inj hrest
    exact clearRegion_blanks h _ _ u hu

/-- what there is of the row is one cell, however many are asked for -/
lemma min_one (hn : 1 ≤ n) : min n (1 - 0) = 1 := by omega

lemma Single.region (h : t.Single) : t.Region := by
  unfold Region
  rw [h.scrollTop, h.scrollBot, h.rows]
  omega

lemma insertLines_blanks (h : t.Single) (hn : 1 ≤ n) : Blanks (t.insertLines n) := by
  have hdrawn := insertLines_redrawn h.fits h.region.2 n
  rw [h.scrollTop, h.scrollBot, h.cursorRow, if_pos (by omega), min_one hn, Picture.moveRows_zero] at hdrawn
  exact hdrawn.blanks (h.fill (by omega) (by rw [h.cols]; omega))

lemma insertChars_blanks (h : t.Single) (hn : 1 ≤ n) : Blanks (t.insertChars n) := by
  have hdrawn := insertChars_redrawn h.fits (by rw [h.cursorCol]; omega) n
  rw [h.cursorRow, h.cursorCol, h.cols, min_one hn, Picture.moveCells_zero] at hdrawn
  exact hdrawn.blanks (h.fill (by omega) (by omega))

lemma deleteChars_blanks (h : t.Single) (hn : 1 ≤ n) : Blanks (t.deleteChars n) := by
  have hdrawn := deleteChars_redrawn h.fits n
  rw [h.cursorRow, h.cursorCol, h.cols, min_one hn, Picture.moveCells_zero] at hdrawn
  exact hdrawn.blanks (h.fill (by omega) (by omega))

lemma eraseChars_blanks (h : t.Single) (hn : 1 ≤ n) : Blanks (t.eraseChars n) := by
  have hdrawn := eraseChars_redrawn h.fits n
  rw [h.cursorRow, h.cursorCol, h.cols, min_one hn] at hdrawn
  exact hdrawn.blanks (h.fill (by omega) (by omega))

lemma scrollDown_blanks (h : t.Single) : ∃ t', t.scrollDown = some t' ∧ t'.Single ∧ t'.Draws ' ' := by
  have hdrawn := scrollDown_redrawn h.fits h.region
  have hblank := hdrawn.blanks (by
    rw [scrolledDown, h.scrollTop, h.scrollBot, Picture.moveRows_zero]
    exact h.fill (by omega) (by rw [h.cols]; omega))
  obtain ⟨grid, hrun, hlike, -⟩ := hdrawn
  exact ⟨_, hrun, { h with fits := h.fits.like hlike }, hblank _ hrun⟩

lemma scrollUp_blanks (h : t.Single) : ∃ t', t.scrollUp = some t' ∧ t'.Single ∧ t'.Draws ' ' := by
  obtain ⟨grid, hrun, hlike, hview⟩ := scrollUp_spec h.fits h.region
  refine ⟨_, hrun, ⟨h.fits.like hlike, h.rows, h.cols, h.cursorRow, h.cursorCol, h.scrollTop, h.scrollBot⟩,
    t.incoming, ?_, ?_⟩
  · obtain ⟨x, hx⟩ := h.some
    show grid.view 0 0 = _
    rw [hview, scrolledUp, h.scrollTop, h.scrollBot, h.cols, Picture.moveRows_zero, Picture.fill,
      if_pos (by omega), hx]
    rfl
  · unfold incoming
    split <;> rfl

/-- one scroll or more of the only row -/
lemma scrolls_blank {f : Terminal → Option Terminal} (h : t.Single)
    (hf : ∀ t : Terminal, t.Single → ∃ t', f t = some t' ∧ t'.Single ∧ t'.Draws ' ') (hn : 1 ≤ n) :
    Blanks (forRange 0 n (fun t _ => f t) t) := by
  intro t' ht'
  obtain ⟨u, hu, -, hshows⟩ := forRange_rule (a := 0) (b := n) (f := fun t _ => f t) (s := t)
    (P := fun i t => t.Single ∧ (1 ≤ i → t.Draws ' ')) ⟨h, by omega⟩ (by
      rintro i t - - ⟨ht, -⟩
      obtain ⟨t', hrun, hsingle, hshows⟩ := hf t ht
      exact ⟨t', hrun, hsingle, fun _ => hshows⟩)
  obtain rfl := Option.some.inj (hu.symm.trans ht')
  exact hshows (by omega)

lemma one_le_param (pv : List Nat) (i : Nat) : 1 ≤ param pv i 1 := by
  unfold param
  split <;> omega

/-- a terminal of one cell with an `x` in it -/
lemma exists_single (parity : Bool) :
    ∃ t, Reachable parity t ∧ t.wrapPending = false ∧ t.Single ∧ t.Draws 'x' := by
  obtain ⟨t, ht, hsound⟩ := structure_kept parity 1 1 0 [.call (.print 'x'), .call (.execute 0x0d)]
  obtain ⟨t', ht', hwrap, hrows, hcols, hrow, hcol, htop, hbot, hshows⟩ :
      ∃ t, exec (step parity) (new parity 1 1 0) [.call (.print 'x'), .call (.execute 0x0d)] = some t ∧
        t.wrapPending = false ∧ t.rows = 1 ∧ t.cols = 1 ∧ t.cursorRow = 0 ∧ t.cursorCol = 0 ∧ t.scrollTop = 0 ∧
        t.scrollBot = 1 ∧ t.Draws 'x' := ⟨_, rfl, rfl, rfl, rfl, rfl, rfl, rfl, rfl, _, rfl, rfl⟩
  obtain rfl := Option.some.inj (ht.symm.trans ht')
  exact ⟨t, ⟨1, 1, 0, _, ht⟩, hwrap, ⟨hsound.grid, hrows, hcols, hrow, hcol, htop, hbot⟩, hshows⟩

/-- a terminal of two rows and columns with the cursor in the first corner or the last -/
lemma exists_corner (parity : Bool) {k : Nat} (hk : k ≤ 1) : ∃ t, Reachable parity t ∧ t.wrapPending = false ∧
    t.rows = 2 ∧ t.cols = 2 ∧ t.cursorRow = k ∧ t.cursorCol = k := by
  have hcorner : k = 0 ∨ k = 1 := by omega
  rcases hcorner with rfl | rfl
  · exact ⟨_, ⟨2, 2, 0, [], rfl⟩, rfl, rfl, rfl, rfl, rfl⟩
  · exact ⟨_, ⟨2, 2, 0, [.call (.csiDispatch [⟨2, []⟩, ⟨2, []⟩] [] false 'H')], rfl⟩, rfl, rfl, rfl, rfl, rfl⟩

/-- a terminal with a pen that some codes give -/
lemma exists_pen {pen : Pen} (h : Pen.Reached parity (defaultFg parity) pen) :
    ∃ t, Reachable parity t ∧ t.wrapPending = false ∧ (⟨t.fg, t.bg, t.attrs⟩ : Pen) = pen := by
  obtain ⟨params, hpen⟩ := h
  refine ⟨{ new parity 1 1 0 with fg := pen.fg, bg := pen.bg, attrs := pen.attrs },
    ⟨1, 1, 0, [.call (.csiDispatch params [] false 'm')], ?_⟩, rfl, rfl⟩
  have hsgr : (new parity 1 1 0).handleSgr parity (firsts params)
      = some { new parity 1 1 0 with fg := pen.fg, bg := pen.bg, attrs := pen.attrs } := by
    unfold handleSgr
    rw [hpen]
    rfl
  show ((new parity 1 1 0).handleSgr parity (firsts params)).bind some = _
  rw [hsgr]
  rfl

lemma csiDispatch_eq (hw : t.wrapPending = false) (hq : intermediates ≠ [0x3f])
    (hsp : ¬(intermediates = [0x20] ∧ action = 'q')) : t.csiDispatch parity params intermediates action
      = t.csiAction parity (firsts params) intermediates action := by
  have hclear : t.clearPendingWrap = t := by
    unfold clearPendingWrap
    rw [← hw]
  unfold csiDispatch
  dsimp only
  rw [if_neg hq, if_neg hsp, hclear, ite_self]

variable (parity pv intermediates action) in
/-- there is a terminal that the sequence changes -/
def Acting : Prop := ∃ t, Reachable parity t ∧ t.wrapPending = false ∧
  ∀ t', t.csiAction parity pv intermediates action = some t' → ¬Unchanged t t'

/-- a sequence that blanks the cell of every terminal of one cell -/
lemma Acting.of_blanks (h : ∀ t : Terminal, t.Single → Blanks (t.csiAction parity pv intermediates action)) :
    Acting parity pv intermediates action := by
  obtain ⟨t, ht, hwrap, hsingle, hshows⟩ := exists_single parity
  exact ⟨t, ht, hwrap, fun t' ht' => hshows.changes (h t hsingle t' ht')⟩

/-- a sequence that moves the cursor out of a corner -/
lemma Acting.of_move {k : Nat} (hk : k ≤ 1) (h : ∀ t : Terminal, t.rows = 2 → t.cols = 2 → t.cursorRow = k →
    t.cursorCol = k → ∃ t', t.csiAction parity pv intermediates action = some t' ∧
      (t'.cursorRow ≠ k ∨ t'.cursorCol ≠ k)) : Acting parity pv intermediates action := by
  obtain ⟨t, ht, hwrap, hrows, hcols, hr, hc⟩ := exists_corner parity hk
  refine ⟨t, ht, hwrap, ?_⟩
  intro t' ht' hsame
  obtain ⟨u, hu, hne⟩ := h t hrows hcols hr hc
  obtain rfl := Option.some.inj (hu.symm.trans ht')
  rcases hne with hne | hne
  · exact hne (hsame.cursorRow.trans hr)
  · exact hne (hsame.cursorCol.trans hc)

/-- a position on two rows is one of the corners, the cursor comes from the other one -/
lemma corner_ne (n : Nat) : 1 - min n 1 ≤ 1 ∧ min n (2 - 1) ≠ 1 - min n 1 := by omega

/-- a code list that changes a pen -/
lemma Acting.of_pen (h : Pen.sgrIdle pv = false) : Acting parity pv intermediates 'm' := by
  obtain ⟨pen, hpen, hne⟩ := @Pen.handleSgr_changes parity (defaultFg parity) pv h
  obtain ⟨t, ht, hwrap, hpen'⟩ := exists_pen hpen
  refine ⟨t, ht, hwrap, ?_⟩
  intro t' ht' hsame
  obtain ⟨pen', hsgr⟩ := Pen.handleSgr_isSome parity (defaultFg parity) pen pv
  have hrun : t.handleSgr parity pv = some { t with fg := pen'.fg, bg := pen'.bg, attrs := pen'.attrs } := by
    unfold handleSgr
    rw [hpen', hsgr]
    rfl
  obtain rfl := Option.some.inj (hrun.symm.trans ht')
  have hfg : pen'.fg = t.fg := hsame.fg
  have hbg : pen'.bg = t.bg := hsame.bg
  have hattrs : pen'.attrs = t.attrs := hsame.attrs
  apply hne
  rw [hsgr, ← hpen', ← hfg, ← hbg, ← hattrs]

lemma csiAction_changes (h : acts pv action = true) : Acting parity pv intermediates action := by
  have hp := one_le_param pv 0
  unfold acts at h
  split at h
  · refine .of_move (k := 1) (by omega) fun t _ _ hr _ => ⟨_, rfl, .inl ?_⟩
    show t.cursorRow - param pv 0 1 ≠ 1
    omega
  · refine .of_move (k := 0) (by omega) fun t hrows _ hr _ => ⟨_, rfl, .inl ?_⟩
    show min (t.cursorRow + param pv 0 1) (t.rows - 1) ≠ 0
    omega
  · refine .of_move (k := 0) (by omega) fun t _ hcols _ hc => ⟨_, rfl, .inr ?_⟩
    show min (t.cursorCol + param pv 0 1) (t.cols - 1) ≠ 0
    omega
  · refine .of_move (k := 1) (by omega) fun t _ _ _ hc => ⟨_, rfl, .inr ?_⟩
    show t.cursorCol - param pv 0 1 ≠ 1
    omega
  · refine .of_move (corner_ne (param pv 0 1 - 1)).1 fun t hrows _ _ _ => ⟨_, rfl, .inl ?_⟩
    show min (param pv 0 1 - 1) (t.rows - 1) ≠ _
    rw [hrows]
    exact (corner_ne _).2
  · refine .of_move (corner_ne (param pv 0 1 - 1)).1 fun t hrows _ _ _ => ⟨_, rfl, .inl ?_⟩
    show min (param pv 0 1 - 1) (t.rows - 1) ≠ _
    rw [hrows]
    exact (corner_ne _).2
  · refine .of_move (corner_ne (param pv 0 1 - 1)).1 fun t hrows _ _ _ => ⟨_, rfl, .inl ?_⟩
    show min (param pv 0 1 - 1) (t.rows - 1) ≠ _
    rw [hrows]
    exact (corner_ne _).2
  · refine .of_move (corner_ne (param pv 0 1 - 1)).1 fun t _ hcols _ _ => ⟨_, rfl, .inr ?_⟩
    show min (param pv 0 1 - 1) (t.cols - 1) ≠ _
    rw [hcols]
    exact (corner_ne _).2
  · exact .of_blanks fun t ht => insertLines_blanks ht hp
  · exact .of_blanks fun t ht => scrolls_blank ht (fun _ => scrollUp_blanks) hp
  · exact .of_blanks fun t ht => scrolls_blank ht (fun _ => scrollDown_blanks) hp
  · exact .of_blanks fun t ht => insertChars_blanks ht hp
  · exact .of_blanks fun t ht => deleteChars_blanks ht hp
  · exact .of_blanks fun t ht => eraseChars_blanks ht hp
  · exact .of_blanks fun t ht => eraseDisplay_blanks ht (by simpa using h)
  · exact .of_blanks fun t ht => eraseLine_blanks ht (by simpa using h)
  · exact .of_pen (by simpa using h)
  · exact absurd h (by decide)

theorem csiDispatch_changes (hq : intermediates ≠ [0x3f]) (h : acts (firsts params) action = true) :
    ∃ t, Reachable parity t ∧
      ∀ t', t.csiDispatch parity params intermediates action = some t' → ¬Unchanged t t' := by
  obtain ⟨t, ht, hwrap, hchanges⟩ := @csiAction_changes parity (firsts params) intermediates action h
  refine ⟨t, ht, ?_⟩
  rwa [csiDispatch_eq hwrap hq]
  rintro ⟨-, rfl⟩
  exact absurd h Bool.false_ne_true

end TerminalManager.Core.Terminal
