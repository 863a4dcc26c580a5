import TerminalManager.Core.Invariant

/-!
# The alternate screen

While the alternate screen is active the main grid is parked in `altGrid`, beside its cursor and its pen.

* `Frame`, `Quiet`        what an operation that switches no screen leaves alone;
* `step_cases`            an event is a list of private modes, or a resize, or such an operation;
* `Parked`, `OnMain`      a terminal beside the one it was when the main screen was left;
* `isolated`              **main result**: from the entry into the alternate screen to the first exit, whatever
  happens between them, the main screen is kept;
* `cursorVisible_iff`     **main result**: the flag of the cursor is the one that was set last in every state of a
  run exactly when no switch of the screens brings back another one.
-/

namespace TerminalManager.Core
open Loops Slice Term Transition

/-! ## what operations leave alone -/

section
variable {g g' : Grid} {r c n : Nat} {x : Cell}

lemma Grid.set_visible (h : g.set r c x = some g') : g'.cursorVisible = g.cursorVisible := by
  unfold set at h
  split at h
  · obtain ⟨cells, -, rfl⟩ := Option.map_eq_some_iff.mp h
    rfl
  · cases h
    rfl

lemma Grid.scrollUp_visible {row : List Cell} (h : g.scrollUp = some (row, g')) :
    g'.cursorVisible = g.cursorVisible := by
  unfold scrollUp at h
  split at h
  · cases h
    rfl
  · simp only [Option.bind_eq_bind, Option.bind_eq_some_iff] at h
    obtain ⟨_, -, _, -, _, -, _, -, h⟩ := h
    cases h
    rfl

lemma Grid.resize_visible {rows cols : Nat} (h : g.resize rows cols = some g') :
    g'.cursorVisible = g.cursorVisible := by
  unfold resize at h
  split at h
  · cases h
    rfl
  · obtain ⟨cells, -, rfl⟩ := Option.map_eq_some_iff.mp h
    rfl

lemma Grid.shrinkRowsFromTop_visible {rows : List (List Cell)} (h : g.shrinkRowsFromTop n = some (rows, g')) :
    g'.cursorVisible = g.cursorVisible := by
  unfold shrinkRowsFromTop at h
  split at h
  · cases h
    rfl
  · simp only [Option.bind_eq_bind, Option.bind_eq_some_iff] at h
    obtain ⟨_, -, _, -, _, -, _, -, h⟩ := h
    cases h
    rfl

lemma Grid.growRowsAtTop_visible {lifted : List (List Cell)} (h : g.growRowsAtTop n lifted = some g') :
    g'.cursorVisible = g.cursorVisible := by
  unfold growRowsAtTop at h
  split at h
  · cases h
    rfl
  · simp only [Option.bind_eq_bind, Option.bind_eq_some_iff] at h
    obtain ⟨_, -, _, -, _, -, h⟩ := h
    cases h
    rfl

end

namespace Terminal

variable {t t' u : Terminal} {limit : Nat}

/-- the screens, what is parked, the size and the flag of the cursor are the same -/
structure Frame (t t' : Terminal) : Prop where
  parked : t'.altGrid = t.altGrid
  cursor : t'.altSavedCursor = t.altSavedCursor
  fg : t'.altSavedFg = t.altSavedFg
  bg : t'.altSavedBg = t.altSavedBg
  attrs : t'.altSavedAttrs = t.altSavedAttrs
  rows : t'.rows = t.rows
  cols : t'.cols = t.cols
  visible : t'.grid.cursorVisible = t.grid.cursorVisible

/-- and on the alternate screen the scrollback is -/
structure Quiet (t t' : Terminal) : Prop extends Frame t t' where
  history : t.altGrid.isSome → t'.scrollback = t.scrollback

lemma Quiet.refl (t : Terminal) : Quiet t t := ⟨⟨rfl, rfl, rfl, rfl, rfl, rfl, rfl, rfl⟩, fun _ => rfl⟩

lemma Frame.trans (h : Frame t t') (h' : Frame t' u) : Frame t u :=
  ⟨h'.parked.trans h.parked, h'.cursor.trans h.cursor, h'.fg.trans h.fg, h'.bg.trans h.bg, h'.attrs.trans h.attrs,
    h'.rows.trans h.rows, h'.cols.trans h.cols, h'.visible.trans h.visible⟩

lemma Quiet.trans (h : Quiet t t') (h' : Quiet t' u) : Quiet t u :=
  ⟨h.toFrame.trans h'.toFrame, fun halt => (h'.history (by rwa [h.parked])).trans (h.history halt)⟩

/-- an operation on the grid -/
lemma quiet_grid {o : Option Grid} (h : (o.map fun grid => { t with grid }) = some t')
    (ho : ∀ grid ∈ o, grid.cursorVisible = t.grid.cursorVisible) : Quiet t t' := by
  obtain ⟨grid, hgrid, rfl⟩ := Option.map_eq_some_iff.mp h
  exact ⟨⟨rfl, rfl, rfl, rfl, rfl, rfl, rfl, ho grid hgrid⟩, fun _ => rfl⟩

/-- a loop over cells that keeps the flag -/
lemma visible_forRange {a b : Nat} {f : Grid → Nat → Option Grid}
    (hf : ∀ g i g', f g i = some g' → g'.cursorVisible = g.cursorVisible) {g g' : Grid}
    (h : forRange a b f g = some g') : g'.cursorVisible = g.cursorVisible :=
  @forRange_rel Grid a b f g (fun g g' => g'.cursorVisible = g.cursorVisible) (fun _ => rfl)
    (fun _ _ _ h h' => h'.trans h) hf g' h

lemma quiet_forRange {a b : Nat} {f : Terminal → Nat → Option Terminal} (hf : ∀ t i t', f t i = some t' → Quiet t t')
    (h : forRange a b f t = some t') : Quiet t t' :=
  forRange_rel Quiet.refl (fun _ _ _ => Quiet.trans) hf h

lemma quiet_forRangeRev {a b : Nat} {f : Terminal → Nat → Option Terminal} (hf : ∀ t i t', f t i = some t' → Quiet t t')
    (h : forRangeRev a b f t = some t') : Quiet t t' :=
  forRangeRev_rel Quiet.refl (fun _ _ _ => Quiet.trans) hf h

lemma copyRow_quiet {dst src : Nat} (h : t.copyRow dst src = some t') : Quiet t t' := by
  unfold copyRow at h
  split at h
  · cases h
    exact Quiet.refl t
  · exact quiet_grid h fun grid hgrid => visible_forRange (fun _ _ _ => Grid.set_visible) hgrid

lemma clearRow_quiet {row : Nat} (h : t.clearRow row = some t') : Quiet t t' := by
  unfold clearRow at h
  split at h
  · cases h
    exact Quiet.refl t
  · exact quiet_grid h fun grid hgrid => visible_forRange (fun _ _ _ => Grid.set_visible) hgrid

lemma clearRegion_quiet {r c r' c' : Nat} (h : t.clearRegion r c r' c' = some t') : Quiet t t' :=
  quiet_grid h fun _ hgrid => visible_forRange (fun _ _ _ => visible_forRange fun _ _ _ => Grid.set_visible) hgrid

lemma scrollUp_quiet (h : t.scrollUp = some t') : Quiet t t' := by
  unfold scrollUp at h
  split at h
  · cases h
    exact Quiet.refl t
  split at h
  · unfold scrollUpAndCapture at h
    obtain ⟨⟨row, grid⟩, hgrid, h⟩ := Option.bind_eq_some_iff.mp h
    dsimp only at h
    split at h
    next hcap =>
      cases h
      refine ⟨⟨rfl, rfl, rfl, rfl, rfl, rfl, rfl, Grid.scrollUp_visible hgrid⟩, fun halt => ?_⟩
      rw [Option.isNone_iff_eq_none.mp hcap.1] at halt
      exact absurd halt (by simp)
    · cases h
      exact ⟨⟨rfl, rfl, rfl, rfl, rfl, rfl, rfl, Grid.scrollUp_visible hgrid⟩, fun _ => rfl⟩
  · obtain ⟨t₁, h₁, h⟩ := Option.bind_eq_some_iff.mp h
    obtain ⟨bot, -, h⟩ := Option.bind_eq_some_iff.mp h
    have hpush : Quiet t (if t.scrollTop = 0 ∧ t.altGrid.isNone then
        { t with scrollback := t.scrollback.push ((List.range t.cols).filterMap fun col => t.grid.get t.scrollTop col) }
      else t) := by
      split
      next hcap =>
        refine ⟨⟨rfl, rfl, rfl, rfl, rfl, rfl, rfl, rfl⟩, fun halt => ?_⟩
        rw [Option.isNone_iff_eq_none.mp hcap.2] at halt
        exact absurd halt (by simp)
      · exact Quiet.refl t
    exact hpush.trans ((quiet_forRange (fun _ _ _ => copyRow_quiet) h₁).trans (clearRow_quiet h))

lemma scrollDown_quiet (h : t.scrollDown = some t') : Quiet t t' := by
  unfold scrollDown at h
  split at h
  · cases h
    exact Quiet.refl t
  · obtain ⟨t₁, h₁, h⟩ := Option.bind_eq_some_iff.mp h
    have hcopy : ∀ (t : Terminal) (row : Nat) (t' : Terminal),
        ((sub? row 1).bind fun src => t.copyRow row src) = some t' → Quiet t t' := by
      intro t row t' h
      obtain ⟨src, -, h⟩ := Option.bind_eq_some_iff.mp h
      exact copyRow_quiet h
    exact (quiet_forRangeRev hcopy h₁).trans (clearRow_quiet h)

/-- moving the cursor, and what a pending wrap does, is quiet -/
lemma quiet_move (t : Terminal) (row col : Nat) (wrap : Bool) :
    Quiet t { t with cursorRow := row, cursorCol := col, wrapPending := wrap } :=
  ⟨⟨rfl, rfl, rfl, rfl, rfl, rfl, rfl, rfl⟩, fun _ => rfl⟩

lemma lineDown_quiet (h : t.lineDown = some t') : Quiet t t' := by
  unfold lineDown at h
  split at h
  · exact scrollUp_quiet h
  split at h
  all_goals
    cases h
    exact quiet_move t _ _ _

lemma putChar_quiet {c : Char} (h : t.putChar c = some t') : Quiet t t' := by
  unfold putChar at h
  split at h
  · cases h
    exact Quiet.refl t
  obtain ⟨t₁, h₁, h⟩ := Option.bind_eq_some_iff.mp h
  obtain ⟨grid, hgrid, h⟩ := Option.bind_eq_some_iff.mp h
  have hprepare : Quiet t t₁ := by
    unfold prepareForPrintable at h₁
    split at h₁
    · obtain ⟨t₂, h₂, rfl⟩ := Option.map_eq_some_iff.mp h₁
      exact (quiet_move t t.cursorRow 0 t.wrapPending).trans ((lineDown_quiet h₂).trans (quiet_move t₂ _ _ false))
    · cases h₁
      exact Quiet.refl t
  have hset : Quiet t₁ { t₁ with grid } :=
    ⟨⟨rfl, rfl, rfl, rfl, rfl, rfl, rfl, Grid.set_visible hgrid⟩, fun _ => rfl⟩
  refine hprepare.trans (hset.trans ?_)
  split at h
  · obtain ⟨col, -, h⟩ := Option.bind_eq_some_iff.mp h
    cases h
    exact quiet_move _ _ _ true
  · cases h
    exact quiet_move _ _ _ false

/-! ## control sequences -/

lemma eraseDisplay_quiet {mode : Nat} (hmode : mode ≠ 3) (h : t.eraseDisplay mode = some t') : Quiet t t' := by
  unfold eraseDisplay at h
  split at h
  · obtain ⟨t₁, h₁, h⟩ := Option.bind_eq_some_iff.mp h
    split at h
    · obtain ⟨row, -, h⟩ := Option.bind_eq_some_iff.mp h
      exact (clearRegion_quiet h₁).trans (clearRegion_quiet h)
    · cases h
      exact clearRegion_quiet h₁
  · split at h
    · obtain ⟨row, -, h⟩ := Option.bind_eq_some_iff.mp h
      obtain ⟨t₁, h₁, h⟩ := Option.bind_eq_some_iff.mp h
      exact (clearRegion_quiet h₁).trans (clearRegion_quiet h)
    · exact clearRegion_quiet h
  · exact clearRegion_quiet h
  · exact absurd rfl hmode
  · cases h
    exact Quiet.refl t

lemma eraseDisplay_frame {mode : Nat} (h : t.eraseDisplay mode = some t') : Frame t t' := by
  by_cases hmode : mode = 3
  · subst hmode
    obtain ⟨t₁, h₁, h⟩ := Option.bind_eq_some_iff.mp h
    cases h
    exact { (clearRegion_quiet h₁).toFrame with }
  · exact (eraseDisplay_quiet hmode h).toFrame

lemma eraseLine_quiet {mode : Nat} (h : t.eraseLine mode = some t') : Quiet t t' := by
  unfold eraseLine at h
  split at h
  · exact clearRegion_quiet h
  · exact clearRegion_quiet h
  · exact clearRegion_quiet h
  · cases h
    exact Quiet.refl t

lemma insertLines_quiet {n : Nat} (h : t.insertLines n = some t') : Quiet t t' := by
  unfold insertLines at h
  dsimp only at h
  split at h
  · split at h
    · obtain ⟨t₁, h₁, h⟩ := Option.bind_eq_some_iff.mp h
      have hcopy : ∀ (u : Terminal) (r : Nat) (u' : Terminal), ((sub? r (min n (t.scrollBot - t.cursorRow))).bind
          fun src => u.copyRow r src) = some u' → Quiet u u' := by
        intro u r u' h
        obtain ⟨src, -, h⟩ := Option.bind_eq_some_iff.mp h
        exact copyRow_quiet h
      exact (quiet_forRangeRev hcopy h₁).trans (quiet_forRange (fun _ _ _ => clearRow_quiet) h)
    · cases h
      exact Quiet.refl t
  · cases h
    exact Quiet.refl t

lemma deleteLines_quiet {n : Nat} (h : t.deleteLines n = some t') : Quiet t t' := by
  unfold deleteLines at h
  dsimp only at h
  split at h
  · split at h
    · obtain ⟨t₁, h₁, h⟩ := Option.bind_eq_some_iff.mp h
      exact (quiet_forRange (fun _ _ _ => copyRow_quiet) h₁).trans (quiet_forRange (fun _ _ _ => clearRow_quiet) h)
    · cases h
      exact Quiet.refl t
  · cases h
    exact Quiet.refl t

lemma blankCells_quiet {c c' : Nat} {grid : Grid} (hg : grid.cursorVisible = t.grid.cursorVisible)
    (h : t.blankCells c c' grid = some t') : Quiet t t' :=
  quiet_grid h fun _ hgrid => (visible_forRange (fun _ _ _ => Grid.set_visible) hgrid).trans hg

lemma copyCell_visible {g g' : Grid} {row dst src : Nat} (h : copyCell g row dst src = some g') :
    g'.cursorVisible = g.cursorVisible := by
  unfold copyCell at h
  split at h
  · exact Grid.set_visible h
  · cases h
    rfl

lemma insertChars_quiet {n : Nat} (h : t.insertChars n = some t') : Quiet t t' := by
  obtain ⟨grid, hgrid, h⟩ := Option.bind_eq_some_iff.mp h
  refine blankCells_quiet ?_ h
  refine @forRangeRev_rel Grid _ _ _ t.grid (fun g g' => g'.cursorVisible = g.cursorVisible) (fun _ => rfl)
    (fun _ _ _ h h' => h'.trans h) ?_ grid hgrid
  intro g col g' h
  obtain ⟨src, -, h⟩ := Option.bind_eq_some_iff.mp h
  exact copyCell_visible h

lemma deleteChars_quiet {n : Nat} (h : t.deleteChars n = some t') : Quiet t t' := by
  obtain ⟨grid, hgrid, h⟩ := Option.bind_eq_some_iff.mp h
  exact blankCells_quiet (visible_forRange (fun _ _ _ => copyCell_visible) hgrid) h

lemma handleSgr_quiet {parity : Bool} {pv : List Nat} (h : t.handleSgr parity pv = some t') : Quiet t t' := by
  obtain ⟨pen, -, h⟩ := Option.bind_eq_some_iff.mp h
  cases h
  exact ⟨⟨rfl, rfl, rfl, rfl, rfl, rfl, rfl, rfl⟩, fun _ => rfl⟩

lemma setMargins_quiet (t : Terminal) (pv : List Nat) : Quiet t (t.setMargins pv) := by
  unfold setMargins
  generalize (if pv[0]?.getD 0 = 0 then 1 else pv[0]?.getD 0) = top
  generalize (if pv[1]?.getD 0 = 0 then t.rows else pv[1]?.getD 0) = bot
  dsimp only
  split
  all_goals exact ⟨⟨rfl, rfl, rfl, rfl, rfl, rfl, rfl, rfl⟩, fun _ => rfl⟩

lemma respond_quiet (t : Terminal) (reply : String) : Quiet t (t.respond reply) :=
  ⟨⟨rfl, rfl, rfl, rfl, rfl, rfl, rfl, rfl⟩, fun _ => rfl⟩

/-- ED 3 is the only sequence that is not quiet -/
lemma csiAction_quiet {parity : Bool} {pv : List Nat} {intermediates : List UInt8} {action : Char}
    (hed : ¬(action = 'J' ∧ pv[0]?.getD 0 = 3)) (h : t.csiAction parity pv intermediates action = some t') :
    Quiet t t' := by
  unfold csiAction at h
  dsimp only at h
  split at h
  case h_9 => exact eraseDisplay_quiet (fun hmode => hed ⟨rfl, hmode⟩) h
  case h_10 => exact eraseLine_quiet h
  case h_11 => exact insertLines_quiet h
  case h_12 =>
    split at h
    · exact deleteLines_quiet h
    · cases h
      exact Quiet.refl t
  case h_13 => exact quiet_forRange (fun _ _ _ => scrollUp_quiet) h
  case h_14 => exact quiet_forRange (fun _ _ _ => scrollDown_quiet) h
  case h_15 => exact insertChars_quiet h
  case h_16 => exact deleteChars_quiet h
  case h_17 => exact blankCells_quiet rfl h
  case h_18 =>
    cases h
    split
    · exact setMargins_quiet t pv
    · exact Quiet.refl t
  case h_19 | h_20 | h_21 =>
    cases h
    split_ifs
    all_goals first | exact respond_quiet t _ | exact Quiet.refl t
  case h_22 => exact handleSgr_quiet h
  all_goals
    cases h
    exact ⟨⟨rfl, rfl, rfl, rfl, rfl, rfl, rfl, rfl⟩, fun _ => rfl⟩

lemma csiAction_frame {parity : Bool} {pv : List Nat} {intermediates : List UInt8} {action : Char}
    (h : t.csiAction parity pv intermediates action = some t') : Frame t t' := by
  by_cases hed : action = 'J' ∧ pv[0]?.getD 0 = 3
  · obtain ⟨rfl, -⟩ := hed
    exact eraseDisplay_frame h
  · exact (csiAction_quiet hed h).toFrame

/-! ## events -/

/-- the codes that `CSI ? … h` (`on`) or `CSI ? … l` sets or resets -/
def modeCodes (on : Bool) : Event → List Nat
  | .call (.csiDispatch params intermediates _ action) =>
    if intermediates = [0x3f] ∧ action = (if on then 'h' else 'l') then firsts params else []
  | _ => []

/-- the codes of the alternate screen -/
def isAltCode (code : Nat) : Bool := code = 47 || code = 1047 || code = 1049

/-- the event enters the alternate screen (`on`), or leaves it -/
def switches (on : Bool) (e : Event) : Bool := (modeCodes on e).any isAltCode

/-- ED 3 -/
def clearsHistory : Event → Bool
  | .call (.csiDispatch params intermediates _ action) =>
    intermediates ≠ [0x3f] && action = 'J' && (firsts params)[0]?.getD 0 = 3
  | _ => false

def isResize : Event → Bool
  | .resize _ _ => true
  | _ => false

lemma csiDispatch_cases {parity : Bool} {params : List Param} {intermediates : List UInt8} {ignore : Bool}
    {action : Char} {e : Event} (he : e = .call (.csiDispatch params intermediates ignore action))
    (h : t.step parity e = some t') :
    (∃ on, t' = (modeCodes on e).foldl (setPrivateMode on) t ∧ modeCodes (!on) e = []) ∨
    modeCodes true e = [] ∧ modeCodes false e = [] ∧ Frame t t' ∧ (clearsHistory e = false → Quiet t t') := by
  subst he
  have hrun : t.csiDispatch parity params intermediates action = some t' := h
  unfold csiDispatch at hrun
  dsimp only at hrun
  by_cases hq : intermediates = [0x3f]
  · subst hq
    rw [if_pos rfl, Option.some_inj] at hrun
    by_cases hset : action = 'h'
    · subst hset
      exact .inl ⟨true, hrun.symm, rfl⟩
    by_cases hreset : action = 'l'
    · subst hreset
      exact .inl ⟨false, hrun.symm, rfl⟩
    rw [if_neg (by simp [hset, hreset])] at hrun
    subst hrun
    refine .inr ⟨?_, ?_, (Quiet.refl t).toFrame, fun _ => Quiet.refl t⟩
    · exact if_neg fun hx => hset hx.2
    · exact if_neg fun hx => hreset hx.2
  · have hcodes : ∀ on, modeCodes on (.call (.csiDispatch params intermediates ignore action)) = [] :=
      fun on => if_neg fun hx => hq hx.1
    refine .inr ⟨hcodes true, hcodes false, ?_⟩
    have hwrap : Quiet t (if keepsWrap action then t else t.clearPendingWrap) := by
      split
      · exact Quiet.refl t
      · exact quiet_move t t.cursorRow t.cursorCol false
    rw [if_neg hq] at hrun
    split at hrun
    · cases hrun
      exact ⟨(Quiet.refl t).toFrame, fun _ => Quiet.refl t⟩
    · refine ⟨hwrap.toFrame.trans (csiAction_frame hrun), fun hed => hwrap.trans (csiAction_quiet ?_ hrun)⟩
      rintro ⟨rfl, hmode⟩
      simp [clearsHistory, hq, hmode] at hed

/-- an event sets or resets private modes, or resizes, or switches no screen -/
theorem step_cases {parity : Bool} {e : Event} (h : t.step parity e = some t') :
    (∃ on, t' = (modeCodes on e).foldl (setPrivateMode on) t ∧ modeCodes (!on) e = []) ∨
    modeCodes true e = [] ∧ modeCodes false e = [] ∧
      (isResize e = true ∨ Frame t t' ∧ (clearsHistory e = false → Quiet t t')) := by
  have hquiet : Quiet t t' → Frame t t' ∧ (clearsHistory e = false → Quiet t t') :=
    fun hq => ⟨hq.toFrame, fun _ => hq⟩
  cases e with
  | call c =>
    cases c with
    | print c => exact .inr ⟨rfl, rfl, .inr (hquiet (putChar_quiet h))⟩
    | execute byte =>
      refine .inr ⟨rfl, rfl, .inr (hquiet ?_)⟩
      have hrun : t.execute byte = some t' := h
      unfold execute at hrun
      split at hrun
      · exact (quiet_move t t.cursorRow t.cursorCol false).trans (lineDown_quiet hrun)
      all_goals
        cases hrun
        exact quiet_move t _ _ _
    | csiDispatch params intermediates ignore action =>
      rcases csiDispatch_cases rfl h with hmodes | ⟨hset, hreset, hframe⟩
      · exact .inl hmodes
      · exact .inr ⟨hset, hreset, .inr hframe⟩
    | oscDispatch params bell =>
      refine .inr ⟨rfl, rfl, .inr (hquiet ?_)⟩
      obtain rfl : t.oscDispatch params = t' := Option.some.inj h
      unfold oscDispatch
      split
      · split
        all_goals exact ⟨⟨rfl, rfl, rfl, rfl, rfl, rfl, rfl, rfl⟩, fun _ => rfl⟩
      · exact Quiet.refl t
    | escDispatch intermediates ignore byte =>
      refine .inr ⟨rfl, rfl, .inr (hquiet ?_)⟩
      have hrun : t.escDispatch byte = some t' := h
      unfold escDispatch at hrun
      split at hrun
      · cases hrun
        exact ⟨⟨rfl, rfl, rfl, rfl, rfl, rfl, rfl, rfl⟩, fun _ => rfl⟩
      · cases hrun
        exact quiet_move t _ _ false
      · have hwrap := quiet_move t t.cursorRow t.cursorCol false
        dsimp only at hrun
        split at hrun
        · exact hwrap.trans (scrollDown_quiet hrun)
        · obtain ⟨row, -, hrun⟩ := Option.bind_eq_some_iff.mp hrun
          cases hrun
          exact quiet_move t _ _ false
      · cases hrun
        exact Quiet.refl t
  | flush =>
    obtain rfl : { t with grid := t.grid.setCursor t.cursorRow t.cursorCol } = t' := Option.some.inj h
    exact .inr ⟨rfl, rfl, .inr (hquiet ⟨⟨rfl, rfl, rfl, rfl, rfl, rfl, rfl, rfl⟩, fun _ => rfl⟩)⟩
  | resize rows cols => exact .inr ⟨rfl, rfl, .inl rfl⟩

/-! ## the main screen while it is parked -/

lemma setPrivateMode_alt {code : Nat} (on : Bool) (h : isAltCode code = true) :
    t.setPrivateMode on code = if on then t.enterAltScreen else t.exitAltScreen := by
  simp only [isAltCode, Bool.or_eq_true, decide_eq_true_iff] at h
  rcases h with (rfl | rfl) | rfl
  all_goals rfl

/-- any other code sets the flag of the cursor or a mode that nothing on the screens depends on -/
lemma setPrivateMode_other {code : Nat} (on : Bool) (h : isAltCode code = false) :
    ∃ modes focus output, t.setPrivateMode on code = { t with
      grid := { t.grid with cursorVisible := if code = 25 then on else t.grid.cursorVisible }
      mouseModes := modes, focusReporting1004 := focus, synchronizedOutputActive := output } := by
  unfold setPrivateMode
  split
  case h_8 | h_9 | h_10 => exact absurd h (by decide)
  case h_11 hcode _ _ _ _ _ _ _ _ _ => exact ⟨_, _, _, by rw [if_neg hcode]⟩
  all_goals exact ⟨_, _, _, rfl⟩

/-- the same cells in the same places -/
def SameCells (g g' : Grid) : Prop := g'.rows = g.rows ∧ g'.cols = g.cols ∧ g'.cells = g.cells

/-- `u` is on the main screen and shows what `t` shows -/
structure OnMain (t u : Terminal) : Prop where
  main : u.altGrid = none
  rows : u.rows = t.rows
  cols : u.cols = t.cols
  cells : SameCells t.grid u.grid
  cursor : (u.cursorRow, u.cursorCol) = (t.cursorRow, t.cursorCol)
  pen : (u.fg, u.bg, u.attrs) = (t.fg, t.bg, t.attrs)
  history : u.scrollback = t.scrollback

/-- `u` is on the alternate screen and has parked what `t` shows -/
structure Parked (t u : Terminal) : Prop where
  main : ∃ g, u.altGrid = some g ∧ SameCells t.grid g
  rows : u.rows = t.rows
  cols : u.cols = t.cols
  cursor : u.altSavedCursor = (t.cursorRow, t.cursorCol)
  pen : (u.altSavedFg, u.altSavedBg, u.altSavedAttrs) = (t.fg, t.bg, t.attrs)
  history : u.scrollback = t.scrollback

lemma OnMain.refl (hmain : t.altGrid = none) : OnMain t t := ⟨hmain, rfl, rfl, ⟨rfl, rfl, rfl⟩, rfl, rfl, rfl⟩

lemma OnMain.enter (h : OnMain t u) : Parked t u.enterAltScreen := by
  have hmain : ¬u.altGrid.isSome = true := by rw [h.main]; simp
  unfold enterAltScreen
  rw [if_neg hmain]
  exact ⟨⟨u.grid, rfl, h.cells⟩, h.rows, h.cols, h.cursor, h.pen, h.history⟩

lemma Parked.exit (h : Parked t u) (ht : t.Sound limit) : OnMain t u.exitAltScreen := by
  obtain ⟨g, hg, hcells⟩ := h.main
  have hrow := ht.cursorRow
  have hcol := ht.cursorCol
  unfold exitAltScreen
  rw [hg]
  refine ⟨rfl, h.rows, h.cols, hcells, ?_, h.pen, h.history⟩
  dsimp only
  rw [h.cursor, h.rows, h.cols, Nat.min_eq_left hrow, Nat.min_eq_left hcol]

lemma Parked.enter (h : Parked t u) : u.enterAltScreen = u := by
  obtain ⟨g, hg, -⟩ := h.main
  unfold enterAltScreen
  rw [if_pos (by rw [hg]; rfl)]

lemma OnMain.exit (h : OnMain t u) : u.exitAltScreen = u := by
  unfold exitAltScreen
  rw [h.main]

lemma OnMain.other {code : Nat} (h : OnMain t u) (on : Bool) (hcode : isAltCode code = false) :
    OnMain t (u.setPrivateMode on code) := by
  obtain ⟨modes, focus, output, hset⟩ := setPrivateMode_other (t := u) on hcode
  rw [hset]
  exact ⟨h.main, h.rows, h.cols, h.cells, h.cursor, h.pen, h.history⟩

lemma Parked.other {code : Nat} (h : Parked t u) (on : Bool) (hcode : isAltCode code = false) :
    Parked t (u.setPrivateMode on code) := by
  obtain ⟨modes, focus, output, hset⟩ := setPrivateMode_other (t := u) on hcode
  rw [hset]
  exact ⟨h.main, h.rows, h.cols, h.cursor, h.pen, h.history⟩

lemma Parked.set (h : Parked t u) (codes : List Nat) : Parked t (codes.foldl (setPrivateMode true) u) := by
  induction codes generalizing u with
  | nil => exact h
  | cons code codes ih =>
    apply ih
    cases hcode : isAltCode code with
    | false => exact h.other true hcode
    | true =>
      rw [setPrivateMode_alt true hcode, if_pos rfl, h.enter]
      exact h

lemma OnMain.reset (h : OnMain t u) (codes : List Nat) : OnMain t (codes.foldl (setPrivateMode false) u) := by
  induction codes generalizing u with
  | nil => exact h
  | cons code codes ih =>
    apply ih
    cases hcode : isAltCode code with
    | false => exact h.other false hcode
    | true =>
      rw [setPrivateMode_alt false hcode, if_neg Bool.false_ne_true, h.exit]
      exact h

/-- the first code of the alternate screen parks the main one -/
lemma OnMain.enters {codes : List Nat} (h : OnMain t u) (hcodes : codes.any isAltCode = true) :
    Parked t (codes.foldl (setPrivateMode true) u) := by
  induction codes generalizing u with
  | nil => exact absurd hcodes Bool.false_ne_true
  | cons code codes ih =>
    rw [List.foldl_cons]
    cases hcode : isAltCode code with
    | false =>
      rw [List.any_cons, hcode, Bool.false_or] at hcodes
      exact ih (h.other true hcode) hcodes
    | true =>
      rw [setPrivateMode_alt true hcode, if_pos rfl]
      exact h.enter.set codes

/-- the first code of the alternate screen brings the main one back -/
lemma Parked.exits {codes : List Nat} (h : Parked t u) (ht : t.Sound limit) (hcodes : codes.any isAltCode = true) :
    OnMain t (codes.foldl (setPrivateMode false) u) := by
  induction codes generalizing u with
  | nil => exact absurd hcodes Bool.false_ne_true
  | cons code codes ih =>
    rw [List.foldl_cons]
    cases hcode : isAltCode code with
    | false =>
      rw [List.any_cons, hcode, Bool.false_or] at hcodes
      exact ih (h.other false hcode) hcodes
    | true =>
      rw [setPrivateMode_alt false hcode, if_neg Bool.false_ne_true]
      exact (h.exit ht).reset codes

/-- without such a code it stays parked -/
lemma Parked.stays {codes : List Nat} (h : Parked t u) (on : Bool)
    (hcodes : on = true ∨ codes.any isAltCode = false) : Parked t (codes.foldl (setPrivateMode on) u) := by
  cases on with
  | true => exact h.set codes
  | false =>
    have hnone : codes.any isAltCode = false := hcodes.resolve_left Bool.false_ne_true
    induction codes generalizing u with
    | nil => exact h
    | cons code codes ih =>
      rw [List.any_cons, Bool.or_eq_false_iff] at hnone
      exact ih (h.other false hnone.1) (.inr hnone.2) hnone.2

lemma Parked.quiet (h : Parked t u) {u' : Terminal} (hq : Quiet u u') : Parked t u' := by
  obtain ⟨g, hg, hcells⟩ := h.main
  refine ⟨⟨g, hq.parked.trans hg, hcells⟩, hq.rows.trans h.rows, hq.cols.trans h.cols, hq.cursor.trans h.cursor, ?_,
    (hq.history (by rw [hg]; rfl)).trans h.history⟩
  rw [hq.fg, hq.bg, hq.attrs]
  exact h.pen

/-- what may happen on the alternate screen: no exit, no ED 3, no resize -/
def StaysOnAlt (e : Event) : Prop := switches false e = false ∧ clearsHistory e = false ∧ isResize e = false

instance (e : Event) : Decidable (StaysOnAlt e) := inferInstanceAs (Decidable (_ ∧ _ ∧ _))

/-- a step on the alternate screen keeps the main one parked -/
lemma Parked.step {parity : Bool} {e : Event} {u' : Terminal} (h : Parked t u) (he : StaysOnAlt e)
    (hstep : u.step parity e = some u') : Parked t u' := by
  obtain ⟨hexit, hed, hresize⟩ := he
  rcases step_cases hstep with ⟨on, rfl, -⟩ | ⟨-, -, hres | ⟨-, hquiet⟩⟩
  · refine h.stays on ?_
    cases on with
    | true => exact .inl rfl
    | false => exact .inr hexit
  · rw [hres] at hresize
    exact absurd hresize (by simp)
  · exact h.quiet (hquiet hed)

lemma Parked.run {parity : Bool} {es : List Event} {u' : Terminal} (h : Parked t u) (hes : ∀ e ∈ es, StaysOnAlt e)
    (hrun : exec (Terminal.step parity) u es = some u') : Parked t u' := by
  induction es generalizing u with
  | nil =>
    cases hrun
    exact h
  | cons e es ih =>
    obtain ⟨u₁, hstep, hrest⟩ := exec_cons (Terminal.step parity) hrun
    exact ih (h.step (hes e List.mem_cons_self) hstep) (fun e he => hes e (List.mem_cons_of_mem _ he)) hrest

/-- an event that switches the screens sets or resets the codes it has -/
lemma switches_cases {parity on : Bool} {e : Event} (he : switches on e = true) (h : t.step parity e = some t') :
    t' = (modeCodes on e).foldl (setPrivateMode on) t := by
  have hsome : modeCodes on e ≠ [] := fun hnil => by
    rw [switches, hnil] at he
    exact absurd he Bool.false_ne_true
  rcases step_cases h with ⟨on', rfl, hnone⟩ | ⟨hset, hreset, -⟩
  · by_cases heq : on = on'
    · rw [heq]
    · rw [show on = !on' by cases on <;> cases on' <;> simp_all] at hsome
      exact absurd hnone hsome
  · cases on
    · exact absurd hreset hsome
    · exact absurd hset hsome

/-- **Main result.** A terminal on the main screen, an entry into the alternate screen, then any events but an
exit, ED 3 and a resize, then an exit: the terminal is on the main screen and shows what it showed. -/
theorem isolated (h : t.Sound limit) (hmain : t.altGrid = none) (parity : Bool) {enter exit : Event} {es : List Event}
    (henter : switches true enter = true) (hes : ∀ e ∈ es, StaysOnAlt e) (hexit : switches false exit = true) :
    ∃ u, exec (step parity) t (enter :: es ++ [exit]) = some u ∧ OnMain t u := by
  obtain ⟨u, hu, -⟩ : ∃ u, exec (step parity) t (enter :: es ++ [exit]) = some u ∧ u.Sound limit :=
    exec_progress (fun _ e _ h => step_goes h parity e) h
  refine ⟨u, hu, ?_⟩
  obtain ⟨t₂, hmid, hlast⟩ := exec_snoc (step parity) hu
  obtain ⟨t₁, hfirst, hrun⟩ := exec_cons (step parity) hmid
  have hparked : Parked t t₁ := by
    rw [switches_cases henter hfirst]
    exact (OnMain.refl hmain).enters henter
  rw [switches_cases hexit hlast]
  exact (hparked.run hes hrun).exits h hexit

/-- a character drawn in red on the alternate screen, the cursor saved there -/
theorem isolated_new : ∃ u, exec (step false) (new false 2 2 10)
    ([.call (.csiDispatch [⟨1049, []⟩] [0x3f] false 'h'), .call (.csiDispatch [⟨41, []⟩] [] false 'm'),
      .call (.print 'x'), .call (.escDispatch [] false 0x37)] ++
      [.call (.csiDispatch [⟨1049, []⟩] [0x3f] false 'l')]) = some u ∧ OnMain (new false 2 2 10) u :=
  isolated (sound_new false 2 2 10) rfl false (by decide) (by decide) (by decide)

/-! ## the flag of the cursor -/

/-- the flag after the event, if it is the value that was set last -/
def lastVisible (visible : Bool) (e : Event) : Bool :=
  if 25 ∈ modeCodes true e then true else if 25 ∈ modeCodes false e then false else visible

/-- the terminal beside the value that `CSI ? 25 h` and `CSI ? 25 l` set last -/
def trackedStep (parity : Bool) (s : Terminal × Bool) (e : Event) : Option (Terminal × Bool) :=
  (s.1.step parity e).map fun t => (t, lastVisible s.2 e)

/-- the grid has the value that was set last -/
def FlagIsLast (s : Terminal × Bool) : Prop := s.1.grid.cursorVisible = s.2

/-- the codes after the first one of the alternate screen -/
def codesAfterAlt (codes : List Nat) : List Nat := (codes.dropWhile fun code => !isAltCode code).tail

/-- the new grid of an entry shows the cursor, the parked one of an exit has the flag it was left with: that has
to be the value that was set last, unless the same sequence sets it once more -/
def BringsFlag (s : Terminal × Bool) (e : Event) : Prop :=
  (switches true e = true → s.1.altGrid = none → lastVisible s.2 e = true) ∧
    (switches false e = true → ∀ g ∈ s.1.altGrid, 25 ∈ codesAfterAlt (modeCodes false e) ∨
      g.cursorVisible = lastVisible s.2 e)

lemma enterAltScreen_visible (hmain : t.altGrid = none) : t.enterAltScreen.grid.cursorVisible = true ∧
    t.enterAltScreen.altGrid.isSome = true := by
  unfold enterAltScreen
  rw [if_neg (by rw [hmain]; simp)]
  exact ⟨rfl, rfl⟩

/-- setting modes: the flag is set by the code 25 and by an entry -/
lemma visible_set (codes : List Nat) : (codes.foldl (setPrivateMode true) t).grid.cursorVisible =
    (t.grid.cursorVisible || decide (25 ∈ codes) || (t.altGrid.isNone && codes.any isAltCode)) := by
  induction codes generalizing t with
  | nil => simp
  | cons code codes ih =>
    rw [List.foldl_cons, ih]
    cases hcode : isAltCode code with
    | false =>
      obtain ⟨modes, focus, output, hset⟩ := setPrivateMode_other (t := t) true hcode
      rw [hset]
      by_cases h25 : code = 25
      · simp [h25]
      · simp [h25, hcode, Ne.symm h25]
    | true =>
      rw [setPrivateMode_alt true hcode, if_pos rfl]
      cases halt : t.altGrid with
      | none =>
        obtain ⟨hvisible, -⟩ := enterAltScreen_visible halt
        rw [hvisible]
        simp [hcode]
      | some g =>
        have hstay : t.enterAltScreen = t := by
          unfold enterAltScreen
          rw [if_pos (by rw [halt]; rfl)]
        have hne : (25 : Nat) ≠ code := by
          rintro rfl
          exact absurd hcode (by decide)
        rw [hstay, halt]
        simp [hne]

/-- resetting modes on the main screen -/
lemma visible_reset_main (codes : List Nat) (hmain : t.altGrid = none) :
    (codes.foldl (setPrivateMode false) t).grid.cursorVisible = (t.grid.cursorVisible && !decide (25 ∈ codes)) := by
  induction codes generalizing t with
  | nil => simp
  | cons code codes ih =>
    rw [List.foldl_cons]
    cases hcode : isAltCode code with
    | false =>
      obtain ⟨modes, focus, output, hset⟩ := setPrivateMode_other (t := t) false hcode
      rw [hset, ih (by exact hmain)]
      by_cases h25 : code = 25
      · simp [h25]
      · simp [h25, Ne.symm h25]
    | true =>
      have hne : (25 : Nat) ≠ code := by
        rintro rfl
        exact absurd hcode (by decide)
      rw [setPrivateMode_alt false hcode, if_neg Bool.false_ne_true, (OnMain.refl hmain).exit, ih hmain]
      simp [hne]

/-- resetting modes on the alternate screen: an exit brings back the flag of the parked grid -/
lemma visible_reset_alt {g : Grid} (codes : List Nat) (halt : t.altGrid = some g) :
    (codes.foldl (setPrivateMode false) t).grid.cursorVisible =
      if codes.any isAltCode then g.cursorVisible && !decide (25 ∈ codesAfterAlt codes)
      else t.grid.cursorVisible && !decide (25 ∈ codes) := by
  induction codes generalizing t with
  | nil => simp
  | cons code codes ih =>
    rw [List.foldl_cons]
    cases hcode : isAltCode code with
    | false =>
      obtain ⟨modes, focus, output, hset⟩ := setPrivateMode_other (t := t) false hcode
      have hafter : codesAfterAlt (code :: codes) = codesAfterAlt codes := by
        rw [codesAfterAlt, List.dropWhile_cons_of_pos (by rw [hcode]; rfl)]
        rfl
      rw [hset, ih (by exact halt), List.any_cons, hcode, Bool.false_or, hafter]
      by_cases h25 : code = 25
      · simp [h25]
      · simp [h25, Ne.symm h25]
    | true =>
      have hafter : codesAfterAlt (code :: codes) = codes := by
        rw [codesAfterAlt, List.dropWhile_cons_of_neg (by rw [hcode]; exact Bool.false_ne_true)]
        rfl
      have hexit : t.exitAltScreen.altGrid = none ∧ t.exitAltScreen.grid.cursorVisible = g.cursorVisible := by
        unfold exitAltScreen
        rw [halt]
        exact ⟨rfl, rfl⟩
      rw [setPrivateMode_alt false hcode, if_neg Bool.false_ne_true, visible_reset_main codes hexit.1, hexit.2,
        List.any_cons, hcode, Bool.true_or, if_pos rfl, hafter]

/-- the rows that move are those of the main grid, in front or not -/
lemma reflow_visible {rows : Nat} (h : t.reflow rows = some t') :
    t'.altGrid = t.altGrid ∧ t'.grid.cursorVisible = t.grid.cursorVisible := by
  unfold reflow at h
  split at h
  · obtain ⟨⟨lifted, scrollback⟩, -, h⟩ := Option.bind_eq_some_iff.mp h
    obtain ⟨grid, hgrid, h⟩ := Option.bind_eq_some_iff.mp h
    cases h
    rw [setMainRow_altGrid, setMainRow_grid]
    exact ⟨rfl, Grid.growRowsAtTop_visible hgrid⟩
  split at h
  · dsimp only at h
    split at h
    · obtain ⟨⟨evicted, grid⟩, hgrid, h⟩ := Option.bind_eq_some_iff.mp h
      obtain ⟨row, -, h⟩ := Option.bind_eq_some_iff.mp h
      cases h
      rw [setMainRow_altGrid, setMainRow_grid]
      exact ⟨rfl, Grid.shrinkRowsFromTop_visible hgrid⟩
    · cases h
      exact ⟨rfl, rfl⟩
  · cases h
    exact ⟨rfl, rfl⟩

/-- the grid in front after both are resized is the one behind, when there is one -/
lemma resizeGrids_visible {rows cols : Nat} (h : t.resizeGrids rows cols = some t') :
    t'.grid.cursorVisible = (t.altGrid.getD t.grid).cursorVisible := by
  unfold resizeGrids at h
  obtain ⟨main, hmain, h⟩ := Option.bind_eq_some_iff.mp h
  cases halt : t.altGrid with
  | none =>
    simp only [swapGrids, halt] at h
    cases h
    exact Grid.resize_visible hmain
  | some g =>
    simp only [swapGrids, halt] at h
    obtain ⟨grid, hgrid, h⟩ := Option.bind_eq_some_iff.mp h
    cases h
    exact Grid.resize_visible hgrid

/-- a resize leaves the flag alone, whichever grid is in front -/
lemma resize_visible {rows cols : Nat} (h : t.resize rows cols = some t') :
    t'.grid.cursorVisible = t.grid.cursorVisible := by
  obtain ⟨t₁, hreflow, h⟩ := Option.bind_eq_some_iff.mp h
  obtain ⟨t₂, hgrids, h⟩ := Option.bind_eq_some_iff.mp h
  obtain ⟨hparked, hfront⟩ := reflow_visible hreflow
  have hswapped : (t.swapGrids.altGrid.getD t.swapGrids.grid).cursorVisible = t.grid.cursorVisible := by
    unfold swapGrids
    cases halt : t.altGrid with
    | none =>
      dsimp only
      rw [halt]
      rfl
    | some g => rfl
  have hback : t₂.grid.cursorVisible = t.grid.cursorVisible := by
    rw [resizeGrids_visible hgrids, ← hswapped, hparked]
    cases t.swapGrids.altGrid with
    | none => exact hfront
    | some g => rfl
  have hsettled : t'.grid.cursorVisible = t₂.grid.cursorVisible := by
    cases h
    obtain ⟨top, bot, hclamp, -⟩ := clampScrollRegion_spec t₂ rows t.regionIsFullScreen
    rw [hclamp]
    unfold clampCursors
    dsimp only
    split <;> rfl
  exact hsettled.trans hback

lemma lastVisible_set {visible : Bool} {e : Event} (hreset : modeCodes false e = []) :
    lastVisible visible e = (visible || decide (25 ∈ modeCodes true e)) := by
  unfold lastVisible
  rw [hreset]
  by_cases h : 25 ∈ modeCodes true e <;> simp [h]

lemma lastVisible_reset {visible : Bool} {e : Event} (hset : modeCodes true e = []) :
    lastVisible visible e = (visible && !decide (25 ∈ modeCodes false e)) := by
  unfold lastVisible
  rw [hset]
  by_cases h : 25 ∈ modeCodes false e <;> simp [h]

lemma switches_nil {on : Bool} {e : Event} (h : modeCodes on e = []) : switches on e = false := by
  rw [switches, h]
  rfl

/-- one step keeps the flag exactly when the switches it makes bring the right one -/
lemma step_flag_iff {parity : Bool} {s : Terminal × Bool} {e : Event} (h : s.1.Sound limit) (hs : FlagIsLast s) :
    (∀ s' ∈ trackedStep parity s e, FlagIsLast s') ↔ BringsFlag s e := by
  obtain ⟨t, visible⟩ := s
  have hflag : t.grid.cursorVisible = visible := hs
  obtain ⟨t', hstep, -⟩ := step_goes h parity e
  have hnext : (∀ s' ∈ trackedStep parity (t, visible) e, FlagIsLast s')
      ↔ t'.grid.cursorVisible = lastVisible visible e := by
    unfold trackedStep
    dsimp only at hstep ⊢
    rw [hstep]
    simp [FlagIsLast]
  rw [hnext]
  unfold BringsFlag
  dsimp only
  rcases step_cases hstep with ⟨on, rfl, hnone⟩ | ⟨hset, hreset, hrest⟩
  case inr =>
    -- no mode is set or reset
    have hkept : t'.grid.cursorVisible = t.grid.cursorVisible := by
      rcases hrest with hresize | ⟨hframe, -⟩
      · cases e with
        | resize rows cols => exact resize_visible hstep
        | call c => exact absurd hresize Bool.false_ne_true
        | flush => exact absurd hresize Bool.false_ne_true
      · exact hframe.visible
    rw [hkept, hflag, lastVisible_set hreset, hset, switches_nil hset, switches_nil hreset]
    simp
  cases on with
  | true =>
    have hnone : modeCodes false e = [] := hnone
    rw [visible_set, hflag, lastVisible_set hnone, switches_nil hnone]
    show (_ || (t.altGrid.isNone && switches true e)) = _ ↔ _
    cases halt : t.altGrid with
    | some g => simp
    | none => cases switches true e <;> simp
  | false =>
    have hnone : modeCodes true e = [] := hnone
    rw [lastVisible_reset hnone, switches_nil hnone]
    cases halt : t.altGrid with
    | none =>
      rw [visible_reset_main _ halt, hflag]
      simp
    | some g =>
      rw [visible_reset_alt _ halt, hflag]
      show (if switches false e = true then _ else _) = _ ↔ _
      cases switches false e with
      | false => simp
      | true =>
        rw [if_pos rfl]
        have hafter : 25 ∈ codesAfterAlt (modeCodes false e) → 25 ∈ modeCodes false e := fun h25 =>
          (List.dropWhile_sublist _).subset (List.mem_of_mem_tail h25)
        by_cases h25 : 25 ∈ codesAfterAlt (modeCodes false e)
        · simp [h25, hafter h25]
        · simp [h25]

/-- **Main result.** From a new terminal, the grid shows the cursor as `CSI ? 25 h` and `CSI ? 25 l` said last in
every state of a run exactly when every switch of the screens in it brings that flag. -/
theorem cursorVisible_iff (parity : Bool) (rows cols limit : Nat) (es : List Event) :
    Throughout (trackedStep parity) FlagIsLast (new parity rows cols limit, true) es ↔
      Along (trackedStep parity) BringsFlag (new parity rows cols limit, true) es := by
  have hsound : Invariant (trackedStep parity) fun s => s.1.Sound limit := by
    intro s e s' hs hstep
    obtain ⟨t, ht, rfl⟩ := Option.map_eq_some_iff.mp hstep
    obtain ⟨t', ht', hs'⟩ := step_goes hs parity e
    rwa [Option.some.inj (ht.symm.trans ht')]
  exact throughout_iff hsound (fun s e => step_flag_iff) (sound_new parity rows cols limit) rfl

/-- the cursor hidden on the main screen, then the alternate screen -/
def hiddenThenAlt : List Event :=
  [.call (.csiDispatch [⟨25, []⟩] [0x3f] false 'l'), .call (.csiDispatch [⟨1049, []⟩] [0x3f] false 'h')]

/-- there the cursor is shown -/
theorem hiddenThenAlt_shows : ∃ t, exec (step false) (new false 2 2 10) hiddenThenAlt = some t ∧
    hiddenThenAlt.foldl lastVisible true = false ∧ t.grid.cursorVisible = true :=
  ⟨_, rfl, rfl, rfl⟩

end Terminal
end TerminalManager.Core
