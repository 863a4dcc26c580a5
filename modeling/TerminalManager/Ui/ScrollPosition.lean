import TerminalManager.Ui.Invariant

/-!
# The scroll position and the history

* `InHistory`          the view starts inside of the scrollback;
* `inHistory_kept`     output keeps it: a captured line lengthens the history, or replaces one of its
  lines, before the view moves, and erasing the history resets the view;
* `LeavesHistory`      when a resize that lifts lines out of the scrollback leaves enough of them;
* `inHistory_iff`      **main result**: in a run from a new terminal the view stays inside of the
  history exactly when every such resize does.

A resize that grows the screen takes lines out of the scrollback and does not clamp the view again,
as every other operation that shortens the history does.
-/

set_option linter.unusedSectionVars false

namespace TerminalManager.Ui
open Loops Term Transition
namespace Terminal

variable {F : Type} [F32 F] {t : Terminal F}

def InHistory (t : Terminal F) : Prop := t.scrollOffset ≤ t.scrollback.length

instance : Decidable t.InHistory := inferInstanceAs (Decidable (_ ≤ _))

/-! ## output -/

lemma captureTop_inHistory (h : t.InHistory) : t.captureTop.InHistory := by
  unfold captureTop
  dsimp only
  -- the line is in and the oldest one may be out
  obtain ⟨u, hu⟩ : ∃ u : Terminal F, u = if (t.scrollback ++ [t.rowCells t.scrollTop]).length > maxScrollback then
      { t with scrollback := (t.scrollback ++ [t.rowCells t.scrollTop]).drop 1, evictedLines := t.evictedLines + 1 }
    else { t with scrollback := t.scrollback ++ [t.rowCells t.scrollTop] } := ⟨_, rfl⟩
  have hmore : u.InHistory := by
    unfold InHistory at h ⊢
    rw [hu]
    split
    · show t.scrollOffset ≤ (List.drop 1 _).length
      rw [List.length_drop, List.length_append, List.length_singleton]
      omega
    · show t.scrollOffset ≤ (_ ++ _ : List _).length
      rw [List.length_append]
      omega
  rw [← hu]
  split
  · exact hmore
  · exact Nat.min_le_right _ _

lemma scrollUp_inHistory (h : t.InHistory) : t.scrollUp.InHistory := by
  unfold scrollUp
  dsimp only
  split
  · exact h
  obtain ⟨u, hu⟩ : ∃ u, u = if t.scrollTop = 0 ∧ t.altGrid.isNone then t.captureTop else t := ⟨_, rfl⟩
  have hcapture : u.InHistory := by
    rw [hu]
    split
    · exact captureTop_inHistory h
    · exact h
  rw [← hu]
  split
  · exact hcapture
  · exact hcapture

/-- a loop that clears rows has no part in the position -/
lemma clearRows_inHistory {a b : Nat} (h : t.InHistory) : (iter a b (fun t r => t.clearRow r) t).InHistory := by
  apply iter_rule (P := fun _ => InHistory) h
  intro r t _ _ ht
  exact ht

theorem inHistory_kept : Kept fun _ (t : Terminal F) => t.Sound ∧ t.InHistory where
  spend h _ := h
  onScreen h := h.1.onScreen
  beside h hu := by
    refine ⟨sound_kept.beside (n := 0) h.1 hu, ?_⟩
    unfold InHistory
    rw [hu.scrollOffset, hu.scrollback]
    exact h.2
  paint h grid hp := ⟨sound_kept.paint (n := 0) h.1 grid hp, h.2⟩
  scrollUp h := ⟨h.1.scrollUp, scrollUp_inHistory h.2⟩
  scrollDown {_ t} h := by
    refine ⟨h.1.scrollDown, ?_⟩
    unfold scrollDown
    dsimp only
    split_ifs <;> exact h.2
  insertLines {_ t k} h := by
    refine ⟨sound_kept.insertLines (n := 0) h.1, ?_⟩
    unfold insertLines
    dsimp only
    split_ifs
    · exact h.2
    · exact clearRows_inHistory h.2
    · exact clearRows_inHistory h.2
    · exact h.2
  deleteLines {_ t k} h := by
    refine ⟨sound_kept.deleteLines (n := 0) h.1, ?_⟩
    unfold deleteLines
    dsimp only
    split_ifs
    · exact h.2
    · exact clearRows_inHistory h.2
    · exact clearRows_inHistory h.2
    · exact h.2
  enterAltScreen {_ t} h := by
    refine ⟨h.1.enterAltScreen, ?_⟩
    unfold enterAltScreen
    split
    · exact h.2
    · exact Nat.zero_le _
  exitAltScreen {_ t} h := by
    refine ⟨h.1.exitAltScreen, ?_⟩
    unfold exitAltScreen
    split
    · exact h.2
    · exact Nat.zero_le _
  forget h := ⟨sound_kept.forget (n := 0) h.1, Nat.zero_le _⟩

lemma processBytes_inHistory (hs : t.Sound) (h : t.InHistory) (parity : Bool) (calls : List Callback) :
    (t.processBytes parity calls).InHistory := by
  unfold processBytes
  dsimp only
  have hcalls : ∀ u : Terminal F, u.Sound → u.InHistory → (calls.foldl (perform parity) u).InHistory :=
    fun u hs hu => (inHistory_kept.calls (n := 0) parity calls ⟨hs, hu⟩).2
  split
  · exact hcalls _ (ViewOf.sound ⟨_, _, _, _, _, _, rfl⟩ hs) h
  · exact hcalls _ hs h

/-! ## the view -/

@[simp] lemma collapse_scrollOffset : t.collapseScrollAnimation.scrollOffset = t.scrollOffset := by
  unfold collapseScrollAnimation
  split <;> rfl

@[simp] lemma collapse_scrollback : t.collapseScrollAnimation.scrollback = t.scrollback := by
  unfold collapseScrollAnimation
  split <;> rfl

@[simp] lemma rescale_scrollOffset (cellH : F) : (t.rescaleScrollAnimation cellH).scrollOffset = t.scrollOffset := by
  unfold rescaleScrollAnimation
  dsimp only
  split
  · rfl
  · split <;> rfl

@[simp] lemma rescale_scrollback (cellH : F) : (t.rescaleScrollAnimation cellH).scrollback = t.scrollback := by
  unfold rescaleScrollAnimation
  dsimp only
  split
  · rfl
  · split <;> rfl

lemma collapse_inHistory (h : t.InHistory) : t.collapseScrollAnimation.InHistory := by
  simpa [InHistory] using h

lemma rescale_inHistory (h : t.InHistory) (cellH : F) : (t.rescaleScrollAnimation cellH).InHistory := by
  simpa [InHistory] using h

lemma scrollViewUp_inHistory (n : Nat) : (t.scrollViewUp n).InHistory := Nat.min_le_right _ _

lemma scrollViewDown_inHistory (h : t.InHistory) (n : Nat) : (t.scrollViewDown n).InHistory :=
  Nat.le_trans (Nat.sub_le _ _) (collapse_inHistory h)

lemma scrollViewByLines_inHistory (h : t.InHistory) (deltaLines : F) :
    (t.scrollViewByLines deltaLines).2.InHistory := by
  unfold scrollViewByLines
  split
  · exact h
  -- the carry is no part of the position
  have hdrop : ∀ (b : Prop) [Decidable b] (u : Terminal F), u.InHistory →
      (if b then { u with scrollAccumLines := F32.zero } else u).InHistory := by
    intro b _ u hu
    split <;> exact hu
  have hmove : ∀ (u : Terminal F) (whole : Int), u.InHistory →
      (if whole > 0 then u.scrollViewUp whole.toNat
        else if whole < 0 then u.scrollViewDown (-whole).toNat else u).InHistory := by
    intro u whole hu
    split
    · exact scrollViewUp_inHistory _
    split
    · exact scrollViewDown_inHistory hu _
    · exact hu
  apply hdrop
  apply hdrop
  apply hmove
  exact collapse_inHistory h

lemma wholeRows_le (posPx cellH : F) : t.wholeRows posPx cellH ≤ t.scrollback.length := Nat.min_le_right _ _

lemma settleScrollPositionPx_inHistory (posPx cellH : F) : (t.settleScrollPositionPx posPx cellH).InHistory :=
  wholeRows_le posPx cellH

lemma fractionalViewPosition_le : t.fractionalViewPosition.1 ≤ t.scrollOffset := by
  unfold fractionalViewPosition
  dsimp only
  split_ifs
  all_goals first | exact Nat.le_refl _ | exact Nat.sub_le _ _

lemma scrollAnimateByPx_inHistory (h : t.InHistory) (deltaPx : F) (now duration : Nat) (initialSlope cellH : F) :
    (t.scrollAnimateByPx deltaPx now duration initialSlope cellH).2.InHistory := by
  unfold scrollAnimateByPx
  split
  · exact h
  dsimp only
  have hscaled := rescale_inHistory h cellH
  generalize t.rescaleScrollAnimation cellH = u at hscaled
  cases hanim : u.scrollAnim with
  | some m =>
    dsimp only
    split
    · exact hscaled
    · exact settleScrollPositionPx_inHistory _ _
  | none =>
    dsimp only
    split
    · exact Nat.le_trans fractionalViewPosition_le hscaled
    · exact settleScrollPositionPx_inHistory _ _

lemma sampleScrollAnimation_inHistory (h : t.InHistory) (now : Nat) (cellH : F) :
    (t.sampleScrollAnimation now cellH).2.InHistory := by
  unfold sampleScrollAnimation
  split
  · exact h
  split
  · exact h
  dsimp only
  split
  · exact settleScrollPositionPx_inHistory _ _
  · exact wholeRows_le _ _

/-! ## size and content replaced -/

lemma length_pushLine (lines : List (List Cell)) (line : List Cell) : lines.length ≤ (pushLine lines line).length := by
  unfold pushLine
  dsimp only
  split
  · rw [List.length_drop, List.length_append, List.length_singleton]
    omega
  · rw [List.length_append]
    omega

@[simp] lemma setMainRow_scrollOffset (row : Nat) : (t.setMainRow row).scrollOffset = t.scrollOffset := by
  unfold setMainRow
  split <;> rfl

@[simp] lemma swapGrids_scrollOffset : t.swapGrids.scrollOffset = t.scrollOffset := by
  unfold swapGrids
  split <;> rfl

@[simp] lemma swapGrids_scrollback : t.swapGrids.scrollback = t.scrollback := by
  unfold swapGrids
  split <;> rfl

lemma reflow_scrollOffset (rows : Nat) : (t.reflow rows).scrollOffset = t.scrollOffset := by
  unfold reflow
  dsimp only
  split_ifs
  · rw [setMainRow_scrollOffset]
    rfl
  · rw [setMainRow_scrollOffset]
    rfl
  · rfl
  · rfl

/-- growing takes as many lines as there are new rows, shrinking takes none -/
lemma length_reflow_scrollback (rows : Nat) :
    (t.rows < rows → (t.reflow rows).scrollback.length = t.scrollback.length - (rows - t.rows)) ∧
      (rows ≤ t.rows → t.scrollback.length ≤ (t.reflow rows).scrollback.length) := by
  unfold reflow
  dsimp only
  constructor
  · intro hgrow
    rw [if_pos hgrow, setMainRow_scrollback]
    show (List.take _ _).length = _
    rw [List.length_take]
    omega
  · intro hle
    rw [if_neg (Nat.not_lt.mpr hle)]
    split_ifs
    · rw [setMainRow_scrollback]
      apply iter_rule (P := fun _ (lines : List (List Cell)) => t.scrollback.length ≤ lines.length) (Nat.le_refl _)
      intro r lines _ _ hlen
      exact Nat.le_trans hlen (length_pushLine lines _)
    · exact Nat.le_refl _
    · exact Nat.le_refl _

/-- the grids and cursors that a resize leaves behind have no part in the position -/
lemma settle_view (rows cols : Nat) (full : Bool) (t : Terminal F) :
    ((((t.resizeGrids rows cols).clampScrollRegionAfterResize rows full).clampCursors rows cols).syncCursor).scrollOffset
      = t.scrollOffset ∧
    ((((t.resizeGrids rows cols).clampScrollRegionAfterResize rows full).clampCursors rows cols).syncCursor).scrollback
      = t.scrollback := by
  obtain ⟨top, bot, parked, heq, -⟩ := settle_eq (t.resizeGrids rows cols) rows cols full
  rw [heq]
  unfold resizeGrids swapGrids
  dsimp only
  cases t.altGrid with
  | none => exact ⟨rfl, rfl⟩
  | some alt => exact ⟨rfl, rfl⟩

lemma resize_view (rows cols : Nat) : (t.resize rows cols).scrollOffset = t.scrollOffset ∧
    (t.rows < rows → (t.resize rows cols).scrollback.length = t.scrollback.length - (rows - t.rows)) ∧
    (rows ≤ t.rows → t.scrollback.length ≤ (t.resize rows cols).scrollback.length) := by
  obtain ⟨u, hu⟩ : ∃ u, u = if rows ≠ t.rows ∨ cols ≠ t.cols then t.collapseScrollAnimation else t := ⟨_, rfl⟩
  have hsame : u.scrollOffset = t.scrollOffset ∧ u.scrollback = t.scrollback ∧ u.rows = t.rows := by
    rw [hu]
    split
    · refine ⟨collapse_scrollOffset, collapse_scrollback, ?_⟩
      unfold collapseScrollAnimation
      split <;> rfl
    · exact ⟨rfl, rfl, rfl⟩
  obtain ⟨hoffset, hlines, hrows⟩ := hsame
  obtain ⟨hoffset', hlines'⟩ := settle_view rows cols u.regionIsFullScreen (u.swapGrids.reflow rows)
  have hlen := length_reflow_scrollback (t := u.swapGrids) rows
  rw [swapGrids_rows, swapGrids_scrollback, hlines, hrows] at hlen
  unfold resize
  rw [← hu]
  dsimp only
  rw [hoffset', hlines', reflow_scrollOffset, swapGrids_scrollOffset, hoffset]
  exact ⟨rfl, hlen⟩

/-- a resize that grows the screen lifts lines, and the view has to start in the part that is left -/
def LeavesHistory (t : Terminal F) : Op F → Prop
  | .resize rows _ => t.rows < rows → t.scrollOffset ≤ t.scrollback.length - (rows - t.rows)
  | _ => True

instance LeavesHistory.decidable (t : Terminal F) : ∀ op, Decidable (t.LeavesHistory op)
  | .resize rows _ => inferInstanceAs (Decidable (t.rows < rows → t.scrollOffset ≤ t.scrollback.length - (rows - t.rows)))
  | .call _ | .processBytes _ | .resizeViewportGrowth _ _ | .applySnapshot _ | .scrollViewUp _ | .scrollViewDown _
  | .scrollViewByLines _ | .scrollAnimateByPx _ _ _ _ _ | .sampleScrollAnimation _ _ | .resetScroll
  | .publishCellH _ => instDecidableTrue

lemma resize_inHistory_iff (h : t.InHistory) (rows cols : Nat) :
    (t.resize rows cols).InHistory ↔ t.LeavesHistory (.resize rows cols) := by
  obtain ⟨hoffset, hgrow, hshrink⟩ := resize_view (t := t) rows cols
  unfold InHistory at h ⊢
  rw [hoffset]
  show _ ↔ (t.rows < rows → _)
  by_cases hr : t.rows < rows
  · rw [hgrow hr]
    exact ⟨fun hle _ => hle, fun hle => hle hr⟩
  · have hlen := hshrink (Nat.le_of_not_lt hr)
    exact ⟨fun _ hlt => absurd hlt hr, fun _ => Nat.le_trans h hlen⟩

lemma resizeViewportGrowth_inHistory (h : t.InHistory) (rows cols : Nat) :
    (t.resizeViewportGrowth rows cols).InHistory := by
  unfold resizeViewportGrowth
  split
  next hle => exact (resize_inHistory_iff h rows cols).mpr fun hlt => absurd hlt (Nat.not_lt.mpr hle)
  next =>
    dsimp only
    obtain ⟨top, bot, parked, heq, -⟩ := settle_eq { t.collapseScrollAnimation with
      grid := t.collapseScrollAnimation.grid.resize rows cols
      altGrid := t.collapseScrollAnimation.altGrid.map fun (alt : CellGrid) => alt.resize rows cols
      rows, cols } rows cols t.collapseScrollAnimation.regionIsFullScreen
    rw [heq]
    exact collapse_inHistory h

lemma applySnapshot_inHistory (s : Snapshot) : (t.applySnapshot s).InHistory := Nat.zero_le _

/-- what one operation does to the position -/
theorem apply_inHistory_iff (hs : t.Sound) (h : t.InHistory) (parity : Bool) (op : Op F) :
    (t.apply parity op).InHistory ↔ t.LeavesHistory op := by
  cases op with
  | call c => exact iff_of_true (perform_kept (n := 0) inHistory_kept parity c ⟨hs, h⟩).2 trivial
  | processBytes calls => exact iff_of_true (processBytes_inHistory hs h parity calls) trivial
  | resize rows cols => exact resize_inHistory_iff h rows cols
  | resizeViewportGrowth rows cols => exact iff_of_true (resizeViewportGrowth_inHistory h rows cols) trivial
  | applySnapshot s => exact iff_of_true (applySnapshot_inHistory s) trivial
  | scrollViewUp n => exact iff_of_true (scrollViewUp_inHistory n) trivial
  | scrollViewDown n => exact iff_of_true (scrollViewDown_inHistory h n) trivial
  | scrollViewByLines deltaLines => exact iff_of_true (scrollViewByLines_inHistory h deltaLines) trivial
  | scrollAnimateByPx deltaPx now duration initialSlope cellH =>
    exact iff_of_true (scrollAnimateByPx_inHistory h deltaPx now duration initialSlope cellH) trivial
  | sampleScrollAnimation now cellH => exact iff_of_true (sampleScrollAnimation_inHistory h now cellH) trivial
  | resetScroll => exact iff_of_true (Nat.zero_le _) trivial
  | publishCellH cellH => exact iff_of_true h trivial

/-- **Main result.** In a run from a new terminal the view stays inside of the history exactly when
every resize that lifts lines into the screen leaves those the view starts in. -/
theorem inHistory_iff (parity : Bool) (rows cols : Nat) (ops : List (Op F)) :
    Throughout (next parity) InHistory (new parity rows cols) ops
      ↔ Along (next parity) LeavesHistory (new parity rows cols) ops := by
  apply throughout_iff (sound_invariant parity)
  · intro t op hs ht
    rw [← apply_inHistory_iff hs ht parity op]
    exact ⟨fun h => h _ rfl, fun h u hu => by cases hu; exact h⟩
  · exact sound_new parity rows cols
  · exact Nat.le_refl 0

/-- one line of history, scrolled to, then lifted into the screen -/
theorem scrollOffset_beyond_history : ∃ t : Terminal ℚ,
    exec (@next ℚ exactF32 false) (@new ℚ exactF32 false 1 1)
      [.processBytes [.execute 0x0a], .scrollViewUp 1, .resize 2 1] = some t ∧
    ¬ t.scrollOffset ≤ t.scrollback.length := by
  refine ⟨_, rfl, ?_⟩
  decide

end Terminal
end TerminalManager.Ui
