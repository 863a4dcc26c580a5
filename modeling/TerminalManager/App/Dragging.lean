import TerminalManager.App.Boot
import TerminalManager.App.Effects

/-!
# Dragging the divider of two panes

A divider drag moves ratio between two neighbours, between a minimum for each.

* `applyRatioDelta`      the two ratios after a drag; none where `f32::clamp` panics;
* `dragStep`             the operations on panes and the events of a drag as one step function;
* `Roomy`                every ratio is positive, two neighbours have room for two minima;
* `drags_have_room`      over exact ratios a run never panics and is roomy throughout exactly when it halves
                         no ratio below two minima.
-/

namespace TerminalManager.App
open Ui (F32)
open Transition

section
variable {F : Type} [F32 F]

/-- `0.1` -/
def MIN_PANE_RATIO : F := F32.div F32.one (F32.ofNat 10)

/-- `f32::clamp`, which panics when the bounds are the wrong way round -/
def clampBetween (x lo hi : F) : Option F := if F32.le lo hi then some (F32.clamp x lo hi) else none

/-- `initial` is the snapshot of the drag start; none where an index is out of range or the clamp panics -/
def applyRatioDelta (ratios : List F) (beforeIdx afterIdx : Nat) (initial : List F) (deltaPx containerPx : F) :
    Option (List F) :=
  if F32.le containerPx F32.zero then
    some ratios
  else do
    let totalRatio := initial.foldl F32.add F32.zero
    let deltaRatio := F32.mul (F32.div deltaPx containerPx) totalRatio
    let before ← initial[beforeIdx]?
    let after ← initial[afterIdx]?
    let pairSum := F32.add before after
    let newBefore ← clampBetween (F32.add before deltaRatio) MIN_PANE_RATIO (F32.sub pairSum MIN_PANE_RATIO)
    if ratios.length ≤ beforeIdx ∨ ratios.length ≤ afterIdx then
      none
    else
      some ((ratios.set beforeIdx newBefore).set afterIdx (F32.sub pairSum newBefore))

end

structure ResizeDragSnapshot (F : Type) where
  /-- between columns, else between rows -/
  horizontal : Bool
  rowIdx : Nat
  /-- the column before the divider, when it is between columns -/
  colIdx : Nat
  initialRatios : List F
  containerSize : F

/-- the app state, and the drag that is on -/
structure Dragged (F : Type) where
  state : AppState F
  resizeDrag : Option (ResizeDragSnapshot F)

/-- the operations that open tabs and arrange panes -/
def Op.arranges : Op → Bool
  | .addTab _ | .addWorktreeTab _ _ | .addEditorTab _ | .addFlowTab _ | .addAgentTab _ _ | .splitRight _ _ | .splitDown _ _
  | .closePane _ | .extract _ _ | .dropSplit _ _ _ | .moveToEdge _ _ _ | .switchTab _ => true
  | _ => false

inductive DragEvent (F : Type)
  | op (op : {op : Op // op.arranges = true})
  | colStart (rowIdx colIdx : Nat) (container : F)
  | rowStart (rowIdx : Nat) (container : F)
  | update (deltaX deltaY : F)
  | stop

section
variable {F : Type} [F32 F]

/-- a drag update, on the live layout alone -/
def AppState.dragUpdate (s : AppState F) (drag : ResizeDragSnapshot F) (deltaX deltaY : F) : Option (AppState F) :=
  if drag.horizontal then do
    let ratios ← s.live.colRatios[drag.rowIdx]?
    let ratios ← applyRatioDelta ratios drag.colIdx (drag.colIdx + 1) drag.initialRatios deltaX drag.containerSize
    some { s with live := { s.live with colRatios := s.live.colRatios.set drag.rowIdx ratios } }
  else do
    let ratios ←
      applyRatioDelta s.live.rowRatios drag.rowIdx (drag.rowIdx + 1) drag.initialRatios deltaY drag.containerSize
    some { s with live := { s.live with rowRatios := ratios } }

def dragStep (d : Dragged F) : DragEvent F → Option (Dragged F)
  | .op op => (step d.state op.1).map ({ d with state := · })
  | .colStart rowIdx colIdx container =>
    d.state.live.colRatios[rowIdx]?.map fun ratios => { d with resizeDrag := some ⟨true, rowIdx, colIdx, ratios, container⟩ }
  | .rowStart rowIdx container =>
    some { d with resizeDrag := some ⟨false, rowIdx, 0, d.state.live.rowRatios, container⟩ }
  | .update deltaX deltaY =>
    match d.resizeDrag with
    | none => some d
    | some drag => (d.state.dragUpdate drag deltaX deltaY).map ({ d with state := · })
  | .stop => some { d with resizeDrag := none }

end

/-! ## layouts that all meet a property -/

namespace AppState
section
variable {F : Type}

/-- the live layout and the stored ones meet `P` -/
structure Everywhere (P : PaneLayout F → Prop) (s : AppState F) : Prop where
  live : P s.live
  tabs : ∀ t ∈ s.tabs, P t.layout
  workspaces : ∀ ws ∈ s.workspaces, ∀ t ∈ ws.tabs, P t.layout

variable {P : PaneLayout F → Prop}

lemma Everywhere.withLive {s : AppState F} (hs : s.Everywhere P) {live : PaneLayout F} (h : P live) :
    Everywhere P { s with live } := ⟨h, hs.tabs, hs.workspaces⟩

lemma everywhere_modify {tabs : List (TerminalTab F)} (hs : ∀ t ∈ tabs, P t.layout) (i : Nat)
    {f : TerminalTab F → TerminalTab F} (hf : ∀ t ∈ tabs, P (f t).layout) : ∀ t ∈ tabs.modify i f, P t.layout := by
  intro t ht
  cases hi : tabs[i]? with
  | none =>
    rw [List.modify_eq_self (List.getElem?_eq_none_iff.mp hi)] at ht
    exact hs t ht
  | some x =>
    rcases mem_of_mem_modify hi ht with rfl | ht
    · exact hf x (List.mem_of_getElem? hi)
    · exact hs t ht

lemma Everywhere.saved {s : AppState F} (hs : s.Everywhere P) : s.saveTabState.Everywhere P :=
  ⟨hs.live, everywhere_modify hs.tabs _ fun _ _ => hs.live, hs.workspaces⟩

lemma Everywhere.cleared {s : AppState F} (hs : s.Everywhere P) (h : P .empty) : s.clearTabs.Everywhere P :=
  ⟨h, fun t ht => by (cases ht), hs.workspaces⟩

/-- the focus does not matter to `P` -/
lemma Everywhere.loads {s t : AppState F} (hs : s.Everywhere P)
    (hfocus : ∀ (l : PaneLayout F) (id : PaneId), P l → P { l with activePane := id }) {i : Nat} (h : Loads s i t) :
    t.Everywhere P := by
  cases h with
  | plain htab => exact ⟨hs.tabs _ (List.mem_of_getElem? htab), hs.tabs, hs.workspaces⟩
  | refocused htab hid =>
    exact ⟨hfocus _ _ (hs.tabs _ (List.mem_of_getElem? htab)),
      everywhere_modify hs.tabs _ fun t ht => hfocus _ _ (hs.tabs t ht), hs.workspaces⟩

end
end AppState

/-! ## exact ratios -/

section

local instance exactRatios : F32 ℚ := Ui.exactF32

lemma minPaneRatio : ( MIN_PANE_RATIO : ℚ) = 1 / 10 := by
  show ((1 : ℕ) : ℚ) / ((10 : ℕ) : ℚ) = 1 / 10
  norm_num

/-- every ratio is positive, and two neighbours have room for two minima -/
def Room (ratios : List ℚ) : Prop :=
  (∀ r ∈ ratios, 0 < r) ∧
    ∀ i a b, ratios[i]? = some a → ratios[i + 1]? = some b → 2 * MIN_PANE_RATIO ≤ a + b

/-- no ratio is below the minimum -/
def Wide (ratios : List ℚ) : Prop := ∀ r ∈ ratios, MIN_PANE_RATIO ≤ r

lemma Wide.room {ratios : List ℚ} (h : Wide ratios) : Room ratios := by
  constructor
  · intro r hr
    have hwide := h r hr
    rw [minPaneRatio] at hwide
    linarith
  · intro i a b ha hb
    have hwa := h a (List.mem_of_getElem? ha)
    have hwb := h b (List.mem_of_getElem? hb)
    linarith

lemma Wide.absorb {ratios : List ℚ} (h : Wide ratios) (idx : Nat) {closed : ℚ} (hclosed : MIN_PANE_RATIO ≤ closed) :
    Wide (PaneLayout.absorb (ratios.eraseIdx idx) idx closed) := by
  intro r hr
  have herase : Wide (ratios.eraseIdx idx) := fun r hr => h r (List.mem_of_mem_eraseIdx hr)
  unfold PaneLayout.absorb at hr
  cases hi : (ratios.eraseIdx idx)[idx - 1]? with
  | none =>
    rw [List.modify_eq_self (List.getElem?_eq_none_iff.mp hi)] at hr
    exact herase r hr
  | some x =>
    rcases mem_of_mem_modify hi hr with rfl | hr
    · have hx := herase x (List.mem_of_getElem? hi)
      show MIN_PANE_RATIO ≤ x + closed
      rw [minPaneRatio] at hclosed hx ⊢
      linarith
    · exact herase r hr

/-- the ratio at `c` halved, and its other half beside it -/
lemma Wide.halve {ratios : List ℚ} (h : Wide ratios) {c pos : Nat} {x : ℚ} (hx : ratios[c]? = some x)
    (hpos : pos = c ∨ pos = c + 1) :
    (2 * MIN_PANE_RATIO ≤ x → Wide ((ratios.set c (PaneLayout.halve x)).insertIdx pos (PaneLayout.halve x))) ∧
      (Room ((ratios.set c (PaneLayout.halve x)).insertIdx pos (PaneLayout.halve x)) → 2 * MIN_PANE_RATIO ≤ x) := by
  have hhalf : PaneLayout.halve x = x / 2 := by
    show x / ((2 : ℕ) : ℚ) = x / 2
    norm_num
  obtain ⟨hc, -⟩ := List.getElem?_eq_some_iff.mp hx
  have hset : (ratios.set c (PaneLayout.halve x))[c]? = some (PaneLayout.halve x) := List.getElem?_set_self hc
  constructor
  · intro hroom r hr
    have hwide : MIN_PANE_RATIO ≤ PaneLayout.halve x := by
      rw [hhalf]
      linarith
    rcases List.eq_or_mem_of_mem_insertIdx hr with rfl | hr
    · exact hwide
    · rcases List.mem_or_eq_of_mem_set hr with hr | rfl
      · exact h r hr
      · exact hwide
  · intro hroom
    have hsum := hroom.2 c (PaneLayout.halve x) (PaneLayout.halve x) ?_ ?_
    · rw [hhalf] at hsum
      linarith
    · rcases hpos with rfl | rfl
      · rw [List.getElem?_insertIdx_self, List.length_set, if_pos (Nat.le_of_lt hc)]
      · rw [List.getElem?_insertIdx_of_lt (Nat.lt_succ_self c), hset]
    · rcases hpos with rfl | rfl
      · rw [List.getElem?_insertIdx_of_gt (Nat.lt_succ_self _)]
        exact hset
      · rw [List.getElem?_insertIdx_self, List.length_set, if_pos (Nat.succ_le_of_lt hc)]

namespace PaneLayout

/-- the ratios of the rows and those of the columns -/
def Roomy (l : PaneLayout ℚ) : Prop := Room l.rowRatios ∧ ∀ ratios ∈ l.colRatios, Room ratios

def Wide (l : PaneLayout ℚ) : Prop := App.Wide l.rowRatios ∧ ∀ ratios ∈ l.colRatios, App.Wide ratios

/-- the ratio that gives half to a pane put in at `edge` has room for two -/
def HasRoom (l : PaneLayout ℚ) (r c : Nat) : DropZone → Prop
  | .left | .right => ∀ x, Ragged.cell? l.colRatios r c = some x → 2 * MIN_PANE_RATIO ≤ x
  | .top | .bottom => ∀ x, l.rowRatios[r]? = some x → 2 * MIN_PANE_RATIO ≤ x
  | .center => True

lemma Wide.roomy {l : PaneLayout ℚ} (h : l.Wide) : l.Roomy := ⟨h.1.room, fun ratios hratios => (h.2 ratios hratios).room⟩

lemma wide_one : App.Wide [(F32.one : ℚ)] := by
  intro r hr
  rw [List.mem_singleton.mp hr, minPaneRatio]
  show (1 : ℚ) / 10 ≤ ((1 : ℕ) : ℚ)
  norm_num

lemma wide_single (p : Pane) : (single p : PaneLayout ℚ).Wide :=
  ⟨wide_one, fun ratios hratios => by rw [List.mem_singleton.mp hratios]; exact wide_one⟩

lemma wide_empty : (empty : PaneLayout ℚ).Wide := ⟨fun r hr => by (cases hr), fun ratios hratios => by (cases hratios)⟩

lemma wide_modify {rows : List (List ℚ)} (h : ∀ ratios ∈ rows, App.Wide ratios) {r : Nat} {ratios : List ℚ}
    (hr : rows[r]? = some ratios) {f : List ℚ → List ℚ} (hf : App.Wide (f ratios)) :
    ∀ ratios ∈ rows.modify r f, App.Wide ratios := by
  intro ratios' hmem
  rcases mem_of_mem_modify hr hmem with rfl | hmem
  · exact hf
  · exact h ratios' hmem

/-- a pane that is taken out gives its ratio to a neighbour -/
lemma Wide.detach {l l' : PaneLayout ℚ} (hl : l.Wide) {r c : Nat} (h : l.detach r c = some l') : l'.Wide := by
  unfold PaneLayout.detach at h
  obtain ⟨closed, hclosed, h⟩ := Option.bind_eq_some_iff.mp h
  obtain ⟨row, -, h⟩ := Option.bind_eq_some_iff.mp h
  obtain ⟨ratios, hratios, hc⟩ := Ragged.cell?_eq_some.mp hclosed
  have hwide := hl.2 ratios (List.mem_of_getElem? hratios)
  split_ifs at h
  · obtain ⟨closedRow, hclosedRow, h⟩ := Option.bind_eq_some_iff.mp h
    rw [← Option.some.inj h]
    exact ⟨hl.1.absorb r (hl.1 _ (List.mem_of_getElem? hclosedRow)),
      fun ratios hratios => hl.2 ratios (List.mem_of_mem_eraseIdx hratios)⟩
  · rw [← Option.some.inj h]
    exact ⟨hl.1, wide_modify hl.2 hratios (hwide.absorb c (hwide _ (List.mem_of_getElem? hc)))⟩

lemma Wide.attachColumn {l l' : PaneLayout ℚ} (hl : l.Wide) {r c pos : Nat} (hpos : pos = c ∨ pos = c + 1) {p : Pane}
    (h : l.attachColumn r c pos p = some l') :
    ((∀ x, Ragged.cell? l.colRatios r c = some x → 2 * MIN_PANE_RATIO ≤ x) → l'.Wide) ∧
      (l'.Roomy → ∀ x, Ragged.cell? l.colRatios r c = some x → 2 * MIN_PANE_RATIO ≤ x) := by
  unfold PaneLayout.attachColumn at h
  obtain ⟨existing, hexisting, h⟩ := Option.bind_eq_some_iff.mp h
  obtain ⟨row, -, h⟩ := Option.bind_eq_some_iff.mp h
  obtain ⟨ratios, hratios, hc⟩ := Ragged.cell?_eq_some.mp hexisting
  obtain ⟨hhalve, hback⟩ := (hl.2 ratios (List.mem_of_getElem? hratios)).halve hc hpos
  split_ifs at h
  rw [← Option.some.inj h]
  constructor
  · intro hroom
    exact ⟨hl.1, wide_modify hl.2 hratios (hhalve (hroom existing hexisting))⟩
  · intro hroomy x hx
    obtain rfl : existing = x := Option.some.inj (hexisting.symm.trans hx)
    refine hback (hroomy.2 _ (List.mem_of_getElem? (i := r) ?_))
    show (l.colRatios.modify r _)[r]? = some _
    rw [List.getElem?_modify_eq, hratios]
    rfl

lemma Wide.attachRow {l l' : PaneLayout ℚ} (hl : l.Wide) {r pos : Nat} (hpos : pos = r ∨ pos = r + 1) {p : Pane}
    (h : l.attachRow r pos p = some l') :
    ((∀ x, l.rowRatios[r]? = some x → 2 * MIN_PANE_RATIO ≤ x) → l'.Wide) ∧
      (l'.Roomy → ∀ x, l.rowRatios[r]? = some x → 2 * MIN_PANE_RATIO ≤ x) := by
  unfold PaneLayout.attachRow at h
  obtain ⟨existing, hexisting, h⟩ := Option.bind_eq_some_iff.mp h
  obtain ⟨hhalve, hback⟩ := hl.1.halve hexisting hpos
  split_ifs at h
  rw [← Option.some.inj h]
  constructor
  · intro hroom
    refine ⟨hhalve (hroom existing hexisting), fun ratios hratios => ?_⟩
    rcases List.eq_or_mem_of_mem_insertIdx hratios with rfl | hratios
    · exact wide_one
    · exact hl.2 ratios hratios
  · intro hroomy x hx
    obtain rfl : existing = x := Option.some.inj (hexisting.symm.trans hx)
    exact hback hroomy.1

/-- a pane that is put in takes half of a ratio -/
lemma Wide.attach {l l' : PaneLayout ℚ} (hl : l.Wide) {r c : Nat} {edge : DropZone} {p : Pane}
    (h : l.attach r c edge p = some l') : (l.HasRoom r c edge → l'.Wide) ∧ (l'.Roomy → l.HasRoom r c edge) := by
  cases edge with
  | left => exact hl.attachColumn (.inl rfl) h
  | right => exact hl.attachColumn (.inr rfl) h
  | top => exact hl.attachRow (.inl rfl) h
  | bottom => exact hl.attachRow (.inr rfl) h
  | center =>
    obtain rfl := Option.some.inj h
    exact ⟨fun _ => hl, fun _ => trivial⟩

lemma Wide.removePane {l l' : PaneLayout ℚ} (hl : l.Wide) {r c : Nat} {target : PaneId}
    (h : l.removePane r c target = some l') : l'.Wide := by
  unfold PaneLayout.removePane at h
  obtain ⟨m, hm, h⟩ := Option.bind_eq_some_iff.mp h
  have hwide := hl.detach hm
  split_ifs at h
  · unfold PaneLayout.refocus at h
    obtain ⟨row, -, h⟩ := Option.bind_eq_some_iff.mp h
    obtain ⟨p, -, h⟩ := Option.bind_eq_some_iff.mp h
    rw [← Option.some.inj h]
    exact hwide
  · exact Option.some.inj h ▸ hwide

lemma Wide.focus (l : PaneLayout ℚ) (id : PaneId) (h : l.Wide) : Wide { l with activePane := id } := h

end PaneLayout

namespace AppState

/-- where the operation halves a ratio, there is room for two minima -/
def KeepsRoom (s : AppState ℚ) : Op → Prop
  | .splitRight target _ =>
    ∀ r c, s.live.findPaneCoord target = some (r, c) → s.live.rowLength r < MAX_COLS → s.live.HasRoom r c .right
  | .splitDown target _ =>
    ∀ r c, s.live.findPaneCoord target = some (r, c) → s.live.panes.length < MAX_ROWS → s.live.HasRoom r c .bottom
  | .dropSplit sourceTabId target edge =>
    ∀ idx p r c, s.dragSource sourceTabId = some (some (idx, p)) → p.id ≠ target →
      s.live.findPaneCoord target = some (r, c) → s.live.HasRoom r c edge
  | .moveToEdge source target edge =>
    source ≠ target → edge ≠ .center → (s.live.findPaneCoord target).isSome → ∀ r c live r' c',
      s.live.findPaneCoord source = some (r, c) → s.live.detach r c = some live →
      live.findPaneCoord target = some (r', c') → live.HasRoom r' c' edge
  | _ => True

lemma Everywhere.openTab {s : AppState ℚ} (hs : s.Everywhere PaneLayout.Wide) (title subtitle : String)
    (side : PaneTables) : Everywhere PaneLayout.Wide { s.openTab title subtitle with side } := by
  refine ⟨PaneLayout.wide_single _, fun t ht => ?_, hs.workspaces⟩
  rcases List.mem_append.mp ht with ht | ht
  · exact hs.saved.tabs t ht
  · rw [List.mem_singleton.mp ht]
    exact PaneLayout.wide_single _

lemma Everywhere.closeTab {s t : AppState ℚ} (hs : s.Everywhere PaneLayout.Wide) {idx : Nat}
    (h : s.mutateCloseTab idx = some t) : t.Everywhere PaneLayout.Wide := by
  have hcut (side : PaneTables) (activeTab : Nat) :
      Everywhere PaneLayout.Wide { s with side, tabs := s.tabs.eraseIdx idx, activeTab } :=
    ⟨hs.live, fun t ht => hs.tabs t (List.mem_of_mem_eraseIdx ht), hs.workspaces⟩
  obtain ⟨-, rfl⟩ | ⟨-, ids, -, ⟨-, rfl⟩ | ⟨-, i, hload⟩ | ⟨-, -, rfl⟩⟩ := mutateCloseTab_cases h
  · exact hs
  · exact (hcut _ s.activeTab).cleared PaneLayout.wide_empty
  · exact (hcut _ s.activeTab).loads PaneLayout.Wide.focus hload
  · exact hcut _ _

/-- the panes of the live layout replaced, and the active tab synced -/
lemma Everywhere.relive {s : AppState ℚ} (hs : s.Everywhere PaneLayout.Wide) {live : PaneLayout ℚ} (h : live.Wide)
    (side : PaneTables) : (syncLiveTabFromPanes { s with side, live }).Everywhere PaneLayout.Wide :=
  ⟨h, everywhere_modify hs.tabs _ fun _ _ => h, hs.workspaces⟩

lemma Everywhere.closePane {s t : AppState ℚ} (hs : s.Everywhere PaneLayout.Wide) {target : PaneId}
    (h : s.mutateClosePane target = some t) : t.Everywhere PaneLayout.Wide := by
  unfold mutateClosePane at h
  cases hfind : s.live.findPaneCoord target with
  | none =>
    rw [hfind] at h
    exact Option.some.inj h ▸ hs
  | some rc =>
    rw [hfind] at h
    dsimp only at h
    by_cases hcount : s.live.paneCount = 1
    · rw [if_pos hcount] at h
      exact hs.closeTab h
    · rw [if_neg hcount] at h
      obtain ⟨live, hlive, h⟩ := Option.bind_eq_some_iff.mp h
      have hrelive := hs.relive (hs.live.removePane hlive) (s.side.closePaneTables target)
      by_cases hactive : s.live.activePane = target
      · rw [if_pos hactive] at h
        obtain ⟨i, hload⟩ := loadTabAfterClose_cases h
        exact hrelive.loads PaneLayout.Wide.focus hload
      · rw [if_neg hactive] at h
        exact Option.some.inj h ▸ hrelive

/-- a tab of one pane put in at `i` and loaded -/
lemma Everywhere.insertTab {s t : AppState ℚ} (hs : s.Everywhere PaneLayout.Wide) {i j : Nat} {p : Pane}
    {title subtitle : String}
    (h : loadTabState { s with tabs := s.tabs.insertIdx i (.new p.id title subtitle), activeTab := j } = some t) :
    t.Everywhere PaneLayout.Wide := by
  have htabs : ∀ t ∈ s.tabs.insertIdx i (.new p.id title subtitle), t.layout.Wide := by
    intro t ht
    rcases List.eq_or_mem_of_mem_insertIdx ht with rfl | ht
    · exact PaneLayout.wide_single _
    · exact hs.tabs t ht
  obtain ⟨tab, htab, rfl⟩ := loadTabState_some h
  exact ⟨htabs tab (List.mem_of_getElem? htab), htabs, hs.workspaces⟩

lemma Everywhere.extract {s t : AppState ℚ} (hs : s.Everywhere PaneLayout.Wide) {target : PaneId} {n : Nat}
    (h : s.mutateExtractPaneToTab target n = some t) : t.Everywhere PaneLayout.Wide := by
  unfold mutateExtractPaneToTab at h
  cases hfind : s.live.findPaneCoord target with
  | none =>
    rw [hfind] at h
    exact Option.some.inj h ▸ hs
  | some rc =>
    rw [hfind] at h
    dsimp only at h
    obtain ⟨p, -, h⟩ := Option.bind_eq_some_iff.mp h
    by_cases hcount : s.live.paneCount = 1
    · rw [if_pos hcount] at h
      by_cases hlt : s.tabs.length ≤ s.activeTab
      · rw [if_pos hlt] at h
        cases h
      · rw [if_neg hlt] at h
        have hcut : Everywhere PaneLayout.Wide { s with tabs := s.tabs.eraseIdx s.activeTab } :=
          ⟨hs.live, fun t ht => hs.tabs t (List.mem_of_mem_eraseIdx ht), hs.workspaces⟩
        exact hcut.insertTab h
    · rw [if_neg hcount] at h
      obtain ⟨live, hlive, h⟩ := Option.bind_eq_some_iff.mp h
      exact (hs.relive (hs.live.removePane hlive) s.side).insertTab h

lemma Everywhere.switchTab {s t : AppState ℚ} (hs : s.Everywhere PaneLayout.Wide) {n : Nat}
    (h : s.mutateSwitchTab n = some t) : t.Everywhere PaneLayout.Wide := by
  obtain rfl | ⟨-, -, a, hload⟩ := mutateSwitchTab_cases h
  · exact hs
  · have hsaved : (s.saveTabState.attended a).Everywhere PaneLayout.Wide :=
      ⟨hs.saved.live, hs.saved.tabs, hs.saved.workspaces⟩
    exact hsaved.loads PaneLayout.Wide.focus hload

/-! ### the operations that halve a ratio -/

lemma Everywhere.splitPane {s t : AppState ℚ} (hs : s.Everywhere PaneLayout.Wide) {r c : Nat} {edge : DropZone}
    {spawned : SpawnResult} (h : s.splitPane r c edge spawned = some t) :
    (s.live.HasRoom r c edge → t.Everywhere PaneLayout.Wide) ∧
      (t.Everywhere PaneLayout.Roomy → s.live.HasRoom r c edge) := by
  obtain ⟨live, hlive, h⟩ := Option.bind_eq_some_iff.mp h
  obtain ⟨hwide, hroom⟩ := hs.live.attach hlive
  rw [← Option.some.inj h]
  exact ⟨fun hhas => ⟨hwide hhas, hs.tabs, hs.workspaces⟩, fun ht => hroom ht.live⟩

lemma Everywhere.splitRight {s t : AppState ℚ} (hs : s.Everywhere PaneLayout.Wide) {target : PaneId}
    {spawned : SpawnResult} (h : s.mutateSplitRight target spawned = some t) :
    (s.KeepsRoom (.splitRight target spawned) → t.Everywhere PaneLayout.Wide) ∧
      (t.Everywhere PaneLayout.Roomy → s.KeepsRoom (.splitRight target spawned)) := by
  unfold mutateSplitRight at h
  dsimp only [KeepsRoom]
  cases hfind : s.live.findPaneCoord target with
  | none =>
    rw [hfind] at h
    rw [← Option.some.inj h]
    exact ⟨fun _ => hs, fun _ r c hrc => by (cases hrc)⟩
  | some rc =>
    obtain ⟨r, c⟩ := rc
    rw [hfind] at h
    dsimp only at h
    obtain ⟨row, hrow, h⟩ := Option.bind_eq_some_iff.mp h
    have hlen : s.live.rowLength r = row.length := by
      unfold PaneLayout.rowLength
      rw [hrow]
      rfl
    by_cases hmax : MAX_COLS ≤ row.length
    · rw [if_pos hmax] at h
      rw [← Option.some.inj h]
      refine ⟨fun _ => hs, fun _ r' c' hrc hlt => ?_⟩
      cases hrc
      exact absurd (hlen ▸ hlt) (Nat.not_lt_of_le hmax)
    · rw [if_neg hmax] at h
      obtain ⟨hwide, hroom⟩ := hs.splitPane h
      refine ⟨fun hkeeps => hwide (hkeeps r c rfl (hlen ▸ Nat.lt_of_not_le hmax)), fun ht r' c' hrc _ => ?_⟩
      cases hrc
      exact hroom ht

lemma Everywhere.splitDown {s t : AppState ℚ} (hs : s.Everywhere PaneLayout.Wide) {target : PaneId}
    {spawned : SpawnResult} (h : s.mutateSplitDown target spawned = some t) :
    (s.KeepsRoom (.splitDown target spawned) → t.Everywhere PaneLayout.Wide) ∧
      (t.Everywhere PaneLayout.Roomy → s.KeepsRoom (.splitDown target spawned)) := by
  unfold mutateSplitDown at h
  dsimp only [KeepsRoom]
  cases hfind : s.live.findPaneCoord target with
  | none =>
    rw [hfind] at h
    rw [← Option.some.inj h]
    exact ⟨fun _ => hs, fun _ r c hrc => by (cases hrc)⟩
  | some rc =>
    obtain ⟨r, c⟩ := rc
    rw [hfind] at h
    dsimp only at h
    by_cases hmax : MAX_ROWS ≤ s.live.panes.length
    · rw [if_pos hmax] at h
      rw [← Option.some.inj h]
      exact ⟨fun _ => hs, fun _ r' c' _ hlt => absurd hlt (Nat.not_lt_of_le hmax)⟩
    · rw [if_neg hmax] at h
      obtain ⟨hwide, hroom⟩ := hs.splitPane h
      refine ⟨fun hkeeps => hwide (hkeeps r c rfl (Nat.lt_of_not_le hmax)), fun ht r' c' hrc _ => ?_⟩
      cases hrc
      exact hroom ht

lemma Everywhere.dropSplit {s t : AppState ℚ} (hs : s.Everywhere PaneLayout.Wide) {source : String}
    {target : PaneId} {edge : DropZone} (h : s.mutatePaneDropSplit source target edge = some t) :
    (s.KeepsRoom (.dropSplit source target edge) → t.Everywhere PaneLayout.Wide) ∧
      (t.Everywhere PaneLayout.Roomy → s.KeepsRoom (.dropSplit source target edge)) := by
  obtain ⟨drag, hdrag, h⟩ := Option.bind_eq_some_iff.mp h
  dsimp only [KeepsRoom]
  rw [hdrag]
  cases drag with
  | none =>
    rw [← Option.some.inj h]
    exact ⟨fun _ => hs, fun _ idx p r c hnone => by (cases hnone)⟩
  | some drag =>
    obtain ⟨idx, p⟩ := drag
    dsimp only at h
    by_cases heq : p.id = target
    · rw [if_pos heq] at h
      rw [← Option.some.inj h]
      refine ⟨fun _ => hs, fun _ idx' p' r c hsome hne => ?_⟩
      cases hsome
      exact absurd heq hne
    · rw [if_neg heq] at h
      cases hfind : s.live.findPaneCoord target with
      | none =>
        rw [hfind] at h
        rw [← Option.some.inj h]
        exact ⟨fun _ => hs, fun _ idx' p' r c _ _ hrc => by (cases hrc)⟩
      | some rc =>
        obtain ⟨r, c⟩ := rc
        rw [hfind] at h
        dsimp only at h
        have hdrop : (s.dropTab idx).Everywhere PaneLayout.Wide :=
          ⟨hs.live, fun t ht => hs.tabs t (List.mem_of_mem_eraseIdx ht), hs.workspaces⟩
        by_cases hedge : edge = .center
        · rw [if_pos hedge] at h
          rw [← Option.some.inj h, hedge]
          exact ⟨fun _ => hdrop, fun _ _ _ _ _ _ _ _ => trivial⟩
        · rw [if_neg hedge] at h
          obtain ⟨live, hlive, h⟩ := Option.bind_eq_some_iff.mp h
          obtain ⟨hwide, hroom⟩ := hs.live.attach hlive
          rw [← Option.some.inj h]
          refine ⟨fun hkeeps => ?_, fun ht idx' p' r' c' _ _ hrc => ?_⟩
          · exact hdrop.relive (PaneLayout.Wide.focus live p.id (hwide (hkeeps idx p r c rfl heq rfl))) s.side
          · cases hrc
            exact hroom ht.live

lemma Everywhere.moveToEdge {s t : AppState ℚ} (hs : s.Everywhere PaneLayout.Wide) {source target : PaneId}
    {edge : DropZone} (h : s.mutatePaneMoveToEdge source target edge = some t) :
    (s.KeepsRoom (.moveToEdge source target edge) → t.Everywhere PaneLayout.Wide) ∧
      (t.Everywhere PaneLayout.Roomy → s.KeepsRoom (.moveToEdge source target edge)) := by
  unfold mutatePaneMoveToEdge at h
  dsimp only [KeepsRoom]
  by_cases hguard : source = target ∨ edge = .center
  · rw [if_pos hguard] at h
    rw [← Option.some.inj h]
    exact ⟨fun _ => hs, fun _ hne hedge => absurd hguard (not_or.mpr ⟨hne, hedge⟩)⟩
  · rw [if_neg hguard] at h
    obtain ⟨hne, hedge⟩ := not_or.mp hguard
    cases hsrc : s.live.findPaneCoord source with
    | none =>
      rw [hsrc] at h
      rw [← Option.some.inj h]
      exact ⟨fun _ => hs, fun _ _ _ _ r c live r' c' hnone => by (cases hnone)⟩
    | some src =>
      cases htgt : s.live.findPaneCoord target with
      | none =>
        rw [hsrc, htgt] at h
        rw [← Option.some.inj h]
        exact ⟨fun _ => hs, fun _ _ _ hsome => by (cases hsome)⟩
      | some tgt =>
        rw [hsrc, htgt] at h
        dsimp only at h
        obtain ⟨p, -, h⟩ := Option.bind_eq_some_iff.mp h
        obtain ⟨m, hm, h⟩ := Option.bind_eq_some_iff.mp h
        have hdetach := hs.live.detach hm
        cases hrc : m.findPaneCoord target with
        | none =>
          rw [hrc] at h
          rw [← Option.some.inj h]
          refine ⟨fun _ => hs.withLive hdetach, fun _ _ _ _ r c live r' c' hrc' hlive htgt' => ?_⟩
          cases hrc'
          rw [Option.some.inj (hm.symm.trans hlive), htgt'] at hrc
          cases hrc
        | some rc =>
          rw [hrc] at h
          dsimp only at h
          obtain ⟨live, hlive, h⟩ := Option.bind_eq_some_iff.mp h
          obtain ⟨hwide, hroom⟩ := hdetach.attach hlive
          rw [← Option.some.inj h]
          constructor
          · intro hkeeps
            have hhas := hkeeps hne hedge rfl src.1 src.2 m rc.1 rc.2 rfl hm hrc
            exact hs.relive (PaneLayout.Wide.focus live source (hwide hhas)) s.side
          · intro ht _ _ _ r c live' r' c' hrc' hlive' htgt'
            cases hrc'
            obtain rfl := Option.some.inj (hm.symm.trans hlive')
            obtain rfl : rc = (r', c') := Option.some.inj (hrc.symm.trans htgt')
            exact hroom ht.live

/-- one operation: the ratios stay wide when it keeps room, and only then are they roomy -/
lemma Everywhere.step {s t : AppState ℚ} (hs : s.Everywhere PaneLayout.Wide) {op : Op} (hop : op.arranges = true)
    (h : App.step s op = some t) :
    (s.KeepsRoom op → t.Everywhere PaneLayout.Wide) ∧ (t.Everywhere PaneLayout.Roomy → s.KeepsRoom op) := by
  have always (hwide : t.Everywhere PaneLayout.Wide) :
      (True → t.Everywhere PaneLayout.Wide) ∧ (t.Everywhere PaneLayout.Roomy → True) :=
    ⟨fun _ => hwide, fun _ => trivial⟩
  cases op with
  | addTab spawned => exact always (Option.some.inj h ▸ hs.openTab _ _ _)
  | addWorktreeTab title spawned => exact always (Option.some.inj h ▸ hs.openTab _ _ _)
  | addEditorTab editor => exact always (Option.some.inj h ▸ hs.openTab _ _ _)
  | addFlowTab pane => exact always (Option.some.inj h ▸ hs.openTab _ _ _)
  | addAgentTab launch outcome => exact always (Option.some.inj h ▸ hs.openTab _ _ _)
  | splitRight target spawned => exact hs.splitRight h
  | splitDown target spawned => exact hs.splitDown h
  | closePane target => exact always (hs.closePane h)
  | extract target n => exact always (hs.extract h)
  | dropSplit source target edge => exact hs.dropSplit h
  | moveToEdge source target edge => exact hs.moveToEdge h
  | switchTab n => exact always (hs.switchTab h)
  | _ => cases hop

end AppState

/-! ### drags -/

lemma Wide.set {ratios : List ℚ} (h : Wide ratios) (i : Nat) {x : ℚ} (hx : MIN_PANE_RATIO ≤ x) :
    Wide (ratios.set i x) := by
  intro r hr
  rcases List.mem_or_eq_of_mem_set hr with hr | rfl
  · exact h r hr
  · exact hx

lemma clamp_bounds {x lo hi : ℚ} (h : lo ≤ hi) : lo ≤ F32.clamp x lo hi ∧ F32.clamp x lo hi ≤ hi := by
  unfold F32.clamp
  by_cases hlo : x < lo
  · rw [if_pos (show F32.lt x lo = true from decide_eq_true hlo)]
    exact ⟨le_refl lo, h⟩
  · rw [if_neg (show ¬ F32.lt x lo = true from fun hlt => hlo (of_decide_eq_true hlt))]
    by_cases hhi : hi < x
    · rw [if_pos (show F32.lt hi x = true from decide_eq_true hhi)]
      exact ⟨h, le_refl hi⟩
    · rw [if_neg (show ¬ F32.lt hi x = true from fun hlt => hhi (of_decide_eq_true hlt))]
      exact ⟨not_lt.mp hlo, not_lt.mp hhi⟩

/-- the two ratios of a drag and the ratios of its start are in range -/
def InRange (ratios initial : List ℚ) (idx : Nat) : Prop := idx + 1 < ratios.length ∧ idx + 1 < initial.length

/-- a drag from wide ratios does not panic in range, and the ratios stay wide -/
lemma Wide.applyRatioDelta {ratios initial : List ℚ} (hr : Wide ratios) (hi : Wide initial) (idx : Nat)
    (deltaPx : ℚ) {containerPx : ℚ} :
    ((0 < containerPx → InRange ratios initial idx) →
        ∃ ratios', App.applyRatioDelta ratios idx (idx + 1) initial deltaPx containerPx = some ratios' ∧
          Wide ratios' ∧ ratios'.length = ratios.length) ∧
      ∀ ratios', App.applyRatioDelta ratios idx (idx + 1) initial deltaPx containerPx = some ratios' →
        0 < containerPx → InRange ratios initial idx := by
  unfold App.applyRatioDelta
  by_cases hcontainer : containerPx ≤ 0
  · rw [if_pos (show F32.le containerPx F32.zero = true from decide_eq_true hcontainer)]
    exact ⟨fun _ => ⟨ratios, rfl, hr, rfl⟩, fun _ _ hpos => absurd hpos (not_lt.mpr hcontainer)⟩
  · rw [if_neg (show ¬ F32.le containerPx F32.zero = true from fun hle => hcontainer (of_decide_eq_true hle))]
    constructor
    · intro hin
      obtain ⟨hratios, hinitial⟩ := hin (not_le.mp hcontainer)
      have hbefore := hi _ (List.getElem_mem (Nat.lt_of_succ_lt hinitial))
      have hafter := hi _ (List.getElem_mem hinitial)
      rw [List.getElem?_eq_getElem (Nat.lt_of_succ_lt hinitial), List.getElem?_eq_getElem hinitial]
      generalize initial[idx] = before at hbefore
      generalize initial[idx + 1] = after at hafter
      have hbounds : ( MIN_PANE_RATIO : ℚ) ≤ F32.sub (F32.add before after) MIN_PANE_RATIO := by
        show ( MIN_PANE_RATIO : ℚ) ≤ before + after - MIN_PANE_RATIO
        linarith
      have hguard : ¬ (ratios.length ≤ idx ∨ ratios.length ≤ idx + 1) := by omega
      dsimp only [Option.bind_eq_bind, Option.bind_some]
      unfold clampBetween
      rw [if_pos (show F32.le ( MIN_PANE_RATIO : ℚ) _ = true from decide_eq_true hbounds)]
      dsimp only [Option.bind_some]
      rw [if_neg hguard]
      obtain ⟨hlo, hhi⟩ := clamp_bounds
        (x := F32.add before (F32.mul (F32.div deltaPx containerPx) (initial.foldl F32.add F32.zero))) hbounds
      refine ⟨_, rfl, (hr.set _ hlo).set _ ?_, by rw [List.length_set, List.length_set]⟩
      show ( MIN_PANE_RATIO : ℚ) ≤ before + after - _
      have hhi' : F32.clamp _ _ _ ≤ before + after - ( MIN_PANE_RATIO : ℚ) := hhi
      linarith
    · intro ratios' h _
      obtain ⟨before, -, h⟩ := Option.bind_eq_some_iff.mp h
      obtain ⟨after, hafter, h⟩ := Option.bind_eq_some_iff.mp h
      obtain ⟨newBefore, -, h⟩ := Option.bind_eq_some_iff.mp h
      obtain ⟨hlt, -⟩ := List.getElem?_eq_some_iff.mp hafter
      split_ifs at h with hguard
      exact ⟨by omega, hlt⟩

namespace AppState

/-- the layout has the row of the drag and its two ratios, and so has the snapshot -/
def DragFits (s : AppState ℚ) (drag : ResizeDragSnapshot ℚ) : Prop :=
  if drag.horizontal then
    ∃ ratios, s.live.colRatios[drag.rowIdx]? = some ratios ∧
      (0 < drag.containerSize → InRange ratios drag.initialRatios drag.colIdx)
  else
    0 < drag.containerSize → InRange s.live.rowRatios drag.initialRatios drag.rowIdx

lemma Shape.resized {s : AppState ℚ} (hs : s.Shape) {rowRatios : List ℚ} {colRatios : List (List ℚ)}
    (hrows : rowRatios.length = s.live.rowRatios.length)
    (hcols : Ragged.lengths colRatios = Ragged.lengths s.live.colRatios) :
    Shape { s with live := { s.live with rowRatios, colRatios } } where
  tabs := hs.tabs
  workspaces := hs.workspaces
  active := hs.active
  live h := by
    have hl := hs.live h
    exact ⟨⟨hrows.trans hl.rows, hcols.trans hl.cols, hl.filled⟩, hl.focused⟩
  bare h := by
    rw [hs.bare h] at hrows hcols ⊢
    rw [List.eq_nil_of_length_eq_zero hrows, List.map_eq_nil_iff.mp hcols]
    rfl

/-- an update that fits does not panic, and the ratios stay wide -/
lemma Shape.dragUpdate {s : AppState ℚ} (hs : s.Shape) (hwide : s.Everywhere PaneLayout.Wide)
    {drag : ResizeDragSnapshot ℚ} (hdrag : Wide drag.initialRatios) (deltaX deltaY : ℚ) :
    (s.DragFits drag → ∃ t, s.dragUpdate drag deltaX deltaY = some t ∧ t.Shape ∧ t.Everywhere PaneLayout.Wide) ∧
      ∀ t, s.dragUpdate drag deltaX deltaY = some t → s.DragFits drag := by
  unfold AppState.dragUpdate DragFits
  cases drag.horizontal with
  | true =>
    rw [if_pos rfl, if_pos rfl]
    constructor
    · intro ⟨ratios, hratios, hin⟩
      have hrow := hwide.live.2 ratios (List.mem_of_getElem? hratios)
      obtain ⟨ratios', hratios', hwide', hlen⟩ := (hrow.applyRatioDelta hdrag drag.colIdx deltaX).1 hin
      dsimp only [Option.bind_eq_bind]
      rw [hratios, Option.bind_some, hratios', Option.bind_some]
      refine ⟨_, rfl, hs.resized rfl ?_, hwide.withLive ⟨hwide.live.1, ?_⟩⟩
      · exact Ragged.lengths_set hratios hlen
      · intro row hmem
        rcases List.mem_or_eq_of_mem_set hmem with hmem | rfl
        · exact hwide.live.2 row hmem
        · exact hwide'
    · intro t h
      obtain ⟨ratios, hratios, h⟩ := Option.bind_eq_some_iff.mp h
      obtain ⟨ratios', hratios', -⟩ := Option.bind_eq_some_iff.mp h
      have hrow := hwide.live.2 ratios (List.mem_of_getElem? hratios)
      exact ⟨ratios, hratios, (hrow.applyRatioDelta hdrag drag.colIdx deltaX).2 ratios' hratios'⟩
  | false =>
    rw [if_neg Bool.false_ne_true, if_neg Bool.false_ne_true]
    constructor
    · intro hin
      obtain ⟨ratios', hratios', hwide', hlen⟩ := (hwide.live.1.applyRatioDelta hdrag drag.rowIdx deltaY).1 hin
      dsimp only [Option.bind_eq_bind]
      rw [hratios', Option.bind_some]
      exact ⟨_, rfl, hs.resized hlen rfl, hwide.withLive ⟨hwide', hwide.live.2⟩⟩
    · intro t h
      obtain ⟨ratios', hratios', -⟩ := Option.bind_eq_some_iff.mp h
      exact (hwide.live.1.applyRatioDelta hdrag drag.rowIdx deltaY).2 ratios' hratios'

end AppState

namespace Dragged

/-- the app has its shape and no ratio is below the minimum, in the snapshot neither -/
structure Held (d : Dragged ℚ) : Prop where
  shape : d.state.Shape
  wide : d.state.Everywhere PaneLayout.Wide
  drag : ∀ drag ∈ d.resizeDrag, Wide drag.initialRatios

/-- an operation halves no ratio below two minima, and the ratios of a drag are there -/
def KeepsRoom (d : Dragged ℚ) : DragEvent ℚ → Prop
  | .op op => d.state.KeepsRoom op.1
  | .colStart rowIdx _ _ => rowIdx < d.state.live.colRatios.length
  | .rowStart _ _ => True
  | .update _ _ => ∀ drag ∈ d.resizeDrag, d.state.DragFits drag
  | .stop => True

/-- the states whose layouts are all roomy -/
def Roomy (d : Dragged ℚ) : Prop := d.state.Everywhere PaneLayout.Roomy

lemma Held.roomy {d : Dragged ℚ} (hd : d.Held) : d.Roomy where
  live := hd.wide.live.roomy
  tabs t ht := (hd.wide.tabs t ht).roomy
  workspaces ws hws t ht := (hd.wide.workspaces ws hws t ht).roomy

lemma Held.step {d : Dragged ℚ} (hd : d.Held) {e : DragEvent ℚ} (he : d.KeepsRoom e) :
    ∃ t, dragStep d e = some t ∧ t.Held := by
  cases e with
  | op op =>
    have hkeeps : d.state.KeepsShape op.1 := by
      obtain ⟨op, hop⟩ := op
      cases op <;> trivial
    obtain ⟨t, ht, hshape⟩ := hd.shape.step op.1
    refine ⟨{ d with state := t }, ?_, hshape.mpr hkeeps, (hd.wide.step op.2 ht).1 he, hd.drag⟩
    show (App.step d.state op.1).map _ = _
    rw [ht]
    rfl
  | colStart rowIdx colIdx container =>
    refine ⟨_, congrArg (Option.map _) (List.getElem?_eq_getElem he), hd.shape, hd.wide, fun drag hdrag => ?_⟩
    rw [← Option.some.inj hdrag]
    exact hd.wide.live.2 _ (List.getElem_mem he)
  | rowStart rowIdx container =>
    refine ⟨_, rfl, hd.shape, hd.wide, fun drag hdrag => ?_⟩
    rw [← Option.some.inj hdrag]
    exact hd.wide.live.1
  | update deltaX deltaY =>
    cases hdrag : d.resizeDrag with
    | none =>
      refine ⟨d, ?_, hd⟩
      unfold dragStep
      rw [hdrag]
    | some drag =>
      obtain ⟨t, ht, hshape, hwide⟩ :=
        (hd.shape.dragUpdate hd.wide (hd.drag drag hdrag) deltaX deltaY).1 (he drag hdrag)
      refine ⟨{ d with state := t }, ?_, hshape, hwide, hd.drag⟩
      unfold dragStep
      rw [hdrag]
      dsimp only
      rw [ht, Option.map_some]
  | stop => exact ⟨_, rfl, hd.shape, hd.wide, fun drag hdrag => by (cases hdrag)⟩

lemma Held.keepsRoom {d t : Dragged ℚ} (hd : d.Held) {e : DragEvent ℚ} (h : dragStep d e = some t) (ht : t.Roomy) :
    d.KeepsRoom e := by
  cases e with
  | op op =>
    obtain ⟨s, hs, rfl⟩ := Option.map_eq_some_iff.mp h
    exact (hd.wide.step op.2 hs).2 ht
  | colStart rowIdx colIdx container =>
    obtain ⟨ratios, hratios, -⟩ := Option.map_eq_some_iff.mp h
    exact (List.getElem?_eq_some_iff.mp hratios).1
  | rowStart rowIdx container => trivial
  | update deltaX deltaY =>
    intro drag hdrag
    unfold dragStep at h
    rw [hdrag] at h
    obtain ⟨s, hs, -⟩ := Option.map_eq_some_iff.mp h
    exact (hd.shape.dragUpdate hd.wide (hd.drag drag hdrag) deltaX deltaY).2 s hs
  | stop => trivial

end Dragged

/-- **Main result.**  From layouts of one pane a run never panics and is roomy throughout exactly when no operation
halves a ratio of less than two minima. -/
theorem drags_have_room {s : AppState ℚ} (hs : s.Shape) (hone : s.Everywhere fun l => ∃ p, l = .single p)
    (es : List (DragEvent ℚ)) :
    ((∃ t, exec dragStep ⟨s, none⟩ es = some t) ∧ Throughout dragStep Dragged.Roomy ⟨s, none⟩ es) ↔
      Along dragStep Dragged.KeepsRoom ⟨s, none⟩ es := by
  have hwide (l : PaneLayout ℚ) (hl : ∃ p, l = .single p) : l.Wide := by
    obtain ⟨p, rfl⟩ := hl
    exact PaneLayout.wide_single p
  have hall : s.Everywhere PaneLayout.Wide :=
    ⟨hwide _ hone.live, fun t ht => hwide _ (hone.tabs t ht), fun ws hws t ht => hwide _ (hone.workspaces ws hws t ht)⟩
  have hheld : Dragged.Held ⟨s, none⟩ := ⟨hs, hall, fun drag hdrag => by (cases hdrag)⟩
  exact possible_throughout_iff (fun d e hd he => hd.step he) (fun d hd => hd.roomy)
    (fun d e t hd h ht => hd.keepsRoom h ht) hheld

lemma firstRun_shape : firstRun.Shape := (Boot.seed "app" none ⟨"", []⟩).shape

lemma firstRun_single : firstRun.Everywhere fun l => ∃ p, l = .single p := by
  refine ⟨⟨_, rfl⟩, fun t ht => ?_, fun ws hws t ht => ?_⟩
  · rw [List.mem_singleton.mp ht]
    exact ⟨_, rfl⟩
  · have htabs : ws.tabs = [] := by
      revert ws
      simp [firstRun, seedState, newWorkspace]
    rw [htabs] at ht
    cases ht

/-- a split, a drag to the right end, a split of the narrow pane, and a drag between its halves -/
def narrowed : List (DragEvent ℚ) :=
  [.op ⟨.splitRight 1 (.ok 5 0), rfl⟩, .colStart 0 0 1000, .update 900 0, .stop,
    .op ⟨.splitRight 2 (.ok 6 0), rfl⟩, .colStart 0 1 1000]

/-- the row has three ratios, the last two too small, and an update of these panics -/
theorem narrowed_panics :
    (exec dragStep ⟨firstRun, none⟩ narrowed).map (·.state.live.colRatios) = some [[9 / 10, 1 / 20, 1 / 20]] ∧
      exec dragStep ⟨firstRun, none⟩ (narrowed ++ [.update 1 0]) = none ∧ ¬ Room [9 / 10, 1 / 20, 1 / 20] := by
  refine ⟨by decide +kernel, Option.isNone_iff_eq_none.mp (by decide +kernel), fun hroom => ?_⟩
  have hsum := hroom.2 1 _ _ rfl rfl
  rw [minPaneRatio] at hsum
  norm_num at hsum

/-- a split, and a drag of its divider -/
def splitDragged : List (DragEvent ℚ) := [.op ⟨.splitRight 1 (.ok 5 0), rfl⟩, .colStart 0 0 1000, .update 300 0]

theorem drags_have_room_split :
    ((∃ t, exec dragStep ⟨firstRun, none⟩ splitDragged = some t) ∧
        Throughout dragStep Dragged.Roomy ⟨firstRun, none⟩ splitDragged) ↔
      Along dragStep Dragged.KeepsRoom ⟨firstRun, none⟩ splitDragged :=
  drags_have_room firstRun_shape firstRun_single _

end
end TerminalManager.App
