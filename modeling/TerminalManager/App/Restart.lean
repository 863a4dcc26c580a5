import TerminalManager.App.Boot
import TerminalManager.App.PaneIds

/-!
# The layout after a restart

A snapshot is taken of a state, and another app restores it.

* `survives`         a tab with a pane that is saved;
* `Revives`          what a tab comes back as;
* `tabsOf`           the tabs of a workspace, those of the active one with the live layout;
* `Restores`         the workspaces, the surviving tabs and the active ones are as they were;
* `layout_survives`  so it is for what is restored from the snapshot of a state in shape.
-/

namespace TerminalManager.App
open Ui (F32)
open Editor (CharTable)

/-! ## saving -/

section
variable {F : Type} [F32 F]

/-- the panes of a row, without those that are not saved -/
lemma stripRow_fst (transient : PaneId → Bool) (kept rest : List PersistedPane) (ratios : List F) :
    (stripRow transient kept rest ratios).1 = kept ++ rest.filter (!transient ·.id) := by
  induction rest generalizing kept ratios with
  | nil =>
    show kept = kept ++ []
    rw [List.append_nil]
  | cons p rest ih =>
    unfold stripRow
    by_cases hp : transient p.id
    · rw [if_pos hp, ih, List.filter_cons_of_neg (by simp [hp])]
    · rw [if_neg hp, ih, List.filter_cons_of_pos (by simp [hp]), List.append_assoc]
      rfl

/-- the rows, without those that lose every pane -/
lemma stripRows_fst (transient : PaneId → Bool) (kept rest : List (List PersistedPane)) (rowRatios : List F) (colRatios : List (List F)) :
    (stripRows transient kept rest rowRatios colRatios).1 =
      kept ++ (rest.map (·.filter (!transient ·.id))).filter (!·.isEmpty) := by
  induction rest generalizing kept rowRatios colRatios with
  | nil =>
    show kept = kept ++ []
    rw [List.append_nil]
  | cons row rest ih =>
    unfold stripRows
    have hrow := stripRow_fst transient [] row ((colRatios[kept.length]?).getD [])
    obtain ⟨⟨row', ratios⟩, hstrip⟩ : ∃ x, x = stripRow transient [] row ((colRatios[kept.length]?).getD []) := ⟨_, rfl⟩
    rw [← hstrip] at hrow ⊢
    dsimp only at hrow ⊢
    rw [List.nil_append] at hrow
    rw [List.map_cons, ← hrow]
    by_cases hempty : row'.isEmpty
    · rw [if_pos hempty, ih, List.filter_cons_of_neg (by simp [hempty])]
    · rw [if_neg hempty, ih, List.filter_cons_of_pos (by simp [hempty]), List.append_assoc]
      rfl

end

section
variable {F : Type}

/-- the loop of `keptTabs` from the tab `k` on -/
lemma keptTabs_loop [F32 F] (transient : PaneId → Bool) (activeTab : Nat) (tabs : List (PersistedTab F)) (k : Nat)
    (kept : List (PersistedTab F)) (newActive : Nat) :
    let loop := (tabs.zipIdx k).foldl (fun (kept, newActive) (tab, idx) =>
      match stripTransientPanes transient tab with
      | some tab => (kept ++ [tab], if idx ≤ activeTab then kept.length else newActive)
      | none => (kept, newActive)) (kept, newActive)
    loop.1 = kept ++ tabs.filterMap (stripTransientPanes transient) ∧
      (activeTab < k → loop.2 = newActive) ∧
      ∀ j pt, k + j = activeTab → tabs[j]? = some pt → (stripTransientPanes transient pt).isSome →
        loop.2 = kept.length + ((tabs.take j).filterMap (stripTransientPanes transient)).length := by
  induction tabs generalizing k kept newActive with
  | nil => exact ⟨(List.append_nil kept).symm, fun _ => rfl, fun j pt _ hget => by cases hget⟩
  | cons tab rest ih =>
    rw [List.zipIdx_cons, List.foldl_cons]
    cases hstrip : stripTransientPanes transient tab with
    | none =>
      obtain ⟨hkept, hpast, hat⟩ := ih (k + 1) kept newActive
      simp only [hstrip]
      rw [List.filterMap_cons_none hstrip]
      refine ⟨hkept, fun h => hpast (by omega), fun j pt hj hget hsome => ?_⟩
      cases j with
      | zero =>
        obtain rfl := Option.some.inj hget
        rw [hstrip] at hsome
        cases hsome
      | succ j =>
        rw [List.take_succ_cons, List.filterMap_cons_none hstrip]
        exact hat j pt (by omega) hget hsome
    | some tab' =>
      obtain ⟨hkept, hpast, hat⟩ := ih (k + 1) (kept ++ [tab']) (if k ≤ activeTab then kept.length else newActive)
      simp only [hstrip]
      rw [List.filterMap_cons_some hstrip]
      refine ⟨by rw [hkept, List.append_assoc]; rfl, fun h => ?_, fun j pt hj hget hsome => ?_⟩
      · rw [hpast (by omega), if_neg (by omega)]
      · cases j with
        | zero =>
          rw [hpast (by omega), if_pos (by omega)]
          rfl
        | succ j =>
          rw [hat j pt (by omega) hget hsome, List.take_succ_cons, List.filterMap_cons_some hstrip, List.length_append,
            List.length_singleton, List.length_cons]
          omega

/-- the tabs that are kept, and where the active one is among them -/
lemma keptTabs_eq [F32 F] (transient : PaneId → Bool) (tabs : List (PersistedTab F)) (activeTab : Nat) :
    (keptTabs transient tabs activeTab).1 = tabs.filterMap (stripTransientPanes transient) ∧
      ∀ pt, tabs[activeTab]? = some pt → (stripTransientPanes transient pt).isSome →
        (keptTabs transient tabs activeTab).2 =
          ((tabs.take activeTab).filterMap (stripTransientPanes transient)).length := by
  obtain ⟨hkept, -, hat⟩ := keptTabs_loop transient activeTab tabs 0 [] 0
  exact ⟨hkept, fun pt hget hsome => (hat activeTab pt (Nat.zero_add _) hget hsome).trans (Nat.zero_add _)⟩

end

/-- what a workspace has beside its tabs -/
def Workspace.header {F : Type} (ws : Workspace F) : Nat × String × Option String × Bool × ShellSpec :=
  (ws.num, ws.name, ws.path, ws.collapsed, ws.shell)

namespace AppState
section
variable {F : Type}

/-- a tab with a pane that is saved -/
def survives (s : AppState F) (tab : TerminalTab F) : Bool := tab.paneIds.any (!s.side.transient ·)

/-- the panes that are saved, in their rows -/
def survivingRows (s : AppState F) (rows : List (List Pane)) : List (List Pane) :=
  (rows.map (·.filter (!s.side.transient ·.id))).filter (!·.isEmpty)

/-- the tabs of the workspace `ws` at `idx` and the active one; the tabs of the active workspace have the live layout -/
def tabsOf (s : AppState F) (idx : Nat) (ws : Workspace F) : List (TerminalTab F) × Nat :=
  if idx = s.activeWorkspace then (s.saveTabState.tabs, s.activeTab) else (ws.tabs, ws.activeTab)

/-- the snapshot of a tab has its panes and its focus -/
structure Drawn (s : AppState F) (tab : TerminalTab F) (pt : PersistedTab F) : Prop where
  id : pt.id = tab.id
  panes : pt.panes = s.side.persistedRows tab.layout.panes
  focus : pt.activePane = tab.layout.activePane

/-- what is saved of a tab that survives -/
structure Saved (s : AppState F) (tab : TerminalTab F) (pt : PersistedTab F) : Prop where
  survives : s.survives tab = true
  id : pt.id = tab.id
  panes : pt.panes = s.side.persistedRows (s.survivingRows tab.layout.panes)
  focus : s.side.transient tab.layout.activePane = false → pt.activePane = tab.layout.activePane

lemma mem_survivingRows {s : AppState F} {rows : List (List Pane)} {p : Pane} :
    p ∈ (s.survivingRows rows).flatten ↔ p ∈ rows.flatten ∧ s.side.transient p.id = false := by
  unfold survivingRows
  rw [List.flatten_filter_not_isEmpty, ← List.filter_flatten, List.mem_filter, Bool.not_eq_true']

lemma survives_iff {s : AppState F} {tab : TerminalTab F} :
    s.survives tab = true ↔ (s.survivingRows tab.layout.panes).flatten ≠ [] := by
  unfold survives TerminalTab.paneIds PaneLayout.ids PaneLayout.flat
  rw [List.any_map, List.any_eq_true]
  constructor
  · rintro ⟨p, hp, hkept⟩
    exact List.ne_nil_of_mem (mem_survivingRows.mpr ⟨hp, (Bool.not_eq_true' _).mp hkept⟩)
  · intro hne
    obtain ⟨p, hp⟩ := List.exists_mem_of_ne_nil _ hne
    obtain ⟨hmem, hkept⟩ := mem_survivingRows.mp hp
    exact ⟨p, hmem, (Bool.not_eq_true' _).mpr hkept⟩

lemma persistedRows_flatten (t : PaneTables) (rows : List (List Pane)) :
    (t.persistedRows rows).flatten = rows.flatten.map t.persistedPane := List.map_flatten.symm

/-- the rows are saved as they survive -/
lemma persistedRows_surviving (s : AppState F) (rows : List (List Pane)) :
    ((s.side.persistedRows rows).map (·.filter (!s.side.transient ·.id))).filter (!·.isEmpty) =
      s.side.persistedRows (s.survivingRows rows) := by
  have hrow (row : List Pane) : (row.map s.side.persistedPane).filter (!s.side.transient ·.id) =
      (row.filter (!s.side.transient ·.id)).map s.side.persistedPane := List.filter_map ..
  let strip (rows : List (List Pane)) := rows.map (·.filter (!s.side.transient ·.id))
  have hswap : (rows.map (·.map s.side.persistedPane)).map (·.filter (!s.side.transient ·.id)) =
      (strip rows).map (·.map s.side.persistedPane) := by
    rw [List.map_map, List.map_map]
    exact List.map_congr_left fun row _ => hrow row
  calc ((rows.map (·.map s.side.persistedPane)).map (·.filter (!s.side.transient ·.id))).filter (!·.isEmpty)
      = ((strip rows).map (·.map s.side.persistedPane)).filter (!·.isEmpty) := by rw [hswap]
    _ = ((strip rows).filter fun row => !(row.map s.side.persistedPane).isEmpty).map (·.map s.side.persistedPane) :=
        List.filter_map ..
    _ = ((strip rows).filter (!·.isEmpty)).map (·.map s.side.persistedPane) := by simp only [List.isEmpty_map]

end

section
variable {F : Type}

lemma persistedTab_drawn (s : AppState F) (tab : TerminalTab F) : s.Drawn tab (s.side.persistedTab tab) := ⟨rfl, rfl, rfl⟩

lemma persistedTabs_drawn (s : AppState F) (tabs : List (TerminalTab F)) :
    List.Forall₂ s.Drawn tabs (tabs.map s.side.persistedTab) :=
  List.forall₂_map_right_iff.mpr (List.forall₂_same.mpr fun tab _ => persistedTab_drawn s tab)

/-- the live layout is laid over the snapshot of the active tab -/
lemma liveTabs_drawn (s : AppState F) : List.Forall₂ s.Drawn s.saveTabState.tabs s.liveTabs := by
  apply forall₂_modify s.activeTab _ (persistedTabs_drawn s s.tabs)
  intro tab pt h
  exact ⟨h.id, rfl, rfl⟩

/-- what the strip leaves of a tab -/
lemma Drawn.strip [F32 F] {s : AppState F} {tab : TerminalTab F} {pt : PersistedTab F} (h : s.Drawn tab pt) :
    (s.survives tab = false ∧ stripTransientPanes s.side.transient pt = none) ∨
      s.survives tab = true ∧ ∃ pt', stripTransientPanes s.side.transient pt = some pt' ∧ s.Saved tab pt' := by
  have hrows := stripRows_fst s.side.transient [] pt.panes pt.rowRatios pt.colRatios
  rw [List.nil_append, h.panes, persistedRows_surviving, ← h.panes] at hrows
  unfold stripTransientPanes
  obtain ⟨⟨panes, rowRatios, colRatios⟩, hstrip⟩ :
    ∃ x, x = stripRows s.side.transient [] pt.panes pt.rowRatios pt.colRatios := ⟨_, rfl⟩
  rw [← hstrip] at hrows ⊢
  obtain rfl : panes = _ := hrows
  dsimp only
  rw [persistedRows_flatten]
  cases hflat : (s.survivingRows tab.layout.panes).flatten with
  | nil => exact .inl ⟨Bool.eq_false_iff.mpr fun h => survives_iff.mp h hflat, rfl⟩
  | cons first rest =>
    refine .inr ⟨survives_iff.mpr (hflat ▸ List.cons_ne_nil _ _), _, rfl, ?_⟩
    refine ⟨survives_iff.mpr (hflat ▸ List.cons_ne_nil _ _), h.id, rfl, fun hkept => ?_⟩
    rw [h.focus, hkept]
    rfl

lemma transient_of_noTransient {s : AppState F} (h : s.side.noTransient = true) (id : PaneId) :
    s.side.transient id = false := by
  obtain ⟨heditors, hflows⟩ := Bool.and_eq_true_iff.mp h
  unfold PaneTables.transient
  rw [Table.isEmpty_iff.mp heditors id, Table.isEmpty_iff.mp hflows id]
  rfl

/-- with no editor and no flow, a tab in shape is saved as it is -/
lemma Drawn.saved {s : AppState F} {tab : TerminalTab F} {pt : PersistedTab F} (h : s.Drawn tab pt)
    (hno : s.side.noTransient = true) (hshape : tab.layout.Shaped) : s.Saved tab pt := by
  have hkept := transient_of_noTransient hno
  have hrows : s.survivingRows tab.layout.panes = tab.layout.panes := by
    unfold survivingRows
    have hid (row : List Pane) : row.filter (!s.side.transient ·.id) = row :=
      List.filter_eq_self.mpr fun p _ => (Bool.not_eq_true' _).mpr (hkept p.id)
    rw [List.map_congr_left fun row _ => hid row, List.map_id', List.filter_eq_self]
    intro row hrow
    rw [Bool.not_eq_true', List.isEmpty_eq_false_iff]
    exact hshape.filled row hrow
  refine ⟨?_, h.id, by rw [hrows]; exact h.panes, fun _ => h.focus⟩
  exact List.any_eq_true.mpr ⟨_, hshape.focused, (Bool.not_eq_true' _).mpr (hkept _)⟩

end

section
variable {F : Type} [F32 F]

/-- the tabs that survive are saved in order, and where the active one is -/
lemma stripTransientTabs_saved {s : AppState F} {tabs : List (TerminalTab F)} {pts : List (PersistedTab F)}
    (hdrawn : List.Forall₂ s.Drawn tabs pts) (hshape : ∀ t ∈ tabs, t.layout.Shaped) (activeTab : Nat) :
    List.Forall₂ s.Saved (tabs.filter s.survives) (s.side.stripTransientTabs pts activeTab).1 ∧
      ∀ tab, tabs[activeTab]? = some tab → s.survives tab = true →
        (s.side.stripTransientTabs pts activeTab).2 = ((tabs.take activeTab).filter s.survives).length := by
  unfold PaneTables.stripTransientTabs
  by_cases hno : s.side.noTransient = true
  · rw [if_pos hno]
    have hsaved : List.Forall₂ s.Saved tabs pts :=
      ((List.forall₂_and_left _ _).mpr ⟨hshape, hdrawn⟩).imp fun _ _ h => h.2.saved hno h.1
    have hall : ∀ tab ∈ tabs, s.survives tab = true := by
      intro tab htab
      obtain ⟨i, hi⟩ := List.mem_iff_getElem?.mp htab
      obtain ⟨pt, -, hpt⟩ := forall₂_getElem? hsaved hi
      exact hpt.survives
    refine ⟨by rw [List.filter_eq_self.mpr hall]; exact hsaved, fun tab htab _ => ?_⟩
    have hlt := (List.getElem?_eq_some_iff.mp htab).1
    rw [List.filter_eq_self.mpr fun tab htab => hall tab (List.mem_of_mem_take htab), List.length_take]
    exact (Nat.min_eq_left (Nat.le_of_lt hlt)).symm
  · rw [if_neg hno]
    obtain ⟨hkept, hactive⟩ := keptTabs_eq s.side.transient pts activeTab
    have hstrip (tab : TerminalTab F) (pt : PersistedTab F) (h : s.Drawn tab pt) := h.strip
    refine ⟨hkept ▸ forall₂_filterMap hstrip hdrawn, fun tab htab hsurvives => ?_⟩
    obtain ⟨pt, hpt, hd⟩ := forall₂_getElem? hdrawn htab
    rcases hd.strip with ⟨hfalse, -⟩ | ⟨-, pt', hpt', -⟩
    · rw [hsurvives] at hfalse
      cases hfalse
    · rw [hactive pt hpt (hpt' ▸ rfl)]
      exact (forall₂_filterMap hstrip (List.forall₂_take activeTab hdrawn)).length_eq.symm

/-! ## restoring -/

end
end AppState

section
variable {F : Type} [F32 F]

lemma normalizedRowRatios_positive (hone : isPositive (F32.one : F) = true) (panes : List (List Pane)) (saved : List F) :
    ∀ r ∈ normalizedRowRatios panes saved, isPositive r = true := by
  unfold normalizedRowRatios
  split_ifs with h
  · exact List.all_eq_true.mp h.2
  · intro r hr
    rw [List.eq_of_mem_replicate hr]
    exact hone

lemma normalizedColRatios_positive (hone : isPositive (F32.one : F) = true) (panes : List (List Pane))
    (saved : List (List F)) : ∀ ratios ∈ normalizedColRatios panes saved, ∀ r ∈ ratios, isPositive r = true := by
  unfold normalizedColRatios
  split_ifs with h
  · exact fun ratios hratios => List.all_eq_true.mp (List.all_eq_true.mp h.2 ratios hratios)
  · intro ratios hratios r hr
    obtain ⟨row, -, rfl⟩ := List.mem_map.mp hratios
    rw [List.eq_of_mem_replicate hr]
    exact hone

/-- a pane that is there is found -/
lemma find?_getD_of_mem {ids : List PaneId} {id : PaneId} (h : id ∈ ids) (other : PaneId) :
    (ids.find? (· == id)).getD other = id := by
  cases hfind : ids.find? (· == id) with
  | none => exact absurd (List.find?_eq_none.mp hfind id h) (by simp)
  | some found =>
    have hsame := List.find?_some hfind
    exact beq_iff_eq.mp hsame

end

namespace AppState
section
variable {F : Type} [F32 F]

/-- what the tab comes back as -/
structure Revives (s : AppState F) (tab t : TerminalTab F) : Prop where
  id : t.id = tab.id
  panes : t.layout.panes =
    (s.survivingRows tab.layout.panes).map (·.map fun p => paneFromPersisted (s.side.persistedPane p))
  shaped : t.layout.Shaped
  rowRatios : ∀ r ∈ t.layout.rowRatios, isPositive r = true
  colRatios : ∀ ratios ∈ t.layout.colRatios, ∀ r ∈ ratios, isPositive r = true
  focus : s.side.transient tab.layout.activePane = false → t.layout.activePane = tab.layout.activePane

omit [F32 F] in
lemma mem_survivingRows_ne_nil {s : AppState F} {rows : List (List Pane)} {row : List Pane}
    (h : row ∈ s.survivingRows rows) : row ≠ [] := by
  have hkept := (List.mem_filter.mp h).2
  intro hnil
  rw [hnil] at hkept
  cases hkept

/-- a tab that was saved is restored -/
lemma Saved.revives {s : AppState F} {tab : TerminalTab F} {pt : PersistedTab F} (h : s.Saved tab pt)
    (hshape : tab.layout.Shaped) (hone : isPositive (F32.one : F) = true) :
    ∃ t, terminalTabFromPersisted pt = some t ∧ s.Revives tab t := by
  have hpanes : (pt.panes.map (·.map paneFromPersisted)).filter (!·.isEmpty) =
      (s.survivingRows tab.layout.panes).map (·.map fun p => paneFromPersisted (s.side.persistedPane p)) := by
    rw [h.panes]
    unfold PaneTables.persistedRows
    rw [List.map_map, List.filter_eq_self.mpr]
    · exact List.map_congr_left fun row _ => List.map_map ..
    · intro row hrow
      obtain ⟨row', hrow', rfl⟩ := List.mem_map.mp hrow
      have hne := mem_survivingRows_ne_nil hrow'
      simp [hne]
  have hflat : ((s.survivingRows tab.layout.panes).map
      (·.map fun p => paneFromPersisted (s.side.persistedPane p))).flatten ≠ [] := by
    rw [← List.map_flatten]
    exact fun hnil => survives_iff.mp h.survives (List.map_eq_nil_iff.mp hnil)
  have hids : ∀ id, id ∈ tab.layout.ids → s.side.transient id = false →
      id ∈ ((s.survivingRows tab.layout.panes).map
        (·.map fun p => paneFromPersisted (s.side.persistedPane p))).flatten.map Pane.id := by
    intro id hid hkept
    obtain ⟨p, hp, rfl⟩ := PaneLayout.mem_ids.mp hid
    rw [← List.map_flatten, List.map_map]
    exact List.mem_map.mpr ⟨p, mem_survivingRows.mpr ⟨hp, hkept⟩, rfl⟩
  obtain ⟨rows, hrows⟩ : ∃ rows, rows = (s.survivingRows tab.layout.panes).map
      (·.map fun p => paneFromPersisted (s.side.persistedPane p)) := ⟨_, rfl⟩
  rw [← hrows] at hpanes hflat hids
  obtain ⟨t, ht, hlayout⟩ : ∃ t, terminalTabFromPersisted pt = some t ∧ t.id = pt.id ∧ t.layout.panes = rows ∧
      t.layout.rowRatios = normalizedRowRatios rows pt.rowRatios ∧
      t.layout.colRatios = normalizedColRatios rows pt.colRatios ∧
      (pt.activePane ∈ rows.flatten.map Pane.id → t.layout.activePane = pt.activePane) := by
    unfold terminalTabFromPersisted
    simp only [hpanes]
    cases hcase : rows.flatten with
    | nil => exact absurd hcase hflat
    | cons first rest =>
      refine ⟨_, rfl, rfl, rfl, rfl, rfl, fun hmem => ?_⟩
      exact find?_getD_of_mem (hcase ▸ hmem) first.id
  obtain ⟨hid, hpanes', hrowRatios, hcolRatios, hfocus⟩ := hlayout
  refine ⟨t, ht, ⟨hid.trans h.id, hpanes'.trans hrows, terminalTabFromPersisted_shaped ht, ?_, ?_, fun hkept => ?_⟩⟩
  · rw [hrowRatios]
    exact normalizedRowRatios_positive hone _ _
  · rw [hcolRatios]
    exact normalizedColRatios_positive hone _ _
  · have hfocus' := h.focus hkept
    rw [hfocus, hfocus']
    rw [hfocus']
    exact hids _ hshape.focused hkept

/-- the tabs of a workspace that are saved -/
def savedTabs (s : AppState F) (idx : Nat) (ws : Workspace F) : List (TerminalTab F) :=
  (s.tabsOf idx ws).1.filter s.survives

/-- where the active tab is among the tabs that are saved -/
def savedActive (s : AppState F) (idx : Nat) (ws : Workspace F) : Nat :=
  (((s.tabsOf idx ws).1.take (s.tabsOf idx ws).2).filter s.survives).length

/-- the active tab of a workspace is saved -/
def ActiveSurvives (s : AppState F) (idx : Nat) (ws : Workspace F) : Prop :=
  ∃ tab, (s.tabsOf idx ws).1[(s.tabsOf idx ws).2]? = some tab ∧ s.survives tab = true

omit [F32 F] in
lemma Shape.tabsOf_shaped {s : AppState F} (hs : s.Shape) {idx : Nat} {ws : Workspace F}
    (hws : s.workspaces[idx]? = some ws) : ∀ t ∈ (s.tabsOf idx ws).1, t.layout.Shaped := by
  unfold tabsOf
  split_ifs
  · exact hs.saved
  · exact hs.workspaces ws (List.mem_of_getElem? hws)

/-- the saved tabs of a workspace, and the active one -/
lemma persistedWorkspace_saved {s : AppState F} (hs : s.Shape) {idx : Nat} {ws : Workspace F}
    (hws : s.workspaces[idx]? = some ws) :
    List.Forall₂ s.Saved (s.savedTabs idx ws) (s.persistedWorkspace idx ws).tabs ∧
      (s.ActiveSurvives idx ws → (s.persistedWorkspace idx ws).activeTab = s.savedActive idx ws) := by
  have hshape := hs.tabsOf_shaped hws
  unfold savedTabs savedActive ActiveSurvives persistedWorkspace workspaceTabs
  unfold tabsOf at hshape ⊢
  dsimp only
  by_cases hactive : idx = s.activeWorkspace
  · rw [if_pos hactive] at hshape ⊢
    rw [if_pos hactive]
    obtain ⟨hsaved, hat⟩ := stripTransientTabs_saved (liveTabs_drawn s) hshape s.activeTab
    exact ⟨hsaved, fun ⟨tab, htab, hsurvives⟩ => hat tab htab hsurvives⟩
  · rw [if_neg hactive] at hshape ⊢
    rw [if_neg hactive]
    obtain ⟨hsaved, hat⟩ := stripTransientTabs_saved (persistedTabs_drawn s ws.tabs) hshape ws.activeTab
    exact ⟨hsaved, fun ⟨tab, htab, hsurvives⟩ => hat tab htab hsurvives⟩

/-- the tabs of a workspace are restored, and the active one -/
lemma restoredWorkspace_revives {s : AppState F} (hs : s.Shape) (hone : isPositive (F32.one : F) = true) {idx : Nat}
    {ws : Workspace F} (hws : s.workspaces[idx]? = some ws) (num : Nat) :
    List.Forall₂ s.Revives (s.savedTabs idx ws) (restoredWorkspace num (s.persistedWorkspace idx ws)).tabs ∧
      (s.ActiveSurvives idx ws →
        (restoredWorkspace num (s.persistedWorkspace idx ws)).activeTab = s.savedActive idx ws) := by
  obtain ⟨hsaved, hactive⟩ := persistedWorkspace_saved hs hws
  have hshape : ∀ t ∈ s.savedTabs idx ws, t.layout.Shaped :=
    fun t ht => hs.tabsOf_shaped hws t (List.mem_of_mem_filter ht)
  have hrevives : List.Forall₂ s.Revives (s.savedTabs idx ws)
      ((s.persistedWorkspace idx ws).tabs.filterMap terminalTabFromPersisted) := by
    have hboth := (List.forall₂_and_left _ _).mpr ⟨hshape, hsaved⟩
    have hmap := forall₂_filterMap (p := fun _ => true) (fun tab pt h => .inr ⟨rfl, h.2.revives h.1 hone⟩) hboth
    rwa [List.filter_true] at hmap
  refine ⟨hrevives, fun hsurvives => ?_⟩
  obtain ⟨tab, htab, hkept⟩ := hsurvives
  have hlt : s.savedActive idx ws < (s.savedTabs idx ws).length := filter_take_lt htab hkept
  rw [hrevives.length_eq] at hlt
  show (if List.isEmpty _ then 0 else min (s.persistedWorkspace idx ws).activeTab (_ - 1)) = _
  rw [hactive ⟨tab, htab, hkept⟩, if_neg]
  · exact Nat.min_eq_left (Nat.le_sub_one_of_lt hlt)
  · rw [List.isEmpty_iff]
    exact List.ne_nil_of_length_pos (Nat.zero_lt_of_lt hlt)

end
end AppState

section
variable {F : Type} [F32 F]

/-- entries whose numbers are distinct keep them -/
lemma restoreEntries_distinct {used : List Nat} {entries : List (PersistedWorkspace F)}
    (hnodup : (entries.map PersistedWorkspace.num).Nodup)
    (hfree : ∀ entry ∈ entries, entry.num ≠ 0 ∧ entry.num ∉ used) :
    restoreEntries used entries = entries.map fun entry => (restoredWorkspace entry.num entry, entry.flat) := by
  induction entries generalizing used with
  | nil => rfl
  | cons entry rest ih =>
    obtain ⟨hnew, hrest⟩ := List.nodup_cons.mp hnodup
    unfold restoreEntries
    rw [show restoredNum used entry.num = some entry.num from if_pos (hfree entry List.mem_cons_self)]
    dsimp only
    rw [ih hrest fun other hother => ?_]
    · rfl
    · obtain ⟨hzero, hused⟩ := hfree other (List.mem_cons_of_mem _ hother)
      refine ⟨hzero, List.not_mem_cons_of_ne_of_not_mem (fun heq => hnew ?_) hused⟩
      exact heq ▸ List.mem_map_of_mem hother

/-- the greatest pane id of those that are gathered -/
lemma gathered_max (absolute : String → Bool) (t : CharTable) (pps : List PersistedPane) (g : Gathered) :
    g.maxPaneId ≤ (pps.foldl (gatherPane absolute t) g).maxPaneId ∧
      (∀ pp ∈ pps, pp.id ≤ (pps.foldl (gatherPane absolute t) g).maxPaneId) ∧
      ∀ bound, g.maxPaneId < bound → (∀ pp ∈ pps, pp.id < bound) →
        (pps.foldl (gatherPane absolute t) g).maxPaneId < bound := by
  induction pps generalizing g with
  | nil => exact ⟨Nat.le_refl _, fun pp hpp => by (cases hpp), fun _ h _ => h⟩
  | cons pp rest ih =>
    obtain ⟨hle, hall, hlt⟩ := ih (gatherPane absolute t g pp)
    have hmax : (gatherPane absolute t g pp).maxPaneId = max g.maxPaneId pp.id := rfl
    rw [hmax] at hle hlt
    rw [List.foldl_cons]
    refine ⟨Nat.le_trans (Nat.le_max_left ..) hle, fun other hother => ?_, fun bound hg hbound => ?_⟩
    · rcases List.mem_cons.mp hother with rfl | hother
      · exact Nat.le_trans (Nat.le_max_right ..) hle
      · exact hall other hother
    · have hhead := hbound pp List.mem_cons_self
      exact hlt bound (Nat.max_lt.mpr ⟨hg, hhead⟩) fun other hother => hbound other (List.mem_cons_of_mem _ hother)

end

namespace AppState
section
variable {F : Type} [F32 F]

/-- the end of `restoreLayout`: a fresh tab when none was loaded, and the id that the next pane gets -/
def reseeded (s : AppState F) (maxPaneId : Nat) : AppState F :=
  if s.live.flat.isEmpty then
    { s.seedFreshTerminalTab (saturatingSucc maxPaneId) with
      nextId := max (saturatingSucc (saturatingSucc maxPaneId)) 2 }
  else
    { s with nextId := max (saturatingSucc maxPaneId) 2 }

/-- every pane id that was gathered is below the next one -/
lemma lt_reseeded_nextId {s : AppState F} {m id : Nat} (hid : id ≤ m) (hm : m < UInt32.size - 1) :
    id < (s.reseeded m).nextId := by
  unfold reseeded saturatingSucc
  split_ifs
  · show id < max _ 2
    omega
  · show id < max _ 2
    omega

/-- the entries are restored one by one, and the active one is loaded -/
lemma restoreLayout_eq {persisted : PersistedState F} (hne : persisted.workspaces ≠ []) (base : AppState F)
    (absolute : String → Bool) (t : CharTable) :
    ∃ side m, m = (((restoreEntries [] persisted.workspaces).flatMap Prod.snd).foldl (gatherPane absolute t)
        ⟨0, ∅, ∅, ∅⟩).maxPaneId ∧
      base.restoreLayout absolute t persisted =
        (loadWorkspaceState
          { base with
            workspaces := (restoreEntries [] persisted.workspaces).map Prod.fst
            activeWorkspace := min persisted.activeWorkspace (persisted.workspaces.length - 1)
            side }).map (·.reseeded m) := by
  let g := ((restoreEntries [] persisted.workspaces).flatMap Prod.snd).foldl (gatherPane absolute t) ⟨0, ∅, ∅, ∅⟩
  refine ⟨{ base.side with
      customTitledPanes := g.customTitled
      agentRestarts := g.agentRestarts
      paneAgents := g.paneAgents
      pendingAgentResumes := ∅
      agentResumeAttempts := ∅
      agentResumePreflights := ∅ }, g.maxPaneId, rfl, ?_⟩
  unfold restoreLayout
  rw [if_neg (by rwa [List.isEmpty_iff])]
  show Option.bind (loadWorkspaceState _) _ = Option.map _ (loadWorkspaceState _)
  rw [Option.map_eq_bind]
  congr 1
  funext s
  unfold reseeded
  dsimp only [Function.comp_apply]
  split_ifs <;> rfl

/-- the tabs of the workspace that is loaded, or one fresh tab -/
lemma loadWorkspaceState_reseeded {s : AppState F} {ws : Workspace F} (hws : s.workspaces[s.activeWorkspace]? = some ws)
    (hshape : ∀ t ∈ ws.tabs, t.layout.Shaped) (m : Nat) :
    ∃ u, s.loadWorkspaceState = some u ∧ (u.reseeded m).activeWorkspace = s.activeWorkspace ∧
      ((ws.tabs ≠ [] ∧ (u.reseeded m).workspaces = s.workspaces ∧ (u.reseeded m).tabs = ws.tabs ∧
          (u.reseeded m).activeTab = min ws.activeTab (ws.tabs.length - 1) ∧ (u.reseeded m).Synced) ∨
        (ws.tabs = [] ∧ (u.reseeded m).Synced ∧ ∃ id, (u.reseeded m).tabs = [.new id "shell" "bash"] ∧
          (u.reseeded m).workspaces = s.workspaces.modify s.activeWorkspace fun ws =>
            { ws with tabs := [.new id "shell" "bash"], activeTab := 0 })) := by
  unfold loadWorkspaceState
  rw [hws]
  dsimp only
  by_cases hempty : ws.tabs.isEmpty
  · rw [if_pos hempty]
    exact ⟨_, rfl, rfl, .inr ⟨List.isEmpty_iff.mp hempty, ⟨_, rfl, rfl⟩, _, rfl, rfl⟩⟩
  · rw [if_neg hempty]
    have hne : ws.tabs ≠ [] := fun hnil => hempty (List.isEmpty_iff.mpr hnil)
    have hlen := List.length_pos_iff.mpr hne
    have hlt : min ws.activeTab (ws.tabs.length - 1) < ws.tabs.length := by omega
    have hget := List.getElem?_eq_getElem hlt
    refine ⟨{ s with
        tabs := ws.tabs
        activeTab := min ws.activeTab (ws.tabs.length - 1)
        live := ws.tabs[min ws.activeTab (ws.tabs.length - 1)].layout }, ?_, ?_⟩
    · unfold loadTabState
      rw [hget]
      rfl
    · have hfocused := (hshape _ (List.getElem_mem hlt)).focused
      unfold reseeded
      rw [if_neg]
      · exact ⟨rfl, .inl ⟨hne, rfl, rfl, rfl, _, hget, rfl⟩⟩
      · rw [List.isEmpty_iff]
        exact fun hnil => absurd (congrArg (List.map Pane.id) hnil) (List.ne_nil_of_mem hfocused)

end

section
variable {F : Type}

/-- the panes of the app are those of the tabs of its workspaces -/
lemma mem_paneIds_iff {s : AppState F} (hs : s.Seated) {id : PaneId} :
    id ∈ s.paneIds ↔ ∃ i ws, s.workspaces[i]? = some ws ∧ ∃ tab ∈ (s.tabsOf i ws).1, id ∈ tab.paneIds := by
  have hactive : id ∈ s.activePaneIds ↔ ∃ tab ∈ s.saveTabState.tabs, id ∈ tab.paneIds := by
    rw [← hs.saved_perm.mem_iff, List.mem_flatMap]
  unfold paneIds otherPaneIds tabsOf
  rw [List.mem_append, hactive, List.mem_flatMap]
  constructor
  · rintro (⟨tab, htab, hid⟩ | ⟨ws, hws, hid⟩)
    · refine ⟨s.activeWorkspace, _, List.getElem?_eq_getElem hs.workspace, tab, ?_, hid⟩
      rwa [if_pos rfl]
    · obtain ⟨i, hi, hget⟩ := List.mem_eraseIdx_iff_getElem?.mp hws
      obtain ⟨tab, htab, hid⟩ := List.mem_flatMap.mp hid
      refine ⟨i, ws, hget, tab, ?_, hid⟩
      rwa [if_neg hi]
  · rintro ⟨i, ws, hget, tab, htab, hid⟩
    by_cases hi : i = s.activeWorkspace
    · rw [if_pos hi] at htab
      exact .inl ⟨tab, htab, hid⟩
    · rw [if_neg hi] at htab
      exact .inr ⟨ws, List.mem_eraseIdx_iff_getElem?.mpr ⟨i, hi, hget⟩, List.mem_flatMap.mpr ⟨tab, htab, hid⟩⟩

/-- the pane ids of saved tabs are those that survive -/
lemma saved_ids {s : AppState F} {tabs : List (TerminalTab F)} {pts : List (PersistedTab F)}
    (h : List.Forall₂ s.Saved tabs pts) :
    (pts.flatMap fun pt => pt.panes.flatten).map PersistedPane.id =
      (tabs.flatMap fun tab => (s.survivingRows tab.layout.panes).flatten).map Pane.id := by
  induction h with
  | nil => rfl
  | cons hsaved _ ih =>
    rw [List.flatMap_cons, List.flatMap_cons, List.map_append, List.map_append, ih, hsaved.panes, persistedRows_flatten,
      List.map_map]
    rfl

end

section
variable {F : Type} [F32 F]

/-- the pane ids of a snapshot of a workspace are those of its tabs that survive -/
lemma mem_flat_iff {s : AppState F} (hs : s.Shape) {idx : Nat} {ws : Workspace F} (hws : s.workspaces[idx]? = some ws)
    {id : PaneId} : (∃ pp ∈ (s.persistedWorkspace idx ws).flat, pp.id = id) ↔
      s.side.transient id = false ∧ ∃ tab ∈ (s.tabsOf idx ws).1, id ∈ tab.paneIds := by
  have hids := saved_ids (persistedWorkspace_saved hs hws).1
  have hmem : (∃ pp ∈ (s.persistedWorkspace idx ws).flat, pp.id = id) ↔
      id ∈ ((s.savedTabs idx ws).flatMap fun tab => (s.survivingRows tab.layout.panes).flatten).map Pane.id := by
    rw [← hids]
    exact List.mem_map.symm
  rw [hmem, List.mem_map]
  simp only [List.mem_flatMap, mem_survivingRows]
  constructor
  · rintro ⟨p, ⟨tab, htab, hp, hkept⟩, rfl⟩
    exact ⟨hkept, tab, List.mem_of_mem_filter htab, PaneLayout.mem_ids.mpr ⟨p, hp, rfl⟩⟩
  · rintro ⟨hkept, tab, htab, hid⟩
    obtain ⟨p, hp, rfl⟩ := PaneLayout.mem_ids.mp hid
    have hsurvives : s.survives tab = true := survives_iff.mpr (List.ne_nil_of_mem (mem_survivingRows.mpr ⟨hp, hkept⟩))
    exact ⟨p, ⟨tab, List.mem_filter.mpr ⟨htab, hsurvives⟩, hp, hkept⟩, rfl⟩

/-- the workspaces, the tabs with a pane that is saved and the active ones are as they were -/
structure Restores (s u : AppState F) : Prop where
  activeWorkspace : u.activeWorkspace = s.activeWorkspace
  workspaces : u.workspaces.map Workspace.header = s.workspaces.map Workspace.header
  tabs : ∀ i ws ws', s.workspaces[i]? = some ws → u.workspaces[i]? = some ws' →
    List.Forall₂ s.Revives (s.savedTabs i ws) (u.tabsOf i ws').1 ∨
      -- the app does not start without a tab
      (i = s.activeWorkspace ∧ s.savedTabs i ws = [] ∧ ∃ id, (u.tabsOf i ws').1 = [.new id "shell" "bash"])
  activeTab : ∀ i ws ws', s.workspaces[i]? = some ws → u.workspaces[i]? = some ws' → s.ActiveSurvives i ws →
    (u.tabsOf i ws').2 = s.savedActive i ws
  nextId : ∀ id ∈ s.paneIds, s.side.transient id = false → id < u.nextId

end
end AppState

namespace AppState
section
variable {F : Type} [F32 F]

omit [F32 F] in
lemma Synced.saved_tabs {s : AppState F} (hs : s.Synced) : s.saveTabState.tabs = s.tabs := by
  obtain ⟨t, ht, hlayout⟩ := hs
  show s.tabs.modify s.activeTab _ = s.tabs
  apply List.ext_getElem?
  intro i
  rw [List.getElem?_modify]
  by_cases hi : s.activeTab = i
  · rw [← hi, ht, ← hlayout]
    show some (if s.activeTab = s.activeTab then t else t) = some t
    rw [ite_self]
  · cases s.tabs[i]? <;> simp [hi]

/-- the snapshot keeps the numbers -/
lemma fromState_nums (s : AppState F) : s.fromState.workspaces.map PersistedWorkspace.num = s.workspaces.map Workspace.num := by
  show (s.workspaces.mapIdx s.persistedWorkspace).map _ = _
  rw [map_mapIdx]
  apply List.ext_getElem?
  intro i
  rw [List.getElem?_mapIdx, List.getElem?_map]
  rfl

/-- the workspaces that are restored from the snapshot -/
def restoredFrom (s : AppState F) : List (Workspace F) :=
  s.workspaces.mapIdx fun idx ws => restoredWorkspace ws.num (s.persistedWorkspace idx ws)

/-- a snapshot of workspaces with distinct numbers is restored entry by entry -/
lemma restoreEntries_fromState {s : AppState F} (hnums : (s.workspaces.map Workspace.num).Nodup)
    (hzero : ∀ ws ∈ s.workspaces, ws.num ≠ 0) :
    (restoreEntries [] s.fromState.workspaces).map Prod.fst = s.restoredFrom ∧
      (restoreEntries [] s.fromState.workspaces).flatMap Prod.snd = s.fromState.workspaces.flatMap PersistedWorkspace.flat := by
  have hentries : restoreEntries [] s.fromState.workspaces =
      s.fromState.workspaces.map fun entry => (restoredWorkspace entry.num entry, entry.flat) :=
    restoreEntries_distinct (by rw [fromState_nums]; exact hnums) fun entry hentry => ?_
  · rw [hentries, List.map_map, List.flatMap_map]
    refine ⟨?_, rfl⟩
    show (s.workspaces.mapIdx s.persistedWorkspace).map _ = _
    exact map_mapIdx ..
  · have hmem := List.mem_map_of_mem (f := PersistedWorkspace.num) hentry
    rw [fromState_nums] at hmem
    obtain ⟨ws, hws, heq⟩ := List.mem_map.mp hmem
    exact ⟨heq ▸ hzero ws hws, List.not_mem_nil⟩

lemma restoredFrom_header (s : AppState F) :
    s.restoredFrom.map Workspace.header = s.workspaces.map Workspace.header := by
  unfold restoredFrom
  rw [map_mapIdx]
  apply List.ext_getElem?
  intro i
  rw [List.getElem?_mapIdx, List.getElem?_map]
  rfl

omit [F32 F] in
lemma map_header_modify {f : Workspace F → Workspace F} (hf : ∀ ws, (f ws).header = ws.header)
    (workspaces : List (Workspace F)) (i : Nat) :
    (workspaces.modify i f).map Workspace.header = workspaces.map Workspace.header := by
  apply List.ext_getElem?
  intro j
  rw [List.getElem?_map, List.getElem?_map, List.getElem?_modify, Option.map_eq_map, Option.map_map]
  congr 1
  funext ws
  show Workspace.header (if i = j then f ws else ws) = ws.header
  split_ifs
  · exact hf ws
  · rfl

/-- the pane ids of the snapshot are those of the panes that are saved -/
lemma fromState_ids {s : AppState F} (hs : s.Shape) (hseated : s.Seated) {id : PaneId} :
    (∃ pp ∈ s.fromState.workspaces.flatMap PersistedWorkspace.flat, pp.id = id) ↔
      id ∈ s.paneIds ∧ s.side.transient id = false := by
  have hentry (entry : PersistedWorkspace F) : entry ∈ s.fromState.workspaces ↔
      ∃ i ws, s.workspaces[i]? = some ws ∧ s.persistedWorkspace i ws = entry := by
    show entry ∈ s.workspaces.mapIdx s.persistedWorkspace ↔ _
    rw [List.mem_iff_getElem?]
    simp only [List.getElem?_mapIdx, Option.map_eq_some_iff]
  rw [mem_paneIds_iff hseated]
  simp only [List.mem_flatMap, hentry]
  constructor
  · rintro ⟨pp, ⟨_, ⟨i, ws, hws, rfl⟩, hpp⟩, rfl⟩
    obtain ⟨hkept, htab⟩ := (mem_flat_iff hs hws).mp ⟨pp, hpp, rfl⟩
    exact ⟨⟨i, ws, hws, htab⟩, hkept⟩
  · rintro ⟨⟨i, ws, hws, htab⟩, hkept⟩
    obtain ⟨pp, hpp, heq⟩ := (mem_flat_iff hs hws).mpr ⟨hkept, htab⟩
    exact ⟨pp, ⟨_, ⟨i, ws, hws, rfl⟩, hpp⟩, heq⟩

end
end AppState

section
variable {F : Type} [F32 F]

/-- **Main result.**  What is restored from the snapshot of a state in shape has its workspaces, the tabs with a pane
that is no editor and no flow, with those panes in their rows, and the active tab and pane when they are saved. -/
theorem layout_survives {s : AppState F} (hs : s.Shape) (hactive : s.activeWorkspace < s.workspaces.length)
    (hnums : (s.workspaces.map Workspace.num).Nodup) (hzero : ∀ ws ∈ s.workspaces, ws.num ≠ 0)
    (hids : ∀ id ∈ s.paneIds, id < UInt32.size - 1) (hone : isPositive (F32.one : F) = true) (base : AppState F)
    (absolute : String → Bool) (t : CharTable) :
    ∃ u, base.restoreLayout absolute t s.fromState = some u ∧ s.Restores u := by
  obtain ⟨hW, hflat⟩ := AppState.restoreEntries_fromState hnums hzero
  have hlen : s.fromState.workspaces.length = s.workspaces.length := List.length_mapIdx
  have hne : s.fromState.workspaces ≠ [] := List.ne_nil_of_length_pos (hlen ▸ Nat.zero_lt_of_lt hactive)
  obtain ⟨side, m, hm, hrestore⟩ := AppState.restoreLayout_eq hne base absolute t
  have hclamp : min s.fromState.activeWorkspace (s.fromState.workspaces.length - 1) = s.activeWorkspace := by
    rw [hlen]
    exact Nat.min_eq_left (Nat.le_sub_one_of_lt hactive)
  rw [hW, hclamp] at hrestore
  have hget := List.getElem?_eq_getElem hactive
  have hloaded : s.restoredFrom[s.activeWorkspace]? = some (restoredWorkspace s.workspaces[s.activeWorkspace].num
      (s.persistedWorkspace s.activeWorkspace s.workspaces[s.activeWorkspace])) := by
    unfold AppState.restoredFrom
    rw [List.getElem?_mapIdx, hget]
    rfl
  obtain ⟨v, hv, hactive', hcase⟩ := AppState.loadWorkspaceState_reseeded (s := { base with
    workspaces := s.restoredFrom, activeWorkspace := s.activeWorkspace, side }) hloaded
    (fun t ht => by
      obtain ⟨pt, -, hpt⟩ := List.mem_filterMap.mp ht
      exact terminalTabFromPersisted_shaped hpt) m
  rw [hv] at hrestore
  refine ⟨v.reseeded m, hrestore, ?_⟩
  have hseated : s.Seated := ⟨hactive, hs.active, fun hnil => by rw [hs.bare hnil]; rfl⟩
  obtain ⟨-, hle, hlt⟩ := gathered_max absolute t (s.fromState.workspaces.flatMap PersistedWorkspace.flat) ⟨0, ∅, ∅, ∅⟩
  rw [hflat] at hm
  rw [← hm] at hle hlt
  have hmax : m < UInt32.size - 1 := hlt _ (by decide) fun pp hpp =>
    hids _ ((AppState.fromState_ids hs hseated).mp ⟨pp, hpp, rfl⟩).1
  have hsync : (v.reseeded m).Synced := by
    rcases hcase with ⟨-, -, -, -, hsync⟩ | ⟨-, hsync, -⟩
    · exact hsync
    · exact hsync
  -- at most the tabs of the active workspace are not as they are restored
  have hworkspaces : ∃ f : Workspace F → Workspace F, (∀ ws, (f ws).header = ws.header) ∧
      (v.reseeded m).workspaces = s.restoredFrom.modify s.activeWorkspace f := by
    rcases hcase with ⟨-, hsame, -⟩ | ⟨-, -, id, -, hseed⟩
    · exact ⟨id, fun _ => rfl, by rw [List.modify_id]; exact hsame⟩
    · refine ⟨_, ?_, hseed⟩
      exact fun _ => rfl
  obtain ⟨f, hf, hworkspaces⟩ := hworkspaces
  have htabsOf (ws' : Workspace F) :
      (v.reseeded m).tabsOf s.activeWorkspace ws' = ((v.reseeded m).tabs, (v.reseeded m).activeTab) := by
    unfold AppState.tabsOf
    rw [if_pos hactive'.symm, hsync.saved_tabs]
  have hother : ∀ i ws ws', s.workspaces[i]? = some ws → (v.reseeded m).workspaces[i]? = some ws' →
      i ≠ s.activeWorkspace →
      (v.reseeded m).tabsOf i ws' = ((restoredWorkspace ws.num (s.persistedWorkspace i ws)).tabs,
        (restoredWorkspace ws.num (s.persistedWorkspace i ws)).activeTab) := by
    intro i ws ws' hws hws' hi
    rw [hworkspaces, List.getElem?_modify_ne _ _ (Ne.symm hi), AppState.restoredFrom, List.getElem?_mapIdx, hws] at hws'
    obtain rfl := Option.some.inj hws'
    unfold AppState.tabsOf
    rw [if_neg fun heq => hi (heq.trans hactive')]
  refine ⟨hactive', ?_, fun i ws ws' hws hws' => ?_, fun i ws ws' hws hws' hsurvives => ?_, fun id hid hkept => ?_⟩
  · rw [hworkspaces, AppState.map_header_modify hf, AppState.restoredFrom_header]
  · obtain ⟨hrevives, -⟩ := AppState.restoredWorkspace_revives hs hone hws ws.num
    by_cases hi : i = s.activeWorkspace
    · subst hi
      obtain rfl := Option.some.inj (hget.symm.trans hws)
      rw [htabsOf]
      rcases hcase with ⟨-, -, htabs, -⟩ | ⟨hnil, -, id, htabs, -⟩
      · rw [htabs]
        exact .inl hrevives
      · rw [hnil] at hrevives
        exact .inr ⟨rfl, List.forall₂_nil_right_iff.mp hrevives, id, htabs⟩
    · rw [hother i ws ws' hws hws' hi]
      exact .inl hrevives
  · obtain ⟨hrevives, hat⟩ := AppState.restoredWorkspace_revives hs hone hws ws.num
    by_cases hi : i = s.activeWorkspace
    · subst hi
      obtain rfl := Option.some.inj (hget.symm.trans hws)
      rw [htabsOf]
      obtain ⟨tab, htab, hsurvives'⟩ := hsurvives
      have hlt : s.savedActive s.activeWorkspace _ < (s.savedTabs s.activeWorkspace _).length := filter_take_lt htab hsurvives'
      rw [hrevives.length_eq] at hlt
      rcases hcase with ⟨-, -, -, hactiveTab, -⟩ | ⟨hnil, -⟩
      · rw [hactiveTab, hat ⟨tab, htab, hsurvives'⟩]
        exact Nat.min_eq_left (Nat.le_sub_one_of_lt hlt)
      · rw [hnil] at hlt
        cases hlt
    · rw [hother i ws ws' hws hws' hi]
      exact hat hsurvives
  · obtain ⟨pp, hpp, rfl⟩ := (AppState.fromState_ids hs hseated).mpr ⟨hid, hkept⟩
    exact AppState.lt_reseeded_nextId (hle pp hpp) hmax

end

/-- a terminal, and notes beside it in a tab of their own -/
def notesState : AppState ℚ := @AppState.mutateAddEditorTab ℚ Ui.exactF32 firstRun ⟨"notes.txt", false, false, false⟩

theorem layout_survives_notes :
    ∃ u, @AppState.restoreLayout ℚ Ui.exactF32 (fun _ => true) ⟨Char.isAlphanum⟩ firstRun
      (@AppState.fromState ℚ Ui.exactF32 notesState) = some u ∧ @AppState.Restores ℚ Ui.exactF32 notesState u := by
  let _ := Ui.exactF32
  have hshape : notesState.Shape := ((AppState.seedState_shape "app" none ⟨"", []⟩).openTab _ _).withSide _
  exact layout_survives hshape (by decide) (by decide) (by decide) (by decide) rfl firstRun _ _

end TerminalManager.App
