import TerminalManager.App.Restart

/-!
# The layout cut down to the panes that are kept

* `Home`                    the tabs of a workspace and which one is active;
* `Home.CutDown`            the kept panes in their rows, and the active tab and pane when they are kept;
* `Home.Steady`             no tab goes before the active one, or none is left after it;
* `pruning_keeps_focus`     the layout is cut down as it should exactly when every workspace is steady.
-/

namespace TerminalManager.App
open Ui (F32)
open Transition

/-- the tabs of a workspace and which one is active -/
abbrev Home (F : Type) := List (TerminalTab F) × Nat

section
variable {F : Type}

namespace TerminalTab

/-- some pane of the tab is kept -/
def keeps (kept : PaneId → Bool) (t : TerminalTab F) : Bool := t.paneIds.any kept

/-- what is left of the tab `t` -/
structure CutTo (kept : PaneId → Bool) (t t' : TerminalTab F) : Prop where
  id : t'.id = t.id
  panes : t'.layout.panes = keptRows kept t.layout.panes
  focus : kept t.layout.activePane = true → t'.layout.activePane = t.layout.activePane

end TerminalTab

namespace Home

/-- the tabs with a kept pane are left in their order, and the active one stays active when it is among them -/
structure CutDown (kept : PaneId → Bool) (h h' : Home F) : Prop where
  tabs : List.Forall₂ (TerminalTab.CutTo kept) (h.1.filter (·.keeps kept)) h'.1
  active : ∀ t, h.1[h.2]? = some t → t.keeps kept = true → h'.2 = ((h.1.take h.2).filter (·.keeps kept)).length

/-- when the active tab is left, so is every tab before it, or none after it -/
def Steady (kept : PaneId → Bool) (h : Home F) : Prop :=
  ∀ t, h.1[h.2]? = some t → t.keeps kept = true →
    (∀ t ∈ h.1.take h.2, t.keeps kept = true) ∨ ∀ t ∈ h.1.drop (h.2 + 1), t.keeps kept = false

end Home

/-- the tabs that a workspace has stored -/
def Workspace.home (ws : Workspace F) : Home F := (ws.tabs, ws.activeTab)

namespace AppState

/-- the homes of the workspaces, or the one of an app without any -/
def homes (s : AppState F) : List (Home F) :=
  if s.workspaces.isEmpty then [(s.saveTabState.tabs, s.activeTab)] else s.workspaces.mapIdx s.tabsOf

end AppState

lemma TerminalTab.keeps_iff {kept : PaneId → Bool} {t : TerminalTab F} :
    t.keeps kept = true ↔ (keptRows kept t.layout.panes).flatten ≠ [] := by
  unfold keeps TerminalTab.paneIds PaneLayout.ids PaneLayout.flat
  rw [flatten_keptRows, List.any_map, List.any_eq_true]
  constructor
  · rintro ⟨p, hp, hkept⟩
    exact List.ne_nil_of_mem (List.mem_filter.mpr ⟨hp, hkept⟩)
  · intro hne
    obtain ⟨p, hp⟩ := List.exists_mem_of_ne_nil _ hne
    exact ⟨p, List.mem_filter.mp hp⟩

end

section
variable {F : Type} [F32 F]

/-- what is left of a tab is cut down to the kept panes -/
lemma retainTabPanes_cut {kept : PaneId → Bool} {t : TerminalTab F} (hshape : t.layout.Shaped) :
    (t.keeps kept = false ∧ t.retainTabPanes kept = none) ∨
      t.keeps kept = true ∧ ∃ t', t.retainTabPanes kept = some t' ∧ t.CutTo kept t' := by
  have hrows := PaneLayout.retainRows_panes kept t.layout
  unfold TerminalTab.retainTabPanes PaneLayout.retain
  dsimp only
  rw [hrows]
  cases hflat : (keptRows kept t.layout.panes).flatten with
  | nil => exact .inl ⟨Bool.eq_false_iff.mpr fun h => TerminalTab.keeps_iff.mp h hflat, rfl⟩
  | cons first rest =>
    refine .inr ⟨TerminalTab.keeps_iff.mpr (hflat ▸ List.cons_ne_nil _ _), _, rfl, rfl, rfl, fun hkept => ?_⟩
    obtain ⟨p, hp, hid⟩ := PaneLayout.mem_ids.mp hshape.focused
    apply if_pos
    rw [← hflat, flatten_keptRows]
    exact List.any_eq_true.mpr ⟨p, List.mem_filter.mpr ⟨hp, hid ▸ hkept⟩, beq_iff_eq.mpr hid⟩

/-- what is left of the tabs, with the index of the active one clamped -/
def Home.retain (kept : PaneId → Bool) (h : Home F) : Home F :=
  (retainTabs kept h.1, if (retainTabs kept h.1).isEmpty then 0 else min h.2 ((retainTabs kept h.1).length - 1))

/-- the clamped index is the right one when no tab went before it, or none is left after it -/
lemma Home.retain_cutDown {kept : PaneId → Bool} {h : Home F} (hshape : ∀ t ∈ h.1, t.layout.Shaped) :
    h.CutDown kept (h.retain kept) ↔ h.Steady kept := by
  have htabs : List.Forall₂ (TerminalTab.CutTo kept) (h.1.filter (·.keeps kept)) (retainTabs kept h.1) := by
    apply forall₂_filterMap (R := fun t t' => t' = t ∧ t.layout.Shaped)
    · rintro t _ ⟨rfl, ht⟩
      exact retainTabPanes_cut ht
    · exact List.forall₂_same.mpr fun t ht => ⟨rfl, hshape t ht⟩
  have hactive : ∀ t, h.1[h.2]? = some t → t.keeps kept = true →
      ((h.retain kept).2 = ((h.1.take h.2).filter (·.keeps kept)).length ↔
        (∀ t ∈ h.1.take h.2, t.keeps kept = true) ∨ ∀ t ∈ h.1.drop (h.2 + 1), t.keeps kept = false) := by
    intro t ht hkept
    have hlen := htabs.length_eq
    have hsplit := length_filter_split (p := (·.keeps kept)) ht hkept
    have hbefore := List.length_filter_eq_length_iff (p := (·.keeps kept)) (l := h.1.take h.2)
    have hafter : ((h.1.drop (h.2 + 1)).filter (·.keeps kept)).length = 0 ↔
        ∀ t ∈ h.1.drop (h.2 + 1), t.keeps kept = false := by
      rw [List.length_eq_zero_iff, List.filter_eq_nil_iff]
      simp only [Bool.not_eq_true]
    have htake : (h.1.take h.2).length = h.2 := by
      rw [List.length_take]
      exact Nat.min_eq_left (Nat.le_of_lt (List.getElem?_eq_some_iff.mp ht).1)
    have hle := List.length_filter_le (·.keeps kept) (h.1.take h.2)
    rw [← hbefore, ← hafter]
    show (if (retainTabs kept h.1).isEmpty then 0 else min h.2 ((retainTabs kept h.1).length - 1)) = _ ↔ _
    rw [if_neg]
    · omega
    · intro hempty
      rw [List.isEmpty_iff.mp hempty] at hlen
      simp only [List.length_nil] at hlen
      omega
  constructor
  · intro hcut t ht hkept
    exact (hactive t ht hkept).mp (hcut.active t ht hkept)
  · intro hsteady
    exact ⟨htabs, fun t ht hkept => (hactive t ht hkept).mpr (hsteady t ht hkept)⟩

/-- a workspace that is cut down has its active tab in range -/
lemma Workspace.retain_ordered (kept : PaneId → Bool) (ws : Workspace F) :
    ((ws.retain kept).tabs = [] → (ws.retain kept).activeTab = 0) ∧
      ((ws.retain kept).tabs ≠ [] → (ws.retain kept).activeTab < (ws.retain kept).tabs.length) := by
  unfold Workspace.retain
  dsimp only
  constructor
  · intro hnil
    rw [if_pos (List.isEmpty_iff.mpr hnil)]
  · intro hne
    have hpos := List.length_pos_iff.mpr hne
    rw [if_neg fun hempty => hne (List.isEmpty_iff.mp hempty)]
    omega

end

namespace AppState
section
variable {F : Type}

/-- the active tab, once loaded, is in step with the live fields -/
lemma loadTabState_home {s : AppState F} (h : s.activeTab < s.tabs.length) :
    ∃ u, s.loadTabState = some u ∧ u.workspaces = s.workspaces ∧ u.activeWorkspace = s.activeWorkspace ∧
      (u.saveTabState.tabs, u.activeTab) = (s.tabs, s.activeTab) := by
  have hget := List.getElem?_eq_getElem h
  refine ⟨{ s with live := s.tabs[s.activeTab].layout }, by unfold loadTabState; rw [hget]; rfl, rfl, rfl, ?_⟩
  have hsync : Synced { s with live := s.tabs[s.activeTab].layout } := ⟨_, hget, rfl⟩
  rw [hsync.saved_tabs]

/-- a workspace in order, once loaded, has its home -/
lemma loadWorkspaceState_home {s : AppState F} {ws : Workspace F} (hws : s.workspaces[s.activeWorkspace]? = some ws)
    (hnil : ws.tabs = [] → ws.activeTab = 0) (hlt : ws.tabs ≠ [] → ws.activeTab < ws.tabs.length) :
    ∃ u, s.loadWorkspaceState = some u ∧ u.workspaces = s.workspaces ∧ u.activeWorkspace = s.activeWorkspace ∧
      (u.saveTabState.tabs, u.activeTab) = (ws.tabs, ws.activeTab) := by
  unfold loadWorkspaceState
  rw [hws]
  dsimp only
  by_cases hempty : ws.tabs.isEmpty
  · have htabs := List.isEmpty_iff.mp hempty
    rw [if_pos hempty]
    refine ⟨_, rfl, rfl, rfl, ?_⟩
    rw [htabs, hnil htabs]
    rfl
  · rw [if_neg hempty]
    have hactive := hlt fun htabs => hempty (List.isEmpty_iff.mpr htabs)
    have hclamp : min ws.activeTab (ws.tabs.length - 1) = ws.activeTab := by omega
    rw [hclamp]
    exact loadTabState_home (s := { s with tabs := ws.tabs, activeTab := ws.activeTab }) hactive

/-- a state whose active workspace is in step with the live fields has the homes of its workspaces -/
lemma homes_of_loaded {s : AppState F} (hne : s.workspaces ≠ [])
    (h : ∀ ws, s.workspaces[s.activeWorkspace]? = some ws → (s.saveTabState.tabs, s.activeTab) = (ws.tabs, ws.activeTab)) :
    s.homes = s.workspaces.map Workspace.home := by
  unfold homes
  rw [if_neg (by rwa [List.isEmpty_iff])]
  apply List.ext_getElem?
  intro i
  rw [List.getElem?_mapIdx, List.getElem?_map]
  cases hi : s.workspaces[i]? with
  | none => rfl
  | some ws =>
    show some (if i = s.activeWorkspace then (s.saveTabState.tabs, s.activeTab) else _) = some ws.home
    by_cases hactive : i = s.activeWorkspace
    · rw [if_pos hactive, h ws (hactive ▸ hi)]
      rfl
    · rw [if_neg hactive]
      rfl

lemma active_home_mem {s : AppState F} (h : s.activeWorkspace < s.workspaces.length) :
    (s.saveTabState.tabs, s.activeTab) ∈ s.homes := by
  unfold homes
  rw [if_neg fun hnil => by rw [List.isEmpty_iff.mp hnil] at h; cases h]
  refine List.mem_iff_getElem?.mpr ⟨s.activeWorkspace, ?_⟩
  rw [List.getElem?_mapIdx, List.getElem?_eq_getElem h]
  exact congrArg some (if_pos rfl)

/-- workspaces in order, once the active one is loaded, have their homes -/
lemma loadWorkspaceState_homes {s : AppState F} (hne : s.workspaces ≠ [])
    (hordered : ∀ ws ∈ s.workspaces, (ws.tabs = [] → ws.activeTab = 0) ∧ (ws.tabs ≠ [] → ws.activeTab < ws.tabs.length)) :
    ∃ u, s.loadWorkspaceState = some u ∧ u.homes = s.workspaces.map Workspace.home := by
  cases hget : s.workspaces[s.activeWorkspace]? with
  | none =>
    refine ⟨s, by unfold loadWorkspaceState; rw [hget], homes_of_loaded hne fun ws hws => ?_⟩
    rw [hget] at hws
    cases hws
  | some ws =>
    obtain ⟨hnil, hlt⟩ := hordered ws (List.mem_of_getElem? hget)
    obtain ⟨u, hu, hworkspaces, hactive, hhome⟩ := loadWorkspaceState_home hget hnil hlt
    refine ⟨u, hu, ?_⟩
    rw [← hworkspaces] at hne hget ⊢
    rw [← hactive] at hget
    refine homes_of_loaded hne fun ws' hws' => ?_
    rw [hget] at hws'
    rw [← Option.some.inj hws']
    exact hhome

/-- the homes are those of the workspaces that are saved -/
lemma homes_saved {s : AppState F} (hne : s.workspaces ≠ []) :
    s.homes = s.saveWorkspaceState.workspaces.map Workspace.home := by
  unfold homes
  rw [if_neg (by rwa [List.isEmpty_iff])]
  apply List.ext_getElem?
  intro i
  show _ = ((s.workspaces.modify s.activeWorkspace fun ws =>
    { ws with tabs := s.saveTabState.tabs, activeTab := s.activeTab }).map Workspace.home)[i]?
  rw [List.getElem?_mapIdx, List.getElem?_map, List.getElem?_modify]
  cases s.workspaces[i]? with
  | none => rfl
  | some ws =>
    show some (if i = s.activeWorkspace then _ else _) = some (Workspace.home (if s.activeWorkspace = i then _ else _))
    by_cases hactive : i = s.activeWorkspace
    · rw [if_pos hactive, if_pos hactive.symm]
      rfl
    · rw [if_neg hactive, if_neg (Ne.symm hactive)]
      rfl

end

section
variable {F : Type} [F32 F]

/-- every home is cut down on its own -/
lemma pruneCloseLayoutToKeptPanes_homes (s : AppState F) (kept : PaneId → Bool) :
    ∃ u, s.pruneCloseLayoutToKeptPanes kept = some u ∧ u.homes = s.homes.map (Home.retain kept) := by
  unfold pruneCloseLayoutToKeptPanes
  dsimp only
  by_cases hnil : s.workspaces.isEmpty
  · have hhomes (u : AppState F) (hu : u.workspaces = s.workspaces) : u.homes = [(u.saveTabState.tabs, u.activeTab)] := by
      apply if_pos
      rwa [hu]
    rw [if_pos hnil, hhomes s rfl]
    let tabs := retainTabs kept s.saveTabState.tabs
    show ∃ u, (if tabs.isEmpty then _ else loadTabState _) = some u ∧ AppState.homes u =
      [(tabs, if tabs.isEmpty then 0 else min s.activeTab (tabs.length - 1))]
    by_cases hempty : tabs.isEmpty
    · rw [if_pos hempty, if_pos hempty, List.isEmpty_iff.mp hempty]
      exact ⟨_, rfl, hhomes _ rfl⟩
    · rw [if_neg hempty, if_neg hempty]
      have hpos := List.length_pos_iff.mpr fun htabs => hempty (List.isEmpty_iff.mpr htabs)
      obtain ⟨u, hu, hworkspaces, -, hhome⟩ := loadTabState_home (s := { s.saveTabState with
        side := s.side.retainAgents kept, tabs, activeTab := min s.activeTab (tabs.length - 1) })
        (by show min s.activeTab (tabs.length - 1) < tabs.length; omega)
      exact ⟨u, hu, (hhomes u hworkspaces).trans (congrArg (fun home => [home]) hhome)⟩
  · have hne : s.workspaces ≠ [] := fun h => hnil (List.isEmpty_iff.mpr h)
    rw [if_neg hnil, homes_saved hne, List.map_map]
    let W := s.saveWorkspaceState.workspaces.map (Workspace.retain kept)
    have hW : W ≠ [] := by
      intro h
      exact hne (List.modify_eq_nil_iff.mp (List.map_eq_nil_iff.mp h))
    have hmap : W.map Workspace.home = s.saveWorkspaceState.workspaces.map (Home.retain kept ∘ Workspace.home) :=
      List.map_map ..
    rw [← hmap]
    apply loadWorkspaceState_homes
    · exact hW
    · intro ws hws
      obtain ⟨ws', -, rfl⟩ := List.mem_map.mp hws
      exact ws'.retain_ordered kept

omit [F32 F] in
lemma homes_shaped {s : AppState F} (hs : s.Shape) : ∀ h ∈ s.homes, ∀ t ∈ h.1, t.layout.Shaped := by
  unfold homes
  split_ifs
  · intro h hh
    rw [List.mem_singleton.mp hh]
    exact hs.saved
  · intro h hh
    obtain ⟨i, hi⟩ := List.mem_iff_getElem?.mp hh
    rw [List.getElem?_mapIdx] at hi
    obtain ⟨ws, hws, rfl⟩ := Option.map_eq_some_iff.mp hi
    exact hs.tabsOf_shaped hws

end
end AppState

section
variable {F : Type} [F32 F]

/-- **Main result.**  Cut down to the panes that are kept, every workspace has those in their tabs and rows, and the
active tab and pane it had when they are kept, exactly when every workspace is steady. -/
theorem pruning_keeps_focus {s : AppState F} (hs : s.Shape) (kept : PaneId → Bool) :
    ∃ u, s.pruneCloseLayoutToKeptPanes kept = some u ∧
      (List.Forall₂ (Home.CutDown kept) s.homes u.homes ↔ ∀ h ∈ s.homes, h.Steady kept) := by
  obtain ⟨u, hu, hhomes⟩ := AppState.pruneCloseLayoutToKeptPanes_homes s kept
  refine ⟨u, hu, ?_⟩
  rw [hhomes, List.forall₂_map_right_iff, List.forall₂_same]
  exact forall₂_congr fun h hh => Home.retain_cutDown (AppState.homes_shaped hs h hh)

end

def claudeTab : Op := .addAgentTab ⟨"claude", "claude", none, "claude"⟩ ⟨false, .ok 2 0⟩

/-- an agent in the second of four tabs, the third one active -/
def agentBefore : List Op := [claudeTab, .addTab (.ok 3 0), .addTab (.ok 4 0), .switchTab 2]

/-- the agents of the workspace are killed, and the focus is on a tab that it was not on -/
theorem agentBefore_pruned :
    ∃ s, exec (@step ℚ Ui.exactF32) firstRun agentBefore = some s ∧ s.Shape ∧
      (s.tabs[s.activeTab]?.map TerminalTab.id, s.live.ids) = (some "t3", [3]) ∧
      (@step ℚ Ui.exactF32 s (.killWorkspaceAgents 0)).map (fun t => (t.tabs[t.activeTab]?.map TerminalTab.id, t.live.ids)) =
        some (some "t4", [4]) ∧
      ∃ u, @AppState.pruneCloseLayoutToKeptPanes ℚ Ui.exactF32 s (· != 2) = some u ∧
        ¬ List.Forall₂ (Home.CutDown (· != 2)) s.homes u.homes := by
  let _ := Ui.exactF32
  have hstep : ∀ (s : AppState ℚ) op, s.Shape → s.KeepsShape op → ∃ t, step s op = some t ∧ t.Shape := by
    intro s op hs hop
    obtain ⟨t, ht, hiff⟩ := hs.step op
    exact ⟨t, ht, hiff.mpr hop⟩
  have hkeeps : Along step AppState.KeepsShape firstRun agentBefore :=
    ⟨trivial, fun _ _ => ⟨trivial, fun _ _ => ⟨trivial, fun _ _ => ⟨trivial, fun _ _ => trivial⟩⟩⟩⟩
  obtain ⟨s, hs, hshape⟩ := exec_guarded_progress hstep (AppState.seedState_shape "app" none ⟨"", []⟩) hkeeps
  refine ⟨s, hs, hshape, ?_, ?_, ?_⟩
  · cases hs
    decide
  · cases hs
    decide
  · obtain ⟨u, hu, hhomes⟩ := s.pruneCloseLayoutToKeptPanes_homes (· != 2)
    refine ⟨u, hu, fun h => ?_⟩
    rw [hhomes, List.forall₂_map_right_iff, List.forall₂_same] at h
    have hmem := AppState.active_home_mem (s := s) (by cases hs; decide)
    have hsteady := (Home.retain_cutDown (AppState.homes_shaped hshape _ hmem)).mp (h _ hmem)
    have hactive : s.activeTab = 2 := by
      cases hs
      rfl
    have hids : s.saveTabState.tabs.map TerminalTab.paneIds = [[1], [2], [3], [4]] := by
      cases hs
      rfl
    have htab (i : Nat) {ids : List PaneId} (hi : [[1], [2], [3], [4]][i]? = some ids) :
        ∃ t, s.saveTabState.tabs[i]? = some t ∧ t.paneIds = ids := by
      rw [← hids, List.getElem?_map] at hi
      exact Option.map_eq_some_iff.mp hi
    obtain ⟨t1, ht1, hids1⟩ := htab 1 rfl
    obtain ⟨t2, ht2, hids2⟩ := htab 2 rfl
    obtain ⟨t3, ht3, hids3⟩ := htab 3 rfl
    rcases hsteady t2 (hactive ▸ ht2) (by unfold TerminalTab.keeps; rw [hids2]; rfl) with hbefore | hafter
    · have hkeeps := hbefore t1 (List.mem_iff_getElem?.mpr ⟨1, by rw [hactive, List.getElem?_take]; exact ht1⟩)
      unfold TerminalTab.keeps at hkeeps
      rw [hids1] at hkeeps
      cases hkeeps
    · have hkeeps := hafter t3 (List.mem_iff_getElem?.mpr ⟨0, by rw [hactive, List.getElem?_drop]; exact ht3⟩)
      unfold TerminalTab.keeps at hkeeps
      rw [hids3] at hkeeps
      cases hkeeps

theorem pruning_keeps_focus_first :
    ∃ u, @AppState.pruneCloseLayoutToKeptPanes ℚ Ui.exactF32 firstRun (· != 2) = some u ∧
      (List.Forall₂ (Home.CutDown (· != 2)) firstRun.homes u.homes ↔ ∀ h ∈ firstRun.homes, h.Steady (· != 2)) :=
  @pruning_keeps_focus ℚ Ui.exactF32 firstRun (@AppState.seedState_shape ℚ Ui.exactF32 "app" none ⟨"", []⟩) (· != 2)

end TerminalManager.App
