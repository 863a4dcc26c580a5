import Mathlib.Data.List.Nodup
import TerminalManager.App.Rearrange

/-!
# Tab ids

A tab is named after its first pane, and keeps the name when that pane leaves it.  The operations on the
tab strip address a tab by its name.

* `Distinct`            the tabs of each workspace have different ids;
* `NamesTab`            the steps whose new tab, if any, has a name that is free;
* `step_distinct`       such a step keeps the ids distinct;
* `tab_ids_distinct`    in a run of such steps, every state has distinct ids, and a move in the strip keeps
                        the active tab active.
-/

namespace TerminalManager.App
open Ui (F32)
open Transition
open scoped List

section
variable {F : Type}

def tabIds (tabs : List (TerminalTab F)) : List String := tabs.map (·.id)

/-- tabs whose layouts are changed keep their ids -/
lemma tabIds_modify (tabs : List (TerminalTab F)) (i : Nat) {f : TerminalTab F → TerminalTab F}
    (hf : ∀ t, (f t).id = t.id) : tabIds (tabs.modify i f) = tabIds tabs := by
  apply List.ext_getElem?
  intro j
  unfold tabIds
  rw [List.getElem?_map, List.getElem?_map, List.getElem?_modify]
  cases tabs[j]? with
  | none => rfl
  | some t =>
    show some (TerminalTab.id (if _ then f t else t)) = some t.id
    split_ifs
    · rw [hf]
    · rfl

lemma tabIds_retainTabs [F32 F] (kept : PaneId → Bool) (tabs : List (TerminalTab F)) :
    (tabIds (retainTabs kept tabs)).Sublist (tabIds tabs) := by
  induction tabs with
  | nil => exact .slnil
  | cons t tabs ih =>
    unfold retainTabs
    rw [List.filterMap_cons]
    cases hretain : t.retainTabPanes kept with
    | none => exact ih.cons t.id
    | some u =>
      obtain ⟨layout, -, rfl⟩ := Option.map_eq_some_iff.mp hretain
      exact ih.cons_cons t.id

namespace AppState

/-- the tabs of the active workspace have different ids, and so have those of each other one -/
structure Distinct (s : AppState F) : Prop where
  tabs : (tabIds s.tabs).Nodup
  others : ∀ ws ∈ s.workspaces.eraseIdx s.activeWorkspace, (tabIds ws.tabs).Nodup

/-- the name of the tab that the step opens, if any, is not that of another tab -/
def NamesTab (s : AppState F) : Op → Prop
  | .addTab _ | .addWorktreeTab _ _ | .addEditorTab _ | .addFlowTab _ | .addAgentTab _ _ =>
    tabId s.nextId ∉ tabIds s.tabs
  | .extract target _ => target ∈ s.live.ids →
    tabId target ∉ tabIds (if s.live.paneCount = 1 then s.tabs.eraseIdx s.activeTab else s.tabs)
  | _ => True

/-- the tabs of the active workspace change, and those that are left keep their ids -/
lemma Distinct.of_tabs {s t : AppState F} (hs : s.Distinct) (htabs : (tabIds t.tabs).Nodup)
    (hworkspaces : t.workspaces = s.workspaces) (hactive : t.activeWorkspace = s.activeWorkspace) : t.Distinct := by
  refine ⟨htabs, ?_⟩
  rw [hworkspaces, hactive]
  exact hs.others

lemma Distinct.of_sublist {s t : AppState F} (hs : s.Distinct) (htabs : (tabIds t.tabs).Sublist (tabIds s.tabs))
    (hworkspaces : t.workspaces = s.workspaces) (hactive : t.activeWorkspace = s.activeWorkspace) : t.Distinct :=
  hs.of_tabs (hs.tabs.sublist htabs) hworkspaces hactive

lemma Loads.tabIds {s t : AppState F} {i : Nat} (h : Loads s i t) : tabIds t.tabs = App.tabIds s.tabs := by
  cases h with
  | plain htab => rfl
  | refocused htab hid => exact tabIds_modify _ _ fun _ => rfl

lemma Loads.distinct {s t u : AppState F} {i : Nat} (hs : s.Distinct) (h : Loads u i t)
    (htabs : (App.tabIds u.tabs).Sublist (App.tabIds s.tabs))
    (hu : u.workspaces = s.workspaces ∧ u.activeWorkspace = s.activeWorkspace) : t.Distinct :=
  hs.of_sublist (h.tabIds ▸ htabs) (h.workspaces.1.trans hu.1) (h.workspaces.2.trans hu.2)

lemma saveTabState_tabIds (s : AppState F) : tabIds s.saveTabState.tabs = tabIds s.tabs :=
  tabIds_modify _ _ fun _ => rfl

lemma tabIds_sync (s : AppState F) : tabIds s.syncLiveTabFromPanes.tabs = tabIds s.tabs :=
  tabIds_modify _ _ fun _ => rfl

lemma tabIds_eraseIdx (tabs : List (TerminalTab F)) (i : Nat) :
    (tabIds (tabs.eraseIdx i)).Sublist (tabIds tabs) := (List.eraseIdx_sublist ..).map _

lemma distinct_of_relives {s t : AppState F} (hs : s.Distinct) (h : t = s ∨ s.Relives t) : t.Distinct := by
  obtain rfl | ⟨live, -, -, rfl⟩ := h
  · exact hs
  · exact hs.of_sublist ((tabIds_sync _).symm ▸ .refl _) rfl rfl

/-- all the workspaces have distinct ids, once the tabs are saved -/
lemma Distinct.saved {s : AppState F} (hs : s.Distinct) (hlt : s.activeWorkspace < s.workspaces.length) :
    ∀ ws ∈ s.saveWorkspaceState.workspaces, (tabIds ws.tabs).Nodup := by
  intro ws hws
  have hperm := perm_modify (List.getElem?_eq_getElem hlt) fun ws : Workspace F =>
    { ws with tabs := s.saveTabState.tabs, activeTab := s.activeTab }
  rcases List.mem_cons.mp (hperm.mem_iff.mp hws) with rfl | hws
  · show (tabIds s.saveTabState.tabs).Nodup
    rw [saveTabState_tabIds]
    exact hs.tabs
  · exact hs.others ws hws

lemma Distinct.of_load {s t : AppState F} (hlt : s.activeWorkspace < s.workspaces.length)
    (hall : ∀ ws ∈ s.workspaces, (tabIds ws.tabs).Nodup) (h : s.loadWorkspaceState = some t) : t.Distinct := by
  obtain ⟨hnone, -⟩ | ⟨ws, hws, ⟨-, rfl⟩ | ⟨tab, -, rfl⟩⟩ := loadWorkspaceState_cases h
  · have := List.getElem?_eq_none_iff.mp hnone
    omega
  · exact ⟨List.nodup_nil, fun ws hws => hall ws (List.mem_of_mem_eraseIdx hws)⟩
  · exact ⟨hall ws (List.mem_of_getElem? hws), fun ws hws => hall ws (List.mem_of_mem_eraseIdx hws)⟩

lemma mutateSwitchTab_distinct {s t : AppState F} (hs : s.Distinct) {n : Nat} (h : s.mutateSwitchTab n = some t) :
    t.Distinct := by
  obtain rfl | ⟨-, -, a, hload⟩ := mutateSwitchTab_cases h
  · exact hs
  · exact hload.distinct hs (s.saveTabState_tabIds ▸ .refl _) ⟨rfl, rfl⟩

lemma mutateSwitchWorkspace_distinct {s t : AppState F} (hs : s.Distinct)
    (hlt : s.activeWorkspace < s.workspaces.length) {n : Nat} (h : s.mutateSwitchWorkspace n = some t) :
    t.Distinct := by
  obtain rfl | ⟨hn, -, hload⟩ := mutateSwitchWorkspace_cases h
  · exact hs
  · refine Distinct.of_load (s := { s.saveWorkspaceState with activeWorkspace := n }) ?_ (hs.saved hlt) hload
    show n < (s.workspaces.modify _ _).length
    rwa [List.length_modify]

lemma mutateCloseTab_distinct {s t : AppState F} (hs : s.Distinct) {idx : Nat} (h : s.mutateCloseTab idx = some t) :
    t.Distinct := by
  obtain ⟨-, rfl⟩ | ⟨-, ids, -, ⟨-, rfl⟩ | ⟨-, i, hload⟩ | ⟨-, -, rfl⟩⟩ := mutateCloseTab_cases h
  · exact hs
  · exact hs.of_tabs List.nodup_nil rfl rfl
  · exact hload.distinct hs (tabIds_eraseIdx _ _) ⟨rfl, rfl⟩
  · exact hs.of_sublist (tabIds_eraseIdx _ _) rfl rfl

lemma mutateTabReorder_distinct {s t : AppState F} (hs : s.Distinct) {source : String} {n : Nat}
    (h : s.mutateTabReorder source n = some t) : t.Distinct := by
  obtain rfl | ⟨o, a, active, tab, -, htab, ha, rfl⟩ := mutateTabReorder_cases h
  · exact hs
  · exact hs.of_tabs (((perm_move htab ha).map _).nodup_iff.mpr hs.tabs) rfl rfl

/-- when the ids are distinct, no other tab has the id of the active one -/
lemma Distinct.soleActive {s : AppState F} (hs : s.Distinct) : s.SoleActive := by
  intro i active tab hactive htab hid
  have hget {j : Nat} {u : TerminalTab F} (h : s.tabs[j]? = some u) : (tabIds s.tabs)[j]? = some u.id := by
    unfold tabIds
    rw [List.getElem?_map, h]
    rfl
  obtain ⟨hi, hi'⟩ := List.getElem?_eq_some_iff.mp (hget htab)
  obtain ⟨hj, hj'⟩ := List.getElem?_eq_some_iff.mp (hget hactive)
  exact (List.Nodup.getElem_inj_iff hs.tabs).mp (hi'.trans (hid.trans hj'.symm))

/-- a free name keeps the ids distinct when a tab is put in -/
lemma Distinct.insert {s t : AppState F} (hs : s.Distinct) {rest : List (TerminalTab F)} {i : Nat}
    {tab : TerminalTab F} (hi : i ≤ rest.length) (hrest : (tabIds rest).Sublist (tabIds s.tabs))
    (hfree : tab.id ∉ tabIds rest) (htabs : t.tabs = rest.insertIdx i tab) (hworkspaces : t.workspaces = s.workspaces)
    (hactive : t.activeWorkspace = s.activeWorkspace) : t.Distinct := by
  refine hs.of_tabs ?_ hworkspaces hactive
  rw [htabs]
  apply ((List.perm_insertIdx tab rest hi).map _).nodup_iff.mpr
  exact List.nodup_cons.mpr ⟨hfree, hs.tabs.sublist hrest⟩

end AppState
end

namespace AppState
section
variable {F : Type} [F32 F]

lemma openTab_distinct {s : AppState F} (hs : s.Distinct) (title subtitle : String) (side : PaneTables)
    (hfree : tabId s.nextId ∉ tabIds s.tabs) : Distinct { s.openTab title subtitle with side } := by
  refine hs.of_tabs ?_ rfl rfl
  show (tabIds (s.saveTabState.tabs ++ [.new s.nextId title subtitle])).Nodup
  have hperm : tabIds (s.saveTabState.tabs ++ [.new s.nextId title subtitle]) ~ tabId s.nextId :: tabIds s.tabs := by
    unfold tabIds
    rw [List.map_append, show s.saveTabState.tabs.map (·.id) = tabIds s.tabs from s.saveTabState_tabIds]
    exact List.perm_append_comm
  exact hperm.nodup_iff.mpr (List.nodup_cons.mpr ⟨hfree, hs.tabs⟩)

omit [F32 F] in
lemma Splits.distinct {s t : AppState F} (hs : s.Distinct) {spawned : SpawnResult} (h : s.Splits spawned t) :
    t.Distinct := by
  obtain ⟨live, -, rfl⟩ := h
  exact hs.of_tabs hs.tabs rfl rfl

lemma mutateClosePane_distinct {s t : AppState F} (hs : s.Distinct) {target : PaneId}
    (h : s.mutateClosePane target = some t) : t.Distinct := by
  obtain rfl | ⟨-, ⟨-, h⟩ | ⟨live, p, -, -, hcase⟩⟩ := mutateClosePane_cases h
  · exact hs
  · exact mutateCloseTab_distinct hs h
  · have hsync : tabIds (s.tabs.modify s.activeTab ({ · with layout := live })) = tabIds s.tabs :=
      tabIds_modify _ _ fun _ => rfl
    obtain rfl | ⟨i, hload⟩ := hcase
    · exact hs.of_sublist (hsync ▸ .refl _) rfl rfl
    · exact hload.distinct hs (hsync ▸ .refl _) ⟨rfl, rfl⟩

lemma mutateExtractPaneToTab_distinct {s t : AppState F} (hs : s.Distinct) {target : PaneId} {n : Nat}
    (hfree : target ∈ s.live.ids →
      tabId target ∉ tabIds (if s.live.paneCount = 1 then s.tabs.eraseIdx s.activeTab else s.tabs))
    (h : s.mutateExtractPaneToTab target n = some t) : t.Distinct := by
  obtain rfl | ⟨p, rfl, i, ⟨hflat, -, hi, rfl⟩ | ⟨live, hcount, hperm, hi, rfl⟩⟩ := mutateExtractPaneToTab_cases h
  · exact hs
  · have hmem : p.id ∈ s.live.ids := PaneLayout.mem_ids.mpr ⟨p, by rw [hflat]; exact List.mem_singleton.mpr rfl, rfl⟩
    have hcount : s.live.paneCount = 1 := by
      rw [← PaneLayout.length_flat, hflat]
      rfl
    have hfree := hfree hmem
    rw [if_pos hcount] at hfree
    exact hs.insert hi (tabIds_eraseIdx _ _) hfree rfl rfl rfl
  · have hmem : p.id ∈ s.live.ids := PaneLayout.mem_ids.mpr ⟨p, hperm.mem_iff.mpr List.mem_cons_self, rfl⟩
    have hsync : tabIds (s.tabs.modify s.activeTab ({ · with layout := live })) = tabIds s.tabs :=
      tabIds_modify _ _ fun _ => rfl
    have hfree := hfree hmem
    rw [if_neg hcount, ← hsync] at hfree
    exact hs.insert (by rwa [List.length_modify]) (hsync ▸ .refl _) hfree rfl rfl rfl

lemma mutatePaneDropSplit_distinct {s t : AppState F} (hs : s.Distinct) {source : String} {target : PaneId}
    {edge : DropZone} (h : s.mutatePaneDropSplit source target edge = some t) : t.Distinct := by
  obtain rfl | ⟨idx, p, tab, -, -, -, -, -, -, ⟨-, rfl⟩ | ⟨-, live, -, rfl⟩⟩ := mutatePaneDropSplit_cases h
  · exact hs
  · exact hs.of_sublist (tabIds_eraseIdx _ _) rfl rfl
  · exact hs.of_sublist ((tabIds_sync _).symm ▸ tabIds_eraseIdx _ _) rfl rfl

omit [F32 F] in
lemma mutatePaneSwapFromTab_distinct {s t : AppState F} (hs : s.Distinct) {source : String} {target : PaneId}
    (h : s.mutatePaneSwapFromTab source target = some t) : t.Distinct := by
  obtain rfl | ⟨idx, p, tab, q, r, c, -, -, -, -, -, -, -, -, rfl⟩ := mutatePaneSwapFromTab_cases h
  · exact hs
  · refine hs.of_sublist ?_ rfl rfl
    rw [tabIds_sync]
    show (tabIds (s.tabs.modify idx _)).Sublist _
    rw [tabIds_modify]
    intro
    rfl

/-- the workspaces cut down to the panes that are kept, and one loaded -/
lemma pruneCloseLayoutToKeptPanes_distinct {s t : AppState F} (hs : s.Distinct)
    (hlt : s.activeWorkspace < s.workspaces.length) {kept : PaneId → Bool}
    (h : s.pruneCloseLayoutToKeptPanes kept = some t) : t.Distinct := by
  have hload := pruneCloseLayoutToKeptPanes_cases h (List.ne_nil_of_length_pos (by omega))
  refine Distinct.of_load (s := { s.saveWorkspaceState with
      side := s.side.retainAgents kept, workspaces := s.saveWorkspaceState.workspaces.map (Workspace.retain kept) })
    ?_ ?_ hload
  · show s.activeWorkspace < ((s.workspaces.modify _ _).map _).length
    rwa [List.length_map, List.length_modify]
  · intro ws hws
    obtain ⟨ws', hws', rfl⟩ := List.mem_map.mp hws
    exact (hs.saved hlt ws' hws').sublist (tabIds_retainTabs kept ws'.tabs)

omit [F32 F] in
/-- workspaces that are changed keep what the change keeps, but for the active one -/
lemma others_modify {P : Workspace F → Prop} {workspaces : List (Workspace F)} {a n : Nat}
    {f : Workspace F → Workspace F} (h : ∀ ws ∈ workspaces.eraseIdx a, P ws) (hf : ∀ ws, P (f ws)) :
    ∀ ws ∈ (workspaces.modify n f).eraseIdx a, P ws := by
  intro ws hws
  obtain ⟨i, hi, hget⟩ := List.mem_eraseIdx_iff_getElem?.mp hws
  rw [List.getElem?_modify] at hget
  obtain ⟨ws', hws', rfl⟩ := Option.map_eq_some_iff.mp hget
  split_ifs
  · exact hf ws'
  · exact h ws' (List.mem_eraseIdx_iff_getElem?.mpr ⟨i, hi, hws'⟩)

omit [F32 F] in
lemma mutateKillWorkspaceTerminals_distinct {s : AppState F} (hs : s.Distinct) (n : Nat) :
    (s.mutateKillWorkspaceTerminals n).Distinct := by
  have hothers := others_modify (n := n) hs.others (f := fun ws => { ws with tabs := [], activeTab := 0 })
    fun ws => List.nodup_nil
  unfold mutateKillWorkspaceTerminals emptyWorkspace
  split_ifs
  · exact hs
  · exact ⟨List.nodup_nil, hothers⟩
  · exact ⟨hs.tabs, hothers⟩

omit [F32 F] in
lemma mutateKillAllTerminals_distinct (s : AppState F) : s.mutateKillAllTerminals.Distinct := by
  refine ⟨List.nodup_nil, fun ws hws => ?_⟩
  obtain ⟨ws', -, rfl⟩ := List.mem_map.mp (List.mem_of_mem_eraseIdx hws)
  exact List.nodup_nil

omit [F32 F] in
lemma mutateKillSessionId_distinct {s : AppState F} (hs : s.Distinct) (sessionId : Nat) :
    (s.mutateKillSessionId sessionId).Distinct := by
  obtain heq | ⟨id, -, heq⟩ := s.mutateKillSessionId_eq sessionId
  · rw [heq]
    exact hs
  · rw [heq]
    constructor
    · show (tabIds (s.tabs.modify s.activeTab (·.prune id))).Nodup
      rw [tabIds_modify]
      · exact hs.tabs
      · intro
        rfl
    · intro ws hws
      obtain ⟨i, hi, hget⟩ := List.mem_eraseIdx_iff_getElem?.mp hws
      obtain ⟨ws', hws', rfl⟩ := Option.map_eq_some_iff.mp (List.getElem?_map.symm.trans hget)
      have hnodup := hs.others ws' (List.mem_eraseIdx_iff_getElem?.mpr ⟨i, hi, hws'⟩)
      show (tabIds (ws'.tabs.map (·.prune id))).Nodup
      unfold tabIds at hnodup ⊢
      rw [List.map_map]
      exact hnodup

/-- a step whose new tab, if any, has a free name keeps the ids distinct -/
lemma step_distinct {s t : AppState F} (hseated : s.Seated) (hs : s.Distinct) {op : Op} (hop : s.NamesTab op)
    (h : step s op = some t) : t.Distinct := by
  have hlt := hseated.workspace
  cases op with
  | addTab spawned => exact Option.some.inj h ▸ openTab_distinct hs _ _ _ hop
  | addWorktreeTab title spawned => exact Option.some.inj h ▸ openTab_distinct hs _ _ _ hop
  | addEditorTab editor => exact Option.some.inj h ▸ openTab_distinct hs _ _ _ hop
  | addFlowTab pane => exact Option.some.inj h ▸ openTab_distinct hs _ _ _ hop
  | addAgentTab launch outcome => exact Option.some.inj h ▸ openTab_distinct hs _ _ _ hop
  | splitRight target spawned =>
    obtain ⟨-, rfl⟩ | ⟨-, hsplit⟩ := mutateSplitRight_cases h
    · exact hs
    · exact hsplit.distinct hs
  | splitDown target spawned =>
    obtain ⟨-, rfl⟩ | ⟨-, hsplit⟩ := mutateSplitDown_cases h
    · exact hs
    · exact hsplit.distinct hs
  | closePane target => exact mutateClosePane_distinct hs h
  | closeTab index => exact mutateCloseTab_distinct hs h
  | focusLeft => exact distinct_of_relives hs (mutateFocus_cases (.inl h))
  | focusRight => exact distinct_of_relives hs (mutateFocus_cases (.inr (.inl h)))
  | focusUp => exact distinct_of_relives hs (mutateFocus_cases (.inr (.inr (.inl h))))
  | focusDown => exact distinct_of_relives hs (mutateFocus_cases (.inr (.inr (.inr h))))
  | focusPane workspaceIdx target =>
    obtain rfl | ⟨u, v, hu, hv, rfl⟩ := focusWorkspacePaneByIndex_cases h
    · exact hs
    · have hfirst : u.Distinct := by
        obtain rfl | hu := hu
        · exact hs
        · exact mutateSwitchWorkspace_distinct hs hlt hu
      have hsecond : v.Distinct := by
        obtain rfl | ⟨n, hv⟩ := hv
        · exact hfirst
        · exact mutateSwitchTab_distinct hfirst hv
      refine hsecond.of_tabs ?_ rfl rfl
      rw [show tabIds (v.focusActiveTabPane target).tabs = tabIds v.tabs from tabIds_modify _ _ fun _ => rfl]
      exact hsecond.tabs
  | extract target newTabIndex => exact mutateExtractPaneToTab_distinct hs hop h
  | reorder sourceTabId newIndex => exact mutateTabReorder_distinct hs h
  | dropSplit sourceTabId target edge => exact mutatePaneDropSplit_distinct hs h
  | moveToEdge source target edge => exact distinct_of_relives hs (mutatePaneMoveToEdge_cases h)
  | swap a b => exact distinct_of_relives hs (mutatePaneSwap_cases h)
  | swapFromTab sourceTabId target => exact mutatePaneSwapFromTab_distinct hs h
  | switchTab newIndex => exact mutateSwitchTab_distinct hs h
  | addWorkspace path folder =>
    obtain rfl | ⟨num, name, -, h⟩ := mutateAddWorkspaceWithPath_cases h
    · exact hs
    · refine mutateSwitchWorkspace_distinct (s := { s with
        workspaces := s.workspaces ++ [newWorkspace num name path] }) ⟨hs.tabs, fun ws hws => ?_⟩ ?_ h
      · dsimp only at hws
        rw [List.eraseIdx_append_of_lt_length hlt] at hws
        rcases List.mem_append.mp hws with hws | hws
        · exact hs.others ws hws
        · rw [List.mem_singleton.mp hws]
          exact List.nodup_nil
      · show s.activeWorkspace < (s.workspaces ++ _).length
        rw [List.length_append]
        exact Nat.lt_add_right _ hlt
  | switchWorkspace newIndex => exact mutateSwitchWorkspace_distinct hs hlt h
  | removeWorkspace idx =>
    obtain rfl | ⟨hmany, hidx, ws, -, hload⟩ := mutateRemoveWorkspace_cases h
    · exact hs
    · refine Distinct.of_load (s := s.saveWorkspaceState.withoutWorkspace idx ws) ?_
        (fun ws hws => hs.saved hlt ws (List.mem_of_mem_eraseIdx hws)) hload
      exact withoutWorkspace_lt hseated hidx hmany ws
  | killWorkspaceTerminals wsIdx => exact Option.some.inj h ▸ mutateKillWorkspaceTerminals_distinct hs wsIdx
  | killWorkspaceAgents wsIdx =>
    obtain ⟨-, rfl⟩ | h := mutateKillWorkspaceAgents_cases h
    · exact hs
    · have hside : Distinct { s with side := (s.workspaceAgentPaneIds wsIdx).foldl .killAgentTables s.side } :=
        ⟨hs.tabs, hs.others⟩
      exact pruneCloseLayoutToKeptPanes_distinct hside hlt h
  | killAll => exact Option.some.inj h ▸ mutateKillAllTerminals_distinct s
  | killSession sessionId => exact Option.some.inj h ▸ mutateKillSessionId_distinct hs sessionId
  | closeUnsaved choice =>
    obtain ⟨u, ⟨toggles, rfl⟩, ⟨-, rfl⟩ | ⟨kept, remember, -, h⟩ | ⟨-, rfl⟩⟩ := finalizeCloseChoice_cases h
    · exact ⟨hs.tabs, hs.others⟩
    · unfold keepPanes at h
      dsimp only at h
      refine pruneCloseLayoutToKeptPanes_distinct ?_ ?_ h
      · exact ⟨hs.tabs, hs.others⟩
      · exact hlt
    · exact mutateKillAllTerminals_distinct _

/-- the ids are distinct, and a move in the strip keeps the active tab active -/
def PicksTabs (s : AppState F) : Prop :=
  s.Distinct ∧ ∀ source n t, s.mutateTabReorder source n = some t → t.tabs[t.activeTab]? = s.tabs[s.activeTab]?

end
end AppState

section
variable {F : Type} [F32 F]

omit [F32 F] in
lemma AppState.Distinct.picksTabs {s : AppState F} (hseated : s.Seated) (hs : s.Distinct) : s.PicksTabs :=
  ⟨hs, fun _ _ _ h => (AppState.mutateTabReorder_turns hseated hs.soleActive h).2⟩

lemma seedState_distinct (folder : String) (path : Option String) (defaultShell : ShellSpec) :
    (seedState (F := F) folder path defaultShell).Distinct := by
  refine ⟨List.nodup_singleton _, fun ws hws => ?_⟩
  have htabs : ws.tabs = [] := by
    revert ws
    simp [seedState, newWorkspace]
  rw [htabs]
  exact List.nodup_nil

/-- **Main result.**  From the state of a first run, as long as each new tab gets a free name, the ids are
distinct in every state and a move in the strip keeps the active tab active. -/
theorem tab_ids_distinct (folder : String) (path : Option String) (defaultShell : ShellSpec) (ops : List Op)
    (h : Along step AppState.NamesTab (seedState (F := F) folder path defaultShell) ops) :
    Throughout step AppState.PicksTabs (seedState (F := F) folder path defaultShell) ops := by
  have hkeeps : ∀ (s : AppState F) op t, s.Seated ∧ s.Distinct → s.NamesTab op → step s op = some t →
      t.Seated ∧ t.Distinct := fun s op t hs hop ht => ⟨hs.1.step ht, AppState.step_distinct hs.1 hs.2 hop ht⟩
  have hpicks : ∀ s : AppState F, s.Seated ∧ s.Distinct → s.PicksTabs := fun s hs => hs.2.picksTabs hs.1
  exact throughout_of_along hkeeps hpicks ⟨AppState.seedState_seated .., seedState_distinct ..⟩ h

end

/-- pane 1 leaves tab `t1` for a tab of its own: both are named `t1`, and the move of one activates the other -/
theorem doubledTab_ids :
    ∃ t u, exec (@step ℚ Ui.exactF32) firstRun [.splitRight 1 (.ok 5 0), .extract 1 0] = some t ∧
      tabIds t.tabs = ["t1", "t1"] ∧ t.mutateTabReorder "t1" 2 = some u ∧
      (t.tabs[t.activeTab]?.map TerminalTab.paneIds) = some [1] ∧
      (u.tabs[u.activeTab]?.map TerminalTab.paneIds) = some [2] :=
  ⟨_, _, rfl, by decide, rfl, by decide, by decide⟩

theorem tab_ids_distinct_extract :
    Throughout (@step ℚ Ui.exactF32) AppState.PicksTabs (@seedState ℚ Ui.exactF32 "app" none ⟨"", []⟩)
      [.splitRight 1 (.ok 5 0), .extract 2 0] := by
  let _ := Ui.exactF32
  refine tab_ids_distinct "app" none ⟨"", []⟩ _ ⟨trivial, fun t ht => ?_⟩
  obtain rfl := Option.some.inj ht
  exact ⟨fun _ => by decide, fun _ _ => trivial⟩

end TerminalManager.App
