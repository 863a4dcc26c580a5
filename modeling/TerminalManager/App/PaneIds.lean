import TerminalManager.App.Effects

/-!
# Which panes there are

A pane is in the live layout, in the stored copy of another tab of the active workspace, or in a tab of
another workspace (`paneIds`).  The stored copies of the active tab and of the active workspace do not
count: they are stale.

* `Seated`      the active workspace and the active tab are among the workspaces and the tabs;
* `Turns`       a step that takes some panes out and brings some in, and keeps the state seated;
* `*_turns`     one lemma for each operation.
-/

namespace TerminalManager.App
open Ui (F32)
open scoped List

/-- the panes of a grid that are kept, in their rows -/
def keptRows (kept : PaneId → Bool) (rows : List (List Pane)) : List (List Pane) :=
  (rows.map (·.filter (kept ·.id))).filter (!·.isEmpty)

lemma flatten_keptRows (kept : PaneId → Bool) (rows : List (List Pane)) :
    (keptRows kept rows).flatten = rows.flatten.filter (kept ·.id) := by
  unfold keptRows
  rw [List.flatten_filter_not_isEmpty, ← List.filter_flatten]

namespace PaneLayout
section
variable {F : Type} [F32 F]

lemma retainRow_fst (kept : PaneId → Bool) (row : List Pane) (ratios : List F) :
    (retainRow kept row ratios).map Prod.fst = row.filter (kept ·.id) := by
  unfold retainRow
  rw [List.map_map]
  show ((row.zipIdx).filter ((kept ·.id) ∘ Prod.fst)).map Prod.fst = _
  rw [← List.filter_map, List.zipIdx_map_fst]

/-- the rows that are cut down, one by one -/
lemma retainRows_panes (kept : PaneId → Bool) (l : PaneLayout F) :
    (retainRows kept l).map (fun row => row.1.map Prod.fst) = keptRows kept l.panes := by
  unfold retainRows keptRows
  generalize 0 = n
  induction l.panes generalizing n with
  | nil => rfl
  | cons row rows ih =>
    have hrow := retainRow_fst kept row (l.colRatios[n]?.getD [])
    rw [List.zipIdx_cons, List.filterMap_cons, List.map_cons, ← hrow]
    dsimp only
    by_cases hempty : (retainRow kept row (l.colRatios[n]?.getD [])).isEmpty
    · rw [if_pos hempty, List.filter_cons_of_neg (by rw [List.isEmpty_map, hempty]; decide)]
      exact ih (n + 1)
    · rw [if_neg hempty, List.filter_cons_of_pos (by rw [List.isEmpty_map]; simpa using hempty), ← ih (n + 1)]
      rfl

/-- the rows that are cut down have the panes that are kept -/
lemma retainRows_flat (kept : PaneId → Bool) (l : PaneLayout F) :
    ((retainRows kept l).map fun row => row.1.map Prod.fst).flatten = l.flat.filter (kept ·.id) := by
  rw [retainRows_panes]
  exact flatten_keptRows kept l.panes

lemma retain_ids (kept : PaneId → Bool) (l : PaneLayout F) :
    ((l.retain kept).map PaneLayout.ids).getD [] = l.ids.filter kept := by
  have hflat := retainRows_flat kept l
  have hids : l.ids.filter kept = (l.flat.filter (kept ·.id)).map Pane.id := List.filter_map ..
  unfold retain
  dsimp only
  cases hrows : ((retainRows kept l).map fun row => row.1.map Prod.fst).flatten with
  | nil =>
    rw [hids, ← hflat, hrows]
    rfl
  | cons first rest =>
    rw [hids, ← hflat]
    rfl

end
end PaneLayout

lemma PaneLayout.prune_ids {F : Type} (l : PaneLayout F) (id : PaneId) : (l.prune id).ids = l.ids.filter (· != id) := by
  unfold PaneLayout.ids
  rw [PaneLayout.prune_flat, List.filter_map]
  rfl

lemma pruneTabs_paneIds {F : Type} (id : PaneId) (tabs : List (TerminalTab F)) :
    (tabs.map (·.prune id)).flatMap TerminalTab.paneIds = (tabs.flatMap TerminalTab.paneIds).filter (· != id) := by
  induction tabs with
  | nil => rfl
  | cons tab tabs ih =>
    rw [List.map_cons, List.flatMap_cons, List.flatMap_cons, List.filter_append, ih]
    exact congrArg (· ++ _) (PaneLayout.prune_ids tab.layout id)

lemma prune_paneIds {F : Type} (id : PaneId) (workspaces : List (Workspace F)) :
    (workspaces.map fun ws => { ws with tabs := ws.tabs.map (·.prune id) }).flatMap Workspace.paneIds =
      (workspaces.flatMap Workspace.paneIds).filter (· != id) := by
  induction workspaces with
  | nil => rfl
  | cons ws workspaces ih =>
    rw [List.map_cons, List.flatMap_cons, List.flatMap_cons, List.filter_append, ih]
    exact congrArg (· ++ _) (pruneTabs_paneIds id ws.tabs)

/-- the tabs that are cut down have the panes that are kept -/
lemma retainTabs_paneIds {F : Type} [F32 F] (kept : PaneId → Bool) (tabs : List (TerminalTab F)) :
    (retainTabs kept tabs).flatMap TerminalTab.paneIds = (tabs.flatMap TerminalTab.paneIds).filter kept := by
  induction tabs with
  | nil => rfl
  | cons t tabs ih =>
    have hids := PaneLayout.retain_ids kept t.layout
    rw [List.flatMap_cons, List.filter_append, ← ih]
    show _ = t.layout.ids.filter kept ++ _
    rw [← hids]
    unfold retainTabs TerminalTab.retainTabPanes
    rw [List.filterMap_cons]
    cases t.layout.retain kept with
    | none => rfl
    | some layout => rfl

lemma retain_paneIds {F : Type} [F32 F] (kept : PaneId → Bool) (workspaces : List (Workspace F)) :
    (workspaces.map (Workspace.retain kept)).flatMap Workspace.paneIds =
      (workspaces.flatMap Workspace.paneIds).filter kept := by
  induction workspaces with
  | nil => rfl
  | cons ws workspaces ih =>
    rw [List.map_cons, List.flatMap_cons, List.flatMap_cons, List.filter_append, ih]
    congr 1
    exact retainTabs_paneIds kept ws.tabs

namespace AppState
section
variable {F : Type}

/-- the panes of the workspaces other than the active one -/
def otherPaneIds (s : AppState F) : List PaneId :=
  (s.workspaces.eraseIdx s.activeWorkspace).flatMap Workspace.paneIds

def paneIds (s : AppState F) : List PaneId := s.activePaneIds ++ s.otherPaneIds

/-- the active workspace is one of the workspaces; the active tab is one of the tabs, or nothing is live -/
structure Seated (s : AppState F) : Prop where
  workspace : s.activeWorkspace < s.workspaces.length
  tab : s.tabs ≠ [] → s.activeTab < s.tabs.length
  bare : s.tabs = [] → s.live.ids = []

/-- the panes of `t` are those of `s` without `gone` and with `extra` -/
structure Turns (s t : AppState F) (gone extra : List PaneId) : Prop where
  seated : t.Seated
  perm : (gone ++ t.paneIds).Perm (extra ++ s.paneIds)

lemma Turns.refl {s : AppState F} (hs : s.Seated) : Turns s s [] [] := ⟨hs, .refl _⟩

/-- the panes move within the active workspace -/
lemma Turns.of_active {s t : AppState F} (hs : s.Seated) {gone extra : List PaneId}
    (hworkspaces : t.workspaces = s.workspaces) (hactive : t.activeWorkspace = s.activeWorkspace)
    (htab : t.tabs ≠ [] → t.activeTab < t.tabs.length) (hbare : t.tabs = [] → t.live.ids = [])
    (h : (gone ++ t.activePaneIds).Perm (extra ++ s.activePaneIds)) : Turns s t gone extra := by
  refine ⟨⟨by rw [hworkspaces, hactive]; exact hs.workspace, htab, hbare⟩, ?_⟩
  unfold paneIds
  rw [show t.otherPaneIds = s.otherPaneIds by unfold otherPaneIds; rw [hworkspaces, hactive], ← List.append_assoc,
    ← List.append_assoc]
  exact h.append_right _

/-- what a step after another one takes out and brings in -/
lemma Turns.trans {s t u : AppState F} {gone extra gone' extra' : List PaneId} (h : Turns s t gone extra)
    (h' : Turns t u gone' extra') : Turns s u (gone ++ gone') (extra' ++ extra) := by
  refine ⟨h'.seated, ?_⟩
  calc (gone ++ gone') ++ u.paneIds
      = gone ++ (gone' ++ u.paneIds) := List.append_assoc ..
    _ ~ gone ++ (extra' ++ t.paneIds) := h'.perm.append_left gone
    _ ~ extra' ++ (gone ++ t.paneIds) := by
      rw [← List.append_assoc, ← List.append_assoc]
      exact List.perm_append_comm.append_right _
    _ ~ extra' ++ (extra ++ s.paneIds) := h.perm.append_left extra'
    _ = (extra' ++ extra) ++ s.paneIds := (List.append_assoc ..).symm

lemma Turns.trans_moved {s t u : AppState F} {gone extra : List PaneId} (h : Turns s t gone extra)
    (h' : Turns t u [] []) : Turns s u gone extra := ⟨h'.seated, (h'.perm.append_left gone).trans h.perm⟩

lemma tabs_perm {tabs : List (TerminalTab F)} {i : Nat} {tab : TerminalTab F} (h : tabs[i]? = some tab) :
    (tabs.flatMap TerminalTab.paneIds).Perm (tab.paneIds ++ (tabs.eraseIdx i).flatMap TerminalTab.paneIds) :=
  (perm_of_getElem? h).flatMap_right _

/-- the tabs with the live layout saved have the panes of the active workspace -/
lemma Seated.saved_perm {s : AppState F} (hs : s.Seated) :
    (s.saveTabState.tabs.flatMap TerminalTab.paneIds).Perm s.activePaneIds := by
  unfold activePaneIds
  by_cases hnil : s.tabs = []
  · have hsaved : s.saveTabState.tabs = [] := List.modify_eq_nil_iff.mpr hnil
    rw [hsaved, hnil, hs.bare hnil]
    exact .refl _
  · have hactive := hs.tab hnil
    have hget : s.saveTabState.tabs[s.activeTab]? = some { s.tabs[s.activeTab] with layout := s.live } := by
      show (s.tabs.modify s.activeTab _)[s.activeTab]? = _
      rw [List.getElem?_modify_eq, List.getElem?_eq_getElem hactive]
      rfl
    have hperm := tabs_perm hget
    rwa [show s.saveTabState.tabs.eraseIdx s.activeTab = s.tabs.eraseIdx s.activeTab from
      List.eraseIdx_modify_of_eq ..] at hperm

/-- copying the live fields into the tab list moves no pane -/
lemma activePaneIds_sync (s : AppState F) : s.syncLiveTabFromPanes.activePaneIds = s.activePaneIds := by
  unfold activePaneIds
  rw [show s.syncLiveTabFromPanes.tabs.eraseIdx s.syncLiveTabFromPanes.activeTab = s.tabs.eraseIdx s.activeTab from
    List.eraseIdx_modify_of_eq ..]
  rfl

lemma saveTabState_sync (s : AppState F) : s.syncLiveTabFromPanes.saveTabState.tabs = s.syncLiveTabFromPanes.tabs := by
  show (s.tabs.modify s.activeTab _).modify s.activeTab _ = s.tabs.modify s.activeTab _
  rw [List.modify_modify_eq]
  rfl

lemma activePaneIds_refocused (s : AppState F) (id : PaneId) : (s.refocused id).activePaneIds = s.activePaneIds := by
  unfold activePaneIds
  rw [show (s.refocused id).tabs.eraseIdx (s.refocused id).activeTab = s.tabs.eraseIdx s.activeTab from
    List.eraseIdx_modify_of_eq ..]
  rfl

lemma Loads.workspaces {s t : AppState F} {i : Nat} (h : Loads s i t) :
    t.workspaces = s.workspaces ∧ t.activeWorkspace = s.activeWorkspace := by
  cases h <;> exact ⟨rfl, rfl⟩

lemma Loads.seated {s t : AppState F} {i : Nat} (h : Loads s i t) : t.activeTab < t.tabs.length := by
  cases h with
  | plain htab => exact (List.getElem?_eq_some_iff.mp htab).1
  | refocused htab hid =>
    show i < (s.tabs.modify i _).length
    rw [List.length_modify]
    exact (List.getElem?_eq_some_iff.mp htab).1

/-- a loaded tab has its panes in the live layout -/
lemma Loads.perm {s t : AppState F} {i : Nat} (h : Loads s i t) :
    t.activePaneIds.Perm (s.tabs.flatMap TerminalTab.paneIds) := by
  cases h with
  | plain htab => exact (tabs_perm htab).symm
  | refocused htab hid =>
    rw [activePaneIds_refocused]
    exact (tabs_perm htab).symm

/-- a tab loaded from tabs with the panes of `s` and others -/
lemma Loads.turns {s t u : AppState F} {i : Nat} (hs : s.Seated) (h : Loads u i t)
    (hu : u.workspaces = s.workspaces ∧ u.activeWorkspace = s.activeWorkspace) {gone extra : List PaneId}
    (hperm : (gone ++ u.tabs.flatMap TerminalTab.paneIds).Perm (extra ++ s.activePaneIds)) :
    Turns s t gone extra := by
  refine .of_active hs (h.workspaces.1.trans hu.1) (h.workspaces.2.trans hu.2) (fun _ => h.seated) (fun hnil => ?_) ?_
  · have hlt := h.seated
    rw [hnil, List.length_nil] at hlt
    omega
  · exact (h.perm.append_left gone).trans hperm

lemma mutateSwitchTab_turns {s t : AppState F} (hs : s.Seated) {n : Nat} (h : s.mutateSwitchTab n = some t) :
    Turns s t [] [] := by
  obtain rfl | ⟨-, -, a, hload⟩ := mutateSwitchTab_cases h
  · exact .refl hs
  · exact hload.turns hs ⟨rfl, rfl⟩ hs.saved_perm

/-- the panes of a tab other than the active one, and those that are left -/
lemma erased_perm {s : AppState F} {idx : Nat} {tab : TerminalTab F} (hactive : s.activeTab < s.tabs.length)
    (htab : s.tabs[idx]? = some tab) (hne : idx ≠ s.activeTab) :
    (tab.paneIds ++ (s.dropTab idx).activePaneIds).Perm s.activePaneIds := by
  have hperm := (perm_eraseIdx_of_ne htab hactive hne).flatMap_right TerminalTab.paneIds
  exact (List.perm_append_comm_assoc ..).trans (hperm.symm.append_left s.live.ids)

/-- some of the panes `ids` are taken out, and lose what the tables keep of them -/
def Closes (s t : AppState F) (ids : List PaneId) : Prop :=
  ∃ gone, Turns s t gone [] ∧ t.side = gone.foldl .closePaneTables s.side ∧ gone ⊆ ids

lemma Closes.refl {s : AppState F} (hs : s.Seated) (ids : List PaneId) : Closes s s ids :=
  ⟨[], .refl hs, rfl, List.nil_subset ids⟩

lemma Loads.side {s t : AppState F} {i : Nat} (h : Loads s i t) : t.side = s.side := by
  cases h <;> rfl

lemma Seated.tabPaneIds_none {s : AppState F} (hs : s.Seated) {idx : Nat} (h : s.tabs.length ≤ idx) :
    (s.tabPaneIds idx).getD [] = [] := by
  unfold tabPaneIds
  by_cases hactive : idx = s.activeTab
  · have hnil : s.tabs = [] := Classical.byContradiction fun hne => absurd (hs.tab hne) (by omega)
    rw [if_pos hactive, hs.bare hnil]
    rfl
  · rw [if_neg hactive, List.getElem?_eq_none h]
    rfl

/-- the panes of a closed tab are gone, and only they -/
lemma mutateCloseTab_turns {s t : AppState F} (hs : s.Seated) {idx : Nat} (h : s.mutateCloseTab idx = some t) :
    Turns s t ((s.tabPaneIds idx).getD []) [] ∧ t.side = ((s.tabPaneIds idx).getD []).foldl .closePaneTables s.side := by
  obtain ⟨hlen, rfl⟩ | ⟨hidx, ids, hids, hcase⟩ := mutateCloseTab_cases h
  · rw [hs.tabPaneIds_none hlen]
    exact ⟨.refl hs, rfl⟩
  · rw [hids]
    have hactive := hs.tab (List.ne_nil_of_length_pos (by omega))
    rcases tabPaneIds_some hids with ⟨rfl, rfl⟩ | ⟨hne, tab, htab, rfl⟩
    · rcases hcase with ⟨hnil, rfl⟩ | ⟨-, i, hload⟩ | ⟨hne, -⟩
      · refine ⟨.of_active hs rfl rfl (fun h => absurd rfl h) (fun _ => rfl) ?_, rfl⟩
        unfold activePaneIds
        rw [hnil]
        exact .refl _
      · exact ⟨hload.turns hs ⟨rfl, rfl⟩ (.refl _), hload.side⟩
      · exact absurd rfl hne
    · rcases hcase with ⟨hnil, -⟩ | ⟨heq, -⟩ | ⟨-, hnil, rfl⟩
      · -- the only tab is the active one
        have hlen := List.length_eraseIdx_of_lt hidx
        rw [hnil, List.length_nil] at hlen
        omega
      · exact absurd heq hne
      · refine ⟨.of_active hs rfl rfl (fun _ => ?_) (fun h => absurd h hnil) (erased_perm hactive htab hne), rfl⟩
        have hlen := List.length_eraseIdx_of_lt hidx
        show (if idx < s.activeTab then s.activeTab - 1 else s.activeTab) < (s.tabs.eraseIdx idx).length
        split_ifs <;> omega

lemma mutateCloseTab_closes {s t : AppState F} (hs : s.Seated) {idx : Nat} (h : s.mutateCloseTab idx = some t) :
    Closes s t ((s.tabPaneIds idx).getD []) :=
  have ⟨hturns, hside⟩ := mutateCloseTab_turns hs h
  ⟨_, hturns, hside, List.Subset.refl _⟩

/-- the panes of the live layout replaced by others, and the active tab synced or another one loaded -/
lemma Turns.relive {s : AppState F} (hs : s.Seated) (hlive : s.live.ids ≠ []) {gone extra : List PaneId}
    {live : PaneLayout F} (side : PaneTables) (hperm : (gone ++ live.ids).Perm (extra ++ s.live.ids)) {t : AppState F}
    (ht : t = syncLiveTabFromPanes { s with side, live } ∨
      ∃ i, Loads (syncLiveTabFromPanes { s with side, live }) i t) : Turns s t gone extra := by
  have hne : s.tabs ≠ [] := fun hnil => hlive (hs.bare hnil)
  have hmid : Turns s (syncLiveTabFromPanes { s with side, live }) gone extra := by
    refine .of_active hs rfl rfl (fun _ => ?_) (fun hnil => absurd (List.modify_eq_nil_iff.mp hnil) hne) ?_
    · show s.activeTab < (s.tabs.modify _ _).length
      rw [List.length_modify]
      exact hs.tab hne
    · rw [activePaneIds_sync]
      show (gone ++ (live.ids ++ _)).Perm (extra ++ (s.live.ids ++ _))
      rw [← List.append_assoc, ← List.append_assoc]
      exact hperm.append_right _
  obtain rfl | ⟨i, hload⟩ := ht
  · exact hmid
  · have hsaved := hmid.seated.saved_perm
    rw [saveTabState_sync] at hsaved
    exact hmid.trans_moved (hload.turns hmid.seated ⟨rfl, rfl⟩ hsaved)

lemma ids_ne_nil {l : PaneLayout F} {id : PaneId} (h : id ∈ l.ids) : l.ids ≠ [] := List.ne_nil_of_mem h

lemma Relives.turns {s t : AppState F} (hs : s.Seated) (h : s.Relives t) : Turns s t [] [] := by
  obtain ⟨live, hperm, hfocus, rfl⟩ := h
  have hids : live.ids.Perm s.live.ids := hperm.map Pane.id
  refine Turns.relive (s := s) hs (fun hnil => ?_) s.side hids (.inl rfl)
  rw [hnil] at hids
  exact ids_ne_nil hfocus hids.eq_nil

lemma turns_of_relives {s t : AppState F} (hs : s.Seated) (h : t = s ∨ s.Relives t) : Turns s t [] [] := by
  obtain rfl | h := h
  · exact .refl hs
  · exact h.turns hs

end

section
variable {F : Type} [F32 F]

/-- a new tab brings its pane -/
lemma openTab_turns {s : AppState F} (hs : s.Seated) (title subtitle : String) (side : PaneTables) :
    Turns s { s.openTab title subtitle with side } [] [s.nextId] := by
  refine .of_active hs rfl rfl (fun _ => ?_) (fun hnil => ?_) ?_
  · show s.saveTabState.tabs.length < (s.saveTabState.tabs ++ [_]).length
    rw [List.length_append]
    exact Nat.lt_succ_self _
  · exact absurd hnil (List.append_ne_nil_of_right_ne_nil _ (List.cons_ne_nil _ _))
  · show ([s.nextId] ++ ((s.saveTabState.tabs ++ [_]).eraseIdx s.saveTabState.tabs.length).flatMap _).Perm _
    rw [List.eraseIdx_append_of_length_le (Nat.le_refl _), Nat.sub_self]
    show ([s.nextId] ++ (s.saveTabState.tabs ++ []).flatMap _).Perm _
    rw [List.append_nil]
    exact hs.saved_perm.append_left _

omit [F32 F] in
/-- a split brings the new pane -/
lemma Splits.turns {s t : AppState F} (hs : s.Seated) {spawned : SpawnResult} (hlive : s.live.ids ≠ [])
    (h : s.Splits spawned t) : Turns s t [] [s.nextId] := by
  obtain ⟨live, hperm, rfl⟩ := h
  have hids : live.ids.Perm (s.nextId :: s.live.ids) := hperm.map Pane.id
  exact .of_active hs rfl rfl hs.tab (fun hnil => absurd (hs.bare hnil) hlive) (hids.append_right _)

lemma mutateClosePane_closes {s t : AppState F} (hs : s.Seated) {target : PaneId}
    (h : s.mutateClosePane target = some t) : Closes s t [target] := by
  obtain rfl | ⟨hmem, ⟨hcount, h⟩ | ⟨live, p, rfl, hperm, hcase⟩⟩ := mutateClosePane_cases h
  · exact .refl hs _
  · -- the tab has no other pane
    have hids : s.tabPaneIds s.activeTab = some s.live.ids := if_pos rfl
    have hone : s.live.ids.length = 1 := by
      rw [PaneLayout.ids, List.length_map, PaneLayout.length_flat]
      exact hcount
    obtain ⟨id, hid⟩ := List.length_eq_one_iff.mp hone
    have hcloses := mutateCloseTab_closes hs h
    rw [hids, Option.getD_some, hid] at hcloses
    rw [hid] at hmem
    rwa [List.mem_singleton.mp hmem]
  · have hids : ([p.id] ++ live.ids).Perm ([] ++ s.live.ids) := (hperm.map Pane.id).symm
    refine ⟨[p.id], .relive hs (ids_ne_nil hmem) _ hids hcase, ?_, List.Subset.refl _⟩
    obtain rfl | ⟨i, hload⟩ := hcase
    · rfl
    · exact hload.side

lemma mutateExtractPaneToTab_turns {s t : AppState F} (hs : s.Seated) {target : PaneId} {n : Nat}
    (h : s.mutateExtractPaneToTab target n = some t) : Turns s t [] [] := by
  obtain rfl | ⟨p, rfl, i, ⟨hflat, hactive, hi, rfl⟩ | ⟨live, -, hperm, hi, rfl⟩⟩ := mutateExtractPaneToTab_cases h
  · exact .refl hs
  · refine .of_active hs rfl rfl (fun _ => ?_) (fun hnil => ?_) ?_
    · show i < (List.insertIdx _ _ _).length
      rw [List.length_insertIdx_of_le_length hi]
      omega
    · have hlen := congrArg List.length hnil
      rw [List.length_insertIdx_of_le_length hi] at hlen
      cases hlen
    · show ([p.id] ++ ((List.insertIdx _ _ _).eraseIdx i).flatMap _).Perm (s.live.ids ++ _)
      rw [List.eraseIdx_insertIdx_self, show s.live.ids = [p.id] from congrArg (List.map Pane.id) hflat]
  · have hne : s.live.ids ≠ [] := by
      intro hnil
      rw [List.map_eq_nil_iff.mp hnil] at hperm
      exact absurd hperm.symm.eq_nil (List.cons_ne_nil _ _)
    have htabs : s.tabs ≠ [] := fun hnil => hne (hs.bare hnil)
    have hmid : Turns s (syncLiveTabFromPanes { s with live }) [p.id] [] :=
      .relive (s := s) hs hne s.side (hperm.map Pane.id).symm (.inl rfl)
    have hsaved := hmid.seated.saved_perm
    rw [saveTabState_sync] at hsaved
    refine .of_active hs rfl rfl (fun _ => ?_) (fun hnil => ?_) ?_
    · show i < (List.insertIdx _ _ _).length
      rw [List.length_insertIdx_of_le_length (by rwa [List.length_modify]), List.length_modify]
      omega
    · have hlen := congrArg List.length hnil
      rw [List.length_insertIdx_of_le_length (by rwa [List.length_modify])] at hlen
      cases hlen
    · show ([p.id] ++ ((List.insertIdx _ _ _).eraseIdx i).flatMap _).Perm _
      rw [List.eraseIdx_insertIdx_self]
      refine (hsaved.append_left [p.id]).trans ?_
      rw [activePaneIds_sync]
      show ([p.id] ++ (live.ids ++ _)).Perm (s.live.ids ++ _)
      rw [← List.append_assoc]
      exact (hperm.map Pane.id).symm.append_right _

omit [F32 F] in
/-- a tab of one pane has that pane -/
lemma paneIds_of_single {tab : TerminalTab F} {p : Pane} (hcount : tab.layout.paneCount = 1)
    (hp : tab.layout.paneAt 0 0 = some p) : tab.paneIds = [p.id] := by
  obtain ⟨q, hq⟩ := List.length_eq_one_iff.mp ((PaneLayout.length_flat tab.layout).trans hcount)
  have hmem := PaneLayout.paneAt_mem hp
  rw [hq] at hmem
  show tab.layout.flat.map Pane.id = _
  rw [hq, List.mem_singleton.mp hmem]
  rfl

omit [F32 F] in
lemma dropTab_seated {s : AppState F} {idx : Nat} (hs : s.Seated) (hidx : idx < s.tabs.length)
    (hne : idx ≠ s.activeTab) : s.tabs.eraseIdx idx ≠ [] ∧ (s.dropTab idx).activeTab < (s.dropTab idx).tabs.length := by
  have hactive := hs.tab (List.ne_nil_of_length_pos (by omega))
  have hlen := List.length_eraseIdx_of_lt hidx
  refine ⟨List.ne_nil_of_length_pos (by omega), ?_⟩
  show (if idx < s.activeTab then s.activeTab - 1 else s.activeTab) < (s.tabs.eraseIdx idx).length
  split_ifs <;> omega

omit [F32 F] in
/-- the pane of a tab that is taken out of the strip is gone -/
lemma dropTab_turns {s : AppState F} (hs : s.Seated) {idx : Nat} {tab : TerminalTab F} {p : Pane}
    (htab : s.tabs[idx]? = some tab) (hidx : idx ≠ s.activeTab) (hcount : tab.layout.paneCount = 1)
    (hp : tab.layout.paneAt 0 0 = some p) : Turns s (s.dropTab idx) [p.id] [] := by
  obtain ⟨hlt, -⟩ := List.getElem?_eq_some_iff.mp htab
  obtain ⟨hne, hseat⟩ := dropTab_seated hs hlt hidx
  have herased := erased_perm (hs.tab (List.ne_nil_of_length_pos (by omega))) htab hidx
  rw [paneIds_of_single hcount hp] at herased
  exact .of_active hs rfl rfl (fun _ => hseat) (fun hnil => absurd hnil hne) herased

/-- a pane dropped on an edge stays, with its tab gone; dropped in the centre it is lost -/
lemma mutatePaneDropSplit_turns {s t : AppState F} (hs : s.Seated) {source : String} {target : PaneId}
    {edge : DropZone} (h : s.mutatePaneDropSplit source target edge = some t) :
    ∃ gone, Turns s t gone [] ∧ (edge ≠ .center → gone = []) := by
  obtain rfl | ⟨idx, p, tab, -, htab, hidx, hcount, hp, -, hcase⟩ := mutatePaneDropSplit_cases h
  · exact ⟨[], .refl hs, fun _ => rfl⟩
  · obtain ⟨hlt, -⟩ := List.getElem?_eq_some_iff.mp htab
    have hactive := hs.tab (List.ne_nil_of_length_pos (by omega))
    obtain ⟨hne, hseat⟩ := dropTab_seated hs hlt hidx
    have herased := erased_perm hactive htab hidx
    rw [paneIds_of_single hcount hp] at herased
    rcases hcase with ⟨hedge, rfl⟩ | ⟨hedge, live, hperm, rfl⟩
    · exact ⟨[p.id], dropTab_turns hs htab hidx hcount hp, fun h => absurd hedge h⟩
    · have hids : live.ids.Perm (p.id :: s.live.ids) := hperm.map Pane.id
      refine ⟨[], .of_active hs rfl rfl (fun _ => ?_) (fun hnil => ?_) ?_, fun _ => rfl⟩
      · show (s.dropTab idx).activeTab < ((s.dropTab idx).tabs.modify _ _).length
        rw [List.length_modify]
        exact hseat
      · exact absurd (List.modify_eq_nil_iff.mp hnil) hne
      · rw [activePaneIds_sync]
        exact (hids.append_right _).trans herased

omit [F32 F] in
/-- the two panes that trade places -/
lemma mutatePaneSwapFromTab_turns {s t : AppState F} (hs : s.Seated) {source : String} {target : PaneId}
    (h : s.mutatePaneSwapFromTab source target = some t) : Turns s t [] [] := by
  obtain rfl | ⟨idx, p, tab, q, r, c, -, htab, hidx, hcount, hp, -, hq, rfl, rfl⟩ := mutatePaneSwapFromTab_cases h
  · exact .refl hs
  · obtain ⟨hlt, -⟩ := List.getElem?_eq_some_iff.mp htab
    have hne : s.tabs ≠ [] := List.ne_nil_of_length_pos (by omega)
    have hactive := hs.tab hne
    obtain ⟨tab', htab'⟩ : ∃ tab', tab' = { tab with layout := { tab.layout.setPane 0 0 q with activePane := q.id } } :=
      ⟨_, rfl⟩
    have hsingle : tab'.paneIds = [q.id] := by
      have hperm := PaneLayout.setPane_perm hp q
      obtain ⟨p', hp'⟩ := List.length_eq_one_iff.mp ((PaneLayout.length_flat tab.layout).trans hcount)
      have hmem := PaneLayout.paneAt_mem hp
      rw [hp'] at hmem hperm
      rw [List.mem_singleton.mp hmem] at hperm
      have heq := (List.perm_cons _).mp (hperm.trans (.swap ..))
      rw [htab']
      exact ((heq.map Pane.id).trans (.refl _)).eq_singleton
    refine .of_active hs rfl rfl (fun _ => ?_) (fun hnil => ?_) ?_
    · show s.activeTab < ((s.tabs.modify idx _).modify s.activeTab _).length
      rw [List.length_modify, List.length_modify]
      exact hactive
    · exact absurd (List.modify_eq_nil_iff.mp (List.modify_eq_nil_iff.mp hnil)) hne
    · rw [activePaneIds_sync]
      -- the other tabs, with the dragged one in front before and after
      have hget : (s.tabs.modify idx fun t => { t with layout := { t.layout.setPane 0 0 q with activePane := q.id } })[idx]?
          = some tab' := by
        rw [List.getElem?_modify_eq, htab, htab']
        rfl
      have hafter := (perm_eraseIdx_of_ne hget (by rwa [List.length_modify]) hidx).flatMap_right TerminalTab.paneIds
      have hbefore := (perm_eraseIdx_of_ne htab hactive hidx).flatMap_right TerminalTab.paneIds
      rw [List.eraseIdx_modify_of_eq, List.flatMap_cons, hsingle] at hafter
      rw [List.flatMap_cons, paneIds_of_single hcount hp] at hbefore
      have hlive : ([q.id] ++ (s.live.setPane r c p).ids).Perm ([p.id] ++ s.live.ids) :=
        (PaneLayout.setPane_perm hq p).map Pane.id
      show ((s.live.setPane r c p).ids ++ _).Perm (s.live.ids ++ _)
      refine (hafter.append_left _).trans (.trans ?_ (hbefore.symm.append_left _))
      refine (List.perm_append_comm_assoc ..).trans (.trans ?_ (List.perm_append_comm_assoc ..))
      rw [← List.append_assoc, ← List.append_assoc]
      exact hlive.append_right _

end

section
variable {F : Type}

/-- no other tab has the id of the active one -/
def SoleActive (s : AppState F) : Prop :=
  ∀ i active tab, s.tabs[s.activeTab]? = some active → s.tabs[i]? = some tab → tab.id = active.id → i = s.activeTab

lemma mutateTabReorder_seated {s t : AppState F} (hs : s.Seated) {source : String} {n : Nat}
    (h : s.mutateTabReorder source n = some t) : t.Seated ∧ t.side = s.side := by
  obtain rfl | ⟨o, a, active, tab, -, -, ha, rfl⟩ := mutateTabReorder_cases h
  · exact ⟨hs, rfl⟩
  · have hlen := List.length_insertIdx_of_le_length ha tab
    refine ⟨⟨hs.workspace, fun _ => ?_, fun hnil => ?_⟩, rfl⟩
    · show (((s.tabs.eraseIdx o).insertIdx a tab).findIdx? (·.id == active.id)).getD 0 <
        ((s.tabs.eraseIdx o).insertIdx a tab).length
      cases hfind : ((s.tabs.eraseIdx o).insertIdx a tab).findIdx? (·.id == active.id) with
      | none => exact hlen ▸ Nat.succ_pos _
      | some i => exact (List.findIdx?_eq_some_iff_getElem.mp hfind).1
    · rw [show (s.tabs.eraseIdx o).insertIdx a tab = [] from hnil] at hlen
      cases hlen

/-- the tab that is found by the id of a tab has that id -/
lemma exists_tab_of_id {tabs : List (TerminalTab F)} {tab : TerminalTab F} (h : tab ∈ tabs) :
    ∃ found, tabs[(tabs.findIdx? (·.id == tab.id)).getD 0]? = some found ∧ found.id = tab.id := by
  cases hfind : tabs.findIdx? (·.id == tab.id) with
  | none => exact absurd (List.findIdx?_eq_none_iff.mp hfind tab h) (by simp)
  | some i =>
    obtain ⟨hi, hid, -⟩ := List.findIdx?_eq_some_iff_getElem.mp hfind
    exact ⟨tabs[i], List.getElem?_eq_getElem hi, beq_iff_eq.mp hid⟩

/-- a pane stays where it is seen unless it is in another tab with the id of the active one -/
lemma mutateTabReorder_mem {s t : AppState F} {source : String} {n : Nat} (h : s.mutateTabReorder source n = some t)
    {id : PaneId} (hid : id ∈ s.paneIds)
    (hother : ∀ i active tab, s.tabs[s.activeTab]? = some active → s.tabs[i]? = some tab → i ≠ s.activeTab →
      tab.id = active.id → id ∉ tab.paneIds) : id ∈ t.paneIds := by
  obtain rfl | ⟨o, a, active, tab, hactive, htab, ha, rfl⟩ := mutateTabReorder_cases h
  · exact hid
  · have hperm := perm_move htab ha
    obtain ⟨found, hfound, hsame⟩ := exists_tab_of_id (hperm.mem_iff.mpr (List.mem_of_getElem? hactive))
    unfold paneIds activePaneIds at hid ⊢
    rw [List.mem_append, List.mem_append, List.mem_flatMap] at hid ⊢
    rcases hid with (hid | ⟨T, hT, hid⟩) | hid
    · exact .inl (.inl hid)
    · obtain ⟨i, hi, hget⟩ := List.mem_eraseIdx_iff_getElem?.mp hT
      have hne : T ≠ found := by
        rintro rfl
        exact hother i active T hactive hget hi hsame hid
      have hmem := hperm.mem_iff.mpr (List.mem_of_getElem? hget)
      exact .inl (.inr ⟨T, mem_eraseIdx_of_ne hfound hmem hne, hid⟩)
    · exact .inr hid

/-- a tab moved in the strip, when no other tab has the id of the active one -/
lemma mutateTabReorder_turns {s t : AppState F} (hs : s.Seated) (hsole : s.SoleActive) {source : String} {n : Nat}
    (h : s.mutateTabReorder source n = some t) : Turns s t [] [] ∧ t.tabs[t.activeTab]? = s.tabs[s.activeTab]? := by
  have hseated := (mutateTabReorder_seated hs h).1
  obtain rfl | ⟨o, a, active, tab, hactive, htab, ha, rfl⟩ := mutateTabReorder_cases h
  · exact ⟨.refl hs, rfl⟩
  · have hperm := perm_move htab ha
    obtain ⟨tabs, htabs⟩ : ∃ tabs, tabs = (s.tabs.eraseIdx o).insertIdx a tab := ⟨_, rfl⟩
    rw [← htabs] at hperm hseated ⊢
    -- the tab that is found has the id of the active one, and there is no other
    have hget : tabs[(tabs.findIdx? (·.id == active.id)).getD 0]? = some active := by
      obtain ⟨found, hfound, hid⟩ := exists_tab_of_id (hperm.mem_iff.mpr (List.mem_of_getElem? hactive))
      obtain ⟨j, hj⟩ := List.mem_iff_getElem?.mp (hperm.mem_iff.mp (List.mem_of_getElem? hfound))
      obtain rfl := hsole j active found hactive hj hid
      rw [hfound, ← hj, hactive]
    refine ⟨.of_active hs rfl rfl hseated.tab hseated.bare ?_, hget.trans hactive.symm⟩
    exact ((perm_eraseIdx hperm hget hactive).flatMap_right TerminalTab.paneIds).append_left s.live.ids

/-- loading a workspace moves the panes between the live fields and the lists only -/
lemma loadWorkspaceState_turns {s t : AppState F} (hlt : s.activeWorkspace < s.workspaces.length)
    (h : s.loadWorkspaceState = some t) :
    t.Seated ∧ t.paneIds.Perm (s.workspaces.flatMap Workspace.paneIds) ∧ t.side = s.side := by
  obtain ⟨hnone, -⟩ | ⟨ws, hws, ⟨hnil, rfl⟩ | ⟨tab, htab, rfl⟩⟩ := loadWorkspaceState_cases h
  · have := List.getElem?_eq_none_iff.mp hnone
    omega
  · refine ⟨⟨hlt, fun h => absurd rfl h, fun _ => rfl⟩, ?_, rfl⟩
    have hperm := (perm_of_getElem? hws).flatMap_right Workspace.paneIds
    rw [List.flatMap_cons, show ws.paneIds = [] by unfold Workspace.paneIds; rw [hnil]; rfl] at hperm
    exact hperm.symm
  · obtain ⟨hlt', -⟩ := List.getElem?_eq_some_iff.mp htab
    refine ⟨⟨hlt, fun _ => hlt', fun hnil => ?_⟩, ?_, rfl⟩
    · rw [show ws.tabs = [] from hnil] at hlt'
      cases hlt'
    · have hperm := (perm_of_getElem? hws).flatMap_right Workspace.paneIds
      exact ((tabs_perm htab).symm.append_right _).trans hperm.symm

/-- the workspaces with the live fields saved have all the panes -/
lemma Seated.savedWorkspaces_perm {s : AppState F} (hs : s.Seated) :
    (s.saveWorkspaceState.workspaces.flatMap Workspace.paneIds).Perm s.paneIds := by
  have hperm := (perm_modify (List.getElem?_eq_getElem hs.workspace) fun ws : Workspace F =>
    { ws with tabs := s.saveTabState.tabs, activeTab := s.activeTab }).flatMap_right Workspace.paneIds
  exact hperm.trans (hs.saved_perm.append_right _)

lemma mutateSwitchWorkspace_turns {s t : AppState F} (hs : s.Seated) {n : Nat}
    (h : s.mutateSwitchWorkspace n = some t) : Turns s t [] [] ∧ t.side = s.side := by
  obtain rfl | ⟨hn, -, hload⟩ := mutateSwitchWorkspace_cases h
  · exact ⟨.refl hs, rfl⟩
  · obtain ⟨hseat, hperm, hside⟩ := loadWorkspaceState_turns (by
      show n < (s.workspaces.modify _ _).length
      rwa [List.length_modify]) hload
    exact ⟨⟨hseat, hperm.trans hs.savedWorkspaces_perm⟩, hside⟩

lemma mutateAddWorkspaceWithPath_turns {s t : AppState F} (hs : s.Seated) {path folder : Option String}
    (h : s.mutateAddWorkspaceWithPath path folder = some t) : Turns s t [] [] ∧ t.side = s.side := by
  obtain rfl | ⟨num, name, -, h⟩ := mutateAddWorkspaceWithPath_cases h
  · exact ⟨.refl hs, rfl⟩
  · have hseated : Seated { s with workspaces := s.workspaces ++ [newWorkspace num name path] } := by
      refine ⟨?_, hs.tab, hs.bare⟩
      show s.activeWorkspace < (s.workspaces ++ _).length
      rw [List.length_append]
      exact Nat.lt_add_right _ hs.workspace
    obtain ⟨hturns, hside⟩ := mutateSwitchWorkspace_turns hseated h
    have hother : (s.workspaces ++ [newWorkspace num name path]).eraseIdx s.activeWorkspace =
        s.workspaces.eraseIdx s.activeWorkspace ++ [newWorkspace num name path] :=
      List.eraseIdx_append_of_lt_length hs.workspace _
    refine ⟨⟨hturns.seated, hturns.perm.trans ?_⟩, hside⟩
    show (s.activePaneIds ++ ((s.workspaces ++ [newWorkspace num name path]).eraseIdx s.activeWorkspace).flatMap _).Perm _
    rw [hother, List.flatMap_append]
    show (s.activePaneIds ++ (_ ++ [])).Perm _
    rw [List.append_nil]
    exact .refl _

lemma Seated.workspacePaneIds_active {s : AppState F} (hs : s.Seated) :
    s.workspacePaneIds s.activeWorkspace = s.activePaneIds := by
  unfold workspacePaneIds
  rw [List.getElem?_eq_getElem hs.workspace]
  exact if_pos rfl

lemma workspacePaneIds_other {s : AppState F} {n : Nat} {ws : Workspace F} (h : s.workspaces[n]? = some ws)
    (hne : n ≠ s.activeWorkspace) : s.workspacePaneIds n = ws.paneIds := by
  unfold workspacePaneIds
  rw [h]
  exact if_neg hne

/-- every pane id is asked for when the app is closed -/
lemma mem_closeAppPaneIds {s : AppState F} (hs : s.Seated) {id : PaneId} :
    id ∈ s.closeAppPaneIds ↔ id ∈ s.paneIds := by
  have hne : s.workspaces.isEmpty = false := by
    rw [List.isEmpty_eq_false_iff]
    exact List.ne_nil_of_length_pos (Nat.zero_lt_of_lt hs.workspace)
  unfold closeAppPaneIds paneIds otherPaneIds
  rw [hne, if_neg Bool.false_ne_true, List.mem_flatMap, List.mem_append, List.mem_flatMap]
  constructor
  · rintro ⟨⟨ws, i⟩, hmem, hid⟩
    have hget := List.mem_zipIdx_iff_getElem?.mp hmem
    dsimp only at hid hget
    split_ifs at hid with hactive
    · exact .inl hid
    · exact .inr ⟨ws, List.mem_eraseIdx_iff_getElem?.mpr ⟨i, hactive, hget⟩, hid⟩
  · rintro (hid | ⟨ws, hws, hid⟩)
    · have hlt := hs.workspace
      refine ⟨(s.workspaces[s.activeWorkspace], s.activeWorkspace), ?_, ?_⟩
      · exact List.mem_zipIdx_iff_getElem?.mpr (List.getElem?_eq_getElem hlt)
      · dsimp only
        rwa [if_pos rfl]
    · obtain ⟨i, hi, hget⟩ := List.mem_eraseIdx_iff_getElem?.mp hws
      refine ⟨(ws, i), List.mem_zipIdx_iff_getElem?.mpr hget, ?_⟩
      dsimp only
      rwa [if_neg hi]

/-- a workspace is left, and it is in range -/
lemma withoutWorkspace_lt {s : AppState F} (hs : s.Seated) {idx : Nat} (hidx : idx < s.workspaces.length)
    (hmany : 1 < s.workspaces.length) (ws : Workspace F) :
    (s.saveWorkspaceState.withoutWorkspace idx ws).activeWorkspace <
      (s.saveWorkspaceState.withoutWorkspace idx ws).workspaces.length := by
  have hlen : s.saveWorkspaceState.workspaces.length = s.workspaces.length := List.length_modify ..
  have hlen' := List.length_eraseIdx_of_lt (hlen ▸ hidx)
  have hactive := hs.workspace
  show (if s.activeWorkspace = idx then min idx ((s.saveWorkspaceState.workspaces.eraseIdx idx).length - 1)
    else if idx < s.activeWorkspace then s.activeWorkspace - 1 else s.activeWorkspace) <
    (s.saveWorkspaceState.workspaces.eraseIdx idx).length
  split_ifs <;> omega

lemma mutateRemoveWorkspace_closes {s t : AppState F} (hs : s.Seated) {idx : Nat}
    (h : s.mutateRemoveWorkspace idx = some t) : Closes s t (s.workspacePaneIds idx) := by
  obtain rfl | ⟨hmany, hidx, ws, hws, hload⟩ := mutateRemoveWorkspace_cases h
  · exact .refl hs _
  · obtain ⟨hseat, hperm, hside⟩ := loadWorkspaceState_turns (withoutWorkspace_lt hs hidx hmany ws) hload
    refine ⟨ws.paneIds, ⟨hseat, ?_⟩, hside, ?_⟩
    · have hall := (perm_of_getElem? hws).flatMap_right Workspace.paneIds
      exact ((hperm.append_left _).trans hall.symm).trans hs.savedWorkspaces_perm
    · have hget : (s.workspaces.modify s.activeWorkspace fun ws =>
          { ws with tabs := s.saveTabState.tabs, activeTab := s.saveTabState.activeTab })[idx]? = some ws := hws
      by_cases hactive : idx = s.activeWorkspace
      · rw [← hactive, List.getElem?_modify_eq, List.getElem?_eq_getElem hidx] at hget
        obtain rfl := Option.some.inj hget
        have hsame : s.workspacePaneIds idx = s.activePaneIds := hactive ▸ hs.workspacePaneIds_active
        rw [hsame]
        exact hs.saved_perm.subset
      · have hsame : (s.workspaces.modify s.activeWorkspace fun ws =>
            { ws with tabs := s.saveTabState.tabs, activeTab := s.saveTabState.activeTab })[idx]? = s.workspaces[idx]? :=
          List.getElem?_modify_ne _ _ (Ne.symm hactive)
        rw [workspacePaneIds_other (hsame.symm.trans hget) hactive]
        exact List.Subset.refl _

lemma focusActiveTabPane_turns {s : AppState F} (hs : s.Seated) (target : PaneId) :
    Turns s (s.focusActiveTabPane target) [] [] := by
  refine .of_active hs rfl rfl (fun hne => ?_) (fun hnil => hs.bare (List.modify_eq_nil_iff.mp hnil)) ?_
  · show s.activeTab < (s.tabs.modify _ _).length
    rw [List.length_modify]
    exact hs.tab fun hnil => hne (List.modify_eq_nil_iff.mpr hnil)
  · exact List.Perm.of_eq (activePaneIds_refocused s target)

lemma focusWorkspacePaneByIndex_turns {s t : AppState F} (hs : s.Seated) {w : Nat} {target : PaneId}
    (h : s.focusWorkspacePaneByIndex w target = some t) : Turns s t [] [] := by
  obtain rfl | ⟨u, v, hu, hv, rfl⟩ := focusWorkspacePaneByIndex_cases h
  · exact .refl hs
  · have hfirst : Turns s u [] [] := by
      obtain rfl | hu := hu
      · exact .refl hs
      · exact (mutateSwitchWorkspace_turns hs hu).1
    have hsecond : Turns u v [] [] := by
      obtain rfl | ⟨n, hv⟩ := hv
      · exact .refl hfirst.seated
      · exact mutateSwitchTab_turns hfirst.seated hv
    have hboth := hfirst.trans_moved hsecond
    exact hboth.trans_moved (focusActiveTabPane_turns hboth.seated target)

lemma canSplitRight_mem {s : AppState F} {target : PaneId} (h : s.canSplitRight target = true) :
    target ∈ s.live.ids := by
  unfold canSplitRight at h
  cases hrc : s.live.findPaneCoord target with
  | none =>
    rw [hrc] at h
    cases h
  | some rc => exact PaneLayout.mem_ids_of_findPaneCoord hrc

lemma canSplitDown_mem {s : AppState F} {target : PaneId} (h : s.canSplitDown target = true) :
    target ∈ s.live.ids := by
  obtain ⟨hfind, -⟩ := Bool.and_eq_true_iff.mp h
  obtain ⟨rc, hrc⟩ := Option.isSome_iff_exists.mp hfind
  exact PaneLayout.mem_ids_of_findPaneCoord hrc

lemma mutateKillWorkspaceTerminals_seated {s : AppState F} (hs : s.Seated) (n : Nat) :
    (s.mutateKillWorkspaceTerminals n).Seated := by
  unfold mutateKillWorkspaceTerminals emptyWorkspace
  split_ifs
  · exact hs
  · refine ⟨?_, fun h => absurd rfl h, fun _ => rfl⟩
    show s.activeWorkspace < (s.workspaces.modify _ _).length
    rw [List.length_modify]
    exact hs.workspace
  · refine ⟨?_, hs.tab, hs.bare⟩
    show s.activeWorkspace < (s.workspaces.modify _ _).length
    rw [List.length_modify]
    exact hs.workspace

/-- the panes of a killed workspace are gone, and only they -/
lemma mutateKillWorkspaceTerminals_turns {s : AppState F} (hs : s.Seated) (n : Nat) :
    Turns s (s.mutateKillWorkspaceTerminals n) (s.workspacePaneIds n) [] := by
  refine ⟨mutateKillWorkspaceTerminals_seated hs n, ?_⟩
  unfold mutateKillWorkspaceTerminals workspacePaneIds
  by_cases hn : s.workspaces.length ≤ n
  · rw [if_pos hn, List.getElem?_eq_none hn]
  · rw [if_neg hn, List.getElem?_eq_getElem (Nat.lt_of_not_le hn)]
    dsimp only
    by_cases hactive : n = s.activeWorkspace
    · subst hactive
      rw [if_pos rfl]
      unfold emptyWorkspace
      rw [if_pos rfl]
      show (s.activePaneIds ++ ((s.workspaces.modify s.activeWorkspace _).eraseIdx s.activeWorkspace).flatMap _).Perm _
      rw [List.eraseIdx_modify_of_eq]
      exact .refl _
    · rw [if_neg hactive]
      unfold emptyWorkspace
      rw [if_neg hactive]
      let empty (ws : Workspace F) : Workspace F := { ws with tabs := [], activeTab := 0 }
      have hget := List.getElem?_eq_getElem (Nat.lt_of_not_le hn)
      have hget' : (s.workspaces.modify n empty)[n]? = some (empty s.workspaces[n]) := by
        rw [List.getElem?_modify_eq, hget]
        rfl
      have hbefore := (perm_eraseIdx_of_ne hget hs.workspace hactive).flatMap_right Workspace.paneIds
      have hafter := (perm_eraseIdx_of_ne hget' (by rw [List.length_modify]; exact hs.workspace) hactive).flatMap_right
        Workspace.paneIds
      rw [List.eraseIdx_modify_of_eq, List.flatMap_cons] at hafter
      show (s.workspaces[n].paneIds ++ (s.activePaneIds ++ ((s.workspaces.modify n empty).eraseIdx _).flatMap _)).Perm
        (s.activePaneIds ++ _)
      exact (List.perm_append_comm_assoc ..).trans (((hafter.append_left _).trans hbefore.symm).append_left _)

lemma mutateKillAllTerminals_seated {s : AppState F} (hs : s.Seated) : s.mutateKillAllTerminals.Seated := by
  refine ⟨?_, fun h => absurd rfl h, fun _ => rfl⟩
  show s.activeWorkspace < (s.workspaces.map _).length
  rw [List.length_map]
  exact hs.workspace

/-- a session that a pane has takes that pane with it; another one is nobody's -/
lemma mutateKillSessionId_eq (s : AppState F) (sessionId : Nat) :
    s.mutateKillSessionId sessionId = s ∨ ∃ id, (id, sessionId) ∈ s.side.sessions ∧
      s.mutateKillSessionId sessionId = { s with side := s.side.stopTerminal id }.prunePaneFromLayouts id := by
  unfold mutateKillSessionId
  split
  next id sid hfind =>
    have hsid := List.find?_some hfind
    obtain rfl : sid = sessionId := beq_iff_eq.mp hsid
    exact .inr ⟨id, List.mem_of_find?_eq_some hfind, rfl⟩
  next => exact .inl rfl

lemma mutateKillSessionId_seated {s : AppState F} (hs : s.Seated) (sessionId : Nat) :
    (s.mutateKillSessionId sessionId).Seated := by
  obtain heq | ⟨id, -, heq⟩ := s.mutateKillSessionId_eq sessionId
  · rw [heq]
    exact hs
  · rw [heq]
    refine ⟨?_, fun hne => ?_, fun hnil => ?_⟩
    · show s.activeWorkspace < (s.workspaces.map _).length
      rw [List.length_map]
      exact hs.workspace
    · show s.activeTab < (s.tabs.modify _ _).length
      rw [List.length_modify]
      exact hs.tab fun hnil => hne (List.modify_eq_nil_iff.mpr hnil)
    · have hbare := hs.bare (List.modify_eq_nil_iff.mp hnil)
      show (s.live.prune id).flat.map Pane.id = []
      rw [PaneLayout.prune_flat, List.map_eq_nil_iff.mp hbare]
      rfl

end

section
variable {F : Type} [F32 F]

/-- the panes that are kept stay, and only they -/
lemma pruneCloseLayoutToKeptPanes_perm {s t : AppState F} (hs : s.Seated) {kept : PaneId → Bool}
    (h : s.pruneCloseLayoutToKeptPanes kept = some t) :
    t.Seated ∧ t.paneIds.Perm (s.paneIds.filter kept) ∧ t.side = s.side.retainAgents kept := by
  have hload := pruneCloseLayoutToKeptPanes_cases h (List.ne_nil_of_length_pos (Nat.zero_lt_of_lt hs.workspace))
  obtain ⟨hseat, hperm, hside⟩ := loadWorkspaceState_turns (by
    show s.activeWorkspace < ((s.workspaces.modify _ _).map _).length
    rw [List.length_map, List.length_modify]
    exact hs.workspace) hload
  refine ⟨hseat, hperm.trans ?_, hside⟩
  rw [retain_paneIds]
  exact hs.savedWorkspaces_perm.filter kept

lemma pruneCloseLayoutToKeptPanes_seated {s t : AppState F} (hs : s.Seated) {kept : PaneId → Bool}
    (h : s.pruneCloseLayoutToKeptPanes kept = some t) : t.Seated := (pruneCloseLayoutToKeptPanes_perm hs h).1

lemma mutateKillWorkspaceAgents_seated {s t : AppState F} (hs : s.Seated) {n : Nat}
    (h : s.mutateKillWorkspaceAgents n = some t) : t.Seated := by
  obtain ⟨-, rfl⟩ | h := mutateKillWorkspaceAgents_cases h
  · exact hs
  · have hside : Seated { s with side := (s.workspaceAgentPaneIds n).foldl .killAgentTables s.side } :=
      ⟨hs.workspace, hs.tab, hs.bare⟩
    exact pruneCloseLayoutToKeptPanes_seated hside h

lemma finalizeCloseChoice_seated {s t : AppState F} (hs : s.Seated) {choice : CloseChoice}
    (h : s.finalizeCloseChoice choice false = some t) : t.Seated := by
  obtain ⟨u, ⟨toggles, rfl⟩, ⟨-, rfl⟩ | ⟨kept, remember, -, h⟩ | ⟨-, rfl⟩⟩ := finalizeCloseChoice_cases h
  · exact ⟨hs.workspace, hs.tab, hs.bare⟩
  · unfold keepPanes at h
    dsimp only at h
    exact pruneCloseLayoutToKeptPanes_seated (by exact ⟨hs.workspace, hs.tab, hs.bare⟩) h
  · exact mutateKillAllTerminals_seated ⟨hs.workspace, hs.tab, hs.bare⟩

/-- every operation keeps the state seated -/
lemma Seated.step {s t : AppState F} (hs : s.Seated) {op : Op} (h : step s op = some t) : t.Seated := by
  cases op with
  | addTab spawned => exact Option.some.inj h ▸ (openTab_turns hs _ _ _).seated
  | addWorktreeTab title spawned => exact Option.some.inj h ▸ (openTab_turns hs _ _ _).seated
  | addEditorTab editor => exact Option.some.inj h ▸ (openTab_turns hs _ _ _).seated
  | addFlowTab pane => exact Option.some.inj h ▸ (openTab_turns hs _ _ _).seated
  | addAgentTab launch outcome => exact Option.some.inj h ▸ (openTab_turns hs _ _ _).seated
  | splitRight target spawned =>
    obtain ⟨-, rfl⟩ | ⟨hcan, hsplit⟩ := mutateSplitRight_cases h
    · exact hs
    · exact (hsplit.turns hs (ids_ne_nil (canSplitRight_mem hcan))).seated
  | splitDown target spawned =>
    obtain ⟨-, rfl⟩ | ⟨hcan, hsplit⟩ := mutateSplitDown_cases h
    · exact hs
    · exact (hsplit.turns hs (ids_ne_nil (canSplitDown_mem hcan))).seated
  | closePane target =>
    obtain ⟨gone, hturns, -⟩ := mutateClosePane_closes hs h
    exact hturns.seated
  | closeTab index =>
    obtain ⟨gone, hturns, -⟩ := mutateCloseTab_closes hs h
    exact hturns.seated
  | focusLeft => exact (turns_of_relives hs (mutateFocus_cases (.inl h))).seated
  | focusRight => exact (turns_of_relives hs (mutateFocus_cases (.inr (.inl h)))).seated
  | focusUp => exact (turns_of_relives hs (mutateFocus_cases (.inr (.inr (.inl h))))).seated
  | focusDown => exact (turns_of_relives hs (mutateFocus_cases (.inr (.inr (.inr h))))).seated
  | focusPane workspaceIdx target => exact (focusWorkspacePaneByIndex_turns hs h).seated
  | extract target newTabIndex => exact (mutateExtractPaneToTab_turns hs h).seated
  | reorder sourceTabId newIndex => exact (mutateTabReorder_seated hs h).1
  | dropSplit sourceTabId target edge =>
    obtain ⟨gone, hturns, -⟩ := mutatePaneDropSplit_turns hs h
    exact hturns.seated
  | moveToEdge source target edge => exact (turns_of_relives hs (mutatePaneMoveToEdge_cases h)).seated
  | swap a b => exact (turns_of_relives hs (mutatePaneSwap_cases h)).seated
  | swapFromTab sourceTabId target => exact (mutatePaneSwapFromTab_turns hs h).seated
  | switchTab newIndex => exact (mutateSwitchTab_turns hs h).seated
  | addWorkspace path folder => exact (mutateAddWorkspaceWithPath_turns hs h).1.seated
  | switchWorkspace newIndex => exact (mutateSwitchWorkspace_turns hs h).1.seated
  | removeWorkspace idx =>
    obtain ⟨gone, hturns, -⟩ := mutateRemoveWorkspace_closes hs h
    exact hturns.seated
  | killWorkspaceTerminals wsIdx => exact Option.some.inj h ▸ mutateKillWorkspaceTerminals_seated hs wsIdx
  | killWorkspaceAgents wsIdx => exact mutateKillWorkspaceAgents_seated hs h
  | killAll => exact Option.some.inj h ▸ mutateKillAllTerminals_seated hs
  | killSession sessionId => exact Option.some.inj h ▸ mutateKillSessionId_seated hs sessionId
  | closeUnsaved choice => exact finalizeCloseChoice_seated hs h

lemma seedState_seated (folder : String) (path : Option String) (defaultShell : ShellSpec) :
    (seedState (F := F) folder path defaultShell).Seated :=
  ⟨Nat.zero_lt_succ _, fun _ => Nat.zero_lt_one, fun h => absurd h (List.cons_ne_nil _ _)⟩

end
end AppState
end TerminalManager.App
