import TerminalManager.App.Step

/-!
# The shape of the pane layouts

Every layout, live or stored, has a ratio for each row and each pane, no empty row, and its focus
on one of its panes (`Shape`).  Each operation keeps this and indexes in range; only a pruned pane
leaves its ratio behind.

* `Stored`              the lists alone are in shape, while the live fields are being replaced;
* `Shape.*`             one lemma for each operation.
-/

namespace TerminalManager.App
open Ui (F32)
open Transition

namespace PaneLayout
section
variable {F : Type}

/-- in a balanced layout with a pane, the clamped place holds one -/
lemma Balanced.exists_refocus {l : PaneLayout F} (hl : Balanced l) (hne : l.panes ≠ []) (r c : Nat) :
    ∃ l', l.refocus r c = some l' ∧ l'.Shaped ∧ l'.panes = l.panes := by
  have hlen := List.length_pos_iff.mpr hne
  have hr : min r (l.panes.length - 1) < l.panes.length := by omega
  have hrow := hl.filled _ (List.getElem_mem hr)
  have hpos := List.length_pos_iff.mpr hrow
  have hc : min c (l.panes[min r (l.panes.length - 1)].length - 1) < l.panes[min r (l.panes.length - 1)].length := by
    omega
  refine ⟨{ l with activePane := l.panes[min r (l.panes.length - 1)][min c _].id }, ?_, hl.withFocus ?_, rfl⟩
  · unfold refocus
    rw [List.getElem?_eq_getElem hr]
    show (l.panes[min r (l.panes.length - 1)][min c _]?).bind _ = _
    rw [List.getElem?_eq_getElem hc]
    rfl
  · exact mem_ids.mpr ⟨_, List.mem_flatten.mpr ⟨_, List.getElem_mem hr, List.getElem_mem hc⟩, rfl⟩

lemma refocus_panes {l l' : PaneLayout F} {r c : Nat} (h : l.refocus r c = some l') : l'.panes = l.panes := by
  unfold refocus at h
  obtain ⟨row, -, h⟩ := Option.bind_eq_some_iff.mp h
  obtain ⟨p, -, h⟩ := Option.bind_eq_some_iff.mp h
  rw [← Option.some.inj h]

lemma setPane_lengths {l : PaneLayout F} {r c : Nat} {q : Pane} (h : l.paneAt r c = some q) (p : Pane) :
    Ragged.lengths (l.setPane r c p).panes = Ragged.lengths l.panes := by
  obtain ⟨row, hrow, -⟩ := Ragged.cell?_eq_some.mp h
  show Ragged.lengths (l.panes.modify r (·.set c p)) = _
  rw [Ragged.lengths_modify (g := id) hrow (List.length_set ..), List.modify_id]

/-- the panes when one is exchanged for another -/
lemma setPane_perm {l : PaneLayout F} {r c : Nat} {q : Pane} (h : l.paneAt r c = some q) (p : Pane) :
    (q :: (l.setPane r c p).flat).Perm (p :: l.flat) := by
  obtain ⟨row, hrow, hq⟩ := Ragged.cell?_eq_some.mp h
  refine Ragged.flatten_modify [q] [p] hrow ?_
  exact ((perm_set hq p).cons q).trans ((List.Perm.swap p q _).trans ((perm_of_getElem? hq).symm.cons p))

lemma Balanced.setPane {l : PaneLayout F} (hl : Balanced l) {r c : Nat} {q : Pane}
    (h : l.paneAt r c = some q) (p : Pane) : (l.setPane r c p).Balanced := by
  have hlengths := setPane_lengths h p
  refine ⟨?_, hl.cols.trans hlengths.symm, ?_⟩
  · have hlen := congrArg List.length hlengths
    rw [Ragged.length_lengths, Ragged.length_lengths] at hlen
    rw [hlen]
    exact hl.rows
  · obtain ⟨row, hrow, -⟩ := Ragged.cell?_eq_some.mp h
    intro row' hrow' hnil
    rcases mem_of_mem_modify hrow hrow' with heq | hmem
    · have hset := congrArg List.length (heq.symm.trans hnil)
      rw [List.length_set] at hset
      exact hl.filled row (List.mem_of_getElem? hrow) (List.length_eq_zero_iff.mp hset)
    · exact hl.filled row' hmem hnil

lemma paneAt_setPane {l : PaneLayout F} {r c r' c' : Nat} {q q' : Pane} (h : l.paneAt r c = some q)
    (h' : l.paneAt r' c' = some q') (p : Pane) :
    (l.setPane r c p).paneAt r' c' = some (if r = r' ∧ c = c' then p else q') := by
  obtain ⟨row, hrow, hc⟩ := Ragged.cell?_eq_some.mp h
  obtain ⟨row', hrow', hc'⟩ := Ragged.cell?_eq_some.mp h'
  apply Ragged.cell?_eq_some.mpr
  show ∃ x, (l.panes.modify r (·.set c p))[r']? = some x ∧ _
  by_cases hr : r = r'
  · subst hr
    obtain rfl : row = row' := Option.some.inj (hrow.symm.trans hrow')
    refine ⟨row.set c p, ?_, ?_⟩
    · rw [List.getElem?_modify_eq, hrow]
      rfl
    · by_cases hcc : c = c'
      · subst hcc
        rw [if_pos ⟨rfl, rfl⟩]
        exact List.getElem?_set_self (List.getElem?_eq_some_iff.mp hc).1
      · rw [if_neg (fun h => hcc h.2), List.getElem?_set_ne hcc, hc']
  · refine ⟨row', ?_, ?_⟩
    · rw [List.getElem?_modify_ne _ _ hr, hrow']
    · rw [if_neg (fun h => hr h.1), hc']

lemma mem_setPane {l : PaneLayout F} {r c : Nat} {q : Pane} (h : l.paneAt r c = some q) (p : Pane) :
    p.id ∈ (l.setPane r c p).ids := by
  have hat := paneAt_setPane h h p
  rw [if_pos ⟨rfl, rfl⟩] at hat
  exact mem_ids.mpr ⟨p, paneAt_mem hat, rfl⟩

/-- two panes that trade places -/
lemma swap_spec {l : PaneLayout F} {r c r' c' : Nat} {p p' : Pane} (h : l.paneAt r c = some p)
    (h' : l.paneAt r' c' = some p') :
    ((l.setPane r c p').setPane r' c' p).flat.Perm l.flat ∧
      (l.Balanced → ((l.setPane r c p').setPane r' c' p).Balanced) := by
  have hat : (l.setPane r c p').paneAt r' c' = some p' := by
    rw [paneAt_setPane h h', ite_self]
  refine ⟨?_, fun hl => (hl.setPane h p').setPane hat p⟩
  exact (List.perm_cons p').mp ((setPane_perm hat p).trans (setPane_perm h p'))

lemma paneCount_pos {l : PaneLayout F} {id : PaneId} (h : id ∈ l.ids) : 0 < l.paneCount := by
  rw [← length_flat, ← List.length_map (f := Pane.id)]
  exact List.length_pos_of_mem h

end

section
variable {F : Type} [F32 F]

lemma removePane_perm {l l' : PaneLayout F} {r c : Nat} {target : PaneId}
    (h : l.removePane r c target = some l') : ∃ p, l.paneAt r c = some p ∧ l.flat.Perm (p :: l'.flat) := by
  unfold removePane at h
  obtain ⟨m, hm, h⟩ := Option.bind_eq_some_iff.mp h
  obtain ⟨p, hp, hperm⟩ := detach_perm hm
  refine ⟨p, hp, ?_⟩
  split_ifs at h
  · show l.flat.Perm (p :: l'.panes.flatten)
    rw [refocus_panes h]
    exact hperm
  · rw [← Option.some.inj h]
    exact hperm

/-- a pane that is not the last one is taken out, and the focus is on one that is left -/
lemma Shaped.exists_removePane {l : PaneLayout F} (hl : Shaped l) {r c : Nat} {p : Pane}
    (hp : l.paneAt r c = some p) (hcount : l.paneCount ≠ 1) :
    ∃ l', l.removePane r c p.id = some l' ∧ l'.Shaped := by
  obtain ⟨m, hm⟩ := hl.toBalanced.exists_detach hp
  have hbal := hl.toBalanced.of_detach hm
  obtain ⟨p', hp', hperm⟩ := detach_perm hm
  obtain rfl : p = p' := Option.some.inj (hp.symm.trans hp')
  have hids : l.ids.Perm (p.id :: m.ids) := hperm.map Pane.id
  have hpos := paneCount_pos hl.focused
  have hlen := hperm.length_eq
  rw [length_flat, List.length_cons] at hlen
  have hne : m.panes ≠ [] := by
    intro hnil
    rw [flat, hnil, List.flatten_nil, List.length_nil] at hlen
    omega
  unfold removePane
  rw [hm]
  show ∃ l', (if m.activePane = p.id then m.refocus r c else some m) = some l' ∧ _
  by_cases hfocus : m.activePane = p.id
  · rw [if_pos hfocus]
    obtain ⟨l', hl', hshaped, -⟩ := hbal.exists_refocus hne r c
    exact ⟨l', hl', hshaped⟩
  · rw [if_neg hfocus]
    refine ⟨m, rfl, hbal, ?_⟩
    rw [detach_activePane hm] at hfocus ⊢
    exact (List.mem_cons.mp (hids.mem_iff.mp hl.focused)).resolve_left hfocus

end
end PaneLayout

namespace AppState
section
variable {F : Type}

/-- the tabs of the active workspace and those of the others have their shape -/
structure Stored (s : AppState F) : Prop where
  tabs : ∀ t ∈ s.tabs, t.layout.Shaped
  workspaces : ∀ ws ∈ s.workspaces, ∀ t ∈ ws.tabs, t.layout.Shaped

/-- every layout has its shape, the active tab is one of the tabs -/
structure Shape (s : AppState F) : Prop extends Stored s where
  active : s.tabs ≠ [] → s.activeTab < s.tabs.length
  live : s.tabs ≠ [] → s.live.Shaped
  bare : s.tabs = [] → s.live = .empty

/-- the stored copy of the active tab is the live layout -/
def Synced (s : AppState F) : Prop := ∃ t, s.tabs[s.activeTab]? = some t ∧ t.layout = s.live

lemma Shape.clearTabs {s : AppState F} (hs : s.Stored) : s.clearTabs.Shape where
  tabs t ht := by cases ht
  workspaces := hs.workspaces
  active h := absurd rfl h
  live h := absurd rfl h
  bare _ := rfl

/-- a tab list in which one layout is replaced by another in shape -/
lemma shaped_modify {tabs : List (TerminalTab F)} {i : Nat} {f : TerminalTab F → TerminalTab F}
    (h : ∀ t ∈ tabs, t.layout.Shaped) (hf : ∀ t, tabs[i]? = some t → (f t).layout.Shaped) :
    ∀ t ∈ tabs.modify i f, t.layout.Shaped := by
  intro t ht
  cases hi : tabs[i]? with
  | none =>
    rw [List.modify_eq_self (List.getElem?_eq_none_iff.mp hi)] at ht
    exact h t ht
  | some x =>
    rcases mem_of_mem_modify hi ht with rfl | ht
    · exact hf x hi
    · exact h t ht

lemma saveTabState_tabs (s : AppState F) : s.saveTabState.tabs.length = s.tabs.length :=
  List.length_modify ..

lemma Shape.saved {s : AppState F} (hs : s.Shape) : ∀ t ∈ s.saveTabState.tabs, t.layout.Shaped :=
  shaped_modify hs.tabs fun _ ht => hs.live (List.ne_nil_of_mem (List.mem_of_getElem? ht))

lemma Shape.savedStored {s : AppState F} (hs : s.Shape) : s.saveTabState.Stored :=
  ⟨hs.saved, hs.workspaces⟩

/-- copying the live fields into the tab list keeps the shape, and syncs the active tab -/
lemma Shape.sync {s : AppState F} (hs : s.Stored) (hactive : s.activeTab < s.tabs.length)
    (hlive : s.live.Shaped) : s.syncLiveTabFromPanes.Shape ∧ s.syncLiveTabFromPanes.Synced := by
  have hlen : s.syncLiveTabFromPanes.tabs.length = s.tabs.length := List.length_modify ..
  refine ⟨⟨⟨shaped_modify hs.tabs fun _ _ => hlive, hs.workspaces⟩, fun _ => hlen ▸ hactive, fun _ => hlive, ?_⟩,
    ?_⟩
  · intro hnil
    rw [hnil, List.length_nil] at hlen
    omega
  · refine ⟨{ s.tabs[s.activeTab] with layout := s.live }, ?_, rfl⟩
    show (s.tabs.modify s.activeTab _)[s.activeTab]? = _
    rw [List.getElem?_modify_eq, List.getElem?_eq_getElem hactive]
    rfl

/-- loading the active tab gives the shape back, and the tab is synced -/
lemma Stored.load {s : AppState F} (hs : s.Stored) (hactive : s.activeTab < s.tabs.length) :
    ∃ t, s.loadTabState = some t ∧ t.Shape ∧ t.Synced ∧ ∃ live, t = { s with live } := by
  have hget := List.getElem?_eq_getElem hactive
  refine ⟨{ s with live := s.tabs[s.activeTab].layout }, ?_, ⟨⟨hs.tabs, hs.workspaces⟩, fun _ => hactive, ?_, ?_⟩, ?_, _, rfl⟩
  · unfold loadTabState
    rw [hget]
    rfl
  · exact fun _ => hs.tabs _ (List.getElem_mem hactive)
  · intro hnil
    rw [show s.tabs = [] from hnil, List.length_nil] at hactive
    omega
  · exact ⟨_, hget, rfl⟩

lemma Synced.active {s : AppState F} (h : s.Synced) : s.activeTab < s.tabs.length := by
  obtain ⟨t, ht, -⟩ := h
  exact (List.getElem?_eq_some_iff.mp ht).1

/-- a pane of the live layout and of the stored copy that gets the focus in both -/
lemma Shape.refocus {s : AppState F} (hs : s.Shape) {id : PaneId} (hid : id ∈ s.live.ids)
    (hstored : ∀ t, s.tabs[s.activeTab]? = some t → id ∈ t.layout.ids) :
    Shape { s with
      live := { s.live with activePane := id }
      tabs := s.tabs.modify s.activeTab fun t => { t with layout := { t.layout with activePane := id } } } := by
  have hne : s.tabs ≠ [] := by
    intro hnil
    rw [hs.bare hnil] at hid
    cases hid
  have hlive : PaneLayout.Shaped { s.live with activePane := id } := (hs.live hne).toBalanced.withFocus hid
  refine ⟨⟨shaped_modify hs.tabs ?_, hs.workspaces⟩, fun _ => ?_, fun _ => hlive, fun hnil => ?_⟩
  · intro t ht
    exact (hs.tabs t (List.mem_of_getElem? ht)).toBalanced.withFocus (hstored t ht)
  · show s.activeTab < (s.tabs.modify s.activeTab _).length
    rw [List.length_modify]
    exact hs.active hne
  · exact absurd (List.modify_eq_nil_iff.mp hnil) hne

/-- a pane of the live layout that gets the focus, in a synced state -/
lemma Shape.focus {s : AppState F} (hs : s.Shape) (hsync : s.Synced) {id : PaneId} (hid : id ∈ s.live.ids) :
    Shape { s with
      live := { s.live with activePane := id }
      tabs := s.tabs.modify s.activeTab fun t => { t with layout := { t.layout with activePane := id } } } := by
  apply hs.refocus hid
  intro t ht
  obtain ⟨t', ht', heq⟩ := hsync
  obtain rfl : t = t' := Option.some.inj (ht.symm.trans ht')
  rw [heq]
  exact hid

lemma Synced.focus {s : AppState F} (hsync : s.Synced) (id : PaneId) :
    Synced { s with
      live := { s.live with activePane := id }
      tabs := s.tabs.modify s.activeTab fun t => { t with layout := { t.layout with activePane := id } } } := by
  obtain ⟨t, ht, hlive⟩ := hsync
  refine ⟨{ t with layout := { t.layout with activePane := id } }, ?_, ?_⟩
  · show (s.tabs.modify s.activeTab _)[s.activeTab]? = _
    rw [List.getElem?_modify_eq, ht]
    rfl
  · show { t.layout with activePane := id } = { s.live with activePane := id }
    rw [hlive]

/-- the group kept, the panes stay where they are -/
lemma Shape.focusTabGroup {s : AppState F} (hs : s.Shape) (hsync : s.Synced) (agents : Bool) :
    ∃ t, s.focusTabGroup agents = some t ∧ t.Shape ∧ t.Synced ∧ t.live.panes = s.live.panes := by
  unfold AppState.focusTabGroup
  by_cases hgroup : s.isAgentPane s.live.activePane = agents
  · rw [if_pos hgroup]
    exact ⟨s, rfl, hs, hsync, rfl⟩
  · rw [if_neg hgroup]
    cases hfind : s.live.flat.find? fun p => s.isAgentPane p.id == agents with
    | none => exact ⟨s, rfl, hs, hsync, rfl⟩
    | some p =>
      simp only [if_pos hsync.active]
      have hid : p.id ∈ s.live.ids := PaneLayout.mem_ids.mpr ⟨p, List.mem_of_find?_eq_some hfind, rfl⟩
      exact ⟨_, rfl, hs.focus hsync hid, hsync.focus p.id, rfl⟩

lemma tabAfterClose_lt {s : AppState F} {agents : Bool} {start : Nat} (h : start < s.tabs.length) :
    s.tabAfterClose agents start < s.tabs.length := by
  unfold tabAfterClose
  cases hfind : (List.range' start (s.tabs.length - start) ++ (List.range start).reverse).find?
      (s.tabInGroup agents) with
  | none => exact h
  | some i =>
    have hmem := List.mem_of_find?_eq_some hfind
    rw [List.mem_append, List.mem_range'_1, List.mem_reverse, List.mem_range] at hmem
    show i < s.tabs.length
    omega

lemma Stored.loadTabAfterClose {s : AppState F} (hs : s.Stored) (hne : s.tabs ≠ []) (agents : Bool) :
    ∃ t, s.loadTabAfterClose agents = some t ∧ t.Shape := by
  have hlen := List.length_pos_iff.mpr hne
  have hlt : s.tabAfterClose agents (min s.activeTab (s.tabs.length - 1)) < s.tabs.length :=
    tabAfterClose_lt (by omega)
  obtain ⟨t, ht, hshape, hsync, -⟩ :=
    Stored.load (s := { s with activeTab := s.tabAfterClose agents (min s.activeTab (s.tabs.length - 1)) })
      ⟨hs.tabs, hs.workspaces⟩ hlt
  obtain ⟨u, hu, hshape', -⟩ := hshape.focusTabGroup hsync agents
  refine ⟨u, ?_, hshape'⟩
  unfold AppState.loadTabAfterClose
  show (loadTabState _).bind _ = some u
  rw [ht]
  exact hu

lemma Shape.withSide {s : AppState F} (hs : s.Shape) (side : PaneTables) : Shape { s with side } :=
  ⟨⟨hs.tabs, hs.workspaces⟩, hs.active, hs.live, hs.bare⟩

/-- switching to another tab makes its stored panes the live ones -/
lemma Shape.switchTab {s : AppState F} (hs : s.Shape) {n : Nat} {tab : TerminalTab F} (htab : s.tabs[n]? = some tab)
    (hn : n ≠ s.activeTab) :
    ∃ t, s.mutateSwitchTab n = some t ∧ t.Shape ∧ t.Synced ∧ t.live.ids = tab.layout.ids := by
  obtain ⟨hlt, -⟩ := List.getElem?_eq_some_iff.mp htab
  have hguard : ¬ (s.tabs.length ≤ n ∨ n = s.activeTab) := by omega
  have hlt' : n < s.saveTabState.tabs.length := by
    rw [saveTabState_tabs]
    exact hlt
  obtain ⟨t, ht, hshape, ⟨tab', htab', hlive⟩, live, rfl⟩ :=
    Stored.load (s := { s.saveTabState with activeTab := n }) ⟨hs.saved, hs.workspaces⟩ hlt'
  -- the saved list differs at the tab that is left only
  have hother : s.saveTabState.tabs[n]? = some tab := (List.getElem?_modify_ne _ _ (Ne.symm hn)).trans htab
  obtain rfl : tab = tab' := Option.some.inj (hother.symm.trans htab')
  obtain ⟨u, hu, hshape', hsync', hpanes⟩ :=
    Shape.focusTabGroup (s := AppState.seen { s.saveTabState with activeTab := n, live }) (hshape.withSide _)
      ⟨tab, htab', hlive⟩ (s.isAgentPane s.live.activePane)
  refine ⟨u, ?_, hshape', hsync', ?_⟩
  · unfold AppState.mutateSwitchTab
    rw [if_neg hguard]
    show (loadTabState _).bind _ = some u
    rw [ht]
    exact hu
  · rw [hlive]
    unfold PaneLayout.ids PaneLayout.flat
    rw [hpanes]
    rfl

lemma Shape.mutateSwitchTab {s : AppState F} (hs : s.Shape) (n : Nat) :
    ∃ t, s.mutateSwitchTab n = some t ∧ t.Shape := by
  by_cases hn : s.tabs.length ≤ n ∨ n = s.activeTab
  · refine ⟨s, ?_, hs⟩
    unfold AppState.mutateSwitchTab
    rw [if_pos hn]
  · obtain ⟨hlt, hne⟩ := not_or.mp hn
    obtain ⟨t, ht, hshape, -⟩ := hs.switchTab (List.getElem?_eq_getElem (Nat.lt_of_not_le hlt)) hne
    exact ⟨t, ht, hshape⟩

/-- the tab list without one of its tabs -/
lemma Shape.erased {s : AppState F} (hs : s.Shape) (idx : Nat) :
    ∀ t ∈ s.tabs.eraseIdx idx, t.layout.Shaped := fun t ht => hs.tabs t (List.mem_of_mem_eraseIdx ht)

lemma Shape.mutateCloseTab {s : AppState F} (hs : s.Shape) (idx : Nat) :
    ∃ t, s.mutateCloseTab idx = some t ∧ t.Shape := by
  unfold AppState.mutateCloseTab
  by_cases hidx : s.tabs.length ≤ idx
  · rw [if_pos hidx]
    exact ⟨s, rfl, hs⟩
  · rw [if_neg hidx]
    have hlt := Nat.lt_of_not_le hidx
    obtain ⟨ids, hids⟩ : ∃ ids, s.tabPaneIds idx = some ids := by
      unfold tabPaneIds
      split_ifs
      · exact ⟨_, rfl⟩
      · rw [List.getElem?_eq_getElem hlt]
        exact ⟨_, rfl⟩
    show ∃ t, (s.tabPaneIds idx).bind _ = some t ∧ _
    rw [hids]
    show ∃ t, (if (s.tabs.eraseIdx idx).isEmpty then _ else _) = some t ∧ _
    have hlen := List.length_eraseIdx_of_lt hlt
    by_cases hempty : (s.tabs.eraseIdx idx).isEmpty
    · rw [if_pos hempty]
      exact ⟨_, rfl, Shape.clearTabs ⟨hs.erased idx, hs.workspaces⟩⟩
    · have hne : s.tabs.eraseIdx idx ≠ [] := fun hnil => hempty (List.isEmpty_iff.mpr hnil)
      have hpos := List.length_pos_iff.mpr hne
      have hactive := hs.active (List.ne_nil_of_length_pos (by omega))
      rw [if_neg hempty]
      by_cases heq : s.activeTab = idx
      · rw [if_pos heq]
        exact Stored.loadTabAfterClose
          (s := { s with side := _, tabs := s.tabs.eraseIdx idx, activeTab := _ })
          ⟨hs.erased idx, hs.workspaces⟩ hne _
      · rw [if_neg heq]
        refine ⟨_, rfl, ⟨⟨hs.erased idx, hs.workspaces⟩, fun _ => ?_, fun _ => ?_, fun hnil => ?_⟩⟩
        · show (if idx < s.activeTab then s.activeTab - 1 else s.activeTab) < (s.tabs.eraseIdx idx).length
          split_ifs <;> omega
        · exact hs.live (List.ne_nil_of_length_pos (by omega))
        · exact absurd hnil hne

lemma Shape.mutateTabReorder {s : AppState F} (hs : s.Shape) (source : String) (n : Nat) :
    ∃ t, s.mutateTabReorder source n = some t ∧ t.Shape := by
  unfold AppState.mutateTabReorder
  cases hfind : s.tabs.findIdx? (·.id == source) with
  | none => exact ⟨s, rfl, hs⟩
  | some o =>
    obtain ⟨ho, -⟩ := List.findIdx?_eq_some_iff_getElem.mp hfind
    have hne : s.tabs ≠ [] := List.ne_nil_of_length_pos (by omega)
    have hactive := hs.active hne
    dsimp only
    obtain ⟨a, ha⟩ : ∃ a, a = if o < min n s.tabs.length then min n s.tabs.length - 1 else min n s.tabs.length :=
      ⟨_, rfl⟩
    rw [← ha]
    by_cases heq : a = o
    · rw [if_pos heq]
      exact ⟨s, rfl, hs⟩
    · rw [if_neg heq, List.getElem?_eq_getElem hactive, List.getElem?_eq_getElem ho]
      have hle : min a (s.tabs.eraseIdx o).length ≤ (s.tabs.eraseIdx o).length := Nat.min_le_right ..
      have hperm := perm_move (List.getElem?_eq_getElem ho) hle
      obtain ⟨tabs, htabs⟩ : ∃ tabs, tabs = (s.tabs.eraseIdx o).insertIdx (min a (s.tabs.eraseIdx o).length) s.tabs[o] :=
        ⟨_, rfl⟩
      rw [← htabs] at hperm
      have hlen := hperm.length_eq
      simp only [Option.bind_eq_bind, Option.bind_some, ← htabs]
      refine ⟨_, rfl, ⟨⟨fun t ht => hs.tabs t (hperm.mem_iff.mp ht), hs.workspaces⟩, fun _ => ?_, fun _ => hs.live hne,
        fun hnil => ?_⟩⟩
      · show (tabs.findIdx? _).getD 0 < tabs.length
        cases hidx : tabs.findIdx? (·.id == s.tabs[s.activeTab].id) with
        | none =>
          show 0 < tabs.length
          omega
        | some i => exact (List.findIdx?_eq_some_iff_getElem.mp hidx).1
      · rw [show tabs = [] from hnil, List.length_nil] at hlen
        omega

end

section
variable {F : Type} [F32 F]

lemma Shape.openTab {s : AppState F} (hs : s.Shape) (title subtitle : String) :
    (s.openTab title subtitle).Shape where
  tabs t ht := by
    rcases List.mem_append.mp ht with ht | ht
    · exact hs.saved t ht
    · rw [List.mem_singleton.mp ht]
      exact PaneLayout.single_shaped _
  workspaces := hs.workspaces
  active _ := by
    show s.saveTabState.tabs.length < (s.saveTabState.tabs ++ _).length
    rw [List.length_append]
    exact Nat.lt_succ_self _
  live _ := PaneLayout.single_shaped _
  bare h := absurd h (List.append_ne_nil_of_right_ne_nil _ (List.cons_ne_nil _ _))

omit [F32 F] in
lemma Shape.nonempty {s : AppState F} (hs : s.Shape) {id : PaneId} (h : id ∈ s.live.ids) : s.tabs ≠ [] := by
  intro hnil
  rw [hs.bare hnil] at h
  cases h

omit [F32 F] in
/-- a live layout in shape, copied into its tab -/
lemma Shape.relive {s : AppState F} (hs : s.Shape) (hne : s.tabs ≠ []) {live : PaneLayout F}
    (hlive : live.Shaped) :
    Shape (syncLiveTabFromPanes { s with live }) ∧ Synced (syncLiveTabFromPanes { s with live }) :=
  Shape.sync (s := { s with live }) ⟨hs.tabs, hs.workspaces⟩ (hs.active hne) hlive

lemma Shape.splitPane {s : AppState F} (hs : s.Shape) {r c : Nat} {q : Pane} (hq : s.live.paneAt r c = some q)
    {edge : DropZone} (hedge : edge ≠ .center) (spawned : SpawnResult) :
    ∃ t, s.splitPane r c edge spawned = some t ∧ t.Shape := by
  have hne := hs.nonempty (PaneLayout.mem_ids.mpr ⟨q, PaneLayout.paneAt_mem hq, rfl⟩)
  have hbal := (hs.live hne).toBalanced
  obtain ⟨live, hlive⟩ := hbal.exists_attach hq edge ⟨s.nextId, "shell", "bash"⟩
  have hid : s.nextId ∈ live.ids :=
    PaneLayout.mem_ids.mpr ⟨_, (PaneLayout.attach_perm hedge hlive).mem_iff.mpr List.mem_cons_self, rfl⟩
  unfold AppState.splitPane
  rw [hlive]
  exact ⟨_, rfl, ⟨⟨hs.tabs, hs.workspaces⟩, hs.active, fun _ => (hbal.of_attach hedge hlive).withFocus hid,
    fun hnil => absurd hnil hne⟩⟩

lemma Shape.mutateSplitRight {s : AppState F} (hs : s.Shape) (target : PaneId) (spawned : SpawnResult) :
    ∃ t, s.mutateSplitRight target spawned = some t ∧ t.Shape := by
  unfold AppState.mutateSplitRight
  cases hfind : s.live.findPaneCoord target with
  | none => exact ⟨s, rfl, hs⟩
  | some rc =>
    obtain ⟨q, hq, -⟩ := PaneLayout.findPaneCoord_some hfind
    obtain ⟨row, hrow, -⟩ := Ragged.cell?_eq_some.mp hq
    show ∃ t, (s.live.panes[rc.1]?).bind _ = some t ∧ _
    rw [hrow]
    show ∃ t, (if MAX_COLS ≤ row.length then some s else _) = some t ∧ _
    by_cases hmax : MAX_COLS ≤ row.length
    · rw [if_pos hmax]
      exact ⟨s, rfl, hs⟩
    · rw [if_neg hmax]
      exact hs.splitPane hq (by decide) spawned

lemma Shape.mutateSplitDown {s : AppState F} (hs : s.Shape) (target : PaneId) (spawned : SpawnResult) :
    ∃ t, s.mutateSplitDown target spawned = some t ∧ t.Shape := by
  unfold AppState.mutateSplitDown
  cases hfind : s.live.findPaneCoord target with
  | none => exact ⟨s, rfl, hs⟩
  | some rc =>
    obtain ⟨q, hq, -⟩ := PaneLayout.findPaneCoord_some hfind
    show ∃ t, (if MAX_ROWS ≤ s.live.panes.length then some s else _) = some t ∧ _
    by_cases hmax : MAX_ROWS ≤ s.live.panes.length
    · rw [if_pos hmax]
      exact ⟨s, rfl, hs⟩
    · rw [if_neg hmax]
      exact hs.splitPane hq (by decide) spawned

lemma Shape.mutateClosePane {s : AppState F} (hs : s.Shape) (target : PaneId) :
    ∃ t, s.mutateClosePane target = some t ∧ t.Shape := by
  unfold AppState.mutateClosePane
  cases hfind : s.live.findPaneCoord target with
  | none => exact ⟨s, rfl, hs⟩
  | some rc =>
    obtain ⟨p, hp, rfl⟩ := PaneLayout.findPaneCoord_some hfind
    have hne := hs.nonempty (PaneLayout.mem_ids_of_findPaneCoord hfind)
    show ∃ t, (if s.live.paneCount = 1 then _ else _) = some t ∧ _
    by_cases hcount : s.live.paneCount = 1
    · rw [if_pos hcount]
      exact hs.mutateCloseTab s.activeTab
    · rw [if_neg hcount]
      obtain ⟨live, hlive, hshaped⟩ := (hs.live hne).exists_removePane hp hcount
      show ∃ t, (s.live.removePane rc.1 rc.2 p.id).bind _ = some t ∧ _
      rw [hlive]
      obtain ⟨hshape, -⟩ := (hs.withSide (s.side.closePaneTables p.id)).relive hne hshaped
      show ∃ t, (if s.live.activePane = p.id then _ else _) = some t ∧ _
      by_cases hactive : s.live.activePane = p.id
      · rw [if_pos hactive]
        refine hshape.toStored.loadTabAfterClose ?_ _
        exact fun hnil => hne (List.modify_eq_nil_iff.mp hnil)
      · rw [if_neg hactive]
        exact ⟨_, rfl, hshape⟩

omit [F32 F] in
lemma Shape.insertTab {s : AppState F} (hs : s.Stored) {tab : TerminalTab F} (htab : tab.layout.Shaped)
    (i : Nat) :
    ∃ t, loadTabState { s with
        tabs := s.tabs.insertIdx (min i s.tabs.length) tab
        activeTab := min i s.tabs.length } = some t ∧ t.Shape := by
  have hle : min i s.tabs.length ≤ s.tabs.length := Nat.min_le_right ..
  have hlt : min i s.tabs.length < (s.tabs.insertIdx (min i s.tabs.length) tab).length := by
    rw [List.length_insertIdx_of_le_length hle]
    omega
  have htabs : ∀ t ∈ s.tabs.insertIdx (min i s.tabs.length) tab, t.layout.Shaped := by
    intro t ht
    rcases (List.mem_insertIdx hle).mp ht with rfl | ht
    · exact htab
    · exact hs.tabs t ht
  obtain ⟨t, ht, hshape, -⟩ := Stored.load
    (s := { s with
      tabs := s.tabs.insertIdx (min i s.tabs.length) tab
      activeTab := min i s.tabs.length }) ⟨htabs, hs.workspaces⟩ hlt
  exact ⟨t, ht, hshape⟩

lemma Shape.mutateExtractPaneToTab {s : AppState F} (hs : s.Shape) (target : PaneId) (n : Nat) :
    ∃ t, s.mutateExtractPaneToTab target n = some t ∧ t.Shape := by
  unfold AppState.mutateExtractPaneToTab
  cases hfind : s.live.findPaneCoord target with
  | none => exact ⟨s, rfl, hs⟩
  | some rc =>
    obtain ⟨p, hp, rfl⟩ := PaneLayout.findPaneCoord_some hfind
    have hne := hs.nonempty (PaneLayout.mem_ids_of_findPaneCoord hfind)
    show ∃ t, (s.live.paneAt rc.1 rc.2).bind _ = some t ∧ _
    rw [hp]
    show ∃ t, (if s.live.paneCount = 1 then _ else _) = some t ∧ _
    by_cases hcount : s.live.paneCount = 1
    · rw [if_pos hcount, if_neg (Nat.not_le_of_lt (hs.active hne))]
      exact Shape.insertTab (s := { s with tabs := s.tabs.eraseIdx s.activeTab })
        ⟨hs.erased s.activeTab, hs.workspaces⟩ (PaneLayout.single_shaped _) _
    · rw [if_neg hcount]
      obtain ⟨live, hlive, hshaped⟩ := (hs.live hne).exists_removePane hp hcount
      show ∃ t, (s.live.removePane rc.1 rc.2 p.id).bind _ = some t ∧ _
      rw [hlive]
      exact Shape.insertTab (hs.relive hne hshaped).1.toStored (PaneLayout.single_shaped _) n

omit [F32 F] in
/-- what a tab is dragged from: another tab, with one pane -/
lemma dragSource_cases {s : AppState F} {source : String} {r : Option (Nat × Pane)}
    (h : s.dragSource source = some r) :
    r = none ∨ ∃ idx p tab, r = some (idx, p) ∧ s.tabs[idx]? = some tab ∧ idx ≠ s.activeTab ∧
      tab.layout.paneCount = 1 ∧ tab.layout.paneAt 0 0 = some p := by
  unfold dragSource at h
  cases hfind : s.tabs.findIdx? (·.id == source) with
  | none =>
    rw [hfind] at h
    exact .inl (Option.some.inj h).symm
  | some idx =>
    rw [hfind] at h
    dsimp only at h
    split_ifs at h with hidx
    · exact .inl (Option.some.inj h).symm
    · obtain ⟨tab, htab, h⟩ := Option.bind_eq_some_iff.mp h
      split_ifs at h with hcount
      · exact .inl (Option.some.inj h).symm
      · obtain ⟨p, hp, h⟩ := Option.bind_eq_some_iff.mp h
        exact .inr ⟨idx, p, tab, (Option.some.inj h).symm, htab, hidx, not_not.mp hcount, hp⟩

omit [F32 F] in
lemma Shape.exists_dragSource {s : AppState F} (hs : s.Shape) (source : String) :
    ∃ r, s.dragSource source = some r := by
  unfold dragSource
  cases hfind : s.tabs.findIdx? (·.id == source) with
  | none => exact ⟨none, rfl⟩
  | some idx =>
    obtain ⟨hidx, -⟩ := List.findIdx?_eq_some_iff_getElem.mp hfind
    dsimp only
    split_ifs
    · exact ⟨none, rfl⟩
    · rw [List.getElem?_eq_getElem hidx]
      show ∃ r, (if s.tabs[idx].layout.paneCount ≠ 1 then some none else _) = some r
      have hshaped := hs.tabs _ (List.getElem_mem hidx)
      obtain ⟨p, hp⟩ := hshaped.first hshaped.nonempty
      split_ifs
      · exact ⟨none, rfl⟩
      · rw [hp]
        exact ⟨some (idx, p), rfl⟩

omit [F32 F] in
/-- the active tab stays when another one is taken out -/
lemma Shape.dropTab {s : AppState F} (hs : s.Shape) {idx : Nat} (hidx : idx < s.tabs.length)
    (hne : idx ≠ s.activeTab) :
    Shape { s with
      tabs := s.tabs.eraseIdx idx
      activeTab := if idx < s.activeTab then s.activeTab - 1 else s.activeTab } ∧ s.tabs.eraseIdx idx ≠ [] := by
  have hlen := List.length_eraseIdx_of_lt hidx
  have hactive := hs.active (List.ne_nil_of_length_pos (by omega))
  have hnil : s.tabs.eraseIdx idx ≠ [] := List.ne_nil_of_length_pos (by omega)
  refine ⟨⟨⟨hs.erased idx, hs.workspaces⟩, fun _ => ?_, fun _ => ?_, fun h => absurd h hnil⟩, hnil⟩
  · show (if idx < s.activeTab then s.activeTab - 1 else s.activeTab) < (s.tabs.eraseIdx idx).length
    split_ifs <;> omega
  · exact hs.live (List.ne_nil_of_length_pos (by omega))

lemma Shape.mutatePaneDropSplit {s : AppState F} (hs : s.Shape) (source : String) (target : PaneId)
    (edge : DropZone) : ∃ t, s.mutatePaneDropSplit source target edge = some t ∧ t.Shape := by
  obtain ⟨r, hr⟩ := hs.exists_dragSource source
  unfold AppState.mutatePaneDropSplit
  rw [hr]
  obtain rfl | ⟨idx, p, tab, rfl, htab, hidx, -, -⟩ := dragSource_cases hr
  · exact ⟨s, rfl, hs⟩
  · show ∃ t, (if p.id = target then some s else _) = some t ∧ _
    by_cases heq : p.id = target
    · rw [if_pos heq]
      exact ⟨s, rfl, hs⟩
    · rw [if_neg heq]
      cases hfind : s.live.findPaneCoord target with
      | none => exact ⟨s, rfl, hs⟩
      | some rc =>
        obtain ⟨q, hq, rfl⟩ := PaneLayout.findPaneCoord_some hfind
        obtain ⟨hshape, hne⟩ := hs.dropTab (List.getElem?_eq_some_iff.mp htab).1 hidx
        show ∃ t, (if edge = .center then _ else _) = some t ∧ _
        by_cases hedge : edge = .center
        · rw [if_pos hedge]
          exact ⟨_, rfl, hshape⟩
        · rw [if_neg hedge]
          have hbal := (hshape.live hne).toBalanced
          obtain ⟨live, hlive⟩ := hbal.exists_attach hq edge p
          have hid : p.id ∈ live.ids :=
            PaneLayout.mem_ids.mpr ⟨p, (PaneLayout.attach_perm hedge hlive).mem_iff.mpr List.mem_cons_self, rfl⟩
          show ∃ t, (s.live.attach rc.1 rc.2 edge p).bind _ = some t ∧ _
          rw [hlive]
          exact ⟨_, rfl, (hshape.relive hne ((hbal.of_attach hedge hlive).withFocus hid)).1⟩

lemma Shape.mutatePaneMoveToEdge {s : AppState F} (hs : s.Shape) (source target : PaneId) (edge : DropZone) :
    ∃ t, s.mutatePaneMoveToEdge source target edge = some t ∧ t.Shape := by
  unfold AppState.mutatePaneMoveToEdge
  by_cases hguard : source = target ∨ edge = .center
  · rw [if_pos hguard]
    exact ⟨s, rfl, hs⟩
  · rw [if_neg hguard]
    obtain ⟨hne, hedge⟩ := not_or.mp hguard
    cases hsrc : s.live.findPaneCoord source with
    | none => exact ⟨s, rfl, hs⟩
    | some src =>
      cases htgt : s.live.findPaneCoord target with
      | none => exact ⟨s, rfl, hs⟩
      | some tgt =>
        obtain ⟨p, hp, rfl⟩ := PaneLayout.findPaneCoord_some hsrc
        have htabs := hs.nonempty (PaneLayout.mem_ids_of_findPaneCoord hsrc)
        have hbal := (hs.live htabs).toBalanced
        obtain ⟨m, hm⟩ := hbal.exists_detach hp
        obtain ⟨p', hp', hperm⟩ := PaneLayout.detach_perm hm
        obtain rfl : p = p' := Option.some.inj (hp.symm.trans hp')
        -- the target is still there, since it is not the pane that was taken out
        have hmem : target ∈ m.ids :=
          (List.mem_cons.mp ((hperm.map Pane.id).mem_iff.mp (PaneLayout.mem_ids_of_findPaneCoord htgt))).resolve_left
            (Ne.symm hne)
        obtain ⟨r, c, hrc⟩ := PaneLayout.exists_findPaneCoord hmem
        obtain ⟨q, hq, -⟩ := PaneLayout.findPaneCoord_some hrc
        have hbal' := hbal.of_detach hm
        obtain ⟨live, hlive⟩ := hbal'.exists_attach hq edge p
        have hid : p.id ∈ live.ids :=
          PaneLayout.mem_ids.mpr ⟨p, (PaneLayout.attach_perm hedge hlive).mem_iff.mpr List.mem_cons_self, rfl⟩
        show ∃ t, (s.live.paneAt src.1 src.2).bind _ = some t ∧ _
        rw [hp]
        show ∃ t, (s.live.detach src.1 src.2).bind _ = some t ∧ _
        rw [hm]
        simp only [Option.bind_some, hrc]
        show ∃ t, (m.attach r c edge p).bind _ = some t ∧ _
        rw [hlive]
        exact ⟨_, rfl, (hs.relive htabs ((hbal'.of_attach hedge hlive).withFocus hid)).1⟩

end

section
variable {F : Type}

/-- a focus move that goes to a place in the grid -/
lemma Shape.focusMove {s : AppState F} (hs : s.Shape) {next : PaneLayout F → Nat → Nat → Option (Nat × Nat)}
    (hnext : ∀ r c q, s.live.paneAt r c = some q → s.live.Balanced → ∀ rc, next s.live r c = some rc →
      ∃ p, s.live.paneAt rc.1 rc.2 = some p) :
    ∃ t, s.focusMove next = some t ∧ t.Shape := by
  unfold AppState.focusMove
  cases hfind : s.live.findPaneCoord s.live.activePane with
  | none => exact ⟨s, rfl, hs⟩
  | some rc =>
    obtain ⟨q, hq, -⟩ := PaneLayout.findPaneCoord_some hfind
    have hne := hs.nonempty (PaneLayout.mem_ids_of_findPaneCoord hfind)
    have hbal := (hs.live hne).toBalanced
    cases hstep : next s.live rc.1 rc.2 with
    | none =>
      refine ⟨s, ?_, hs⟩
      dsimp only
      rw [hstep]
    | some rc' =>
      obtain ⟨p, hp⟩ := hnext rc.1 rc.2 q hq hbal rc' hstep
      dsimp only
      rw [hstep]
      show ∃ t, (s.live.paneAt rc'.1 rc'.2).bind _ = some t ∧ _
      rw [hp]
      exact ⟨_, rfl, (hs.relive hne (hbal.withFocus (PaneLayout.mem_ids.mpr ⟨p, PaneLayout.paneAt_mem hp, rfl⟩))).1⟩

/-- the clamped place in a row that exists holds a pane -/
lemma exists_paneAt_clamped {l : PaneLayout F} (hl : l.Balanced) {r : Nat} (hr : r < l.panes.length) (c : Nat) :
    ∃ p, l.paneAt r (min c (l.rowLength r - 1)) = some p := by
  have hpos := List.length_pos_iff.mpr (hl.filled _ (List.getElem_mem hr))
  have hlen : l.rowLength r = l.panes[r].length := by
    unfold PaneLayout.rowLength
    rw [List.getElem?_eq_getElem hr]
    rfl
  have hc : min c (l.rowLength r - 1) < l.panes[r].length := by omega
  exact ⟨_, Ragged.cell?_eq_some.mpr ⟨_, List.getElem?_eq_getElem hr, List.getElem?_eq_getElem hc⟩⟩

lemma paneAt_lt {l : PaneLayout F} {r c : Nat} {q : Pane} (h : l.paneAt r c = some q) :
    ∃ row, l.panes[r]? = some row ∧ r < l.panes.length ∧ c < row.length ∧ l.rowLength r = row.length := by
  obtain ⟨row, hrow, hc⟩ := Ragged.cell?_eq_some.mp h
  refine ⟨row, hrow, (List.getElem?_eq_some_iff.mp hrow).1, (List.getElem?_eq_some_iff.mp hc).1, ?_⟩
  unfold PaneLayout.rowLength
  rw [hrow]
  rfl

lemma Shape.mutateFocusLeft {s : AppState F} (hs : s.Shape) : ∃ t, s.mutateFocusLeft = some t ∧ t.Shape := by
  apply hs.focusMove
  intro r c q hq _ rc h
  obtain ⟨row, hrow, -, hc, -⟩ := paneAt_lt hq
  split_ifs at h
  obtain rfl := Option.some.inj h
  exact ⟨_, Ragged.cell?_eq_some.mpr ⟨row, hrow, List.getElem?_eq_getElem (by omega)⟩⟩

lemma Shape.mutateFocusRight {s : AppState F} (hs : s.Shape) : ∃ t, s.mutateFocusRight = some t ∧ t.Shape := by
  apply hs.focusMove
  intro r c q hq _ rc h
  obtain ⟨row, hrow, -, -, hlen⟩ := paneAt_lt hq
  split_ifs at h with hle
  obtain rfl := Option.some.inj h
  exact ⟨_, Ragged.cell?_eq_some.mpr ⟨row, hrow, List.getElem?_eq_getElem (by show c + 1 < row.length; omega)⟩⟩

lemma Shape.mutateFocusUp {s : AppState F} (hs : s.Shape) : ∃ t, s.mutateFocusUp = some t ∧ t.Shape := by
  apply hs.focusMove
  intro r c q hq hbal rc h
  obtain ⟨row, -, hr, -, -⟩ := paneAt_lt hq
  split_ifs at h
  obtain rfl := Option.some.inj h
  exact exists_paneAt_clamped hbal (by omega) c

lemma Shape.mutateFocusDown {s : AppState F} (hs : s.Shape) : ∃ t, s.mutateFocusDown = some t ∧ t.Shape := by
  apply hs.focusMove
  intro r c q _ hbal rc h
  split_ifs at h
  obtain rfl := Option.some.inj h
  exact exists_paneAt_clamped hbal (by omega) c

lemma Shape.mutatePaneSwap {s : AppState F} (hs : s.Shape) (a b : PaneId) :
    ∃ t, s.mutatePaneSwap a b = some t ∧ t.Shape := by
  unfold AppState.mutatePaneSwap
  by_cases hab : a = b
  · rw [if_pos hab]
    exact ⟨s, rfl, hs⟩
  · rw [if_neg hab]
    cases ha : s.live.findPaneCoord a with
    | none => exact ⟨s, rfl, hs⟩
    | some ca =>
      cases hb : s.live.findPaneCoord b with
      | none => exact ⟨s, rfl, hs⟩
      | some cb =>
        obtain ⟨pa, hpa, rfl⟩ := PaneLayout.findPaneCoord_some ha
        obtain ⟨pb, hpb, rfl⟩ := PaneLayout.findPaneCoord_some hb
        have hne := hs.nonempty (PaneLayout.mem_ids_of_findPaneCoord ha)
        show ∃ t, (s.live.paneAt ca.1 ca.2).bind _ = some t ∧ _
        rw [hpa]
        show ∃ t, (s.live.paneAt cb.1 cb.2).bind _ = some t ∧ _
        rw [hpb]
        obtain ⟨hperm, hbal⟩ := PaneLayout.swap_spec hpa hpb
        have hid : pa.id ∈ ((s.live.setPane ca.1 ca.2 pb).setPane cb.1 cb.2 pa).ids :=
          (hperm.map Pane.id).mem_iff.mpr (PaneLayout.mem_ids_of_findPaneCoord ha)
        exact ⟨_, rfl, (hs.relive hne ((hbal (hs.live hne).toBalanced).withFocus hid)).1⟩

lemma Shape.mutatePaneSwapFromTab {s : AppState F} (hs : s.Shape) (source : String) (target : PaneId) :
    ∃ t, s.mutatePaneSwapFromTab source target = some t ∧ t.Shape := by
  obtain ⟨r, hr⟩ := hs.exists_dragSource source
  unfold AppState.mutatePaneSwapFromTab
  rw [hr]
  obtain rfl | ⟨idx, p, tab, rfl, htab, hidx, -, hp⟩ := dragSource_cases hr
  · exact ⟨s, rfl, hs⟩
  · show ∃ t, (if p.id = target then some s else _) = some t ∧ _
    by_cases heq : p.id = target
    · rw [if_pos heq]
      exact ⟨s, rfl, hs⟩
    · rw [if_neg heq]
      cases hfind : s.live.findPaneCoord target with
      | none => exact ⟨s, rfl, hs⟩
      | some rc =>
        obtain ⟨q, hq, rfl⟩ := PaneLayout.findPaneCoord_some hfind
        have hne := hs.nonempty (PaneLayout.mem_ids_of_findPaneCoord hfind)
        have hbal := (hs.live hne).toBalanced
        have hlive : PaneLayout.Shaped { s.live.setPane rc.1 rc.2 p with activePane := p.id } :=
          (hbal.setPane hq p).withFocus (PaneLayout.mem_setPane hq p)
        have htabs : ∀ t ∈ s.tabs.modify idx fun t =>
            { t with layout := { t.layout.setPane 0 0 q with activePane := q.id } }, t.layout.Shaped := by
          refine shaped_modify hs.tabs fun t ht => ?_
          obtain rfl : t = tab := Option.some.inj (ht.symm.trans htab)
          exact ((hs.tabs t (List.mem_of_getElem? ht)).toBalanced.setPane hp q).withFocus
            (PaneLayout.mem_setPane hp q)
        show ∃ t, (s.live.paneAt rc.1 rc.2).bind _ = some t ∧ _
        rw [hq]
        refine ⟨_, rfl, And.left (Shape.sync ?_ ?_ hlive)⟩
        · exact ⟨htabs, hs.workspaces⟩
        · show s.activeTab < (s.tabs.modify idx _).length
          rw [List.length_modify]
          exact hs.active hne

end
section
variable {F : Type}

lemma Shape.saveTabState {s : AppState F} (hs : s.Shape) : s.saveTabState.Shape where
  tabs := hs.saved
  workspaces := hs.workspaces
  active h := by
    rw [saveTabState_tabs]
    exact hs.active fun hnil => h (List.modify_eq_nil_iff.mpr hnil)
  live h := hs.live fun hnil => h (List.modify_eq_nil_iff.mpr hnil)
  bare h := hs.bare (List.modify_eq_nil_iff.mp h)

/-- workspaces whose tabs are all in shape may replace the stored ones -/
lemma Shape.withWorkspaces {s : AppState F} (hs : s.Shape) {workspaces : List (Workspace F)} (n : Nat)
    (h : ∀ ws ∈ workspaces, ∀ t ∈ ws.tabs, t.layout.Shaped) :
    Shape { s with workspaces, activeWorkspace := n } :=
  ⟨⟨hs.tabs, h⟩, hs.active, hs.live, hs.bare⟩

/-- the tabs of the workspaces when one workspace is changed -/
lemma shaped_modifyWorkspace {workspaces : List (Workspace F)} {i : Nat} {f : Workspace F → Workspace F}
    (h : ∀ ws ∈ workspaces, ∀ t ∈ ws.tabs, t.layout.Shaped)
    (hf : ∀ ws, ∀ t ∈ (f ws).tabs, t.layout.Shaped) :
    ∀ ws ∈ workspaces.modify i f, ∀ t ∈ ws.tabs, t.layout.Shaped := by
  intro ws hws
  cases hi : workspaces[i]? with
  | none =>
    rw [List.modify_eq_self (List.getElem?_eq_none_iff.mp hi)] at hws
    exact h ws hws
  | some x =>
    rcases mem_of_mem_modify hi hws with rfl | hws
    · exact hf x
    · exact h ws hws

lemma Shape.saveWorkspaceState {s : AppState F} (hs : s.Shape) : s.saveWorkspaceState.Shape :=
  hs.saveTabState.withWorkspaces s.activeWorkspace (shaped_modifyWorkspace hs.workspaces fun _ => hs.saved)

/-- loading a workspace that has tabs makes them the tabs, and the active one is synced -/
lemma Shape.loadTabs {s : AppState F} (hs : s.Shape) {ws : Workspace F}
    (hws : s.workspaces[s.activeWorkspace]? = some ws) (hne : ws.tabs ≠ []) :
    ∃ t, s.loadWorkspaceState = some t ∧ t.Shape ∧ t.Synced ∧ t.tabs = ws.tabs := by
  have hpos := List.length_pos_iff.mpr hne
  obtain ⟨t, ht, hshape, hsync, live, rfl⟩ := Stored.load
    (s := { s with tabs := ws.tabs, activeTab := min ws.activeTab (ws.tabs.length - 1) })
    ⟨hs.workspaces ws (List.mem_of_getElem? hws), hs.workspaces⟩
    (by show min ws.activeTab (ws.tabs.length - 1) < ws.tabs.length; omega)
  refine ⟨_, ?_, hshape, hsync, rfl⟩
  unfold AppState.loadWorkspaceState
  rw [hws]
  dsimp only
  rw [if_neg (fun hempty => hne (List.isEmpty_iff.mp hempty))]
  exact ht

lemma Shape.loadWorkspaceState {s : AppState F} (hs : s.Shape) :
    ∃ t, s.loadWorkspaceState = some t ∧ t.Shape := by
  cases hws : s.workspaces[s.activeWorkspace]? with
  | none =>
    refine ⟨s, ?_, hs⟩
    unfold AppState.loadWorkspaceState
    rw [hws]
  | some ws =>
    by_cases hempty : ws.tabs.isEmpty
    · refine ⟨s.clearTabs, ?_, Shape.clearTabs hs.toStored⟩
      unfold AppState.loadWorkspaceState
      rw [hws]
      exact if_pos hempty
    · obtain ⟨t, ht, hshape, -⟩ := hs.loadTabs hws fun hnil => hempty (List.isEmpty_iff.mpr hnil)
      exact ⟨t, ht, hshape⟩

/-- switching to another workspace that has tabs -/
lemma Shape.switchWorkspace {s : AppState F} (hs : s.Shape) {n : Nat} {ws : Workspace F}
    (hws : s.workspaces[n]? = some ws) (hn : n ≠ s.activeWorkspace) (hne : ws.tabs ≠ []) :
    ∃ t, s.mutateSwitchWorkspace n = some t ∧ t.Shape ∧ t.Synced ∧ t.tabs = ws.tabs := by
  obtain ⟨hlt, -⟩ := List.getElem?_eq_some_iff.mp hws
  have hguard : ¬ (s.workspaces.length ≤ n ∨ n = s.activeWorkspace) := by omega
  have hother : s.saveWorkspaceState.workspaces[n]? = some ws :=
    (List.getElem?_modify_ne _ _ (Ne.symm hn)).trans hws
  have hsaved := hs.saveWorkspaceState
  unfold AppState.mutateSwitchWorkspace
  rw [if_neg hguard]
  exact (hsaved.withWorkspaces n hsaved.workspaces).loadTabs hother hne

lemma Shape.mutateSwitchWorkspace {s : AppState F} (hs : s.Shape) (n : Nat) :
    ∃ t, s.mutateSwitchWorkspace n = some t ∧ t.Shape := by
  unfold AppState.mutateSwitchWorkspace
  split_ifs
  · exact ⟨s, rfl, hs⟩
  · have hsaved := hs.saveWorkspaceState
    exact (hsaved.withWorkspaces n hsaved.workspaces).loadWorkspaceState

lemma Shape.mutateAddWorkspaceWithPath {s : AppState F} (hs : s.Shape) (path folder : Option String) :
    ∃ t, s.mutateAddWorkspaceWithPath path folder = some t ∧ t.Shape := by
  unfold AppState.mutateAddWorkspaceWithPath
  cases allocateWorkspaceNum (s.workspaces.map Workspace.num) with
  | none => exact ⟨s, rfl, hs⟩
  | some num =>
    apply Shape.mutateSwitchWorkspace (s := { s with workspaces := _ })
    apply hs.withWorkspaces
    intro ws hws t ht
    rcases List.mem_append.mp hws with hws | hws
    · exact hs.workspaces ws hws t ht
    · rw [List.mem_singleton.mp hws] at ht
      cases ht

lemma Shape.mutateRemoveWorkspace {s : AppState F} (hs : s.Shape) (idx : Nat) :
    ∃ t, s.mutateRemoveWorkspace idx = some t ∧ t.Shape := by
  unfold AppState.mutateRemoveWorkspace
  by_cases hguard : s.workspaces.length ≤ 1 ∨ s.workspaces.length ≤ idx
  · rw [if_pos hguard]
    exact ⟨s, rfl, hs⟩
  · rw [if_neg hguard]
    have hsaved := hs.saveWorkspaceState
    have hlt : idx < s.saveWorkspaceState.workspaces.length := by
      show idx < (s.workspaces.modify _ _).length
      rw [List.length_modify]
      omega
    show ∃ t, (s.saveWorkspaceState.workspaces[idx]?).bind _ = some t ∧ _
    rw [List.getElem?_eq_getElem hlt]
    exact
      ((hsaved.withSide (s.saveWorkspaceState.workspaces[idx].paneIds.foldl .closePaneTables
        s.saveWorkspaceState.side)).withWorkspaces _
          fun ws hws => hsaved.workspaces ws (List.mem_of_mem_eraseIdx hws)).loadWorkspaceState

lemma Shape.emptyWorkspace {s : AppState F} (hs : s.Shape) (n : Nat) : (s.emptyWorkspace n).Shape := by
  unfold AppState.emptyWorkspace
  have hempty : ∀ ws ∈ s.workspaces.modify n fun ws => { ws with tabs := [], activeTab := 0 },
      ∀ t ∈ ws.tabs, t.layout.Shaped :=
    shaped_modifyWorkspace hs.workspaces fun _ t ht => by cases ht
  split_ifs
  · exact (Shape.clearTabs hs.toStored).withWorkspaces s.activeWorkspace hempty
  · exact hs.withWorkspaces s.activeWorkspace hempty

lemma Shape.mutateKillWorkspaceTerminals {s : AppState F} (hs : s.Shape) (n : Nat) :
    (s.mutateKillWorkspaceTerminals n).Shape := by
  unfold AppState.mutateKillWorkspaceTerminals
  split_ifs
  · exact hs
  · exact (hs.withSide _).emptyWorkspace n

lemma Shape.mutateKillAllTerminals {s : AppState F} : s.mutateKillAllTerminals.Shape where
  tabs t ht := by cases ht
  workspaces ws hws t ht := by
    obtain ⟨ws', -, rfl⟩ := List.mem_map.mp hws
    cases ht
  active h := absurd rfl h
  live h := absurd rfl h
  bare _ := rfl

end
end AppState

namespace PaneLayout
section
variable {F : Type} [F32 F]

/-- the row that is cut down has a ratio for each pane -/
lemma retainRows_filled {kept : PaneId → Bool} {l : PaneLayout F} {row : List (Pane × F) × F}
    (h : row ∈ retainRows kept l) : row.1 ≠ [] := by
  obtain ⟨entry, -, hrow⟩ := List.mem_filterMap.mp h
  dsimp only at hrow
  split_ifs at hrow with hempty
  rw [← Option.some.inj hrow]
  exact fun hnil => hempty (List.isEmpty_iff.mpr hnil)

/-- what is left of a layout is in shape, whatever the layout was -/
lemma retain_shaped {kept : PaneId → Bool} {l l' : PaneLayout F} (h : l.retain kept = some l') : l'.Shaped := by
  unfold retain at h
  obtain ⟨rows, hrows⟩ : ∃ rows, rows = retainRows kept l := ⟨_, rfl⟩
  simp only [← hrows] at h
  cases hflat : (rows.map fun x => x.1.map Prod.fst).flatten with
  | nil =>
    rw [hflat] at h
    cases h
  | cons first rest =>
    simp only [hflat] at h
    rw [← Option.some.inj h]
    refine ⟨⟨?_, ?_, ?_⟩, ?_⟩
    · show (rows.map Prod.snd).length = (rows.map _).length
      rw [List.length_map, List.length_map]
    · show Ragged.lengths (rows.map _) = Ragged.lengths (rows.map _)
      unfold Ragged.lengths
      rw [List.map_map, List.map_map]
      apply List.map_congr_left
      intro row _
      show (row.1.map Prod.snd).length = (row.1.map Prod.fst).length
      rw [List.length_map, List.length_map]
    · intro row hrow
      obtain ⟨row', hrow', rfl⟩ := List.mem_map.mp hrow
      rw [hrows] at hrow'
      exact fun hnil => retainRows_filled hrow' (List.map_eq_nil_iff.mp hnil)
    · apply mem_ids.mpr
      unfold flat
      dsimp only
      rw [hflat]
      by_cases hany : (first :: rest).any (·.id == l.activePane)
      · rw [if_pos hany]
        obtain ⟨p, hp, hid⟩ := List.any_eq_true.mp hany
        exact ⟨p, hp, beq_iff_eq.mp hid⟩
      · rw [if_neg hany]
        exact ⟨first, List.mem_cons_self, rfl⟩

end

section
variable {F : Type}

lemma flatten_filter_filled (rows : List (List Pane)) : (rows.filter (!·.isEmpty)).flatten = rows.flatten := by
  induction rows with
  | nil => rfl
  | cons row rows ih =>
    cases row with
    | nil => exact ih
    | cons p ps =>
      show (p :: ps) ++ (rows.filter (!·.isEmpty)).flatten = _
      rw [ih]
      rfl

@[simp] lemma prune_flat (l : PaneLayout F) (id : PaneId) : (l.prune id).flat = l.flat.filter (·.id != id) := by
  show ((l.panes.map _).filter _).flatten = _
  rw [flatten_filter_filled]
  exact (List.filter_flatten ..).symm

/-- a pruned pane that was not there leaves the layout as it is -/
lemma Balanced.prune_of_not_mem {l : PaneLayout F} (hl : Balanced l) {id : PaneId} (h : id ∉ l.ids) :
    l.prune id = l := by
  unfold prune
  have hrows : l.panes.map (·.filter (·.id != id)) = l.panes := by
    refine (List.map_congr_left fun row hrow => ?_).trans (List.map_id _)
    apply List.filter_eq_self.mpr
    intro p hp
    refine bne_iff_ne.mpr fun hid => h (mem_ids.mpr ⟨p, List.mem_flatten.mpr ⟨row, hrow, hp⟩, hid⟩)
  have hfilled : l.panes.filter (!·.isEmpty) = l.panes := by
    apply List.filter_eq_self.mpr
    intro row hrow
    simpa using hl.filled row hrow
  rw [hrows, hfilled]

/-- **Pruning and ratios**: a pruned pane leaves its ratio behind. -/
lemma Shaped.prune_iff {l : PaneLayout F} (hl : Shaped l) (id : PaneId) :
    (l.prune id).Shaped ↔ id ∉ l.ids := by
  constructor
  · intro hpruned hmem
    obtain ⟨p, hp, rfl⟩ := mem_ids.mp hmem
    -- as many ratios as before, and a pane less
    have hbefore : (Ragged.lengths l.colRatios).sum = l.flat.length := by
      rw [hl.cols, length_flat]
      rfl
    have hafter : (Ragged.lengths l.colRatios).sum = (l.prune p.id).flat.length := by
      rw [show l.colRatios = (l.prune p.id).colRatios from rfl, hpruned.cols, length_flat]
      rfl
    have hlt : (l.flat.filter (·.id != p.id)).length < l.flat.length :=
      List.length_filter_lt_length_iff_exists.mpr ⟨p, hp, by simp⟩
    rw [prune_flat] at hafter
    omega
  · intro hmem
    rw [hl.toBalanced.prune_of_not_mem hmem]
    exact hl

end
end PaneLayout

namespace AppState
section
variable {F : Type} [F32 F]

lemma shaped_retainTabs {kept : PaneId → Bool} {tabs : List (TerminalTab F)} :
    ∀ t ∈ retainTabs kept tabs, t.layout.Shaped := by
  intro t ht
  obtain ⟨t', -, h⟩ := List.mem_filterMap.mp ht
  obtain ⟨layout, hlayout, rfl⟩ := Option.map_eq_some_iff.mp h
  exact PaneLayout.retain_shaped hlayout

lemma Shape.pruneCloseLayoutToKeptPanes {s : AppState F} (hs : s.Shape) (kept : PaneId → Bool) :
    ∃ t, s.pruneCloseLayoutToKeptPanes kept = some t ∧ t.Shape := by
  unfold AppState.pruneCloseLayoutToKeptPanes
  dsimp only
  by_cases hworkspaces : s.workspaces.isEmpty
  · rw [if_pos hworkspaces]
    by_cases htabs : (retainTabs kept (AppState.saveTabState { s with
        side := s.side.retainAgents kept }).tabs).isEmpty
    · rw [if_pos htabs]
      exact ⟨_, rfl, Shape.clearTabs (hs.withSide _).savedStored⟩
    · rw [if_neg htabs]
      have hpos := List.length_pos_iff.mpr fun hnil => htabs (List.isEmpty_iff.mpr hnil)
      obtain ⟨t, ht, hshape, -⟩ := Stored.load
        (s := { AppState.saveTabState { s with side := s.side.retainAgents kept } with
          tabs := retainTabs kept (AppState.saveTabState { s with side := s.side.retainAgents kept }).tabs
          activeTab := min s.activeTab _ })
        ⟨shaped_retainTabs, hs.workspaces⟩ (lt_of_le_of_lt (Nat.min_le_right _ _) (Nat.sub_lt hpos Nat.one_pos))
      exact ⟨t, ht, hshape⟩
  · rw [if_neg hworkspaces]
    have hsaved := (hs.withSide (s.side.retainAgents kept)).saveWorkspaceState
    refine (Shape.withWorkspaces hsaved s.activeWorkspace (fun ws hws => ?_)).loadWorkspaceState
    obtain ⟨ws', -, rfl⟩ := List.mem_map.mp hws
    exact shaped_retainTabs

lemma Shape.mutateKillWorkspaceAgents {s : AppState F} (hs : s.Shape) (n : Nat) :
    ∃ t, s.mutateKillWorkspaceAgents n = some t ∧ t.Shape := by
  unfold AppState.mutateKillWorkspaceAgents
  dsimp only
  split_ifs
  · exact ⟨s, rfl, hs⟩
  · exact (hs.withSide _).pruneCloseLayoutToKeptPanes _

omit [F32 F] in
lemma Shape.rememberClose {s : AppState F} (hs : s.Shape) (remember killAll : Bool) :
    (s.rememberClose remember killAll).Shape := by
  unfold AppState.rememberClose
  split_ifs
  · exact ⟨⟨hs.tabs, hs.workspaces⟩, hs.active, hs.live, hs.bare⟩
  · exact hs

lemma Shape.finalizeCloseChoice {s : AppState F} (hs : s.Shape) (choice : CloseChoice) (saved : Bool) :
    ∃ t, s.finalizeCloseChoice choice saved = some t ∧ t.Shape := by
  unfold AppState.finalizeCloseChoice
  have hclosed : Shape { s with confirmDialog := none } :=
    ⟨⟨hs.tabs, hs.workspaces⟩, hs.active, hs.live, hs.bare⟩
  cases choice with
  | killAll remember => exact ⟨_, rfl, Shape.mutateKillAllTerminals⟩
  | keepRunning kept remember =>
    have hremember := hclosed.rememberClose remember false
    cases kept with
    | none =>
      cases saved with
      | false => exact ⟨_, rfl, hremember⟩
      | true => exact ⟨_, rfl, hremember.withSide _⟩
    | some kept =>
      obtain ⟨t, ht, hshape⟩ := (hremember.withSide ((AppState.closeAppPaneIds _).filter
        (!kept.contains ·) |>.foldl .stopTerminal _)).pruneCloseLayoutToKeptPanes kept.contains
      show ∃ u, Option.bind (AppState.keepPanes _ kept) _ = some u ∧ _
      unfold AppState.keepPanes
      rw [ht]
      cases saved with
      | false => exact ⟨t, rfl, hshape⟩
      | true => exact ⟨_, rfl, hshape.withSide _⟩

end

section
variable {F : Type}

/-- no layout that `prunePaneFromLayouts` reaches has the pane -/
structure Unlaid (s : AppState F) (id : PaneId) : Prop where
  live : id ∉ s.live.ids
  active : ∀ t ∈ s.tabs[s.activeTab]?, id ∉ t.layout.ids
  workspaces : ∀ ws ∈ s.workspaces, ∀ t ∈ ws.tabs, id ∉ t.layout.ids

lemma Shape.prunePaneFromLayouts {s : AppState F} (hs : s.Shape) (id : PaneId) :
    (s.prunePaneFromLayouts id).Shape ↔ s.Unlaid id := by
  constructor
  · intro hpruned
    refine ⟨fun hmem => ?_, fun t ht => ?_, fun ws hws t ht => ?_⟩
    · have hne := hs.nonempty hmem
      refine ((hs.live hne).prune_iff id).mp (hpruned.live fun hnil => hne ?_) hmem
      exact List.modify_eq_nil_iff.mp hnil
    · apply ((hs.tabs t (List.mem_of_getElem? ht)).prune_iff id).mp
      refine hpruned.tabs (t.prune id) (List.mem_of_getElem? (i := s.activeTab) ?_)
      show (s.tabs.modify s.activeTab _)[s.activeTab]? = _
      rw [List.getElem?_modify_eq, ht]
      rfl
    · apply ((hs.workspaces ws hws t ht).prune_iff id).mp
      exact hpruned.workspaces _ (List.mem_map_of_mem hws) _ (List.mem_map_of_mem ht)
  · intro hun
    refine ⟨⟨shaped_modify hs.tabs fun t ht => ?_, fun ws hws t ht => ?_⟩, fun hne => ?_, fun hne => ?_, fun hnil => ?_⟩
    · exact ((hs.tabs t (List.mem_of_getElem? ht)).prune_iff id).mpr (hun.active t ht)
    · obtain ⟨ws', hws', rfl⟩ := List.mem_map.mp hws
      obtain ⟨t', ht', rfl⟩ := List.mem_map.mp ht
      exact ((hs.workspaces ws' hws' t' ht').prune_iff id).mpr (hun.workspaces ws' hws' t' ht')
    · show s.activeTab < (s.tabs.modify s.activeTab _).length
      rw [List.length_modify]
      exact hs.active fun hnil => hne (List.modify_eq_nil_iff.mpr hnil)
    · exact ((hs.live fun hnil => hne (List.modify_eq_nil_iff.mpr hnil)).prune_iff id).mpr hun.live
    · show s.live.prune id = .empty
      rw [hs.bare (List.modify_eq_nil_iff.mp hnil)]
      rfl

lemma Shape.mutateKillSessionId {s : AppState F} (hs : s.Shape) (sessionId : Nat) :
    (s.mutateKillSessionId sessionId).Shape ↔
      ∀ x ∈ s.side.sessions.find? fun (_, sid) => sid == sessionId, s.Unlaid x.1 := by
  unfold AppState.mutateKillSessionId
  cases s.side.sessions.find? fun (_, sid) => sid == sessionId with
  | none => exact iff_of_true hs fun x hx => by cases hx
  | some x =>
    have hside := (hs.withSide (s.side.stopTerminal x.1)).prunePaneFromLayouts x.1
    constructor
    · intro h y hy
      obtain rfl := Option.mem_some.mp hy
      have hun := hside.mp h
      exact ⟨hun.live, hun.active, hun.workspaces⟩
    · intro h
      have hun := h x rfl
      exact hside.mpr ⟨hun.live, hun.active, hun.workspaces⟩

/-- the pane that is focused by its id is in the stored copy of the active tab when it is live -/
def FocusStored (s : AppState F) (workspaceIdx : Nat) (target : PaneId) : Prop :=
  workspaceIdx = s.activeWorkspace → target ∈ s.live.ids → ∀ t ∈ s.tabs[s.activeTab]?, target ∈ t.layout.ids

/-- a pane that is found in another tab becomes live when the tab is switched to -/
lemma Shape.switchToPane {s : AppState F} (hs : s.Shape) (hsync : s.Synced) {n : Nat} {tab : TerminalTab F}
    (htab : s.tabs[n]? = some tab) {target : PaneId} (hmem : target ∈ tab.layout.ids) :
    ∃ t, (if n < s.tabs.length ∧ n ≠ s.activeTab then s.mutateSwitchTab n else some s) = some t ∧
      t.Shape ∧ t.Synced ∧ target ∈ t.live.ids := by
  by_cases hn : n = s.activeTab
  · rw [if_neg fun h => h.2 hn]
    obtain ⟨t, ht, hlive⟩ := hsync
    obtain rfl : tab = t := Option.some.inj (htab.symm.trans (hn ▸ ht))
    exact ⟨s, rfl, hs, ⟨tab, ht, hlive⟩, hlive ▸ hmem⟩
  · rw [if_pos ⟨(List.getElem?_eq_some_iff.mp htab).1, hn⟩]
    obtain ⟨t, ht, hshape, hsync', hids⟩ := hs.switchTab htab hn
    exact ⟨t, ht, hshape, hsync', hids ▸ hmem⟩

lemma Shape.focusWorkspacePaneByIndex {s : AppState F} (hs : s.Shape) (w : Nat) (target : PaneId) :
    ∃ t, s.focusWorkspacePaneByIndex w target = some t ∧ (t.Shape ↔ s.FocusStored w target) := by
  unfold AppState.focusWorkspacePaneByIndex
  by_cases hguard : w ≠ s.activeWorkspace ∧ s.workspaces.length ≤ w
  · rw [if_pos hguard]
    exact ⟨s, rfl, fun _ h => absurd h hguard.1, fun _ => hs⟩
  · rw [if_neg hguard]
    by_cases hw : w = s.activeWorkspace
    · by_cases hmem : target ∈ s.live.ids
      · have hindex : s.paneTabIndexForWorkspace w target = some s.activeTab := by
          unfold paneTabIndexForWorkspace
          rw [if_pos hw, if_pos (List.contains_iff_mem.mpr hmem)]
        rw [hindex]
        dsimp only
        rw [if_pos hw, Option.bind_some, if_neg fun h => h.2 rfl]
        refine ⟨_, rfl, fun hshape _ _ t ht => ?_, fun hstored => ?_⟩
        · -- the stored copy has got the focus, so it has the pane
          have hfocus := (hshape.tabs { t with layout := { t.layout with activePane := target } } ?_).focused
          · exact hfocus
          · apply List.mem_of_getElem? (i := s.activeTab)
            show (s.tabs.modify s.activeTab _)[s.activeTab]? = _
            rw [List.getElem?_modify_eq, ht]
            rfl
        · exact (hs.refocus hmem (hstored hw hmem)).withSide _
      · have htrue : s.FocusStored w target := fun _ h => absurd h hmem
        cases hindex : s.paneTabIndexForWorkspace w target with
        | none => exact ⟨s, rfl, fun _ => htrue, fun _ => hs⟩
        | some i =>
          unfold paneTabIndexForWorkspace at hindex
          rw [if_pos hw, if_neg fun h => hmem (List.contains_iff_mem.mp h), Option.map_eq_some_iff] at hindex
          obtain ⟨⟨tab, i'⟩, hfind, rfl⟩ := hindex
          have htest := List.find?_some hfind
          have hget := List.mem_of_find?_eq_some hfind
          rw [List.mk_mem_zipIdx_iff_getElem?] at hget
          simp only [decide_eq_true_eq] at htest
          obtain ⟨t, ht, hshape, hsync, hids⟩ := hs.switchTab hget htest.1
          dsimp only
          rw [if_pos hw, Option.bind_some, if_pos ⟨(List.getElem?_eq_some_iff.mp hget).1, htest.1⟩, ht]
          refine ⟨_, rfl, fun _ => htrue, fun _ => ?_⟩
          exact (hshape.focus hsync (hids ▸ List.contains_iff_mem.mp htest.2)).withSide _
    · have htrue : s.FocusStored w target := fun h => absurd h hw
      cases hindex : s.paneTabIndexForWorkspace w target with
      | none => exact ⟨s, rfl, fun _ => htrue, fun _ => hs⟩
      | some i =>
        unfold paneTabIndexForWorkspace at hindex
        rw [if_neg hw, Option.bind_eq_some_iff] at hindex
        obtain ⟨ws, hws, hfind⟩ := hindex
        obtain ⟨hi, hcontains, -⟩ := List.findIdx?_eq_some_iff_getElem.mp hfind
        obtain ⟨t, ht, hshape, hsync, htabs⟩ := hs.switchWorkspace hws hw (List.ne_nil_of_length_pos (by omega))
        obtain ⟨u, hu, hshape', hsync', hids⟩ := hshape.switchToPane hsync (n := i)
          (by rw [htabs]; exact List.getElem?_eq_getElem hi) (List.contains_iff_mem.mp hcontains)
        dsimp only
        rw [if_neg hw, ht, Option.bind_some, hu]
        exact ⟨_, rfl, fun _ => htrue, fun _ => (hshape'.focus hsync' hids).withSide _⟩

end

section
variable {F : Type} [F32 F]

/-- the steps that keep the shape: no pane is pruned out of a layout, none gets the focus of a stored
copy that does not have it -/
def KeepsShape (s : AppState F) : Op → Prop
  | .killSession sessionId => ∀ x ∈ s.side.sessions.find? fun (_, sid) => sid == sessionId, s.Unlaid x.1
  | .focusPane workspaceIdx target => s.FocusStored workspaceIdx target
  | _ => True

/-- every operation indexes in range, and keeps the shape exactly when it meets the condition -/
lemma Shape.step {s : AppState F} (hs : s.Shape) (op : Op) :
    ∃ t, App.step s op = some t ∧ (t.Shape ↔ s.KeepsShape op) := by
  have always {o : Option (AppState F)} (h : ∃ t, o = some t ∧ t.Shape) :
      ∃ t, o = some t ∧ (t.Shape ↔ True) := by
    obtain ⟨t, ht, hshape⟩ := h
    exact ⟨t, ht, iff_true_intro hshape⟩
  cases op with
  | addTab spawned => exact always ⟨_, rfl, (hs.openTab _ _).withSide _⟩
  | addWorktreeTab title spawned => exact always ⟨_, rfl, (hs.openTab _ _).withSide _⟩
  | addEditorTab editor => exact always ⟨_, rfl, (hs.openTab _ _).withSide _⟩
  | addFlowTab pane => exact always ⟨_, rfl, (hs.openTab _ _).withSide _⟩
  | addAgentTab launch outcome => exact always ⟨_, rfl, (hs.openTab _ _).withSide _⟩
  | splitRight target spawned => exact always (hs.mutateSplitRight target spawned)
  | splitDown target spawned => exact always (hs.mutateSplitDown target spawned)
  | closePane target => exact always (hs.mutateClosePane target)
  | closeTab index => exact always (hs.mutateCloseTab index)
  | focusLeft => exact always hs.mutateFocusLeft
  | focusRight => exact always hs.mutateFocusRight
  | focusUp => exact always hs.mutateFocusUp
  | focusDown => exact always hs.mutateFocusDown
  | focusPane workspaceIdx target => exact hs.focusWorkspacePaneByIndex workspaceIdx target
  | extract target newTabIndex => exact always (hs.mutateExtractPaneToTab target newTabIndex)
  | reorder sourceTabId newIndex => exact always (hs.mutateTabReorder sourceTabId newIndex)
  | dropSplit sourceTabId target edge => exact always (hs.mutatePaneDropSplit sourceTabId target edge)
  | moveToEdge source target edge => exact always (hs.mutatePaneMoveToEdge source target edge)
  | swap a b => exact always (hs.mutatePaneSwap a b)
  | swapFromTab sourceTabId target => exact always (hs.mutatePaneSwapFromTab sourceTabId target)
  | switchTab newIndex => exact always (hs.mutateSwitchTab newIndex)
  | addWorkspace path folder => exact always (hs.mutateAddWorkspaceWithPath path folder)
  | switchWorkspace newIndex => exact always (hs.mutateSwitchWorkspace newIndex)
  | removeWorkspace idx => exact always (hs.mutateRemoveWorkspace idx)
  | killWorkspaceTerminals wsIdx => exact always ⟨_, rfl, hs.mutateKillWorkspaceTerminals wsIdx⟩
  | killWorkspaceAgents wsIdx => exact always (hs.mutateKillWorkspaceAgents wsIdx)
  | killAll => exact always ⟨_, rfl, Shape.mutateKillAllTerminals⟩
  | killSession sessionId => exact ⟨_, rfl, hs.mutateKillSessionId sessionId⟩
  | closeUnsaved choice => exact always (hs.finalizeCloseChoice choice false)

/-- a run indexes in range and has its shape throughout exactly when its steps all meet the condition -/
lemma Shape.run_iff {s : AppState F} (hs : s.Shape) (ops : List Op) :
    ((∃ t, exec App.step s ops = some t) ∧ Throughout App.step Shape s ops) ↔ Along App.step KeepsShape s ops := by
  refine possible_throughout_iff (fun s op hs hop => ?_) (fun _ hs => hs) (fun s op t hs ht hshape => ?_) hs
  · obtain ⟨t, ht, hiff⟩ := hs.step op
    exact ⟨t, ht, hiff.mpr hop⟩
  · obtain ⟨t', ht', hiff⟩ := hs.step op
    obtain rfl : t = t' := Option.some.inj (ht.symm.trans ht')
    exact hiff.mp hshape

end

end AppState
end TerminalManager.App
