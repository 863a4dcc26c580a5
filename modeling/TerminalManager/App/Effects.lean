import TerminalManager.App.Shape

/-!
# What each operation can do

For each operation, from `op s = some t`: what `t` is.  The cases are those of the source, an operation
that finds nothing to do leaves the state alone.  Nothing is assumed about `s`.

* `Loads s i t`      `t` is `s` with its tab `i` loaded, and maybe another of its panes in focus;
* `Relives s t`      `t` is `s` with the panes of the live layout put elsewhere in it;
* `*_cases`          one lemma for each operation.
-/

namespace TerminalManager.App
open Ui (F32)

namespace AppState
section
variable {F : Type}

/-- the focus set in the live fields and in the stored copy of the active tab -/
def refocused (s : AppState F) (id : PaneId) : AppState F :=
  { s with
    live := { s.live with activePane := id }
    tabs := s.tabs.modify s.activeTab fun t => { t with layout := { t.layout with activePane := id } } }

lemma loadTabState_some {s t : AppState F} (h : s.loadTabState = some t) :
    ∃ tab, s.tabs[s.activeTab]? = some tab ∧ t = { s with live := tab.layout } := by
  obtain ⟨tab, htab, rfl⟩ := Option.map_eq_some_iff.mp h
  exact ⟨tab, htab, rfl⟩

lemma focusTabGroup_cases {s t : AppState F} {agents : Bool} (h : s.focusTabGroup agents = some t) :
    t = s ∨ ∃ id ∈ s.live.ids, t = s.refocused id := by
  unfold focusTabGroup at h
  by_cases hgroup : s.isAgentPane s.live.activePane = agents
  · rw [if_pos hgroup] at h
    exact .inl (Option.some.inj h).symm
  · rw [if_neg hgroup] at h
    cases hfind : s.live.flat.find? fun p => s.isAgentPane p.id == agents with
    | none =>
      rw [hfind] at h
      exact .inl (Option.some.inj h).symm
    | some p =>
      rw [hfind] at h
      dsimp only at h
      split_ifs at h
      exact .inr ⟨p.id, PaneLayout.mem_ids.mpr ⟨p, List.mem_of_find?_eq_some hfind, rfl⟩, (Option.some.inj h).symm⟩

/-- tab `i` of `s` is loaded: it is active and its stored layout is the live one, up to the focus -/
inductive Loads (s : AppState F) (i : Nat) : AppState F → Prop
  | plain {tab : TerminalTab F} (h : s.tabs[i]? = some tab) :
    Loads s i { s with activeTab := i, live := tab.layout }
  | refocused {tab : TerminalTab F} (h : s.tabs[i]? = some tab) {id : PaneId} (hid : id ∈ tab.layout.ids) :
    Loads s i (refocused { s with activeTab := i, live := tab.layout } id)

lemma Loads.of_load {s t : AppState F} {i : Nat} (h : loadTabState { s with activeTab := i } = some t) :
    Loads s i t := by
  obtain ⟨tab, htab, rfl⟩ := loadTabState_some h
  exact .plain htab

lemma Loads.of_focus {s t u : AppState F} {i : Nat} {agents : Bool}
    (ht : loadTabState { s with activeTab := i } = some t) (hu : t.focusTabGroup agents = some u) : Loads s i u := by
  obtain ⟨tab, htab, rfl⟩ := loadTabState_some ht
  obtain rfl | ⟨id, hid, rfl⟩ := focusTabGroup_cases hu
  · exact .plain (s := s) htab
  · exact .refocused (s := s) htab hid

lemma loadTabAfterClose_cases {s t : AppState F} {agents : Bool} (h : s.loadTabAfterClose agents = some t) :
    ∃ i, Loads s i t := by
  obtain ⟨u, hu, ht⟩ := Option.bind_eq_some_iff.mp h
  exact ⟨_, .of_focus hu ht⟩

/-- the panes that ask for attention are others -/
def attended (s : AppState F) (attentionPaneIds : Table PaneId Unit) : AppState F :=
  { s with side := { s.side with attentionPaneIds } }

lemma mutateSwitchTab_cases {s t : AppState F} {n : Nat} (h : s.mutateSwitchTab n = some t) :
    t = s ∨ (n < s.tabs.length ∧ n ≠ s.activeTab ∧ ∃ a, Loads (s.saveTabState.attended a) n t) := by
  unfold mutateSwitchTab at h
  split_ifs at h with hguard
  · exact .inl (Option.some.inj h).symm
  · obtain ⟨u, hu, ht⟩ := Option.bind_eq_some_iff.mp h
    obtain ⟨tab, htab, rfl⟩ := loadTabState_some hu
    let a := s.side.attentionPaneIds.retain fun id => !tab.layout.ids.contains id
    refine .inr ⟨by omega, by omega, a, ?_⟩
    obtain rfl | ⟨id, hid, rfl⟩ := focusTabGroup_cases ht
    · exact .plain (s := s.saveTabState.attended a) htab
    · exact .refocused (s := s.saveTabState.attended a) htab hid

lemma tabPaneIds_some {s : AppState F} {n : Nat} {ids : List PaneId} (h : s.tabPaneIds n = some ids) :
    (n = s.activeTab ∧ ids = s.live.ids) ∨ (n ≠ s.activeTab ∧ ∃ tab, s.tabs[n]? = some tab ∧ ids = tab.paneIds) := by
  unfold tabPaneIds at h
  split_ifs at h with hn
  · exact .inl ⟨hn, (Option.some.inj h).symm⟩
  · obtain ⟨tab, htab, rfl⟩ := Option.map_eq_some_iff.mp h
    exact .inr ⟨hn, tab, htab, rfl⟩

/-- the tab `idx` and its panes gone, before another tab is loaded -/
def withoutTab (s : AppState F) (idx : Nat) (ids : List PaneId) : AppState F :=
  { s with
    side := ids.foldl .closePaneTables s.side
    tabs := s.tabs.eraseIdx idx }

lemma mutateCloseTab_cases {s t : AppState F} {idx : Nat} (h : s.mutateCloseTab idx = some t) :
    (s.tabs.length ≤ idx ∧ t = s) ∨ (idx < s.tabs.length ∧ ∃ ids, s.tabPaneIds idx = some ids ∧
      ((s.tabs.eraseIdx idx = [] ∧ t = (s.withoutTab idx ids).clearTabs) ∨
        (idx = s.activeTab ∧ ∃ i, Loads (s.withoutTab idx ids) i t) ∨
        (idx ≠ s.activeTab ∧ s.tabs.eraseIdx idx ≠ [] ∧
          t = { s.withoutTab idx ids with
            activeTab := if idx < s.activeTab then s.activeTab - 1 else s.activeTab }))) := by
  unfold mutateCloseTab at h
  by_cases hidx : s.tabs.length ≤ idx
  · rw [if_pos hidx] at h
    exact .inl ⟨hidx, (Option.some.inj h).symm⟩
  · rw [if_neg hidx] at h
    obtain ⟨ids, hids, h⟩ := Option.bind_eq_some_iff.mp h
    refine .inr ⟨Nat.lt_of_not_le hidx, ids, hids, ?_⟩
    dsimp only at h
    by_cases hempty : (s.tabs.eraseIdx idx).isEmpty
    · rw [if_pos hempty] at h
      exact .inl ⟨List.isEmpty_iff.mp hempty, (Option.some.inj h).symm⟩
    · rw [if_neg hempty] at h
      by_cases hactive : s.activeTab = idx
      · rw [if_pos hactive] at h
        obtain ⟨i, hi⟩ := loadTabAfterClose_cases h
        refine .inr (.inl ⟨hactive.symm, i, ?_⟩)
        cases hi with
        | plain htab => exact .plain (s := s.withoutTab idx ids) htab
        | refocused htab hid => exact .refocused (s := s.withoutTab idx ids) htab hid
      · rw [if_neg hactive] at h
        exact .inr (.inr ⟨Ne.symm hactive, fun hnil => hempty (List.isEmpty_iff.mpr hnil), (Option.some.inj h).symm⟩)

/-- the tab with the id of the active one is active after the move -/
lemma mutateTabReorder_cases {s t : AppState F} {source : String} {n : Nat}
    (h : s.mutateTabReorder source n = some t) :
    t = s ∨ ∃ o a active tab, s.tabs[s.activeTab]? = some active ∧ s.tabs[o]? = some tab ∧
      a ≤ (s.tabs.eraseIdx o).length ∧ t = { s with
        tabs := (s.tabs.eraseIdx o).insertIdx a tab
        activeTab := (((s.tabs.eraseIdx o).insertIdx a tab).findIdx? (·.id == active.id)).getD 0 } := by
  unfold mutateTabReorder at h
  cases hfind : s.tabs.findIdx? (·.id == source) with
  | none =>
    rw [hfind] at h
    exact .inl (Option.some.inj h).symm
  | some o =>
    rw [hfind] at h
    dsimp only at h
    split_ifs at h
    all_goals try exact .inl (Option.some.inj h).symm
    all_goals
      obtain ⟨active, hactive, h⟩ := Option.bind_eq_some_iff.mp h
      obtain ⟨tab, htab, h⟩ := Option.bind_eq_some_iff.mp h
      exact .inr ⟨o, _, active, tab, hactive, htab, Nat.min_le_right .., (Option.some.inj h).symm⟩

/-- the panes of the live layout put elsewhere in it, and the active tab synced -/
def Relives (s t : AppState F) : Prop :=
  ∃ live : PaneLayout F, live.flat.Perm s.live.flat ∧ live.activePane ∈ live.ids ∧
    t = syncLiveTabFromPanes { s with live }

lemma focusMove_cases {s t : AppState F} {next : PaneLayout F → Nat → Nat → Option (Nat × Nat)}
    (h : s.focusMove next = some t) : t = s ∨ s.Relives t := by
  unfold focusMove at h
  cases hfind : s.live.findPaneCoord s.live.activePane with
  | none =>
    rw [hfind] at h
    exact .inl (Option.some.inj h).symm
  | some rc =>
    rw [hfind] at h
    dsimp only at h
    cases hnext : next s.live rc.1 rc.2 with
    | none =>
      rw [hnext] at h
      exact .inl (Option.some.inj h).symm
    | some rc' =>
      rw [hnext] at h
      obtain ⟨p, hp, h⟩ := Option.bind_eq_some_iff.mp h
      refine .inr ⟨{ s.live with activePane := p.id }, .refl _, ?_, (Option.some.inj h).symm⟩
      exact PaneLayout.mem_ids.mpr ⟨p, PaneLayout.paneAt_mem hp, rfl⟩

/-- the four focus moves -/
lemma mutateFocus_cases {s t : AppState F} (h : s.mutateFocusLeft = some t ∨ s.mutateFocusRight = some t ∨
    s.mutateFocusUp = some t ∨ s.mutateFocusDown = some t) : t = s ∨ s.Relives t := by
  rcases h with h | h | h | h
  · exact focusMove_cases (t := t) (by unfold mutateFocusLeft at h; exact h)
  · exact focusMove_cases (t := t) (by unfold mutateFocusRight at h; exact h)
  · exact focusMove_cases (t := t) (by unfold mutateFocusUp at h; exact h)
  · exact focusMove_cases (t := t) (by unfold mutateFocusDown at h; exact h)

lemma mutatePaneSwap_cases {s t : AppState F} {a b : PaneId} (h : s.mutatePaneSwap a b = some t) :
    t = s ∨ s.Relives t := by
  unfold mutatePaneSwap at h
  split_ifs at h
  · exact .inl (Option.some.inj h).symm
  · cases ha : s.live.findPaneCoord a with
    | none =>
      rw [ha] at h
      exact .inl (Option.some.inj h).symm
    | some ca =>
      cases hb : s.live.findPaneCoord b with
      | none =>
        rw [ha, hb] at h
        exact .inl (Option.some.inj h).symm
      | some cb =>
        rw [ha, hb] at h
        dsimp only at h
        obtain ⟨pa, hpa, h⟩ := Option.bind_eq_some_iff.mp h
        obtain ⟨pb, hpb, h⟩ := Option.bind_eq_some_iff.mp h
        obtain ⟨hperm, -⟩ := PaneLayout.swap_spec hpa hpb
        refine .inr ⟨{ (s.live.setPane ca.1 ca.2 pb).setPane cb.1 cb.2 pa with activePane := a }, hperm, ?_,
          (Option.some.inj h).symm⟩
        exact (hperm.map Pane.id).mem_iff.mpr (PaneLayout.mem_ids_of_findPaneCoord ha)

end

section
variable {F : Type} [F32 F]

/-- a fresh pane put beside another one; the tab is not synced -/
def Splits (s : AppState F) (spawned : SpawnResult) (t : AppState F) : Prop :=
  ∃ live : PaneLayout F, live.flat.Perm (⟨s.nextId, "shell", "bash"⟩ :: s.live.flat) ∧
    t = { s with
      nextId := bump s.nextId
      side := s.side.spawn s.nextId spawned
      live := { live with activePane := s.nextId } }

lemma splitPane_cases {s t : AppState F} {r c : Nat} {edge : DropZone} (hedge : edge ≠ .center)
    {spawned : SpawnResult} (h : s.splitPane r c edge spawned = some t) : s.Splits spawned t := by
  obtain ⟨live, hlive, h⟩ := Option.bind_eq_some_iff.mp h
  exact ⟨live, PaneLayout.attach_perm hedge hlive, (Option.some.inj h).symm⟩

/-- whether the pane is live and its row has room for another -/
def canSplitRight (s : AppState F) (target : PaneId) : Bool :=
  (s.live.findPaneCoord target).any fun rc => s.live.rowLength rc.1 < MAX_COLS

def canSplitDown (s : AppState F) (target : PaneId) : Bool :=
  (s.live.findPaneCoord target).isSome && s.live.panes.length < MAX_ROWS

lemma mutateSplitRight_cases {s t : AppState F} {target : PaneId} {spawned : SpawnResult}
    (h : s.mutateSplitRight target spawned = some t) :
    (s.canSplitRight target = false ∧ t = s) ∨ (s.canSplitRight target = true ∧ s.Splits spawned t) := by
  unfold mutateSplitRight at h
  unfold canSplitRight
  cases hfind : s.live.findPaneCoord target with
  | none =>
    rw [hfind] at h
    exact .inl ⟨rfl, (Option.some.inj h).symm⟩
  | some rc =>
    rw [hfind] at h
    dsimp only at h
    obtain ⟨row, hrow, h⟩ := Option.bind_eq_some_iff.mp h
    have hlen : s.live.rowLength rc.1 = row.length := by
      unfold PaneLayout.rowLength
      rw [hrow]
      rfl
    rw [Option.any_some, hlen]
    split_ifs at h with hmax
    · exact .inl ⟨decide_eq_false (Nat.not_lt_of_le hmax), (Option.some.inj h).symm⟩
    · exact .inr ⟨decide_eq_true (Nat.lt_of_not_le hmax), splitPane_cases (by decide) h⟩

lemma mutateSplitDown_cases {s t : AppState F} {target : PaneId} {spawned : SpawnResult}
    (h : s.mutateSplitDown target spawned = some t) :
    (s.canSplitDown target = false ∧ t = s) ∨ (s.canSplitDown target = true ∧ s.Splits spawned t) := by
  unfold mutateSplitDown at h
  unfold canSplitDown
  cases hfind : s.live.findPaneCoord target with
  | none =>
    rw [hfind] at h
    exact .inl ⟨rfl, (Option.some.inj h).symm⟩
  | some rc =>
    rw [hfind] at h
    dsimp only at h
    rw [Option.isSome_some, Bool.true_and]
    split_ifs at h with hmax
    · exact .inl ⟨decide_eq_false (Nat.not_lt_of_le hmax), (Option.some.inj h).symm⟩
    · exact .inr ⟨decide_eq_true (Nat.lt_of_not_le hmax), splitPane_cases (by decide) h⟩

/-- the last pane goes with its tab; another is taken out of the live layout -/
lemma mutateClosePane_cases {s t : AppState F} {target : PaneId} (h : s.mutateClosePane target = some t) :
    t = s ∨ (target ∈ s.live.ids ∧
      ((s.live.paneCount = 1 ∧ s.mutateCloseTab s.activeTab = some t) ∨
        ∃ (live : PaneLayout F) (p : Pane), p.id = target ∧ s.live.flat.Perm (p :: live.flat) ∧
          (t = syncLiveTabFromPanes { s with side := s.side.closePaneTables target, live } ∨
            ∃ i, Loads (syncLiveTabFromPanes { s with side := s.side.closePaneTables target, live }) i t))) := by
  unfold mutateClosePane at h
  cases hfind : s.live.findPaneCoord target with
  | none =>
    rw [hfind] at h
    exact .inl (Option.some.inj h).symm
  | some rc =>
    rw [hfind] at h
    obtain ⟨q, hq, rfl⟩ := PaneLayout.findPaneCoord_some hfind
    dsimp only at h
    refine .inr ⟨PaneLayout.mem_ids_of_findPaneCoord hfind, ?_⟩
    by_cases hcount : s.live.paneCount = 1
    · rw [if_pos hcount] at h
      exact .inl ⟨hcount, h⟩
    · rw [if_neg hcount] at h
      obtain ⟨live, hlive, h⟩ := Option.bind_eq_some_iff.mp h
      obtain ⟨p, hp, hperm⟩ := PaneLayout.removePane_perm hlive
      obtain rfl : q = p := Option.some.inj (hq.symm.trans hp)
      refine .inr ⟨live, q, rfl, hperm, ?_⟩
      by_cases hactive : s.live.activePane = q.id
      · rw [if_pos hactive] at h
        exact .inr (loadTabAfterClose_cases h)
      · rw [if_neg hactive] at h
        exact .inl (Option.some.inj h).symm

/-- the pane becomes a tab of its own, in place of its tab when it was alone there -/
lemma mutateExtractPaneToTab_cases {s t : AppState F} {target : PaneId} {n : Nat}
    (h : s.mutateExtractPaneToTab target n = some t) :
    t = s ∨ ∃ p : Pane, p.id = target ∧ ∃ i,
      (s.live.flat = [p] ∧ s.activeTab < s.tabs.length ∧ i ≤ (s.tabs.eraseIdx s.activeTab).length ∧
        t = { s with
          tabs := (s.tabs.eraseIdx s.activeTab).insertIdx i (.new p.id p.title p.subtitle)
          activeTab := i
          live := .single p }) ∨
      ∃ live : PaneLayout F, s.live.paneCount ≠ 1 ∧ s.live.flat.Perm (p :: live.flat) ∧ i ≤ s.tabs.length ∧
        t = { s with
          tabs := (s.tabs.modify s.activeTab ({ · with layout := live })).insertIdx i
            (.new p.id p.title p.subtitle)
          activeTab := i
          live := .single p } := by
  unfold mutateExtractPaneToTab at h
  cases hfind : s.live.findPaneCoord target with
  | none =>
    rw [hfind] at h
    exact .inl (Option.some.inj h).symm
  | some rc =>
    rw [hfind] at h
    dsimp only at h
    obtain ⟨p, hp, h⟩ := Option.bind_eq_some_iff.mp h
    obtain ⟨q, hq, rfl⟩ := PaneLayout.findPaneCoord_some hfind
    obtain rfl : p = q := Option.some.inj (hp.symm.trans hq)
    by_cases hcount : s.live.paneCount = 1
    · rw [if_pos hcount] at h
      by_cases hlt : s.tabs.length ≤ s.activeTab
      · rw [if_pos hlt] at h
        cases h
      · rw [if_neg hlt] at h
        obtain ⟨tab, htab, rfl⟩ := loadTabState_some h
        have hle : min (if s.activeTab < n then n - 1 else n) (s.tabs.eraseIdx s.activeTab).length ≤
            (s.tabs.eraseIdx s.activeTab).length := Nat.min_le_right ..
        obtain rfl : tab = _ := Option.some.inj (htab.symm.trans (List.getElem?_insertIdx_self.trans (if_pos hle)))
        refine .inr ⟨p, rfl, _, .inl ⟨?_, Nat.lt_of_not_le hlt, hle, rfl⟩⟩
        obtain ⟨q, hq⟩ := List.length_eq_one_iff.mp ((PaneLayout.length_flat s.live).trans hcount)
        have hmem := PaneLayout.paneAt_mem hp
        rw [hq] at hmem ⊢
        rw [List.mem_singleton.mp hmem]
    · rw [if_neg hcount] at h
      obtain ⟨live, hlive, h⟩ := Option.bind_eq_some_iff.mp h
      obtain ⟨q, hq, hperm⟩ := PaneLayout.removePane_perm hlive
      obtain rfl : p = q := Option.some.inj (hp.symm.trans hq)
      obtain ⟨tab, htab, rfl⟩ := loadTabState_some h
      have hle : min n (s.tabs.modify s.activeTab ({ · with layout := live })).length ≤
          (s.tabs.modify s.activeTab ({ · with layout := live })).length := Nat.min_le_right ..
      obtain rfl : tab = _ := Option.some.inj (htab.symm.trans (List.getElem?_insertIdx_self.trans (if_pos hle)))
      refine .inr ⟨p, rfl, _, .inr ⟨live, hcount, hperm, ?_, rfl⟩⟩
      exact hle.trans_eq (List.length_modify ..)

/-- a tab of one pane, other than the active one, is taken out of the strip -/
def dropTab (s : AppState F) (idx : Nat) : AppState F :=
  { s with
    tabs := s.tabs.eraseIdx idx
    activeTab := if idx < s.activeTab then s.activeTab - 1 else s.activeTab }

/-- the pane of the dragged tab is put beside the target; in the centre it is put nowhere -/
lemma mutatePaneDropSplit_cases {s t : AppState F} {source : String} {target : PaneId} {edge : DropZone}
    (h : s.mutatePaneDropSplit source target edge = some t) :
    t = s ∨ ∃ idx p tab, s.dragSource source = some (some (idx, p)) ∧ s.tabs[idx]? = some tab ∧
      idx ≠ s.activeTab ∧ tab.layout.paneCount = 1 ∧ tab.layout.paneAt 0 0 = some p ∧ target ∈ s.live.ids ∧
      ((edge = .center ∧ t = s.dropTab idx) ∨
        (edge ≠ .center ∧ ∃ live : PaneLayout F, live.flat.Perm (p :: s.live.flat) ∧
          t = syncLiveTabFromPanes { s.dropTab idx with live := { live with activePane := p.id } })) := by
  obtain ⟨r, hr, h⟩ := Option.bind_eq_some_iff.mp h
  obtain rfl | ⟨idx, p, tab, rfl, htab, hidx, hcount, hp⟩ := dragSource_cases hr
  · exact .inl (Option.some.inj h).symm
  · dsimp only at h
    by_cases heq : p.id = target
    · rw [if_pos heq] at h
      exact .inl (Option.some.inj h).symm
    · rw [if_neg heq] at h
      cases hfind : s.live.findPaneCoord target with
      | none =>
        rw [hfind] at h
        exact .inl (Option.some.inj h).symm
      | some rc =>
        rw [hfind] at h
        refine .inr ⟨idx, p, tab, hr, htab, hidx, hcount, hp, PaneLayout.mem_ids_of_findPaneCoord hfind, ?_⟩
        dsimp only at h
        by_cases hedge : edge = .center
        · rw [if_pos hedge] at h
          exact .inl ⟨hedge, (Option.some.inj h).symm⟩
        · rw [if_neg hedge] at h
          obtain ⟨live, hlive, h⟩ := Option.bind_eq_some_iff.mp h
          exact .inr ⟨hedge, live, PaneLayout.attach_perm hedge hlive, (Option.some.inj h).symm⟩

lemma mutatePaneMoveToEdge_cases {s t : AppState F} {source target : PaneId} {edge : DropZone}
    (h : s.mutatePaneMoveToEdge source target edge = some t) : t = s ∨ s.Relives t := by
  unfold mutatePaneMoveToEdge at h
  by_cases hguard : source = target ∨ edge = .center
  · rw [if_pos hguard] at h
    exact .inl (Option.some.inj h).symm
  · rw [if_neg hguard] at h
    obtain ⟨hne, hedge⟩ := not_or.mp hguard
    cases hsrc : s.live.findPaneCoord source with
    | none =>
      rw [hsrc] at h
      exact .inl (Option.some.inj h).symm
    | some src =>
      cases htgt : s.live.findPaneCoord target with
      | none =>
        rw [hsrc, htgt] at h
        exact .inl (Option.some.inj h).symm
      | some tgt =>
        rw [hsrc, htgt] at h
        dsimp only at h
        obtain ⟨p, hp, h⟩ := Option.bind_eq_some_iff.mp h
        obtain ⟨m, hm, h⟩ := Option.bind_eq_some_iff.mp h
        obtain ⟨p', hp', hperm⟩ := PaneLayout.detach_perm hm
        obtain rfl : p = p' := Option.some.inj (hp.symm.trans hp')
        obtain ⟨q, hq, rfl⟩ := PaneLayout.findPaneCoord_some hsrc
        obtain rfl : p = q := Option.some.inj (hp.symm.trans hq)
        cases hrc : m.findPaneCoord target with
        | none =>
          -- the target is another pane than the one that was taken out
          have hmem := (hperm.map Pane.id).mem_iff.mp (PaneLayout.mem_ids_of_findPaneCoord htgt)
          rcases List.mem_cons.mp hmem with heq | hmem
          · exact absurd heq.symm hne
          · exact absurd hmem (PaneLayout.findPaneCoord_none hrc)
        | some rc =>
          rw [hrc] at h
          dsimp only at h
          obtain ⟨live, hlive, h⟩ := Option.bind_eq_some_iff.mp h
          have hattach := PaneLayout.attach_perm hedge hlive
          refine .inr ⟨{ live with activePane := p.id }, hattach.trans hperm.symm, ?_, (Option.some.inj h).symm⟩
          exact PaneLayout.mem_ids.mpr ⟨p, hattach.mem_iff.mpr List.mem_cons_self, rfl⟩

omit [F32 F] in
/-- the pane of the dragged tab and the target trade places -/
lemma mutatePaneSwapFromTab_cases {s t : AppState F} {source : String} {target : PaneId}
    (h : s.mutatePaneSwapFromTab source target = some t) :
    t = s ∨ ∃ idx p tab q r c, s.dragSource source = some (some (idx, p)) ∧ s.tabs[idx]? = some tab ∧
      idx ≠ s.activeTab ∧ tab.layout.paneCount = 1 ∧ tab.layout.paneAt 0 0 = some p ∧ p.id ≠ target ∧
      s.live.paneAt r c = some q ∧ q.id = target ∧
      t = syncLiveTabFromPanes { s with
        live := { s.live.setPane r c p with activePane := p.id }
        tabs := s.tabs.modify idx fun t =>
          { t with layout := { t.layout.setPane 0 0 q with activePane := target } } } := by
  obtain ⟨r, hr, h⟩ := Option.bind_eq_some_iff.mp h
  obtain rfl | ⟨idx, p, tab, rfl, htab, hidx, hcount, hp⟩ := dragSource_cases hr
  · exact .inl (Option.some.inj h).symm
  · dsimp only at h
    by_cases heq : p.id = target
    · rw [if_pos heq] at h
      exact .inl (Option.some.inj h).symm
    · rw [if_neg heq] at h
      cases hfind : s.live.findPaneCoord target with
      | none =>
        rw [hfind] at h
        exact .inl (Option.some.inj h).symm
      | some rc =>
        rw [hfind] at h
        obtain ⟨q', hq', hid⟩ := PaneLayout.findPaneCoord_some hfind
        dsimp only at h
        obtain ⟨q, hq, h⟩ := Option.bind_eq_some_iff.mp h
        obtain rfl : q = q' := Option.some.inj (hq.symm.trans hq')
        exact .inr ⟨idx, p, tab, q, rc.1, rc.2, hr, htab, hidx, hcount, hp, heq, hq, hid, (Option.some.inj h).symm⟩

end

section
variable {F : Type}

/-- the tabs of the workspace become the tabs, and one of them is loaded -/
lemma loadWorkspaceState_cases {s t : AppState F} (h : s.loadWorkspaceState = some t) :
    (s.workspaces[s.activeWorkspace]? = none ∧ t = s) ∨
      ∃ ws, s.workspaces[s.activeWorkspace]? = some ws ∧
        ((ws.tabs = [] ∧ t = s.clearTabs) ∨
          ∃ tab, ws.tabs[min ws.activeTab (ws.tabs.length - 1)]? = some tab ∧
            t = { s with
              tabs := ws.tabs
              activeTab := min ws.activeTab (ws.tabs.length - 1)
              live := tab.layout }) := by
  unfold loadWorkspaceState at h
  cases hws : s.workspaces[s.activeWorkspace]? with
  | none =>
    rw [hws] at h
    exact .inl ⟨rfl, (Option.some.inj h).symm⟩
  | some ws =>
    rw [hws] at h
    refine .inr ⟨ws, rfl, ?_⟩
    dsimp only at h
    by_cases hempty : ws.tabs.isEmpty
    · rw [if_pos hempty] at h
      exact .inl ⟨List.isEmpty_iff.mp hempty, (Option.some.inj h).symm⟩
    · rw [if_neg hempty] at h
      obtain ⟨tab, htab, rfl⟩ := loadTabState_some h
      exact .inr ⟨tab, htab, rfl⟩

lemma mutateSwitchWorkspace_cases {s t : AppState F} {n : Nat} (h : s.mutateSwitchWorkspace n = some t) :
    t = s ∨ (n < s.workspaces.length ∧ n ≠ s.activeWorkspace ∧
      loadWorkspaceState { s.saveWorkspaceState with activeWorkspace := n } = some t) := by
  unfold mutateSwitchWorkspace at h
  by_cases hguard : s.workspaces.length ≤ n ∨ n = s.activeWorkspace
  · rw [if_pos hguard] at h
    exact .inl (Option.some.inj h).symm
  · rw [if_neg hguard] at h
    exact .inr ⟨by omega, by omega, h⟩

lemma mutateAddWorkspaceWithPath_cases {s t : AppState F} {path folder : Option String}
    (h : s.mutateAddWorkspaceWithPath path folder = some t) :
    t = s ∨ ∃ num name, num ∉ s.workspaces.map Workspace.num ∧ mutateSwitchWorkspace
      { s with workspaces := s.workspaces ++ [newWorkspace num name path] } s.workspaces.length = some t := by
  unfold mutateAddWorkspaceWithPath at h
  cases hnum : allocateWorkspaceNum (s.workspaces.map Workspace.num) with
  | none =>
    rw [hnum] at h
    exact .inl (Option.some.inj h).symm
  | some num =>
    rw [hnum] at h
    refine .inr ⟨num, _, ?_, h⟩
    unfold allocateWorkspaceNum at hnum
    dsimp only at hnum
    split_ifs at hnum with hguard
    · rw [← Option.some.inj hnum]
      exact hguard.2
    · have htest := List.find?_some hnum
      exact of_decide_eq_true htest

/-- the workspace at `idx` gone with its panes, before another is loaded -/
def withoutWorkspace (s : AppState F) (idx : Nat) (ws : Workspace F) : AppState F :=
  { s with
    side := ws.paneIds.foldl .closePaneTables s.side
    workspaces := s.workspaces.eraseIdx idx
    activeWorkspace :=
      if s.activeWorkspace = idx then min idx ((s.workspaces.eraseIdx idx).length - 1)
      else if idx < s.activeWorkspace then s.activeWorkspace - 1
      else s.activeWorkspace }

lemma mutateRemoveWorkspace_cases {s t : AppState F} {idx : Nat} (h : s.mutateRemoveWorkspace idx = some t) :
    t = s ∨ (1 < s.workspaces.length ∧ idx < s.workspaces.length ∧
      ∃ ws, s.saveWorkspaceState.workspaces[idx]? = some ws ∧
        (s.saveWorkspaceState.withoutWorkspace idx ws).loadWorkspaceState = some t) := by
  unfold mutateRemoveWorkspace at h
  by_cases hguard : s.workspaces.length ≤ 1 ∨ s.workspaces.length ≤ idx
  · rw [if_pos hguard] at h
    exact .inl (Option.some.inj h).symm
  · rw [if_neg hguard] at h
    obtain ⟨ws, hws, h⟩ := Option.bind_eq_some_iff.mp h
    exact .inr ⟨by omega, by omega, ws, hws, h⟩

/-- a workspace and a tab may be switched to, then the pane gets the focus -/
lemma focusWorkspacePaneByIndex_cases {s t : AppState F} {w : Nat} {target : PaneId}
    (h : s.focusWorkspacePaneByIndex w target = some t) :
    t = s ∨ ∃ u v, (u = s ∨ s.mutateSwitchWorkspace w = some u) ∧ (v = u ∨ ∃ n, u.mutateSwitchTab n = some v) ∧
      t = v.focusActiveTabPane target := by
  unfold focusWorkspacePaneByIndex at h
  by_cases hguard : w ≠ s.activeWorkspace ∧ s.workspaces.length ≤ w
  · rw [if_pos hguard] at h
    exact .inl (Option.some.inj h).symm
  · rw [if_neg hguard] at h
    cases hindex : s.paneTabIndexForWorkspace w target with
    | none =>
      rw [hindex] at h
      exact .inl (Option.some.inj h).symm
    | some n =>
      rw [hindex] at h
      obtain ⟨u, hu, h⟩ := Option.bind_eq_some_iff.mp h
      obtain ⟨v, hv, rfl⟩ := Option.map_eq_some_iff.mp h
      refine .inr ⟨u, v, ?_, ?_, rfl⟩
      · split_ifs at hu
        · exact .inl (Option.some.inj hu).symm
        · exact .inr hu
      · split_ifs at hv
        · exact .inr ⟨n, hv⟩
        · exact .inl (Option.some.inj hv).symm

end

section
variable {F : Type} [F32 F]

/-- every layout is cut down to the panes that are kept, and the active workspace is loaded again -/
lemma pruneCloseLayoutToKeptPanes_cases {s t : AppState F} {kept : PaneId → Bool}
    (h : s.pruneCloseLayoutToKeptPanes kept = some t) (hne : s.workspaces ≠ []) :
    loadWorkspaceState { saveWorkspaceState { s with side := s.side.retainAgents kept } with
      workspaces := s.saveWorkspaceState.workspaces.map (Workspace.retain kept) } = some t := by
  unfold pruneCloseLayoutToKeptPanes at h
  dsimp only at h
  rw [if_neg fun hempty => hne (List.isEmpty_iff.mp hempty)] at h
  exact h

lemma mutateKillWorkspaceAgents_cases {s t : AppState F} {n : Nat} (h : s.mutateKillWorkspaceAgents n = some t) :
    (s.workspaceAgentPaneIds n = [] ∧ t = s) ∨ pruneCloseLayoutToKeptPanes
      { s with side := (s.workspaceAgentPaneIds n).foldl .killAgentTables s.side }
      (fun id => s.closeAppPaneIds.contains id && !(s.workspaceAgentPaneIds n).contains id) = some t := by
  unfold mutateKillWorkspaceAgents at h
  dsimp only at h
  split_ifs at h with hempty
  · exact .inl ⟨List.isEmpty_iff.mp hempty, (Option.some.inj h).symm⟩
  · exact .inr h

/-- a close that is not saved: the panes are cut down to those that are kept, or all is killed -/
lemma finalizeCloseChoice_cases {s t : AppState F} {choice : CloseChoice}
    (h : s.finalizeCloseChoice choice false = some t) :
    ∃ u : AppState F, (∃ toggles, u = { s with confirmDialog := none, toggles }) ∧
      ((∃ remember, choice = .keepRunning none remember) ∧ t = u ∨
        (∃ kept remember, choice = .keepRunning (some kept) remember ∧ u.keepPanes kept = some t) ∨
        (∃ remember, choice = .killAll remember) ∧ t = u.mutateKillAllTerminals) := by
  have hremember (s : AppState F) (remember killAll : Bool) :
      ∃ toggles, s.rememberClose remember killAll = { s with toggles } := by
    unfold rememberClose
    split_ifs
    · exact ⟨_, rfl⟩
    · exact ⟨s.toggles, rfl⟩
  unfold finalizeCloseChoice at h
  cases choice with
  | killAll remember =>
    obtain ⟨toggles, htoggles⟩ := hremember { s with confirmDialog := none } remember true
    refine ⟨_, ⟨toggles, rfl⟩, .inr (.inr ⟨⟨remember, rfl⟩, ?_⟩)⟩
    rw [← Option.some.inj h, htoggles]
  | keepRunning kept remember =>
    obtain ⟨toggles, htoggles⟩ := hremember { s with confirmDialog := none } remember false
    refine ⟨_, ⟨toggles, rfl⟩, ?_⟩
    dsimp only at h
    rw [htoggles] at h
    cases kept with
    | none => exact .inl ⟨⟨remember, rfl⟩, (Option.some.inj h).symm⟩
    | some kept =>
      obtain ⟨u, hu, h⟩ := Option.bind_eq_some_iff.mp h
      rw [← Option.some.inj h]
      exact .inr (.inl ⟨kept, remember, rfl, hu⟩)

end
end AppState
end TerminalManager.App
