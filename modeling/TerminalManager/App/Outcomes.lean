import TerminalManager.App.Rearrange

/-!
# What a step does to the panes and the tables

* `mentions`       whether the tables keep an agent, a launch or a resume for a pane;
* `Opens`          the tables after a pane is opened;
* `Outcome`        what an operation does: it moves the panes, opens one, closes some, or it is one of those
                   that are told apart by name;
* `step_outcome`   every step has an outcome.
-/

namespace TerminalManager.App
open Ui (F32)

/-! ## the tables -/

namespace PaneTables

/-- an agent, a flow launch or a resume is kept for the pane -/
def mentions (t : PaneTables) (id : PaneId) : Bool :=
  t.agentRestarts.contains id || t.paneAgents.contains id || t.pendingAgentResumes.contains id ||
    t.agentResumeAttempts.contains id || t.flowPending.contains id

lemma mentions_forget (t : PaneTables) (id j : PaneId) :
    (t.forgetAgentRestore id).mentions j = (!decide (j = id) && t.mentions j) := by
  unfold mentions forgetAgentRestore
  simp only [Table.contains_remove]
  cases decide (j = id) <;> simp

/-- the recovery records of some panes are given up -/
lemma mentions_retainAgents (t : PaneTables) (kept : PaneId → Bool) (id : PaneId) :
    (t.retainAgents kept).mentions id = (kept id && (t.agentRestarts.contains id ||
      t.pendingAgentResumes.contains id || t.agentResumeAttempts.contains id) || t.paneAgents.contains id ||
        t.flowPending.contains id) := by
  unfold mentions retainAgents
  simp only [Table.contains_retain]
  cases kept id <;> cases t.agentRestarts.contains id <;> cases t.paneAgents.contains id <;>
    cases t.pendingAgentResumes.contains id <;> simp

/-- the panes of a list lose their process, and nothing else -/
lemma stop_foldl (t : PaneTables) (gone : List PaneId) :
    gone.foldl .stopTerminal t = { t with
      sessions := t.sessions.filter fun x => !gone.contains x.1
      terminals := t.terminals.retain fun id => !gone.contains id } := by
  induction gone generalizing t with
  | nil =>
    have hsessions : (t.sessions.filter fun _ => true) = t.sessions := List.filter_true _
    have hterminals : (t.terminals.retain fun _ => true) = t.terminals := congrArg Table.mk (List.filter_true _)
    show t = { t with sessions := t.sessions.filter fun _ => true, terminals := t.terminals.retain fun _ => true }
    rw [hsessions, hterminals]
  | cons id gone ih =>
    have hcontains (j : PaneId) : (!(id :: gone).contains j) = (!gone.contains j && j != id) := by
      rw [List.contains_cons, Bool.not_or, Bool.and_comm]
      rfl
    rw [List.foldl_cons, ih]
    simp only [hcontains]
    unfold stopTerminal destroy Table.remove Table.retain
    simp only [List.filter_filter]

lemma spawn_spec (t : PaneTables) (id : PaneId) (spawned : SpawnResult) :
    (∀ x ∈ (t.spawn id spawned).sessions, x.1 = id ∨ x ∈ t.sessions) ∧
      (t.spawn id spawned).terminals = t.terminals.insert id () := by
  cases spawned with
  | ok session generation =>
    refine ⟨fun x hx => ?_, rfl⟩
    rcases List.mem_cons.mp hx with rfl | hx
    · exact .inl rfl
    · exact .inr (List.mem_of_mem_filter hx)
  | failed authoritative => exact ⟨fun x hx => .inr hx, rfl⟩

lemma spawn_rest (t : PaneTables) (id : PaneId) (spawned : SpawnResult) :
    (t.spawn id spawned).editors = t.editors ∧ (t.spawn id spawned).flows = t.flows ∧
      (t.spawn id spawned).mentions = t.mentions := by
  cases spawned <;> exact ⟨rfl, rfl, rfl⟩

/-- the agent of a launch is staged for its pane only -/
lemma stageAgent_mentions (t : PaneTables) (id : PaneId) (launch : AgentLaunch) {j : PaneId}
    (hj : (t.stageAgent id launch).mentions j = true) : j = id ∨ t.mentions j = true := by
  by_cases heq : j = id
  · exact .inl heq
  · refine .inr ?_
    unfold stageAgent mentions at hj
    unfold mentions
    cases hrestart : launch.restart with
    | none => simpa [hrestart, heq] using hj
    | some restart => simpa [hrestart, heq] using hj

lemma attemptResume_rest (t : PaneTables) (id : PaneId) (generation : Nat) :
    (t.attemptResume id generation).sessions = t.sessions ∧ (t.attemptResume id generation).terminals = t.terminals ∧
      (t.attemptResume id generation).editors = t.editors ∧ (t.attemptResume id generation).flows = t.flows := by
  unfold attemptResume
  split
  · split <;> exact ⟨rfl, rfl, rfl, rfl⟩
  · exact ⟨rfl, rfl, rfl, rfl⟩

lemma attemptResume_mentions (t : PaneTables) (id : PaneId) (generation : Nat) {j : PaneId}
    (hj : (t.attemptResume id generation).mentions j = true) : j = id ∨ t.mentions j = true := by
  by_cases heq : j = id
  · exact .inl heq
  · refine .inr ?_
    unfold attemptResume at hj
    split at hj
    · split at hj
      · unfold mentions at hj ⊢
        simpa [heq] using hj
      · exact hj
    · exact hj

lemma launchAgent_spec (t : PaneTables) (id : PaneId) (launch : AgentLaunch) (outcome : LaunchOutcome) :
    (∀ x ∈ (t.launchAgent id launch outcome).sessions, x.1 = id ∨ x ∈ t.sessions) ∧
      (t.launchAgent id launch outcome).terminals = t.terminals.insert id () ∧
      (t.launchAgent id launch outcome).editors = t.editors ∧ (t.launchAgent id launch outcome).flows = t.flows := by
  unfold launchAgent
  dsimp only
  split_ifs
  · exact ⟨fun x hx => .inr hx, rfl, rfl, rfl⟩
  · split
    · rename_i session generation _
      obtain ⟨hsessions, hterminals, heditors, hflows⟩ :=
        ((t.stageAgent id launch).spawn id (.ok session generation)).attemptResume_rest id generation
      rw [hsessions, hterminals, heditors, hflows]
      exact ⟨((t.stageAgent id launch).spawn_spec id _).1, rfl, rfl, rfl⟩
    · exact ⟨fun x hx => .inr hx, rfl, rfl, rfl⟩
    · exact ⟨fun x hx => .inr hx, rfl, rfl, rfl⟩

lemma launchAgent_mentions (t : PaneTables) (id : PaneId) (launch : AgentLaunch) (outcome : LaunchOutcome) {j : PaneId}
    (hj : (t.launchAgent id launch outcome).mentions j = true) : j = id ∨ t.mentions j = true := by
  by_cases heq : j = id
  · exact .inl heq
  · have hstaged : (t.stageAgent id launch).mentions j = true := by
      unfold launchAgent at hj
      dsimp only at hj
      split_ifs at hj
      · unfold mentions at hj ⊢
        simpa [heq] using hj
      · split at hj
        · exact (attemptResume_mentions _ id _ hj).resolve_left heq
        · unfold mentions PaneTables.spawn at hj
          unfold mentions
          simpa [heq] using hj
        · exact hj
    exact t.stageAgent_mentions id launch hstaged

end PaneTables

/-! ## the outcomes -/

namespace AppState
section
variable {F : Type}

/-- the tables of a state that opens a pane of some kind -/
inductive Opens (s : AppState F) : PaneTables → Prop
  | terminal (spawned : SpawnResult) : Opens s (s.side.spawn s.nextId spawned)
  | agent (launch : AgentLaunch) (outcome : LaunchOutcome) : Opens s (s.side.launchAgent s.nextId launch outcome)
  | editor (editor : EditorPane) : Opens s { s.side with editors := s.side.editors.insert s.nextId editor }
  | flow (pane : FlowPane) : Opens s { s.side with flows := s.side.flows.insert s.nextId pane }

/-- the panes that an operation may close -/
def doomed (s : AppState F) : Op → List PaneId
  | .closePane target => [target]
  | .closeTab index => (s.tabPaneIds index).getD []
  | .removeWorkspace idx => s.workspacePaneIds idx
  | _ => []

lemma mutateSwitchTab_side {s t : AppState F} {n : Nat} (h : s.mutateSwitchTab n = some t) :
    ∃ a, t.side = { s.side with attentionPaneIds := a } := by
  obtain rfl | ⟨-, -, a, hload⟩ := mutateSwitchTab_cases h
  · exact ⟨_, rfl⟩
  · exact ⟨a, hload.side⟩

lemma relives_side {s t : AppState F} (h : t = s ∨ s.Relives t) : ∃ a, t.side = { s.side with attentionPaneIds := a } := by
  obtain rfl | ⟨live, -, -, rfl⟩ := h
  · exact ⟨_, rfl⟩
  · exact ⟨_, rfl⟩

/-- a switch of the workspace leaves the tables as they are -/
lemma focusWorkspacePaneByIndex_side {s t : AppState F} (hs : s.Seated) {w : Nat} {target : PaneId}
    (h : s.focusWorkspacePaneByIndex w target = some t) : ∃ a, t.side = { s.side with attentionPaneIds := a } := by
  obtain rfl | ⟨u, v, hu, hv, rfl⟩ := focusWorkspacePaneByIndex_cases h
  · exact ⟨_, rfl⟩
  · have hfirst : u.side = s.side := by
      obtain rfl | hu := hu
      · rfl
      · exact (mutateSwitchWorkspace_turns hs hu).2
    have hsecond : ∃ a, v.side = { u.side with attentionPaneIds := a } := by
      obtain rfl | ⟨n, hv⟩ := hv
      · exact ⟨_, rfl⟩
      · exact mutateSwitchTab_side hv
    obtain ⟨a, ha⟩ := hsecond
    refine ⟨a.remove target, ?_⟩
    show { v.side with attentionPaneIds := v.side.attentionPaneIds.remove target } = _
    rw [ha, hfirst]

/-- the pane of a killed session goes from the live layout and from the other workspaces; in another tab of
the active workspace it stays -/
lemma mutateKillSessionId_cases (s : AppState F) (sessionId : Nat) :
    s.mutateKillSessionId sessionId = s ∨ ∃ id, (id, sessionId) ∈ s.side.sessions ∧
      (s.mutateKillSessionId sessionId).side = s.side.killTerminal id ∧
      (s.mutateKillSessionId sessionId).paneIds.Sublist s.paneIds ∧
      ∀ j ∈ s.paneIds, j ≠ id → j ∈ (s.mutateKillSessionId sessionId).paneIds := by
  obtain hsame | ⟨id, hid, hkill⟩ := s.mutateKillSessionId_eq sessionId
  · exact .inl hsame
  · have hids : (s.mutateKillSessionId sessionId).paneIds = (s.live.ids.filter (· != id) ++
        (s.tabs.eraseIdx s.activeTab).flatMap TerminalTab.paneIds) ++ s.otherPaneIds.filter (· != id) := by
      rw [hkill]
      show ((s.live.prune id).ids ++ ((s.tabs.modify s.activeTab _).eraseIdx s.activeTab).flatMap _) ++
        ((s.workspaces.map _).eraseIdx s.activeWorkspace).flatMap _ = _
      rw [PaneLayout.prune_ids, List.eraseIdx_modify_of_eq, List.eraseIdx_map, prune_paneIds]
      rfl
    refine .inr ⟨id, hid, by rw [hkill]; rfl, ?_, fun j hj hne => ?_⟩
    · rw [hids]
      exact (List.filter_sublist.append (.refl _)).append List.filter_sublist
    · rw [hids]
      have hne : (j != id) = true := bne_iff_ne.mpr hne
      rcases List.mem_append.mp hj with hmem | hmem
      · refine List.mem_append_left _ ?_
        rcases List.mem_append.mp hmem with hmem | hmem
        · exact List.mem_append_left _ (List.mem_filter.mpr ⟨hmem, hne⟩)
        · exact List.mem_append_right _ hmem
      · exact List.mem_append_right _ (List.mem_filter.mpr ⟨hmem, hne⟩)

lemma mutateKillWorkspaceTerminals_side (s : AppState F) (n : Nat) :
    (s.mutateKillWorkspaceTerminals n).side = (s.workspacePaneIds n).foldl .killPaneTables s.side := by
  unfold mutateKillWorkspaceTerminals workspacePaneIds emptyWorkspace
  by_cases hn : s.workspaces.length ≤ n
  · rw [if_pos hn, List.getElem?_eq_none hn]
    rfl
  · rw [if_neg hn]
    split_ifs <;> rfl

lemma mutateKillAllTerminals_paneIds (s : AppState F) : s.mutateKillAllTerminals.paneIds = [] := by
  unfold paneIds
  show [] ++ ((s.workspaces.map _).eraseIdx s.activeWorkspace).flatMap Workspace.paneIds = []
  rw [List.nil_append, List.flatMap_eq_nil_iff]
  intro ws hws
  obtain ⟨ws', -, rfl⟩ := List.mem_map.mp (List.mem_of_mem_eraseIdx hws)
  rfl

end

section
variable {F : Type} [F32 F]

/-- a step that rearranges and brings no pane leaves the tables as they are, but for the attention -/
lemma step_side {s t : AppState F} (hs : s.Seated) {op : Op} (hop : op.rearranges = true) (hminted : s.minted op = [])
    (h : step s op = some t) : ∃ a, t.side = { s.side with attentionPaneIds := a } := by
  cases op with
  | splitRight target spawned =>
    obtain ⟨-, rfl⟩ | ⟨hcan, -⟩ := mutateSplitRight_cases h
    · exact ⟨_, rfl⟩
    · rw [minted_splitRight hcan] at hminted
      cases hminted
  | splitDown target spawned =>
    obtain ⟨-, rfl⟩ | ⟨hcan, -⟩ := mutateSplitDown_cases h
    · exact ⟨_, rfl⟩
    · rw [minted_splitDown hcan] at hminted
      cases hminted
  | focusLeft => exact relives_side (mutateFocus_cases (.inl h))
  | focusRight => exact relives_side (mutateFocus_cases (.inr (.inl h)))
  | focusUp => exact relives_side (mutateFocus_cases (.inr (.inr (.inl h))))
  | focusDown => exact relives_side (mutateFocus_cases (.inr (.inr (.inr h))))
  | focusPane workspaceIdx target => exact focusWorkspacePaneByIndex_side hs h
  | extract target newTabIndex =>
    obtain rfl | ⟨p, -, i, ⟨-, -, -, rfl⟩ | ⟨live, -, -, -, rfl⟩⟩ := mutateExtractPaneToTab_cases h <;> exact ⟨_, rfl⟩
  | reorder sourceTabId newIndex => exact ⟨_, (mutateTabReorder_seated hs h).2⟩
  | dropSplit sourceTabId target edge =>
    obtain rfl | ⟨idx, p, tab, -, -, -, -, -, -, ⟨-, rfl⟩ | ⟨-, live, -, rfl⟩⟩ := mutatePaneDropSplit_cases h <;>
      exact ⟨_, rfl⟩
  | moveToEdge source target edge => exact relives_side (mutatePaneMoveToEdge_cases h)
  | swap a b => exact relives_side (mutatePaneSwap_cases h)
  | swapFromTab sourceTabId target =>
    obtain rfl | ⟨idx, p, tab, q, r, c, -, -, -, -, -, -, -, -, rfl⟩ := mutatePaneSwapFromTab_cases h <;>
      exact ⟨_, rfl⟩
  | switchTab newIndex => exact mutateSwitchTab_side h
  | switchWorkspace newIndex => exact ⟨_, (mutateSwitchWorkspace_turns hs h).2⟩
  | addTab spawned => cases hminted
  | addWorktreeTab title spawned => cases hminted
  | addEditorTab editor => cases hminted
  | addFlowTab pane => cases hminted
  | addAgentTab launch outcome => cases hminted
  | _ => cases hop

/-- what an operation does to the panes and the tables -/
inductive Outcome (s : AppState F) : Op → AppState F → Prop
  | moved {op : Op} {t : AppState F} (h : Turns s t [] []) (hside : ∃ a, t.side = { s.side with attentionPaneIds := a }) :
    Outcome s op t
  | opened {op : Op} {t : AppState F} (hminted : s.minted op = [s.nextId]) (h : Turns s t [] [s.nextId])
      (hside : s.Opens t.side) : Outcome s op t
  | closed {op : Op} {t : AppState F} (h : Closes s t (s.doomed op)) : Outcome s op t
  | reordered {source : String} {n : Nat} {t : AppState F} (h : s.mutateTabReorder source n = some t) :
    Outcome s (.reorder source n) t
  | dropped {source : String} {target : PaneId} {t : AppState F}
      (h : s.mutatePaneDropSplit source target .center = some t) : Outcome s (.dropSplit source target .center) t
  | workspaceKilled (n : Nat) : Outcome s (.killWorkspaceTerminals n) (s.mutateKillWorkspaceTerminals n)
  | agentsKilled {n : Nat} {t : AppState F} (h : s.mutateKillWorkspaceAgents n = some t) :
    Outcome s (.killWorkspaceAgents n) t
  | allKilled : Outcome s .killAll s.mutateKillAllTerminals
  | sessionKilled (sessionId : Nat) : Outcome s (.killSession sessionId) (s.mutateKillSessionId sessionId)
  | unsaved {choice : CloseChoice} {t : AppState F} (h : s.finalizeCloseChoice choice false = some t) :
    Outcome s (.closeUnsaved choice) t

/-- every step has an outcome -/
lemma step_outcome {s t : AppState F} (hs : s.Seated) {op : Op} (h : step s op = some t) : Outcome s op t := by
  have hmoved (hop : op.rearranges = true) (hsole : ∀ source n, op = .reorder source n → s.SoleActive)
      (hminted : s.minted op = []) : Outcome s op t :=
    .moved (hminted ▸ step_turns hs hop hsole h) (step_side hs hop hminted h)
  cases op with
  | addTab spawned => exact Option.some.inj h ▸ .opened rfl (openTab_turns hs _ _ _) (.terminal spawned)
  | addWorktreeTab title spawned => exact Option.some.inj h ▸ .opened rfl (openTab_turns hs _ _ _) (.terminal spawned)
  | addEditorTab editor => exact Option.some.inj h ▸ .opened rfl (openTab_turns hs _ _ _) (.editor editor)
  | addFlowTab pane => exact Option.some.inj h ▸ .opened rfl (openTab_turns hs _ _ _) (.flow pane)
  | addAgentTab launch outcome =>
    exact Option.some.inj h ▸ .opened rfl (openTab_turns hs _ _ _) (.agent launch outcome)
  | splitRight target spawned =>
    obtain ⟨-, rfl⟩ | ⟨hcan, hsplit⟩ := mutateSplitRight_cases h
    · exact .moved (.refl hs) ⟨_, rfl⟩
    · have hturns := hsplit.turns hs (ids_ne_nil (canSplitRight_mem hcan))
      obtain ⟨live, -, rfl⟩ := hsplit
      exact .opened (minted_splitRight hcan) hturns (.terminal spawned)
  | splitDown target spawned =>
    obtain ⟨-, rfl⟩ | ⟨hcan, hsplit⟩ := mutateSplitDown_cases h
    · exact .moved (.refl hs) ⟨_, rfl⟩
    · have hturns := hsplit.turns hs (ids_ne_nil (canSplitDown_mem hcan))
      obtain ⟨live, -, rfl⟩ := hsplit
      exact .opened (minted_splitDown hcan) hturns (.terminal spawned)
  | closePane target => exact .closed (mutateClosePane_closes hs h)
  | closeTab index => exact .closed (mutateCloseTab_closes hs h)
  | removeWorkspace idx => exact .closed (mutateRemoveWorkspace_closes hs h)
  | reorder sourceTabId newIndex => exact .reordered h
  | dropSplit sourceTabId target edge =>
    by_cases hedge : edge = .center
    · subst hedge
      exact .dropped h
    · exact hmoved (decide_eq_true hedge) (fun _ _ heq => by cases heq) rfl
  | addWorkspace path folder =>
    obtain ⟨hturns, hside⟩ := mutateAddWorkspaceWithPath_turns hs h
    exact .moved hturns ⟨_, hside⟩
  | killWorkspaceTerminals wsIdx => exact Option.some.inj h ▸ .workspaceKilled wsIdx
  | killWorkspaceAgents wsIdx => exact .agentsKilled h
  | killAll => exact Option.some.inj h ▸ .allKilled
  | killSession sessionId => exact Option.some.inj h ▸ .sessionKilled sessionId
  | closeUnsaved choice => exact .unsaved h
  | _ => exact hmoved rfl (fun _ _ heq => by cases heq) rfl

end
end AppState
end TerminalManager.App
