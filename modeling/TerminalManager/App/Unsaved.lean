import TerminalManager.App.CommandEffects

/-!
# Unsaved changes are not lost in silence

* `Guarded`         an editor with unsaved changes is in a tab; no session and no agent has the pane of an editor;
* `Shrinks`         tables that lose the editors of some panes and no other;
* `SparesUnsaved`   the commands that lose no unsaved changes;
* `unsaved_kept`    in a run of such commands an editor with unsaved changes goes only when it was saved, or
                    when the user said so.
-/

namespace TerminalManager.App
open Ui (F32)
open Transition

/-! ## the tables -/

namespace PaneTables

/-- the editors of the panes `gone` are gone, and no other; there is no new session and no new agent -/
structure Shrinks (t t' : PaneTables) (gone : PaneId → Prop) : Prop where
  kept : ∀ id, ¬ gone id → t'.editors.get id = t.editors.get id
  gone : ∀ id, gone id → t'.editors.get id = none
  sessions : t'.sessions ⊆ t.sessions
  agents : ∀ id, t'.mentions id = true → t.mentions id = true

/-- no editor goes -/
lemma Shrinks.of_editors {t t' : PaneTables} (heditors : t'.editors = t.editors) (hsessions : t'.sessions ⊆ t.sessions)
    (hagents : ∀ id, t'.mentions id = true → t.mentions id = true) : Shrinks t t' fun _ => False where
  kept id _ := by rw [heditors]
  gone id h := h.elim
  sessions := hsessions
  agents := hagents

lemma Shrinks.trans {t u v : PaneTables} {gone gone' : PaneId → Prop} (h : Shrinks t u gone) (h' : Shrinks u v gone') :
    Shrinks t v fun id => gone id ∨ gone' id where
  kept id hid := (h'.kept id fun h => hid (.inr h)).trans (h.kept id fun h => hid (.inl h))
  gone id hid := by
    by_cases hgone : gone' id
    · exact h'.gone id hgone
    · exact (h'.kept id hgone).trans (h.gone id (hid.resolve_right hgone))
  sessions := List.Subset.trans h'.sessions h.sessions
  agents id hid := h.agents id (h'.agents id hid)

lemma Shrinks.congr {t u : PaneTables} {gone gone' : PaneId → Prop} (h : Shrinks t u gone)
    (hiff : ∀ id, gone id ↔ gone' id) : Shrinks t u gone' where
  kept id hid := h.kept id fun h => hid ((hiff id).mp h)
  gone id hid := h.gone id ((hiff id).mpr hid)
  sessions := h.sessions
  agents := h.agents

/-- panes torn down one after the other -/
lemma Shrinks.foldl {f : PaneTables → PaneId → PaneTables} {P : PaneId → PaneId → Prop}
    (hf : ∀ t id, Shrinks t (f t id) (P id)) (t : PaneTables) (ids : List PaneId) :
    Shrinks t (ids.foldl f t) fun j => ∃ id ∈ ids, P id j := by
  induction ids generalizing t with
  | nil =>
    refine (Shrinks.of_editors rfl (List.Subset.refl _) fun _ h => h).congr fun id => ?_
    simp
  | cons id ids ih =>
    refine ((hf t id).trans (ih (f t id))).congr fun j => ?_
    simp

lemma killTerminal_shrinks (t : PaneTables) (id : PaneId) : Shrinks t (t.killTerminal id) fun _ => False :=
  .of_editors rfl (List.filter_sublist.subset) fun j hj => by
    have hmentions : (t.killTerminal id).mentions j = (!decide (j = id) && t.mentions j) := t.mentions_forget id j
    rw [hmentions, Bool.and_eq_true] at hj
    exact hj.2

lemma closeTerminal_shrinks (t : PaneTables) (id : PaneId) : Shrinks t (t.closeTerminal id) fun _ => False :=
  let h := t.killTerminal_shrinks id
  ⟨h.kept, h.gone, h.sessions, h.agents⟩

lemma dropPane_shrinks {terminal : PaneTables → PaneId → PaneTables}
    (hterminal : ∀ t id, Shrinks t (terminal t id) fun _ => False) (t : PaneTables) (id : PaneId) :
    Shrinks t (dropPane terminal t id) (· = id) := by
  unfold dropPane
  by_cases heditor : t.editors.contains id
  · rw [if_pos heditor]
    refine ⟨fun j hj => Table.get_remove_of_ne _ hj, fun j hj => ?_, List.Subset.refl _, fun _ h => h⟩
    rw [hj]
    exact Table.get_remove_self ..
  · rw [if_neg heditor]
    have hnone : t.editors.get id = none := Table.contains_eq_false.mp (Bool.eq_false_iff.mpr heditor)
    have hrest (t' : PaneTables) (h : Shrinks t t' fun _ => False) : Shrinks t t' (· = id) :=
      ⟨fun j _ => h.kept j not_false, fun j hj => (h.kept j not_false).trans (hj ▸ hnone), h.sessions, h.agents⟩
    by_cases hflow : t.flows.contains id
    · rw [if_pos hflow]
      exact hrest _ (.of_editors rfl (List.Subset.refl _) fun _ h => h)
    · rw [if_neg hflow]
      exact hrest _ (hterminal t id)

lemma closeAll_shrinks (t : PaneTables) (gone : List PaneId) :
    Shrinks t (gone.foldl .closePaneTables t) (· ∈ gone) :=
  (Shrinks.foldl (dropPane_shrinks closeTerminal_shrinks) t gone).congr fun id => by simp

lemma killPanes_shrinks (t : PaneTables) (gone : List PaneId) :
    Shrinks t (gone.foldl .killPaneTables t) (· ∈ gone) :=
  (Shrinks.foldl (dropPane_shrinks killTerminal_shrinks) t gone).congr fun id => by simp

lemma retainAgents_shrinks (t : PaneTables) (kept : PaneId → Bool) : Shrinks t (t.retainAgents kept) fun _ => False :=
  .of_editors rfl (List.Subset.refl _) fun id hid => by
    rw [mentions_retainAgents] at hid
    unfold mentions
    revert hid
    cases kept id <;> cases t.paneAgents.contains id <;> cases t.flowPending.contains id <;> simp

lemma killAgents_shrinks (t : PaneTables) (gone : List PaneId) :
    Shrinks t (gone.foldl .killAgentTables t) fun _ => False := by
  refine (Shrinks.foldl (P := fun _ _ => False) (fun t id => ?_) t gone).congr fun id => by simp
  unfold killAgentTables
  split_ifs
  · exact .of_editors rfl (List.Subset.refl _) fun _ h => h
  · exact t.closeTerminal_shrinks id

lemma stop_shrinks (t : PaneTables) (gone : List PaneId) : Shrinks t (gone.foldl .stopTerminal t) fun _ => False := by
  rw [stop_foldl]
  exact .of_editors rfl (List.filter_sublist.subset) fun _ h => h

lemma killAll_shrinks (t : PaneTables) : Shrinks t t.killAll fun _ => True where
  kept id h := absurd trivial h
  gone id _ := rfl
  sessions := List.filter_sublist.subset
  agents id hid := by
    have hsome : t.killAll.mentions id = (t.paneAgents.contains id || t.flowPending.contains id) := by
      unfold mentions PaneTables.killAll
      simp
    rw [hsome] at hid
    unfold mentions
    revert hid
    cases t.paneAgents.contains id <;> cases t.flowPending.contains id <;> simp

end PaneTables

/-! ## one operation -/

namespace AppState
section
variable {F : Type}

/-- an editor with unsaved changes is in a tab; no session and no agent has the pane of an editor -/
structure Guarded (s : AppState F) : Prop where
  dirty : ∀ id, s.dirtyEditor id = true → id ∈ s.paneIds
  sessions : ∀ x ∈ s.side.sessions, s.side.editors.contains x.1 = false
  agents : ∀ id, s.side.mentions id = true → s.side.editors.contains id = false

/-- the pane is an editor, and in a tab -/
def Holds (s : AppState F) (id : PaneId) : Prop := s.side.editors.contains id = true ∧ id ∈ s.paneIds

lemma contains_of_dirty {s : AppState F} {id : PaneId} (h : s.dirtyEditor id = true) :
    s.side.editors.contains id = true := by
  unfold dirtyEditor at h
  cases hget : s.side.editors.get id with
  | none =>
    rw [hget] at h
    cases h
  | some editor => exact Table.contains_of_get hget

lemma Guarded.holds {s : AppState F} (hs : s.Guarded) {id : PaneId} (h : s.dirtyEditor id = true) : s.Holds id :=
  ⟨contains_of_dirty h, hs.dirty id h⟩

/-- the unsaved changes that a step spares, when the tables shrink and the panes of the others stay -/
lemma Guarded.shrinks {s t : AppState F} (hs : s.Guarded) {gone : PaneId → Prop} (h : s.side.Shrinks t.side gone)
    (hmem : ∀ id, s.dirtyEditor id = true → ¬ gone id → id ∈ t.paneIds) :
    t.Guarded ∧ ∀ id, s.dirtyEditor id = true → ¬ gone id → t.Holds id := by
  have hback {id : PaneId} (hid : t.side.editors.get id ≠ none) : t.side.editors.get id = s.side.editors.get id :=
    h.kept id fun hgone => hid (h.gone id hgone)
  have hcontains {id : PaneId} (hid : s.side.editors.contains id = false) : t.side.editors.contains id = false := by
    rw [Table.contains_eq_false] at hid ⊢
    by_contra hnot
    exact hnot ((hback hnot).trans hid)
  refine ⟨⟨fun id hid => ?_, fun x hx => hcontains (hs.sessions x (h.sessions hx)),
    fun id hid => hcontains (hs.agents id (h.agents id hid))⟩, fun id hid hkept => ⟨?_, hmem id hid hkept⟩⟩
  · have hne : t.side.editors.get id ≠ none := by
      intro hnone
      unfold dirtyEditor at hid
      rw [hnone] at hid
      cases hid
    have hdirty : s.dirtyEditor id = true := by
      unfold dirtyEditor at hid ⊢
      rwa [hback hne] at hid
    exact hmem id hdirty fun hgone => hne (h.gone id hgone)
  · unfold Table.contains
    rw [h.kept id hkept]
    exact contains_of_dirty hid

/-- the panes move, and only the tables shrink -/
lemma Guarded.moved {s t : AppState F} (hs : s.Guarded) (h : s.side.Shrinks t.side fun _ => False)
    (hmem : ∀ id, s.dirtyEditor id = true → id ∈ t.paneIds) : t.Guarded ∧ ∀ id, s.dirtyEditor id = true → t.Holds id := by
  obtain ⟨hguarded, hholds⟩ := hs.shrinks h fun id hid _ => hmem id hid
  exact ⟨hguarded, fun id hid => hholds id hid not_false⟩

lemma Turns.mem {s t : AppState F} {gone extra : List PaneId} (h : Turns s t gone extra) {id : PaneId}
    (hid : id ∈ s.paneIds) (hgone : id ∉ gone) : id ∈ t.paneIds :=
  (List.mem_append.mp (h.perm.mem_iff.mpr (List.mem_append_right _ hid))).resolve_left hgone

/-- no pane and no table has the id -/
def Unused (s : AppState F) (id : PaneId) : Prop :=
  id ∉ s.paneIds ∧ s.side.editors.contains id = false ∧ s.side.mentions id = false ∧ ∀ x ∈ s.side.sessions, x.1 ≠ id

/-- a terminal, an agent or a flow leaves the editors alone -/
lemma Opens.spec {s : AppState F} {side : PaneTables} (h : s.Opens side) :
    (side.editors = s.side.editors ∧ (∀ x ∈ side.sessions, x.1 = s.nextId ∨ x ∈ s.side.sessions) ∧
        ∀ id, side.mentions id = true → id = s.nextId ∨ s.side.mentions id = true) ∨
      ∃ editor, side = { s.side with editors := s.side.editors.insert s.nextId editor } := by
  cases h with
  | terminal spawned =>
    obtain ⟨heditors, -, hmentions⟩ := s.side.spawn_rest s.nextId spawned
    exact .inl ⟨heditors, (s.side.spawn_spec s.nextId spawned).1, fun id hid => .inr (hmentions ▸ hid)⟩
  | agent launch outcome =>
    obtain ⟨hsessions, -, heditors, -⟩ := s.side.launchAgent_spec s.nextId launch outcome
    exact .inl ⟨heditors, hsessions, fun id hid => s.side.launchAgent_mentions s.nextId launch outcome hid⟩
  | editor editor => exact .inr ⟨editor, rfl⟩
  | flow pane => exact .inl ⟨rfl, fun x hx => .inr hx, fun id hid => .inr hid⟩

/-- a pane opened under an id that nothing has -/
lemma Guarded.opens {s t : AppState F} (hs : s.Guarded) (hturns : Turns s t [] [s.nextId]) (hside : s.Opens t.side)
    (hunused : s.Unused s.nextId) : t.Guarded ∧ ∀ id, s.dirtyEditor id = true → t.Holds id := by
  obtain ⟨-, hcontains, hmentions, hsessions⟩ := hunused
  have hmem {id : PaneId} (hid : id = s.nextId ∨ id ∈ s.paneIds) : id ∈ t.paneIds :=
    hturns.perm.mem_iff.mpr (List.mem_append.mpr (hid.imp_left List.mem_singleton.mpr))
  rcases hside.spec with ⟨heditors, hsess, hment⟩ | ⟨editor, heq⟩
  · have hdirty (id : PaneId) : t.dirtyEditor id = s.dirtyEditor id := by
      unfold dirtyEditor
      rw [heditors]
    refine ⟨⟨fun id hid => ?_, fun x hx => ?_, fun id hid => ?_⟩, fun id hid => ⟨?_, hmem (.inr (hs.dirty id hid))⟩⟩
    · rw [hdirty] at hid
      exact hmem (.inr (hs.dirty id hid))
    · rw [heditors]
      rcases hsess x hx with hx | hx
      · rw [hx, hcontains]
      · exact hs.sessions x hx
    · rw [heditors]
      rcases hment id hid with rfl | hid
      · exact hcontains
      · exact hs.agents id hid
    · rw [heditors]
      exact contains_of_dirty hid
  · have hget (id : PaneId) : t.side.editors.contains id = (decide (id = s.nextId) || s.side.editors.contains id) := by
      rw [heq]
      exact Table.contains_insert ..
    refine ⟨⟨fun id hid => ?_, fun x hx => ?_, fun id hid => ?_⟩, fun id hid => ⟨?_, hmem (.inr (hs.dirty id hid))⟩⟩
    · by_cases hnew : id = s.nextId
      · exact hmem (.inl hnew)
      · refine hmem (.inr (hs.dirty id ?_))
        unfold dirtyEditor at hid ⊢
        rw [heq] at hid
        rwa [show ({ s.side with editors := s.side.editors.insert s.nextId editor } : PaneTables).editors.get id =
          s.side.editors.get id from Table.get_insert_of_ne _ _ hnew] at hid
    · rw [heq] at hx
      rw [hget, hs.sessions x hx, decide_eq_false (hsessions x hx)]
      rfl
    · rw [heq] at hid
      have hne : id ≠ s.nextId := by
        rintro rfl
        rw [show s.side.mentions s.nextId = true from hid] at hmentions
        cases hmentions
      rw [hget, hs.agents id hid, decide_eq_false hne]
      rfl
    · rw [hget, contains_of_dirty hid, Bool.or_true]

/-- the panes that go have no unsaved changes -/
lemma Guarded.closes {s t : AppState F} (hs : s.Guarded) {ids : List PaneId} (h : Closes s t ids) :
    t.Guarded ∧ ∀ id, s.dirtyEditor id = true → id ∉ ids → t.Holds id := by
  obtain ⟨gone, hturns, hside, hsub⟩ := h
  obtain ⟨hguarded, hholds⟩ := hs.shrinks (t := t) (hside ▸ s.side.closeAll_shrinks gone) fun id hid hgone =>
    hturns.mem (hs.dirty id hid) hgone
  exact ⟨hguarded, fun id hid hout => hholds id hid fun hgone => hout (hsub hgone)⟩

lemma not_dirty {s : AppState F} {id : PaneId} (h : s.dirtyEditor id = false) (hid : s.dirtyEditor id = true) :
    False := by
  rw [h] at hid
  cases hid

end

section
variable {F : Type} [F32 F]

/-- the operations that lose no unsaved changes: what is opened gets an id that nothing has; the workspace that is
removed has no unsaved changes; a tab is moved when no other tab with the id of the active one has any; and the
pane that is dropped in the centre of another has none -/
def SparesOp (s : AppState F) (op : Op) : Prop :=
  (∀ id ∈ s.minted op, s.Unused id) ∧
    match op with
    | .removeWorkspace idx => 1 < s.workspaces.length → ∀ id ∈ s.workspacePaneIds idx, s.dirtyEditor id = false
    | .reorder _ _ =>
      ∀ i active tab, s.tabs[s.activeTab]? = some active → s.tabs[i]? = some tab → i ≠ s.activeTab →
        tab.id = active.id → ∀ id ∈ tab.paneIds, s.dirtyEditor id = false
    | .dropSplit source target .center =>
      ∀ idx p, s.dragSource source = some (some (idx, p)) → target ∈ s.live.ids → s.dirtyEditor p.id = false
    | _ => True

/-- an operation that is run without asking spares the unsaved changes -/
lemma Guarded.direct {s t : AppState F} (hseated : s.Seated) (hs : s.Guarded) {op : Op} (hop : op.direct = true)
    (hspares : s.SparesOp op) (h : step s op = some t) : t.Guarded ∧ ∀ id, s.dirtyEditor id = true → t.Holds id := by
  obtain ⟨hnew, hspares⟩ := hspares
  cases step_outcome hseated h with
  | moved hturns hside =>
    obtain ⟨a, hside⟩ := hside
    refine hs.moved (hside ▸ .of_editors rfl (List.Subset.refl _) fun _ h => h) fun id hid => ?_
    exact hturns.mem (hs.dirty id hid) List.not_mem_nil
  | opened hminted hturns hside => exact hs.opens hturns hside (hnew s.nextId (hminted ▸ List.mem_cons_self))
  | closed hcloses =>
    cases op with
    | closePane target => cases hop
    | closeTab index => cases hop
    | removeWorkspace idx =>
      by_cases hmany : 1 < s.workspaces.length
      · obtain ⟨hguarded, hholds⟩ := hs.closes hcloses
        exact ⟨hguarded, fun id hid => hholds id hid fun hmem => not_dirty (hspares hmany id hmem) hid⟩
      · have hsame : s.mutateRemoveWorkspace idx = some s := if_pos (.inl (Nat.le_of_not_lt hmany))
        obtain rfl := Option.some.inj (h.symm.trans hsame)
        exact ⟨hs, fun id hid => hs.holds hid⟩
    | _ =>
      obtain ⟨hguarded, hholds⟩ := hs.closes hcloses
      exact ⟨hguarded, fun id hid => hholds id hid List.not_mem_nil⟩
  | reordered h =>
    have hside := (mutateTabReorder_seated hseated h).2
    refine hs.moved (hside ▸ .of_editors rfl (List.Subset.refl _) fun _ h => h) fun id hid => ?_
    refine mutateTabReorder_mem h (hs.dirty id hid) fun i active tab hactive htab hi hsame hmem => ?_
    exact not_dirty (hspares i active tab hactive htab hi hsame id hmem) hid
  | dropped h =>
    obtain rfl | ⟨idx, p, tab, hdrag, htab, hidx, hcount, hp, htarget, ⟨-, rfl⟩ | ⟨hedge, -⟩⟩ :=
      mutatePaneDropSplit_cases h
    · exact ⟨hs, fun id hid => hs.holds hid⟩
    · have hturns := dropTab_turns hseated htab hidx hcount hp
      refine hs.moved (.of_editors rfl (List.Subset.refl _) fun _ h => h) fun id hid => ?_
      refine hturns.mem (hs.dirty id hid) fun hmem => ?_
      rw [List.mem_singleton.mp hmem] at hid
      exact not_dirty (hspares idx p hdrag htarget) hid
    · exact absurd rfl hedge
  | workspaceKilled n => cases hop
  | agentsKilled h => cases hop
  | allKilled => cases hop
  | sessionKilled sessionId =>
    obtain hsame | ⟨x, hx, hside, -, hmem⟩ := s.mutateKillSessionId_cases sessionId
    · rw [hsame]
      exact ⟨hs, fun id hid => hs.holds hid⟩
    · refine hs.moved (hside ▸ s.side.killTerminal_shrinks x) fun id hid => hmem id (hs.dirty id hid) ?_
      rintro rfl
      have hnone := hs.sessions _ hx
      rw [contains_of_dirty hid] at hnone
      cases hnone
  | unsaved h => cases hop

/-! ## saving and editing -/

omit [F32 F] in
lemma Guarded.rewrites {s t : AppState F} (hs : s.Guarded) (h : Rewrites s t)
    (hdirty : ∀ id, t.dirtyEditor id = true → id ∈ s.paneIds) :
    t.Guarded ∧ ∀ id, s.dirtyEditor id = true → t.Holds id := by
  refine ⟨⟨fun id hid => ?_, fun x hx => ?_, fun id hid => ?_⟩, fun id hid => ⟨?_, ?_⟩⟩
  · rw [h.retitled.paneIds]
    exact hdirty id hid
  · rw [h.sessions] at hx
    rw [h.editors]
    exact hs.sessions x hx
  · rw [h.agents] at hid
    rw [h.editors]
    exact hs.agents id hid
  · rw [h.editors]
    exact contains_of_dirty hid
  · rw [h.retitled.paneIds]
    exact hs.dirty id hid

/-! ## commands -/

/-- the user says so: unsaved changes may go -/
def discards : Command → Bool
  | .editorDiscardClose | .confirm | .closeApp _ => true
  | _ => false

/-- the command saved the pane -/
def SavedBy (s : AppState F) (c : Command) (id : PaneId) : Prop :=
  ∃ saved paneIds tab, c = .editorSaveClose saved ∧ s.closeEditorDialog = some (paneIds, tab) ∧ id ∈ paneIds ∧ id ∈ saved

/-- every editor with unsaved changes is an editor of a tab after the command, or the command saved it -/
def KeepsUnsaved (s : AppState F) (c : Command) (t : AppState F) : Prop :=
  ∀ id, s.dirtyEditor id = true → t.Holds id ∨ s.SavedBy c id

/-- the commands that lose no unsaved changes: those whose operation loses none; a tab closed once its panes are
saved when they are all its panes with unsaved changes; and the app closed when the panes with unsaved changes are
kept -/
def SparesUnsaved (s : AppState F) : Command → Prop
  | .layout op => s.SparesOp op.1
  | .editorSaveClose saved =>
    ∀ paneIds idx, s.closeEditorDialog = some (paneIds, some idx) →
      (∀ id ∈ paneIds, id ∈ saved ∧ s.side.editors.contains id = true) →
        ∀ id ∈ (s.tabPaneIds idx).getD [], s.dirtyEditor id = true → id ∈ paneIds
  | .closeApp true =>
    ∀ count remember kept, s.confirmDialog = some (.closeApp count remember kept) →
      ∀ id, s.dirtyEditor id = true → id ∈ kept
  | _ => True

omit [F32 F] in
lemma Guarded.dialog {s : AppState F} (hs : s.Guarded) (dialog : Option ConfirmDialog) :
    Guarded { s with confirmDialog := dialog } := ⟨hs.dirty, hs.sessions, hs.agents⟩

omit [F32 F] in
lemma mutateKillAllTerminals_guarded {s : AppState F} (hs : s.Guarded) : s.mutateKillAllTerminals.Guarded :=
  (hs.shrinks (t := s.mutateKillAllTerminals) s.side.killAll_shrinks fun _ _ h => absurd trivial h).1

/-- the panes of the agents are no editors -/
lemma mutateKillWorkspaceAgents_guarded {s t : AppState F} (hseated : s.Seated) (hs : s.Guarded) {n : Nat}
    (h : s.mutateKillWorkspaceAgents n = some t) : t.Guarded := by
  obtain ⟨-, rfl⟩ | hprune := mutateKillWorkspaceAgents_cases h
  · exact hs
  · have hcut : Seated { s with side := (s.workspaceAgentPaneIds n).foldl .killAgentTables s.side } :=
      ⟨hseated.workspace, hseated.tab, hseated.bare⟩
    obtain ⟨-, hperm, hside⟩ := pruneCloseLayoutToKeptPanes_perm hcut hprune
    refine (hs.moved (t := t) ?_ fun id hid => ?_).1
    · rw [hside]
      exact ((s.side.killAgents_shrinks _).trans (PaneTables.retainAgents_shrinks _ _)).congr fun id => or_self_iff
    · refine hperm.mem_iff.mpr (List.mem_filter.mpr ⟨hs.dirty id hid, ?_⟩)
      have hout : (s.workspaceAgentPaneIds n).contains id = false := by
        rw [List.contains_eq_mem, decide_eq_false_iff_not]
        intro hmem
        have hagent := (List.mem_filter.mp hmem).2
        have hmentions : s.side.mentions id = true := by
          unfold isAgentPane PaneTables.isAgentPane at hagent
          unfold PaneTables.mentions
          rw [hagent]
          rfl
        have hnone := hs.agents id hmentions
        rw [contains_of_dirty hid] at hnone
        cases hnone
      rw [hout, List.contains_eq_mem, decide_eq_true ((mem_closeAppPaneIds hseated).mpr (hs.dirty id hid))]
      rfl

/-- the app closed, and not saved: nothing goes unless all is killed -/
lemma finalizeCloseChoice_guarded {s t : AppState F} (hseated : s.Seated) (hs : s.Guarded) {choice : CloseChoice}
    (hkept : ∀ kept remember, choice = .keepRunning (some kept) remember → ∀ id, s.dirtyEditor id = true → id ∈ kept)
    (h : s.finalizeCloseChoice choice false = some t) :
    t.Guarded ∧ ((∃ remember, choice = .killAll remember) ∨ ∀ id, s.dirtyEditor id = true → t.Holds id) := by
  obtain ⟨u, ⟨toggles, rfl⟩, ⟨-, rfl⟩ | ⟨kept, remember, rfl, hprune⟩ | ⟨⟨remember, rfl⟩, rfl⟩⟩ :=
    finalizeCloseChoice_cases h
  · exact ⟨⟨hs.dirty, hs.sessions, hs.agents⟩, .inr fun id hid => hs.holds hid⟩
  · let doomed := s.closeAppPaneIds.filter (!kept.contains ·)
    have hcut : Seated { s with confirmDialog := none, toggles, side := doomed.foldl .stopTerminal s.side } :=
      ⟨hseated.workspace, hseated.tab, hseated.bare⟩
    obtain ⟨-, hperm, hside⟩ := pruneCloseLayoutToKeptPanes_perm hcut hprune
    obtain ⟨hguarded, hholds⟩ := hs.moved (t := t) (by
      rw [hside]
      exact ((s.side.stop_shrinks doomed).trans (PaneTables.retainAgents_shrinks _ _)).congr fun id => or_self_iff)
      fun id hid => hperm.mem_iff.mpr (List.mem_filter.mpr ⟨hs.dirty id hid,
        List.contains_iff_mem.mpr (hkept kept remember rfl id hid)⟩)
    exact ⟨hguarded, .inr hholds⟩
  · exact ⟨mutateKillAllTerminals_guarded (s := { s with confirmDialog := none, toggles })
      ⟨hs.dirty, hs.sessions, hs.agents⟩, .inl ⟨remember, rfl⟩⟩

/-- a dialog that closes after its panes were saved, or because they are given up -/
lemma Guarded.scope {s u t : AppState F} (hseated : s.Seated) (hs : s.Guarded) (hrewrites : Rewrites s u)
    (hdirty : ∀ j, u.dirtyEditor j = true → s.dirtyEditor j = true) {paneIds : List PaneId} {tab : Option Nat}
    (h : u.closeEditorDialogScope paneIds tab = some t) :
    t.Guarded ∧ ∀ id, s.dirtyEditor id = true →
      id ∉ tab.elim paneIds (fun idx => (s.tabPaneIds idx).getD []) → t.Holds id := by
  have hcloses := closeEditorDialogScope_closes (hrewrites.retitled.seated hseated) h
  obtain ⟨hguarded, hholds⟩ := hs.rewrites hrewrites fun id hid => hs.dirty id (hdirty id hid)
  obtain ⟨gone, hturns, hside, hsub⟩ := hcloses
  refine ⟨(hguarded.closes ⟨gone, hturns, hside, List.Subset.refl gone⟩).1, fun id hid hout => ?_⟩
  have hgone : id ∉ gone := by
    intro hmem
    apply hout
    have hmem' := hsub hmem
    cases tab with
    | none => exact List.mem_of_mem_take hmem'
    | some idx =>
      show id ∈ (s.tabPaneIds idx).getD []
      rw [← hrewrites.retitled.tabPaneIds]
      exact hmem'
  obtain ⟨hcontains, hmem⟩ := hholds id hid
  refine ⟨?_, hturns.mem hmem hgone⟩
  unfold Table.contains at hcontains ⊢
  rwa [hside, (u.side.closeAll_shrinks gone).kept id hgone]

omit [F32 F] in
/-- a keystroke goes to an editor of the active tab -/
lemma editPane_dirty {s : AppState F} (hs : s.Guarded) {target : PaneId} {dirty : Bool} (id : PaneId)
    (hid : (s.editPane target dirty).dirtyEditor id = true) : id ∈ s.paneIds := by
  unfold editPane at hid
  cases hget : s.side.editors.get target with
  | none =>
    rw [hget] at hid
    exact hs.dirty id hid
  | some editor =>
    rw [hget] at hid
    dsimp only at hid
    split_ifs at hid with hguard
    · exact hs.dirty id hid
    · rw [dirtyEditor_sync] at hid
      split_ifs at hid with heq
      · rw [Bool.or_eq_true, not_or, Bool.not_eq_true', Bool.not_eq_false, List.contains_iff_mem] at hguard
        rw [heq]
        exact List.mem_append_left _ (List.mem_append_left _ hguard.2)
      · exact hs.dirty id hid

omit [F32 F] in
lemma mutateKillWorkspaceTerminals_guarded {s : AppState F} (hseated : s.Seated) (hs : s.Guarded) (n : Nat) :
    (s.mutateKillWorkspaceTerminals n).Guarded := by
  have hshrinks : s.side.Shrinks (s.mutateKillWorkspaceTerminals n).side (· ∈ s.workspacePaneIds n) := by
    rw [mutateKillWorkspaceTerminals_side]
    exact s.side.killPanes_shrinks _
  exact (hs.shrinks hshrinks fun id hid hgone =>
    (mutateKillWorkspaceTerminals_turns hseated n).mem (hs.dirty id hid) hgone).1

/-- a kill that is confirmed -/
lemma confirm_guarded {s t : AppState F} (hseated : s.Seated) (hs : s.Guarded) (h : s.confirm = some t) : t.Guarded := by
  have hdialog := hs.dialog none
  have hseated' : Seated { s with confirmDialog := none } := ⟨hseated.workspace, hseated.tab, hseated.bare⟩
  unfold confirm at h
  dsimp only at h
  split at h
  · exact Option.some.inj h ▸ mutateKillWorkspaceTerminals_guarded hseated' hdialog _
  · exact Option.some.inj h ▸ mutateKillAllTerminals_guarded hdialog
  · exact mutateKillWorkspaceAgents_guarded hseated' hdialog h
  · exact Option.some.inj h ▸ hs

/-- the window closed: what is remembered is done when there are no unsaved changes -/
lemma resolveClose_guarded {s t : AppState F} (hseated : s.Seated) (hs : s.Guarded) (h : s.resolveClose = some t) :
    t.Guarded ∧ ∀ id, s.dirtyEditor id = true → t.Holds id := by
  unfold resolveClose at h
  dsimp only at h
  split_ifs at h with hguard hkill
  · have hclean : ∀ id, s.dirtyEditor id = false := by
      intro id
      obtain ⟨hany, -⟩ := Bool.and_eq_true_iff.mp hguard
      unfold dirtyEditor
      cases hget : s.side.editors.get id with
      | none => rfl
      | some editor =>
        rw [Bool.not_eq_true', List.any_eq_false] at hany
        exact Bool.eq_false_iff.mpr (hany _ (Table.mem_of_get hget))
    obtain ⟨hguarded, -⟩ := finalizeCloseChoice_guarded hseated hs (fun _ _ heq => by cases heq) h
    exact ⟨hguarded, fun id hid => (not_dirty (hclean id) hid).elim⟩
  · obtain ⟨hguarded, ⟨remember, heq⟩ | hholds⟩ :=
      finalizeCloseChoice_guarded hseated hs (fun _ _ heq => by cases heq) h
    · cases heq
    · exact ⟨hguarded, hholds⟩
  · rw [← Option.some.inj h]
    exact ⟨hs.dialog _, fun id hid => hs.holds hid⟩

/-- **Step.**  A command that spares the unsaved changes keeps them, and keeps what is needed for the next one. -/
lemma Guarded.dispatch {s t : AppState F} (hseated : s.Seated) (hs : s.Guarded) {c : Command}
    (hspares : s.SparesUnsaved c) (h : dispatch s c = some t) :
    t.Guarded ∧ (discards c = false → s.KeepsUnsaved c t) := by
  have hkeep {t : AppState F} (hg : t.Guarded ∧ ∀ id, s.dirtyEditor id = true → t.Holds id) :
      t.Guarded ∧ (discards c = false → s.KeepsUnsaved c t) := ⟨hg.1, fun _ id hid => .inl (hg.2 id hid)⟩
  have hsame (dialog : Option ConfirmDialog) := hkeep (t := { s with confirmDialog := dialog })
    ⟨hs.dialog dialog, fun id hid => hs.holds hid⟩
  have hstay := hkeep (t := s) ⟨hs, fun id hid => hs.holds hid⟩
  have hclose {ids : List PaneId} (hclean : ∀ id ∈ ids, s.dirtyEditor id = false) (hcloses : Closes s t ids) :
      t.Guarded ∧ (discards c = false → s.KeepsUnsaved c t) := by
    obtain ⟨hguarded, hholds⟩ := hs.closes hcloses
    exact hkeep ⟨hguarded, fun id hid => hholds id hid fun hmem => not_dirty (hclean id hmem) hid⟩
  unfold App.dispatch at h
  cases c with
  | layout op => exact hkeep (hs.direct hseated op.2 hspares h)
  | requestClosePane target =>
    dsimp only at h
    unfold requestClosePane at h
    split at h
    · rename_i hdirty
      exact hclose (dirtyEditorPanes_eq_nil hdirty) (mutateClosePane_closes hseated h)
    · exact Option.some.inj h ▸ hsame _
  | requestCloseTab index =>
    dsimp only at h
    unfold requestCloseTab at h
    split_ifs at h
    · exact Option.some.inj h ▸ hstay
    · obtain ⟨ids, hids, h⟩ := Option.bind_eq_some_iff.mp h
      split at h
      · rename_i hdirty
        have hcloses := mutateCloseTab_closes hseated h
        rw [hids] at hcloses
        exact hclose (dirtyEditorPanes_eq_nil hdirty) hcloses
      · exact Option.some.inj h ▸ hsame _
  | requestKillWorkspace idx =>
    dsimp only at h
    split at h
    · exact Option.some.inj h ▸ hsame _
    · exact Option.some.inj h ▸ hstay
  | requestKillAgents idx =>
    dsimp only at h
    split at h
    · split_ifs at h
      · exact Option.some.inj h ▸ hstay
      · exact Option.some.inj h ▸ hsame _
    · exact Option.some.inj h ▸ hstay
  | requestKillAll => exact Option.some.inj h ▸ hsame _
  | requestRename target => exact Option.some.inj h ▸ hsame _
  | requestClose => exact hkeep (resolveClose_guarded hseated hs h)
  | confirm => exact ⟨confirm_guarded hseated hs h, fun hfalse => by cases hfalse⟩
  | cancel => exact Option.some.inj h ▸ hsame _
  | editorSaveClose saved =>
    dsimp only at h
    split at h
    · exact Option.some.inj h ▸ hstay
    · rename_i paneIds tab hdialog
      obtain ⟨hrewrites, hdirty, hall⟩ := saveEditorPanes_spec { s with confirmDialog := none } saved paneIds
      have hseated' : Seated { s with confirmDialog := none } := ⟨hseated.workspace, hseated.tab, hseated.bare⟩
      split_ifs at h with hsaved
      · obtain ⟨hguarded, hholds⟩ := (hs.dialog none).scope hseated' hrewrites hdirty h
        refine ⟨hguarded, fun _ id hid => ?_⟩
        by_cases hscope : id ∈ tab.elim paneIds (fun idx => (s.tabPaneIds idx).getD [])
        · refine .inr ⟨saved, paneIds, tab, rfl, hdialog, ?_⟩
          have hmem : id ∈ paneIds := by
            cases tab with
            | none => exact hscope
            | some idx => exact hspares paneIds idx hdialog (hall hsaved) id hscope hid
          exact ⟨hmem, (hall hsaved id hmem).1⟩
        · exact .inl (hholds id hid hscope)
      · rw [← Option.some.inj h]
        exact hkeep ((hs.dialog none).rewrites hrewrites fun id hid => hs.dirty id (hdirty id hid))
  | editorDiscardClose =>
    dsimp only at h
    split at h
    · exact Option.some.inj h ▸ hstay
    · have hscope := (hs.dialog none).scope (s := { s with confirmDialog := none })
        ⟨hseated.workspace, hseated.tab, hseated.bare⟩ (.refl _) (fun _ h => h) h
      exact ⟨hscope.1, fun hfalse => by cases hfalse⟩
  | renameCommit buffer accepted =>
    dsimp only at h
    split at h
    · split_ifs at h
      · exact Option.some.inj h ▸ hsame _
      · rename_i target _ _ _
        obtain ⟨hrewrites, heditors⟩ := mutateRenamePane_rewrites { s with confirmDialog := none } target buffer
        rw [← Option.some.inj h]
        refine hkeep ((hs.dialog none).rewrites hrewrites fun id hid => hs.dirty id ?_)
        unfold dirtyEditor at hid ⊢
        rwa [heditors] at hid
    · exact Option.some.inj h ▸ hsame _
  | toggleRemember =>
    dsimp only at h
    split at h
    · exact Option.some.inj h ▸ hsame _
    · exact Option.some.inj h ▸ hstay
  | toggleKeep target =>
    dsimp only at h
    split at h
    · exact Option.some.inj h ▸ hsame _
    · exact Option.some.inj h ▸ hstay
  | closeApp keepRunning =>
    refine ⟨?_, fun hfalse => by cases hfalse⟩
    dsimp only at h
    unfold closeApp at h
    split at h
    · rename_i count remember kept hdialog
      refine (finalizeCloseChoice_guarded hseated hs (fun kept' remember' heq id hid => ?_) h).1
      cases keepRunning with
      | true =>
        cases heq
        exact hspares count remember kept hdialog id hid
      | false => cases heq
    · exact Option.some.inj h ▸ hs
  | edit target dirty =>
    rw [← Option.some.inj h]
    exact hkeep (hs.rewrites (editPane_rewrites s target dirty) (editPane_dirty hs))
  | editorSave saved =>
    dsimp only at h
    split at h
    · exact Option.some.inj h ▸ hstay
    · split_ifs at h
      · exact Option.some.inj h ▸ hstay
      · obtain ⟨hrewrites, hdirty, -⟩ := s.saveEditorPane_spec s.live.activePane saved
        rw [← Option.some.inj h]
        exact hkeep (hs.rewrites hrewrites fun id hid => hs.dirty id (hdirty id hid))

lemma seedState_guarded (folder : String) (path : Option String) (defaultShell : ShellSpec) :
    (seedState (F := F) folder path defaultShell).Guarded where
  dirty id h := by cases h
  sessions x h := by cases h
  agents id h := by cases h

end
end AppState

section
variable {F : Type} [F32 F]

/-- **Main result.**  In a run whose commands all spare the unsaved changes, each command but those by which the user
gives them up leaves every editor with unsaved changes an editor of a tab, or has saved it. -/
theorem unsaved_kept {s : AppState F} (hseated : s.Seated) (hs : s.Guarded) {cs : List Command}
    (h : Along dispatch AppState.SparesUnsaved s cs) :
    Along dispatch (fun s c => AppState.discards c = false → ∀ t ∈ dispatch s c, s.KeepsUnsaved c t) s cs :=
  along_of_along (I := fun s => s.Seated ∧ s.Guarded)
    (fun _ _ _ hs hspares ht => ⟨hs.1.dispatch ht, (hs.2.dispatch hs.1 hspares ht).1⟩)
    (fun _ _ hs hspares hdiscards _ ht => (hs.2.dispatch hs.1 hspares ht).2 hdiscards) ⟨hseated, hs⟩ h

end

def notesTab : Command := .layout ⟨.addEditorTab ⟨"notes.txt", false, false, false⟩, rfl⟩

/-- an editor with unsaved changes, and its workspace removed -/
def removedNotes : List Command := [notesTab, .edit 2 true, .layout ⟨.removeWorkspace 0, rfl⟩]

/-- the editor is gone, and nobody was asked -/
theorem removedNotes_lost :
    (∃ t, exec (@dispatch ℚ Ui.exactF32) firstRun [notesTab, .edit 2 true] = some t ∧ t.dirtyEditor 2 = true) ∧
      (∃ t, exec (@dispatch ℚ Ui.exactF32) firstRun removedNotes = some t ∧ t.side.editors.contains 2 = false) ∧
      ¬ Along (@dispatch ℚ Ui.exactF32)
        (fun s c => AppState.discards c = false → ∀ t ∈ @dispatch ℚ Ui.exactF32 s c, s.KeepsUnsaved c t)
        firstRun removedNotes := by
  refine ⟨⟨_, rfl, by decide⟩, ⟨_, rfl, by decide⟩, fun h => ?_⟩
  have hkeeps := ((h.2 _ rfl).2 _ rfl).1 rfl _ rfl 2 (by decide)
  rcases hkeeps with ⟨hcontains, -⟩ | ⟨saved, paneIds, tab, heq, -⟩
  · revert hcontains
    decide
  · cases heq

theorem unsaved_kept_saved :
    Along (@dispatch ℚ Ui.exactF32)
      (fun s c => AppState.discards c = false → ∀ t ∈ @dispatch ℚ Ui.exactF32 s c, s.KeepsUnsaved c t)
      firstRun [notesTab, .edit 2 true, .requestCloseTab 1, .editorSaveClose [2]] := by
  let _ := Ui.exactF32
  refine unsaved_kept (AppState.seedState_seated _ _ _) (AppState.seedState_guarded _ _ _) ⟨⟨?_, trivial⟩, fun t ht => ?_⟩
  · intro id hid
    obtain rfl := List.mem_singleton.mp hid
    exact ⟨by decide, by decide, by decide, by decide⟩
  · obtain rfl := Option.some.inj ht
    refine ⟨trivial, fun t ht => ?_⟩
    obtain rfl := Option.some.inj ht
    refine ⟨trivial, fun t ht => ?_⟩
    obtain rfl := Option.some.inj ht
    refine ⟨fun paneIds idx hdialog _ id hid _ => ?_, fun _ _ => trivial⟩
    obtain ⟨rfl, htab⟩ := Prod.mk.inj (Option.some.inj hdialog)
    obtain rfl := Option.some.inj htab
    exact hid

end TerminalManager.App
