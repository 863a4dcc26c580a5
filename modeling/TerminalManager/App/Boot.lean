import TerminalManager.App.Persist
import TerminalManager.App.Shape

/-!
# The states that the app starts in

* `Boot`                       the state of a first run, and what a snapshot is restored to;
* `terminalTabFromPersisted_shaped`, `Shape.restoreLayout`   what is restored has its shape, whatever
                               was saved;
* `layouts_keep_shape`         the shape of every state of a run, and that no index is out of range.
-/

namespace TerminalManager.App
open Ui (F32)
open Editor (CharTable)
open Transition

section
variable {F : Type} [F32 F]

lemma normalizedRowRatios_length (panes : List (List Pane)) (saved : List F) :
    (normalizedRowRatios panes saved).length = panes.length := by
  unfold normalizedRowRatios
  split_ifs with h
  · exact h.1
  · exact List.length_replicate

lemma normalizedColRatios_lengths (panes : List (List Pane)) (saved : List (List F)) :
    Ragged.lengths (normalizedColRatios panes saved) = Ragged.lengths panes := by
  unfold normalizedColRatios
  split_ifs with h
  · exact h.1
  · unfold Ragged.lengths
    rw [List.map_map]
    exact List.map_congr_left fun row _ => List.length_replicate

/-- a tab that is restored is in shape -/
lemma terminalTabFromPersisted_shaped {pt : PersistedTab F} {t : TerminalTab F}
    (h : terminalTabFromPersisted pt = some t) : t.layout.Shaped := by
  unfold terminalTabFromPersisted at h
  obtain ⟨panes, hpanes⟩ : ∃ panes, panes = (pt.panes.map (·.map paneFromPersisted)).filter (!·.isEmpty) := ⟨_, rfl⟩
  simp only [← hpanes] at h
  cases hflat : panes.flatten with
  | nil =>
    rw [hflat] at h
    cases h
  | cons first rest =>
    simp only [hflat] at h
    rw [← Option.some.inj h]
    refine ⟨⟨normalizedRowRatios_length .., normalizedColRatios_lengths .., fun row hrow hnil => ?_⟩, ?_⟩
    · have hmem : row ∈ panes := hrow
      rw [hpanes] at hmem
      have hkept := (List.mem_filter.mp hmem).2
      rw [hnil] at hkept
      cases hkept
    · show Option.getD _ _ ∈ panes.flatten.map Pane.id
      rw [hflat]
      cases hfind : ((first :: rest).map Pane.id).find? (· == pt.activePane) with
      | none => exact List.mem_cons_self
      | some id => exact List.mem_of_find?_eq_some hfind

/-- every restored tab is one that was saved, in shape -/
lemma restoreEntries_shaped {used : List Nat} {entries : List (PersistedWorkspace F)} :
    ∀ x ∈ restoreEntries used entries, ∀ t ∈ x.1.tabs, t.layout.Shaped := by
  induction entries generalizing used with
  | nil => exact fun x hx => by cases hx
  | cons entry rest ih =>
    unfold restoreEntries
    cases restoredNum used entry.num with
    | none => exact ih
    | some num =>
      intro x hx t ht
      rcases List.mem_cons.mp hx with rfl | hx
      · obtain ⟨pt, -, hpt⟩ := List.mem_filterMap.mp ht
        exact terminalTabFromPersisted_shaped hpt
      · exact ih x hx t ht

namespace AppState

lemma Shape.seedFreshTerminalTab {s : AppState F} (hs : s.Shape) (id : PaneId) :
    (s.seedFreshTerminalTab id).Shape where
  tabs t ht := by
    rw [List.mem_singleton.mp ht]
    exact PaneLayout.single_shaped _
  workspaces := by
    apply shaped_modifyWorkspace hs.workspaces
    intro ws t ht
    rw [List.mem_singleton.mp ht]
    exact PaneLayout.single_shaped _
  active _ := Nat.zero_lt_one
  live _ := PaneLayout.single_shaped _
  bare h := absurd h (List.cons_ne_nil _ _)

omit [F32 F] in
lemma Shape.withNextId {s : AppState F} (hs : s.Shape) (nextId : Nat) : Shape { s with nextId } :=
  ⟨⟨hs.tabs, hs.workspaces⟩, hs.active, hs.live, hs.bare⟩

/-- what is restored is in shape, whatever was saved -/
lemma Shape.restoreLayout {s : AppState F} (hs : s.Shape) (absolute : String → Bool) (t : CharTable)
    (persisted : PersistedState F) : ∃ u, s.restoreLayout absolute t persisted = some u ∧ u.Shape := by
  unfold AppState.restoreLayout
  by_cases hempty : persisted.workspaces.isEmpty
  · rw [if_pos hempty]
    exact ⟨s, rfl, hs⟩
  · rw [if_neg hempty]
    have hentries : ∀ ws ∈ (restoreEntries [] persisted.workspaces).map Prod.fst, ∀ t ∈ ws.tabs, t.layout.Shaped := by
      intro ws hws
      obtain ⟨x, hx, rfl⟩ := List.mem_map.mp hws
      exact restoreEntries_shaped x hx
    obtain ⟨u, hu, hshape⟩ := ((hs.withSide { s.side with
        customTitledPanes := _, agentRestarts := _, paneAgents := _, pendingAgentResumes := ∅
        agentResumeAttempts := ∅, agentResumePreflights := ∅ }).withWorkspaces _ hentries).loadWorkspaceState
    show ∃ v, Option.bind (AppState.loadWorkspaceState _) _ = some v ∧ _
    rw [hu]
    show ∃ v, (if u.live.flat.isEmpty then _ else _) = some v ∧ _
    by_cases hbare : u.live.flat.isEmpty
    · rw [if_pos hbare]
      exact ⟨_, rfl, (hshape.seedFreshTerminalTab _).withNextId _⟩
    · rw [if_neg hbare]
      exact ⟨_, rfl, hshape.withNextId _⟩

lemma seedState_shape (folder : String) (path : Option String) (defaultShell : ShellSpec) :
    (seedState (F := F) folder path defaultShell).Shape where
  tabs t ht := by
    rw [List.mem_singleton.mp ht]
    exact PaneLayout.single_shaped _
  workspaces ws hws t ht := by
    have htabs : ws.tabs = [] := by
      revert ws
      simp [seedState, newWorkspace]
    rw [htabs] at ht
    cases ht
  active _ := Nat.zero_lt_one
  live _ := PaneLayout.single_shaped _
  bare h := absurd h (List.cons_ne_nil _ _)

end AppState

/-- the state of a first run, or one that a snapshot is restored to -/
inductive Boot : AppState F → Prop
  | seed (folder : String) (path : Option String) (defaultShell : ShellSpec) :
    Boot (seedState folder path defaultShell)
  | restored (folder : String) (path : Option String) (defaultShell : ShellSpec) (absolute : String → Bool)
      (t : CharTable) (persisted : PersistedState F) {s : AppState F}
      (h : (seedState folder path defaultShell).restoreLayout absolute t persisted = some s) : Boot s

lemma Boot.shape {s : AppState F} (h : Boot s) : s.Shape := by
  cases h with
  | seed folder path defaultShell => exact AppState.seedState_shape folder path defaultShell
  | restored folder path defaultShell absolute t persisted h =>
    obtain ⟨u, hu, hshape⟩ :=
      (AppState.seedState_shape folder path defaultShell).restoreLayout absolute t persisted
    obtain rfl := Option.some.inj (h.symm.trans hu)
    exact hshape

/-- **Main result.**  The steps of a run index in range and every state has its shape exactly when no step
prunes a pane out of a layout that has it, nor focuses a pane that the stored copy lacks. -/
theorem layouts_keep_shape {s : AppState F} (h : Boot s) (ops : List Op) :
    ((∃ t, exec step s ops = some t) ∧ Throughout step AppState.Shape s ops) ↔
      Along step AppState.KeepsShape s ops :=
  h.shape.run_iff ops

end

/-- the app of a first run, with exact arithmetic -/
def firstRun : AppState ℚ := @seedState ℚ Ui.exactF32 "app" none ⟨"", []⟩

/-- a split, and the session of the new pane killed -/
def killedSplit : List Op := [.splitRight 1 (.ok 5 0), .killSession 5]

/-- one pane is left, with two ratios, and the focus is on the pane that is gone -/
theorem killedSplit_shape :
    (∃ t, exec (@step ℚ Ui.exactF32) firstRun killedSplit = some t ∧ t.live.ids = [1] ∧
      t.live.activePane = 2 ∧ Ragged.lengths t.live.colRatios = [2]) ∧
    ¬ Throughout (@step ℚ Ui.exactF32) AppState.Shape firstRun killedSplit := by
  refine ⟨⟨_, rfl, by decide, by decide, by decide⟩, fun h => ?_⟩
  have hshape := (h.2.2 _ rfl).1 _ rfl
  have hfocus := (hshape.live (List.cons_ne_nil _ _)).focused
  revert hfocus
  decide

theorem layouts_keep_shape_split :
    letI := Ui.exactF32
    ((∃ t, exec step firstRun [.splitRight 1 (.ok 5 0), .closePane 2] = some t) ∧
        Throughout step AppState.Shape firstRun [.splitRight 1 (.ok 5 0), .closePane 2]) ↔
      Along step AppState.KeepsShape firstRun [.splitRight 1 (.ok 5 0), .closePane 2] :=
  letI := Ui.exactF32
  layouts_keep_shape (.seed "app" none ⟨"", []⟩) _

end TerminalManager.App
