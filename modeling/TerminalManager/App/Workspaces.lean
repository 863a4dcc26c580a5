import TerminalManager.App.Tabs

/-!
# Operations on workspaces, and the kills

* `mutateSwitchWorkspace`, `mutateAddWorkspaceWithPath`, `mutateRemoveWorkspace`;
* `focusWorkspacePaneByIndex`           a pane focused wherever it is;
* `mutateKillWorkspaceTerminals`, `mutateKillWorkspaceAgents`, `mutateKillAllTerminals`;
* `retainTabPanes`                      a tab cut down to the panes that are kept;
* `mutateKillSessionId`, `prunePaneFromLayouts`;
* `finalizeCloseChoice`                 closing the app.
-/

namespace TerminalManager.App
open Ui (F32)

/-- a free workspace number: the next one, or the lowest when `u32` has no next -/
def allocateWorkspaceNum (used : List Nat) : Option Nat :=
  let highest := used.foldl max 0
  if highest + 1 < UInt32.size ∧ highest + 1 ∉ used then
    some (highest + 1)
  else
    let boundedEnd := min (min used.dedup.length (UInt32.size - 1) + 1) (UInt32.size - 1)
    ((List.range boundedEnd).map (· + 1)).find? fun n => decide (n ∉ used)

/-- the tabs of a workspace, as it has them stored -/
def Workspace.paneIds {F : Type} (ws : Workspace F) : List PaneId := ws.tabs.flatMap TerminalTab.paneIds

namespace PaneLayout
section
variable {F : Type}

/-- the pane taken out of the grid, and the rows that are left empty; the ratios stay as they are -/
def prune (l : PaneLayout F) (id : PaneId) : PaneLayout F :=
  { l with panes := (l.panes.map (·.filter (·.id != id))).filter (!·.isEmpty) }

variable [F32 F]

def positiveRatio (v : F) : Option F := if F32.isFinite v && F32.lt F32.zero v then some v else none

/-- the panes of a row that are kept, each with its ratio -/
def retainRow (kept : PaneId → Bool) (row : List Pane) (ratios : List F) : List (Pane × F) :=
  (row.zipIdx.filter fun (p, _) => kept p.id).map fun (p, c) =>
    (p, (ratios[c]?.bind positiveRatio).getD F32.one)

/-- the rows with a pane that is kept, each with its ratio -/
def retainRows (kept : PaneId → Bool) (l : PaneLayout F) : List (List (Pane × F) × F) :=
  l.panes.zipIdx.filterMap fun (row, r) =>
    let cells := retainRow kept row (l.colRatios[r]?.getD [])
    if cells.isEmpty then none else some (cells, (l.rowRatios[r]?.bind positiveRatio).getD F32.one)

/-- the layout cut down to the panes that are kept; none when there is no such pane -/
def retain (kept : PaneId → Bool) (l : PaneLayout F) : Option (PaneLayout F) :=
  let rows := retainRows kept l
  let panes := rows.map fun (cells, _) => cells.map Prod.fst
  match panes.flatten with
  | [] => none
  | first :: _ =>
    some
      { panes
        activePane := if panes.flatten.any (·.id == l.activePane) then l.activePane else first.id
        rowRatios := rows.map Prod.snd
        colRatios := rows.map fun (cells, _) => cells.map Prod.snd }

end
end PaneLayout

namespace TerminalTab
variable {F : Type}

def retainTabPanes [F32 F] (kept : PaneId → Bool) (t : TerminalTab F) : Option (TerminalTab F) :=
  (t.layout.retain kept).map fun layout => { t with layout }

def prune (t : TerminalTab F) (id : PaneId) : TerminalTab F := { t with layout := t.layout.prune id }

end TerminalTab

/-- the tabs with a pane that is kept -/
def retainTabs {F : Type} [F32 F] (kept : PaneId → Bool) (tabs : List (TerminalTab F)) :
    List (TerminalTab F) := tabs.filterMap (·.retainTabPanes kept)

def Workspace.retain {F : Type} [F32 F] (kept : PaneId → Bool) (ws : Workspace F) : Workspace F :=
  let tabs := retainTabs kept ws.tabs
  { ws with tabs, activeTab := if tabs.isEmpty then 0 else min ws.activeTab (tabs.length - 1) }

/-- how the app is closed -/
inductive CloseChoice
  | keepRunning (keptPaneIds : Option (List PaneId)) (remember : Bool)
  | killAll (remember : Bool)
deriving DecidableEq, Repr

namespace PaneTables

/-- `mutate_kill_all_terminals`: the editors go as well, the flows and the tags stay -/
def killAll (t : PaneTables) : PaneTables :=
  { t with
    sessions := t.sessions.filter fun (id, _) => !t.terminals.contains id
    terminals := ∅
    editors := ∅
    agentRestarts := ∅
    pendingAgentResumes := ∅
    agentResumeAttempts := ∅
    agentResumePreflights := ∅ }

/-- the recovery records of the panes that are kept -/
def retainAgents (t : PaneTables) (kept : PaneId → Bool) : PaneTables :=
  { t with
    agentRestarts := t.agentRestarts.retain kept
    pendingAgentResumes := t.pendingAgentResumes.retain kept
    agentResumeAttempts := t.agentResumeAttempts.retain kept
    agentResumePreflights := t.agentResumePreflights.retain kept }

/-- the PTY and the terminal of a pane, nothing else -/
def stopTerminal (t : PaneTables) (id : PaneId) : PaneTables :=
  let t := t.destroy id
  { t with terminals := t.terminals.remove id }

end PaneTables

namespace AppState
section
variable {F : Type}

def mutateSwitchWorkspace (s : AppState F) (newIndex : Nat) : Option (AppState F) :=
  if s.workspaces.length ≤ newIndex ∨ newIndex = s.activeWorkspace then
    some s
  else
    loadWorkspaceState { s.saveWorkspaceState with activeWorkspace := newIndex }

/-- `folder` is the last component of `path` -/
def mutateAddWorkspaceWithPath (s : AppState F) (path folder : Option String) : Option (AppState F) :=
  match allocateWorkspaceNum (s.workspaces.map Workspace.num) with
  | none => some s
  | some num =>
    let name := folder.getD ("workspace-" ++ toString num)
    mutateSwitchWorkspace { s with workspaces := s.workspaces ++ [newWorkspace num name path] }
      s.workspaces.length

def mutateRemoveWorkspace (s : AppState F) (idx : Nat) : Option (AppState F) :=
  if s.workspaces.length ≤ 1 ∨ s.workspaces.length ≤ idx then
    some s
  else do
    let t := s.saveWorkspaceState
    let ws ← t.workspaces[idx]?
    let workspaces := t.workspaces.eraseIdx idx
    loadWorkspaceState
      { t with
        side := ws.paneIds.foldl .closePaneTables t.side
        workspaces
        activeWorkspace :=
          if t.activeWorkspace = idx then min idx (workspaces.length - 1)
          else if idx < t.activeWorkspace then t.activeWorkspace - 1
          else t.activeWorkspace }

def paneTabIndexForWorkspace (s : AppState F) (workspaceIdx : Nat) (target : PaneId) : Option Nat :=
  if workspaceIdx = s.activeWorkspace then
    if s.live.ids.contains target then
      some s.activeTab
    else
      (s.tabs.zipIdx.find? fun (t, i) => i ≠ s.activeTab ∧ t.paneIds.contains target).map Prod.snd
  else
    s.workspaces[workspaceIdx]?.bind fun ws => ws.tabs.findIdx? (·.paneIds.contains target)

/-- the focus and the attention of a pane of the active tab, in the live fields and in the tab list -/
def focusActiveTabPane (s : AppState F) (target : PaneId) : AppState F :=
  { s with
    live := { s.live with activePane := target }
    tabs := s.tabs.modify s.activeTab fun t => { t with layout := { t.layout with activePane := target } }
    side := { s.side with attentionPaneIds := s.side.attentionPaneIds.remove target } }

def focusWorkspacePaneByIndex (s : AppState F) (workspaceIdx : Nat) (target : PaneId) :
    Option (AppState F) :=
  if workspaceIdx ≠ s.activeWorkspace ∧ s.workspaces.length ≤ workspaceIdx then
    some s
  else
    match s.paneTabIndexForWorkspace workspaceIdx target with
    | none => some s
    | some tabIdx =>
      let switched := if workspaceIdx = s.activeWorkspace then some s else s.mutateSwitchWorkspace workspaceIdx
      switched.bind fun s =>
        let switched := if tabIdx < s.tabs.length ∧ tabIdx ≠ s.activeTab then s.mutateSwitchTab tabIdx else some s
        switched.map (·.focusActiveTabPane target)

/-- the pane ids of the active workspace: the live ones and those of its other tabs -/
def activePaneIds (s : AppState F) : List PaneId :=
  s.live.ids ++ (s.tabs.eraseIdx s.activeTab).flatMap TerminalTab.paneIds

def workspacePaneIds (s : AppState F) (wsIdx : Nat) : List PaneId :=
  match s.workspaces[wsIdx]? with
  | none => []
  | some ws => if wsIdx = s.activeWorkspace then s.activePaneIds else ws.paneIds

/-- the tabs of one workspace emptied, live fields included -/
def emptyWorkspace (s : AppState F) (wsIdx : Nat) : AppState F :=
  let s := if wsIdx = s.activeWorkspace then s.clearTabs else s
  { s with workspaces := s.workspaces.modify wsIdx fun ws => { ws with tabs := [], activeTab := 0 } }

def mutateKillWorkspaceTerminals (s : AppState F) (wsIdx : Nat) : AppState F :=
  if s.workspaces.length ≤ wsIdx then
    s
  else
    { s with side := (s.workspacePaneIds wsIdx).foldl .killPaneTables s.side }.emptyWorkspace wsIdx

/-- every pane id: `close_app_pane_ids` -/
def closeAppPaneIds (s : AppState F) : List PaneId :=
  if s.workspaces.isEmpty then
    s.live.ids
  else
    s.workspaces.zipIdx.flatMap fun (ws, i) => if i = s.activeWorkspace then s.activePaneIds else ws.paneIds

def mutateKillAllTerminals (s : AppState F) : AppState F :=
  clearTabs
    { s with
      side := s.side.killAll
      workspaces := s.workspaces.map fun ws => { ws with tabs := [], activeTab := 0 } }

def prunePaneFromLayouts (s : AppState F) (id : PaneId) : AppState F :=
  { s with
    side := s.side.forgetAgentRestore id
    live := s.live.prune id
    tabs := s.tabs.modify s.activeTab (·.prune id)
    workspaces := s.workspaces.map fun ws => { ws with tabs := ws.tabs.map (·.prune id) } }

/-- a session without a pane is killed by the daemon alone -/
def mutateKillSessionId (s : AppState F) (sessionId : Nat) : AppState F :=
  match s.side.sessions.find? fun (_, sid) => sid == sessionId with
  | some (id, _) => { s with side := s.side.stopTerminal id }.prunePaneFromLayouts id
  | none => s

variable [F32 F]

def pruneCloseLayoutToKeptPanes (s : AppState F) (kept : PaneId → Bool) : Option (AppState F) :=
  let s := { s with side := s.side.retainAgents kept }
  if s.workspaces.isEmpty then
    let s := s.saveTabState
    let tabs := retainTabs kept s.tabs
    if tabs.isEmpty then
      some s.clearTabs
    else
      loadTabState { s with tabs, activeTab := min s.activeTab (tabs.length - 1) }
  else
    let s := s.saveWorkspaceState
    loadWorkspaceState { s with workspaces := s.workspaces.map (Workspace.retain kept) }

def workspaceAgentPaneIds (s : AppState F) (wsIdx : Nat) : List PaneId :=
  (s.workspacePaneIds wsIdx).filter s.isAgentPane

def mutateKillWorkspaceAgents (s : AppState F) (wsIdx : Nat) : Option (AppState F) :=
  let agentIds := s.workspaceAgentPaneIds wsIdx
  if agentIds.isEmpty then
    some s
  else
    let kept id := s.closeAppPaneIds.contains id && !agentIds.contains id
    pruneCloseLayoutToKeptPanes { s with side := agentIds.foldl .killAgentTables s.side } kept

def rememberClose (s : AppState F) (remember killAll : Bool) : AppState F :=
  if remember then
    { s with
      toggles := (s.toggles.insert .rememberCloseChoice true).insert .killAllOnClose killAll }
  else
    s

/-- the panes that are not kept lose their process, and the layout is cut down to the others -/
def keepPanes (s : AppState F) (kept : List PaneId) : Option (AppState F) :=
  let doomed := s.closeAppPaneIds.filter (!kept.contains ·)
  pruneCloseLayoutToKeptPanes { s with side := doomed.foldl .stopTerminal s.side } kept.contains

/-- `finalize_close_choice_with`; `saved` is what the disk answers.  When it is false the app goes on. -/
def finalizeCloseChoice (s : AppState F) (choice : CloseChoice) (saved : Bool) : Option (AppState F) :=
  let s := { s with confirmDialog := none }
  match choice with
  | .keepRunning kept remember => do
    let s := s.rememberClose remember false
    let s ← match kept with
      | some kept => s.keepPanes kept
      | none => some s
    if saved then some { s with side := { s.side with terminals := ∅ } } else some s
  | .killAll remember => some (s.rememberClose remember true).mutateKillAllTerminals

end
end AppState
end TerminalManager.App
