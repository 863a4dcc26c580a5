import TerminalManager.Lib.Transition
import TerminalManager.App.Panes
import TerminalManager.App.Workspaces

/-!
# The layout operations as one step function

* `Op`     one tab, pane or workspace operation, with what the PTY manager and the disk answer;
* `step`   its effect; none when an index is out of range.

A close that could be saved ends the process, so only the one whose save fails is a step.
-/

namespace TerminalManager.App
open Ui (F32)

inductive Op
  | addTab (spawned : SpawnResult)
  | addWorktreeTab (title : String) (spawned : SpawnResult)
  | addEditorTab (editor : EditorPane)
  | addFlowTab (pane : FlowPane)
  | addAgentTab (launch : AgentLaunch) (outcome : LaunchOutcome)
  | splitRight (target : PaneId) (spawned : SpawnResult)
  | splitDown (target : PaneId) (spawned : SpawnResult)
  | closePane (target : PaneId)
  | closeTab (index : Nat)
  | focusLeft
  | focusRight
  | focusUp
  | focusDown
  | focusPane (workspaceIdx : Nat) (target : PaneId)
  | extract (target : PaneId) (newTabIndex : Nat)
  | reorder (sourceTabId : String) (newIndex : Nat)
  | dropSplit (sourceTabId : String) (target : PaneId) (edge : DropZone)
  | moveToEdge (source target : PaneId) (edge : DropZone)
  | swap (a b : PaneId)
  | swapFromTab (sourceTabId : String) (target : PaneId)
  | switchTab (newIndex : Nat)
  | addWorkspace (path folder : Option String)
  | switchWorkspace (newIndex : Nat)
  | removeWorkspace (idx : Nat)
  | killWorkspaceTerminals (wsIdx : Nat)
  | killWorkspaceAgents (wsIdx : Nat)
  | killAll
  | killSession (sessionId : Nat)
  | closeUnsaved (choice : CloseChoice)
deriving DecidableEq, Repr

variable {F : Type} [F32 F]

def step (s : AppState F) : Op → Option (AppState F)
  | .addTab spawned => some (s.mutateAddTab spawned)
  | .addWorktreeTab title spawned => some (s.mutateAddWorktreeTab title spawned)
  | .addEditorTab editor => some (s.mutateAddEditorTab editor)
  | .addFlowTab pane => some (s.mutateAddFlowTab pane)
  | .addAgentTab launch outcome => some (s.mutateAddAgentTabWith launch outcome)
  | .splitRight target spawned => s.mutateSplitRight target spawned
  | .splitDown target spawned => s.mutateSplitDown target spawned
  | .closePane target => s.mutateClosePane target
  | .closeTab index => s.mutateCloseTab index
  | .focusLeft => s.mutateFocusLeft
  | .focusRight => s.mutateFocusRight
  | .focusUp => s.mutateFocusUp
  | .focusDown => s.mutateFocusDown
  | .focusPane workspaceIdx target => s.focusWorkspacePaneByIndex workspaceIdx target
  | .extract target newTabIndex => s.mutateExtractPaneToTab target newTabIndex
  | .reorder sourceTabId newIndex => s.mutateTabReorder sourceTabId newIndex
  | .dropSplit sourceTabId target edge => s.mutatePaneDropSplit sourceTabId target edge
  | .moveToEdge source target edge => s.mutatePaneMoveToEdge source target edge
  | .swap a b => s.mutatePaneSwap a b
  | .swapFromTab sourceTabId target => s.mutatePaneSwapFromTab sourceTabId target
  | .switchTab newIndex => s.mutateSwitchTab newIndex
  | .addWorkspace path folder => s.mutateAddWorkspaceWithPath path folder
  | .switchWorkspace newIndex => s.mutateSwitchWorkspace newIndex
  | .removeWorkspace idx => s.mutateRemoveWorkspace idx
  | .killWorkspaceTerminals wsIdx => some (s.mutateKillWorkspaceTerminals wsIdx)
  | .killWorkspaceAgents wsIdx => s.mutateKillWorkspaceAgents wsIdx
  | .killAll => some s.mutateKillAllTerminals
  | .killSession sessionId => some (s.mutateKillSessionId sessionId)
  | .closeUnsaved choice => s.finalizeCloseChoice choice false

end TerminalManager.App
