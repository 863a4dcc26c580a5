import TerminalManager.Lib.Table
import TerminalManager.App.Grid

/-!
# The app state

The state of the UI that the layout operations read and write.  The truth about the active tab is in
the live fields (`live`), not in `tabs`; the tabs of the active workspace are in `tabs`, not in
`workspaces`.  Everything that is kept by pane id is in the side tables (`PaneTables`).

* `PaneTables`                          the maps and sets keyed by pane id;
* `closePaneTables`, `killPaneTables`   what a closed, a killed pane takes with it;
* `AppState`                            the state;
* `saveTabState` … `loadWorkspaceState` the copies between the live fields and the lists;
* `seedState`                           the state of a first run.

What is left out: what only the renderer reads, telemetry, the explorer and the file index, and the
reader threads of the terminals.
-/

namespace TerminalManager.App
open Ui (F32)

inductive AgentKind
  | claude | codex
deriving DecidableEq, Repr

inductive AgentResumeMode
  | interactive | codexExec
deriving DecidableEq, Repr

inductive AgentLaunchPhase
  | confirmed | pendingManual | confirmingResume
deriving DecidableEq, Repr

structure AgentRestart where
  agent : AgentKind
  cwd : String
  resumeMode : AgentResumeMode
  sessionId : Option String
  observedAtUnixMs : Nat
  managed : Bool
  launchPhase : AgentLaunchPhase
deriving DecidableEq, Repr

structure ResumeCandidate where
  agent : AgentKind
  cwd : String
  resumeMode : AgentResumeMode
  sessionId : String
deriving DecidableEq, Repr

structure AgentResumeAttempt where
  candidate : ResumeCandidate
  readerGeneration : Nat
deriving DecidableEq, Repr

inductive AgentTagSource
  | launched | hook | title | process
deriving DecidableEq, Repr

structure AgentTag where
  profile : String
  source : AgentTagSource
deriving DecidableEq, Repr

structure EditorPane where
  displayName : String
  dirty : Bool
  isDiff : Bool
  readOnly : Bool
deriving DecidableEq, Repr

structure FlowPane where
  title : String
deriving DecidableEq, Repr

structure PendingFlow where
  mode : String
deriving DecidableEq, Repr

/-- what is kept by pane id -/
structure PaneTables where
  /-- the sessions of the PTY manager: pane and daemon session -/
  sessions : List (PaneId × Nat)
  terminals : Table PaneId Unit
  editors : Table PaneId EditorPane
  flows : Table PaneId FlowPane
  flowPending : Table PaneId PendingFlow
  agentRestarts : Table PaneId AgentRestart
  pendingAgentResumes : Table PaneId ResumeCandidate
  agentResumeAttempts : Table PaneId AgentResumeAttempt
  agentResumePreflights : Table PaneId AgentLaunchPhase
  paneAgents : Table PaneId AgentTag
  attentionPaneIds : Table PaneId Unit
  customTitledPanes : Table PaneId Unit
deriving DecidableEq, Repr

namespace PaneTables

def new : PaneTables := ⟨[], ∅, ∅, ∅, ∅, ∅, ∅, ∅, ∅, ∅, ∅, ∅⟩

def isAgentPane (t : PaneTables) (id : PaneId) : Bool :=
  t.agentRestarts.contains id || t.paneAgents.contains id

/-- `DaemonPty::destroy` -/
def destroy (t : PaneTables) (id : PaneId) : PaneTables :=
  { t with sessions := t.sessions.filter (·.1 != id) }

def forgetAgentRestore (t : PaneTables) (id : PaneId) : PaneTables :=
  { t with
    flowPending := t.flowPending.remove id
    paneAgents := t.paneAgents.remove id
    attentionPaneIds := t.attentionPaneIds.remove id
    agentRestarts := t.agentRestarts.remove id
    pendingAgentResumes := t.pendingAgentResumes.remove id
    agentResumeAttempts := t.agentResumeAttempts.remove id
    agentResumePreflights := t.agentResumePreflights.remove id }

/-- a killed terminal pane: its session, its terminal, its agent -/
def killTerminal (t : PaneTables) (id : PaneId) : PaneTables :=
  let t := t.destroy id
  { t with terminals := t.terminals.remove id }.forgetAgentRestore id

/-- a closed terminal pane also gives up its name -/
def closeTerminal (t : PaneTables) (id : PaneId) : PaneTables :=
  { t.killTerminal id with customTitledPanes := t.customTitledPanes.remove id }

/-- an editor and a flow pane are in their own table; any other pane is a terminal -/
def dropPane (terminal : PaneTables → PaneId → PaneTables) (t : PaneTables) (id : PaneId) : PaneTables :=
  if t.editors.contains id then
    { t with editors := t.editors.remove id }
  else if t.flows.contains id then
    { t with flows := t.flows.remove id }
  else
    terminal t id

/-- the teardown of a closed pane -/
def closePaneTables (t : PaneTables) (id : PaneId) : PaneTables := dropPane closeTerminal t id

/-- the teardown of `mutate_kill_workspace_terminals`, which keeps the names -/
def killPaneTables (t : PaneTables) (id : PaneId) : PaneTables := dropPane killTerminal t id

/-- the teardown of `mutate_kill_workspace_agents`, which looks for no editor -/
def killAgentTables (t : PaneTables) (id : PaneId) : PaneTables :=
  if t.flows.contains id then { t with flows := t.flows.remove id } else t.closeTerminal id

end PaneTables

structure TerminalTab (F : Type) where
  id : String
  name : String
  subtitle : String
  layout : PaneLayout F
deriving DecidableEq, Repr

structure ShellSpec where
  program : String
  args : List String
deriving DecidableEq, Repr

structure Workspace (F : Type) where
  num : Nat
  name : String
  path : Option String
  collapsed : Bool
  shell : ShellSpec
  tabs : List (TerminalTab F)
  activeTab : Nat
deriving DecidableEq, Repr

inductive ToggleKey
  | rememberCloseChoice | killAllOnClose | worktreeTabs | autoResumeAgents | startAtLogin
  | startAtLoginStale | checkUpdatesOnStartup | forceSoftwareRenderer
deriving DecidableEq, Repr

/-- the dialogs that the layout commands open and resolve -/
inductive ConfirmDialog
  | killWorkspace (workspaceIdx : Nat) (name : String)
  | killAll (count : Nat)
  | killAgents (workspaceIdx : Nat) (name : String) (count : Nat)
  | closeApp (count : Nat) (remember : Bool) (keptPaneIds : List PaneId)
  | renameSession (paneId : PaneId) (buffer : String)
  | closeEditor (paneIds : List PaneId) (names : List String) (tab : Option Nat)
deriving DecidableEq, Repr

structure AppState (F : Type) where
  workspaces : List (Workspace F)
  activeWorkspace : Nat
  /-- the tabs of the active workspace -/
  tabs : List (TerminalTab F)
  activeTab : Nat
  /-- the layout of the active tab: `panes`, `active_pane`, `row_ratios` and `col_ratios` -/
  live : PaneLayout F
  nextId : Nat
  side : PaneTables
  confirmDialog : Option ConfirmDialog
  toggles : Table ToggleKey Bool
  defaultShell : ShellSpec
  updatePromptedVersion : Option String
deriving DecidableEq, Repr

/-- `format!("t{}", id)` -/
def tabId (id : PaneId) : String := "t" ++ toString id

namespace TerminalTab
variable {F : Type}

def paneIds (t : TerminalTab F) : List PaneId := t.layout.ids

end TerminalTab

namespace AppState
variable {F : Type}

def isAgentPane (s : AppState F) (id : PaneId) : Bool := s.side.isAgentPane id

def saveTabState (s : AppState F) : AppState F :=
  { s with tabs := s.tabs.modify s.activeTab ({ · with layout := s.live }) }

/-- indexes `tabs` -/
def loadTabState (s : AppState F) : Option (AppState F) :=
  s.tabs[s.activeTab]?.map fun t => { s with live := t.layout }

def syncLiveTabFromPanes (s : AppState F) : AppState F :=
  { s with tabs := s.tabs.modify s.activeTab ({ · with layout := s.live }) }

/-- no tab, and nothing in the live fields -/
def clearTabs (s : AppState F) : AppState F := { s with tabs := [], activeTab := 0, live := .empty }

def saveWorkspaceState (s : AppState F) : AppState F :=
  let s := s.saveTabState
  { s with
    workspaces := s.workspaces.modify s.activeWorkspace fun ws =>
      { ws with tabs := s.tabs, activeTab := s.activeTab } }

def loadWorkspaceState (s : AppState F) : Option (AppState F) :=
  match s.workspaces[s.activeWorkspace]? with
  | none => some s
  | some ws =>
    if ws.tabs.isEmpty then
      some s.clearTabs
    else
      { s with tabs := ws.tabs, activeTab := min ws.activeTab (ws.tabs.length - 1) }.loadTabState

/-- keep the group (agents or not) when a mixed split is loaded -/
def focusTabGroup (s : AppState F) (agents : Bool) : Option (AppState F) :=
  if s.isAgentPane s.live.activePane = agents then
    some s
  else
    match s.live.flat.find? fun p => s.isAgentPane p.id == agents with
    | none => some s
    | some p =>
      if s.activeTab < s.tabs.length then
        some
          { s with
            live := { s.live with activePane := p.id }
            tabs := s.tabs.modify s.activeTab fun t =>
              { t with layout := { t.layout with activePane := p.id } } }
      else
        none

/-- some pane of the tab is in the group (agents or not) -/
def tabInGroup (s : AppState F) (agents : Bool) (index : Nat) : Bool :=
  s.tabs[index]?.any fun t => t.layout.flat.any fun p => s.isAgentPane p.id == agents

/-- the tab after a removal: this slot, then later tabs, then earlier ones of the same group -/
def tabAfterClose (s : AppState F) (agents : Bool) (start : Nat) : Nat :=
  ((List.range' start (s.tabs.length - start) ++ (List.range start).reverse).find?
    (s.tabInGroup agents)).getD start

def loadTabAfterClose (s : AppState F) (agents : Bool) : Option (AppState F) := do
  let start := min s.activeTab (s.tabs.length - 1)
  let s ← { s with activeTab := s.tabAfterClose agents start }.loadTabState
  s.focusTabGroup agents

/-- the id that the next pane gets: a `u32` counter that wraps -/
def bump (id : Nat) : Nat := (id + 1) % UInt32.size

end AppState

def newWorkspace {F : Type} (num : Nat) (name : String) (path : Option String) : Workspace F :=
  { num, name, path, collapsed := false, shell := ⟨"", []⟩, tabs := [], activeTab := 0 }

section
variable {F : Type} [F32 F]

def TerminalTab.new (id : PaneId) (title subtitle : String) : TerminalTab F :=
  { id := tabId id, name := title, subtitle, layout := .single ⟨id, title, subtitle⟩ }

/-- the state of a first run, in the folder `path` named `folder` -/
def seedState (folder : String) (path : Option String) (defaultShell : ShellSpec) : AppState F where
  workspaces :=
    [newWorkspace 1 folder path, newWorkspace 2 "api" none, { newWorkspace 3 "infra" none with collapsed := true },
      { newWorkspace 4 "scratch" none with collapsed := true }]
  activeWorkspace := 0
  tabs := [.new 1 "shell" "bash"]
  activeTab := 0
  live := .single ⟨1, "shell", "bash"⟩
  nextId := 2
  side := .new
  confirmDialog := none
  toggles := ⟨[(.rememberCloseChoice, false), (.killAllOnClose, false), (.worktreeTabs, false),
    (.autoResumeAgents, false), (.startAtLogin, false), (.startAtLoginStale, false),
    (.checkUpdatesOnStartup, true), (.forceSoftwareRenderer, false)]⟩
  defaultShell
  updatePromptedVersion := none

end
end TerminalManager.App
