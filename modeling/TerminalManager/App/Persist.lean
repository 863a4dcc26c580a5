import TerminalManager.App.Agents
import TerminalManager.App.Workspaces

/-!
# What is saved, and how it is restored

* `fromState`            the snapshot of a state: the tabs of every workspace, with the live layout for
                         the active one, without the editors and the flows;
* `stripTransientPanes`  a tab without some of its panes, their ratios absorbed by a neighbour;
* `persistedAgentLabel`  the label that is saved for a pane or a tab of an agent;
* `restoreLayout`        the state that a snapshot is restored to.

`absolute` is `Path::is_absolute` of the platform.
-/

namespace TerminalManager.App
open Ui (F32)
open Editor (CharTable)

structure PersistedPane where
  id : PaneId
  title : String
  subtitle : String
  customTitle : Bool
  agentRestart : Option AgentRestart
  agentTag : Option AgentTag
deriving DecidableEq, Repr

structure PersistedTab (F : Type) where
  id : String
  name : String
  subtitle : String
  panes : List (List PersistedPane)
  activePane : PaneId
  rowRatios : List F
  colRatios : List (List F)
deriving DecidableEq, Repr

structure PersistedWorkspace (F : Type) where
  num : Nat
  name : String
  path : Option String
  collapsed : Bool
  shell : ShellSpec
  tabs : List (PersistedTab F)
  activeTab : Nat
deriving DecidableEq, Repr

structure PersistedState (F : Type) where
  workspaces : List (PersistedWorkspace F)
  activeWorkspace : Nat
  rememberCloseChoice : Bool
  killAllOnClose : Bool
  worktreeTabs : Bool
  autoResumeAgents : Bool
  forceSoftwareRenderer : Bool
  defaultShell : ShellSpec
  checkUpdatesOnStartup : Option Bool
  updatePromptedVersion : Option String
deriving DecidableEq, Repr

/-! ## saving -/

/-- the label on disk: that of the profile for an agent that the app launched, unless the user named it -/
def persistedAgentLabel (live : String) (managedAgent : Option AgentKind) (agentTag : Option AgentTag)
    (custom : Bool) : String :=
  let launched := agentTag.filter (·.source = .launched)
  match managedAgent, launched with
  | some agent, some tag => if "qp: ".toList.isPrefixOf live.toList then "qp: " ++ agent.label else tag.label
  | some agent, none => "qp: " ++ agent.label
  | none, some tag => if custom then live else tag.label
  | none, none => live

namespace PaneTables

def managed (t : PaneTables) (id : PaneId) : Option AgentRestart := (t.agentRestarts.get id).filter (·.managed)

def launchedTag (t : PaneTables) (id : PaneId) : Option AgentTag :=
  (t.paneAgents.get id).filter (·.source = .launched)

def persistedPane (t : PaneTables) (pane : Pane) : PersistedPane :=
  let managedAgent := (t.managed pane.id).map (·.agent)
  let custom := t.customTitledPanes.contains pane.id
  { id := pane.id
    title := persistedAgentLabel pane.title managedAgent (t.paneAgents.get pane.id) (managedAgent.isNone && custom)
    subtitle := pane.subtitle
    customTitle := managedAgent.isNone && custom
    agentRestart := t.agentRestarts.get pane.id
    agentTag := t.paneAgents.get pane.id }

def persistedRows (t : PaneTables) (rows : List (List Pane)) : List (List PersistedPane) :=
  rows.map (·.map t.persistedPane)

/-- the agent, the tag and the rename flag that label a tab: those of its first managed pane, else of its
first launched one -/
def tabAgent (t : PaneTables) (panes : List Pane) : Option AgentKind × Option AgentTag × Bool :=
  match panes.findSome? fun p => (t.managed p.id).map fun restart => (p.id, restart) with
  | some (id, restart) => (some restart.agent, t.paneAgents.get id, false)
  | none =>
    match panes.findSome? fun p => (t.launchedTag p.id).map fun tag => (p.id, tag) with
    | some (id, tag) => (none, some tag, t.customTitledPanes.contains id)
    | none => (none, none, false)

def persistedTab {F : Type} (t : PaneTables) (tab : TerminalTab F) : PersistedTab F :=
  let (managedAgent, tag, custom) := t.tabAgent tab.layout.flat
  { id := tab.id
    name := persistedAgentLabel tab.name managedAgent tag custom
    subtitle := tab.subtitle
    panes := t.persistedRows tab.layout.panes
    activePane := tab.layout.activePane
    rowRatios := tab.layout.rowRatios
    colRatios := tab.layout.colRatios }

/-- the panes that are not saved -/
def transient (t : PaneTables) (id : PaneId) : Bool := t.editors.contains id || t.flows.contains id

def noTransient (t : PaneTables) : Bool := t.editors.isEmpty && t.flows.isEmpty

end PaneTables

section
variable {F : Type} [F32 F]

/-- a ratio taken out, when there is one at `idx`, and absorbed by its neighbour -/
def stripRatio (ratios : List F) (idx : Nat) : List F :=
  match ratios[idx]? with
  | some closed => PaneLayout.absorb (ratios.eraseIdx idx) idx closed
  | none => ratios

/-- the panes of a row that are kept; `kept` is what the loop has passed -/
def stripRow (transient : PaneId → Bool) :
    List PersistedPane → List PersistedPane → List F → List PersistedPane × List F
  | kept, [], ratios => (kept, ratios)
  | kept, p :: rest, ratios =>
    if transient p.id then
      stripRow transient kept rest (stripRatio ratios kept.length)
    else
      stripRow transient (kept ++ [p]) rest ratios

/-- the rows that are kept, with the row ratios and those of the columns -/
def stripRows (transient : PaneId → Bool) :
    List (List PersistedPane) → List (List PersistedPane) → List F → List (List F) →
      List (List PersistedPane) × List F × List (List F)
  | kept, [], rowRatios, colRatios => (kept, rowRatios, colRatios)
  | kept, row :: rest, rowRatios, colRatios =>
    let (row, ratios) := stripRow transient [] row ((colRatios[kept.length]?).getD [])
    let colRatios := colRatios.set kept.length ratios
    if row.isEmpty then
      stripRows transient kept rest (stripRatio rowRatios kept.length) (colRatios.eraseIdx kept.length)
    else
      stripRows transient (kept ++ [row]) rest rowRatios colRatios

/-- the tab without its transient panes; none when it has no other pane -/
def stripTransientPanes (transient : PaneId → Bool) (tab : PersistedTab F) : Option (PersistedTab F) :=
  let (panes, rowRatios, colRatios) := stripRows transient [] tab.panes tab.rowRatios tab.colRatios
  match panes.flatten with
  | [] => none
  | first :: _ =>
    some
      { tab with
        panes
        rowRatios
        colRatios
        activePane := if transient tab.activePane then first.id else tab.activePane }

/-- the tabs that are left, and where the active one is among them -/
def keptTabs (transient : PaneId → Bool) (tabs : List (PersistedTab F)) (activeTab : Nat) :
    List (PersistedTab F) × Nat :=
  tabs.zipIdx.foldl (fun (kept, newActive) (tab, idx) =>
    match stripTransientPanes transient tab with
    | some tab => (kept ++ [tab], if idx ≤ activeTab then kept.length else newActive)
    | none => (kept, newActive)) ([], 0)

def PaneTables.stripTransientTabs (t : PaneTables) (tabs : List (PersistedTab F)) (activeTab : Nat) :
    List (PersistedTab F) × Nat :=
  if t.noTransient then (tabs, activeTab) else keptTabs t.transient tabs activeTab

namespace AppState

/-- the tabs that the active workspace has, the live layout in place of the stored one -/
def liveTabs (s : AppState F) : List (PersistedTab F) :=
  (s.tabs.map s.side.persistedTab).modify s.activeTab fun pt =>
    { pt with
      panes := s.side.persistedRows s.live.panes
      activePane := s.live.activePane
      rowRatios := s.live.rowRatios
      colRatios := s.live.colRatios }

/-- `ws` is the workspace at `wsIdx` -/
def workspaceTabs (s : AppState F) (wsIdx : Nat) (ws : Workspace F) : List (PersistedTab F) × Nat :=
  if wsIdx = s.activeWorkspace then
    s.side.stripTransientTabs s.liveTabs s.activeTab
  else
    s.side.stripTransientTabs (ws.tabs.map s.side.persistedTab) ws.activeTab

def persistedWorkspace (s : AppState F) (wsIdx : Nat) (ws : Workspace F) : PersistedWorkspace F :=
  { num := ws.num
    name := ws.name
    path := ws.path
    collapsed := ws.collapsed
    shell := ws.shell
    tabs := (s.workspaceTabs wsIdx ws).1
    activeTab := (s.workspaceTabs wsIdx ws).2 }

/-- `PersistedState::from_state` -/
def fromState (s : AppState F) : PersistedState F :=
  { workspaces := s.workspaces.mapIdx s.persistedWorkspace
    activeWorkspace := s.activeWorkspace
    rememberCloseChoice := (s.toggles.get .rememberCloseChoice).getD false
    killAllOnClose := (s.toggles.get .killAllOnClose).getD false
    worktreeTabs := (s.toggles.get .worktreeTabs).getD false
    autoResumeAgents := (s.toggles.get .autoResumeAgents).getD false
    forceSoftwareRenderer := (s.toggles.get .forceSoftwareRenderer).getD false
    defaultShell := s.defaultShell
    checkUpdatesOnStartup := some ((s.toggles.get .checkUpdatesOnStartup).getD true)
    updatePromptedVersion := s.updatePromptedVersion }

end AppState
end

/-! ## restoring -/

section
variable {F : Type}

/-- a text, or what stands for an empty one -/
def orElse (text fallback : String) : String := if text = "" then fallback else text

def paneFromPersisted (pp : PersistedPane) : Pane := ⟨pp.id, orElse pp.title "shell", orElse pp.subtitle "bash"⟩

variable [F32 F]

def isPositive (r : F) : Bool := F32.isFinite r && F32.lt F32.zero r

/-- the saved row ratios when there is a positive one for each row, else equal ones -/
def normalizedRowRatios (panes : List (List Pane)) (saved : List F) : List F :=
  if saved.length = panes.length ∧ saved.all isPositive then saved else List.replicate panes.length F32.one

def normalizedColRatios (panes : List (List Pane)) (saved : List (List F)) : List (List F) :=
  if Ragged.lengths saved = Ragged.lengths panes ∧ saved.all (·.all isPositive) then
    saved
  else
    panes.map fun row => List.replicate row.length F32.one

/-- the tab that is restored; none when it has no pane -/
def terminalTabFromPersisted (pt : PersistedTab F) : Option (TerminalTab F) :=
  let panes := (pt.panes.map (·.map paneFromPersisted)).filter (!·.isEmpty)
  match panes.flatten with
  | [] => none
  | first :: _ =>
    some
      { id := pt.id
        name := orElse pt.name "shell"
        subtitle := orElse pt.subtitle "bash"
        layout :=
          { panes
            activePane := ((panes.flatten.map Pane.id).find? (· == pt.activePane)).getD first.id
            rowRatios := normalizedRowRatios panes pt.rowRatios
            colRatios := normalizedColRatios panes pt.colRatios } }

/-- what restoring gathers on its way: the greatest pane id, and the tables that the panes fill -/
structure Gathered where
  maxPaneId : Nat
  customTitled : Table PaneId Unit
  agentRestarts : Table PaneId AgentRestart
  paneAgents : Table PaneId AgentTag

/-- a tag that the process scan left is not trusted; a pane without a tag is classified by its title -/
def restoredTag (t : CharTable) (pp : PersistedPane) : Option AgentTag :=
  match pp.agentTag.filter (·.source ≠ .process) with
  | some tag => some tag
  | none =>
    if pp.agentRestart.isNone && !pp.customTitle then
      (classifyTitle t pp.title).map fun profile => ⟨profile.id, .title⟩
    else
      none

def insertSome {α : Type} (table : Table PaneId α) (id : PaneId) : Option α → Table PaneId α
  | some a => table.insert id a
  | none => table

def gatherPane (absolute : String → Bool) (t : CharTable) (g : Gathered) (pp : PersistedPane) : Gathered :=
  { maxPaneId := max g.maxPaneId pp.id
    customTitled := if pp.customTitle && pp.title ≠ "" then g.customTitled.insert pp.id () else g.customTitled
    agentRestarts := insertSome g.agentRestarts pp.id (pp.agentRestart.filter (absolute ·.cwd))
    paneAgents := insertSome g.paneAgents pp.id (restoredTag t pp) }

def PersistedWorkspace.flat (entry : PersistedWorkspace F) : List PersistedPane :=
  entry.tabs.flatMap fun pt => pt.panes.flatten

/-- the workspace of an entry that has got its number -/
def restoredWorkspace (num : Nat) (entry : PersistedWorkspace F) : Workspace F :=
  let tabs := entry.tabs.filterMap terminalTabFromPersisted
  { (newWorkspace num entry.name entry.path : Workspace F) with
    collapsed := entry.collapsed
    shell := entry.shell
    tabs
    activeTab := if tabs.isEmpty then 0 else min entry.activeTab (tabs.length - 1) }

/-- the saved number when it is free, else a fresh one -/
def restoredNum (used : List Nat) (num : Nat) : Option Nat :=
  if num ≠ 0 ∧ num ∉ used then some num else allocateWorkspaceNum used

/-- the entries that get a number, in order, each with the panes that it brings -/
def restoreEntries : List Nat → List (PersistedWorkspace F) → List (Workspace F × List PersistedPane)
  | _, [] => []
  | used, entry :: rest =>
    match restoredNum used entry.num with
    | none => restoreEntries used rest
    | some num => (restoredWorkspace num entry, entry.flat) :: restoreEntries (num :: used) rest

namespace AppState

/-- one fresh tab in the live fields and in the stored copy of the active workspace -/
def seedFreshTerminalTab (s : AppState F) (id : PaneId) : AppState F :=
  let tab : TerminalTab F := .new id "shell" "bash"
  { s with
    tabs := [tab]
    activeTab := 0
    live := tab.layout
    workspaces := s.workspaces.modify s.activeWorkspace fun ws => { ws with tabs := [tab], activeTab := 0 } }

/-- `u32::saturating_add(1)` -/
def saturatingSucc (id : Nat) : Nat := min (id + 1) (UInt32.size - 1)

def restoreLayout (absolute : String → Bool) (t : CharTable) (s : AppState F) (persisted : PersistedState F) :
    Option (AppState F) :=
  if persisted.workspaces.isEmpty then
    some s
  else do
    let entries := restoreEntries [] persisted.workspaces
    let g := (entries.flatMap Prod.snd).foldl (gatherPane absolute t) ⟨0, ∅, ∅, ∅⟩
    let s ← loadWorkspaceState
      { s with
        workspaces := entries.map Prod.fst
        activeWorkspace := min persisted.activeWorkspace (persisted.workspaces.length - 1)
        side := { s.side with
          customTitledPanes := g.customTitled
          agentRestarts := g.agentRestarts
          paneAgents := g.paneAgents
          pendingAgentResumes := ∅
          agentResumeAttempts := ∅
          agentResumePreflights := ∅ } }
    if s.live.flat.isEmpty then
      some
        { s.seedFreshTerminalTab (saturatingSucc g.maxPaneId) with
          nextId := max (saturatingSucc (saturatingSucc g.maxPaneId)) 2 }
    else
      some { s with nextId := max (saturatingSucc g.maxPaneId) 2 }

end AppState
end
end TerminalManager.App
