import TerminalManager.App.Agents

/-!
# Opening, switching and closing tabs

* `openTab`                 what the functions that open a tab share: a fresh pane that fills it;
* `mutateAddTab`, …         one for each kind of pane;
* `mutateSwitchTab`, `mutateCloseTab`;
* `mutateTabReorder`        a tab moved in the strip.

A step that indexes out of range, where the source panics, has no result.  What the PTY manager and
the disk answer is an argument.
-/

namespace TerminalManager.App
open Ui (F32)

/-- what the PTY manager answers when it is asked for a session -/
inductive SpawnResult
  | ok (session generation : Nat)
  | failed (authoritative : Bool)
deriving DecidableEq, Repr

namespace PaneTables

/-- a session for the pane when there is one, and a terminal in any case -/
def spawn (t : PaneTables) (id : PaneId) : SpawnResult → PaneTables
  | .ok session _ => { t.destroy id with
      sessions := (id, session) :: (t.destroy id).sessions
      terminals := t.terminals.insert id () }
  | .failed _ => { t with terminals := t.terminals.insert id () }

end PaneTables

def isValidSessionId (value : String) : Bool :=
  value.toList.length == 36 && (value.toList.zipIdx.all fun (ch, i) =>
    if i = 8 ∨ i = 13 ∨ i = 18 ∨ i = 23 then ch == '-'
    else ch.isDigit || ('a' ≤ ch && ch ≤ 'f') || ('A' ≤ ch && ch ≤ 'F'))

def exactCandidate (record : AgentRestart) : Option ResumeCandidate :=
  match record.sessionId with
  | some id =>
    if isValidSessionId id then some ⟨record.agent, record.cwd, record.resumeMode, id⟩ else none
  | none => none

structure AgentLaunch where
  title : String
  program : String
  restart : Option AgentRestart
  profileId : String
deriving DecidableEq, Repr

/-- whether the recovery record was saved, and what became of the process -/
structure LaunchOutcome where
  persisted : Bool
  spawned : SpawnResult
deriving DecidableEq, Repr

namespace PaneTables

/-- an agent pane is tagged, and its recovery record staged, before the process is asked for -/
def stageAgent (t : PaneTables) (id : PaneId) (launch : AgentLaunch) : PaneTables :=
  { t with
    paneAgents := t.paneAgents.insert id ⟨launch.profileId, .launched⟩
    agentRestarts :=
      match launch.restart with
      | some restart => t.agentRestarts.insert id { restart with launchPhase := .confirmingResume }
      | none => t.agentRestarts }

/-- the resume attempt of a pane whose record is exact and awaits its confirmation -/
def attemptResume (t : PaneTables) (id : PaneId) (generation : Nat) : PaneTables :=
  match (t.agentRestarts.get id).filter (·.launchPhase = .confirmingResume) with
  | some record =>
    match exactCandidate record with
    | some candidate =>
      { t with agentResumeAttempts := t.agentResumeAttempts.insert id ⟨candidate, generation⟩ }
    | none => t
  | none => t

def launchAgent (t : PaneTables) (id : PaneId) (launch : AgentLaunch) (outcome : LaunchOutcome) :
    PaneTables :=
  let t := t.stageAgent id launch
  if launch.restart.isSome && !outcome.persisted then
    { t with
      agentRestarts := t.agentRestarts.remove id
      terminals := t.terminals.insert id () }
  else
    match outcome.spawned with
    | .ok session generation => (t.spawn id (.ok session generation)).attemptResume id generation
    | .failed true => { t.spawn id (.failed true) with
        agentRestarts := t.agentRestarts.remove id
        agentResumeAttempts := t.agentResumeAttempts.remove id }
    | .failed false => t.spawn id (.failed false)

end PaneTables

namespace AppState
section
variable {F : Type} [F32 F]

/-- a new tab at the end, active, that one fresh pane fills -/
def openTab (s : AppState F) (title subtitle : String) : AppState F :=
  let s := s.saveTabState
  { s with
    nextId := bump s.nextId
    tabs := s.tabs ++ [.new s.nextId title subtitle]
    activeTab := s.tabs.length
    live := .single ⟨s.nextId, title, subtitle⟩ }

def mutateAddTab (s : AppState F) (spawned : SpawnResult) : AppState F :=
  { s.openTab "shell" "bash" with side := s.side.spawn s.nextId spawned }

/-- `title` is the name of the worktree's directory -/
def mutateAddWorktreeTab (s : AppState F) (title : String) (spawned : SpawnResult) : AppState F :=
  { s.openTab title "bash" with side := s.side.spawn s.nextId spawned }

def mutateAddEditorTab (s : AppState F) (editor : EditorPane) : AppState F :=
  { s.openTab editor.displayName (if editor.isDiff then "diff" else "editor") with
    side := { s.side with editors := s.side.editors.insert s.nextId editor } }

def mutateAddFlowTab (s : AppState F) (pane : FlowPane) : AppState F :=
  { s.openTab pane.title "flow" with
    side := { s.side with flows := s.side.flows.insert s.nextId pane } }

def mutateAddAgentTabWith (s : AppState F) (launch : AgentLaunch) (outcome : LaunchOutcome) : AppState F :=
  { s.openTab launch.title launch.program with side := s.side.launchAgent s.nextId launch outcome }

def mutateAddQuickPromptTab (s : AppState F) (program : String) (restart : AgentRestart)
    (outcome : LaunchOutcome) : AppState F :=
  s.mutateAddAgentTabWith
    { title := "qp: " ++ restart.agent.label
      program
      restart := some restart
      profileId := ((profileForRestoreKind restart.agent).map (·.id)).getD DEFAULT_PROFILE_ID } outcome

end

section
variable {F : Type}

/-- the panes of the active tab have been looked at -/
def seen (s : AppState F) : AppState F :=
  { s with side := { s.side with
      attentionPaneIds := s.side.attentionPaneIds.retain fun id => !s.live.ids.contains id } }

def mutateSwitchTab (s : AppState F) (newIndex : Nat) : Option (AppState F) :=
  if s.tabs.length ≤ newIndex ∨ newIndex = s.activeTab then
    some s
  else do
    let agents := s.isAgentPane s.live.activePane
    let t ← loadTabState { s.saveTabState with activeTab := newIndex }
    t.seen.focusTabGroup agents

/-- live fields for the active tab, stored fields for another; indexes `tabs` -/
def tabPaneIds (s : AppState F) (index : Nat) : Option (List PaneId) :=
  if index = s.activeTab then some s.live.ids else s.tabs[index]?.map TerminalTab.paneIds

def mutateCloseTab (s : AppState F) (index : Nat) : Option (AppState F) :=
  if s.tabs.length ≤ index then
    some s
  else do
    let agents := s.isAgentPane s.live.activePane
    let paneIds ← s.tabPaneIds index
    let t := { s with
      side := paneIds.foldl .closePaneTables s.side
      tabs := s.tabs.eraseIdx index }
    if t.tabs.isEmpty then
      some t.clearTabs
    else if s.activeTab = index then
      loadTabAfterClose { t with activeTab := min index (t.tabs.length - 1) } agents
    else
      some { t with activeTab := if index < s.activeTab then s.activeTab - 1 else s.activeTab }

def mutateTabReorder (s : AppState F) (sourceTabId : String) (newIndex : Nat) : Option (AppState F) :=
  match s.tabs.findIdx? (·.id == sourceTabId) with
  | none => some s
  | some oldIdx => do
    let clamped := min newIndex s.tabs.length
    -- the slots after the removed one have moved left
    let adjusted := if oldIdx < clamped then clamped - 1 else clamped
    if adjusted = oldIdx then
      some s
    else
      let active ← s.tabs[s.activeTab]?
      let tab ← s.tabs[oldIdx]?
      let rest := s.tabs.eraseIdx oldIdx
      let tabs := rest.insertIdx (min adjusted rest.length) tab
      some { s with tabs, activeTab := (tabs.findIdx? (·.id == active.id)).getD 0 }

end
end AppState
end TerminalManager.App
