import TerminalManager.App.Step
import TerminalManager.App.Titles

/-!
# The commands of the user

Between the user and the layout operations stand the dialogs: a command runs an operation, opens a dialog,
or resolves the one that is open.

* `requestClosePane`, `requestCloseTab`   close what has no unsaved changes, else ask;
* `closeEditorDialogScope`                the close that the dialog stood in front of;
* `dispatch`                              the commands as one function, with what the disk answers.

A dialog keeps the index of a tab or a workspace, or pane ids.
-/

namespace TerminalManager.App
open Ui (F32)

namespace AppState
section
variable {F : Type}

def dirtyEditor (s : AppState F) (id : PaneId) : Bool := (s.side.editors.get id).any (·.dirty)

/-- the editors with unsaved changes among `ids`, with their names -/
def dirtyEditorPanes (s : AppState F) (ids : List PaneId) : List (PaneId × String) :=
  ids.filterMap fun id => ((s.side.editors.get id).filter (·.dirty)).map fun editor => (id, editor.displayName)

def openCloseEditorDialog (s : AppState F) (dirty : List (PaneId × String)) (tab : Option Nat) : AppState F :=
  { s with confirmDialog := some (.closeEditor (dirty.map Prod.fst) (dirty.map Prod.snd) tab) }

/-- the editor's buffer written to its file; `saved` is what the disk answers -/
def saveEditorPane (s : AppState F) (id : PaneId) (saved : Bool) : AppState F × Bool :=
  match s.side.editors.get id with
  | none => (s, false)
  | some editor =>
    let editor := { editor with dirty := editor.dirty && !saved }
    (syncEditorPaneTitle { s with side := { s.side with editors := s.side.editors.insert id editor } } id, saved)

/-- every pane is saved, also when one before it is not -/
def saveEditorPanes (s : AppState F) (saved : List PaneId) : List PaneId → AppState F × Bool
  | [] => (s, true)
  | id :: ids =>
    let (s, ok) := s.saveEditorPane id (saved.contains id)
    let (s, all) := saveEditorPanes s saved ids
    (s, ok && all)

/-- `take_close_editor_dialog`: the panes and the tab of the dialog, when it is the one that is open -/
def closeEditorDialog (s : AppState F) : Option (List PaneId × Option Nat) :=
  match s.confirmDialog with
  | some (.closeEditor paneIds _ tab) => some (paneIds, tab)
  | _ => none

def toggleOn (s : AppState F) (key : ToggleKey) : Bool := (s.toggles.get key).getD false

/-- a keystroke in an editor that is on screen: the buffer may be as it was saved afterwards -/
def editPane (s : AppState F) (id : PaneId) (dirty : Bool) : AppState F :=
  match s.side.editors.get id with
  | none => s
  | some editor =>
    if editor.readOnly || !s.live.ids.contains id then
      s
    else
      syncEditorPaneTitle
        { s with side := { s.side with editors := s.side.editors.insert id { editor with dirty } } } id

end

section
variable {F : Type} [F32 F]

def requestClosePane (s : AppState F) (target : PaneId) : Option (AppState F) :=
  match s.dirtyEditorPanes [target] with
  | [] => s.mutateClosePane target
  | dirty => some (s.openCloseEditorDialog dirty none)

omit [F32 F] in
def requestCloseTab (s : AppState F) (index : Nat) : Option (AppState F) :=
  if s.tabs.length ≤ index then
    some s
  else
    (s.tabPaneIds index).bind fun ids =>
      match s.dirtyEditorPanes ids with
      | [] => s.mutateCloseTab index
      | dirty => some (s.openCloseEditorDialog dirty (some index))

/-- the whole tab when the close was that of a tab, else the pane -/
def closeEditorDialogScope (s : AppState F) (paneIds : List PaneId) (tab : Option Nat) : Option (AppState F) :=
  match tab with
  | some index => s.mutateCloseTab index
  | none =>
    match paneIds with
    | [] => some s
    | id :: _ => s.mutateClosePane id

/-- the window is closed: with unsaved changes the app asks, whatever it remembers -/
def resolveClose (s : AppState F) : Option (AppState F) :=
  if !s.side.editors.entries.any (·.2.dirty) && s.toggleOn .rememberCloseChoice then
    s.finalizeCloseChoice (if s.toggleOn .killAllOnClose then .killAll false else .keepRunning none false) false
  else
    let kept := s.closeAppPaneIds.dedup
    some { s with confirmDialog := some (.closeApp kept.length false kept) }

/-- `app.close.keep_running` and `app.close.kill_and_quit`, when the layout cannot be saved -/
def closeApp (s : AppState F) (keepRunning : Bool) : Option (AppState F) :=
  match s.confirmDialog with
  | some (.closeApp _ remember kept) =>
    s.finalizeCloseChoice (if keepRunning then .keepRunning (some kept) remember else .killAll remember) false
  | _ => some s

/-- `dialog.confirm`: the other dialogs have answers of their own -/
def confirm (s : AppState F) : Option (AppState F) :=
  let t := { s with confirmDialog := none }
  match s.confirmDialog with
  | some (.killWorkspace workspaceIdx _) => some (t.mutateKillWorkspaceTerminals workspaceIdx)
  | some (.killAll _) => some t.mutateKillAllTerminals
  | some (.killAgents workspaceIdx _ _) => t.mutateKillWorkspaceAgents workspaceIdx
  | _ => some s

end
end AppState

/-- the operations that commands run without asking -/
def Op.direct : Op → Bool
  | .closePane _ | .closeTab _ | .killWorkspaceTerminals _ | .killWorkspaceAgents _ | .killAll | .closeUnsaved _ => false
  | _ => true

inductive Command
  | layout (op : {op : Op // op.direct = true})
  | requestClosePane (target : PaneId)
  | requestCloseTab (index : Nat)
  | requestKillWorkspace (idx : Nat)
  | requestKillAgents (idx : Nat)
  | requestKillAll
  | requestRename (target : PaneId)
  | requestClose
  | confirm
  | cancel
  | editorSaveClose (saved : List PaneId)
  | editorDiscardClose
  | renameCommit (buffer : String) (accepted : Bool)
  | toggleRemember
  | toggleKeep (target : PaneId)
  | closeApp (keepRunning : Bool)
  | edit (target : PaneId) (dirty : Bool)
  | editorSave (saved : Bool)
deriving DecidableEq

/-- a command run; none when an index is out of range -/
def dispatch {F : Type} [F32 F] (s : AppState F) : Command → Option (AppState F)
  | .layout op => step s op.1
  | .requestClosePane target => s.requestClosePane target
  | .requestCloseTab index => s.requestCloseTab index
  | .requestKillWorkspace idx =>
    match s.workspaces[idx]? with
    | some ws => some { s with confirmDialog := some (.killWorkspace idx ws.name) }
    | none => some s
  | .requestKillAgents idx =>
    match s.workspaces[idx]? with
    | some ws =>
      let count := (s.workspaceAgentPaneIds idx).length
      if count = 0 then some s else some { s with confirmDialog := some (.killAgents idx ws.name count) }
    | none => some s
  | .requestKillAll => some { s with confirmDialog := some (.killAll s.side.terminals.entries.length) }
  | .requestRename target => some { s with confirmDialog := some (.renameSession target ((s.paneTitle target).getD "")) }
  | .requestClose => s.resolveClose
  | .confirm => s.confirm
  -- `dialog.cancel`, and `modal.close` when a dialog is open
  | .cancel => some { s with confirmDialog := none }
  | .editorSaveClose saved =>
    match s.closeEditorDialog with
    | none => some s
    | some (paneIds, tab) =>
      let (t, allSaved) := AppState.saveEditorPanes { s with confirmDialog := none } saved paneIds
      if allSaved then t.closeEditorDialogScope paneIds tab else some t
  | .editorDiscardClose =>
    match s.closeEditorDialog with
    | none => some s
    | some (paneIds, tab) => AppState.closeEditorDialogScope { s with confirmDialog := none } paneIds tab
  -- a rename that the daemon refuses leaves the dialog open; another dialog is taken down unanswered
  | .renameCommit buffer accepted =>
    match s.confirmDialog with
    | some (.renameSession target _) =>
      if s.side.sessions.any (·.1 == target) && !accepted then
        some { s with confirmDialog := some (.renameSession target buffer) }
      else
        some (AppState.mutateRenamePane { s with confirmDialog := none } target buffer)
    | _ => some { s with confirmDialog := none }
  | .toggleRemember =>
    match s.confirmDialog with
    | some (.closeApp count remember kept) =>
      some { s with confirmDialog := some (.closeApp count (!remember) kept) }
    | _ => some s
  | .toggleKeep target =>
    match s.confirmDialog with
    | some (.closeApp count remember kept) =>
      let kept := if kept.contains target then kept.filter (· != target) else target :: kept
      some { s with confirmDialog := some (.closeApp count remember kept) }
    | _ => some s
  | .closeApp keepRunning => s.closeApp keepRunning
  | .edit target dirty => some (s.editPane target dirty)
  | .editorSave saved =>
    match s.side.editors.get s.live.activePane with
    | none => some s
    | some editor => if editor.readOnly then some s else some (s.saveEditorPane s.live.activePane saved).1

end TerminalManager.App
