import TerminalManager.App.Tabs

/-!
# Operations on the panes of the active tab

* `mutateSplitRight`, `mutateSplitDown`   a fresh pane beside another;
* `mutateClosePane`                       a pane closed, with the tab when it is the last one;
* `focusMove`                             what the four focus moves share;
* `mutateExtractPaneToTab`                a pane moved into a tab of its own;
* `mutatePaneDropSplit`, `mutatePaneMoveToEdge`, `mutatePaneSwap`, `mutatePaneSwapFromTab`.
-/

namespace TerminalManager.App
open Ui (F32)

namespace PaneLayout
section
variable {F : Type}

/-- the length of row `r`, when there is one -/
def rowLength (l : PaneLayout F) (r : Nat) : Nat := (l.panes[r]?.map List.length).getD 0

def setPane (l : PaneLayout F) (r c : Nat) (p : Pane) : PaneLayout F :=
  { l with panes := l.panes.modify r (·.set c p) }

/-- the focus after the pane at `(r, c)` is gone: the same place, clamped; indexes the grid -/
def refocus (l : PaneLayout F) (r c : Nat) : Option (PaneLayout F) := do
  let row ← l.panes[min r (l.panes.length - 1)]?
  let p ← row[min c (row.length - 1)]?
  some { l with activePane := p.id }

/-- the pane at `(r, c)` taken out; the focus moves on when it was there -/
def removePane [F32 F] (l : PaneLayout F) (r c : Nat) (target : PaneId) : Option (PaneLayout F) := do
  let l ← l.detach r c
  if l.activePane = target then l.refocus r c else some l

end
end PaneLayout

namespace AppState
section
variable {F : Type} [F32 F]

/-- a fresh pane at `edge` of the pane at `(r, c)`, with a terminal; the tab is not synced -/
def splitPane (s : AppState F) (r c : Nat) (edge : DropZone) (spawned : SpawnResult) :
    Option (AppState F) := do
  let live ← s.live.attach r c edge ⟨s.nextId, "shell", "bash"⟩
  some
    { s with
      nextId := bump s.nextId
      side := s.side.spawn s.nextId spawned
      live := { live with activePane := s.nextId } }

def mutateSplitRight (s : AppState F) (target : PaneId) (spawned : SpawnResult) : Option (AppState F) :=
  match s.live.findPaneCoord target with
  | none => some s
  | some (r, c) => do
    let row ← s.live.panes[r]?
    if MAX_COLS ≤ row.length then some s else s.splitPane r c .right spawned

def mutateSplitDown (s : AppState F) (target : PaneId) (spawned : SpawnResult) : Option (AppState F) :=
  match s.live.findPaneCoord target with
  | none => some s
  | some (r, c) => if MAX_ROWS ≤ s.live.panes.length then some s else s.splitPane r c .bottom spawned

def mutateClosePane (s : AppState F) (target : PaneId) : Option (AppState F) :=
  match s.live.findPaneCoord target with
  | none => some s
  | some (r, c) =>
    if s.live.paneCount = 1 then
      s.mutateCloseTab s.activeTab
    else do
      let agents := s.isAgentPane s.live.activePane
      let live ← s.live.removePane r c target
      let t := { s with side := s.side.closePaneTables target, live }.syncLiveTabFromPanes
      if s.live.activePane = target then t.loadTabAfterClose agents else some t

/-- the single pane of a tab other than the active one: what the tab drags start from -/
def dragSource (s : AppState F) (sourceTabId : String) : Option (Option (Nat × Pane)) :=
  match s.tabs.findIdx? (·.id == sourceTabId) with
  | none => some none
  | some idx =>
    if idx = s.activeTab then
      some none
    else do
      let tab ← s.tabs[idx]?
      if tab.layout.paneCount ≠ 1 then
        some none
      else
        let p ← tab.layout.paneAt 0 0
        some (some (idx, p))

def mutateExtractPaneToTab (s : AppState F) (target : PaneId) (newTabIndex : Nat) : Option (AppState F) :=
  match s.live.findPaneCoord target with
  | none => some s
  | some (r, c) => do
    let p ← s.live.paneAt r c
    let source := s.activeTab
    let tab := .new p.id p.title p.subtitle
    if s.live.paneCount = 1 then
      if s.tabs.length ≤ source then
        none
      else
        let rest := s.tabs.eraseIdx source
        -- an index past the removed slot has moved left
        let adjusted := if source < newTabIndex then newTabIndex - 1 else newTabIndex
        let insertion := min adjusted rest.length
        loadTabState { s with tabs := rest.insertIdx insertion tab, activeTab := insertion }
    else
      let live ← s.live.removePane r c target
      let t := { s with live }.syncLiveTabFromPanes
      let insertion := min newTabIndex t.tabs.length
      loadTabState { t with tabs := t.tabs.insertIdx insertion tab, activeTab := insertion }

def mutatePaneDropSplit (s : AppState F) (sourceTabId : String) (target : PaneId) (edge : DropZone) :
    Option (AppState F) := do
  match ← s.dragSource sourceTabId with
  | none => some s
  | some (idx, p) =>
    if p.id = target then
      some s
    else
      match s.live.findPaneCoord target with
      | none => some s
      | some (r, c) => do
        let t := { s with
          tabs := s.tabs.eraseIdx idx
          activeTab := if idx < s.activeTab then s.activeTab - 1 else s.activeTab }
        if edge = .center then
          some t
        else
          let live ← t.live.attach r c edge p
          some { t with live := { live with activePane := p.id } }.syncLiveTabFromPanes

def mutatePaneMoveToEdge (s : AppState F) (source target : PaneId) (edge : DropZone) :
    Option (AppState F) :=
  if source = target ∨ edge = .center then
    some s
  else
    match s.live.findPaneCoord source, s.live.findPaneCoord target with
    | some (r, c), some _ => do
      let p ← s.live.paneAt r c
      let live ← s.live.detach r c
      -- the target may have moved
      match live.findPaneCoord target with
      | none => some { s with live }
      | some (r, c) =>
        let live ← live.attach r c edge p
        some { s with live := { live with activePane := source } }.syncLiveTabFromPanes
    | _, _ => some s

end

section
variable {F : Type}

/-- a focus move: from `(r, c)` to the place that `next` names, if any; indexes the grid -/
def focusMove (s : AppState F) (next : PaneLayout F → Nat → Nat → Option (Nat × Nat)) :
    Option (AppState F) :=
  match s.live.findPaneCoord s.live.activePane with
  | none => some s
  | some (r, c) =>
    match next s.live r c with
    | none => some s
    | some (r, c) => do
      let p ← s.live.paneAt r c
      some { s with live := { s.live with activePane := p.id } }.syncLiveTabFromPanes

def mutateFocusLeft (s : AppState F) : Option (AppState F) :=
  s.focusMove fun _ r c => if c = 0 then none else some (r, c - 1)

def mutateFocusRight (s : AppState F) : Option (AppState F) :=
  s.focusMove fun l r c => if l.rowLength r ≤ c + 1 then none else some (r, c + 1)

def mutateFocusUp (s : AppState F) : Option (AppState F) :=
  s.focusMove fun l r c => if r = 0 then none else some (r - 1, min c (l.rowLength (r - 1) - 1))

def mutateFocusDown (s : AppState F) : Option (AppState F) :=
  s.focusMove fun l r c =>
    if l.panes.length ≤ r + 1 then none else some (r + 1, min c (l.rowLength (r + 1) - 1))

def mutatePaneSwap (s : AppState F) (a b : PaneId) : Option (AppState F) :=
  if a = b then
    some s
  else
    match s.live.findPaneCoord a, s.live.findPaneCoord b with
    | some (ar, ac), some (br, bc) => do
      let pa ← s.live.paneAt ar ac
      let pb ← s.live.paneAt br bc
      let live := (s.live.setPane ar ac pb).setPane br bc pa
      some { s with live := { live with activePane := a } }.syncLiveTabFromPanes
    | _, _ => some s

end

section
variable {F : Type} [F32 F]

def mutatePaneSwapFromTab (s : AppState F) (sourceTabId : String) (target : PaneId) :
    Option (AppState F) := do
  match ← s.dragSource sourceTabId with
  | none => some s
  | some (idx, p) =>
    if p.id = target then
      some s
    else
      match s.live.findPaneCoord target with
      | none => some s
      | some (r, c) => do
        let q ← s.live.paneAt r c
        some
          { s with
            live := { s.live.setPane r c p with activePane := p.id }
            tabs := s.tabs.modify idx fun t =>
              { t with layout := { t.layout.setPane 0 0 q with activePane := target } } }.syncLiveTabFromPanes

end
end AppState
end TerminalManager.App
