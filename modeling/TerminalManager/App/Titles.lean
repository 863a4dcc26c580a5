import TerminalManager.App.Agents

/-!
# Titles

A pane's title is written to every copy of the pane, and to the name of a tab that follows it.

* `sanitizeDisplayLabel`   the text of a guest program made fit for a label;
* `renamePane`             one title, in the live layout and in every stored tab;
* `mutateRenamePane`       the user's name for a pane;
* `mutateApplyOscTitle`    the title that the guest program reports;
* `syncEditorPaneTitle`    the title of an editor, with the mark of unsaved changes.
-/

namespace TerminalManager.App
open Editor (CharTable isWhitespace)

/-! ## guest text -/

def isBidiControl (c : Char) : Bool :=
  let n := c.toNat
  n = 0x61c || n = 0x200e || n = 0x200f || (0x202a ≤ n && n ≤ 0x202e) || (0x2066 ≤ n && n ≤ 0x2069)

/-- `char::is_control`: the category Cc -/
def isControl (c : Char) : Bool := c.toNat < 0x20 || (0x7f ≤ c.toNat && c.toNat < 0xa0)

def normalizePaletteChar (c : Char) : Option Char :=
  if isWhitespace c then some ' ' else if isControl c then none else some c

/-- the loop of `sanitize_display_label`: what was put out, and whether some text is left out -/
def sanitizeLoop (maxChars : Nat) : List Char → (output : List Char) → (lastWasSpace : Bool) → (accepted : Nat) →
    List Char × Bool
  | [], output, _, _ => (output, false)
  | c :: rest, output, lastWasSpace, accepted =>
    if isBidiControl c then
      sanitizeLoop maxChars rest output lastWasSpace accepted
    else
      match normalizePaletteChar c with
      | none => sanitizeLoop maxChars rest output lastWasSpace accepted
      | some c =>
        if c = ' ' ∧ (output.isEmpty ∨ lastWasSpace) then
          sanitizeLoop maxChars rest output lastWasSpace accepted
        else if maxChars ≤ accepted then
          (output, true)
        else
          sanitizeLoop maxChars rest (output ++ [c]) (c == ' ') (accepted + 1)

def sanitizeDisplayLabel (input : List Char) (fallback : String) (maxChars : Nat) : String :=
  let scanLimit := max (maxChars * 4) (maxChars + 1)
  let (output, truncated) := sanitizeLoop maxChars (input.take scanLimit) [] false 0
  let output := trim output
  if output.isEmpty then fallback
  else if truncated then String.ofList (output ++ ['.', '.', '.'])
  else String.ofList output

def OSC_TITLE_MAX_CHARS : Nat := 64

/-- the path of an executable is cut down to its stem -/
def prettifyOscTitle (title : List Char) : List Char :=
  let trimmed := trim title
  if looksLikeExePath trimmed then
    let base := basename trimmed
    if ['.', 'e', 'x', 'e'].isSuffixOf (base.map Char.toLower) then base.dropLast.dropLast.dropLast.dropLast else title
  else
    title

/-- the label of a guest title -/
def oscLabel (rawTitle : String) : String :=
  sanitizeDisplayLabel (prettifyOscTitle rawTitle.toList) "shell" OSC_TITLE_MAX_CHARS

/-! ## renaming -/

namespace PaneLayout
variable {F : Type}

/-- `rename_panes_in_rows` -/
def rename (l : PaneLayout F) (id : PaneId) (title : String) : PaneLayout F :=
  { l with panes := l.panes.map (·.map fun p => if p.id = id then { p with title } else p) }

end PaneLayout

namespace TerminalTab
variable {F : Type}

def titleFollowsPane (t : TerminalTab F) (id : PaneId) : Bool :=
  t.layout.activePane == id || t.layout.flat.length == 1

/-- `rename_pane_in_tab` -/
def renamePane (id : PaneId) (title : String) (t : TerminalTab F) : TerminalTab F :=
  if t.layout.ids.contains id then
    { t with
      layout := t.layout.rename id title
      name := if t.titleFollowsPane id then title else t.name }
  else
    t

/-- the name of a tab follows an editor that is alone in it -/
def syncTitle (id : PaneId) (title : String) (t : TerminalTab F) : TerminalTab F :=
  if t.layout.ids.contains id then
    { t with
      layout := t.layout.rename id title
      name := if t.layout.flat.length = 1 then title else t.name }
  else
    t

end TerminalTab

/-- `classify_pane_title`: only a tag that a title left is replaced or taken away -/
def PaneTables.classifyPaneTitle (t : CharTable) (side : PaneTables) (id : PaneId) (rawTitle : String) : PaneTables :=
  let existing := side.paneAgents.get id
  if existing.any (·.source ≠ .title) then
    side
  else
    match classifyTitle t rawTitle with
    | some profile =>
      if existing.any (·.profile = profile.id) then side
      else { side with paneAgents := side.paneAgents.insert id ⟨profile.id, .title⟩ }
    | none => if existing.isNone then side else { side with paneAgents := side.paneAgents.remove id }

namespace AppState
variable {F : Type}

/-- the title written to the live layout, to the tabs and to the tabs of every workspace -/
def renamePane (s : AppState F) (id : PaneId) (title : String) : AppState F :=
  { s with
    live := s.live.rename id title
    tabs := s.tabs.map (·.renamePane id title)
    workspaces := s.workspaces.map fun ws => { ws with tabs := ws.tabs.map (·.renamePane id title) } }

/-- an empty name gives the title back to the guest program -/
def mutateRenamePane (s : AppState F) (id : PaneId) (name : String) : AppState F :=
  let trimmed := trim name.toList
  if trimmed.isEmpty then
    renamePane { s with side := { s.side with customTitledPanes := s.side.customTitledPanes.remove id } } id "shell"
  else
    renamePane { s with side := { s.side with customTitledPanes := s.side.customTitledPanes.insert id () } } id
      (String.ofList trimmed)

/-- the title of the first copy of the pane: live, in the tabs, in the workspaces -/
def paneTitle (s : AppState F) (id : PaneId) : Option String :=
  ((s.live.flat ++ s.tabs.flatMap (·.layout.flat) ++
    s.workspaces.flatMap fun ws => ws.tabs.flatMap (·.layout.flat)).find? (·.id == id)).map Pane.title

def mutateApplyOscTitle (t : CharTable) (s : AppState F) (id : PaneId) (rawTitle : String) : AppState F :=
  match s.paneTitle id with
  | none => s
  | some current =>
    let s := { s with side := s.side.classifyPaneTitle t id rawTitle }
    if s.side.customTitledPanes.contains id then s
    else if current = oscLabel rawTitle then s
    else s.renamePane id (oscLabel rawTitle)

def syncEditorPaneTitle (s : AppState F) (id : PaneId) : AppState F :=
  match s.side.editors.get id with
  | none => s
  | some editor =>
    let title := if editor.dirty then "\u25CF " ++ editor.displayName else editor.displayName
    let tabs := s.tabs.map (·.syncTitle id title)
    { s with
      live := s.live.rename id title
      tabs :=
        if s.live.flat.length = 1 ∧ s.live.ids.contains id then tabs.modify s.activeTab ({ · with name := title })
        else tabs }

end AppState
end TerminalManager.App
