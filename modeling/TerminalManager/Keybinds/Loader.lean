import TerminalManager.Keybinds.RoundTrip
import TerminalManager.Keybinds.State
import TerminalManager.Lib.Find

/-!
# The keybinding file

User overrides are written as a map from action ids to combos, and read again at the next start; a combo that does
not parse is left out then.  JSON is lossless here, so the file is the map itself.

* `KeybindAction.id`, `fromId`   the ids of the actions;
* `saveUserKeybinds`, `loadUserKeybinds`   the map written and read;
* `shortcutBindings`             what is registered with the framework at the start;
* `survives_restart`             an override comes back exactly when its key is not the plus sign.
-/

namespace TerminalManager.Keybinds
open Editor (isWhitespace)

namespace KeybindAction

def id : KeybindAction → String
  | newTerminal => "new_terminal"
  | newAgent => "new_agent"
  | newClaudeAgent => "new_claude_agent"
  | newCodexAgent => "new_codex_agent"
  | closeTab => "close_tab"
  | splitRight => "split_right"
  | splitDown => "split_down"
  | unsplit => "unsplit"
  | focusLeft => "focus_left"
  | focusRight => "focus_right"
  | focusUp => "focus_up"
  | focusDown => "focus_down"
  | nextTab => "next_tab"
  | prevTab => "prev_tab"
  | commandPalette => "command_palette"
  | quickPromptOpen => "quick_prompt_open"
  | renameSession => "rename_session"
  | openFile => "open_file"
  | quickOpen => "quick_open"
  | diffOpen => "diff_open"
  | editorSave => "editor_save"
  | toggleExplorer => "toggle_explorer"
  | toggleSidebar => "toggle_sidebar"
  | openSettings => "open_settings"
  | zoomIn => "zoom_in"
  | zoomOut => "zoom_out"
  | zoomReset => "zoom_reset"
  | fullscreen => "fullscreen"

def fromId (s : String) : Option KeybindAction := ALL.find? fun a => a.id == s

def dispatchCommand : KeybindAction → String
  | newTerminal => "tab.new"
  | newAgent => "agent.new"
  | newClaudeAgent => "agent.new:claude"
  | newCodexAgent => "agent.new:codex"
  | closeTab => "tab.close.active"
  | splitRight => "pane.split_right"
  | splitDown => "pane.split_down"
  | unsplit => "pane.close"
  | focusLeft => "pane.focus_left"
  | focusRight => "pane.focus_right"
  | focusUp => "pane.focus_up"
  | focusDown => "pane.focus_down"
  | nextTab => "tab.next"
  | prevTab => "tab.prev"
  | commandPalette => "palette.toggle"
  | quickPromptOpen => "quick_prompt.open"
  | renameSession => "session.rename_active"
  | openFile => "editor.open"
  | quickOpen => "palette.files"
  | diffOpen => "diff.open"
  | editorSave => "editor.save"
  | toggleExplorer => "explorer.toggle"
  | toggleSidebar => "sidebar.toggle"
  | openSettings => "modal.open"
  | zoomIn => "zoom.in"
  | zoomOut => "zoom.out"
  | zoomReset => "zoom.reset"
  | fullscreen => "window.toggle_fullscreen"

lemma ids_distinct : (ALL.map id).Nodup := by decide

lemma id_injective : Function.Injective id := fun a b h => List.inj_on_of_nodup_map ids_distinct (mem_ALL a) (mem_ALL b) h

lemma fromId_eq_some {s : String} {action : KeybindAction} : fromId s = some action ↔ s = action.id := by
  constructor
  · intro h
    exact (beq_iff_eq.mp (List.find?_some (p := fun a : KeybindAction => a.id == s) h)).symm
  · rintro rfl
    unfold fromId
    cases hfind : ALL.find? fun a => a.id == action.id with
    | none =>
      have := List.find?_eq_none.mp hfind action (mem_ALL action)
      simp at this
    | some a => rw [id_injective (beq_iff_eq.mp (List.find?_some (p := fun a : KeybindAction => a.id == action.id) hfind))]

end KeybindAction

/-! ## the file -/

/-- the entries of the map, in the order in which they are met, as ids and combos -/
def saveUserKeybinds (entries : List (KeybindAction × KeyCombo)) : Table String String :=
  .collect (entries.map fun e => (e.1.id, e.2.display))

/-- an entry of the file; none when the action is unknown or the combo does not parse -/
def readEntry (e : String × String) : Option (KeybindAction × KeyCombo) := do
  let action ← KeybindAction.fromId e.1
  let combo ← (KeyCombo.parse e.2.toList).toOption
  some (action, combo)

/-- the entries of the file, in the order in which they are met -/
def loadUserKeybinds (raw : List (String × String)) : Table KeybindAction KeyCombo := .collect (raw.filterMap readEntry)

/-! ## the shortcuts -/

/-- a single combo or two in a row -/
inductive Shortcut
  | single (combo : KeyCombo)
  | chord (first second : KeyCombo)
deriving DecidableEq, Repr

/-- chords use a comma and a space -/
def Shortcut.parse (s : List Char) : Except String Shortcut :=
  match Find.before [',', ' '] s with
  | some first => do
    let a ← KeyCombo.parse first
    let b ← KeyCombo.parse (s.drop (first.length + 2))
    return .chord a b
  | none => return .single (← KeyCombo.parse s)

/-- a key with the modifier of the platform -/
def primaryCombo (macos : Bool) (key : String) : String := (if macos then "Meta" else "Ctrl") ++ "+" ++ key

def aliasBindings (macos : Bool) : List (String × String) :=
  [(primaryCombo macos "Shift+H", KeybindAction.splitRight.dispatchCommand),
    (primaryCombo macos "K", KeybindAction.commandPalette.dispatchCommand),
    (primaryCombo macos "Shift+=", KeybindAction.zoomIn.dispatchCommand)]

def systemBindings (macos : Bool) : List (String × String) :=
  [("Escape", "modal.close"), (primaryCombo macos "Shift+F", "fps_overlay.toggle"),
    (primaryCombo macos "V", "terminal.paste"), ("Ctrl+Shift+V", "terminal.paste"), ("Shift+Insert", "terminal.paste")] ++
    (if macos then [(primaryCombo macos "C", "terminal.copy")] else []) ++ [("Ctrl+Shift+C", "terminal.copy")] ++
    (List.range 9).map fun i => (primaryCombo macos (toString (i + 1)), "tab.switch:" ++ toString i)

/-- `shortcut_bindings_with_overrides` -/
def shortcutBindings (macos : Bool) (overrides : Table KeybindAction KeyCombo) : List (String × String) :=
  KeybindAction.ALL.map (fun action =>
    (((overrides.get action).getD (action.defaultCombo macos)).display, action.dispatchCommand)) ++
    aliasBindings macos ++ systemBindings macos

/-! ## what comes back -/

section
variable {overrides : Table KeybindAction KeyCombo} {entries : List (KeybindAction × KeyCombo)}
  {raw : List (String × String)} {action : KeybindAction} {combo : KeyCombo}

lemma get_saveUserKeybinds (h : (entries.map Prod.fst).Nodup) (action : KeybindAction) (s : String) :
    (saveUserKeybinds entries).get action.id = some s ↔ ∃ combo, (action, combo) ∈ entries ∧ combo.display = s := by
  have hids : ((entries.map fun e => (e.1.id, e.2.display)).map Prod.fst).Nodup := by
    rw [List.map_map]
    have := h.map KeybindAction.id_injective
    rwa [List.map_map] at this
  rw [saveUserKeybinds, Table.get_collect hids, List.mem_map]
  constructor
  · rintro ⟨⟨a, combo⟩, hmem, heq⟩
    obtain ⟨hid, rfl⟩ := Prod.mk.inj heq
    have ha : a = action := KeybindAction.id_injective hid
    subst ha
    exact ⟨combo, hmem, rfl⟩
  · rintro ⟨combo, hmem, rfl⟩
    exact ⟨(action, combo), hmem, rfl⟩

lemma readEntry_eq_some {e : String × String} : readEntry e = some (action, combo) ↔
    e.1 = action.id ∧ (KeyCombo.parse e.2.toList).toOption = some combo := by
  unfold readEntry
  simp only [Option.bind_eq_bind, Option.bind_eq_some_iff, KeybindAction.fromId_eq_some, Option.some.injEq, Prod.mk.injEq]
  constructor
  · rintro ⟨a, hid, c, hparse, rfl, rfl⟩
    exact ⟨hid, hparse⟩
  · rintro ⟨hid, hparse⟩
    exact ⟨action, hid, combo, hparse, rfl, rfl⟩

/-- the actions of a file with distinct ids are distinct -/
lemma readEntry_nodup (h : (raw.map Prod.fst).Nodup) : ((raw.filterMap readEntry).map Prod.fst).Nodup := by
  rw [List.Nodup, List.pairwise_map] at h ⊢
  rw [List.pairwise_filterMap]
  apply h.imp
  rintro e e' hne ⟨a, c⟩ hread ⟨a', c'⟩ hread' rfl
  exact hne ((readEntry_eq_some.mp hread).1.trans (readEntry_eq_some.mp hread').1.symm)

/-- **A combo that was saved is what `KeyCombo::parse` makes of it**, whatever order the entries are met in. -/
theorem get_loadUserKeybinds (hentries : overrides.Lists entries) (hraw : (saveUserKeybinds entries).Lists raw)
    (action : KeybindAction) : (loadUserKeybinds raw).get action =
      (overrides.get action).bind fun combo => (KeyCombo.parse combo.display.toList).toOption := by
  apply Option.ext
  intro combo
  rw [loadUserKeybinds, Table.get_collect (readEntry_nodup hraw.1), List.mem_filterMap, Option.bind_eq_some_iff]
  constructor
  · rintro ⟨⟨s, t⟩, hmem, hread⟩
    obtain ⟨hs, hparse⟩ := readEntry_eq_some.mp hread
    dsimp only at hs hparse
    rw [hraw.2, hs, get_saveUserKeybinds hentries.1] at hmem
    obtain ⟨saved, hsaved, rfl⟩ := hmem
    exact ⟨saved, (hentries.2 action saved).mp hsaved, hparse⟩
  · rintro ⟨saved, hsaved, hparse⟩
    refine ⟨(action.id, saved.display), ?_, readEntry_eq_some.mpr ⟨rfl, hparse⟩⟩
    rw [hraw.2, get_saveUserKeybinds hentries.1]
    exact ⟨saved, (hentries.2 action saved).mpr hsaved, rfl⟩

lemma parse_of_single {s : List Char} (h : Shortcut.parse s = .ok (.single combo)) : KeyCombo.parse s = .ok combo := by
  unfold Shortcut.parse at h
  split at h
  case h_1 first hfirst =>
    cases ha : KeyCombo.parse first with
    | error e => rw [ha] at h; cases h
    | ok a =>
      cases hb : KeyCombo.parse (s.drop (first.length + 2)) with
      | error e => rw [ha, hb] at h; cases h
      | ok b => rw [ha, hb] at h; cases h
  case h_2 =>
    cases hs : KeyCombo.parse s with
    | error e => rw [hs] at h; cases h
    | ok c => rw [hs] at h; cases h; rfl

/-- a combo that is read alone is no chord: no blank is written -/
lemma Shortcut.parse_display (h : combo.Recordable) (hplus : combo.key ≠ .char '+') :
    Shortcut.parse combo.display.toList = .ok (.single combo) := by
  have hsolid := KeyCombo.display_solid (Key.display_spec h.1 hplus).1
  have hnone : Find.before [',', ' '] combo.display.toList = none := by
    rw [Find.before_eq_none]
    intro hseparator
    have hblank := hsolid ' ' (hseparator.subset (by decide))
    exact absurd hblank (by decide)
  rw [Shortcut.parse, hnone, KeyCombo.parse_display h hplus]
  rfl

lemma eq_ok_of_toOption {ε α : Type} {x : Except ε α} {a : α} (h : x.toOption = some a) : x = .ok a := by
  cases x with
  | error e => cases h
  | ok b => rw [Option.some.inj h]

lemma defaultCombo_shortcut (macos : Bool) (action : KeybindAction) :
    Shortcut.parse (action.defaultCombo macos).display.toList = .ok (.single (action.defaultCombo macos)) := by
  obtain ⟨hrecorded, hplus⟩ := action.defaultCombo_recordable macos
  exact Shortcut.parse_display hrecorded hplus

lemma fixed_shortcut (macos : Bool) : ∀ b ∈ aliasBindings macos ++ systemBindings macos, ∃ combo,
    Shortcut.parse b.1.toList = .ok (.single combo) ∧ KeyCombo.parse b.1.toList = .ok combo := by
  have hall : ∀ macos, ∀ b ∈ aliasBindings macos ++ systemBindings macos,
      Find.before [',', ' '] b.1.toList = none ∧ (KeyCombo.parse b.1.toList).toOption.isSome = true := by
    decide +kernel
  intro b hb
  obtain ⟨hnone, hsome⟩ := hall macos b hb
  obtain ⟨combo, hparse⟩ := Option.isSome_iff_exists.mp hsome
  refine ⟨combo, ?_, eq_ok_of_toOption hparse⟩
  rw [Shortcut.parse, hnone, eq_ok_of_toOption hparse]
  rfl

/-- **Main result.**  The overrides of a session are read again as they were, and every shortcut that is registered
parses to its combo, exactly when no override has the plus sign for its key. -/
theorem survives_restart (macos : Bool) (hrecorded : ∀ action combo, overrides.get action = some combo → combo.Recordable)
    (hentries : overrides.Lists entries) (hraw : (saveUserKeybinds entries).Lists raw) :
    ((∀ action, (loadUserKeybinds raw).get action = overrides.get action) ∧
      (∀ action, let combo := (overrides.get action).getD (action.defaultCombo macos)
        (combo.display, action.dispatchCommand) ∈ shortcutBindings macos overrides ∧
          Shortcut.parse combo.display.toList = .ok (.single combo)) ∧
      ∀ b ∈ shortcutBindings macos overrides, ∃ combo,
        Shortcut.parse b.1.toList = .ok (.single combo) ∧ KeyCombo.parse b.1.toList = .ok combo) ↔
    ∀ action combo, overrides.get action = some combo → combo.key ≠ .char '+' := by
  constructor
  · rintro ⟨hload, -⟩ action combo hget hplus
    have h := hload action
    rw [get_loadUserKeybinds hentries hraw, hget, Option.bind_some, KeyCombo.parse_plus hplus] at h
    cases h
  · intro hplus
    have heffective : ∀ action, Shortcut.parse ((overrides.get action).getD (action.defaultCombo macos)).display.toList =
        .ok (.single ((overrides.get action).getD (action.defaultCombo macos))) := by
      intro action
      cases hget : overrides.get action with
      | none => exact defaultCombo_shortcut macos action
      | some combo => exact Shortcut.parse_display (hrecorded action combo hget) (hplus action combo hget)
    refine ⟨?_, ?_, ?_⟩
    · intro action
      rw [get_loadUserKeybinds hentries hraw]
      cases hget : overrides.get action with
      | none => rfl
      | some combo =>
        rw [Option.bind_some, KeyCombo.parse_display (hrecorded action combo hget) (hplus action combo hget)]
        rfl
    · intro action
      refine ⟨?_, heffective action⟩
      rw [shortcutBindings, List.append_assoc]
      exact List.mem_append_left _ (List.mem_map_of_mem (KeybindAction.mem_ALL action))
    · intro b hb
      rw [shortcutBindings, List.append_assoc] at hb
      rcases List.mem_append.mp hb with hb | hb
      · obtain ⟨action, -, rfl⟩ := List.mem_map.mp hb
        have hsingle := heffective action
        exact ⟨_, hsingle, parse_of_single hsingle⟩
      · exact fixed_shortcut macos b hb

/-- the plus sign with the control key: it is recorded, and gone after a restart -/
theorem plus_lost : let combo : KeyCombo := ⟨.char '+', .CTRL⟩
    (∀ action c, (Table.collect [(KeybindAction.zoomIn, combo)]).get action = some c → c.Recordable) ∧
      combo.display = "Ctrl++" ∧
      (loadUserKeybinds (saveUserKeybinds [(.zoomIn, combo)]).entries).get .zoomIn = none ∧
      (Shortcut.parse combo.display.toList).toOption = none := by
  refine ⟨?_, by decide, by decide, by decide⟩
  intro action c h
  obtain ⟨-, rfl⟩ := Prod.mk.inj (List.mem_singleton.mp ((Table.get_collect (by decide) action c).mp h))
  exact ⟨⟨by decide, by decide⟩, show (2 : Nat) < 16 by decide⟩

theorem survives_restart_letter :
    (loadUserKeybinds [("new_terminal", "Ctrl+N")]).get .newTerminal = some ⟨.char 'n', .CTRL⟩ := by
  have hentries : (Table.collect [(KeybindAction.newTerminal, (⟨.char 'n', .CTRL⟩ : KeyCombo))]).Lists
      [(.newTerminal, ⟨.char 'n', .CTRL⟩)] := Table.lists_collect (by decide)
  have hraw : (saveUserKeybinds [(.newTerminal, ⟨.char 'n', .CTRL⟩)]).Lists [("new_terminal", "Ctrl+N")] := by
    have hsaved : saveUserKeybinds [(.newTerminal, ⟨.char 'n', .CTRL⟩)] = .collect [("new_terminal", "Ctrl+N")] := by
      decide
    rw [hsaved]
    exact Table.lists_collect (by decide)
  have honly : ∀ action combo, (Table.collect [(KeybindAction.newTerminal, (⟨.char 'n', .CTRL⟩ : KeyCombo))]).get action =
      some combo → combo = ⟨.char 'n', .CTRL⟩ := by
    intro action combo h
    exact (Prod.mk.inj (List.mem_singleton.mp ((hentries.2 action combo).mpr h))).2
  have hrecorded : ∀ action combo, (Table.collect [(KeybindAction.newTerminal, (⟨.char 'n', .CTRL⟩ : KeyCombo))]).get action =
      some combo → combo.Recordable := by
    intro action combo h
    rw [honly action combo h]
    exact ⟨⟨by decide, by decide⟩, show (2 : Nat) < 16 by decide⟩
  have hplus := (survives_restart false hrecorded hentries hraw).mpr fun action combo h => by
    rw [honly action combo h]
    decide
  exact (hplus.1 .newTerminal).trans (by decide)

end

end TerminalManager.Keybinds
