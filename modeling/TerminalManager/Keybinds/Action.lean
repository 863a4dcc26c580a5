import Mathlib.Data.Fintype.Defs
import TerminalManager.Keybinds.RoundTrip

/-!
# The actions a key combo can be bound to

* `KeybindAction.ALL`            every action, in display order;
* `KeybindAction.defaultCombo`   the combo of an action before it is changed, on either platform;
* `defaultCombo_injective`       no two actions have the same default.
-/

namespace TerminalManager.Keybinds

inductive KeybindAction
  | newTerminal
  | newAgent
  | newClaudeAgent
  | newCodexAgent
  | closeTab
  | splitRight
  | splitDown
  | unsplit
  | focusLeft
  | focusRight
  | focusUp
  | focusDown
  | nextTab
  | prevTab
  | commandPalette
  | quickPromptOpen
  | renameSession
  | openFile
  | quickOpen
  | diffOpen
  | editorSave
  | toggleExplorer
  | toggleSidebar
  | openSettings
  | zoomIn
  | zoomOut
  | zoomReset
  | fullscreen
deriving DecidableEq, Repr

namespace KeybindAction

def ALL : List KeybindAction :=
  [.newTerminal, .newAgent, .newClaudeAgent, .newCodexAgent, .closeTab, .splitRight, .splitDown,
    .unsplit, .focusLeft, .focusRight, .focusUp, .focusDown, .nextTab, .prevTab, .commandPalette,
    .quickPromptOpen, .renameSession, .openFile, .quickOpen, .diffOpen, .editorSave, .toggleExplorer,
    .toggleSidebar, .openSettings, .zoomIn, .zoomOut, .zoomReset, .fullscreen]

lemma mem_ALL (action : KeybindAction) : action ∈ ALL := by
  cases action <;> decide

def macosComboStr : KeybindAction → String
  | newTerminal => "Meta+T"
  | newAgent => "Shift+Meta+A"
  | newClaudeAgent => "Shift+Meta+L"
  | newCodexAgent => "Shift+Meta+X"
  | closeTab => "Shift+Meta+W"
  | splitRight => "Meta+D"
  | splitDown => "Shift+Meta+D"
  | unsplit => "Meta+W"
  | focusLeft => "Alt+Meta+Left"
  | focusRight => "Alt+Meta+Right"
  | focusUp => "Alt+Meta+Up"
  | focusDown => "Alt+Meta+Down"
  | nextTab => "Shift+Meta+]"
  | prevTab => "Shift+Meta+["
  | commandPalette => "Shift+Meta+P"
  | quickPromptOpen => "Shift+Meta+I"
  | renameSession => "F2"
  | openFile => "Meta+O"
  | quickOpen => "Meta+P"
  | diffOpen => "Shift+Meta+G"
  | editorSave => "Meta+S"
  | toggleExplorer => "Meta+B"
  | toggleSidebar => "Shift+Meta+B"
  | openSettings => "Meta+,"
  | zoomIn => "Meta+="
  | zoomOut => "Meta+-"
  | zoomReset => "Meta+0"
  | fullscreen => "Ctrl+Meta+F"

def otherComboStr : KeybindAction → String
  | newTerminal => "Ctrl+T"
  | newAgent => "Ctrl+Shift+A"
  | newClaudeAgent => "Ctrl+Shift+L"
  | newCodexAgent => "Ctrl+Shift+X"
  | closeTab => "Ctrl+Shift+W"
  | splitRight => "Ctrl+D"
  | splitDown => "Ctrl+Shift+D"
  | unsplit => "Ctrl+W"
  | focusLeft => "Ctrl+Alt+Left"
  | focusRight => "Ctrl+Alt+Right"
  | focusUp => "Ctrl+Alt+Up"
  | focusDown => "Ctrl+Alt+Down"
  | nextTab => "Ctrl+Tab"
  | prevTab => "Ctrl+Shift+Tab"
  | commandPalette => "Ctrl+Shift+P"
  | quickPromptOpen => "Ctrl+Shift+Q"
  | renameSession => "F2"
  | openFile => "Ctrl+Shift+O"
  | quickOpen => "Ctrl+Shift+E"
  | diffOpen => "Ctrl+Shift+G"
  | editorSave => "Ctrl+Shift+S"
  | toggleExplorer => "Ctrl+B"
  | toggleSidebar => "Ctrl+Shift+B"
  | openSettings => "Ctrl+,"
  | zoomIn => "Ctrl+="
  | zoomOut => "Ctrl+-"
  | zoomReset => "Ctrl+0"
  | fullscreen => "F11"

/-- the default, for `target_os = "macos"` or for the others -/
def defaultComboStr (macos : Bool) (action : KeybindAction) : String :=
  if macos then action.macosComboStr else action.otherComboStr

/-- none when the default does not parse, where the code panics -/
def defaultCombo? (macos : Bool) (action : KeybindAction) : Option KeyCombo :=
  (KeyCombo.parse (action.defaultComboStr macos).toList).toOption

/-- the defaults in display order, read -/
def defaults (macos : Bool) : List KeyCombo :=
  if macos then
    [⟨.char 't', .META⟩, ⟨.char 'a', .union .SHIFT .META⟩, ⟨.char 'l', .union .SHIFT .META⟩, ⟨.char 'x', .union .SHIFT .META⟩,
      ⟨.char 'w', .union .SHIFT .META⟩, ⟨.char 'd', .META⟩, ⟨.char 'd', .union .SHIFT .META⟩, ⟨.char 'w', .META⟩,
      ⟨.arrowLeft, .union .ALT .META⟩, ⟨.arrowRight, .union .ALT .META⟩, ⟨.arrowUp, .union .ALT .META⟩,
      ⟨.arrowDown, .union .ALT .META⟩, ⟨.char ']', .union .SHIFT .META⟩, ⟨.char '[', .union .SHIFT .META⟩,
      ⟨.char 'p', .union .SHIFT .META⟩, ⟨.char 'i', .union .SHIFT .META⟩, ⟨.f 2, .empty⟩, ⟨.char 'o', .META⟩,
      ⟨.char 'p', .META⟩, ⟨.char 'g', .union .SHIFT .META⟩, ⟨.char 's', .META⟩, ⟨.char 'b', .META⟩,
      ⟨.char 'b', .union .SHIFT .META⟩, ⟨.char ',', .META⟩, ⟨.char '=', .META⟩, ⟨.char '-', .META⟩, ⟨.char '0', .META⟩,
      ⟨.char 'f', .union .CTRL .META⟩]
  else
    [⟨.char 't', .CTRL⟩, ⟨.char 'a', .union .CTRL .SHIFT⟩, ⟨.char 'l', .union .CTRL .SHIFT⟩, ⟨.char 'x', .union .CTRL .SHIFT⟩,
      ⟨.char 'w', .union .CTRL .SHIFT⟩, ⟨.char 'd', .CTRL⟩, ⟨.char 'd', .union .CTRL .SHIFT⟩, ⟨.char 'w', .CTRL⟩,
      ⟨.arrowLeft, .union .CTRL .ALT⟩, ⟨.arrowRight, .union .CTRL .ALT⟩, ⟨.arrowUp, .union .CTRL .ALT⟩,
      ⟨.arrowDown, .union .CTRL .ALT⟩, ⟨.tab, .CTRL⟩, ⟨.tab, .union .CTRL .SHIFT⟩, ⟨.char 'p', .union .CTRL .SHIFT⟩,
      ⟨.char 'q', .union .CTRL .SHIFT⟩, ⟨.f 2, .empty⟩, ⟨.char 'o', .union .CTRL .SHIFT⟩, ⟨.char 'e', .union .CTRL .SHIFT⟩,
      ⟨.char 'g', .union .CTRL .SHIFT⟩, ⟨.char 's', .union .CTRL .SHIFT⟩, ⟨.char 'b', .CTRL⟩,
      ⟨.char 'b', .union .CTRL .SHIFT⟩, ⟨.char ',', .CTRL⟩, ⟨.char '=', .CTRL⟩, ⟨.char '-', .CTRL⟩, ⟨.char '0', .CTRL⟩,
      ⟨.f 11, .empty⟩]

lemma defaults_recordable (macos : Bool) : ∀ combo ∈ defaults macos, combo.Recordable ∧ combo.key ≠ .char '+' := by
  cases macos <;> decide

/-- the texts of the defaults are what `Display` writes -/
lemma display_defaults (macos : Bool) : ALL.map (defaultComboStr macos) = (defaults macos).map KeyCombo.display := by
  cases macos <;> decide

lemma defaultCombo?_defaults (macos : Bool) : ALL.map (defaultCombo? macos) = (defaults macos).map some := by
  calc ALL.map (defaultCombo? macos)
      = (ALL.map (defaultComboStr macos)).map fun s => (KeyCombo.parse s.toList).toOption := List.map_map.symm
    _ = (defaults macos).map fun combo => (KeyCombo.parse combo.display.toList).toOption := by
        rw [display_defaults, List.map_map, Function.comp_def]
    _ = (defaults macos).map some := by
        apply List.map_congr_left
        intro combo hcombo
        obtain ⟨hrecordable, hplus⟩ := defaults_recordable macos combo hcombo
        rw [KeyCombo.parse_display hrecordable hplus]
        rfl

/-- in display order, every default parses and no two are the same -/
lemma defaultCombo?_distinct (macos : Bool) :
    (ALL.map (defaultCombo? macos)).Nodup ∧ none ∉ ALL.map (defaultCombo? macos) := by
  rw [defaultCombo?_defaults]
  refine ⟨List.Nodup.map (Option.some_injective _) ?_, by simp⟩
  cases macos <;> decide

lemma defaultCombo?_isSome (macos : Bool) (action : KeybindAction) : (action.defaultCombo? macos).isSome = true := by
  rw [Option.isSome_iff_ne_none]
  intro h
  exact (defaultCombo?_distinct macos).2 (List.mem_map.mpr ⟨action, mem_ALL action, h⟩)

def defaultCombo (macos : Bool) (action : KeybindAction) : KeyCombo :=
  (action.defaultCombo? macos).get (defaultCombo?_isSome macos action)

lemma defaultCombo_mem (macos : Bool) (action : KeybindAction) : action.defaultCombo macos ∈ defaults macos := by
  have hmem : action.defaultCombo? macos ∈ (defaults macos).map some := by
    rw [← defaultCombo?_defaults]
    exact List.mem_map_of_mem (mem_ALL action)
  obtain ⟨combo, hcombo, hsome⟩ := List.mem_map.mp hmem
  simp only [defaultCombo, ← hsome, Option.get_some]
  exact hcombo

lemma defaultCombo_recordable (macos : Bool) (action : KeybindAction) :
    (action.defaultCombo macos).Recordable ∧ (action.defaultCombo macos).key ≠ .char '+' :=
  defaults_recordable macos _ (defaultCombo_mem macos action)

/-- no two actions have the same default -/
lemma defaultCombo_injective (macos : Bool) : Function.Injective (defaultCombo macos) := by
  intro a b h
  apply List.inj_on_of_nodup_map (defaultCombo?_distinct macos).1 (mem_ALL a) (mem_ALL b)
  unfold defaultCombo at h
  rw [← Option.some_get (defaultCombo?_isSome macos a), h, Option.some_get]

end KeybindAction
end TerminalManager.Keybinds
