import TerminalManager.Keybinds.Action
import TerminalManager.Lib.Overlay
import TerminalManager.Lib.Transition

/-!
# Runtime keybind state

User overrides, the recording and the last error.  The overrides are sparse: an action without one has its
default.

* `KeybindsState.set`     an override, unless the combo belongs to another action;
* `KeybindsState.reset`   the default again, whatever has its combo by now;
* `effective_distinct`    over a whole run no two actions have one combo exactly when every reset finds the
                          default free.
-/

namespace TerminalManager.Keybinds
open Transition

inductive KeybindErrorKind
  | conflict (other : KeybindAction) (combo : String)
  | invalidCombo (combo message : String)
deriving DecidableEq, Repr

structure KeybindError where
  action : KeybindAction
  kind : KeybindErrorKind
deriving DecidableEq, Repr

structure KeybindsState where
  /-- only entries that differ from the default -/
  overrides : Table KeybindAction KeyCombo := ∅
  /-- the action that captures the next combo -/
  recording : Option KeybindAction := none
  error : Option KeybindError := none
deriving DecidableEq, Repr

/-- a call on the state -/
inductive Op
  | set (action : KeybindAction) (combo : KeyCombo)
  | reset (action : KeybindAction)
  | resetAll
  | startRecording (action : KeybindAction)
  | cancelRecording

namespace KeybindsState
section
variable (macos : Bool)

def effective (s : KeybindsState) (action : KeybindAction) : KeyCombo :=
  (s.overrides.get action).getD (action.defaultCombo macos)

/-- the first other action that has the combo -/
def conflict (s : KeybindsState) (combo : KeyCombo) (except : KeybindAction) : Option KeybindAction :=
  KeybindAction.ALL.find? fun action => action != except && s.effective macos action == combo

def set (s : KeybindsState) (action : KeybindAction) (combo : KeyCombo) : Except KeybindError Unit × KeybindsState :=
  match s.conflict macos combo action with
  | some other =>
    let err := ⟨action, .conflict other combo.display⟩
    (.error err, { s with error := some err })
  | none =>
    let overrides :=
      if combo = action.defaultCombo macos then s.overrides.remove action else s.overrides.insert action combo
    (.ok (), { overrides, recording := none, error := none })

def reset (s : KeybindsState) (action : KeybindAction) : KeybindsState :=
  { s with overrides := s.overrides.remove action, error := none }

def resetAll (_ : KeybindsState) : KeybindsState := { overrides := ∅, recording := none, error := none }

def startRecording (s : KeybindsState) (action : KeybindAction) : KeybindsState :=
  { s with recording := some action, error := none }

def cancelRecording (s : KeybindsState) : KeybindsState := { s with recording := none }

/-- no two actions have one combo -/
def Distinct (s : KeybindsState) : Prop := Function.Injective (s.effective macos)

/-- a reset finds the default of its action free -/
def FindsFree (s : KeybindsState) : Op → Prop
  | .reset action => s.conflict macos (action.defaultCombo macos) action = none
  | _ => True

/-- a set that fails changes neither the overrides nor the recording -/
def FailsClean (s : KeybindsState) : Op → Prop
  | .set action combo =>
    ∀ err, (s.set macos action combo).1 = .error err →
      (s.set macos action combo).2.overrides = s.overrides ∧ (s.set macos action combo).2.recording = s.recording
  | _ => True

end
end KeybindsState

def step (macos : Bool) (s : KeybindsState) : Op → Option KeybindsState
  | .set action combo => some (s.set macos action combo).2
  | .reset action => some (s.reset action)
  | .resetAll => some s.resetAll
  | .startRecording action => some (s.startRecording action)
  | .cancelRecording => some s.cancelRecording

namespace KeybindsState
section
variable {macos : Bool} {s t : KeybindsState}

lemma effective_eq (s : KeybindsState) :
    s.effective macos = Overlay.value (KeybindAction.defaultCombo macos) s.overrides := rfl

/-- a combo is free when no other action has it -/
lemma conflict_eq_none {combo : KeyCombo} {action : KeybindAction} :
    s.conflict macos combo action = none ↔ ∀ a, a ≠ action → s.effective macos a ≠ combo := by
  unfold conflict
  rw [List.find?_eq_none]
  constructor
  · intro h a ha heq
    apply h a (KeybindAction.mem_ALL a)
    rw [Bool.and_eq_true, bne_iff_ne, beq_iff_eq]
    exact ⟨ha, heq⟩
  · intro h a _ hconflict
    rw [Bool.and_eq_true, bne_iff_ne, beq_iff_eq] at hconflict
    exact h a hconflict.1 hconflict.2

/-- a combo that is free replaces the one of its action -/
lemma effective_set {action : KeybindAction} {combo : KeyCombo} (h : s.conflict macos combo action = none) :
    (s.set macos action combo).2.effective macos = Function.update (s.effective macos) action combo := by
  rw [effective_eq, effective_eq]
  unfold set
  rw [h]
  dsimp only
  by_cases hdefault : combo = action.defaultCombo macos
  · rw [if_pos hdefault, Overlay.value_remove, hdefault]
  · rw [if_neg hdefault, Overlay.value_insert]

lemma set_of_conflict {action other : KeybindAction} {combo : KeyCombo}
    (h : s.conflict macos combo action = some other) :
    s.set macos action combo = (.error ⟨action, .conflict other combo.display⟩,
      { s with error := some ⟨action, .conflict other combo.display⟩ }) := by
  unfold set
  rw [h]

lemma effective_reset (s : KeybindsState) (action : KeybindAction) :
    (s.reset action).effective macos =
      Function.update (s.effective macos) action (action.defaultCombo macos) := by
  rw [effective_eq, effective_eq]
  exact Overlay.value_remove ..

/-- without overrides every action has its default -/
lemma distinct_of_bare (h : s.overrides = ∅) : s.Distinct macos := by
  unfold Distinct
  rw [effective_eq, h, Overlay.value_empty]
  exact KeybindAction.defaultCombo_injective macos

lemma failsClean (s : KeybindsState) (op : Op) : s.FailsClean macos op := by
  cases op with
  | set action combo =>
    intro err herr
    cases hconflict : s.conflict macos combo action with
    | none =>
      unfold set at herr
      rw [hconflict] at herr
      cases herr
    | some other =>
      rw [set_of_conflict hconflict]
      exact ⟨rfl, rfl⟩
  | _ => trivial

/-- one call keeps the combos distinct exactly when a reset finds the default free -/
lemma Distinct.step (hs : s.Distinct macos) {op : Op} (h : step macos s op = some t) :
    t.Distinct macos ↔ s.FindsFree macos op := by
  cases op with
  | set action combo =>
    rw [← Option.some.inj h]
    refine iff_of_true ?_ trivial
    cases hconflict : s.conflict macos combo action with
    | none =>
      unfold Distinct
      rw [effective_set hconflict, Overlay.injective_update_iff hs]
      exact conflict_eq_none.mp hconflict
    | some other =>
      rw [set_of_conflict hconflict]
      exact hs
  | reset action =>
    rw [← Option.some.inj h]
    unfold Distinct
    rw [effective_reset, Overlay.injective_update_iff hs]
    exact conflict_eq_none.symm
  | resetAll => exact iff_of_true (Option.some.inj h ▸ distinct_of_bare rfl) trivial
  | startRecording action => exact iff_of_true (Option.some.inj h ▸ hs) trivial
  | cancelRecording => exact iff_of_true (Option.some.inj h ▸ hs) trivial

end
end KeybindsState

/-- **Main result.**  No two actions ever have one combo, and a set that fails changes nothing but the error,
exactly when every reset finds the default of its action free. -/
theorem effective_distinct (macos : Bool) (ops : List Op) :
    (Throughout (step macos) (KeybindsState.Distinct macos) {} ops ∧
        Along (step macos) (KeybindsState.FailsClean macos) {} ops) ↔
      Along (step macos) (KeybindsState.FindsFree macos) {} ops := by
  have hstep (s : KeybindsState) (op : Op) (hs : s.Distinct macos) :
      (∀ t ∈ step macos s op, t.Distinct macos) ↔ s.FindsFree macos op := by
    obtain ⟨t, ht⟩ : ∃ t, step macos s op = some t := by
      cases op <;> exact ⟨_, rfl⟩
    rw [ht]
    simp only [Option.mem_some_iff, forall_eq']
    exact hs.step ht
  rw [throughout_iff (fun _ _ _ _ _ => trivial) (fun s op _ hs => hstep s op hs) (I := fun _ => True) trivial
    (KeybindsState.distinct_of_bare rfl)]
  exact and_iff_left (Along.of_forall (fun op _ s => s.failsClean op) _)

/-- the default of one action is taken by another while it is free -/
def taken : List Op :=
  [.set .newTerminal ⟨.f 7, .CTRL⟩, .set .closeTab (KeybindAction.defaultCombo false .newTerminal), .reset .newTerminal]

/-- the reset brings back a default that another action has by now -/
theorem taken_collides : ∃ s, exec (step false) {} taken = some s ∧
    s.effective false .newTerminal = s.effective false .closeTab ∧ ¬ s.Distinct false := by
  refine ⟨_, rfl, ?_, fun h => ?_⟩
  · decide +kernel
  · exact absurd (h (show _ = KeybindsState.effective false _ .closeTab by decide +kernel))
      (by decide : KeybindAction.newTerminal ≠ .closeTab)

end TerminalManager.Keybinds
