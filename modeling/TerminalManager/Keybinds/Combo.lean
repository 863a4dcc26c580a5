import TerminalManager.Editor.Buffer
import Mathlib.Data.List.DropRight

/-!
# Key combos

A key with its modifiers, as it is written in the settings: `Ctrl+Shift+T`.

* `Key.fromName`, `Modifiers.parseName`   the names, in either case;
* `KeyCombo.parse`                        a combo read, or what is wrong with it;
* `KeyCombo.display`                      a combo written.
-/

namespace TerminalManager.Keybinds
open Editor (isWhitespace)

/-- `str::trim` -/
def trim (s : List Char) : List Char := ((s.dropWhile isWhitespace).reverse.dropWhile isWhitespace).reverse

lemma trim_eq_rdropWhile (s : List Char) : trim s = (s.dropWhile isWhitespace).rdropWhile isWhitespace := rfl

lemma trim_trim (s : List Char) : trim (trim s) = trim s := by
  have hprefix : trim s <+: s.dropWhile isWhitespace := List.rdropWhile_prefix _ _
  have hdrop : (trim s).dropWhile isWhitespace = trim s := by
    cases ht : trim s with
    | nil => rfl
    | cons c t =>
      rw [ht] at hprefix
      obtain ⟨rest, hrest⟩ := hprefix
      have hc := List.head_dropWhile_not isWhitespace (l := s) (by rw [← hrest]; exact List.cons_ne_nil _ _)
      apply List.dropWhile_cons_of_neg
      simp only [← hrest, List.cons_append, List.head_cons] at hc
      rw [hc]
      exact Bool.false_ne_true
  rw [trim_eq_rdropWhile (trim s), hdrop, trim_eq_rdropWhile s, List.rdropWhile_idempotent]

/-- what is trimmed is whitespace -/
lemma trim_split (s : List Char) :
    ∃ l r, s = l ++ trim s ++ r ∧ (∀ c ∈ l, isWhitespace c = true) ∧ ∀ c ∈ r, isWhitespace c = true := by
  refine ⟨s.takeWhile isWhitespace, (s.dropWhile isWhitespace).rtakeWhile isWhitespace, ?_,
    fun _ hc => List.mem_takeWhile_imp hc, fun _ hc => List.mem_rtakeWhile_imp hc⟩
  rw [trim_eq_rdropWhile, List.append_assoc, List.rdropWhile_append_rtakeWhile, List.takeWhile_append_dropWhile]

lemma toLower_cases (c : Char) : c.toLower = c ∧ (c.toNat < 65 ∨ 90 < c.toNat) ∨ ∃ n : Fin 26, c = Char.ofNat (65 + n) := by
  by_cases h : 'A'.val ≤ c.val ∧ c.val ≤ 'Z'.val
  · right
    have hlo : 65 ≤ c.toNat := UInt32.le_iff_toNat_le.mp h.1
    have hhi : c.toNat ≤ 90 := UInt32.le_iff_toNat_le.mp h.2
    refine ⟨⟨c.toNat - 65, by omega⟩, ?_⟩
    dsimp only
    rw [show 65 + (c.toNat - 65) = c.toNat by omega, Char.ofNat_toNat]
  · refine .inl ⟨dif_neg h, ?_⟩
    by_contra hrange
    apply h
    exact ⟨UInt32.le_iff_toNat_le.mpr (show 65 ≤ c.toNat by omega), UInt32.le_iff_toNat_le.mpr (show c.toNat ≤ 90 by omega)⟩

/-- `str::to_ascii_lowercase`, of what is left of a name without its blanks -/
def lowered (s : List Char) : String := String.ofList ((trim s).map Char.toLower)

inductive Key
  | char (c : Char)
  | enter
  | escape
  | backspace
  | tab
  | space
  | arrowUp
  | arrowDown
  | arrowLeft
  | arrowRight
  | home
  | end
  | pageUp
  | pageDown
  | delete
  | insert
  | f (n : Nat)
  | unknown
deriving DecidableEq, Repr

/-- a decimal digit more; none when it is no digit or the number does not fit in a byte -/
def addDigit (n : Nat) (c : Char) : Option Nat :=
  if c.isDigit ∧ 10 * n + (c.toNat - 48) < 256 then some (10 * n + (c.toNat - 48)) else none

/-- `str::parse::<u8>`: digits, after a plus sign if any; none when there are none or the number is too large -/
def parseU8 (s : List Char) : Option Nat :=
  let digits := match s with
    | '+' :: rest => rest
    | s => s
  if digits = [] then
    none
  else
    digits.foldlM addDigit 0

namespace Key

/-- one of the function keys, or a single character -/
def fromOther (name : List Char) : Option Key :=
  let functionKey := match name with
    | 'f' :: rest => (parseU8 rest).filter fun n => 1 ≤ n && n ≤ 12
    | _ => none
  match functionKey with
  | some n => some (f n)
  | none =>
    match name with
    | [c] => some (char c.toLower)
    | _ => none

def fromName (s : List Char) : Option Key :=
  match lowered s with
  | "enter" => some enter
  | "escape" | "esc" => some escape
  | "backspace" => some backspace
  | "tab" => some tab
  | "space" => some space
  | "up" | "arrowup" => some arrowUp
  | "down" | "arrowdown" => some arrowDown
  | "left" | "arrowleft" => some arrowLeft
  | "right" | "arrowright" => some arrowRight
  | "home" => some home
  | "end" => some Key.end
  | "pageup" => some pageUp
  | "pagedown" => some pageDown
  | "delete" | "del" => some delete
  | "insert" | "ins" => some insert
  | other => fromOther other.toList

def display : Key → String
  | char c => String.singleton c.toUpper
  | enter => "Enter"
  | escape => "Escape"
  | backspace => "Backspace"
  | tab => "Tab"
  | space => "Space"
  | arrowUp => "Up"
  | arrowDown => "Down"
  | arrowLeft => "Left"
  | arrowRight => "Right"
  | home => "Home"
  | Key.end => "End"
  | pageUp => "PageUp"
  | pageDown => "PageDown"
  | delete => "Delete"
  | insert => "Insert"
  | f n => "F" ++ toString n
  | unknown => "Unknown"

end Key

/-- the modifiers that are held, one bit each -/
structure Modifiers where
  bits : UInt8
deriving DecidableEq, Repr

namespace Modifiers

def empty : Modifiers := ⟨0⟩
def SHIFT : Modifiers := ⟨0b0001⟩
def CTRL : Modifiers := ⟨0b0010⟩
def ALT : Modifiers := ⟨0b0100⟩
def META : Modifiers := ⟨0b1000⟩

def union (a b : Modifiers) : Modifiers := ⟨a.bits ||| b.bits⟩

def contains (a b : Modifiers) : Bool := a.bits &&& b.bits == b.bits

def parseName (s : List Char) : Option Modifiers :=
  match lowered s with
  | "ctrl" | "control" => some CTRL
  | "shift" => some SHIFT
  | "alt" => some ALT
  | "meta" | "super" | "cmd" | "command" => some META
  | _ => none

def display (m : Modifiers) : String :=
  (if m.contains CTRL then "Ctrl+" else "") ++ (if m.contains ALT then "Alt+" else "") ++
    (if m.contains SHIFT then "Shift+" else "") ++ if m.contains META then "Meta+" else ""

end Modifiers

/-- a single key with its modifiers -/
structure KeyCombo where
  key : Key
  modifiers : Modifiers
deriving DecidableEq, Repr

namespace KeyCombo

def addModifier (modifiers : Modifiers) (part : List Char) : Except String Modifiers :=
  match Modifiers.parseName (trim part) with
  | some m => .ok (modifiers.union m)
  | none => .error ("unknown modifier: " ++ String.ofList (trim part))

def parse (s : List Char) : Except String KeyCombo := do
  let s := trim s
  if s = [] then
    throw "empty key combo"
  let parts := s.splitOn '+'
  let keyStr := trim (parts.getLastD [])
  let key ← match Key.fromName keyStr with
    | some key => pure key
    | none => throw ("unknown key: " ++ String.ofList keyStr)
  let modifiers ← parts.dropLast.foldlM addModifier .empty
  return ⟨key, modifiers⟩

def display (c : KeyCombo) : String := c.modifiers.display ++ c.key.display

end KeyCombo

end TerminalManager.Keybinds
