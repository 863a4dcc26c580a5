import Mathlib.Tactic.Common

/-!
# Colours, attributes and callbacks of the two emulators

What `unshit-terminal-core` and the UI's `terminal` module have in common: the colour palette, the
attribute bits and the callbacks of the `vte` parser.

* `Color`, `CellAttrs`     the two crates declare them with the same layout;
* `ansi16Color`, `fgColor256`, …   palette lookups, `none` where the index is out of the table; the
  flag `parity` is the environment switch `TM_PARITY_WINDOWS_TERMINAL_COLORS`;
* `Callback`               one call of the parser; `Event` adds the calls of the emulator's owner.
-/

namespace TerminalManager.Term

structure Color where
  r : UInt8
  g : UInt8
  b : UInt8
  a : UInt8
deriving DecidableEq

namespace Color

def transparent : Color := ⟨0, 0, 0, 0⟩
def white : Color := ⟨255, 255, 255, 255⟩
def rgb (r g b : UInt8) : Color := ⟨r, g, b, 255⟩

end Color

/-- one bit a flag -/
abbrev CellAttrs := UInt8

namespace CellAttrs

def bold : CellAttrs := 1
def italic : CellAttrs := 2
def underline : CellAttrs := 4
def strikethrough : CellAttrs := 8
def inverse : CellAttrs := 16
def dim : CellAttrs := 32
def blink : CellAttrs := 64

end CellAttrs

def ansi16 : List Color :=
  [.rgb 0 0 0, .rgb 170 0 0, .rgb 0 170 0, .rgb 170 85 0,
   .rgb 0 0 170, .rgb 170 0 170, .rgb 0 170 170, .rgb 170 170 170,
   .rgb 85 85 85, .rgb 255 85 85, .rgb 85 255 85, .rgb 255 255 85,
   .rgb 85 85 255, .rgb 255 85 255, .rgb 85 255 255, .rgb 255 255 255]

def windowsTerminalAnsi16 : List Color :=
  [.rgb 12 12 12, .rgb 197 15 31, .rgb 19 161 14, .rgb 193 156 0,
   .rgb 0 55 218, .rgb 136 23 152, .rgb 58 150 221, .rgb 204 204 204,
   .rgb 118 118 118, .rgb 231 72 86, .rgb 22 198 12, .rgb 249 241 165,
   .rgb 59 120 255, .rgb 180 0 158, .rgb 97 214 214, .rgb 242 242 242]

def windowsTerminalParityDefaultFg : Color := .rgb 196 196 196

def ansi16Color (parity : Bool) (index : Nat) : Option Color :=
  if parity then windowsTerminalAnsi16[index]? else ansi16[index]?

/-- neutral foregrounds are calibrated apart from the background swatches -/
def ansi16FgColor (parity : Bool) (index : Nat) : Option Color :=
  (ansi16Color parity index).map fun color =>
    if !parity then color
    else match index with
      | 7 => windowsTerminalParityDefaultFg
      | 8 => .rgb 114 114 114
      | _ => color

/-- the 256-colour palette: the table, a 6 by 6 by 6 cube, 24 grays -/
def color256 (index : UInt8) : Option Color :=
  if index < 16 then ansi16[index.toNat]?
  else if index < 232 then
    let idx := index.toNat - 16
    let toVal (i : Nat) : UInt8 := if i = 0 then 0 else UInt8.ofNat (55 + 40 * i)
    some (.rgb (toVal (idx / 36)) (toVal (idx / 6 % 6)) (toVal (idx % 6)))
  else
    let v := UInt8.ofNat (8 + 10 * (index.toNat - 232))
    some (.rgb v v v)

def fgColor256 (parity : Bool) (index : UInt8) : Option Color :=
  if index < 16 then ansi16FgColor parity index.toNat else color256 index

def bgColor256 (parity : Bool) (index : UInt8) : Option Color :=
  if index < 16 then ansi16Color parity index.toNat else color256 index

lemma ansi16Color_isSome (parity : Bool) {index : Nat} (h : index < 16) :
    ∃ c, ansi16Color parity index = some c := by
  cases parity
  · exact ⟨_, List.getElem?_eq_getElem (l := ansi16) h⟩
  · exact ⟨_, List.getElem?_eq_getElem (l := windowsTerminalAnsi16) h⟩

lemma ansi16FgColor_isSome (parity : Bool) {index : Nat} (h : index < 16) :
    ∃ c, ansi16FgColor parity index = some c := by
  obtain ⟨c, hc⟩ := ansi16Color_isSome parity h
  exact ⟨_, by rw [ansi16FgColor, hc, Option.map_some]⟩

lemma color256_isSome (index : UInt8) : ∃ c, color256 index = some c := by
  unfold color256
  split
  next h => exact ⟨_, List.getElem?_eq_getElem (l := ansi16) h⟩
  split
  · exact ⟨_, rfl⟩
  · exact ⟨_, rfl⟩

lemma fgColor256_isSome (parity : Bool) (index : UInt8) : ∃ c, fgColor256 parity index = some c := by
  unfold fgColor256
  split
  next h => exact ansi16FgColor_isSome parity h
  next => exact color256_isSome index

lemma bgColor256_isSome (parity : Bool) (index : UInt8) : ∃ c, bgColor256 parity index = some c := by
  unfold bgColor256
  split
  next h => exact ansi16Color_isSome parity h
  next => exact color256_isSome index

/-! ## callbacks -/

/-- a parameter of a control sequence: its first subparameter, which is always there, and the others -/
structure Param where
  first : UInt16
  rest : List UInt16

/-- the callbacks of `vte::Perform` that the emulators act on -/
inductive Callback where
  | print (c : Char)
  | execute (byte : UInt8)
  | csiDispatch (params : List Param) (intermediates : List UInt8) (ignore : Bool) (action : Char)
  | oscDispatch (params : List (List UInt8)) (bellTerminated : Bool)
  | escDispatch (intermediates : List UInt8) (ignore : Bool) (byte : UInt8)

/-- what happens to an emulator: a callback of its parser, the end of `process_bytes`, a `resize` -/
inductive Event where
  | call (c : Callback)
  | flush
  | resize (rows cols : Nat)

/-- the first subparameters -/
def firsts (params : List Param) : List Nat := params.map fun p => p.first.toNat

/-- the bytes of a text -/
def utf8 (s : String) : List UInt8 := s.toUTF8.data.toList

/-- `std::str::from_utf8` -/
def fromUtf8 (bytes : List UInt8) : Option String := String.fromUTF8? ⟨bytes.toArray⟩

end TerminalManager.Term
