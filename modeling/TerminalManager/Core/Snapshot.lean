import TerminalManager.Core.Terminal
import TerminalManager.Lib.Json

/-!
# Snapshots of the daemon's emulator, as JSON

* `Snapshot`, `Terminal.snapshot`   the grid, the newest lines of the scrollback and what the client has to know besides;
* `Cell.json`, `Grid.json`, `Snapshot.json`   what is written: a cell leaves out what is as in a blank one;
* `Snapshot.size`, `length_json`    how many bytes that is.
-/

namespace TerminalManager.Core
open JsonText Term

/-- the newest `n` lines -/
def Scrollback.tail (s : Scrollback) (n : Nat) : List (List Cell) := s.lines.drop (s.lines.length - n)

structure Snapshot where
  grid : Grid
  scrollback : List (List Cell)
  mouseModes : MouseModes
  focusReporting1004 : Bool
deriving DecidableEq

def Terminal.snapshot (t : Terminal) (scrollbackLines : Nat) : Snapshot where
  grid := t.grid
  scrollback := t.scrollback.tail scrollbackLines
  mouseModes := t.mouseModes
  focusReporting1004 := t.focusReporting1004

/-! ## the texts -/

def colorJson (c : Color) : Text :=
  object [("r", number c.r.toNat), ("g", number c.g.toNat), ("b", number c.b.toNat), ("a", number c.a.toNat)]

/-- the names of the flags that are set, and the bits without a name -/
def attrNames (a : CellAttrs) : List String :=
  ([("BOLD", CellAttrs.bold), ("ITALIC", .italic), ("UNDERLINE", .underline), ("STRIKETHROUGH", .strikethrough),
    ("INVERSE", .inverse), ("DIM", .dim), ("BLINK", .blink), ("0x80", 128)].filter fun f => a &&& f.2 ≠ 0).map Prod.fst

def attrText (a : CellAttrs) : String := " | ".intercalate (attrNames a)

namespace Cell

/-- the members that are not as in a blank cell -/
def members (c : Cell) : List (String × Text) :=
  (if c.ch = ' ' then [] else [("ch", quote (String.singleton c.ch))]) ++
  (if c.fg = .white then [] else [("fg", colorJson c.fg)]) ++
  (if c.bg = .transparent then [] else [("bg", colorJson c.bg)]) ++
  (if c.attrs = 0 then [] else [("attrs", quote (attrText c.attrs))])

def json (c : Cell) : Text := object c.members

end Cell

def lineJson (line : List Cell) : Text := array (line.map Cell.json)

def Grid.json (g : Grid) : Text :=
  object [("rows", number g.rows), ("cols", number g.cols), ("cells", lineJson g.cells),
    ("cursor_row", number g.cursorRow), ("cursor_col", number g.cursorCol), ("cursor_visible", bool g.cursorVisible)]

def MouseModes.json (m : MouseModes) : Text :=
  object [("report_1000", bool m.report1000), ("report_1002", bool m.report1002), ("report_1003", bool m.report1003),
    ("sgr", bool m.sgr)]

def Snapshot.json (s : Snapshot) : Text :=
  object [("grid", s.grid.json), ("scrollback", array (s.scrollback.map lineJson)),
    ("mouse_modes", s.mouseModes.json), ("focus_reporting_1004", bool s.focusReporting1004)]

/-! ## their lengths -/

def colorSize (c : Color) : Nat := 21 + digits c.r.toNat + digits c.g.toNat + digits c.b.toNat + digits c.a.toNat

/-- two bytes for a blank cell, and the members that another one has, with commas between them -/
def Cell.size (c : Cell) : Nat :=
  listSize ((if c.ch = ' ' then [] else [7 + charSize c.ch]) ++ (if c.fg = .white then [] else [5 + colorSize c.fg]) ++
    (if c.bg = .transparent then [] else [5 + colorSize c.bg]) ++
    (if c.attrs = 0 then [] else [8 + quoteSize (attrText c.attrs)]))

def lineSize (line : List Cell) : Nat := listSize (line.map Cell.size)

/-- the cells, the four numbers, and 72 bytes of names -/
def Grid.size (g : Grid) : Nat :=
  72 + digits g.rows + digits g.cols + lineSize g.cells + digits g.cursorRow + digits g.cursorCol +
    boolSize g.cursorVisible

def MouseModes.size (m : MouseModes) : Nat :=
  53 + boolSize m.report1000 + boolSize m.report1002 + boolSize m.report1003 + boolSize m.sgr

def Snapshot.size (s : Snapshot) : Nat :=
  62 + s.grid.size + listSize (s.scrollback.map lineSize) + s.mouseModes.size + boolSize s.focusReporting1004

lemma length_colorJson (c : Color) : (colorJson c).length = colorSize c := by
  simp [colorJson, colorSize, listSize, memberSize, show quoteSize "r" = 3 from rfl, show quoteSize "g" = 3 from rfl,
    show quoteSize "b" = 3 from rfl, show quoteSize "a" = 3 from rfl]
  omega

/-- the size of a member that may be left out -/
lemma map_member (p : Prop) [Decidable p] (name : String) (value : Text) {n : Nat}
    (h : memberSize name value.length = n) :
    (if p then [] else [(name, value)]).map (fun m => memberSize m.1 m.2.length) = if p then [] else [n] := by
  split_ifs
  · rfl
  · exact congrArg (fun n => [n]) h

lemma Cell.length_json (c : Cell) : c.json.length = c.size := by
  have hch : memberSize "ch" (quote (String.singleton c.ch)).length = 7 + charSize c.ch := by
    have hquoted : quoteSize (String.singleton c.ch) = 2 + charSize c.ch := by simp [quoteSize]
    rw [length_quote, hquoted, memberSize, show quoteSize "ch" = 4 from rfl]
    omega
  have hfg : memberSize "fg" (colorJson c.fg).length = 5 + colorSize c.fg := by
    rw [length_colorJson]
    rfl
  have hbg : memberSize "bg" (colorJson c.bg).length = 5 + colorSize c.bg := by
    rw [length_colorJson]
    rfl
  have hattrs : memberSize "attrs" (quote (attrText c.attrs)).length = 8 + quoteSize (attrText c.attrs) := by
    rw [length_quote]
    rfl
  unfold Cell.json Cell.members
  rw [length_object, List.map_append, List.map_append, List.map_append, map_member _ _ _ hch, map_member _ _ _ hfg,
    map_member _ _ _ hbg, map_member _ _ _ hattrs]
  rfl

lemma length_lineJson (line : List Cell) : (lineJson line).length = lineSize line := by
  unfold lineJson lineSize
  rw [length_array, List.map_map]
  exact congrArg listSize (List.map_congr_left fun c _ => c.length_json)

lemma Grid.length_json (g : Grid) : g.json.length = g.size := by
  unfold Grid.json Grid.size
  rw [length_object]
  simp only [List.map_cons, List.map_nil, length_number, length_lineJson, length_bool, listSize, List.sum_cons,
    List.sum_nil, List.length_cons, List.length_nil, memberSize, show quoteSize "rows" = 6 from rfl,
    show quoteSize "cols" = 6 from rfl, show quoteSize "cells" = 7 from rfl, show quoteSize "cursor_row" = 12 from rfl,
    show quoteSize "cursor_col" = 12 from rfl, show quoteSize "cursor_visible" = 16 from rfl]
  omega

lemma MouseModes.length_json (m : MouseModes) : m.json.length = m.size := by
  unfold MouseModes.json MouseModes.size
  rw [length_object]
  simp only [List.map_cons, List.map_nil, length_bool, listSize, List.sum_cons, List.sum_nil, List.length_cons,
    List.length_nil, memberSize, show quoteSize "report_1000" = 13 from rfl, show quoteSize "report_1002" = 13 from rfl,
    show quoteSize "report_1003" = 13 from rfl, show quoteSize "sgr" = 5 from rfl]
  omega

/-- **The length of a snapshot.** -/
theorem Snapshot.length_json (s : Snapshot) : s.json.length = s.size := by
  have hlines : (s.scrollback.map lineJson).map List.length = s.scrollback.map lineSize := by
    rw [List.map_map]
    exact List.map_congr_left fun line _ => length_lineJson line
  unfold Snapshot.json Snapshot.size
  rw [length_object]
  simp only [List.map_cons, List.map_nil, length_array, hlines, s.grid.length_json, s.mouseModes.length_json, length_bool,
    memberSize, show quoteSize "grid" = 6 from rfl, show quoteSize "scrollback" = 12 from rfl,
    show quoteSize "mouse_modes" = 13 from rfl, show quoteSize "focus_reporting_1004" = 22 from rfl]
  have hfour : ∀ a b c d, listSize [a, b, c, d] = 5 + (a + b + c + d) := by
    intro a b c d
    simp only [listSize, List.sum_cons, List.sum_nil, List.length_cons, List.length_nil]
    omega
  rw [hfour]
  omega

/-- a cell takes two bytes at least, and a comma after it -/
lemma lineSize_ge (line : List Cell) : 3 * line.length ≤ lineSize line := by
  have hcell : ∀ n ∈ line.map Cell.size, 2 ≤ n := by
    intro n hn
    obtain ⟨c, -, rfl⟩ := List.mem_map.mp hn
    unfold Cell.size listSize
    omega
  have h := listSize_ge hcell
  rwa [List.length_map] at h

end TerminalManager.Core
