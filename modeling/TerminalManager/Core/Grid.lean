import TerminalManager.Lib.Loops
import TerminalManager.Lib.Picture
import TerminalManager.Term.Vte

/-!
# The grid and the scrollback of the daemon's emulator

`unshit-terminal-core`'s `Grid` keeps its cells in one flat vector, row after row.  Every index and
range into it is checked here, `none` is a panic.

* `Grid`, `Scrollback`   the types and their operations, as in the source;
* `Grid.WellFormed`      `rows * cols` cells and the cursor on the grid;
* `Grid.set_spec`, `resize_spec`, `shrinkRowsFromTop_spec`, `growRowsAtTop_spec`, `scrollUp_spec`
  on a well-formed grid no operation panics, and what it shows afterwards is an operation on pictures.
-/

namespace TerminalManager.Core
open Loops Slice Term

structure Cell where
  ch : Char
  fg : Color
  bg : Color
  attrs : CellAttrs
deriving DecidableEq

def Cell.blank : Cell := ⟨' ', .white, .transparent, 0⟩

structure Grid where
  rows : Nat
  cols : Nat
  cells : List Cell
  cursorRow : Nat
  cursorCol : Nat
  cursorVisible : Bool
deriving DecidableEq

namespace Grid

def new (rows cols : Nat) : Grid where
  rows
  cols
  cells := List.replicate (rows * cols) .blank
  cursorRow := 0
  cursorCol := 0
  cursorVisible := true

/-- the position is clamped to the grid -/
def setCursor (g : Grid) (row col : Nat) : Grid :=
  { g with cursorRow := min row (g.rows - 1), cursorCol := min col (g.cols - 1) }

def get (g : Grid) (row col : Nat) : Option Cell :=
  if row < g.rows ∧ col < g.cols then g.cells[row * g.cols + col]? else none

/-- a position outside of the grid is ignored -/
def set (g : Grid) (row col : Nat) (cell : Cell) : Option Grid :=
  if row < g.rows ∧ col < g.cols then
    (set? g.cells (row * g.cols + col) cell).map fun cells => { g with cells }
  else some g

/-- the cells of `resize`: one assignment for each cell that stays -/
def resizedCells (g : Grid) (rows cols : Nat) : Option (List Cell) :=
  forRange 0 (min rows g.rows) (fun next r =>
    forRange 0 (min cols g.cols) (fun next c => do
      set? next (r * cols + c) (← g.cells[r * g.cols + c]?)) next)
    (List.replicate (rows * cols) .blank)

def resize (g : Grid) (rows cols : Nat) : Option Grid :=
  if rows = g.rows ∧ cols = g.cols then some g
  else (g.resizedCells rows cols).map fun cells =>
    { g with
      cells, rows, cols
      cursorRow := if rows = 0 then 0 else if g.cursorRow ≥ rows then rows - 1 else g.cursorRow
      cursorCol := if cols = 0 then 0 else if g.cursorCol ≥ cols then cols - 1 else g.cursorCol }

/-- the rows that leave at the top, and the grid after it -/
def shrinkRowsFromTop (g : Grid) (n : Nat) : Option (List (List Cell) × Grid) :=
  if n = 0 ∨ g.rows = 0 ∨ g.cols = 0 then some ([], g)
  else do
    let take := min n g.rows
    let evicted ← forRange 0 take (fun evicted r => do
      let row ← range? g.cells (r * g.cols) (r * g.cols + g.cols)
      some (evicted ++ [row])) []
    let cells ← copyWithin? g.cells (take * g.cols) g.cells.length 0
    let cells ← fillFrom? cells ((← sub? g.rows take) * g.cols) .blank
    some (evicted, { g with cells })

def growRowsAtTop (g : Grid) (n : Nat) (lifted : List (List Cell)) : Option Grid :=
  if n = 0 then some g
  else do
    let lifted := lifted.take n
    let blankTop ← sub? n lifted.length
    let next ← forRange 0 lifted.length (fun next i => do
      let row ← lifted[i]?
      overwrite? next ((blankTop + i) * g.cols) (row.take (min row.length g.cols)))
      (List.replicate ((g.rows + n) * g.cols) .blank)
    let next ← forRange 0 g.rows (fun next r => do
      overwrite? next ((r + n) * g.cols) (← range? g.cells (r * g.cols) (r * g.cols + g.cols))) next
    some { g with cells := next, rows := g.rows + n }

/-- the row that leaves at the top, nothing from an empty grid, and the grid after it -/
def scrollUp (g : Grid) : Option (List Cell × Grid) :=
  if g.rows = 0 ∨ g.cols = 0 then some ([], g)
  else do
    let evicted ← range? g.cells 0 g.cols
    let cells ← copyWithin? g.cells g.cols g.cells.length 0
    let cells ← fillFrom? cells ((← sub? g.rows 1) * g.cols) .blank
    some (evicted, { g with cells })

end Grid

structure Scrollback where
  lines : List (List Cell)
  maxLines : Nat
deriving DecidableEq

namespace Scrollback

def new (maxLines : Nat) : Scrollback := ⟨[], maxLines⟩

/-- the oldest lines leave when there are too many -/
def push (s : Scrollback) (line : List Cell) : Scrollback :=
  if s.maxLines = 0 then s
  else { s with lines := (s.lines ++ [line]).drop (s.lines.length + 1 - s.maxLines) }

def clear (s : Scrollback) : Scrollback := { s with lines := [] }

/-- the newest `n` lines, oldest first, and the scrollback without them -/
def popBackN (s : Scrollback) (n : Nat) : Option (List (List Cell) × Scrollback) := do
  let take := min n s.lines.length
  let splitAt ← sub? s.lines.length take
  some (s.lines.drop splitAt, { s with lines := s.lines.take splitAt })

variable {s : Scrollback} {line : List Cell} {n : Nat}

lemma push_maxLines : (s.push line).maxLines = s.maxLines := by
  unfold push
  split <;> rfl

lemma length_push (line : List Cell) (h : s.lines.length ≤ s.maxLines) : (s.push line).lines.length ≤ s.maxLines := by
  unfold push
  split
  · exact h
  · show (List.drop _ _).length ≤ _
    rw [List.length_drop, List.length_append, List.length_singleton]
    omega

lemma popBackN_eq : s.popBackN n = some (s.lines.drop (s.lines.length - n),
    { s with lines := s.lines.take (s.lines.length - n) }) := by
  show (sub? s.lines.length (min n s.lines.length)).bind _ = _
  rw [sub?_eq (Nat.min_le_right n s.lines.length),
    show s.lines.length - min n s.lines.length = s.lines.length - n by omega]
  rfl

end Scrollback

/-! ## what the operations show -/

namespace Grid

variable {g g' : Grid} {r c n : Nat} {x : Cell}

/-- as many cells as the size says, the cursor on the grid or at zero on an empty axis -/
structure WellFormed (g : Grid) : Prop where
  length : g.cells.length = g.rows * g.cols
  cursorRow : g.cursorRow ≤ g.rows - 1
  cursorCol : g.cursorCol ≤ g.cols - 1

def view (g : Grid) : Picture Cell := fun r c => g.get r c

/-- the same grid but for its cells -/
structure Like (g g' : Grid) : Prop where
  rows : g'.rows = g.rows
  cols : g'.cols = g.cols
  visible : g'.cursorVisible = g.cursorVisible
  wellFormed : g'.WellFormed

lemma view_eq : g.view = Picture.ofCells g.rows g.cols g.cells := rfl

lemma WellFormed.like (h : g.WellFormed) : g.Like g := ⟨rfl, rfl, rfl, h⟩

lemma Like.trans {g'' : Grid} (h : g.Like g') (h' : g'.Like g'') : g.Like g'' :=
  ⟨h'.rows.trans h.rows, h'.cols.trans h.cols, h'.visible.trans h.visible, h'.wellFormed⟩

lemma WellFormed.shape (h : g.WellFormed) : Picture.Shape g.rows g.cols g.view :=
  Picture.shape_ofCells h.length

lemma wellFormed_new (rows cols : Nat) : (Grid.new rows cols).WellFormed :=
  ⟨List.length_replicate, Nat.zero_le _, Nat.zero_le _⟩

lemma view_new (rows cols : Nat) :
    (Grid.new rows cols).view = Picture.resize rows cols Cell.blank fun _ _ => none :=
  Picture.ofCells_replicate

lemma like_setCursor (h : g.WellFormed) : g.Like (g.setCursor r c) :=
  ⟨rfl, rfl, rfl, ⟨h.length, Nat.min_le_right _ _, Nat.min_le_right _ _⟩⟩

@[simp] lemma view_setCursor : (g.setCursor r c).view = g.view := rfl

theorem set_spec (h : g.WellFormed) : ∃ g', g.set r c x = some g' ∧ g.Like g' ∧
    g'.view = Picture.fill r (r + 1) c (c + 1) x g.view := by
  unfold set
  split
  next hrc =>
    have hlt : r * g.cols + c < g.cells.length := by
      rw [h.length]
      exact (Picture.index_lt_iff hrc.2).mpr hrc.1
    rw [set?_eq hlt]
    refine ⟨_, rfl, ⟨rfl, rfl, rfl, ⟨?_, h.cursorRow, h.cursorCol⟩⟩, Picture.ofCells_set h.length hrc.1 hrc.2⟩
    rw [List.length_set]
    exact h.length
  next hrc =>
    refine ⟨g, rfl, h.like, ?_⟩
    funext i j
    unfold Picture.fill
    split
    · rw [h.shape.none (by omega)]
      rfl
    · rfl

/-- the loops of `resize`: row `r` is copied up to the column `c` -/
private lemma resizedCells_spec (h : g.WellFormed) (rows cols : Nat) :
    ∃ cells, g.resizedCells rows cols = some cells ∧ cells.length = rows * cols ∧
      Picture.ofCells rows cols cells = Picture.resize rows cols .blank g.view := by
  let Done (r c : Nat) (cells : List Cell) : Prop := cells.length = rows * cols ∧
    ∀ i j, i < rows → j < cols → Picture.ofCells rows cols cells i j
      = some (if i < r ∨ i = r ∧ j < c then (g.view i j).getD .blank else .blank)
  have hrow : ∀ r cells, r < min rows g.rows → Done r 0 cells →
      ∃ cells', forRange 0 (min cols g.cols) (fun next c => do
        set? next (r * cols + c) (← g.cells[r * g.cols + c]?)) cells = some cells' ∧
        Done (r + 1) 0 cells' := by
    intro r cells hr hd
    obtain ⟨cells', hrun, hlen, hget⟩ := forRange_rule (P := fun c => Done r c) hd (b := min cols g.cols)
      (f := fun next c => do set? next (r * cols + c) (← g.cells[r * g.cols + c]?)) (by
        rintro c next - hc ⟨hlen, hget⟩
        have hsrc : r * g.cols + c < g.cells.length := by
          rw [h.length]
          exact (Picture.index_lt_iff (by omega)).mpr (by omega)
        have hdst : r * cols + c < next.length := by
          rw [hlen]
          exact (Picture.index_lt_iff (by omega)).mpr (by omega)
        have hview : g.view r c = some g.cells[r * g.cols + c] := by
          rw [view_eq, Picture.ofCells, if_pos (by omega), List.getElem?_eq_getElem hsrc]
        refine ⟨next.set (r * cols + c) g.cells[r * g.cols + c], ?_, ?_, fun i j hi hj => ?_⟩
        · rw [List.getElem?_eq_getElem hsrc]
          exact set?_eq hdst
        · rw [List.length_set, hlen]
        · rw [Picture.ofCells_set hlen (by omega) (by omega), Picture.fill, hget i j hi hj]
          by_cases hij : i = r ∧ j = c
          · obtain ⟨rfl, rfl⟩ := hij
            rw [if_pos (by omega), Option.map_some, hview, if_pos (show i < i ∨ i = i ∧ j < j + 1 by omega)]
            rfl
          · rw [if_neg (by omega)]
            congr 2
            exact propext (by omega))
    refine ⟨cells', hrun, hlen, fun i j hi hj => ?_⟩
    rw [hget i j hi hj]
    congr 1
    by_cases hir : i < r
    · rw [if_pos (by omega), if_pos (by omega)]
    by_cases heq : i = r
    · by_cases hj' : j < g.cols
      · rw [if_pos (by omega), if_pos (by omega)]
      · rw [if_neg (by omega), if_pos (by omega), h.shape.none (by omega)]
        rfl
    · rw [if_neg (by omega), if_neg (by omega)]
  obtain ⟨cells, hrun, hlen, hget⟩ := forRange_rule (P := fun r => Done r 0) (b := min rows g.rows)
    (f := fun next r => forRange 0 (min cols g.cols) (fun next c => do
      set? next (r * cols + c) (← g.cells[r * g.cols + c]?)) next)
    (s := List.replicate (rows * cols) .blank) (a := 0)
    ⟨List.length_replicate, fun i j hi hj => by
      rw [Picture.ofCells_replicate, Picture.resize, if_pos ⟨hi, hj⟩, if_neg (by omega)]
      rfl⟩
    fun r cells _ hr hd => hrow r cells hr hd
  refine ⟨cells, hrun, hlen, ?_⟩
  funext i j
  unfold Picture.resize
  split
  next hij =>
    rw [hget i j hij.1 hij.2]
    congr 1
    by_cases hi : i < g.rows
    · rw [if_pos (by omega)]
    · rw [if_neg (by omega), h.shape.none (by omega)]
      rfl
  next hij => exact (Picture.shape_ofCells hlen).none hij

theorem resize_spec (h : g.WellFormed) (rows cols : Nat) : ∃ g', g.resize rows cols = some g' ∧
    g'.WellFormed ∧ g'.rows = rows ∧ g'.cols = cols ∧ g'.cursorVisible = g.cursorVisible ∧
      g'.view = Picture.resize rows cols .blank g.view := by
  unfold resize
  split
  next heq =>
    obtain ⟨rfl, rfl⟩ := heq
    refine ⟨g, rfl, h, rfl, rfl, rfl, ?_⟩
    funext i j
    unfold Picture.resize
    split
    next hij =>
      obtain ⟨y, hy⟩ := h.shape.some hij.1 hij.2
      rw [hy]
      rfl
    next hij => exact h.shape.none hij
  next heq =>
    obtain ⟨cells, hrun, hlen, hview⟩ := resizedCells_spec h rows cols
    rw [hrun]
    refine ⟨_, rfl, ⟨hlen, ?_, ?_⟩, rfl, rfl, rfl, hview⟩
    · show (if rows = 0 then 0 else if g.cursorRow ≥ rows then rows - 1 else g.cursorRow) ≤ rows - 1
      split_ifs <;> omega
    · show (if cols = 0 then 0 else if g.cursorCol ≥ cols then cols - 1 else g.cursorCol) ≤ cols - 1
      split_ifs <;> omega

/-- the rows from `n` on moved to the top, blank rows below them -/
private lemma dropRows_spec (h : g.WellFormed) (hn : n ≤ g.rows) : ∃ moved cells,
    copyWithin? g.cells (n * g.cols) g.cells.length 0 = some moved ∧
    fillFrom? moved ((g.rows - n) * g.cols) .blank = some cells ∧
    g.Like { g with cells } ∧ Grid.view { g with cells } =
      Picture.fill (g.rows - n) g.rows 0 g.cols .blank (Picture.moveRows 0 n (g.rows - n) g.view) := by
  obtain ⟨hlen, hmove⟩ := Picture.ofCells_copyWithin n 0 (g.rows - n) h.length (by omega) (by omega)
  have hend : n * g.cols + (g.rows - n) * g.cols = g.cells.length := by
    rw [h.length, ← Nat.add_mul]
    congr 1
    omega
  rw [hend, Nat.zero_mul] at hlen hmove
  have hle : (g.rows - n) * g.cols ≤ (copyWithin g.cells (n * g.cols) g.cells.length 0).length := by
    rw [hlen]
    exact Nat.mul_le_mul_right _ (Nat.sub_le _ _)
  refine ⟨_, _, copyWithin?_eq (by omega) (Nat.le_refl _) (by omega), fillFrom?_eq hle,
    ⟨rfl, rfl, rfl, ⟨?_, h.cursorRow, h.cursorCol⟩⟩, ?_⟩
  · rw [length_fillFrom hle]
    exact hlen
  · rw [view_eq, Picture.ofCells_fillFrom hlen (Nat.sub_le _ _), hmove]
    rfl

theorem shrinkRowsFromTop_spec (h : g.WellFormed) (hn : n ≤ g.rows) (hc : 0 < g.cols) :
    ∃ g', g.shrinkRowsFromTop n = some (Picture.rows n g.cols g.view, g') ∧ g.Like g' ∧
      g'.view = Picture.fill (g.rows - n) g.rows 0 g.cols .blank
        (Picture.moveRows 0 n (g.rows - n) g.view) := by
  unfold shrinkRowsFromTop
  split
  next hzero =>
    obtain rfl : n = 0 := by omega
    refine ⟨g, rfl, h.like, ?_⟩
    rw [Nat.sub_zero, Picture.fill_none_rows (Nat.le_refl _)]
    funext i j
    unfold Picture.moveRows
    split
    · rw [Nat.zero_add]
      rfl
    · rfl
  obtain ⟨evicted, hrun, hev⟩ := forRange_rule (a := 0) (b := n) (s := ([] : List (List Cell)))
    (P := fun r evicted => evicted = Picture.rows r g.cols g.view)
    (f := fun evicted r => do
      let row ← range? g.cells (r * g.cols) (r * g.cols + g.cols)
      some (evicted ++ [row])) rfl (by
        rintro r evicted - hr rfl
        obtain ⟨hle, hrow⟩ := Picture.range_row h.length (r := r) (by omega)
        refine ⟨Picture.rows r g.cols g.view ++ [Picture.row g.cols g.view r], ?_, ?_⟩
        · rw [range?_eq (Nat.le_add_right _ _) hle, hrow]
          rfl
        · rw [Picture.rows, Picture.rows, List.range_succ, List.map_append]
          rfl)
  obtain ⟨moved, cells, hmoved, hcells, hlike, hview⟩ := dropRows_spec h hn
  refine ⟨{ g with cells }, ?_, hlike, hview⟩
  rw [Nat.max_eq_right (Nat.zero_le n)] at hev
  dsimp only
  rw [Nat.min_eq_left hn, hrun, hev, hmoved, sub?_eq hn]
  show (fillFrom? _ _ _).bind _ = _
  rw [hcells]
  rfl

theorem scrollUp_spec (h : g.WellFormed) (hr : 0 < g.rows) (hc : 0 < g.cols) :
    ∃ g', g.scrollUp = some (Picture.row g.cols g.view 0, g') ∧ g.Like g' ∧
      g'.view = Picture.fill (g.rows - 1) g.rows 0 g.cols .blank
        (Picture.moveRows 0 1 (g.rows - 1) g.view) := by
  obtain ⟨hrow, hrange⟩ := Picture.range_row h.length hr
  rw [Nat.zero_mul, Nat.zero_add] at hrow hrange
  obtain ⟨moved, cells, hmoved, hcells, hlike, hview⟩ := dropRows_spec h (n := 1) hr
  rw [Nat.one_mul] at hmoved
  refine ⟨{ g with cells }, ?_, hlike, hview⟩
  unfold scrollUp
  rw [if_neg (by omega), range?_eq (Nat.zero_le _) hrow, hrange, hmoved, sub?_eq hr]
  show (fillFrom? _ _ _).bind _ = _
  rw [hcells]
  rfl

/-- the two loops of `growRowsAtTop`: the lifted rows, then the old ones below them -/
theorem growRowsAtTop_spec (h : g.WellFormed) {lifted : List (List Cell)} (hn : lifted.length ≤ n) :
    ∃ g', g.growRowsAtTop n lifted = some g' ∧ g'.WellFormed ∧ g'.rows = g.rows + n ∧
      g'.cols = g.cols ∧ g'.cursorVisible = g.cursorVisible ∧ g'.view = Picture.stack g.cols .blank
        (List.replicate (n - lifted.length) [] ++ lifted) g.view := by
  unfold growRowsAtTop
  split
  next hzero =>
    subst hzero
    obtain rfl : lifted = [] := List.length_eq_zero_iff.mp (by omega)
    exact ⟨g, rfl, h, rfl, rfl, rfl, rfl⟩
  have htop : (List.replicate (n - lifted.length) [] ++ lifted).length = n := by
    rw [List.length_append, List.length_replicate]
    omega
  rw [List.take_of_length_le hn]
  let Done (k : Nat) (cells : List Cell) : Prop := cells.length = (g.rows + n) * g.cols ∧
    ∀ i j, i < g.rows + n → j < g.cols → Picture.ofCells (g.rows + n) g.cols cells i j = if i < k then
      Picture.stack g.cols .blank (List.replicate (n - lifted.length) [] ++ lifted) g.view i j
      else some .blank
  obtain ⟨next, hnext, hdone⟩ := forRange_rule (a := 0) (b := lifted.length)
    (s := List.replicate ((g.rows + n) * g.cols) Cell.blank)
    (P := fun i => Done (n - lifted.length + i))
    (f := fun next i => do
      let row ← lifted[i]?
      overwrite? next ((n - lifted.length + i) * g.cols) (row.take (min row.length g.cols)))
    (by
      refine ⟨List.length_replicate, fun i j hi hj => ?_⟩
      rw [Picture.ofCells_replicate, Picture.resize, if_pos ⟨hi, hj⟩]
      split
      next hlt => exact (Picture.stack_blank (d := n - lifted.length) hlt hj).symm
      next => rfl)
    (by
      rintro k next - hk ⟨hlen, hget⟩
      have hcopy : (lifted[k].take (min lifted[k].length g.cols)).length = min lifted[k].length g.cols := by
        rw [List.length_take, Nat.min_eq_left (Nat.min_le_left _ _)]
      obtain ⟨hlen', hview⟩ := Picture.ofCells_overwrite
        (lifted[k].take (min lifted[k].length g.cols)) hlen (r := n - lifted.length + k) (by omega) (by omega)
      refine ⟨_, ?_, hlen', fun i j hi hj => ?_⟩
      · rw [List.getElem?_eq_getElem hk]
        refine overwrite?_eq ?_
        rw [hcopy, hlen]
        have := Nat.mul_le_mul_right g.cols (show n - lifted.length + k + 1 ≤ g.rows + n by omega)
        rw [Nat.succ_mul] at this
        omega
      · rw [hview, hcopy]
        dsimp only
        rw [hget i j hi hj]
        by_cases heq : i = n - lifted.length + k
        · subst heq
          rw [if_pos (show n - lifted.length + k < n - lifted.length + (k + 1) by omega),
            if_neg (show ¬ n - lifted.length + k < n - lifted.length + k by omega),
            Picture.stack_top (List.getElem?_eq_getElem hk) hj, List.getElem?_take]
          by_cases hjk : j < lifted[k].length
          · have hmin : j < min lifted[k].length g.cols := by omega
            rw [if_pos ⟨rfl, hmin⟩, if_pos hmin, List.getElem?_eq_getElem hjk]
            rfl
          · rw [if_neg (by omega), List.getElem?_eq_none (by omega)]
            rfl
        · rw [if_neg (by omega)]
          congr 1
          exact propext (by omega))
  rw [show n - lifted.length + max 0 lifted.length = n by omega] at hdone
  obtain ⟨cells, hcells, hlen, hget⟩ := forRange_rule (a := 0) (b := g.rows) (s := next)
    (P := fun r => Done (n + r))
    (f := fun next r => do
      overwrite? next ((r + n) * g.cols) (← range? g.cells (r * g.cols) (r * g.cols + g.cols))) hdone
    (by
      rintro r next - hr ⟨hlen, hget⟩
      obtain ⟨hle, hrow⟩ := Picture.range_row h.length hr
      have hlr := h.shape.length_row hr
      obtain ⟨hlen', hview⟩ := Picture.ofCells_overwrite (Picture.row g.cols g.view r) hlen (r := r + n)
        (by omega) (by omega)
      refine ⟨_, ?_, hlen', fun i j hi hj => ?_⟩
      · rw [range?_eq (Nat.le_add_right _ _) hle, hrow]
        refine overwrite?_eq ?_
        rw [show (Picture.row g.cols (Picture.ofCells g.rows g.cols g.cells) r).length = g.cols from hlr, hlen]
        have := Nat.mul_le_mul_right g.cols (show r + n + 1 ≤ g.rows + n by omega)
        rwa [Nat.succ_mul] at this
      · rw [hview, hlr]
        dsimp only
        rw [hget i j hi hj, h.shape.getElem?_row hr]
        by_cases heq : i = r + n
        · subst heq
          have hbelow : Picture.stack g.cols .blank (List.replicate (n - lifted.length) [] ++ lifted) g.view
              (r + (List.replicate (n - lifted.length) [] ++ lifted).length) j = g.view r j :=
            Picture.stack_below
          rw [htop] at hbelow
          rw [if_pos ⟨rfl, hj⟩, if_pos (by omega), hbelow]
        · rw [if_neg (by omega)]
          congr 1
          exact propext (by omega))
  have hcursor := h.cursorRow
  refine ⟨{ g with cells, rows := g.rows + n }, ?_, ⟨hlen, by dsimp only; omega, h.cursorCol⟩, rfl, rfl, rfl, ?_⟩
  · dsimp only
    rw [sub?_eq hn]
    show (forRange _ _ _ _).bind _ = _
    rw [hnext]
    show (forRange _ _ _ _).bind _ = _
    rw [hcells]
    rfl
  · have hshape : Picture.Shape (g.rows + n) g.cols (Picture.stack g.cols .blank
        (List.replicate (n - lifted.length) [] ++ lifted) g.view) := by
      obtain ⟨top, hx⟩ : ∃ top, top = List.replicate (n - lifted.length) [] ++ lifted := ⟨_, rfl⟩
      rw [← hx] at htop ⊢
      rw [← htop]
      exact h.shape.stack
    funext i j
    show Picture.ofCells (g.rows + n) g.cols cells i j = _
    by_cases hij : i < g.rows + n ∧ j < g.cols
    · rw [hget i j hij.1 hij.2, if_pos (by omega)]
    · rw [(Picture.shape_ofCells hlen).none hij, hshape.none hij]

end Grid
end TerminalManager.Core
