import TerminalManager.Lib.Ragged
import TerminalManager.Ui.Motion

/-!
# The pane layout of a tab

A tab holds a ragged grid of panes, a flex ratio for each row, one for each pane of a row, and the
pane that has the focus.  The app state has one such layout in its live fields.

* `findPaneCoord`              where a pane is;
* `PaneLayout.detach`          a pane taken out, its ratio absorbed by a neighbour;
* `PaneLayout.attach`          a pane put in at an edge of another, which gives up half its ratio;
* `PaneLayout.Balanced`        a ratio for each row and for each pane, no row empty;
* `PaneLayout.Shaped`          a balanced layout whose focus is one of its panes;
* `Balanced.detach`, `Balanced.attach`  both are kept, and no index is out of range.
-/

namespace TerminalManager.App
open Ui (F32)

/-- `PaneId` is the number of a pane -/
abbrev PaneId := Nat

structure Pane where
  id : PaneId
  title : String
  subtitle : String
deriving DecidableEq, Repr

/-- the edge of a pane that another is dropped on -/
inductive DropZone
  | left | right | top | bottom | center
deriving DecidableEq, Repr

structure PaneLayout (F : Type) where
  panes : List (List Pane)
  activePane : PaneId
  rowRatios : List F
  colRatios : List (List F)
deriving DecidableEq, Repr

def MAX_COLS : Nat := 4
def MAX_ROWS : Nat := 4

namespace PaneLayout
section
variable {F : Type}

/-- no pane at all; the focus is `PaneId(0)` -/
def empty : PaneLayout F := ⟨[], 0, [], []⟩

/-- the panes, row by row -/
def flat (l : PaneLayout F) : List Pane := l.panes.flatten

/-- the pane ids, row by row -/
def ids (l : PaneLayout F) : List PaneId := l.flat.map Pane.id

def paneCount (l : PaneLayout F) : Nat := (l.panes.map List.length).sum

def findFrom (target : PaneId) : List (List Pane) → Nat → Option (Nat × Nat)
  | [], _ => none
  | row :: rows, r =>
    match row.findIdx? (·.id == target) with
    | some c => some (r, c)
    | none => findFrom target rows (r + 1)

def findPaneCoord (l : PaneLayout F) (target : PaneId) : Option (Nat × Nat) :=
  findFrom target l.panes 0

def paneAt (l : PaneLayout F) (r c : Nat) : Option Pane := Ragged.cell? l.panes r c

variable [F32 F]

/-- one pane that fills the tab -/
def single (p : Pane) : PaneLayout F := ⟨[[p]], p.id, [F32.one], [[F32.one]]⟩

/-- the ratio that was at `idx` goes to the neighbour before it, or to the first one -/
def absorb (ratios : List F) (idx : Nat) (closed : F) : List F :=
  ratios.modify (idx - 1) (F32.add · closed)

/-- take the pane at `(r, c)` out: its ratio, and its row when it was the last one there -/
def detach (l : PaneLayout F) (r c : Nat) : Option (PaneLayout F) := do
  let closed ← Ragged.cell? l.colRatios r c
  let row ← l.panes[r]?
  if row.length ≤ c then
    none
  else if (row.eraseIdx c).isEmpty then
    let closedRow ← l.rowRatios[r]?
    some
      { l with
        panes := l.panes.eraseIdx r
        rowRatios := absorb (l.rowRatios.eraseIdx r) r closedRow
        colRatios := l.colRatios.eraseIdx r }
  else
    some
      { l with
        panes := l.panes.modify r (·.eraseIdx c)
        colRatios := l.colRatios.modify r fun ratios => absorb (ratios.eraseIdx c) c closed }

def halve (x : F) : F := F32.div x (F32.ofNat 2)

/-- put `p` at column `at` of row `r`; the pane at column `c` gives up half its ratio -/
def attachColumn (l : PaneLayout F) (r c pos : Nat) (p : Pane) : Option (PaneLayout F) := do
  let existing ← Ragged.cell? l.colRatios r c
  let row ← l.panes[r]?
  if row.length < pos then
    none
  else
    some
      { l with
        panes := l.panes.modify r (·.insertIdx pos p)
        colRatios := l.colRatios.modify r fun ratios =>
          (ratios.set c (halve existing)).insertIdx pos (halve existing) }

/-- put `p` into a row of its own at `at`; row `r` gives up half its ratio -/
def attachRow (l : PaneLayout F) (r pos : Nat) (p : Pane) : Option (PaneLayout F) := do
  let existing ← l.rowRatios[r]?
  if l.panes.length < pos ∨ l.colRatios.length < pos then
    none
  else
    some
      { l with
        panes := l.panes.insertIdx pos [p]
        rowRatios := (l.rowRatios.set r (halve existing)).insertIdx pos (halve existing)
        colRatios := l.colRatios.insertIdx pos [F32.one] }

/-- put `p` at the given edge of the pane at `(r, c)`; the centre is no edge -/
def attach (l : PaneLayout F) (r c : Nat) (edge : DropZone) (p : Pane) : Option (PaneLayout F) :=
  match edge with
  | .left => l.attachColumn r c c p
  | .right => l.attachColumn r c (c + 1) p
  | .top => l.attachRow r r p
  | .bottom => l.attachRow r (r + 1) p
  | .center => some l

end

section
variable {F : Type}

lemma mem_ids {l : PaneLayout F} {id : PaneId} : id ∈ l.ids ↔ ∃ p ∈ l.flat, p.id = id := List.mem_map

lemma paneAt_mem {l : PaneLayout F} {r c : Nat} {p : Pane} (h : l.paneAt r c = some p) : p ∈ l.flat :=
  Ragged.mem_flatten_of_cell? h

lemma ids_ne_nil_of_mem {l : PaneLayout F} {id : PaneId} (h : id ∈ l.ids) : l.panes ≠ [] := by
  intro hnil
  rw [ids, flat, hnil] at h
  cases h

lemma length_flat (l : PaneLayout F) : l.flat.length = l.paneCount := List.length_flatten

lemma findFrom_some {target : PaneId} {rows : List (List Pane)} {k r c : Nat}
    (h : findFrom target rows k = some (r, c)) :
    k ≤ r ∧ ∃ p, Ragged.cell? rows (r - k) c = some p ∧ p.id = target := by
  induction rows generalizing k with
  | nil => cases h
  | cons row rows ih =>
    unfold findFrom at h
    cases hrow : row.findIdx? (·.id == target) with
    | none =>
      rw [hrow] at h
      obtain ⟨hk, p, hp, hid⟩ := ih h
      refine ⟨by omega, p, ?_, hid⟩
      have hsub : r - k = (r - (k + 1)) + 1 := by omega
      rw [hsub]
      exact hp
    | some c' =>
      rw [hrow] at h
      obtain ⟨rfl, rfl⟩ := Prod.mk.inj (Option.some.inj h)
      obtain ⟨hlt, hid, -⟩ := List.findIdx?_eq_some_iff_getElem.mp hrow
      refine ⟨Nat.le_refl _, row[c'], ?_, beq_iff_eq.mp hid⟩
      rw [Nat.sub_self]
      exact Ragged.cell?_eq_some.mpr ⟨row, rfl, List.getElem?_eq_getElem hlt⟩

lemma findFrom_none {target : PaneId} {rows : List (List Pane)} {k : Nat}
    (h : findFrom target rows k = none) : ∀ p ∈ rows.flatten, p.id ≠ target := by
  induction rows generalizing k with
  | nil => exact fun p hp => by cases hp
  | cons row rows ih =>
    unfold findFrom at h
    cases hrow : row.findIdx? (·.id == target) with
    | none =>
      rw [hrow] at h
      intro p hp
      rcases List.mem_append.mp hp with hp | hp
      · exact fun hid => absurd (List.findIdx?_eq_none_iff.mp hrow p hp) (by simp [hid])
      · exact ih h p hp
    | some c => rw [hrow] at h; cases h

/-- a pane is found where it is -/
lemma findPaneCoord_some {l : PaneLayout F} {target : PaneId} {r c : Nat}
    (h : l.findPaneCoord target = some (r, c)) : ∃ p, l.paneAt r c = some p ∧ p.id = target :=
  (findFrom_some h).2

/-- a pane that is not found is not there -/
lemma findPaneCoord_none {l : PaneLayout F} {target : PaneId} (h : l.findPaneCoord target = none) :
    target ∉ l.ids := by
  intro hmem
  obtain ⟨p, hp, hid⟩ := mem_ids.mp hmem
  exact findFrom_none h p hp hid

lemma exists_findPaneCoord {l : PaneLayout F} {target : PaneId} (h : target ∈ l.ids) :
    ∃ r c, l.findPaneCoord target = some (r, c) := by
  cases hf : l.findPaneCoord target with
  | none => exact absurd h (findPaneCoord_none hf)
  | some rc => exact ⟨rc.1, rc.2, rfl⟩

lemma mem_ids_of_findPaneCoord {l : PaneLayout F} {target : PaneId} {r c : Nat}
    (h : l.findPaneCoord target = some (r, c)) : target ∈ l.ids := by
  obtain ⟨p, hp, rfl⟩ := findPaneCoord_some h
  exact mem_ids.mpr ⟨p, paneAt_mem hp, rfl⟩

/-- a ratio for each row and for each pane, and no row is empty -/
structure Balanced (l : PaneLayout F) : Prop where
  rows : l.rowRatios.length = l.panes.length
  cols : Ragged.lengths l.colRatios = Ragged.lengths l.panes
  filled : ∀ row ∈ l.panes, row ≠ []

/-- a balanced layout whose focus is one of its panes -/
structure Shaped (l : PaneLayout F) : Prop extends Balanced l where
  focused : l.activePane ∈ l.ids

lemma Shaped.nonempty {l : PaneLayout F} (h : Shaped l) : l.panes ≠ [] := ids_ne_nil_of_mem h.focused

lemma Balanced.withFocus {l : PaneLayout F} (h : Balanced l) {id : PaneId} (hid : id ∈ l.ids) :
    Shaped { l with activePane := id } := ⟨⟨h.rows, h.cols, h.filled⟩, hid⟩

lemma Balanced.length_cols {l : PaneLayout F} (h : Balanced l) : l.colRatios.length = l.panes.length := by
  have hlen := congrArg List.length h.cols
  rwa [Ragged.length_lengths, Ragged.length_lengths] at hlen

/-- a layout with a pane in it has one in its first row -/
lemma Balanced.first {l : PaneLayout F} (h : Balanced l) (hne : l.panes ≠ []) :
    ∃ p, l.paneAt 0 0 = some p := by
  obtain ⟨row, rows, hrows⟩ := List.exists_cons_of_ne_nil hne
  obtain ⟨p, ps, hps⟩ := List.exists_cons_of_ne_nil (h.filled row (hrows ▸ List.mem_cons_self))
  refine ⟨p, Ragged.cell?_eq_some.mpr ⟨row, ?_, ?_⟩⟩
  · rw [hrows]
    rfl
  · rw [hps]
    rfl

end

section
variable {F : Type} [F32 F]

@[simp] lemma length_absorb (ratios : List F) (idx : Nat) (closed : F) :
    (absorb ratios idx closed).length = ratios.length := List.length_modify ..

/-- what `detach` does: it takes a pane out of its row, or the row with it -/
lemma detach_cases {l l' : PaneLayout F} {r c : Nat} (h : l.detach r c = some l') :
    ∃ closed row p, Ragged.cell? l.colRatios r c = some closed ∧ l.panes[r]? = some row ∧ row[c]? = some p ∧
      ((row.length = 1 ∧ ∃ closedRow, l.rowRatios[r]? = some closedRow ∧
          l' = { l with
            panes := l.panes.eraseIdx r
            rowRatios := absorb (l.rowRatios.eraseIdx r) r closedRow
            colRatios := l.colRatios.eraseIdx r }) ∨
        (1 < row.length ∧
          l' = { l with
            panes := l.panes.modify r (·.eraseIdx c)
            colRatios := l.colRatios.modify r fun ratios => absorb (ratios.eraseIdx c) c closed })) := by
  unfold detach at h
  obtain ⟨closed, hclosed, h⟩ := Option.bind_eq_some_iff.mp h
  obtain ⟨row, hrow, h⟩ := Option.bind_eq_some_iff.mp h
  split_ifs at h with hc hempty
  · obtain ⟨closedRow, hclosedRow, h⟩ := Option.bind_eq_some_iff.mp h
    have hlen : row.length = 1 := by
      have := List.length_eraseIdx_of_lt (Nat.lt_of_not_le hc)
      rw [List.isEmpty_iff.mp hempty, List.length_nil] at this
      omega
    exact ⟨closed, row, row[c], hclosed, hrow, List.getElem?_eq_getElem (Nat.lt_of_not_le hc),
      .inl ⟨hlen, closedRow, hclosedRow, (Option.some.inj h).symm⟩⟩
  · have hlen : 1 < row.length := by
      by_contra hle
      apply hempty
      rw [List.isEmpty_iff, ← List.length_eq_zero_iff, List.length_eraseIdx_of_lt (Nat.lt_of_not_le hc)]
      omega
    exact ⟨closed, row, row[c], hclosed, hrow, List.getElem?_eq_getElem (Nat.lt_of_not_le hc),
      .inr ⟨hlen, (Option.some.inj h).symm⟩⟩

/-- the panes that are left when one is taken out -/
lemma detach_perm {l l' : PaneLayout F} {r c : Nat} (h : l.detach r c = some l') :
    ∃ p, l.paneAt r c = some p ∧ l.flat.Perm (p :: l'.flat) := by
  obtain ⟨closed, row, p, -, hrow, hp, ⟨hlen, closedRow, -, rfl⟩ | ⟨-, rfl⟩⟩ := detach_cases h
  · refine ⟨p, Ragged.cell?_eq_some.mpr ⟨row, hrow, hp⟩, ?_⟩
    obtain ⟨q, rfl⟩ := List.length_eq_one_iff.mp hlen
    obtain rfl : p = q := by
      have := List.mem_of_getElem? hp
      simpa using this
    exact (Ragged.flatten_eraseRow hrow).symm
  · have hcell : l.paneAt r c = some p := Ragged.cell?_eq_some.mpr ⟨row, hrow, hp⟩
    exact ⟨p, hcell, (Ragged.flatten_erase hcell).symm⟩

lemma detach_activePane {l l' : PaneLayout F} {r c : Nat} (h : l.detach r c = some l') :
    l'.activePane = l.activePane := by
  obtain ⟨closed, row, p, -, -, -, ⟨-, closedRow, -, rfl⟩ | ⟨-, rfl⟩⟩ := detach_cases h <;> rfl

/-- taking a pane out keeps a layout balanced -/
lemma Balanced.of_detach {l l' : PaneLayout F} {r c : Nat} (hl : Balanced l)
    (h : l.detach r c = some l') : Balanced l' := by
  obtain ⟨closed, row, p, hclosed, hrow, hp, ⟨hlen, closedRow, hcr, rfl⟩ | ⟨hlen, rfl⟩⟩ := detach_cases h
  · refine ⟨?_, ?_, fun row' hrow' => hl.filled row' (List.mem_of_mem_eraseIdx hrow')⟩
    · show (absorb _ _ _).length = _
      rw [length_absorb, List.length_eraseIdx, List.length_eraseIdx, hl.rows]
    · show Ragged.lengths (l.colRatios.eraseIdx r) = Ragged.lengths (l.panes.eraseIdx r)
      rw [Ragged.lengths_eraseIdx, Ragged.lengths_eraseIdx, hl.cols]
  · obtain ⟨ratios, hratios, hc⟩ := Ragged.cell?_eq_some.mp hclosed
    obtain ⟨hlt, -⟩ := List.getElem?_eq_some_iff.mp hp
    obtain ⟨hlt', -⟩ := List.getElem?_eq_some_iff.mp hc
    refine ⟨?_, ?_, ?_⟩
    · show l.rowRatios.length = _
      rw [List.length_modify, hl.rows]
    · show Ragged.lengths (l.colRatios.modify r _) = Ragged.lengths (l.panes.modify r _)
      rw [Ragged.lengths_modify (g := (· - 1)) hratios, Ragged.lengths_modify (g := (· - 1)) hrow, hl.cols]
      · exact List.length_eraseIdx_of_lt hlt
      · rw [length_absorb, List.length_eraseIdx_of_lt hlt']
    · intro row' hrow' hnil
      rcases mem_of_mem_modify hrow hrow' with heq | hmem
      · have hlen' := List.length_eraseIdx_of_lt hlt
        rw [← heq, hnil, List.length_nil] at hlen'
        omega
      · exact hl.filled row' hmem hnil

lemma Balanced.exists_detach {l : PaneLayout F} {r c : Nat} {p : Pane} (hl : Balanced l)
    (h : l.paneAt r c = some p) : ∃ l', l.detach r c = some l' := by
  obtain ⟨row, hrow, hp⟩ := Ragged.cell?_eq_some.mp h
  obtain ⟨closed, hclosed⟩ := Ragged.exists_cell hl.cols.symm h
  obtain ⟨hc, -⟩ := List.getElem?_eq_some_iff.mp hp
  obtain ⟨hr, -⟩ := List.getElem?_eq_some_iff.mp hrow
  unfold detach
  rw [hclosed, hrow]
  show ∃ l', (if row.length ≤ c then none else _) = some l'
  rw [if_neg (Nat.not_le_of_lt hc)]
  split_ifs
  · rw [List.getElem?_eq_getElem (hl.rows ▸ hr)]
    exact ⟨_, rfl⟩
  · exact ⟨_, rfl⟩

lemma attachColumn_cases {l l' : PaneLayout F} {r c pos : Nat} {p : Pane}
    (h : l.attachColumn r c pos p = some l') :
    ∃ row ratios x, l.panes[r]? = some row ∧ l.colRatios[r]? = some ratios ∧ pos ≤ row.length ∧
      c < ratios.length ∧
      l' = { l with
        panes := l.panes.modify r (·.insertIdx pos p)
        colRatios := l.colRatios.modify r fun ratios => (ratios.set c x).insertIdx pos x } := by
  unfold attachColumn at h
  obtain ⟨existing, hex, h⟩ := Option.bind_eq_some_iff.mp h
  obtain ⟨row, hrow, h⟩ := Option.bind_eq_some_iff.mp h
  obtain ⟨ratios, hratios, hc⟩ := Ragged.cell?_eq_some.mp hex
  split_ifs at h with hle
  exact ⟨row, ratios, halve existing, hrow, hratios, Nat.le_of_not_lt hle,
    (List.getElem?_eq_some_iff.mp hc).1, (Option.some.inj h).symm⟩

lemma attachRow_cases {l l' : PaneLayout F} {r pos : Nat} {p : Pane} (h : l.attachRow r pos p = some l') :
    ∃ x, r < l.rowRatios.length ∧ pos ≤ l.panes.length ∧ pos ≤ l.colRatios.length ∧
      l' = { l with
        panes := l.panes.insertIdx pos [p]
        rowRatios := (l.rowRatios.set r x).insertIdx pos x
        colRatios := l.colRatios.insertIdx pos [F32.one] } := by
  unfold attachRow at h
  obtain ⟨existing, hex, h⟩ := Option.bind_eq_some_iff.mp h
  split_ifs at h with hle
  rw [not_or, Nat.not_lt, Nat.not_lt] at hle
  exact ⟨halve existing, (List.getElem?_eq_some_iff.mp hex).1, hle.1, hle.2, (Option.some.inj h).symm⟩

/-- `attach` puts the pane into a row, or into a row of its own -/
lemma attach_cases {l l' : PaneLayout F} {r c : Nat} {edge : DropZone} {p : Pane}
    (hedge : edge ≠ .center) (h : l.attach r c edge p = some l') :
    (∃ pos, pos ≤ c + 1 ∧ l.attachColumn r c pos p = some l') ∨
      ∃ pos, pos ≤ r + 1 ∧ l.attachRow r pos p = some l' := by
  cases edge with
  | left => exact .inl ⟨c, Nat.le_succ c, h⟩
  | right => exact .inl ⟨c + 1, Nat.le_refl _, h⟩
  | top => exact .inr ⟨r, Nat.le_succ r, h⟩
  | bottom => exact .inr ⟨r + 1, Nat.le_refl _, h⟩
  | center => exact absurd rfl hedge

/-- the panes when one is put in -/
lemma attach_perm {l l' : PaneLayout F} {r c : Nat} {edge : DropZone} {p : Pane} (hedge : edge ≠ .center)
    (h : l.attach r c edge p = some l') : l'.flat.Perm (p :: l.flat) := by
  obtain ⟨pos, -, h⟩ | ⟨pos, -, h⟩ := attach_cases hedge h
  · obtain ⟨row, ratios, x, hrow, -, hpos, -, rfl⟩ := attachColumn_cases h
    exact Ragged.flatten_insert hrow hpos
  · obtain ⟨x, -, hpos, -, rfl⟩ := attachRow_cases h
    exact Ragged.flatten_insertRow hpos

/-- putting a pane in keeps a layout balanced -/
lemma Balanced.of_attach {l l' : PaneLayout F} {r c : Nat} {edge : DropZone} {p : Pane} (hl : Balanced l)
    (hedge : edge ≠ .center) (h : l.attach r c edge p = some l') : Balanced l' := by
  obtain ⟨pos, hle, h⟩ | ⟨pos, hle, h⟩ := attach_cases hedge h
  · obtain ⟨row, ratios, x, hrow, hratios, hpos, hc, rfl⟩ := attachColumn_cases h
    refine ⟨?_, ?_, ?_⟩
    · show l.rowRatios.length = _
      rw [List.length_modify, hl.rows]
    · show Ragged.lengths (l.colRatios.modify r _) = Ragged.lengths (l.panes.modify r _)
      rw [Ragged.lengths_modify (g := (· + 1)) hratios, Ragged.lengths_modify (g := (· + 1)) hrow, hl.cols]
      · exact List.length_insertIdx_of_le_length hpos p
      · rw [List.length_insertIdx_of_le_length (by rw [List.length_set]; omega), List.length_set]
    · intro row' hrow' hnil
      rcases mem_of_mem_modify hrow hrow' with heq | hmem
      · have hlen := List.length_insertIdx_of_le_length hpos p
        rw [← heq, hnil] at hlen
        cases hlen
      · exact hl.filled row' hmem hnil
  · obtain ⟨x, hr, hpos, -, rfl⟩ := attachRow_cases h
    refine ⟨?_, ?_, ?_⟩
    · show ((l.rowRatios.set r x).insertIdx pos x).length = (l.panes.insertIdx pos [p]).length
      rw [List.length_insertIdx_of_le_length hpos, List.length_insertIdx_of_le_length, List.length_set, hl.rows]
      rw [List.length_set]
      omega
    · show Ragged.lengths (l.colRatios.insertIdx pos _) = Ragged.lengths (l.panes.insertIdx pos _)
      rw [Ragged.lengths_insertIdx, Ragged.lengths_insertIdx, hl.cols]
      rfl
    · intro row' hrow' hnil
      rcases (List.mem_insertIdx hpos).mp hrow' with heq | hmem
      · rw [heq] at hnil
        cases hnil
      · exact hl.filled row' hmem hnil

lemma Balanced.exists_attach {l : PaneLayout F} {r c : Nat} {q : Pane} (hl : Balanced l)
    (h : l.paneAt r c = some q) (edge : DropZone) (p : Pane) : ∃ l', l.attach r c edge p = some l' := by
  obtain ⟨row, hrow, hq⟩ := Ragged.cell?_eq_some.mp h
  obtain ⟨existing, hex⟩ := Ragged.exists_cell hl.cols.symm h
  obtain ⟨hc, -⟩ := List.getElem?_eq_some_iff.mp hq
  obtain ⟨hr, -⟩ := List.getElem?_eq_some_iff.mp hrow
  have hcolumn : ∀ pos, pos ≤ c + 1 → ∃ l', l.attachColumn r c pos p = some l' := by
    intro pos hpos
    unfold attachColumn
    rw [hex, hrow]
    show ∃ l', (if row.length < pos then none else _) = some l'
    rw [if_neg (by omega)]
    exact ⟨_, rfl⟩
  have hrow : ∀ pos, pos ≤ r + 1 → ∃ l', l.attachRow r pos p = some l' := by
    intro pos hpos
    unfold attachRow
    rw [List.getElem?_eq_getElem (hl.rows ▸ hr)]
    show ∃ l', (if l.panes.length < pos ∨ l.colRatios.length < pos then none else _) = some l'
    rw [if_neg (by rw [hl.length_cols]; omega)]
    exact ⟨_, rfl⟩
  cases edge with
  | left => exact hcolumn c (Nat.le_succ c)
  | right => exact hcolumn (c + 1) (Nat.le_refl _)
  | top => exact hrow r (Nat.le_succ r)
  | bottom => exact hrow (r + 1) (Nat.le_refl _)
  | center => exact ⟨l, rfl⟩

lemma single_shaped (p : Pane) : Shaped (single p : PaneLayout F) where
  rows := rfl
  cols := rfl
  filled row hrow := by
    rw [List.mem_singleton.mp hrow]
    exact List.cons_ne_nil _ _
  focused := List.mem_singleton.mpr rfl

end
end PaneLayout
end TerminalManager.App
