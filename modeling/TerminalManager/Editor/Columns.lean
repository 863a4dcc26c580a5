import TerminalManager.Editor.Moves

/-!
# Columns and cells

A line is painted with its tabs expanded, so the cell of a character depends on the cells before it.
Three loops count them: up to a position, up to a cell, and over the whole line.

* `visualWidthFrom`   the cells of a line that starts at a cell, as `line_visual_width` counts them;
* `visualColFrom_append`, `colForVisualFrom_append`, `colForVisualFrom_cell`   the two other loops on
  a line cut in two;
* `columns_invert`    **main result**: the column of the cell of a column is the column again, a cell
  belongs to the character at its column, and cells keep the order of columns.
-/

namespace TerminalManager.Editor
open Lines

/-- the loop of `line_visual_width` -/
def visualWidthFrom : Line → (v : Nat) → Nat
  | [], v => v
  | c :: l, v => visualWidthFrom l (v + charWidthAt c v)

lemma charWidthAt_pos (c : Char) (v : Nat) : 0 < charWidthAt c v := by
  unfold charWidthAt
  by_cases hc : c = '\t'
  · have hv : v % tabSpaces < tabSpaces := Nat.mod_lt _ (by decide)
    rw [if_pos hc]
    omega
  · rw [if_neg hc]
    exact Nat.one_pos

lemma visualWidthFrom_append (x y : Line) (v : Nat) :
    visualWidthFrom (x ++ y) v = visualWidthFrom y (visualWidthFrom x v) := by
  induction x generalizing v with
  | nil => rfl
  | cons c x ih => exact ih (v + charWidthAt c v)

lemma le_visualWidthFrom (x : Line) (v : Nat) : v ≤ visualWidthFrom x v := by
  induction x generalizing v with
  | nil => exact Nat.le_refl v
  | cons c x ih =>
    have h := ih (v + charWidthAt c v)
    rw [visualWidthFrom]
    omega

/-- characters take cells -/
lemma lt_visualWidthFrom {x : Line} (hx : x ≠ []) (v : Nat) : v < visualWidthFrom x v := by
  obtain ⟨c, l, rfl⟩ := List.exists_cons_of_ne_nil hx
  have hc := charWidthAt_pos c v
  have hl := le_visualWidthFrom l (v + charWidthAt c v)
  rw [visualWidthFrom]
  omega

/-- the loop of `visual_col` stops after the characters before the column -/
lemma visualColFrom_append (x y : Line) (byte v : Nat) :
    visualColFrom (byte + len x) (x ++ y) byte v = visualWidthFrom x v := by
  induction x generalizing byte v with
  | nil =>
    rw [List.nil_append, len_nil, Nat.add_zero, visualWidthFrom]
    cases y with
    | nil => rfl
    | cons c y => rw [visualColFrom, if_pos (Nat.le_refl byte)]
  | cons c x ih =>
    have hc := utf8Size_pos c
    have hlen : byte + len (c :: x) = byte + c.utf8Size + len x := by
      rw [len_cons, Nat.add_assoc]
    rw [List.cons_append, visualColFrom, if_neg (by omega), hlen, visualWidthFrom]
    exact ih _ _

/-- the loop of `col_for_visual` passes the characters whose cells end before the target -/
lemma colForVisualFrom_append (x y : Line) (byte v : Nat) {target : Nat} (h : visualWidthFrom x v ≤ target) :
    colForVisualFrom target (x ++ y) byte v =
      colForVisualFrom target y (byte + len x) (visualWidthFrom x v) := by
  induction x generalizing byte v with
  | nil => rfl
  | cons c x ih =>
    rw [visualWidthFrom] at h
    have hle := le_visualWidthFrom x (v + charWidthAt c v)
    rw [List.cons_append, colForVisualFrom, if_neg (by omega), ih _ _ h, len_cons, Nat.add_assoc]
    rfl

/-- at a cell of the next character it stops -/
lemma colForVisualFrom_here (y : Line) (byte v : Nat) {target : Nat}
    (h : target < visualWidthFrom (y.take 1) v ∨ y = []) :
    colForVisualFrom target y byte v = byte := by
  cases y with
  | nil => rfl
  | cons c y =>
    rcases h with h | h
    · rw [colForVisualFrom]
      exact if_pos h
    · cases h

/-- a cell of the line is a cell of one of its characters -/
lemma colForVisualFrom_cell {l : Line} (byte : Nat) {v target : Nat} (hv : v ≤ target) (h : target < visualWidthFrom l v) :
    ∃ x c y, l = x ++ c :: y ∧ colForVisualFrom target l byte v = byte + len x ∧
      visualWidthFrom x v ≤ target ∧ target < visualWidthFrom (x ++ [c]) v := by
  induction l generalizing byte v with
  | nil =>
    rw [visualWidthFrom] at h
    omega
  | cons c l ih =>
    by_cases ht : target < v + charWidthAt c v
    · refine ⟨[], c, l, rfl, ?_, hv, ht⟩
      rw [colForVisualFrom, if_pos ht]
      rfl
    · obtain ⟨x, d, y, hl, hcol, hle, hlt⟩ := ih (byte + c.utf8Size) (Nat.le_of_not_lt ht) h
      refine ⟨c :: x, d, y, by rw [hl]; rfl, ?_, hle, hlt⟩
      rw [colForVisualFrom, if_neg ht, hcol, len_cons, Nat.add_assoc]

namespace EditorBuffer

def lineVisualWidth (b : EditorBuffer) (line : Nat) : Nat :=
  match b.lines[line]? with
  | some l => visualWidthFrom l 0
  | none => 0

variable {b : EditorBuffer} {line : Nat} {l : Line}

lemma visualCol_of_append {x y : Line} (hl : b.lines[line]? = some (x ++ y)) :
    b.visualCol ⟨line, len x⟩ = some (visualWidthFrom x 0) := by
  have h := visualColFrom_append x y 0 0
  rw [Nat.zero_add] at h
  rw [visualCol, hl, Option.map_some, h]

lemma colForVisual_of_append {x y : Line} (hl : b.lines[line]? = some (x ++ y)) :
    b.colForVisual line (visualWidthFrom x 0) = some (len x) := by
  have hstop : visualWidthFrom x 0 < visualWidthFrom (y.take 1) (visualWidthFrom x 0) ∨ y = [] := by
    cases y with
    | nil => exact .inr rfl
    | cons c y => exact .inl (lt_visualWidthFrom (List.cons_ne_nil c _) _)
  rw [colForVisual, hl, Option.map_some, colForVisualFrom_append x y 0 0 (Nat.le_refl _),
    colForVisualFrom_here y _ _ hstop, Nat.zero_add]

/-- **Columns and cells invert each other.** -/
theorem columns_invert (hl : b.lines[line]? = some l) :
    (∀ col, isCharBoundary l col = true →
      ∃ v, b.visualCol ⟨line, col⟩ = some v ∧ b.colForVisual line v = some col) ∧
    (∀ target, target < b.lineVisualWidth line →
      ∃ x c y v, l = x ++ c :: y ∧ b.colForVisual line target = some (len x) ∧
        b.visualCol ⟨line, len x⟩ = some v ∧ v ≤ target ∧ target < v + charWidthAt c v) ∧
    (∀ m n, isCharBoundary l m = true → isCharBoundary l n = true → m < n →
      ∃ v w, b.visualCol ⟨line, m⟩ = some v ∧ b.visualCol ⟨line, n⟩ = some w ∧ v < w) := by
  refine ⟨fun col hcol => ?_, fun target ht => ?_, fun m n hm hn hmn => ?_⟩
  · obtain ⟨x, y, rfl, rfl⟩ := (isCharBoundary_iff l col).mp hcol
    exact ⟨visualWidthFrom x 0, visualCol_of_append hl, colForVisual_of_append hl⟩
  · rw [lineVisualWidth, hl] at ht
    obtain ⟨x, c, y, rfl, hcol, hle, hlt⟩ := colForVisualFrom_cell 0 (Nat.zero_le target) ht
    rw [visualWidthFrom_append] at hlt
    refine ⟨x, c, y, visualWidthFrom x 0, rfl, ?_, visualCol_of_append hl, hle, hlt⟩
    rw [colForVisual, hl, Option.map_some, hcol, Nat.zero_add]
  · obtain ⟨x, y, rfl, rfl⟩ := (isCharBoundary_iff l m).mp hm
    obtain ⟨x', y', h, rfl⟩ := (isCharBoundary_iff _ n).mp hn
    -- the shorter prefix is one of the longer
    obtain ⟨z, rfl, rfl⟩ : ∃ z, x' = x ++ z ∧ y = z ++ y' := by
      rcases List.append_eq_append_iff.mp h with ⟨z, hx, hy⟩ | ⟨z, hx, hy⟩
      · exact ⟨z, hx, hy⟩
      · rw [hx, len_append] at hmn
        omega
    have hz : z ≠ [] := by
      rintro rfl
      rw [List.append_nil] at hmn
      omega
    rw [h] at hl
    have hl' : b.lines[line]? = some (x ++ (z ++ y')) := by
      rw [hl, List.append_assoc]
    refine ⟨visualWidthFrom x 0, visualWidthFrom (x ++ z) 0, visualCol_of_append hl', visualCol_of_append hl, ?_⟩
    rw [visualWidthFrom_append]
    exact lt_visualWidthFrom hz _

theorem columns_invert_tab :
    (fromText ['a', '\t', 'é']).lines[0]? = some ['a', '\t', 'é'] ∧
    ∀ col, isCharBoundary ['a', '\t', 'é'] col = true →
      ∃ v, (fromText ['a', '\t', 'é']).visualCol ⟨0, col⟩ = some v ∧
        (fromText ['a', '\t', 'é']).colForVisual 0 v = some col :=
  ⟨by decide, (@columns_invert (fromText ['a', '\t', 'é']) 0 ['a', '\t', 'é'] (by decide)).1⟩

end EditorBuffer
end TerminalManager.Editor
