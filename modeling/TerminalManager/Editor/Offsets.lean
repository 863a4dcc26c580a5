import Mathlib.Algebra.Ring.Nat
import TerminalManager.Editor.Safety

/-!
# Splicing, in offsets

A position stands for a number of bytes of the joined text.  Counted so, `raw_replace` cuts the text
at two offsets and puts another text between, and its repaint hint names every line that changed.

* `offset`               the bytes before a position, the line breaks included;
* `Damage.Sound`         what a repaint hint says of the lines before and after;
* `merged_damage`        the hint of a removal and an insertion at one line;
* `rawReplace_splices`   **main result**.
-/

namespace TerminalManager.Editor
open Lines

/-- the bytes of joined lines: each but the last has a line break -/
lemma len_join (L : List Line) (a : Line) :
    len (['\n'].intercalate (L ++ [a])) = (L.map fun l => len l + 1).sum + len a := by
  induction L with
  | nil =>
    rw [List.nil_append, List.intercalate_singleton, List.map_nil, List.sum_nil, Nat.zero_add]
  | cons l L ih =>
    have hjoin : ['\n'].intercalate (l :: L ++ [a]) = l ++ ['\n'] ++ ['\n'].intercalate (L ++ [a]) := by
      obtain ⟨m, M, hM⟩ := List.exists_cons_of_ne_nil (show L ++ [a] ≠ [] by simp)
      rw [List.cons_append, hM, List.intercalate_cons_cons]
    have hbreak : len ['\n'] = 1 := rfl
    rw [hjoin, len_append, len_append, ih, hbreak, List.map_cons, List.sum_cons]
    omega

/-- what a repaint hint says of the lines before and after -/
def Damage.Sound : Damage → (before after : List Line) → Prop
  | .none, before, after => after = before
  | .line l, before, after => after.length = before.length ∧ ∀ i, i ≠ l → after[i]? = before[i]?
  | .fromLine l, before, after => ∀ i, i < l → after[i]? = before[i]?

/-- the hint of a text that goes out and one that goes in, at the same line -/
lemma merged_damage (line : Nat) (o t : List Char) :
    (damageOf line o).merge (damageOf line t) =
      if o = [] ∧ t = [] then .none
      else if '\n' ∉ o ∧ '\n' ∉ t then .line line else .fromLine line := by
  unfold damageOf
  by_cases ho : o = []
  · subst ho
    by_cases ht : t = []
    · simp [ht, Damage.merge]
    · by_cases hn : '\n' ∈ t <;> simp [ht, hn, Damage.merge]
  · by_cases ht : t = []
    · subst ht
      by_cases hn : '\n' ∈ o <;> simp [ho, hn, Damage.merge]
    · by_cases hn : '\n' ∈ o <;> by_cases hm : '\n' ∈ t <;> simp [ho, ht, hn, hm, Damage.merge]

/-- lines that agree before a line, and with the same lines after it -/
lemma sound_line (L M : List Line) (a c : Line) : Damage.Sound (.line L.length) (L ++ a :: M) (L ++ c :: M) := by
  refine ⟨by simp only [List.length_append, List.length_cons], fun i hi => ?_⟩
  rcases Nat.lt_or_gt_of_ne hi with hlt | hgt
  · rw [List.getElem?_append_left hlt, List.getElem?_append_left hlt]
  · obtain ⟨k, hk⟩ : ∃ k, i - L.length = k + 1 := ⟨i - L.length - 1, by omega⟩
    rw [List.getElem?_append_right (by omega), List.getElem?_append_right (by omega), hk]
    rfl

lemma sound_from (L M N : List Line) : Damage.Sound (.fromLine L.length) (L ++ M) (L ++ N) := by
  intro i hi
  rw [List.getElem?_append_left hi, List.getElem?_append_left hi]

theorem splice_sound (x o t z : List Char) :
    ((damageOf (pos x).line o).merge (damageOf (pos x).line t)).Sound
      ((x ++ o ++ z).splitOn '\n') ((x ++ t ++ z).splitOn '\n') := by
  obtain ⟨L, a, hx⟩ := exists_snoc '\n' x
  obtain ⟨c, M, hz⟩ := exists_cons '\n' z
  have hline : (pos x).line = L.length := by rw [pos, posOf_eq hx]
  rw [merged_damage, hline]
  by_cases hnone : o = [] ∧ t = []
  · rw [if_pos hnone, hnone.1, hnone.2]
    rfl
  rw [if_neg hnone]
  by_cases hflat : '\n' ∉ o ∧ '\n' ∉ t
  · rw [if_pos hflat, (splitOn_three hx hz (List.splitOn_eq_singleton hflat.1)).1,
      (splitOn_three hx hz (List.splitOn_eq_singleton hflat.2)).1]
    exact sound_line L M _ _
  · -- the last line of `x` runs on, the lines before it stay
    have hkeep : ∀ s : List Char, ∃ N, (x ++ s ++ z).splitOn '\n' = L ++ N := by
      intro s
      obtain ⟨d, N, hs⟩ := exists_cons '\n' (s ++ z)
      exact ⟨(a ++ d) :: N, by rw [List.append_assoc]; exact splitOn_append hx hs⟩
    obtain ⟨M, hM⟩ := hkeep o
    obtain ⟨N, hN⟩ := hkeep t
    rw [if_neg hflat, hM, hN]
    exact sound_from L M N

namespace EditorBuffer

variable {b : EditorBuffer} {start stop : Position}

/-- the bytes of the joined text before a position -/
def offset (b : EditorBuffer) (p : Position) : Nat :=
  ((b.lines.take p.line).map fun l => len l + 1).sum + p.col

lemma offset_pos {x y : List Char} (hb : b.lines = (x ++ y).splitOn '\n') : b.offset (pos x) = len x := by
  obtain ⟨L, a, hx⟩ := exists_snoc '\n' x
  obtain ⟨c, M, hy⟩ := exists_cons '\n' y
  have hpos : pos x = ⟨L.length, len a⟩ := posOf_eq hx
  have hjoin := join_splitOn '\n' x
  rw [hx] at hjoin
  have hlen := len_join L a
  rw [hjoin] at hlen
  rw [offset, hpos, hb, splitOn_append hx hy, List.take_left' rfl, hlen]

lemma WellFormed.lines (hb : b.WellFormed) : b.lines = b.toText.splitOn '\n' :=
  (splitOn_join hb.nonempty fun l hl => (hb.breaks l hl).1).symm

/-- **`raw_replace` splices the joined text.**  What it removes is the `text_range` before, the cursor
goes after the new text, and its repaint hint is sound. -/
theorem rawReplace_splices (hb : b.WellFormed) (hs : b.OnLine start) (he : b.OnLine stop)
    (hle : stop.before start = false) (text : List Char) :
    ∃ x removed z damage b', b.toText = x ++ removed ++ z ∧
      len x = b.offset start ∧ len (x ++ removed) = b.offset stop ∧
      b.textRange start stop = some removed ∧
      b.rawReplace start stop text = some (damage, b') ∧
      b'.toText = x ++ text ++ z ∧
      b'.OnLine b'.cursor ∧ b'.offset b'.cursor = b.offset start + len text ∧
      damage.Sound b.lines b'.lines := by
  obtain ⟨x, o, z, ht, rfl, rfl⟩ := At.between ((onLine_iff hb.lines).mp hs) ((onLine_iff hb.lines).mp he) hle
  have hlines : b.lines = (x ++ o ++ z).splitOn '\n' := by rw [← ht, ← hb.lines]
  have hx : b.lines = (x ++ (o ++ z)).splitOn '\n' := by rw [hlines, List.append_assoc]
  have hreplace := rawReplace_eq (t := text) x o z hlines
  refine ⟨x, o, z, _, _, ht, (offset_pos hx).symm, (offset_pos hlines).symm, textRange_eq x o z hlines,
    hreplace, toText_of_lines rfl, ?_, ?_, ?_⟩
  · exact (onLine_iff rfl).mpr (at_append (x ++ text) z)
  · show EditorBuffer.offset _ (pos (x ++ text)) = _
    rw [offset_pos (y := z) rfl, offset_pos hx, len_append]
  · rw [hlines]
    exact splice_sound x o text z

theorem rawReplace_splices_word :
    ∃ x removed z damage b', (fromText ['a', 'b', '\n', 'c']).toText = x ++ removed ++ z ∧
      len x = (fromText ['a', 'b', '\n', 'c']).offset ⟨0, 1⟩ ∧
      len (x ++ removed) = (fromText ['a', 'b', '\n', 'c']).offset ⟨1, 1⟩ ∧
      (fromText ['a', 'b', '\n', 'c']).textRange ⟨0, 1⟩ ⟨1, 1⟩ = some removed ∧
      (fromText ['a', 'b', '\n', 'c']).rawReplace ⟨0, 1⟩ ⟨1, 1⟩ ['é'] = some (damage, b') ∧
      b'.toText = x ++ ['é'] ++ z ∧ b'.OnLine b'.cursor ∧
      b'.offset b'.cursor = (fromText ['a', 'b', '\n', 'c']).offset ⟨0, 1⟩ + len ['é'] ∧
      damage.Sound (fromText ['a', 'b', '\n', 'c']).lines b'.lines :=
  rawReplace_splices ⟨by decide, by decide, ⟨['a', 'b'], by decide, by decide⟩, fun _ h => by cases h⟩
    ⟨['a', 'b'], by decide, by decide⟩ ⟨['c'], by decide, by decide⟩ (by decide) _

end EditorBuffer
end TerminalManager.Editor
