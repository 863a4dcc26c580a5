import TerminalManager.Editor.Splice

/-!
# Positions and movements

The columns the buffer computes lie between two characters of their line, so every movement leaves
the cursor and the anchor at positions of the text:

* `Placed`       the lines are those of the text, the cursor and the anchor are positions of it;
* `Moved b b'`   `b'` has the text and the history of `b`, and the open group is not reopened;
* `moveLeft_moved`, …   every movement is `Moved`.
-/

namespace TerminalManager.Editor
open Lines

/-! ## columns of one line -/

/-- a column between two characters -/
def Boundary (l : Line) (n : Nat) : Prop := ∃ x y, l = x ++ y ∧ len x = n

lemma boundary_zero (l : Line) : Boundary l 0 := ⟨[], l, rfl, rfl⟩

lemma boundary_len (l : Line) : Boundary l (len l) := ⟨l, [], (List.append_nil l).symm, rfl⟩

lemma boundary_le {l : Line} {n : Nat} (h : Boundary l n) : n ≤ len l := by
  obtain ⟨x, y, rfl, rfl⟩ := h
  rw [len_append]
  omega

lemma Boundary.sliceTo {l : Line} {n : Nat} (h : Boundary l n) : ∃ m, sliceTo l n = some m := by
  obtain ⟨x, y, rfl, rfl⟩ := h
  exact ⟨x, sliceTo_len x y⟩

lemma Boundary.sliceFrom {l : Line} {n : Nat} (h : Boundary l n) : ∃ m, sliceFrom l n = some m := by
  obtain ⟨x, y, rfl, rfl⟩ := h
  exact ⟨y, sliceFrom_len x y⟩

lemma isCharBoundary_iff (l : Line) (n : Nat) : isCharBoundary l n = true ↔ Boundary l n := by
  unfold isCharBoundary
  constructor
  · intro h
    obtain ⟨⟨x, y⟩, hc⟩ := Option.isSome_iff_exists.mp h
    obtain ⟨hl, hw⟩ := cut_some hc
    exact ⟨x, y, hl, hw⟩
  · rintro ⟨x, y, rfl, rfl⟩
    rw [cut_len]
    rfl

lemma boundary_snapDown (l : Line) (n : Nat) : Boundary l (snapDown l n) := by
  induction n with
  | zero => exact boundary_zero l
  | succ n ih =>
    rw [snapDown]
    by_cases h : isCharBoundary l (n + 1) = true
    · rw [if_pos h]
      exact (isCharBoundary_iff l (n + 1)).mp h
    · rw [if_neg h]
      exact ih

lemma boundary_colForVisualFrom (target : Nat) (x y : Line) (v : Nat) :
    Boundary (x ++ y) (colForVisualFrom target y (len x) v) := by
  induction y generalizing x v with
  | nil =>
    rw [List.append_nil]
    exact boundary_len x
  | cons c y ih =>
    rw [colForVisualFrom]
    by_cases h : target < v + charWidthAt c v
    · rw [if_pos h]
      exact ⟨x, c :: y, rfl, rfl⟩
    · have hx : len (x ++ [c]) = len x + c.utf8Size := by
        rw [len_append, len_cons, len_nil]
        omega
      have hih := ih (x ++ [c]) (v + charWidthAt c v)
      rw [List.append_assoc, hx] at hih
      rw [if_neg h]
      exact hih

lemma len_reverse (l : Line) : len l.reverse = len l := by
  induction l with
  | nil => rfl
  | cons c l ih =>
    rw [List.reverse_cons, len_append, ih, len_cons, len_cons, len_nil]
    omega

/-- what is left of a line when characters are dropped from its end -/
lemma boundary_reverse {p q : Line} (h : q <:+ p.reverse) (y : Line) :
    Boundary (p ++ y) (len q) ∧ len q ≤ len p := by
  obtain ⟨r, hr⟩ := h
  have hp : p = q.reverse ++ r.reverse := by
    rw [← List.reverse_append, hr, List.reverse_reverse]
  rw [hp]
  refine ⟨⟨q.reverse, r.reverse ++ y, List.append_assoc _ _ _, len_reverse q⟩, ?_⟩
  rw [len_append, len_reverse]
  omega

lemma prevWordBoundary_eq (t : CharTable) (x y : Line) :
    ∃ n, prevWordBoundary t (x ++ y) (len x) = some n ∧ Boundary (x ++ y) n ∧ n ≤ len x := by
  unfold prevWordBoundary
  rw [sliceTo_len]
  refine ⟨_, rfl, ?_⟩
  have hdrop : x.reverse.dropWhile isWhitespace <:+ x.reverse := List.dropWhile_suffix _
  dsimp only
  split
  · exact ⟨boundary_zero _, Nat.zero_le _⟩
  · rename_i c q hq
    rw [hq] at hdrop
    exact boundary_reverse ((List.dropWhile_suffix _).trans hdrop) y

lemma skipRun_suffix (t : CharTable) (l : Line) : skipRun t l <:+ l := by
  cases l with
  | nil => exact List.suffix_refl _
  | cons c l =>
    rw [skipRun]
    split
    · exact List.suffix_refl _
    · exact List.dropWhile_suffix _

lemma nextWordBoundary_eq (t : CharTable) (x y : Line) :
    ∃ n, nextWordBoundary t (x ++ y) (len x) = some n ∧ Boundary (x ++ y) n ∧ len x ≤ n := by
  unfold nextWordBoundary
  rw [sliceFrom_len]
  refine ⟨_, rfl, ?_⟩
  dsimp only
  by_cases hr : (skipRun t y).dropWhile isWhitespace = []
  · rw [if_pos hr]
    refine ⟨boundary_len _, ?_⟩
    rw [len_append]
    omega
  · rw [if_neg hr]
    obtain ⟨z, hz⟩ := (List.dropWhile_suffix isWhitespace).trans (skipRun_suffix t y)
    have hlen : len y - len ((skipRun t y).dropWhile isWhitespace) = len z := by
      have h := congrArg len hz
      rw [len_append] at h
      omega
    refine ⟨⟨x ++ z, (skipRun t y).dropWhile isWhitespace, ?_, ?_⟩, Nat.le_add_right _ _⟩
    · rw [List.append_assoc, hz]
    · rw [len_append, hlen]

lemma boundary_indentEnd (l : Line) : Boundary l (indentEnd l) :=
  ⟨l.takeWhile isWhitespace, l.dropWhile isWhitespace, List.takeWhile_append_dropWhile.symm, rfl⟩

namespace EditorBuffer
variable {b b' : EditorBuffer} {p q : Position} {l : Line}

/-! ## positions of the buffer -/

/-- a position of the text -/
def Valid (b : EditorBuffer) (p : Position) : Prop := At '\n' Char.utf8Size b.toText p

structure Placed (b : EditorBuffer) : Prop where
  lines : b.lines = b.toText.splitOn '\n'
  cursor : b.Valid b.cursor
  anchor : ∀ a ∈ b.anchor, b.Valid a

lemma Placed.valid_iff (hb : b.Placed) :
    b.Valid p ↔ ∃ l, b.lines[p.line]? = some l ∧ Boundary l p.col := by
  rw [Valid, at_iff, ← hb.lines]
  constructor
  · rintro ⟨l, x, y, hl, hxy, hw⟩
    exact ⟨l, hl, x, y, hxy, hw⟩
  · rintro ⟨l, hl, x, y, hxy, hw⟩
    exact ⟨l, x, y, hl, hxy, hw⟩

lemma Placed.line (hb : b.Placed) (hp : b.Valid p) :
    ∃ x y, b.lines[p.line]? = some (x ++ y) ∧ len x = p.col := by
  obtain ⟨l, hl, x, y, rfl, hw⟩ := hb.valid_iff.mp hp
  exact ⟨x, y, hl, hw⟩

lemma Placed.valid (hb : b.Placed) {i n : Nat} (hl : b.lines[i]? = some l) (hn : Boundary l n) :
    b.Valid ⟨i, n⟩ := hb.valid_iff.mpr ⟨l, hl, hn⟩

lemma Placed.nonempty (hb : b.Placed) : 0 < b.lines.length := by
  obtain ⟨x, y, hl, -⟩ := hb.line hb.cursor
  exact Nat.lt_of_le_of_lt (Nat.zero_le _) (List.getElem?_eq_some_iff.mp hl).1

lemma exists_line {i : Nat} (h : i < b.lines.length) : ∃ l, b.lines[i]? = some l :=
  ⟨_, List.getElem?_eq_getElem h⟩

lemma Placed.line_lt (hb : b.Placed) (hp : b.Valid p) : p.line < b.lines.length := by
  obtain ⟨x, y, hl, -⟩ := hb.line hp
  exact (List.getElem?_eq_some_iff.mp hl).1

/-- the two ends of a selection -/
lemma Placed.selection (hb : b.Placed) (h : b.selection = some (p, q)) :
    b.Valid p ∧ b.Valid q ∧ q.before p = false := by
  unfold EditorBuffer.selection at h
  cases ha : b.anchor with
  | none =>
    rw [ha] at h
    cases h
  | some a =>
    have hav := hb.anchor a ha
    rw [ha] at h
    simp only at h
    by_cases he : a = b.cursor
    · rw [if_pos he] at h
      cases h
    · rw [if_neg he] at h
      by_cases hlt : a.before b.cursor = true
      · rw [if_pos hlt] at h
        cases h
        refine ⟨hav, hb.cursor, ?_⟩
        simp only [Position.before, Bool.or_eq_true, Bool.and_eq_true, decide_eq_true_eq,
          Bool.or_eq_false_iff, Bool.and_eq_false_iff, decide_eq_false_iff_not] at hlt ⊢
        omega
      · rw [if_neg hlt] at h
        cases h
        exact ⟨hb.cursor, hav, Bool.not_eq_true _ ▸ hlt⟩

/-! ## columns of the buffer -/

lemma Placed.prevCharCol (hb : b.Placed) (hp : b.Valid p) :
    ∃ n, b.prevCharCol p.line p.col = some n ∧ b.Valid ⟨p.line, n⟩ ∧ n ≤ p.col := by
  obtain ⟨x, y, hl, hw⟩ := hb.line hp
  have hdrop : x.dropLast ++ x.getLast?.toList = x := by
    rcases List.eq_nil_or_concat x with rfl | ⟨z, c, rfl⟩
    · rfl
    · simp
  have hlen : len x.dropLast ≤ len x := by
    have h := congrArg len hdrop
    rw [len_append] at h
    omega
  refine ⟨len x.dropLast, ?_, hb.valid hl ⟨x.dropLast, x.getLast?.toList ++ y, ?_, rfl⟩, hw ▸ hlen⟩
  · rw [EditorBuffer.prevCharCol, hl, ← hw]
    simp only [Option.bind_eq_bind, Option.bind_some, sliceTo_len]
  · rw [← List.append_assoc, hdrop]

lemma Placed.nextCharCol (hb : b.Placed) (hp : b.Valid p) :
    ∃ n, b.nextCharCol p.line p.col = some n ∧ b.Valid ⟨p.line, n⟩ ∧ p.col ≤ n := by
  obtain ⟨x, y, hl, hw⟩ := hb.line hp
  rw [EditorBuffer.nextCharCol, hl, ← hw]
  simp only [Option.bind_eq_bind, Option.bind_some, sliceFrom_len]
  cases y with
  | nil =>
    exact ⟨_, rfl, hb.valid hl (boundary_len _), Nat.le_of_eq (congrArg len (List.append_nil x).symm)⟩
  | cons c y =>
    refine ⟨_, rfl, hb.valid hl ⟨x ++ [c], y, by simp, ?_⟩, Nat.le_add_right _ _⟩
    rw [len_append, len_cons, len_nil]
    rfl

lemma Placed.docEnd (hb : b.Placed) : ∃ q, b.docEnd = some q ∧ b.Valid q := by
  have hpos := hb.nonempty
  obtain ⟨l, hl⟩ := exists_line (b := b) (i := b.lines.length - 1) (by omega)
  refine ⟨⟨b.lines.length - 1, len l⟩, ?_, hb.valid hl (boundary_len l)⟩
  rw [EditorBuffer.docEnd]
  simp only [hl, Option.bind_eq_bind, Option.bind_some]

lemma Placed.clampPosition (hb : b.Placed) (p : Position) :
    ∃ q, b.clampPosition p = some q ∧ b.Valid q := by
  have hpos := hb.nonempty
  obtain ⟨l, hl⟩ := exists_line (b := b) (i := min p.line (b.lines.length - 1)) (by omega)
  refine ⟨_, ?_, hb.valid hl (boundary_snapDown l (min (min p.col (len l)) (len l)))⟩
  rw [EditorBuffer.clampPosition]
  simp only [snapToCharBoundary, hl, Option.bind_eq_bind, Option.bind_some, Option.map_some]

/-! ## movements -/

/-- the text and the history of `b`, with a cursor and an anchor in the text -/
structure Moved (b b' : EditorBuffer) : Prop where
  lines : b'.lines = b.lines
  undos : b'.undos = b.undos
  redos : b'.redos = b.redos
  nextGroupId : b'.nextGroupId = b.nextGroupId
  groupOpen : b'.groupOpen = true → b.groupOpen = true
  cursor : b.Valid b'.cursor
  anchor : ∀ a ∈ b'.anchor, b.Valid a

lemma Moved.toText (h : Moved b b') : b'.toText = b.toText := by
  unfold EditorBuffer.toText
  rw [h.lines]

lemma Moved.placed (h : Moved b b') (hb : b.Placed) : b'.Placed where
  lines := by rw [h.lines, h.toText, hb.lines]
  cursor := by
    rw [Valid, h.toText]
    exact h.cursor
  anchor a ha := by
    rw [Valid, h.toText]
    exact h.anchor a ha

/-- the cursor is put somewhere, nothing is selected, and the group stays as it is -/
lemma moved_collapse (hp : b.Valid p) {s : Option Nat} :
    Moved b { b with stickyChars := s, cursor := p, anchor := none } :=
  ⟨rfl, rfl, rfl, rfl, id, hp, fun _ h => (by cases h)⟩

/-- the cursor is put somewhere after `begin_move` -/
lemma Placed.moved_begin (hb : b.Placed) (hp : b.Valid p) {s : Option Nat} {extend : Bool} :
    Moved b { b.beginMove extend with stickyChars := s, cursor := p } := by
  refine ⟨rfl, rfl, rfl, rfl, fun h => (by cases h), hp, fun a ha => ?_⟩
  have ha' : (if extend then some (b.anchor.getD b.cursor) else none) = some a := ha
  cases extend with
  | false => cases ha'
  | true =>
    cases han : b.anchor with
    | none =>
      rw [han] at ha'
      cases ha'
      exact hb.cursor
    | some c =>
      rw [han] at ha'
      cases ha'
      exact hb.anchor c han

lemma Placed.moved_sticky (hb : b.Placed) (s : Option Nat) : Moved b { b with stickyChars := s } :=
  ⟨rfl, rfl, rfl, rfl, id, hb.cursor, hb.anchor⟩

/-- the end of the line above the cursor -/
lemma Placed.line_above (hb : b.Placed) (h : 0 < b.cursor.line) :
    ∃ l, b.lines[b.cursor.line - 1]? = some l ∧ b.Valid ⟨b.cursor.line - 1, len l⟩ := by
  have hlt := hb.line_lt hb.cursor
  obtain ⟨l, hl⟩ := exists_line (b := b) (i := b.cursor.line - 1) (by omega)
  exact ⟨l, hl, hb.valid hl (boundary_len l)⟩

/-- the start of the line below the cursor -/
lemma Placed.line_below (hb : b.Placed) (h : b.cursor.line + 1 < b.lines.length) :
    b.Valid ⟨b.cursor.line + 1, 0⟩ := by
  obtain ⟨l, hl⟩ := exists_line h
  exact hb.valid hl (boundary_zero l)

theorem moveLeft_moved (hb : b.Placed) (extend : Bool) :
    ∃ b', b.moveLeft extend = some b' ∧ Moved b b' := by
  have hkeep : Moved b { b.beginMove extend with stickyChars := none, cursor := b.cursor } :=
    hb.moved_begin hb.cursor
  unfold moveLeft
  dsimp only
  cases hsel : (if extend = true then none else selection { b with stickyChars := none }) with
  | some s =>
    cases extend with
    | true => cases hsel
    | false => exact ⟨_, rfl, moved_collapse (hb.selection hsel).1⟩
  | none =>
    simp only [beginMove]
    by_cases hcol : 0 < b.cursor.col
    · obtain ⟨n, hn, hv, -⟩ := hb.prevCharCol hb.cursor
      have hn' : ∀ a s o, EditorBuffer.prevCharCol
          { b with stickyChars := s, groupOpen := o, anchor := a } b.cursor.line b.cursor.col = some n :=
        fun _ _ _ => hn
      simp only [if_pos hcol, hn', Option.bind_eq_bind, Option.bind_some]
      exact ⟨_, rfl, hb.moved_begin hv⟩
    · simp only [if_neg hcol]
      by_cases hline : 0 < b.cursor.line
      · obtain ⟨l, hl, hv⟩ := hb.line_above hline
        simp only [if_pos hline, hl, Option.bind_eq_bind, Option.bind_some]
        exact ⟨_, rfl, hb.moved_begin hv⟩
      · simp only [if_neg hline]
        exact ⟨_, rfl, hkeep⟩

theorem moveRight_moved (hb : b.Placed) (extend : Bool) :
    ∃ b', b.moveRight extend = some b' ∧ Moved b b' := by
  unfold moveRight
  dsimp only
  cases hsel : (if extend = true then none else selection { b with stickyChars := none }) with
  | some s =>
    cases extend with
    | true => cases hsel
    | false => exact ⟨_, rfl, moved_collapse (hb.selection hsel).2.1⟩
  | none =>
    obtain ⟨x, y, hl, hw⟩ := hb.line hb.cursor
    simp only [beginMove, hl, Option.bind_eq_bind, Option.bind_some]
    by_cases hcol : b.cursor.col < len (x ++ y)
    · obtain ⟨n, hn, hv, -⟩ := hb.nextCharCol hb.cursor
      have hn' : ∀ a s o, EditorBuffer.nextCharCol
          { b with stickyChars := s, groupOpen := o, anchor := a } b.cursor.line b.cursor.col = some n :=
        fun _ _ _ => hn
      simp only [if_pos hcol, hn', Option.bind_some]
      exact ⟨_, rfl, hb.moved_begin hv⟩
    · simp only [if_neg hcol]
      by_cases hline : b.cursor.line + 1 < b.lines.length
      · simp only [if_pos hline]
        exact ⟨_, rfl, hb.moved_begin (hb.line_below hline)⟩
      · simp only [if_neg hline]
        exact ⟨_, rfl, hb.moved_begin hb.cursor⟩

lemma Moved.trans {b'' : EditorBuffer} (h : Moved b b') (h' : Moved b' b'') : Moved b b'' where
  lines := h'.lines.trans h.lines
  undos := h'.undos.trans h.undos
  redos := h'.redos.trans h.redos
  nextGroupId := h'.nextGroupId.trans h.nextGroupId
  groupOpen ho := h.groupOpen (h'.groupOpen ho)
  cursor := by
    have hc := h'.cursor
    rw [Valid, h.toText] at hc
    exact hc
  anchor a ha := by
    have hc := h'.anchor a ha
    rw [Valid, h.toText] at hc
    exact hc

theorem moveLines_moved (hb : b.Placed) (delta : Int) :
    ∃ b', b.moveLines delta = some b' ∧ Moved b b' := by
  have hmoved : ∀ {p s}, b.Valid p → Moved b { b with stickyChars := s, cursor := p } := fun hp =>
    ⟨rfl, rfl, rfl, rfl, id, hp, hb.anchor⟩
  obtain ⟨x, y, hl, -⟩ := hb.line hb.cursor
  have hstart : b.Valid ⟨b.cursor.line, 0⟩ := hb.valid hl (boundary_zero _)
  have hstop : b.Valid ⟨b.cursor.line, len (x ++ y)⟩ := hb.valid hl (boundary_len _)
  obtain ⟨sticky, hs⟩ : ∃ sticky, b.stickyCol = some sticky := by
    unfold stickyCol
    cases b.stickyChars with
    | some s => exact ⟨s, rfl⟩
    | none =>
      simp only [visualCol, hl, Option.map_some]
      exact ⟨_, rfl⟩
  unfold moveLines
  simp only [hs, Option.bind_eq_bind, Option.bind_some, hl]
  by_cases ht : min (b.cursor.line + delta).toNat (b.lines.length - 1) = b.cursor.line
  · simp only [if_pos ht]
    by_cases hd : delta < 0
    · simp only [if_pos hd]
      exact ⟨_, rfl, hmoved hstart⟩
    · simp only [if_neg hd]
      exact ⟨_, rfl, hmoved hstop⟩
  · have hpos := hb.nonempty
    obtain ⟨l, hl'⟩ := exists_line (b := b)
      (i := min (b.cursor.line + delta).toNat (b.lines.length - 1)) (by omega)
    simp only [if_neg ht, colForVisual, hl', Option.map_some, Option.bind_some]
    exact ⟨_, rfl, hmoved (hb.valid hl' (boundary_colForVisualFrom _ [] l 0))⟩

theorem moveVertical_moved (hb : b.Placed) (delta : Int) (extend : Bool) :
    ∃ b', b.moveVertical delta extend = some b' ∧ Moved b b' := by
  have hrest : ∀ {c}, Moved b c → ∃ b', c.moveLines delta = some b' ∧ Moved b b' := by
    intro c hc
    obtain ⟨b', hb', hmoved⟩ := moveLines_moved (hc.placed hb) delta
    exact ⟨b', hb', hc.trans hmoved⟩
  unfold moveVertical
  split
  · rename_i start stop hsel
    cases extend with
    | true => cases hsel
    | false =>
      obtain ⟨h1, h2, -⟩ := hb.selection hsel
      refine hrest ⟨rfl, rfl, rfl, rfl, fun h => (by cases h), ?_, fun _ h => (by cases h)⟩
      show b.Valid (if delta < 0 then start else stop)
      split
      · exact h1
      · exact h2
  · exact hrest (hb.moved_begin hb.cursor)

theorem moveHome_moved (hb : b.Placed) (extend : Bool) :
    ∃ b', b.moveHome extend = some b' ∧ Moved b b' := by
  obtain ⟨x, y, hl, -⟩ := hb.line hb.cursor
  unfold moveHome
  simp only [beginMove, hl, Option.bind_eq_bind, Option.bind_some]
  refine ⟨_, rfl, hb.moved_begin (hb.valid hl ?_)⟩
  split
  · exact boundary_zero _
  · exact boundary_indentEnd _

theorem moveEnd_moved (hb : b.Placed) (extend : Bool) :
    ∃ b', b.moveEnd extend = some b' ∧ Moved b b' := by
  obtain ⟨x, y, hl, -⟩ := hb.line hb.cursor
  unfold moveEnd
  simp only [beginMove, hl, Option.bind_eq_bind, Option.bind_some]
  exact ⟨_, rfl, hb.moved_begin (hb.valid hl (boundary_len _))⟩

theorem moveDocStart_moved (hb : b.Placed) (extend : Bool) :
    ∃ b', b.moveDocStart extend = some b' ∧ Moved b b' :=
  ⟨_, rfl, hb.moved_begin (at_start _)⟩

theorem moveDocEnd_moved (hb : b.Placed) (extend : Bool) :
    ∃ b', b.moveDocEnd extend = some b' ∧ Moved b b' := by
  obtain ⟨p, hp, hv⟩ := hb.docEnd
  unfold moveDocEnd
  rw [hp]
  exact ⟨_, rfl, hb.moved_begin hv⟩

theorem moveWordLeft_moved (t : CharTable) (hb : b.Placed) (extend : Bool) :
    ∃ b', b.moveWordLeft t extend = some b' ∧ Moved b b' := by
  unfold moveWordLeft
  simp only [beginMove]
  by_cases hcol : b.cursor.col = 0
  · simp only [if_pos hcol]
    by_cases hline : 0 < b.cursor.line
    · obtain ⟨l, hl, hv⟩ := hb.line_above hline
      simp only [if_pos hline, hl, Option.bind_eq_bind, Option.bind_some]
      exact ⟨_, rfl, hb.moved_begin hv⟩
    · simp only [if_neg hline]
      exact ⟨_, rfl, hb.moved_begin hb.cursor⟩
  · obtain ⟨x, y, hl, hw⟩ := hb.line hb.cursor
    obtain ⟨n, hn, hbd, -⟩ := prevWordBoundary_eq t x y
    rw [hw] at hn
    simp only [if_neg hcol, hl, Option.bind_eq_bind, Option.bind_some, hn]
    exact ⟨_, rfl, hb.moved_begin (hb.valid hl hbd)⟩

theorem moveWordRight_moved (t : CharTable) (hb : b.Placed) (extend : Bool) :
    ∃ b', b.moveWordRight t extend = some b' ∧ Moved b b' := by
  obtain ⟨x, y, hl, hw⟩ := hb.line hb.cursor
  unfold moveWordRight
  simp only [beginMove, hl, Option.bind_eq_bind, Option.bind_some]
  by_cases hcol : len (x ++ y) ≤ b.cursor.col
  · simp only [if_pos hcol]
    by_cases hline : b.cursor.line + 1 < b.lines.length
    · simp only [if_pos hline]
      exact ⟨_, rfl, hb.moved_begin (hb.line_below hline)⟩
    · simp only [if_neg hline]
      exact ⟨_, rfl, hb.moved_begin hb.cursor⟩
  · obtain ⟨n, hn, hbd, -⟩ := nextWordBoundary_eq t x y
    rw [hw] at hn
    simp only [if_neg hcol, Option.bind_some, hn]
    exact ⟨_, rfl, hb.moved_begin (hb.valid hl hbd)⟩

theorem setCursor_moved (hb : b.Placed) (p : Position) (extend : Bool) :
    ∃ b', b.setCursor p extend = some b' ∧ Moved b b' := by
  obtain ⟨q, hq, hv⟩ := hb.clampPosition p
  have hq' : ({ b with stickyChars := none }.beginMove extend).clampPosition p = some q := hq
  unfold setCursor
  simp only [hq', Option.bind_eq_bind, Option.bind_some]
  exact ⟨_, rfl, hb.moved_begin hv⟩

/-- the cursor and the anchor are put somewhere, and the group stays as it is -/
lemma moved_select (hp : b.Valid p) (hq : b.Valid q) :
    Moved b { b with stickyChars := none, anchor := some q, cursor := p } :=
  ⟨rfl, rfl, rfl, rfl, id, hp, fun _ ha => Option.some.inj ha ▸ hq⟩

theorem selectAll_moved (hb : b.Placed) : ∃ b', b.selectAll = some b' ∧ Moved b b' := by
  obtain ⟨p, hp, hv⟩ := hb.docEnd
  unfold selectAll
  rw [hp]
  exact ⟨_, rfl, moved_select hv (at_start _)⟩

theorem selectWordAt_moved (t : CharTable) (hb : b.Placed) (p : Position) :
    ∃ b', b.selectWordAt t p = some b' ∧ Moved b b' := by
  obtain ⟨q, hq, hv⟩ := hb.clampPosition p
  obtain ⟨x, y, hl, hw⟩ := hb.line hv
  have hq' : clampPosition { b with stickyChars := none } p = some q := hq
  unfold selectWordAt
  simp only [hq', hl, Option.bind_eq_bind, Option.bind_some]
  by_cases he : x ++ y = []
  · rw [if_pos he]
    exact ⟨_, rfl, moved_collapse hv⟩
  · rw [if_neg he]
    -- the character under the cursor, or the last one of the line
    obtain ⟨col, hcol, u, v, huv, hu⟩ : ∃ col, wordCol { b with stickyChars := none } q (x ++ y) =
        some col ∧ ∃ u v, x ++ y = u ++ v ∧ len u = col := by
      unfold wordCol
      by_cases hend : len (x ++ y) ≤ q.col
      · obtain ⟨n, hn, hnv, -⟩ := hb.prevCharCol (hb.valid hl (boundary_len (x ++ y)))
        obtain ⟨u, v, huv, hu⟩ := hb.line hnv
        have huv' : x ++ y = u ++ v := Option.some.inj (hl.symm.trans huv)
        exact ⟨n, (if_pos hend).trans hn, u, v, huv', hu⟩
      · exact ⟨q.col, if_neg hend, x, y, rfl, hw⟩
    rw [huv] at hl hcol ⊢
    simp only [hcol, Option.bind_some, ← hu, sliceTo_len, sliceFrom_len]
    refine ⟨_, rfl, moved_select (hb.valid hl ?_) (hb.valid hl ?_)⟩
    · have hrun : ∀ r : Char → Bool, Boundary (u ++ v) (len u + len (v.takeWhile r)) := by
        intro r
        refine ⟨u ++ v.takeWhile r, v.dropWhile r, ?_, len_append _ _⟩
        rw [List.append_assoc, List.takeWhile_append_dropWhile]
      exact hrun _
    · exact (boundary_reverse (List.dropWhile_suffix _) v).1

theorem breakUndoGroup_moved (hb : b.Placed) : Moved b b.breakUndoGroup :=
  ⟨rfl, rfl, rfl, rfl, fun h => (by cases h), hb.cursor, hb.anchor⟩

end EditorBuffer
end TerminalManager.Editor
