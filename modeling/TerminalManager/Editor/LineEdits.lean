import Mathlib.Data.List.TakeWhile
import TerminalManager.Editor.Edits

/-!
# Line-wise commands

Indenting, outdenting and commenting rewrite the lines of the selection as one recorded splice, and
then put the cursor, the anchor and the record's `cursor_after` themselves.

* `rewriteLines_stepped`, `rewriteSpan_stepped`   the rewriting, for any new lines;
* `run_cases`   **main result**: an operation other than `undo` and `redo` does not panic, and it is
  a movement or an edit.
-/

namespace TerminalManager.Editor
open Lines
namespace EditorBuffer

variable {S : List Char} {b b' : EditorBuffer} {first last : Nat} {newLines : List Line}

lemma mapM_some {β γ : Type} {f : β → Option γ} {P : γ → Prop} {l : List β}
    (h : ∀ a ∈ l, ∃ c, f a = some c ∧ P c) :
    ∃ m, l.mapM f = some m ∧ m.length = l.length ∧ ∀ c ∈ m, P c := by
  induction l with
  | nil => exact ⟨[], rfl, rfl, fun c hc => (by cases hc)⟩
  | cons a l ih =>
    obtain ⟨c, hc, hP⟩ := h a List.mem_cons_self
    obtain ⟨m, hm, hlen, hall⟩ := ih fun a ha => h a (List.mem_cons_of_mem _ ha)
    refine ⟨c :: m, ?_, congrArg (· + 1) hlen, List.forall_mem_cons.mpr ⟨hP, hall⟩⟩
    rw [List.mapM_cons, hc, hm]
    rfl

lemma mem_mapM {β γ : Type} {f : β → Option γ} {l : List β} {m : List γ} (h : l.mapM f = some m)
    {a : β} {c : γ} (ha : a ∈ l) (hc : f a = some c) : c ∈ m := by
  induction l generalizing m with
  | nil => cases ha
  | cons d l ih =>
    rw [List.mapM_cons] at h
    obtain ⟨e, he, h⟩ := Option.bind_eq_some_iff.mp h
    obtain ⟨k, hk, h⟩ := Option.bind_eq_some_iff.mp h
    obtain rfl := Option.some.inj h
    rcases List.mem_cons.mp ha with rfl | ha
    · rw [hc] at he
      rw [Option.some.inj he]
      exact List.mem_cons_self
    · exact List.mem_cons_of_mem e (ih hk ha)

lemma Placed.lineSpan (hb : b.Placed) : b.lineSpan.1 ≤ b.lineSpan.2 ∧ b.lineSpan.2 < b.lines.length := by
  unfold EditorBuffer.lineSpan
  cases hs : b.selection with
  | none => exact ⟨Nat.le_refl _, hb.line_lt hb.cursor⟩
  | some s =>
    obtain ⟨p, q⟩ := s
    obtain ⟨-, hq, hpq⟩ := hb.selection hs
    have hlt := hb.line_lt hq
    simp only [Position.before, Bool.or_eq_false_iff, decide_eq_false_iff_not] at hpq
    dsimp only
    split
    · omega
    · omega

/-- the new text has at least the lines of the old one -/
lemma length_le_rewritten {x o z : List Char} (hx : pos x = ⟨first, 0⟩) (hxo : (pos (x ++ o)).line = last)
    (hlen : newLines.length = last + 1 - first) :
    ((x ++ o ++ z).splitOn '\n').length ≤ ((x ++ ['\n'].intercalate newLines ++ z).splitOn '\n').length := by
  have h1 := posOf_line '\n' Char.utf8Size x
  have h2 := posOf_line '\n' Char.utf8Size (x ++ o)
  have h3 := length_splitOn_append '\n' (x ++ o) z
  have h4 := length_splitOn_append '\n' (x ++ ['\n'].intercalate newLines) z
  have h5 := length_splitOn_append '\n' x (['\n'].intercalate newLines)
  have h6 := length_le_splitOn_join '\n' newLines
  have hx' : (posOf '\n' Char.utf8Size x).line = first := congrArg Position.line hx
  have hxo' : (posOf '\n' Char.utf8Size (x ++ o)).line = last := hxo
  omega

/-- nothing is left out and nothing comes in only when the line is empty and stays so -/
lemma Placed.rewritten_empty {x o : List Char} {l : Line} (hx : pos x = ⟨first, 0⟩)
    (hxo : pos (x ++ o) = ⟨last, len l⟩) (hl : b.lines[last]? = some l) (ho : o = [])
    (hn : ['\n'].intercalate newLines = []) (hlen : newLines.length = last + 1 - first) :
    (List.range newLines.length).mapM (fun k => b.lines[first + k]?) = some newLines := by
  rw [ho, List.append_nil, hx, Position.mk.injEq] at hxo
  obtain ⟨rfl, hcol⟩ := hxo
  have hone : newLines.length = 1 := by omega
  obtain ⟨m, rfl⟩ := List.length_eq_one_iff.mp hone
  rw [List.intercalate_singleton] at hn
  have hle : l = [] := by
    by_contra hne
    have hpos := len_pos hne
    omega
  rw [hn]
  show (b.lines[first + 0]?.bind fun l => some [l]) = _
  rw [Nat.add_zero, hl, hle]
  rfl

/-- a column of a line is a position of the text -/
lemma at_line {t : List Char} {i n : Nat} {l : Line} (hl : (t.splitOn '\n')[i]? = some l)
    (hn : Boundary l n) : At '\n' Char.utf8Size t ⟨i, n⟩ := by
  obtain ⟨x, y, hxy, hw⟩ := hn
  exact at_iff.mpr ⟨l, x, y, hl, hxy, hw⟩

/-- the cursor and the anchor go to positions of the new text -/
lemma Placed.rewrittenCursor (hb : b.Placed) {c : EditorBuffer} {t : List Char}
    (hc : c.lines = t.splitOn '\n') (hmore : b.lines.length ≤ c.lines.length) (hle : first ≤ last)
    (hlast : last < b.lines.length) (cursorDelta : Int) :
    ∃ x, b.rewrittenCursor c first last cursorDelta = some x ∧ At '\n' Char.utf8Size t x.1 ∧
      ∀ a ∈ x.2, At '\n' Char.utf8Size t a := by
  have hline : ∀ i, i < b.lines.length → ∃ m, c.lines[i]? = some m :=
    fun i hi => exists_line (Nat.lt_of_lt_of_le hi hmore)
  obtain ⟨l, hl⟩ := hline last hlast
  obtain ⟨k, hk⟩ := hline b.cursor.line (hb.line_lt hb.cursor)
  obtain ⟨f, hf⟩ := hline first (Nat.lt_of_le_of_lt hle hlast)
  unfold EditorBuffer.rewrittenCursor
  by_cases hsel : b.selection.isSome = true
  · rw [if_pos hsel]
    simp only [hl, Option.bind_eq_bind, Option.bind_some]
    refine ⟨_, rfl, at_line (hc ▸ hl) (boundary_len l), ?_⟩
    intro a ha
    cases ha
    exact at_line (hc ▸ hf) (boundary_zero f)
  · rw [if_neg hsel]
    simp only [hk, floorBoundary, Option.bind_eq_bind, Option.bind_some, Option.map_some]
    exact ⟨_, rfl, at_line (hc ▸ hk) (boundary_snapDown k _), fun a ha => (by cases ha)⟩

/-- the buffer that `rewrite_lines` leaves: `t` has come in the place of `o` -/
def rewritten (b : EditorBuffer) (x o t z : List Char) (cursor : Position) (anchor : Option Position) :
    EditorBuffer :=
  { b with
    lines := (x ++ t ++ z).splitOn '\n'
    cursor := cursor
    anchor := anchor
    stickyChars := none
    redos := []
    undos := ⟨b.nextGroupId, .other, [{ b.spliceRecord x o t with cursorAfter := cursor }]⟩ :: b.undos
    nextGroupId := b.nextGroupId + 1
    groupOpen := false }

/-- **`rewrite_lines` does nothing, or it splices** from the start of the first line to the end of the
last. -/
theorem rewriteLines_cases (hb : b.Placed) (hle : first ≤ last) (hlast : last < b.lines.length)
    (hlen : newLines.length = last + 1 - first) (cursorDelta : Int) :
    ((List.range newLines.length).mapM (fun k => b.lines[first + k]?) = some newLines ∧
      b.rewriteLines first last newLines cursorDelta = some (.none, b)) ∨
    ∃ x o z l d c, b.toText = x ++ o ++ z ∧ b.lines[last]? = some l ∧
      pos x = ⟨first, 0⟩ ∧ pos (x ++ o) = ⟨last, len l⟩ ∧
      b.rewrittenCursor { b with lines := (x ++ ['\n'].intercalate newLines ++ z).splitOn '\n' } first last
        cursorDelta = some c ∧
      b.rewriteLines first last newLines cursorDelta =
        some (d, b.rewritten x o (['\n'].intercalate newLines) z c.1 c.2) := by
  obtain ⟨l, hl⟩ := exists_line hlast
  obtain ⟨l₀, hl₀⟩ := exists_line (Nat.lt_of_le_of_lt hle hlast)
  obtain ⟨old, hold, -, -⟩ := mapM_some (f := fun k => b.lines[first + k]?) (P := fun _ => True)
    (l := List.range newLines.length) fun k hk => by
      have hk' := List.mem_range.mp hk
      obtain ⟨m, hm⟩ := exists_line (b := b) (i := first + k) (by omega)
      exact ⟨m, hm, trivial⟩
  unfold rewriteLines
  simp only [hold, hl, Option.bind_eq_bind, Option.bind_some]
  by_cases hsame : newLines = old
  · rw [if_pos hsame]
    exact .inl ⟨congrArg some hsame.symm, rfl⟩
  rw [if_neg hsame]
  have hbefore : Position.before ⟨last, len l⟩ ⟨first, 0⟩ = false := by
    simp only [Position.before, Bool.or_eq_false_iff, decide_eq_false_iff_not, Bool.and_eq_false_iff]
    omega
  obtain ⟨x, o, z, ht, hlines, hx, hxo⟩ :=
    hb.between (hb.valid hl₀ (boundary_zero l₀)) (hb.valid hl (boundary_len l)) hbefore
  obtain ⟨d, hd⟩ := recordReplace_eq (t := ['\n'].intercalate newLines) hlines .other
  have hne : ¬(o = [] ∧ ['\n'].intercalate newLines = []) := by
    rintro ⟨ho, hn⟩
    have h := Placed.rewritten_empty hx hxo hl ho hn hlen
    exact hsame (Option.some.inj (h.symm.trans hold))
  rw [if_neg hne, pushRecord_other, hx, hxo] at hd
  simp only [hd, Option.bind_some]
  have hmore := length_le_rewritten (z := z) hx (congrArg Position.line hxo) hlen
  rw [← hlines] at hmore
  obtain ⟨c, hcur, -, -⟩ := hb.rewrittenCursor
    (c := { b with lines := (x ++ ['\n'].intercalate newLines ++ z).splitOn '\n' }) rfl hmore hle hlast cursorDelta
  -- the cursor depends on the new lines only
  have hcur' := hcur
  unfold rewrittenCursor floorBoundary at hcur' ⊢
  simp only [spliced]
  simp only [hcur', Option.bind_some]
  exact .inr ⟨x, o, z, l, d, c, ht, rfl, hx, hxo, hcur, rfl⟩

/-- **`rewrite_lines` is an edit**, or it does nothing. -/
theorem rewriteLines_stepped (hb : b.Placed) (hle : first ≤ last) (hlast : last < b.lines.length)
    (hlen : newLines.length = last + 1 - first) (hS : ∀ m ∈ newLines, ∀ c ∈ m, c ∈ b.toText ∨ c ∈ S)
    (cursorDelta : Int) :
    ∃ x, b.rewriteLines first last newLines cursorDelta = some x ∧ Stepped S b x.2 := by
  rcases rewriteLines_cases hb hle hlast hlen cursorDelta with ⟨-, h⟩ | ⟨x, o, z, l, d, c, ht, hl, hx, hxo, hcur, h⟩
  · exact ⟨_, h, hb.refl_stepped _⟩
  have hmore := length_le_rewritten (z := z) hx (congrArg Position.line hxo) hlen
  rw [← ht, ← hb.lines] at hmore
  obtain ⟨c', hcur', hcursor, hanchor⟩ := hb.rewrittenCursor
    (c := { b with lines := (x ++ ['\n'].intercalate newLines ++ z).splitOn '\n' }) rfl hmore hle hlast cursorDelta
  obtain rfl : c = c' := Option.some.inj (hcur.symm.trans hcur')
  refine ⟨_, h, .inr ⟨.other, { b.spliceRecord x o (['\n'].intercalate newLines) with cursorAfter := c.1 },
    x, z, ht, rfl, rfl, rfl, fun h => (by cases h), ?_, rfl, hcursor, hcursor, hanchor, rfl, .pushed rfl rfl⟩⟩
  intro a ha
  rcases mem_join ha with h | ⟨m, hm, ham⟩
  · exact .inl h
  · exact .inr (hS m hm a ham)

/-- the numbers of the lines of the span -/
abbrev spanRange (b : EditorBuffer) : List Nat :=
  List.range' b.lineSpan.1 (b.lineSpan.2 + 1 - b.lineSpan.1)

lemma Placed.span_line (hb : b.Placed) {i : Nat} (hi : i ∈ b.spanRange) : ∃ l, b.lines[i]? = some l := by
  obtain ⟨hle, hlast⟩ := hb.lineSpan
  have hi' := List.mem_range'_1.mp hi
  exact exists_line (by omega)

theorem rewriteSpan_stepped (hb : b.Placed) {f : Nat → Line → Option (Line × Int)}
    (hf : ∀ i ∈ b.spanRange, ∀ l, b.lines[i]? = some l →
      ∃ x, f i l = some x ∧ ∀ c ∈ x.1, c ∈ l ∨ c ∈ S) :
    ∃ x, b.rewriteSpan f = some x ∧ Stepped S b x.2 := by
  obtain ⟨hle, hlast⟩ := hb.lineSpan
  obtain ⟨m, hm, hlen, hall⟩ := mapM_some
    (f := fun i => (b.lines[i]?).bind fun l => (f i l).bind fun x => some (i, x))
    (P := fun x : Nat × Line × Int => ∀ c ∈ x.2.1, c ∈ b.toText ∨ c ∈ S) (l := b.spanRange) fun i hi => by
      obtain ⟨l, hl⟩ := hb.span_line hi
      obtain ⟨x, hx, hchars⟩ := hf i hi l hl
      rw [hl, Option.bind_some, hx]
      exact ⟨_, rfl, fun c hc => (hchars c hc).imp (mem_toText hl) id⟩
  rw [List.length_range'] at hlen
  unfold rewriteSpan
  simp only [Option.bind_eq_bind, hm, Option.bind_some]
  refine rewriteLines_stepped hb hle hlast ?_ ?_ _
  · rw [List.length_map, hlen]
  · intro k hk
    obtain ⟨x, hx, rfl⟩ := List.mem_map.mp hk
    exact hall x hx

theorem indent_stepped (hb : b.Placed) : ∃ x, b.indent = some x ∧ Stepped [' '] b x.2 := by
  unfold indent
  by_cases hsel : b.selection.isNone = true
  · rw [if_pos hsel]
    obtain ⟨x, y, hl, -⟩ := hb.line hb.cursor
    simp only [visualCol, hl, Option.map_some, Option.bind_eq_bind, Option.bind_some]
    refine insertWithKind_stepped hb (by decide) fun c hc => ?_
    rcases (mem_normalize hc).2 with h | h
    · exact .inl h
    · exact .inr (.inr (List.mem_singleton.mpr (List.eq_of_mem_replicate h)))
  · rw [if_neg hsel]
    refine rewriteSpan_stepped hb fun _ _ l _ => ⟨_, rfl, fun c hc => ?_⟩
    by_cases hl : l = []
    · rw [if_pos hl] at hc
      cases hc
    · rw [if_neg hl] at hc
      rcases List.mem_append.mp hc with h | h
      · exact .inr (List.mem_singleton.mpr (List.eq_of_mem_replicate h))
      · exact .inl h

lemma len_spaces {l : Line} (h : ∀ c ∈ l, c = ' ') : len l = l.length := by
  induction l with
  | nil => rfl
  | cons c l ih =>
    have hc : c.utf8Size = 1 := by
      rw [h c List.mem_cons_self]
      rfl
    rw [len_cons, ih fun d hd => h d (List.mem_cons_of_mem _ hd), hc, List.length_cons]
    omega

lemma boundary_outdentWidth (l : Line) : Boundary l (outdentWidth l) := by
  unfold outdentWidth
  by_cases htab : l.head? = some '\t'
  · rw [if_pos htab]
    obtain ⟨m, rfl⟩ := List.head?_eq_some_iff.mp htab
    exact ⟨['\t'], m, rfl, rfl⟩
  · rw [if_neg htab]
    obtain ⟨m, hm⟩ := (List.takeWhile_prefix (p := fun c => decide (c = ' ')) (l := l.take tabSpaces)).trans
      (List.take_prefix tabSpaces l)
    refine ⟨_, m, hm.symm, len_spaces fun c hc => ?_⟩
    exact of_decide_eq_true (List.mem_takeWhile_imp (p := fun c => decide (c = ' ')) hc)

theorem outdent_stepped (hb : b.Placed) : ∃ x, b.outdent = some x ∧ Stepped S b x.2 := by
  unfold outdent
  refine rewriteSpan_stepped hb fun _ _ l _ => ?_
  obtain ⟨x, y, rfl, hw⟩ := boundary_outdentWidth l
  simp only [← hw, sliceFrom_len, Option.bind_eq_bind, Option.bind_some]
  exact ⟨_, rfl, fun c hc => .inl (List.mem_append_right x hc)⟩

/-- a commented line without its marker: the indent stays, and one space after the marker goes too -/
lemma uncommented_eq {marker rest : List Char} {l : Line} (h : trimStart l = marker ++ rest) :
    ∃ delta, uncommented marker l = some
      (l.takeWhile isWhitespace ++ (if rest.head? = some ' ' then rest.tail else rest), delta) := by
  have hl : l = l.takeWhile isWhitespace ++ (marker ++ rest) := by
    rw [← h]
    exact List.takeWhile_append_dropWhile.symm
  have hfrom : sliceFrom l (indentEnd l + len marker) = some rest := by
    have hcut := sliceFrom_len (l.takeWhile isWhitespace ++ marker) rest
    rw [List.append_assoc, ← hl, len_append] at hcut
    exact hcut
  have hto : sliceTo l (indentEnd l) = some (l.takeWhile isWhitespace) := by
    have hcut := sliceTo_len (l.takeWhile isWhitespace) (marker ++ rest)
    rw [← hl] at hcut
    exact hcut
  unfold uncommented
  simp only [hto, hfrom, Option.bind_eq_bind, Option.bind_some]
  exact ⟨_, rfl⟩

lemma uncommented_some {marker : List Char} {l : Line} (h : marker.isPrefixOf (trimStart l) = true) :
    ∃ x, uncommented marker l = some x ∧ ∀ c ∈ x.1, c ∈ l := by
  obtain ⟨rest, hrest⟩ := List.isPrefixOf_iff_prefix.mp h
  obtain ⟨delta, hu⟩ := uncommented_eq hrest.symm
  have hl : l = l.takeWhile isWhitespace ++ (marker ++ rest) := by
    rw [hrest]
    exact List.takeWhile_append_dropWhile.symm
  refine ⟨_, hu, fun c hc => ?_⟩
  rw [hl]
  rcases List.mem_append.mp hc with h | h
  · exact List.mem_append_left _ h
  · refine List.mem_append_right _ (List.mem_append_right _ ?_)
    split at h
    · exact List.mem_of_mem_tail h
    · exact h

theorem toggleLineComment_stepped (hb : b.Placed) (marker : List Char) :
    ∃ x, b.toggleLineComment marker = some x ∧ Stepped (' ' :: marker) b x.2 := by
  obtain ⟨span, hspan, -, -⟩ := mapM_some (f := fun i => b.lines[i]?) (P := fun _ => True)
    (l := b.spanRange) fun i hi => by
      obtain ⟨l, hl⟩ := hb.span_line hi
      exact ⟨l, hl, trivial⟩
  unfold toggleLineComment
  simp only [hspan, Option.bind_eq_bind, Option.bind_some]
  split
  · exact ⟨_, rfl, hb.refl_stepped _⟩
  · rename_i column hcolumn
    refine rewriteSpan_stepped hb fun i hi l hl => ?_
    by_cases hblank : isBlank l = true
    · rw [if_pos hblank]
      exact ⟨_, rfl, fun c hc => .inl hc⟩
    rw [if_neg hblank]
    split
    · rename_i hun
      have hmem : l ∈ span.filter fun l => !isBlank l := by
        refine List.mem_filter.mpr ⟨mem_mapM hspan hi hl, ?_⟩
        rw [Bool.not_eq_true', Bool.not_eq_true _ |>.mp hblank]
      obtain ⟨x, hx, hchars⟩ := uncommented_some (List.all_eq_true.mp hun l hmem)
      exact ⟨x, hx, fun c hc => .inl (hchars c hc)⟩
    · obtain ⟨x, y, hxy, hw⟩ := boundary_snapDown l (min column (len l))
      simp only [floorBoundary, hl, Option.map_some, Option.bind_some, ← hw]
      rw [hxy, sliceTo_len, sliceFrom_len]
      refine ⟨_, rfl, fun c hc => ?_⟩
      simp only [List.mem_append, List.mem_cons] at hc ⊢
      rcases hc with (h | h) | h | h
      · exact .inl (.inl h)
      · exact .inr (.inr h)
      · exact .inr (.inl h)
      · exact .inl (.inr h)

end EditorBuffer

/-! ## all operations -/

/-- the characters an operation brings in, besides line breaks -/
def Op.inserted : Op → List Char
  | .insertStr text => EditorBuffer.normalize text
  | .insertTyped text => EditorBuffer.normalize text
  | .insertChar c => EditorBuffer.normalize [c]
  | .indent => [' ']
  | .toggleLineComment marker => ' ' :: marker
  | _ => []

namespace EditorBuffer
variable {S : List Char} {b b' : EditorBuffer}

lemma map_snd {o : Option (Damage × EditorBuffer)} (h : ∃ x, o = some x ∧ Stepped S b x.2) :
    ∃ b', o.map Prod.snd = some b' ∧ Stepped S b b' := by
  obtain ⟨x, rfl, hx⟩ := h
  exact ⟨x.2, rfl, hx⟩

lemma moved_stepped {o : Option EditorBuffer} (h : ∃ b', o = some b' ∧ Moved b b') :
    ∃ b', o = some b' ∧ Stepped S b b' := by
  obtain ⟨b', hb', hm⟩ := h
  exact ⟨b', hb', .inl hm⟩

/-- text at the cursor -/
lemma insert_stepped (hb : b.Placed) {kind : GroupKind} (text : List Char) (hk : kind ≠ .deleting) :
    ∃ x, b.insertWithKind text kind = some x ∧ Stepped (normalize text) b x.2 :=
  insertWithKind_stepped hb hk fun _ hc => .inr (.inr hc)

lemma insertNewline_stepped (hb : b.Placed) : ∃ x, b.insertNewline = some x ∧ Stepped [] b x.2 :=
  insertWithKind_stepped hb (by decide) fun _ hc => .inl (List.mem_singleton.mp hc)

/-- **What an operation can do.** -/
theorem run_cases (t : CharTable) (hb : b.Placed) {op : Op} (hu : op ≠ .undo) (hr : op ≠ .redo) :
    ∃ b', op.run t b = some b' ∧ Stepped op.inserted b b' := by
  cases op with
  | insertStr text => exact map_snd (insert_stepped hb text (by decide))
  | insertTyped text => exact map_snd (insert_stepped hb text (by decide))
  | insertChar c => exact map_snd (insert_stepped hb [c] (by decide))
  | insertNewline => exact map_snd (insertNewline_stepped hb)
  | insertNewlineAutoIndent => exact map_snd (insertNewlineAutoIndent_stepped hb)
  | backspace word => exact map_snd (backspace_stepped t hb word)
  | deleteForward word => exact map_snd (deleteForward_stepped t hb word)
  | deleteSelection => exact map_snd (deleteSelection_stepped hb)
  | indent => exact map_snd (indent_stepped hb)
  | outdent => exact map_snd (outdent_stepped hb)
  | toggleLineComment marker => exact map_snd (toggleLineComment_stepped hb marker)
  | moveLeft extend => exact moved_stepped (moveLeft_moved hb extend)
  | moveRight extend => exact moved_stepped (moveRight_moved hb extend)
  | moveUp extend => exact moved_stepped (moveVertical_moved hb (-1) extend)
  | moveDown extend => exact moved_stepped (moveVertical_moved hb 1 extend)
  | movePage deltaLines extend => exact moved_stepped (moveVertical_moved hb deltaLines extend)
  | moveHome extend => exact moved_stepped (moveHome_moved hb extend)
  | moveEnd extend => exact moved_stepped (moveEnd_moved hb extend)
  | moveDocStart extend => exact moved_stepped (moveDocStart_moved hb extend)
  | moveDocEnd extend => exact moved_stepped (moveDocEnd_moved hb extend)
  | moveWordLeft extend => exact moved_stepped (moveWordLeft_moved t hb extend)
  | moveWordRight extend => exact moved_stepped (moveWordRight_moved t hb extend)
  | setCursor p extend => exact moved_stepped (setCursor_moved hb p extend)
  | selectAll => exact moved_stepped (selectAll_moved hb)
  | selectWordAt p => exact moved_stepped (selectWordAt_moved t hb p)
  | breakUndoGroup => exact ⟨_, rfl, .inl (breakUndoGroup_moved hb)⟩
  | undo => exact absurd rfl hu
  | redo => exact absurd rfl hr

end EditorBuffer
end TerminalManager.Editor
