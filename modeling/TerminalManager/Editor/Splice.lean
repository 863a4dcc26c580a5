import TerminalManager.Editor.Buffer

/-!
# The splice, on the text

The edits work on a vector of lines and on columns.  On a text `x ++ o ++ z`, with the positions
after `x` and after `x ++ o`, they do what they should:

* `endOfText_eq`      `end_of_text` advances over the text;
* `removeRange_eq`, `insertText_eq`   the two halves of `raw_replace`;
* `rawReplace_eq`     **main result**: `raw_replace` makes `x ++ t ++ z` of `x ++ o ++ z`;
* `textRange_eq`      `text_range` gives `o`.
-/

namespace TerminalManager.Editor
open Lines

abbrev step : Position → Char → Position := advance '\n' Char.utf8Size

/-- the position after a text -/
abbrev pos (x : List Char) : Position := posOf '\n' Char.utf8Size x

lemma utf8Size_pos (c : Char) : 0 < c.utf8Size := Char.utf8Size_pos c

lemma len_nil : len [] = 0 := rfl
lemma len_cons (c : Char) (l : Line) : len (c :: l) = c.utf8Size + len l := rfl
lemma len_append (l m : Line) : len (l ++ m) = len l + len m := width_append _ l m

lemma len_pos {l : Line} (h : l ≠ []) : 0 < len l := by
  obtain ⟨c, m, rfl⟩ := List.exists_cons_of_ne_nil h
  rw [len_cons]
  have hc := utf8Size_pos c
  omega

lemma cut_len (x y : Line) : cut Char.utf8Size (x ++ y) (len x) = some (x, y) :=
  cut_append utf8Size_pos x y

lemma sliceTo_len (x y : Line) : sliceTo (x ++ y) (len x) = some x := by
  unfold sliceTo
  rw [cut_len]
  rfl

lemma sliceFrom_len (x y : Line) : sliceFrom (x ++ y) (len x) = some y := by
  unfold sliceFrom
  rw [cut_len]
  rfl

lemma slice_len (x o y : Line) : slice (x ++ o ++ y) (len x) (len (x ++ o)) = some o := by
  unfold slice
  rw [sliceTo_len]
  exact sliceFrom_len x o

lemma truncate_len (x y : Line) : truncate (x ++ y) (len x) = some x := by
  have hle : len x ≤ len (x ++ y) := by
    rw [len_append]
    omega
  rw [truncate, if_pos hle, sliceTo_len]

/-- **`end_of_text` advances over the text.** -/
theorem endOfText_eq (p : Position) (t : List Char) : endOfText p t = t.foldl step p := by
  induction t generalizing p with
  | nil => rfl
  | cons c t ih =>
    have hstep := ih (step p c)
    rw [List.foldl_cons, ← hstep]
    unfold endOfText
    rw [rsplitOnce]
    by_cases hc : c = '\n'
    · have hadv : step p c = ⟨p.line + 1, 0⟩ := if_pos hc
      rw [hadv]
      cases h : rsplitOnce '\n' t with
      | none =>
        simp only [if_pos hc]
        rw [List.count_nil, Nat.zero_add]
      | some x =>
        simp only [hc, List.count_cons_self]
        congr 1
        omega
    · have hadv : step p c = ⟨p.line, p.col + c.utf8Size⟩ := if_neg hc
      rw [hadv]
      cases h : rsplitOnce '\n' t with
      | none =>
        simp only [if_neg hc]
        rw [len_cons, Nat.add_assoc]
      | some x =>
        simp only [List.count_cons_of_ne (fun e => hc e)]

lemma endOfText_pos (x t : List Char) : endOfText (pos x) t = pos (x ++ t) := by
  rw [endOfText_eq]
  exact (posOf_append _ _ x t).symm

/-! ## changing lines -/

lemma modifyLine_eq {A B : List Line} {l : Line} {i : Nat} (hi : i = A.length)
    (f : Line → Option Line) :
    EditorBuffer.modifyLine (A ++ l :: B) i f = (f l).map fun m => A ++ m :: B := by
  unfold EditorBuffer.modifyLine
  rw [hi, List.getElem?_append_right (Nat.le_refl _), Nat.sub_self]
  show ((f l).bind fun m => some ((A ++ l :: B).set A.length m)) = _
  cases f l with
  | none => rfl
  | some m =>
    show some _ = some _
    rw [List.set_append_right _ _ (Nat.le_refl _), Nat.sub_self]
    rfl

lemma insertIdx_length (A B : List Line) (p : Line) :
    (A ++ B).insertIdx A.length p = A ++ p :: B := by
  induction A with
  | nil => rfl
  | cons l A ih =>
    rw [List.cons_append, List.length_cons, List.insertIdx_succ_cons, ih]
    rfl

lemma insertLines_eq (A B ps : List Line) :
    EditorBuffer.insertLines (A ++ B) A.length ps = some (A ++ ps ++ B) := by
  induction ps generalizing A with
  | nil => rw [EditorBuffer.insertLines, List.append_nil]
  | cons p ps ih =>
    have hle : A.length ≤ (A ++ B).length := by
      rw [List.length_append]
      omega
    have hins : (A ++ B).insertIdx A.length p = (A ++ [p]) ++ B := by
      rw [insertIdx_length, List.append_assoc]
      rfl
    have hlen : A.length + 1 = (A ++ [p]).length := by
      rw [List.length_append]
      rfl
    rw [EditorBuffer.insertLines, if_pos hle, hins, hlen, ih, List.append_assoc A]
    rfl

/-! ## texts of one line and of several -/

/-- the lines of a text without a line break, and of one with -/
lemma lines_cases (o : List Char) : ('\n' ∉ o ∧ o.splitOn '\n' = [o]) ∨
    ('\n' ∈ o ∧ ∃ first middle last, o.splitOn '\n' = first :: (middle ++ [last])) := by
  by_cases h : '\n' ∈ o
  · right
    refine ⟨h, ?_⟩
    obtain ⟨a, M, hM⟩ := exists_cons '\n' o
    rcases List.eq_nil_or_concat M with rfl | ⟨K, b, rfl⟩
    · -- a single line is the text itself
      have hj := join_splitOn '\n' o
      rw [hM, List.intercalate_singleton] at hj
      exact absurd (hj ▸ h) (not_mem_line (by rw [hM]; exact List.mem_cons_self))
    · exact ⟨a, K, b, by rw [hM, List.concat_eq_append]⟩
  · exact .inl ⟨h, List.splitOn_eq_singleton h⟩

variable {x o z t : List Char} {L M : List Line} {a c : Line}

lemma splitOn_three (hx : x.splitOn '\n' = L ++ [a]) (hz : z.splitOn '\n' = c :: M)
    (ho : o.splitOn '\n' = [o]) : (x ++ o ++ z).splitOn '\n' = L ++ (a ++ o ++ c) :: M ∧
      (x ++ o).splitOn '\n' = L ++ [a ++ o] := by
  have hxo : (x ++ o).splitOn '\n' = L ++ [a ++ o] := splitOn_append hx ho
  exact ⟨splitOn_append hxo hz, hxo⟩

lemma splitOn_three_lines {first last : Line} {middle : List Line}
    (hx : x.splitOn '\n' = L ++ [a]) (hz : z.splitOn '\n' = c :: M)
    (ho : o.splitOn '\n' = first :: (middle ++ [last])) :
    (x ++ o ++ z).splitOn '\n' = (L ++ (a ++ first) :: middle) ++ (last ++ c) :: M ∧
      (x ++ o).splitOn '\n' = (L ++ (a ++ first) :: middle) ++ [last] := by
  have hxo : (x ++ o).splitOn '\n' = (L ++ (a ++ first) :: middle) ++ [last] := by
    rw [splitOn_append hx ho, List.append_assoc]
    rfl
  exact ⟨splitOn_append hxo hz, hxo⟩

/-- the repaint hint of a text that goes in or out at a line -/
def damageOf (line : Nat) (o : List Char) : Damage :=
  if o = [] then .none else if '\n' ∈ o then .fromLine line else .line line

/-- **The text between two positions goes out.** -/
theorem removeRange_eq (x o z : List Char) :
    EditorBuffer.removeRange ((x ++ o ++ z).splitOn '\n') (pos x) (pos (x ++ o)) =
      some (damageOf (pos x).line o, (x ++ z).splitOn '\n') := by
  obtain ⟨L, a, hx⟩ := exists_snoc '\n' x
  obtain ⟨c, M, hz⟩ := exists_cons '\n' z
  have hxz := splitOn_append hx hz
  have hpos : pos x = ⟨L.length, len a⟩ := posOf_eq hx
  by_cases he : o = []
  · rw [he, List.append_nil, EditorBuffer.removeRange, if_pos rfl, damageOf, if_pos rfl]
  rcases lines_cases o with ⟨hno, ho⟩ | ⟨hyes, first, middle, last, ho⟩
  · obtain ⟨hl, hxo⟩ := splitOn_three hx hz ho
    have hpos' : pos (x ++ o) = ⟨L.length, len (a ++ o)⟩ := posOf_eq hxo
    have hne : pos x ≠ pos (x ++ o) := by
      intro e
      rw [hpos, hpos'] at e
      have hcol := congrArg Position.col e
      have ho := len_pos he
      simp only [len_append] at hcol
      omega
    have hle : len a ≤ len (a ++ o) := by
      rw [len_append]
      omega
    rw [EditorBuffer.removeRange, if_neg hne, hpos, hpos', if_pos rfl, hl, hxz, modifyLine_eq rfl,
      damageOf, if_neg he, if_neg hno]
    have hto : sliceTo (a ++ o ++ c) (len a) = some a := by
      rw [List.append_assoc]
      exact sliceTo_len a (o ++ c)
    simp only [hto, sliceFrom_len, if_pos hle]
    rfl
  · obtain ⟨hl, hxo⟩ := splitOn_three_lines hx hz ho
    have hpos' : pos (x ++ o) = ⟨(L ++ (a ++ first) :: middle).length, len last⟩ := posOf_eq hxo
    have hlen : (L ++ (a ++ first) :: middle).length = L.length + 1 + middle.length := by
      rw [List.length_append, List.length_cons]
      omega
    have hline : L.length ≠ (L ++ (a ++ first) :: middle).length := by omega
    have hne : pos x ≠ pos (x ++ o) := by
      intro e
      rw [hpos, hpos'] at e
      exact hline (congrArg Position.line e)
    have hget : ((L ++ (a ++ first) :: middle) ++ (last ++ c) :: M)[(L ++ (a ++ first) :: middle).length]?
        = some (last ++ c) := by
      rw [List.getElem?_append_right (Nat.le_refl _), Nat.sub_self]
      rfl
    have hassoc : (L ++ (a ++ first) :: middle) ++ (last ++ c) :: M
        = L ++ (a ++ first) :: (middle ++ (last ++ c) :: M) := by
      rw [List.append_assoc]
      rfl
    have hmod : EditorBuffer.modifyLine (L ++ (a ++ first) :: (middle ++ (last ++ c) :: M)) L.length
        (fun l => (truncate l (len a)).map (· ++ c)) = some (L ++ (a ++ c) :: (middle ++ (last ++ c) :: M)) := by
      rw [modifyLine_eq rfl, truncate_len]
      rfl
    have hbounds : L.length ≤ (L ++ (a ++ first) :: middle).length ∧
        (L ++ (a ++ first) :: middle).length <
          (L ++ (a ++ c) :: (middle ++ (last ++ c) :: M)).length := by
      simp only [List.length_append, List.length_cons]
      omega
    have htake : (L ++ (a ++ c) :: (middle ++ (last ++ c) :: M)).take (L.length + 1) = L ++ [a ++ c] := by
      rw [List.take_append, List.take_of_length_le (by omega)]
      simp
    have hdrop : (L ++ (a ++ c) :: (middle ++ (last ++ c) :: M)).drop
        ((L ++ (a ++ first) :: middle).length + 1) = M := by
      have h : L ++ (a ++ c) :: (middle ++ (last ++ c) :: M) =
          (L ++ (a ++ c) :: (middle ++ [last ++ c])) ++ M := by simp
      rw [h, List.drop_left']
      simp only [List.length_append, List.length_cons, List.length_nil]
      omega
    rw [EditorBuffer.removeRange, if_neg hne, hpos, hpos', if_neg hline, hl, hxz, hget,
      damageOf, if_neg he, if_pos hyes]
    simp only [Option.bind_eq_bind, Option.bind_some, sliceFrom_len, hassoc, hmod, if_pos hbounds,
      htake, hdrop]
    simp

/-- **A text goes in at a position.** -/
theorem insertText_eq (x t z : List Char) :
    EditorBuffer.insertText ((x ++ z).splitOn '\n') (pos x) t =
      some (damageOf (pos x).line t, (x ++ t ++ z).splitOn '\n') := by
  obtain ⟨L, a, hx⟩ := exists_snoc '\n' x
  obtain ⟨c, M, hz⟩ := exists_cons '\n' z
  have hxz := splitOn_append hx hz
  have hpos : pos x = ⟨L.length, len a⟩ := posOf_eq hx
  by_cases he : t = []
  · rw [he, List.append_nil, EditorBuffer.insertText, if_pos rfl, damageOf, if_pos rfl]
  rcases lines_cases t with ⟨hno, ht⟩ | ⟨hyes, first, middle, last, ht⟩
  · obtain ⟨hl, -⟩ := splitOn_three hx hz ht
    rw [EditorBuffer.insertText, if_neg he, if_pos hno, hpos, hxz, hl, modifyLine_eq rfl, damageOf,
      if_neg he, if_neg hno]
    simp only [sliceTo_len, sliceFrom_len]
    rfl
  · obtain ⟨hl, -⟩ := splitOn_three_lines hx hz ht
    have hget : (L ++ (a ++ c) :: M)[L.length]? = some (a ++ c) := by
      rw [List.getElem?_append_right (Nat.le_refl _), Nat.sub_self]
      rfl
    have hins : EditorBuffer.insertLines (L ++ (a ++ first) :: M) (L.length + 1) (middle ++ [last]) =
        some (L ++ (a ++ first) :: (middle ++ last :: M)) := by
      have h := insertLines_eq (L ++ [a ++ first]) M (middle ++ [last])
      have hlen : (L ++ [a ++ first]).length = L.length + 1 := by
        rw [List.length_append]
        rfl
      rw [hlen] at h
      simpa using h
    have hlast : EditorBuffer.modifyLine (L ++ (a ++ first) :: (middle ++ last :: M))
        (L.length + (middle ++ [last]).length) (fun l => some (l ++ c)) =
        some ((L ++ (a ++ first) :: middle) ++ (last ++ c) :: M) := by
      have h : L ++ (a ++ first) :: (middle ++ last :: M) = (L ++ (a ++ first) :: middle) ++ last :: M := by
        rw [List.append_assoc]
        rfl
      have hidx : L.length + (middle ++ [last]).length = (L ++ (a ++ first) :: middle).length := by
        simp only [List.length_append, List.length_cons, List.length_nil]
      rw [h, modifyLine_eq hidx]
      rfl
    rw [EditorBuffer.insertText, if_neg he, if_neg (not_not.mpr hyes), hpos, hxz, hl, hget, ht, damageOf,
      if_neg he, if_pos hyes]
    simp only [Option.bind_eq_bind, Option.bind_some, sliceFrom_len, modifyLine_eq, truncate_len,
      Option.map_some, List.headD_cons, List.tail_cons, hins, hlast]

/-- **`raw_replace` is splicing.** -/
theorem rawReplace_eq {b : EditorBuffer} (x o z t : List Char)
    (hb : b.lines = (x ++ o ++ z).splitOn '\n') :
    b.rawReplace (pos x) (pos (x ++ o)) t =
      some ((damageOf (pos x).line o).merge (damageOf (pos x).line t),
        { b with
          lines := (x ++ t ++ z).splitOn '\n'
          cursor := pos (x ++ t)
          anchor := none }) := by
  rw [EditorBuffer.rawReplace, hb, removeRange_eq]
  simp only [Option.bind_eq_bind, Option.bind_some, insertText_eq, endOfText_pos]

lemma intercalate_cons (l : Line) (M : List Line) :
    ['\n'].intercalate (l :: M) = l ++ M.flatMap fun m => '\n' :: m := by
  induction M generalizing l with
  | nil =>
    rw [List.intercalate_singleton, List.flatMap_nil, List.append_nil]
  | cons m M ih =>
    rw [List.intercalate_cons_cons, ih m, List.flatMap_cons, List.append_assoc]
    rfl

/-- **`text_range` is the text between two positions.** -/
theorem textRange_eq {b : EditorBuffer} (x o z : List Char)
    (hb : b.lines = (x ++ o ++ z).splitOn '\n') : b.textRange (pos x) (pos (x ++ o)) = some o := by
  obtain ⟨L, a, hx⟩ := exists_snoc '\n' x
  obtain ⟨c, M, hz⟩ := exists_cons '\n' z
  have hpos : pos x = ⟨L.length, len a⟩ := posOf_eq hx
  rcases lines_cases o with ⟨hno, ho⟩ | ⟨hyes, first, middle, last, ho⟩
  · obtain ⟨hl, hxo⟩ := splitOn_three hx hz ho
    have hpos' : pos (x ++ o) = ⟨L.length, len (a ++ o)⟩ := posOf_eq hxo
    have hget : (L ++ (a ++ o ++ c) :: M)[L.length]? = some (a ++ o ++ c) := by
      rw [List.getElem?_append_right (Nat.le_refl _), Nat.sub_self]
      rfl
    rw [EditorBuffer.textRange, hpos, hpos', if_pos rfl, hb, hl, hget]
    exact slice_len a o c
  · obtain ⟨hl, hxo⟩ := splitOn_three_lines hx hz ho
    have hpos' : pos (x ++ o) = ⟨(L ++ (a ++ first) :: middle).length, len last⟩ := posOf_eq hxo
    have hlen : (L ++ (a ++ first) :: middle).length = L.length + 1 + middle.length := by
      rw [List.length_append, List.length_cons]
      omega
    have hline : L.length ≠ (L ++ (a ++ first) :: middle).length := by omega
    have hfirst : ((L ++ (a ++ first) :: middle) ++ (last ++ c) :: M)[L.length]? = some (a ++ first) := by
      rw [List.append_assoc, List.getElem?_append_right (Nat.le_refl _), Nat.sub_self]
      rfl
    have hlast : ((L ++ (a ++ first) :: middle) ++ (last ++ c) :: M)[(L ++ (a ++ first) :: middle).length]?
        = some (last ++ c) := by
      rw [List.getElem?_append_right (Nat.le_refl _), Nat.sub_self]
      rfl
    have hmiddle : (((L ++ (a ++ first) :: middle) ++ (last ++ c) :: M).take
        (L ++ (a ++ first) :: middle).length).drop (L.length + 1) = middle := by
      rw [List.take_left']
      · have h : L ++ (a ++ first) :: middle = (L ++ [a ++ first]) ++ middle := by simp
        rw [h, List.drop_left']
        rw [List.length_append]
        rfl
      · rfl
    have hbounds : L.length + 1 ≤ (L ++ (a ++ first) :: middle).length ∧
        (L ++ (a ++ first) :: middle).length ≤
          ((L ++ (a ++ first) :: middle) ++ (last ++ c) :: M).length := by
      refine ⟨by omega, ?_⟩
      simp only [List.length_append]
      omega
    rw [EditorBuffer.textRange, hpos, hpos', if_neg hline, hb, hl]
    simp only [Option.bind_eq_bind, Option.bind_some, hfirst, hlast, sliceFrom_len, sliceTo_len,
      if_pos hbounds, hmiddle]
    -- the pieces are the lines of the text, joined
    have hj := join_splitOn '\n' o
    rw [ho, intercalate_cons, List.flatMap_append] at hj
    rw [← hj]
    simp

end TerminalManager.Editor
