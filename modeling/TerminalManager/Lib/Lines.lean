import Mathlib.Tactic.Common
import Mathlib.Data.List.Induction

/-!
# Texts, lines and positions

A text is a list of characters; its lines are what `List.splitOn` makes of it.  A character has a
size, a column is the sum of the sizes to its left, and a position is a line and a column in it.

* `posOf sep size x`     the position after the text `x`;
* `cut size l n`         a line cut at a column, when the column is between two characters;
* `At sep size t p`      `p` is a position of the text `t`: some prefix of `t` ends there;
* `splitOn_append`       the lines of `x ++ y`, from those of `x` and of `y`;
* `posOf_eq`, `at_iff`   positions, read off the lines;
* `posOf_inj`            a position is the end of one prefix of a text only;
* `At.between`           two ordered positions of a text cut it in three.
-/

namespace Lines

/-- the characters of a text are tested one by one, not all that there are -/
instance decidableChars {p : Char → Prop} [DecidablePred p] (s : List Char) : Decidable (∀ c ∈ s, p c) :=
  List.decidableBAll p s

/-- whether a text is among others -/
instance decidableMemTexts (s : List Char) (ss : List (List Char)) : Decidable (s ∈ ss) := inferInstance

/-- a line, and a column in it -/
@[ext] structure Position where
  line : Nat
  col : Nat
  deriving DecidableEq, Repr

/-- the order of reading -/
def Position.before (p q : Position) : Bool :=
  p.line < q.line || (p.line = q.line && p.col < q.col)

/-- a list around one of its members -/
lemma exists_split {β : Type*} {l : List β} {i : Nat} {a : β} (h : l[i]? = some a) :
    ∃ A B, l = A ++ a :: B ∧ A.length = i := by
  obtain ⟨hlt, rfl⟩ := List.getElem?_eq_some_iff.mp h
  refine ⟨l.take i, l.drop (i + 1), ?_, ?_⟩
  · rw [← List.drop_eq_getElem_cons hlt, List.take_append_drop]
  · rw [List.length_take]
    omega

lemma getElem?_snoc {β : Type*} {l : List β} {a b : β} {i : Nat} (h : (l ++ [a])[i]? = some b) :
    l[i]? = some b ∨ i = l.length ∧ b = a := by
  rcases Nat.lt_or_ge i l.length with hi | hi
  · rw [List.getElem?_append_left hi] at h
    exact Or.inl h
  · rw [List.getElem?_append_right hi] at h
    obtain ⟨hlt, e⟩ := List.getElem?_eq_some_iff.mp h
    have hz : i - l.length = 0 := Nat.lt_one_iff.mp hlt
    refine Or.inr ⟨by omega, ?_⟩
    rw [← e]
    exact List.getElem_singleton ..

lemma getElem?_snoc_of {β : Type*} {l : List β} {a b : β} {i : Nat} (h : l[i]? = some b) :
    (l ++ [a])[i]? = some b := by
  obtain ⟨hi, -⟩ := List.getElem?_eq_some_iff.mp h
  rw [List.getElem?_append_left hi]
  exact h

lemma snoc_inj {β : Type*} {L K : List β} {a b : β} (h : L ++ [a] = K ++ [b]) : L = K ∧ a = b := by
  obtain ⟨h1, h2⟩ := List.append_inj' h rfl
  exact ⟨h1, List.singleton_inj.mp h2⟩

section
variable {α : Type*} (size : α → Nat)

def width : List α → Nat
  | [] => 0
  | a :: l => size a + width l

lemma width_cons (a : α) (l : List α) : width size (a :: l) = size a + width size l := rfl
lemma width_append (l m : List α) : width size (l ++ m) = width size l + width size m := by
  induction l with
  | nil => exact (Nat.zero_add _).symm
  | cons a l ih => rw [List.cons_append, width_cons, width_cons, ih, Nat.add_assoc]

/-- the line up to the column and from the column; `none` inside of a character or past the end -/
def cut : List α → Nat → Option (List α × List α)
  | l, 0 => some ([], l)
  | [], _ + 1 => none
  | a :: l, n + 1 =>
    if size a ≤ n + 1 then (cut l (n + 1 - size a)).map fun x => (a :: x.1, x.2) else none

variable {size}

lemma cut_zero (l : List α) : cut size l 0 = some ([], l) := by
  cases l <;> rfl

theorem cut_append (hs : ∀ a, 0 < size a) (x y : List α) :
    cut size (x ++ y) (width size x) = some (x, y) := by
  induction x with
  | nil => exact cut_zero y
  | cons a x ih =>
    have ha := hs a
    obtain ⟨n, hn⟩ : ∃ n, width size (a :: x) = n + 1 := ⟨size a + width size x - 1, by
      rw [width_cons]; omega⟩
    have hle : size a ≤ n + 1 := by
      rw [← hn, width_cons]
      exact Nat.le_add_right _ _
    have hrest : n + 1 - size a = width size x := by
      rw [← hn, width_cons]
      omega
    rw [hn, List.cons_append, cut, if_pos hle, hrest, ih]
    rfl

theorem cut_some {l x y : List α} {n : Nat} (h : cut size l n = some (x, y)) :
    l = x ++ y ∧ width size x = n := by
  induction l, n using cut.induct size generalizing x y with
  | case1 l =>
    rw [cut_zero] at h
    cases h
    exact ⟨rfl, rfl⟩
  | case2 n => cases h
  | case3 a l n ha ih =>
    rw [cut, if_pos ha] at h
    obtain ⟨⟨x', y'⟩, hc, e⟩ := Option.map_eq_some_iff.mp h
    cases e
    obtain ⟨hl, hw⟩ := ih hc
    refine ⟨by rw [hl]; rfl, ?_⟩
    rw [width_cons, hw]
    omega
  | case4 a l n ha =>
    rw [cut, if_neg ha] at h
    cases h

end

section
variable {α : Type*} [DecidableEq α] (sep : α) (size : α → Nat)

def advance (p : Position) (a : α) : Position :=
  if a = sep then ⟨p.line + 1, 0⟩ else ⟨p.line, p.col + size a⟩

/-- the position after a text -/
def posOf (x : List α) : Position := x.foldl (advance sep size) ⟨0, 0⟩

lemma posOf_append (x y : List α) :
    posOf sep size (x ++ y) = y.foldl (advance sep size) (posOf sep size x) := by
  unfold posOf
  rw [List.foldl_append]

/-- `p` is a position of the text -/
def At (t : List α) (p : Position) : Prop := ∃ x y, t = x ++ y ∧ posOf sep size x = p

variable {sep size}

/-! ## lines -/

variable (sep) in
lemma exists_snoc (x : List α) : ∃ L a, x.splitOn sep = L ++ [a] := by
  have h := List.splitOn_ne_nil sep x
  exact ⟨_, _, (List.dropLast_concat_getLast h).symm⟩

variable (sep) in
lemma exists_cons (x : List α) : ∃ a M, x.splitOn sep = a :: M :=
  List.exists_cons_of_ne_nil (List.splitOn_ne_nil sep x)

lemma splitOn_cons_sep (x : List α) : (sep :: x).splitOn sep = [] :: x.splitOn sep := by
  rw [List.splitOn_cons_eq_if_modifyHead, if_pos (beq_self_eq_true sep)]

lemma splitOn_cons_ne {c : α} (hc : c ≠ sep) (x : List α) :
    (c :: x).splitOn sep = (x.splitOn sep).modifyHead (c :: ·) := by
  rw [List.splitOn_cons_eq_if_modifyHead, if_neg (by simpa using hc)]

/-- **Lines of a concatenation.**  The last line of the first text runs on into the first line of
the second. -/
theorem splitOn_append {x y a z : List α} {L M : List (List α)} (hx : x.splitOn sep = L ++ [a])
    (hy : y.splitOn sep = z :: M) : (x ++ y).splitOn sep = L ++ (a ++ z) :: M := by
  induction x generalizing L a with
  | nil =>
    rw [List.splitOn_nil] at hx
    obtain ⟨rfl, rfl⟩ := snoc_inj (show [] ++ [[]] = _ from hx)
    exact hy
  | cons c x ih =>
    obtain ⟨K, b, hb⟩ := exists_snoc sep x
    have hih := ih hb
    by_cases hc : c = sep
    · subst hc
      rw [splitOn_cons_sep, hb] at hx
      obtain ⟨hK, rfl⟩ := snoc_inj (show [] :: K ++ [b] = _ from hx)
      rw [List.cons_append, splitOn_cons_sep, hih, ← hK]
      rfl
    · rw [splitOn_cons_ne hc, hb] at hx
      rw [List.cons_append, splitOn_cons_ne hc, hih]
      cases K with
      | nil =>
        obtain ⟨rfl, rfl⟩ := snoc_inj (show [] ++ [c :: b] = _ from hx)
        rfl
      | cons k K =>
        obtain ⟨hK, rfl⟩ := snoc_inj (show (c :: k) :: K ++ [b] = _ from hx)
        rw [← hK]
        rfl

lemma not_mem_line {x l : List α} (h : l ∈ x.splitOn sep) : sep ∉ l := by
  induction x generalizing l with
  | nil =>
    rw [List.splitOn_nil, List.mem_singleton] at h
    rw [h]
    exact List.not_mem_nil
  | cons c x ih =>
    by_cases hc : c = sep
    · subst hc
      rw [splitOn_cons_sep] at h
      rcases List.mem_cons.mp h with rfl | h
      · exact List.not_mem_nil
      · exact ih h
    · obtain ⟨a, M, hx⟩ := exists_cons sep x
      rw [splitOn_cons_ne hc, hx] at h
      rcases List.mem_cons.mp h with rfl | h
      · have ha := ih (l := a) (by rw [hx]; exact List.mem_cons_self)
        simp only [List.mem_cons, not_or]
        exact ⟨Ne.symm hc, ha⟩
      · exact ih (by rw [hx]; exact List.mem_cons_of_mem a h)

/-- lines without separators are the lines of the text they make up -/
lemma splitOn_join {ls : List (List α)} (hne : ls ≠ []) (h : ∀ l ∈ ls, sep ∉ l) :
    ([sep].intercalate ls).splitOn sep = ls := List.splitOn_intercalate sep h hne

variable (sep) in
lemma join_splitOn (t : List α) : [sep].intercalate (t.splitOn sep) = t := List.intercalate_splitOn sep

/-- two texts with the same lines are the same -/
lemma splitOn_inj {x y : List α} (h : x.splitOn sep = y.splitOn sep) : x = y := by
  have hx := join_splitOn sep x
  rw [h, join_splitOn] at hx
  exact hx.symm

variable (sep) in
lemma length_splitOn_append (x y : List α) :
    ((x ++ y).splitOn sep).length + 1 = (x.splitOn sep).length + (y.splitOn sep).length := by
  obtain ⟨L, a, hx⟩ := exists_snoc sep x
  obtain ⟨b, M, hy⟩ := exists_cons sep y
  rw [splitOn_append hx hy, hx, hy]
  simp only [List.length_append, List.length_cons, List.length_nil]
  omega

variable (sep) in
/-- joined texts have at least one line each -/
lemma length_le_splitOn_join (ls : List (List α)) :
    ls.length ≤ (([sep].intercalate ls).splitOn sep).length := by
  induction ls with
  | nil => exact Nat.zero_le _
  | cons l ls ih =>
    cases ls with
    | nil =>
      obtain ⟨a, M, h⟩ := exists_cons sep ([sep].intercalate [l])
      rw [h, List.length_cons, List.length_cons, List.length_nil]
      omega
    | cons m ls =>
      have h1 := length_splitOn_append sep (l ++ [sep]) ([sep].intercalate (m :: ls))
      have h2 := length_splitOn_append sep l [sep]
      obtain ⟨a, M, hl⟩ := exists_cons sep l
      have hsep : ([sep].splitOn sep).length = 2 := by
        rw [splitOn_cons_sep, List.splitOn_nil]
        rfl
      rw [hl, hsep, List.length_cons] at h2
      rw [List.intercalate_cons_cons, List.length_cons]
      omega

/-! ## positions -/

/-- **A position, read off the lines**: the number of the last line and its width. -/
theorem posOf_eq {x a : List α} {L : List (List α)} (h : x.splitOn sep = L ++ [a]) :
    posOf sep size x = ⟨L.length, width size a⟩ := by
  induction x using List.reverseRecOn generalizing L a with
  | nil =>
    rw [List.splitOn_nil] at h
    obtain ⟨rfl, rfl⟩ := snoc_inj (show [] ++ [[]] = _ from h)
    rfl
  | append_singleton x c ih =>
    obtain ⟨K, b, hb⟩ := exists_snoc sep x
    have hpos := ih hb
    rw [posOf_append, hpos]
    show advance sep size ⟨K.length, width size b⟩ c = _
    by_cases hc : c = sep
    · subst hc
      have hsplit : [c].splitOn c = [] :: [[]] := by
        rw [splitOn_cons_sep, List.splitOn_nil]
      rw [splitOn_append hb hsplit] at h
      have h' : (K ++ [b ++ []]) ++ [[]] = L ++ [a] := by
        rw [← h, List.append_assoc]
        rfl
      obtain ⟨rfl, rfl⟩ := snoc_inj h'
      rw [advance, if_pos rfl, List.length_append]
      rfl
    · have hsplit : [c].splitOn sep = [c] :: [] := by
        rw [splitOn_cons_ne hc, List.splitOn_nil]
        rfl
      rw [splitOn_append hb hsplit] at h
      obtain ⟨rfl, rfl⟩ := snoc_inj h
      rw [advance, if_neg hc, width_append]
      rfl

variable (sep size) in
lemma posOf_line (x : List α) : (posOf sep size x).line + 1 = (x.splitOn sep).length := by
  obtain ⟨L, a, h⟩ := exists_snoc sep x
  rw [posOf_eq h, h, List.length_append]
  rfl

/-- the positions of a text, read off its lines -/
theorem at_iff {t : List α} {p : Position} :
    At sep size t p ↔ ∃ l x y, (t.splitOn sep)[p.line]? = some l ∧ l = x ++ y ∧ width size x = p.col := by
  constructor
  · rintro ⟨x, y, rfl, rfl⟩
    obtain ⟨L, a, ha⟩ := exists_snoc sep x
    obtain ⟨z, M, hz⟩ := exists_cons sep y
    rw [splitOn_append ha hz, posOf_eq ha]
    refine ⟨a ++ z, a, z, ?_, rfl, rfl⟩
    rw [List.getElem?_append_right (Nat.le_refl _), Nat.sub_self]
    rfl
  · rintro ⟨l, x, y, hl, rfl, hw⟩
    obtain ⟨A, B, hAB, hlen⟩ := exists_split hl
    have hmem : ∀ m ∈ A ++ (x ++ y) :: B, sep ∉ m := fun m hm => not_mem_line (hAB ▸ hm)
    have hxy : sep ∉ x ++ y := hmem _ (by simp)
    have hx : sep ∉ x := fun h => hxy (List.mem_append_left y h)
    have hy : sep ∉ y := fun h => hxy (List.mem_append_right x h)
    have hpre : ([sep].intercalate (A ++ [x])).splitOn sep = A ++ [x] := by
      refine splitOn_join (by simp) fun m hm => ?_
      rcases List.mem_append.mp hm with hm | hm
      · exact hmem m (List.mem_append_left _ hm)
      · rw [List.mem_singleton.mp hm]
        exact hx
    have hsuf : ([sep].intercalate (y :: B)).splitOn sep = y :: B := by
      refine splitOn_join (by simp) fun m hm => ?_
      rcases List.mem_cons.mp hm with rfl | hm
      · exact hy
      · exact hmem m (by simp [hm])
    refine ⟨[sep].intercalate (A ++ [x]), [sep].intercalate (y :: B), splitOn_inj (?_ : t.splitOn sep = _), ?_⟩
    · rw [splitOn_append hpre hsuf]
      exact hAB
    · rw [posOf_eq hpre, hlen, hw]

variable (sep size) in
lemma foldl_advance_line (x : List α) (p : Position) :
    p.line ≤ (x.foldl (advance sep size) p).line ∧
      ((x.foldl (advance sep size) p).line = p.line → p.col ≤ (x.foldl (advance sep size) p).col) := by
  induction x generalizing p with
  | nil => exact ⟨Nat.le_refl _, fun _ => Nat.le_refl _⟩
  | cons c x ih =>
    obtain ⟨h1, h2⟩ := ih (advance sep size p c)
    rw [List.foldl_cons]
    by_cases hc : c = sep
    · have hadv : advance sep size p c = ⟨p.line + 1, 0⟩ := if_pos hc
      rw [hadv] at h1 h2 ⊢
      have h1' : p.line + 1 ≤ (x.foldl (advance sep size) ⟨p.line + 1, 0⟩).line := h1
      exact ⟨by omega, fun h => by omega⟩
    · have hadv : advance sep size p c = ⟨p.line, p.col + size c⟩ := if_neg hc
      rw [hadv] at h1 h2 ⊢
      exact ⟨h1, fun h => Nat.le_trans (Nat.le_add_right _ _) (h2 h)⟩

/-- characters that take room move the position on -/
lemma foldl_advance_ne (hs : ∀ a, 0 < size a) {x : List α} (hx : x ≠ []) (p : Position) :
    x.foldl (advance sep size) p ≠ p := by
  obtain ⟨c, m, rfl⟩ := List.exists_cons_of_ne_nil hx
  rw [List.foldl_cons]
  obtain ⟨h1, h2⟩ := foldl_advance_line sep size m (advance sep size p c)
  intro e
  rw [e] at h1 h2
  by_cases hc : c = sep
  · have hadv : advance sep size p c = ⟨p.line + 1, 0⟩ := if_pos hc
    rw [hadv] at h1
    have h1' : p.line + 1 ≤ p.line := h1
    omega
  · have hadv : advance sep size p c = ⟨p.line, p.col + size c⟩ := if_neg hc
    rw [hadv] at h2
    have h2' : p.col + size c ≤ p.col := h2 rfl
    have hpos := hs c
    omega

/-- a position is the end of one prefix of a text only -/
theorem posOf_inj (hs : ∀ a, 0 < size a) {x y x' y' : List α} (h : x ++ y = x' ++ y')
    (hpos : posOf sep size x = posOf sep size x') : x = x' ∧ y = y' := by
  have hx : x = x' := by
    rcases List.append_eq_append_iff.mp h with ⟨m, rfl, -⟩ | ⟨m, rfl, -⟩
    · by_contra hne
      rw [posOf_append] at hpos
      exact foldl_advance_ne hs (fun hm => hne (by rw [hm, List.append_nil])) _ hpos.symm
    · by_contra hne
      rw [posOf_append] at hpos
      exact foldl_advance_ne hs (fun hm => hne (by rw [hm, List.append_nil])) _ hpos
  subst hx
  exact ⟨rfl, List.append_cancel_left h⟩

/-- **Two ordered positions of a text cut it in three.** -/
theorem At.between {t : List α} {p q : Position} (hp : At sep size t p) (hq : At sep size t q)
    (hpq : q.before p = false) :
    ∃ x y z, t = x ++ y ++ z ∧ posOf sep size x = p ∧ posOf sep size (x ++ y) = q := by
  obtain ⟨x, x', rfl, rfl⟩ := hp
  obtain ⟨y, y', e, rfl⟩ := hq
  rcases List.append_eq_append_iff.mp e with ⟨m, rfl, rfl⟩ | ⟨m, rfl, rfl⟩
  · exact ⟨x, m, y', (List.append_assoc _ _ _).symm, rfl, rfl⟩
  · -- `q` comes first, so the positions are the same
    have hle := foldl_advance_line sep size m (posOf sep size y)
    rw [← posOf_append] at hle
    simp only [Position.before, Bool.or_eq_false_iff, decide_eq_false_iff_not, Bool.and_eq_false_iff,
      Nat.not_lt] at hpq
    have hline : (posOf sep size (y ++ m)).line = (posOf sep size y).line := by omega
    have hcol : (posOf sep size (y ++ m)).col = (posOf sep size y).col := by
      have h1 := hle.2 hline
      rcases hpq.2 with h2 | h2
      · exact absurd hline.symm h2
      · omega
    have heq : posOf sep size (y ++ m) = posOf sep size y := Position.ext hline hcol
    exact ⟨y ++ m, [], x', by rw [List.append_nil], rfl, by rw [List.append_nil, heq]⟩

lemma at_start (t : List α) : At sep size t ⟨0, 0⟩ := ⟨[], t, rfl, rfl⟩

end
end Lines
