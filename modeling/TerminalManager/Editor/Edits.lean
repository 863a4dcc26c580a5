import TerminalManager.Editor.Moves

/-!
# Edits

Every edit is one recorded splice: from a text `x ++ old ++ z` to the text `x ++ new ++ z`, with a
record that says so, pushed on the undo stack or taken into its open group.

* `Recorded`     what `push_record` does to the stacks;
* `Edited`       the splice, its record and what becomes of the buffer;
* `Stepped`      a movement or an edit;
* `recordReplace_stepped`   **main result**: `record_replace` is an edit;
* `insertWithKind_stepped`, `backspace_stepped`, …   so are inserting and deleting.
-/

namespace TerminalManager.Editor
open Lines
namespace EditorBuffer

variable {b b' : EditorBuffer} {p q : Position} {l : Line} {kind : GroupKind} {r : EditRecord}

/-! ## records -/

/-- the stacks after `push_record` -/
inductive Recorded (b : EditorBuffer) (kind : GroupKind) (r : EditRecord) (b' : EditorBuffer) : Prop
  /-- the record opens a group -/
  | pushed (undos : b'.undos = ⟨b.nextGroupId, kind, [r]⟩ :: b.undos)
      (nextGroupId : b'.nextGroupId = b.nextGroupId + 1)
  /-- the record is taken into the last one of the open group -/
  | joined (g : UndoGroup) (rest : List UndoGroup) (last r' : EditRecord)
      (groupOpen : b.groupOpen = true) (top : b.undos = g :: rest) (same : g.kind = kind)
      (getLast : g.records.getLast? = some last) (coalesced : coalesce kind last r = some r')
      (undos : b'.undos = { g with records := g.records.dropLast ++ [r'] } :: rest)
      (nextGroupId : b'.nextGroupId = b.nextGroupId)

lemma pushRecord_other (r : EditRecord) : b.pushRecord .other r =
    { b with
      redos := []
      undos := ⟨b.nextGroupId, .other, [r]⟩ :: b.undos
      nextGroupId := b.nextGroupId + 1
      groupOpen := false } := by
  have h : b.coalesced .other r = none := by
    unfold coalesced
    rw [if_neg (fun h => h.2 rfl)]
  unfold pushRecord
  rw [h]
  rfl

/-- when the record is taken in -/
lemma coalesced_some {undos : List UndoGroup} (h : b.coalesced kind r = some undos) :
    ∃ g rest last r', b.groupOpen = true ∧ b.undos = g :: rest ∧ g.kind = kind ∧
      g.records.getLast? = some last ∧ coalesce kind last r = some r' ∧
      undos = { g with records := g.records.dropLast ++ [r'] } :: rest := by
  unfold coalesced at h
  split at h
  · rename_i hopen
    split at h
    · rename_i g rest hu
      split at h
      · rename_i hk
        obtain ⟨last, hlast, h⟩ := Option.bind_eq_some_iff.mp h
        obtain ⟨r', hr', h⟩ := Option.bind_eq_some_iff.mp h
        exact ⟨g, rest, last, r', hopen.1, hu, hk, hlast, hr', (Option.some.inj h).symm⟩
      · cases h
    · cases h
  · cases h

lemma pushRecord_recorded (b : EditorBuffer) (kind : GroupKind) (r : EditRecord) :
    Recorded b kind r (b.pushRecord kind r) ∧ (b.pushRecord kind r).redos = [] ∧
      (b.pushRecord kind r).lines = b.lines ∧ (b.pushRecord kind r).cursor = b.cursor ∧
      (b.pushRecord kind r).anchor = b.anchor := by
  unfold pushRecord
  cases h : b.coalesced kind r with
  | some undos =>
    obtain ⟨g, rest, last, r', hopen, hu, hk, hlast, hr', rfl⟩ := coalesced_some h
    exact ⟨.joined g rest last r' hopen hu hk hlast hr' rfl rfl, rfl, rfl, rfl, rfl⟩
  | none => exact ⟨.pushed rfl rfl, rfl, rfl, rfl, rfl⟩

/-- the record stays the same whatever the rest of the buffer was -/
lemma Recorded.congr {c : EditorBuffer} (h : Recorded c kind r b') (hu : c.undos = b.undos)
    (hn : c.nextGroupId = b.nextGroupId) (ho : c.groupOpen = b.groupOpen) : Recorded b kind r b' := by
  cases h with
  | pushed undos nextGroupId =>
    rw [hn, hu] at undos
    rw [hn] at nextGroupId
    exact .pushed undos nextGroupId
  | joined g rest last r' groupOpen top same getLast coalesced undos nextGroupId =>
    rw [hn] at nextGroupId
    exact .joined g rest last r' (ho ▸ groupOpen) (hu ▸ top) same getLast coalesced undos nextGroupId

/-! ## recorded splices -/

/-- the text of `b'` is that of `b` with one splice, the splice is recorded, and the positions of
`b'` and of the record are positions of the text; what comes in are characters of `S`, characters of
the text and line breaks -/
structure Edited (S : List Char) (b : EditorBuffer) (kind : GroupKind) (r : EditRecord)
    (x z : List Char) (b' : EditorBuffer) : Prop where
  before : b.toText = x ++ r.oldText ++ z
  start : r.start = pos x
  cursorBefore : r.cursorBefore = b.cursor
  anchorBefore : r.anchorBefore = b.anchor
  deleting : kind = .deleting → r.newText = []
  inserted : ∀ c ∈ r.newText, c = '\n' ∨ c ∈ b.toText ∨ c ∈ S
  lines : b'.lines = (x ++ r.newText ++ z).splitOn '\n'
  cursorAfter : At '\n' Char.utf8Size (x ++ r.newText ++ z) r.cursorAfter
  cursor : At '\n' Char.utf8Size (x ++ r.newText ++ z) b'.cursor
  anchor : ∀ a ∈ b'.anchor, At '\n' Char.utf8Size (x ++ r.newText ++ z) a
  redos : b'.redos = []
  recorded : Recorded b kind r b'

variable {S x z : List Char}

lemma toText_of_lines {t : List Char} (h : b.lines = t.splitOn '\n') : b.toText = t := by
  rw [toText, h]
  exact join_splitOn '\n' t

lemma Edited.toText (h : Edited S b kind r x z b') : b'.toText = x ++ r.newText ++ z :=
  toText_of_lines h.lines

lemma Edited.placed (h : Edited S b kind r x z b') : b'.Placed where
  lines := by rw [h.toText, h.lines]
  cursor := by
    rw [Valid, h.toText]
    exact h.cursor
  anchor a ha := by
    rw [Valid, h.toText]
    exact h.anchor a ha

lemma Edited.of_sticky {s : Option Nat} (h : Edited S { b with stickyChars := s } kind r x z b') :
    Edited S b kind r x z b' :=
  ⟨h.before, h.start, h.cursorBefore, h.anchorBefore, h.deleting, h.inserted, h.lines, h.cursorAfter,
    h.cursor, h.anchor, h.redos, h.recorded.congr rfl rfl rfl⟩

/-- a movement or an edit -/
def Stepped (S : List Char) (b b' : EditorBuffer) : Prop :=
  Moved b b' ∨ ∃ kind r x z, Edited S b kind r x z b'

lemma Stepped.placed (h : Stepped S b b') (hb : b.Placed) : b'.Placed := by
  rcases h with h | ⟨kind, r, x, z, h⟩
  · exact h.placed hb
  · exact h.placed

lemma Stepped.of_sticky {s : Option Nat} (hb : b.Placed)
    (h : Stepped S { b with stickyChars := s } b') : Stepped S b b' := by
  rcases h with h | ⟨kind, r, x, z, h⟩
  · exact .inl ((hb.moved_sticky s).trans h)
  · exact .inr ⟨kind, r, x, z, h.of_sticky⟩

lemma Placed.sticky (hb : b.Placed) (s : Option Nat) : ({ b with stickyChars := s } : EditorBuffer).Placed :=
  (hb.moved_sticky s).placed hb

lemma Placed.refl_stepped (hb : b.Placed) (s : Option Nat) : Stepped S b { b with stickyChars := s } :=
  .inl (hb.moved_sticky s)

lemma at_append (x y : List Char) : At '\n' Char.utf8Size (x ++ y) (pos x) := ⟨x, y, rfl, rfl⟩

/-- the record of a splice -/
def spliceRecord (b : EditorBuffer) (x o t : List Char) : EditRecord :=
  ⟨pos x, o, t, b.cursor, b.anchor, pos (x ++ t)⟩

/-- the buffer after a splice -/
def spliced (b : EditorBuffer) (x t z : List Char) : EditorBuffer :=
  { b with lines := (x ++ t ++ z).splitOn '\n', cursor := pos (x ++ t), anchor := none }

/-- **`record_replace`, on the text.** -/
theorem recordReplace_eq {o t : List Char} (hb : b.lines = (x ++ o ++ z).splitOn '\n')
    (kind : GroupKind) : ∃ d, b.recordReplace (pos x) (pos (x ++ o)) t kind = some (d,
      if o = [] ∧ t = [] then b else (b.spliced x t z).pushRecord kind (b.spliceRecord x o t)) := by
  unfold recordReplace
  simp only [textRange_eq x o z hb, Option.bind_eq_bind, Option.bind_some]
  by_cases he : o = [] ∧ t = []
  · rw [if_pos he, if_pos he]
    exact ⟨_, rfl⟩
  · rw [if_neg he, if_neg he, rawReplace_eq x o z t hb]
    simp only [Option.bind_some, endOfText_pos]
    exact ⟨_, rfl⟩

/-- two ordered positions of the buffer, as prefixes of its text -/
lemma Placed.between (hb : b.Placed) (hp : b.Valid p) (hq : b.Valid q) (hpq : q.before p = false) :
    ∃ x o z, b.toText = x ++ o ++ z ∧ b.lines = (x ++ o ++ z).splitOn '\n' ∧ pos x = p ∧
      pos (x ++ o) = q := by
  obtain ⟨x, o, z, ht, hx, hxo⟩ := At.between hp hq hpq
  exact ⟨x, o, z, ht, ht ▸ hb.lines, hx, hxo⟩

/-- **A recorded replacement is an edit**, or it does nothing. -/
theorem recordReplace_stepped (hb : b.Placed) (hp : b.Valid p) (hq : b.Valid q)
    (hpq : q.before p = false) (t : List Char) (kind : GroupKind)
    (hk : kind = .deleting → t = []) (hS : ∀ c ∈ t, c = '\n' ∨ c ∈ b.toText ∨ c ∈ S) :
    ∃ x, b.recordReplace p q t kind = some x ∧ Stepped S b x.2 := by
  obtain ⟨x, o, z, ht, hl, rfl, rfl⟩ := hb.between hp hq hpq
  obtain ⟨d, hd⟩ := recordReplace_eq (t := t) hl kind
  refine ⟨_, hd, ?_⟩
  show Stepped S b (if o = [] ∧ t = [] then b else _)
  by_cases he : o = [] ∧ t = []
  · rw [if_pos he]
    exact hb.refl_stepped _
  · rw [if_neg he]
    obtain ⟨hrec, hredos, hlines, hcursor, hanchor⟩ :=
      pushRecord_recorded (b.spliced x t z) kind (b.spliceRecord x o t)
    refine .inr ⟨kind, b.spliceRecord x o t, x, z, ht, rfl, rfl, rfl, hk, hS, hlines, at_append _ _, ?_,
      ?_, hredos, hrec.congr rfl rfl rfl⟩
    · rw [hcursor]
      exact at_append (x ++ t) z
    · rw [hanchor]
      exact fun a ha => (by cases ha)

/-! ## characters that come in -/

lemma mem_replaceCrlf {c : Char} {s : List Char} (h : c ∈ replaceCrlf s) : c = '\n' ∨ c ∈ s := by
  induction s using replaceCrlf.induct with
  | case1 s ih =>
    rw [replaceCrlf] at h
    rcases List.mem_cons.mp h with rfl | h
    · exact .inl rfl
    · exact (ih h).imp id fun h => List.mem_cons_of_mem _ (List.mem_cons_of_mem _ h)
  | case2 a s hne ih =>
    rw [replaceCrlf] at h
    · rcases List.mem_cons.mp h with rfl | h
      · exact .inr List.mem_cons_self
      · exact (ih h).imp id (List.mem_cons_of_mem _)
    · exact hne
  | case3 => cases h

/-- normalized text has no carriage return, and nothing new but line breaks -/
lemma mem_normalize {c : Char} {s : List Char} (h : c ∈ normalize s) : c ≠ '\r' ∧ (c = '\n' ∨ c ∈ s) := by
  unfold normalize at h
  by_cases hcr : '\r' ∈ s
  · rw [if_pos hcr] at h
    obtain ⟨d, hd, rfl⟩ := List.mem_map.mp h
    by_cases he : d = '\r'
    · rw [if_pos he]
      exact ⟨by decide, .inl rfl⟩
    · rw [if_neg he]
      exact ⟨he, mem_replaceCrlf hd⟩
  · rw [if_neg hcr] at h
    exact ⟨fun e => hcr (e ▸ h), .inr h⟩

lemma mem_join {c : Char} {ls : List Line} :
    c ∈ ['\n'].intercalate ls → c = '\n' ∨ ∃ l ∈ ls, c ∈ l := by
  intro h
  cases ls with
  | nil => cases h
  | cons l M =>
    rw [intercalate_cons] at h
    rcases List.mem_append.mp h with h | h
    · exact .inr ⟨l, List.mem_cons_self, h⟩
    · obtain ⟨m, hm, hc⟩ := List.mem_flatMap.mp h
      rcases List.mem_cons.mp hc with rfl | hc
      · exact .inl rfl
      · exact .inr ⟨m, List.mem_cons_of_mem l hm, hc⟩

lemma mem_toText {c : Char} {i : Nat} (hl : b.lines[i]? = some l) (hc : c ∈ l) : c ∈ b.toText := by
  have hmem := List.mem_of_getElem? hl
  unfold toText
  cases hb : b.lines with
  | nil =>
    rw [hb] at hmem
    cases hmem
  | cons k M =>
    rw [hb] at hmem
    rw [intercalate_cons]
    rcases List.mem_cons.mp hmem with rfl | hm
    · exact List.mem_append_left _ hc
    · exact List.mem_append_right _ (List.mem_flatMap.mpr ⟨l, hm, List.mem_cons_of_mem _ hc⟩)

/-! ## inserting and deleting -/

lemma before_self (p : Position) : p.before p = false := by
  simp [Position.before]

lemma before_of_le {i m n : Nat} (h : m ≤ n) : Position.before ⟨i, n⟩ ⟨i, m⟩ = false := by
  simp only [Position.before, Nat.lt_irrefl, decide_false, Bool.false_or, Bool.and_eq_false_iff,
    decide_eq_false_iff_not]
  omega

lemma Placed.selection_getD (hb : b.Placed) (h : b.selection.getD (b.cursor, b.cursor) = (p, q)) :
    b.Valid p ∧ b.Valid q ∧ q.before p = false := by
  cases hs : b.selection with
  | some s =>
    rw [hs] at h
    cases h
    exact hb.selection hs
  | none =>
    rw [hs] at h
    cases h
    exact ⟨hb.cursor, hb.cursor, before_self _⟩

theorem insertWithKind_stepped (hb : b.Placed) {text : List Char} (hk : kind ≠ .deleting)
    (hS : ∀ c ∈ normalize text, c = '\n' ∨ c ∈ b.toText ∨ c ∈ S) :
    ∃ x, b.insertWithKind text kind = some x ∧ Stepped S b x.2 := by
  obtain ⟨p, q, h⟩ : ∃ p q, b.selection.getD (b.cursor, b.cursor) = (p, q) := ⟨_, _, rfl⟩
  obtain ⟨hp, hq, hpq⟩ := (hb.sticky none).selection_getD h
  obtain ⟨x, hx, hs⟩ := recordReplace_stepped (hb.sticky none) hp hq hpq (normalize text) kind
    (fun e => absurd e hk) hS
  refine ⟨x, ?_, hs.of_sticky hb⟩
  have h' : selection { b with stickyChars := none } = b.selection := rfl
  unfold insertWithKind
  simp only [h', h]
  exact hx

theorem deleteSelection_stepped (hb : b.Placed) : ∃ x, b.deleteSelection = some x ∧ Stepped S b x.2 := by
  unfold deleteSelection
  dsimp only
  cases hs : selection { b with stickyChars := none } with
  | none => exact ⟨_, rfl, hb.refl_stepped none⟩
  | some s =>
    obtain ⟨p, q⟩ := s
    obtain ⟨hp, hq, hpq⟩ := (hb.sticky none).selection hs
    obtain ⟨x, hx, hstep⟩ := recordReplace_stepped (hb.sticky none) hp hq hpq [] .other
      (fun _ => rfl) (fun c hc => (by cases hc))
    exact ⟨x, hx, hstep.of_sticky hb⟩

/-- a splice of `stickyChars := none` up to the cursor or from it on -/
lemma Placed.replace_sticky (hb : b.Placed) (hp : b.Valid p) (hq : b.Valid q) (hpq : q.before p = false)
    (kind : GroupKind) :
    ∃ x, recordReplace { b with stickyChars := none } p q [] kind = some x ∧ Stepped S b x.2 := by
  obtain ⟨x, hx, hs⟩ := recordReplace_stepped (hb.sticky none) hp hq hpq [] kind
    (fun _ => rfl) (fun c hc => (by cases hc))
  exact ⟨x, hx, hs.of_sticky hb⟩

theorem insertNewlineAutoIndent_stepped (hb : b.Placed) :
    ∃ x, b.insertNewlineAutoIndent = some x ∧ Stepped S b x.2 := by
  have hstart : b.Valid ((b.selection.map Prod.fst).getD b.cursor) := by
    cases hs : b.selection with
    | none => exact hb.cursor
    | some s => exact (hb.selection (p := s.1) (q := s.2) hs).1
  obtain ⟨x, y, hl, hw⟩ := hb.line hstart
  -- the indent is cut at its end or at the cursor
  obtain ⟨n, m, hn, hnm⟩ : ∃ n m, sliceTo (x ++ y) (min (indentEnd (x ++ y))
      ((b.selection.map Prod.fst).getD b.cursor).col) = some n ∧ x ++ y = n ++ m := by
    rcases Nat.le_total (indentEnd (x ++ y)) ((b.selection.map Prod.fst).getD b.cursor).col with h | h
    · obtain ⟨u, v, huv, hu⟩ := boundary_indentEnd (x ++ y)
      rw [Nat.min_eq_left h, ← hu, huv, sliceTo_len]
      exact ⟨u, v, rfl, rfl⟩
    · rw [Nat.min_eq_right h, ← hw, sliceTo_len]
      exact ⟨x, y, rfl, rfl⟩
  unfold insertNewlineAutoIndent
  simp only [hl, hn, Option.bind_eq_bind, Option.bind_some]
  refine insertWithKind_stepped hb (by decide) fun c hc => ?_
  rcases (mem_normalize hc).2 with h | h
  · exact .inl h
  · rcases List.mem_cons.mp h with h | h
    · exact .inl h
    · exact .inr (.inl (mem_toText hl (hnm ▸ List.mem_append_left m h)))

theorem backspace_stepped (t : CharTable) (hb : b.Placed) (word : Bool) :
    ∃ x, b.backspace t word = some x ∧ Stepped S b x.2 := by
  unfold backspace
  dsimp only
  by_cases hsel : (selection { b with stickyChars := none }).isSome = true
  · rw [if_pos hsel]
    obtain ⟨x, hx, hs⟩ := deleteSelection_stepped (hb.sticky none)
    exact ⟨x, hx, hs.of_sticky hb⟩
  rw [if_neg hsel]
  by_cases hcol : b.cursor.col = 0
  · simp only [if_pos hcol]
    by_cases hline : b.cursor.line = 0
    · simp only [if_pos hline]
      exact ⟨_, rfl, hb.refl_stepped none⟩
    · obtain ⟨l, hl, hv⟩ := hb.line_above (Nat.pos_of_ne_zero hline)
      simp only [if_neg hline, hl, Option.bind_eq_bind, Option.bind_some]
      refine hb.replace_sticky hv hb.cursor ?_ .other
      simp only [Position.before, Bool.or_eq_false_iff, decide_eq_false_iff_not, Bool.and_eq_false_iff]
      omega
  · obtain ⟨x, y, hl, hw⟩ := hb.line hb.cursor
    simp only [if_neg hcol]
    by_cases hword : word = true
    · obtain ⟨n, hn, hbd, hle⟩ := prevWordBoundary_eq t x y
      rw [hw] at hn hle
      simp only [if_pos hword, hl, hn, Option.bind_eq_bind, Option.bind_some]
      exact hb.replace_sticky (hb.valid hl hbd) hb.cursor (before_of_le hle) .other
    · obtain ⟨n, hn, hv, hle⟩ := hb.prevCharCol hb.cursor
      have hn' : prevCharCol { b with stickyChars := none } b.cursor.line b.cursor.col = some n := hn
      simp only [if_neg hword, hn', Option.bind_eq_bind, Option.bind_some]
      exact hb.replace_sticky hv hb.cursor (before_of_le hle) .deleting

theorem deleteForward_stepped (t : CharTable) (hb : b.Placed) (word : Bool) :
    ∃ x, b.deleteForward t word = some x ∧ Stepped S b x.2 := by
  unfold deleteForward
  dsimp only
  by_cases hsel : (selection { b with stickyChars := none }).isSome = true
  · rw [if_pos hsel]
    obtain ⟨x, hx, hs⟩ := deleteSelection_stepped (hb.sticky none)
    exact ⟨x, hx, hs.of_sticky hb⟩
  rw [if_neg hsel]
  obtain ⟨x, y, hl, hw⟩ := hb.line hb.cursor
  simp only [hl, Option.bind_eq_bind, Option.bind_some]
  by_cases hcol : len (x ++ y) ≤ b.cursor.col
  · simp only [if_pos hcol]
    by_cases hline : b.lines.length ≤ b.cursor.line + 1
    · simp only [if_pos hline]
      exact ⟨_, rfl, hb.refl_stepped none⟩
    · simp only [if_neg hline]
      refine hb.replace_sticky hb.cursor (hb.line_below (Nat.lt_of_not_le hline)) ?_ .other
      simp only [Position.before, Bool.or_eq_false_iff, decide_eq_false_iff_not, Bool.and_eq_false_iff]
      omega
  · simp only [if_neg hcol]
    by_cases hword : word = true
    · obtain ⟨n, hn, hbd, hle⟩ := nextWordBoundary_eq t x y
      rw [hw] at hn hle
      simp only [if_pos hword, hn, Option.bind_some]
      exact hb.replace_sticky hb.cursor (hb.valid hl hbd) (before_of_le hle) .other
    · obtain ⟨n, hn, hv, hle⟩ := hb.nextCharCol hb.cursor
      have hn' : nextCharCol { b with stickyChars := none } b.cursor.line b.cursor.col = some n := hn
      simp only [if_neg hword, hn', Option.bind_some]
      exact hb.replace_sticky hb.cursor hv (before_of_le hle) .deleting

end EditorBuffer
end TerminalManager.Editor
