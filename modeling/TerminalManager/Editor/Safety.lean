import TerminalManager.Editor.History

/-!
# Positions and lines stay in order

* `OnLine`, `WellFormed`   a position between two characters of a line; lines without line breaks,
  and a cursor and an anchor on them;
* `Replayable`    the positions that the next `undo` and `redo` use;
* `Clean`         no carriage return, in the text or in the history;
* `operations_safe`    **main result**: in every run no operation panics and the buffer is well
  formed, as long as no comment marker has a carriage return;
* `marker_unsafe`      with such a marker the lines have one too.
-/

namespace TerminalManager.Editor
open Lines
namespace EditorBuffer

variable {b b' : EditorBuffer} {h : History} {first : List Char} {p q : Position}

/-! ## what is kept -/

/-- a position on a line, between two characters -/
def OnLine (b : EditorBuffer) (p : Position) : Prop :=
  ∃ l, b.lines[p.line]? = some l ∧ isCharBoundary l p.col = true

structure WellFormed (b : EditorBuffer) : Prop where
  nonempty : b.lines ≠ []
  breaks : ∀ l ∈ b.lines, '\n' ∉ l ∧ '\r' ∉ l
  cursor : b.OnLine b.cursor
  anchor : ∀ a ∈ b.anchor, b.OnLine a

/-- the positions of the newest group lie on the lines they are used on -/
structure Replayable (b : EditorBuffer) : Prop where
  undo : ∀ g ∈ b.undos.head?, ∃ d b', b.undo = some (d, b') ∧ ∀ r ∈ g.records,
    b.OnLine r.start ∧ b.OnLine (endOfText r.start r.newText) ∧ b'.OnLine r.cursorBefore ∧
      ∀ a ∈ r.anchorBefore, b'.OnLine a
  redo : ∀ g ∈ b.redos.head?, ∃ d b', b.redo = some (d, b') ∧ ∀ r ∈ g.records,
    b.OnLine r.start ∧ b.OnLine (endOfText r.start r.oldText) ∧ b'.OnLine r.cursorAfter

lemma onLine_iff {text : List Char} (hl : b.lines = text.splitOn '\n') :
    b.OnLine p ↔ At '\n' Char.utf8Size text p := by
  rw [at_iff, ← hl]
  constructor
  · rintro ⟨l, hl, hb⟩
    obtain ⟨x, y, hxy, hw⟩ := (isCharBoundary_iff l p.col).mp hb
    exact ⟨l, x, y, hl, hxy, hw⟩
  · rintro ⟨l, x, y, hl, hxy, hw⟩
    exact ⟨l, hl, (isCharBoundary_iff l p.col).mpr ⟨x, y, hxy, hw⟩⟩

lemma Placed.wellFormed (hb : b.Placed) (hcr : '\r' ∉ b.toText) : b.WellFormed where
  nonempty := List.ne_nil_of_length_pos hb.nonempty
  breaks l hl := by
    obtain ⟨i, hi⟩ := List.mem_iff_getElem?.mp hl
    refine ⟨?_, fun hmem => hcr (mem_toText hi hmem)⟩
    rw [hb.lines] at hl
    exact not_mem_line hl
  cursor := (onLine_iff hb.lines).mpr hb.cursor
  anchor a ha := (onLine_iff hb.lines).mpr (hb.anchor a ha)

theorem Inv.replayable (hi : Inv first b h) : b.Replayable := by
  have hpast := hi.past
  have hfuture := hi.future
  obtain ⟨past, future, latest⟩ := h
  constructor
  · intro g hg
    obtain ⟨rest, hu⟩ := List.head?_eq_some_iff.mp hg
    rw [hu] at hpast
    cases past with
    | nil => exact hpast.elim
    | cons c past =>
    obtain ⟨hlinked, hafter, -⟩ := hpast
    have hlines : b.lines = c.after.splitOn '\n' := hafter ▸ hi.placed.lines
    obtain ⟨d, b', hd, hb'⟩ := undo_linked hlinked hu hlines
    obtain ⟨r, x, z, hl⟩ := hlinked
    refine ⟨d, b', hd, fun r' hr' => ?_⟩
    rw [hl.records, List.mem_singleton] at hr'
    subst hr'
    rw [hl.start, endOfText_pos]
    rw [onLine_iff hlines, onLine_iff hlines, onLine_iff hb'.lines, hl.after]
    refine ⟨?_, at_append (x ++ r'.newText) z, hl.cursorBefore, fun a ha => ?_⟩
    · rw [List.append_assoc]
      exact at_append x _
    · exact (onLine_iff hb'.lines).mpr (hl.anchorBefore a ha)
  · intro g hg
    obtain ⟨rest, hr⟩ := List.head?_eq_some_iff.mp hg
    rw [hr] at hfuture
    cases future with
    | nil => exact hfuture.elim
    | cons c future =>
    obtain ⟨hlinked, hbefore, -⟩ := hfuture
    have hlines : b.lines = c.before.text.splitOn '\n' := hbefore ▸ hi.placed.lines
    obtain ⟨d, b', p, hd, hb', -⟩ := redo_linked hlinked hr hlines
    obtain ⟨r, x, z, hl⟩ := hlinked
    refine ⟨d, b', hd, fun r' hr' => ?_⟩
    rw [hl.records, List.mem_singleton] at hr'
    subst hr'
    rw [hl.start, endOfText_pos]
    rw [onLine_iff hlines, onLine_iff hlines, onLine_iff hb'.lines, hl.before]
    refine ⟨?_, at_append (x ++ r'.oldText) z, hl.cursorAfter⟩
    rw [List.append_assoc]
    exact at_append x _

/-! ## carriage returns -/

/-- no carriage return, now or at any other time of the history -/
structure Clean (b : EditorBuffer) (h : History) : Prop where
  text : '\r' ∉ b.toText
  past : ∀ c ∈ h.past, '\r' ∉ c.before.text ∧ '\r' ∉ c.after
  future : ∀ c ∈ h.future, '\r' ∉ c.before.text ∧ '\r' ∉ c.after

lemma Stepped.clean {S : List Char} (hs : Stepped S b b') (hS : '\r' ∉ S) (hcr : '\r' ∉ b.toText) :
    '\r' ∉ b'.toText := by
  rcases hs with hm | ⟨kind, r, x, z, he⟩
  · rw [hm.toText]
    exact hcr
  · rw [he.toText]
    rw [he.before] at hcr
    simp only [List.mem_append, not_or] at hcr ⊢
    refine ⟨⟨hcr.1.1, fun hmem => ?_⟩, hcr.2⟩
    rcases he.inserted _ hmem with h | h | h
    · cases h
    · rw [he.before] at h
      simp only [List.mem_append] at h
      rcases h with (h | h) | h
      · exact hcr.1.1 h
      · exact hcr.1.2 h
      · exact hcr.2 h
    · exact hS h

lemma Clean.edit (hc : Clean b h) (hcr : '\r' ∉ b'.toText) : Clean b' (h.edit b b') := by
  unfold History.edit
  split
  · exact ⟨hcr, List.forall_mem_cons.mpr ⟨⟨hc.text, hcr⟩, hc.past⟩, fun c h => (by cases h)⟩
  · split
    · exact ⟨hcr, hc.past, hc.future⟩
    · refine ⟨hcr, ?_, hc.future⟩
      have hpast := hc.past
      show ∀ c ∈ h.past.modifyHead _, _
      cases hp : h.past with
      | nil => exact fun c h => (by cases h)
      | cons c past =>
        rw [hp] at hpast
        obtain ⟨h1, h2⟩ := List.forall_mem_cons.mp hpast
        exact List.forall_mem_cons.mpr ⟨⟨h1.1, hcr⟩, h2⟩

lemma Clean.back (hc : Clean b h) (hi : Inv first b h) (hi' : Inv first b' h.back)
    (hsnap : ∀ c past, h.past = c :: past → b'.snapshot = c.before) : Clean b' h.back := by
  have hpast := hi.past
  have hpast' := hi'.past
  obtain ⟨past, future, latest⟩ := h
  cases past with
  | nil =>
    -- nothing to undo: before and after it is the first text
    have htext : ∀ gs T, Past first gs [] T → T = first := by
      intro gs T hp
      cases gs with
      | nil => exact hp
      | cons g gs => exact hp.elim
    refine ⟨?_, fun c h => (by cases h), hc.future⟩
    rw [htext _ _ hpast', ← htext _ _ hpast]
    exact hc.text
  | cons c past =>
    obtain ⟨h1, h2⟩ := List.forall_mem_cons.mp hc.past
    refine ⟨?_, h2, List.forall_mem_cons.mpr ⟨h1, hc.future⟩⟩
    have htext : b'.toText = c.before.text := congrArg Snapshot.text (hsnap c past rfl)
    rw [htext]
    exact h1.1

lemma Clean.forth (hc : Clean b h) (hi : Inv first b h) (hi' : Inv first b' h.forth)
    (hafter : ∀ c future, h.future = c :: future → b'.toText = c.after) : Clean b' h.forth := by
  have hfuture := hi.future
  have hfuture' := hi'.future
  obtain ⟨past, future, latest⟩ := h
  cases future with
  | nil =>
    -- nothing to redo: before and after it is the latest text
    have htext : ∀ gs T, Future latest gs [] T → T = latest := by
      intro gs T hp
      cases gs with
      | nil => exact hp
      | cons g gs => exact hp.elim
    refine ⟨?_, hc.past, fun c h => (by cases h)⟩
    rw [htext _ _ hfuture', ← htext _ _ hfuture]
    exact hc.text
  | cons c future =>
    obtain ⟨h1, h2⟩ := List.forall_mem_cons.mp hc.future
    refine ⟨?_, List.forall_mem_cons.mpr ⟨h1, hc.past⟩, h2⟩
    rw [hafter c future rfl]
    exact h1.2

end EditorBuffer

/-- only a comment marker can bring a carriage return in -/
lemma Op.inserted_clean {op : Op} (h : ∀ marker, op = .toggleLineComment marker → '\r' ∉ marker) :
    '\r' ∉ op.inserted := by
  have hnorm : ∀ text, '\r' ∉ EditorBuffer.normalize text :=
    fun _ hmem => (EditorBuffer.mem_normalize hmem).1 rfl
  cases op with
  | insertStr text => exact hnorm text
  | insertTyped text => exact hnorm text
  | insertChar c => exact hnorm [c]
  | toggleLineComment marker =>
    intro hmem
    rcases List.mem_cons.mp hmem with e | hmem
    · cases e
    · exact h marker rfl hmem
  | indent => exact (by decide)
  | _ => exact List.not_mem_nil

namespace EditorBuffer
variable {b b' : EditorBuffer} {h : History} {first : List Char} {p q : Position}

/-- one operation keeps everything in order -/
lemma Clean.step (t : CharTable) {s : EditorBuffer × History} (hi : Inv first s.1 s.2) (hc : Clean s.1 s.2)
    {op : Op} (hop : ∀ marker, op = .toggleLineComment marker → '\r' ∉ marker) :
    ∃ s', watch t s op = some s' ∧ Inv first s'.1 s'.2 ∧ Clean s'.1 s'.2 := by
  obtain ⟨s', hs, hi', -⟩ := hi.step t op
  refine ⟨s', hs, hi', ?_⟩
  obtain ⟨b, h⟩ := s
  obtain ⟨c, hrun, rfl⟩ := Option.map_eq_some_iff.mp hs
  by_cases hu : op = .undo
  · subst hu
    obtain ⟨b', hb', -, hsnap⟩ := hi.undo t
    obtain rfl : c = b' := Option.some.inj (hrun.symm.trans hb')
    exact hc.back hi hi' hsnap
  by_cases hr : op = .redo
  · subst hr
    obtain ⟨b', hb', -, hafter⟩ := hi.redo t
    obtain rfl : c = b' := Option.some.inj (hrun.symm.trans hb')
    exact hc.forth hi hi' hafter
  obtain ⟨b', hb', hstep⟩ := run_cases t hi.placed hu hr
  obtain rfl : c = b' := Option.some.inj (hrun.symm.trans hb')
  have hobserve : h.observe b c op = h.edit b c := by
    cases op with
    | undo => exact absurd rfl hu
    | redo => exact absurd rfl hr
    | _ => rfl
  show Clean c (h.observe b c op)
  rw [hobserve]
  exact hc.edit (hstep.clean (Op.inserted_clean hop) hc.text)

/-! ## questions about a position -/

lemma queries_defined (hb : b.Placed) :
    (∀ p, b.OnLine p → (b.visualCol p).isSome ∧ (b.charCol p).isSome) ∧
    (∀ i < b.lines.length, ∀ n, (b.colForVisual i n).isSome ∧ (b.colForCharIndex i n).isSome) ∧
    (∀ p q, b.OnLine p → b.OnLine q → q.before p = false → (b.textRange p q).isSome) ∧
    b.selectedText.isSome := by
  have hrange : ∀ p q, b.Valid p → b.Valid q → q.before p = false → (b.textRange p q).isSome := by
    intro p q hp hq hpq
    obtain ⟨x, o, z, -, hl, rfl, rfl⟩ := hb.between hp hq hpq
    rw [textRange_eq x o z hl]
    rfl
  refine ⟨fun p hp => ?_, fun i hi n => ?_, fun p q hp hq => ?_, ?_⟩
  · obtain ⟨x, y, hl, hw⟩ := hb.line ((onLine_iff hb.lines).mp hp)
    unfold visualCol charCol
    simp only [hl, ← hw, sliceTo_len, Option.bind_eq_bind, Option.bind_some]
    exact ⟨rfl, rfl⟩
  · obtain ⟨l, hl⟩ := exists_line hi
    unfold colForVisual colForCharIndex
    rw [hl]
    exact ⟨rfl, rfl⟩
  · exact hrange p q ((onLine_iff hb.lines).mp hp) ((onLine_iff hb.lines).mp hq)
  · unfold selectedText
    split
    · rfl
    · rename_i start stop hs
      obtain ⟨hp, hq, hpq⟩ := hb.selection hs
      rw [Option.isSome_map]
      exact hrange start stop hp hq hpq

/-! ## runs -/

/-- **No operation panics, and the buffer stays well formed.** -/
theorem operations_safe (t : CharTable) (text : List Char) (htext : '\r' ∉ text) (ops : List Op)
    (hops : ∀ marker, .toggleLineComment marker ∈ ops → '\r' ∉ marker) :
    ∃ b, Transition.exec (Op.run t) (fromText text) ops = some b ∧ b.WellFormed ∧ b.Replayable ∧
      (∀ op, (Op.run t b op).isSome) ∧
      (∀ p, b.OnLine p → (b.visualCol p).isSome ∧ (b.charCol p).isSome) ∧
      (∀ i < b.lines.length, ∀ n, (b.colForVisual i n).isSome ∧ (b.colForCharIndex i n).isSome) ∧
      (∀ p q, b.OnLine p → b.OnLine q → q.before p = false → (b.textRange p q).isSome) ∧
      b.selectedText.isSome := by
  have hstart : Clean (fromText text) (History.start text) := by
    refine ⟨?_, fun c h => (by cases h), fun c h => (by cases h)⟩
    rw [show (fromText text).toText = text from toText_of_lines rfl]
    exact htext
  obtain ⟨⟨b, h⟩, hrun, hi, hc⟩ := Transition.exec_progress (s := (fromText text, History.start text))
    (I := fun s : EditorBuffer × History => Inv text s.1 s.2 ∧ Clean s.1 s.2)
    (fun s op hop hs => Clean.step t hs.1 hs.2 fun marker e => hops marker (e ▸ hop))
    ⟨inv_fromText text, hstart⟩
  refine ⟨b, exec_watch hrun, hi.placed.wellFormed hc.text, hi.replayable, fun op => ?_,
    queries_defined hi.placed⟩
  obtain ⟨s', hs, -⟩ := Inv.step t (s := (b, h)) hi op
  obtain ⟨c, hc, -⟩ := Option.map_eq_some_iff.mp hs
  rw [hc]
  rfl

/-- an accented letter, pasted line breaks, a click inside of the letter, and a comment -/
theorem operations_safe_paste : ∃ b, Transition.exec (Op.run ⟨Char.isAlphanum⟩) (fromText ['é', '\n'])
    [.insertStr ['a', '\r', '\n', 'b', '\r'], .setCursor ⟨7, 1⟩ true, .toggleLineComment ['#'], .undo] = some b ∧
    b.WellFormed :=
  (operations_safe ⟨Char.isAlphanum⟩ ['é', '\n'] (by decide) [.insertStr ['a', '\r', '\n', 'b', '\r'],
    .setCursor ⟨7, 1⟩ true, .toggleLineComment ['#'], .undo] (by simp)).imp fun _ h => ⟨h.1, h.2.1⟩

/-- **A comment marker with a carriage return** goes into the lines as it is. -/
theorem marker_unsafe : ¬∀ (t : CharTable) (text : List Char) (ops : List Op), '\r' ∉ text →
    ∃ b, Transition.exec (Op.run t) (fromText text) ops = some b ∧ b.WellFormed := by
  intro h
  obtain ⟨b, hb, hw⟩ := h ⟨Char.isAlphanum⟩ ['a'] [.toggleLineComment ['\r']] (by decide)
  have hlines : b.lines = [['\r', ' ', 'a']] := by
    have hrun : (Transition.exec (Op.run ⟨Char.isAlphanum⟩) (fromText ['a']) [.toggleLineComment ['\r']]).map
        lines = some [['\r', ' ', 'a']] := rfl
    rw [hb] at hrun
    exact Option.some.inj hrun
  have hbreak := (hw.breaks ['\r', ' ', 'a'] (by rw [hlines]; exact List.mem_singleton_self _)).2
  exact hbreak List.mem_cons_self

end EditorBuffer
end TerminalManager.Editor
