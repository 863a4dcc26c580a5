import TerminalManager.Lib.Transition
import TerminalManager.Editor.LineEdits

/-!
# Undo and redo

What undo and redo are for is said by a `History`: for every group of edits the text, the cursor and
the selection before its first edit, and the text after its last one.  It is kept by watching the
buffer from outside (`History.observe`), and the stacks of the buffer are shown to agree with it.

* `Link`, `Past`, `Future`   the record of a group takes one text of the history to the next;
* `Link.join`    a record that is taken into a group still does;
* `Effect`       what an operation does to the stacks and to the history;
* `Inv.step`     every operation keeps the agreement, and none panics;
* `history_faithful`   **main result**: in every run, undoing the newest group gives back the state
  before it and redoing it the text after it; undoing everything gives the first text, redoing
  everything the latest one.
-/

namespace TerminalManager.Editor
open Lines

/-! ## the history -/

structure Snapshot where
  text : List Char
  cursor : Position
  anchor : Option Position
  deriving DecidableEq, Repr

def EditorBuffer.snapshot (b : EditorBuffer) : Snapshot := ⟨b.toText, b.cursor, b.anchor⟩

/-- what a group of edits did -/
structure Change where
  before : Snapshot
  after : List Char
  deriving DecidableEq, Repr

/-- the groups that can be undone and redone, newest and next first, and the text after the latest
edit -/
structure History where
  past : List Change
  future : List Change
  latest : List Char
  deriving DecidableEq, Repr

namespace History

def start (text : List Char) : History := ⟨[], [], text⟩

def back (h : History) : History :=
  match h.past with
  | [] => h
  | c :: past => { h with past := past, future := c :: h.future }

def forth (h : History) : History :=
  match h.future with
  | [] => h
  | c :: future => { h with past := c :: h.past, future := future }

/-- an operation took `b` to `b'`: it opened a group, did not change the text, or went on with the
newest group -/
def edit (h : History) (b b' : EditorBuffer) : History :=
  if b.undos.length < b'.undos.length then ⟨⟨b.snapshot, b'.toText⟩ :: h.past, [], b'.toText⟩
  else if b'.toText = b.toText then h
  else
    { h with
      past := h.past.modifyHead fun c => { c with after := b'.toText }
      latest := b'.toText }

def observe (h : History) (b b' : EditorBuffer) : Op → History
  | .undo => h.back
  | .redo => h.forth
  | _ => h.edit b b'

end History

/-- an operation, with the history watching -/
def watch (t : CharTable) (s : EditorBuffer × History) (op : Op) : Option (EditorBuffer × History) :=
  (op.run t s.1).map fun b' => (b', s.2.observe s.1 b' op)

/-! ## groups and changes -/

/-- the one record of a group takes the text before the change to the text after it -/
structure Link (g : UndoGroup) (c : Change) (r : EditRecord) (x z : List Char) : Prop where
  records : g.records = [r]
  before : c.before.text = x ++ r.oldText ++ z
  after : c.after = x ++ r.newText ++ z
  start : r.start = pos x
  cursor : c.before.cursor = r.cursorBefore
  anchor : c.before.anchor = r.anchorBefore
  cursorBefore : At '\n' Char.utf8Size c.before.text r.cursorBefore
  anchorBefore : ∀ a ∈ r.anchorBefore, At '\n' Char.utf8Size c.before.text a
  cursorAfter : At '\n' Char.utf8Size c.after r.cursorAfter
  deleting : g.kind = .deleting → r.newText = []

def Linked (g : UndoGroup) (c : Change) : Prop := ∃ r x z, Link g c r x z

/-- the groups that can be undone take `first` to the text -/
def Past (first : List Char) : List UndoGroup → List Change → List Char → Prop
  | [], [], text => text = first
  | g :: gs, c :: cs, text => Linked g c ∧ c.after = text ∧ Past first gs cs c.before.text
  | _, _, _ => False

/-- the groups that can be redone take the text to `latest` -/
def Future (latest : List Char) : List UndoGroup → List Change → List Char → Prop
  | [], [], text => text = latest
  | g :: gs, c :: cs, text => Linked g c ∧ c.before.text = text ∧ Future latest gs cs c.after
  | _, _, _ => False

lemma Linked.cursor {g : UndoGroup} {c : Change} (h : Linked g c) :
    At '\n' Char.utf8Size c.before.text c.before.cursor := by
  obtain ⟨r, x, z, h⟩ := h
  rw [h.cursor]
  exact h.cursorBefore

lemma Linked.anchor {g : UndoGroup} {c : Change} (h : Linked g c) :
    ∀ a ∈ c.before.anchor, At '\n' Char.utf8Size c.before.text a := by
  obtain ⟨r, x, z, h⟩ := h
  rw [h.anchor]
  exact h.anchorBefore

lemma Past.length {first text : List Char} {gs : List UndoGroup} {cs : List Change}
    (h : Past first gs cs text) : gs.length = cs.length := by
  induction gs generalizing cs text with
  | nil =>
    cases cs with
    | nil => rfl
    | cons c cs => exact h.elim
  | cons g gs ih =>
    cases cs with
    | nil => exact h.elim
    | cons c cs => exact congrArg (· + 1) (ih h.2.2)

lemma Future.length {latest text : List Char} {gs : List UndoGroup} {cs : List Change}
    (h : Future latest gs cs text) : gs.length = cs.length := by
  induction gs generalizing cs text with
  | nil =>
    cases cs with
    | nil => rfl
    | cons c cs => exact h.elim
  | cons g gs ih =>
    cases cs with
    | nil => exact h.elim
    | cons c cs => exact congrArg (· + 1) (ih h.2.2)

/-- what an operation does to the stacks and to the history -/
inductive Effect (b : EditorBuffer) (h : History) (b' : EditorBuffer) (h' : History) : Prop
  /-- a movement, or nothing to undo or redo -/
  | kept (undos : b'.undos = b.undos) (redos : b'.redos = b.redos) (history : h' = h)
      (groupOpen : b'.groupOpen = true → b.groupOpen = true) (nextGroupId : b'.nextGroupId = b.nextGroupId)
  /-- an edit that opens a group -/
  | opened (kind : GroupKind) (r : EditRecord) (c : Change)
      (undos : b'.undos = ⟨b.nextGroupId, kind, [r]⟩ :: b.undos) (redos : b'.redos = [])
      (past : h'.past = c :: h.past) (future : h'.future = [])
      (nextGroupId : b'.nextGroupId = b.nextGroupId + 1)
  /-- an edit that is taken into the open group -/
  | joined (g g' : UndoGroup) (gs : List UndoGroup) (c c' : Change) (cs : List Change)
      (groupOpen : b.groupOpen = true) (top : b.undos = g :: gs) (newest : h.past = c :: cs)
      (id : g'.id = g.id) (undos : b'.undos = g' :: gs) (redos : b'.redos = [])
      (past : h'.past = c' :: cs) (future : h'.future = []) (nextGroupId : b'.nextGroupId = b.nextGroupId)
  | undone (g : UndoGroup) (gs : List UndoGroup) (c : Change) (cs : List Change)
      (top : b.undos = g :: gs) (newest : h.past = c :: cs) (undos : b'.undos = gs)
      (redos : b'.redos = g :: b.redos) (past : h'.past = cs) (future : h'.future = c :: h.future)
      (groupOpen : b'.groupOpen = false) (nextGroupId : b'.nextGroupId = b.nextGroupId)
  | redone (g : UndoGroup) (gs : List UndoGroup) (c : Change) (cs : List Change)
      (top : b.redos = g :: gs) (next : h.future = c :: cs) (undos : b'.undos = g :: b.undos)
      (redos : b'.redos = gs) (past : h'.past = c :: h.past) (future : h'.future = cs)
      (groupOpen : b'.groupOpen = false) (nextGroupId : b'.nextGroupId = b.nextGroupId)

namespace EditorBuffer
variable {b b' : EditorBuffer} {g : UndoGroup} {rest : List UndoGroup} {c : Change}
  {kind : GroupKind} {r r' : EditRecord} {S x z u w : List Char}

/-- **A record that is taken into the group** makes one splice with it. -/
theorem Link.join (h : Link g c r x z) (he : Edited S b kind r' u w b') (ht : c.after = b.toText)
    (hk : g.kind = kind) {r'' : EditRecord} (hr : coalesce kind r r' = some r'') :
    Linked { g with records := g.records.dropLast ++ [r''] } { c with after := b'.toText } := by
  have htext : x ++ r.newText ++ z = u ++ r'.oldText ++ w := by
    rw [← h.after, ht, he.before]
  have hnew : b'.toText = u ++ r'.newText ++ w := he.toText
  have hcur : At '\n' Char.utf8Size b'.toText r'.cursorAfter := by
    rw [hnew]
    exact he.cursorAfter
  have hrecords : g.records.dropLast ++ [r''] = [r''] := by
    rw [h.records]
    rfl
  unfold coalesce at hr
  cases kind with
  | typing =>
    dsimp only at hr
    split at hr
    · rename_i hcond
      obtain ⟨hold, hstart⟩ := hcond
      obtain rfl := Option.some.inj hr
      -- the new text goes in where the last one ended
      rw [he.start, h.start, endOfText_pos] at hstart
      rw [hold, List.append_nil] at htext
      obtain ⟨hu, hw⟩ := posOf_inj utf8Size_pos htext hstart.symm
      refine ⟨_, x, z, hrecords, h.before, ?_, h.start, h.cursor, h.anchor, h.cursorBefore,
        h.anchorBefore, hcur, fun e => (by rw [hk] at e; cases e)⟩
      show b'.toText = x ++ (r.newText ++ r'.newText) ++ z
      rw [hnew, ← hu, ← hw, List.append_assoc x r.newText r'.newText]
    · cases hr
  | deleting =>
    have hempty := h.deleting hk
    have hempty' := he.deleting rfl
    rw [hempty, List.append_nil] at htext
    rw [hempty', List.append_nil] at hnew
    dsimp only at hr
    split at hr
    · rename_i hcond
      obtain rfl := Option.some.inj hr
      -- the last deletion begins where the new one ends
      have hstop := hcond.2
      rw [he.start, h.start, endOfText_pos] at hstop
      obtain ⟨hu, hw⟩ := posOf_inj utf8Size_pos htext hstop.symm
      refine ⟨_, u, w, hrecords, ?_, ?_, he.start, h.cursor, h.anchor, h.cursorBefore,
        h.anchorBefore, hcur, fun _ => hempty⟩
      · show c.before.text = u ++ (r'.oldText ++ r.oldText) ++ w
        rw [h.before, hu, hw, List.append_assoc u]
      · show b'.toText = u ++ r.newText ++ w
        rw [hnew, hempty, List.append_nil]
    · split at hr
      · rename_i hcond
        obtain rfl := Option.some.inj hr
        -- both deletions begin at the same place
        have hstart := hcond.2
        rw [he.start, h.start] at hstart
        rw [List.append_assoc] at htext
        obtain ⟨hu, hw⟩ := posOf_inj utf8Size_pos htext hstart.symm
        refine ⟨_, x, w, hrecords, ?_, ?_, h.start, h.cursor, h.anchor, h.cursorBefore,
          h.anchorBefore, hcur, fun _ => hempty⟩
        · show c.before.text = x ++ (r.oldText ++ r'.oldText) ++ w
          rw [h.before, hw, List.append_assoc x, List.append_assoc x, List.append_assoc]
        · show b'.toText = x ++ r.newText ++ w
          rw [hnew, hempty, List.append_nil, hu]
      · cases hr
  | other => cases hr

/-! ## undoing and redoing one group -/

/-- a group went from one stack to the other: the text, the cursor, the anchor and the stacks are
as given, no group is open, and no id was handed out -/
structure Replayed (b b' : EditorBuffer) (after : Snapshot) (undos redos : List UndoGroup) : Prop where
  lines : b'.lines = after.text.splitOn '\n'
  cursor : b'.cursor = after.cursor
  anchor : b'.anchor = after.anchor
  undos : b'.undos = undos
  redos : b'.redos = redos
  groupOpen : b'.groupOpen = false
  nextGroupId : b'.nextGroupId = b.nextGroupId

variable {s : Snapshot} {undos redos : List UndoGroup}

lemma Replayed.toText (h : Replayed b b' s undos redos) : b'.toText = s.text := toText_of_lines h.lines

lemma Replayed.snapshot (h : Replayed b b' s undos redos) : b'.snapshot = s := by
  unfold EditorBuffer.snapshot
  rw [h.toText, h.cursor, h.anchor]

lemma Replayed.placed (h : Replayed b b' s undos redos) (hc : At '\n' Char.utf8Size s.text s.cursor)
    (ha : ∀ a ∈ s.anchor, At '\n' Char.utf8Size s.text a) : b'.Placed where
  lines := by rw [h.toText, h.lines]
  cursor := by rw [Valid, h.toText, h.cursor]; exact hc
  anchor a hm := by
    rw [h.anchor] at hm
    rw [Valid, h.toText]
    exact ha a hm

/-- **Undoing a group** gives back the state before it. -/
theorem undo_linked (hl : Linked g c) (hu : b.undos = g :: rest) (ht : b.lines = c.after.splitOn '\n') :
    ∃ d b', b.undo = some (d, b') ∧ Replayed b b' c.before rest (g :: b.redos) := by
  obtain ⟨r, x, z, h⟩ := hl
  rw [h.after] at ht
  have hraw := rawReplace_eq (b := { b with stickyChars := none, undos := rest, groupOpen := false })
    x r.newText z r.oldText ht
  unfold undo
  simp only [hu, h.records, List.reverse_singleton, List.map_cons, List.map_nil, replay, h.start,
    endOfText_pos, Option.bind_eq_bind, List.head?_cons, Option.bind_some]
  rw [hraw]
  exact ⟨_, _, rfl, congrArg (List.splitOn '\n') h.before.symm, h.cursor.symm, h.anchor.symm, rfl, rfl,
    rfl, rfl⟩

/-- **Redoing a group** gives the text after it. -/
theorem redo_linked (hl : Linked g c) (hr : b.redos = g :: rest) (ht : b.lines = c.before.text.splitOn '\n') :
    ∃ d b' p, b.redo = some (d, b') ∧ Replayed b b' ⟨c.after, p, none⟩ (g :: b.undos) rest ∧
      At '\n' Char.utf8Size c.after p := by
  obtain ⟨r, x, z, h⟩ := hl
  rw [h.before] at ht
  have hraw := rawReplace_eq (b := { b with stickyChars := none, redos := rest, groupOpen := false })
    x r.oldText z r.newText ht
  unfold redo
  simp only [hr, h.records, List.map_cons, List.map_nil, replay, h.start, endOfText_pos,
    Option.bind_eq_bind, List.getLast?_singleton, Option.bind_some]
  rw [hraw]
  exact ⟨_, _, r.cursorAfter, rfl, ⟨congrArg (List.splitOn '\n') h.after.symm, rfl, rfl, rfl, rfl, rfl, rfl⟩,
    h.cursorAfter⟩

/-! ## the invariant -/

/-- the stacks of the buffer agree with the history -/
structure Inv (first : List Char) (b : EditorBuffer) (h : History) : Prop where
  placed : b.Placed
  past : Past first b.undos h.past b.toText
  future : Future h.latest b.redos h.future b.toText
  /-- nothing can be redone while a group is open -/
  groupOpen : b.groupOpen = true → b.redos = []

variable {first : List Char} {h : History}

lemma inv_fromText (text : List Char) : Inv text (fromText text) (History.start text) := by
  have ht : (fromText text).toText = text := toText_of_lines rfl
  refine ⟨⟨?_, at_start _, fun a ha => (by cases ha)⟩, ht, ht, fun h => (by cases h)⟩
  rw [ht]
  rfl

lemma Moved.edit (hm : Moved b b') : h.edit b b' = h := by
  unfold History.edit
  rw [hm.undos, hm.toText, if_neg (Nat.lt_irrefl _), if_pos rfl]

lemma Inv.moved (hi : Inv first b h) (hm : Moved b b') : Inv first b' h := by
  refine ⟨hm.placed hi.placed, ?_, ?_, fun ho => ?_⟩
  · rw [hm.undos, hm.toText]
    exact hi.past
  · rw [hm.redos, hm.toText]
    exact hi.future
  · rw [hm.redos]
    exact hi.groupOpen (hm.groupOpen ho)

/-- the record of an edit, in a group of its own -/
lemma Edited.linked (he : Edited S b kind r x z b') (hb : b.Placed) (id : UInt64) :
    Linked ⟨id, kind, [r]⟩ ⟨b.snapshot, b'.toText⟩ := by
  have ht := he.toText
  refine ⟨r, x, z, rfl, he.before, ht, he.start, he.cursorBefore.symm, he.anchorBefore.symm, ?_, ?_, ?_,
    he.deleting⟩
  · rw [he.cursorBefore]
    exact hb.cursor
  · rw [he.anchorBefore]
    exact hb.anchor
  · rw [ht]
    exact he.cursorAfter

lemma Inv.edited (hi : Inv first b h) (he : Edited S b kind r x z b') :
    Inv first b' (h.edit b b') ∧ Effect b h b' (h.edit b b') := by
  unfold History.edit
  cases he.recorded with
  | pushed undos nextGroupId =>
    have hlt : b.undos.length < b'.undos.length := by
      rw [undos, List.length_cons]
      exact Nat.lt_succ_self _
    rw [if_pos hlt]
    refine ⟨⟨he.placed, ?_, ?_, fun _ => he.redos⟩,
      .opened kind r _ undos he.redos rfl rfl nextGroupId⟩
    · rw [undos]
      exact ⟨he.linked hi.placed b.nextGroupId, rfl, hi.past⟩
    · rw [he.redos]
      rfl
  | joined g rest last r' groupOpen top same getLast coalesced undos nextGroupId =>
    have hlen : ¬b.undos.length < b'.undos.length := by
      rw [undos, top]
      exact Nat.lt_irrefl _
    have hpast := hi.past
    have hfuture := hi.future
    rw [top] at hpast
    rw [hi.groupOpen groupOpen] at hfuture
    rw [if_neg hlen]
    obtain ⟨past, future, latest⟩ := h
    cases past with
    | nil => exact hpast.elim
    | cons c past =>
    cases future with
    | cons c future => exact hfuture.elim
    | nil =>
    obtain ⟨⟨r₀, x₀, z₀, hlink⟩, hafter, hrest⟩ := hpast
    have hlast : last = r₀ := by
      rw [hlink.records] at getLast
      exact (Option.some.inj getLast).symm
    have hjoin := Link.join hlink he hafter same (hlast ▸ coalesced)
    split
    · -- the text is the same, so the change is
      rename_i hsame
      have hc : ({ c with after := b'.toText } : Change) = c := by
        rw [hsame, ← hafter]
      rw [hc] at hjoin
      refine ⟨⟨he.placed, ?_, ?_, fun _ => he.redos⟩,
        .joined g { g with records := g.records.dropLast ++ [r'] } rest c c past groupOpen top rfl
          rfl undos he.redos rfl rfl nextGroupId⟩
      · rw [undos]
        exact ⟨hjoin, hafter.trans hsame.symm, hrest⟩
      · rw [he.redos, hsame]
        exact hfuture
    · refine ⟨⟨he.placed, ?_, ?_, fun _ => he.redos⟩,
        .joined g { g with records := g.records.dropLast ++ [r'] } rest c _ past groupOpen top rfl
          rfl undos he.redos rfl rfl nextGroupId⟩
      · rw [undos]
        exact ⟨hjoin, rfl, hrest⟩
      · rw [he.redos]
        rfl

/-- what `undo` does -/
lemma Inv.undo (t : CharTable) (hi : Inv first b h) :
    ∃ b', Op.undo.run t b = some b' ∧ (Inv first b' h.back ∧ Effect b h b' h.back) ∧
      ∀ c past, h.past = c :: past → b'.snapshot = c.before := by
  have hpast := hi.past
  obtain ⟨past, future, latest⟩ := h
  cases hu : b.undos with
  | nil =>
    rw [hu] at hpast
    cases past with
    | cons c past => exact hpast.elim
    | nil =>
      refine ⟨{ b with stickyChars := none, groupOpen := false }, ?_, ?_, fun c past e => (by cases e)⟩
      · show (b.undo.map Prod.snd) = _
        unfold EditorBuffer.undo
        rw [hu]
        rfl
      · refine ⟨⟨⟨hi.placed.lines, hi.placed.cursor, hi.placed.anchor⟩, ?_, hi.future, fun e => (by cases e)⟩,
          .kept rfl rfl rfl (fun e => by cases e) rfl⟩
        show Past first b.undos _ _
        rw [hu]
        exact hpast
  | cons g rest =>
    rw [hu] at hpast
    cases past with
    | nil => exact hpast.elim
    | cons c past =>
      obtain ⟨hlink, hafter, hrest⟩ := hpast
      obtain ⟨d, b', hd, hb'⟩ := undo_linked hlink hu (by rw [hafter]; exact hi.placed.lines)
      have hplaced := hb'.placed hlink.cursor hlink.anchor
      refine ⟨b', congrArg (Option.map Prod.snd) hd, ⟨⟨hplaced, ?_, ?_, fun e => ?_⟩,
        .undone g rest c past hu rfl hb'.undos hb'.redos rfl rfl hb'.groupOpen hb'.nextGroupId⟩, ?_⟩
      · rw [hb'.undos, hb'.toText]
        exact hrest
      · rw [hb'.redos, hb'.toText]
        exact ⟨hlink, rfl, hafter ▸ hi.future⟩
      · rw [hb'.groupOpen] at e
        cases e
      · rintro _ _ ⟨⟩
        exact hb'.snapshot

/-- what `redo` does -/
lemma Inv.redo (t : CharTable) (hi : Inv first b h) :
    ∃ b', Op.redo.run t b = some b' ∧ (Inv first b' h.forth ∧ Effect b h b' h.forth) ∧
      ∀ c future, h.future = c :: future → b'.toText = c.after := by
  have hfuture := hi.future
  obtain ⟨past, future, latest⟩ := h
  cases hr : b.redos with
  | nil =>
    rw [hr] at hfuture
    cases future with
    | cons c future => exact hfuture.elim
    | nil =>
      refine ⟨{ b with stickyChars := none, groupOpen := false }, ?_, ?_, fun c future e => (by cases e)⟩
      · show (b.redo.map Prod.snd) = _
        unfold EditorBuffer.redo
        rw [hr]
        rfl
      · refine ⟨⟨⟨hi.placed.lines, hi.placed.cursor, hi.placed.anchor⟩, hi.past, ?_, fun e => (by cases e)⟩,
          .kept rfl rfl rfl (fun e => by cases e) rfl⟩
        show Future latest b.redos _ _
        rw [hr]
        exact hfuture
  | cons g rest =>
    rw [hr] at hfuture
    cases future with
    | nil => exact hfuture.elim
    | cons c future =>
      obtain ⟨hlink, hbefore, hrest⟩ := hfuture
      obtain ⟨d, b', p, hd, hb', hp⟩ := redo_linked hlink hr (by rw [hbefore]; exact hi.placed.lines)
      have hplaced := hb'.placed hp (fun a ha => by cases ha)
      refine ⟨b', congrArg (Option.map Prod.snd) hd, ⟨⟨hplaced, ?_, ?_, fun e => ?_⟩,
        .redone g rest c future hr rfl hb'.undos hb'.redos rfl rfl hb'.groupOpen hb'.nextGroupId⟩, ?_⟩
      · rw [hb'.undos, hb'.toText]
        exact ⟨hlink, rfl, hbefore ▸ hi.past⟩
      · rw [hb'.redos, hb'.toText]
        exact hrest
      · rw [hb'.groupOpen] at e
        cases e
      · rintro _ _ ⟨⟩
        exact hb'.toText

/-- **Every operation keeps the agreement, and none panics.** -/
theorem Inv.step (t : CharTable) {s : EditorBuffer × History} (hi : Inv first s.1 s.2) (op : Op) :
    ∃ s', watch t s op = some s' ∧ Inv first s'.1 s'.2 ∧ Effect s.1 s.2 s'.1 s'.2 := by
  obtain ⟨b, h⟩ := s
  by_cases hu : op = .undo
  · subst hu
    obtain ⟨b', hb', hi', -⟩ := hi.undo t
    refine ⟨(b', h.back), ?_, hi'⟩
    unfold watch
    rw [hb']
    rfl
  by_cases hr : op = .redo
  · subst hr
    obtain ⟨b', hb', hi', -⟩ := hi.redo t
    refine ⟨(b', h.forth), ?_, hi'⟩
    unfold watch
    rw [hb']
    rfl
  obtain ⟨b', hb', hs⟩ := run_cases t hi.placed hu hr
  have hobserve : h.observe b b' op = h.edit b b' := by
    cases op with
    | undo => exact absurd rfl hu
    | redo => exact absurd rfl hr
    | _ => rfl
  refine ⟨(b', h.edit b b'), ?_, ?_⟩
  · unfold watch
    rw [hb', ← hobserve]
    rfl
  · rcases hs with hm | ⟨kind, r, x, z, he⟩
    · rw [hm.edit]
      exact ⟨hi.moved hm, .kept hm.undos hm.redos rfl hm.groupOpen hm.nextGroupId⟩
    · exact hi.edited he

/-- watching changes nothing -/
lemma exec_watch {t : CharTable} {ops : List Op} {h' : History}
    (hb : Transition.exec (watch t) (b, h) ops = some (b', h')) :
    Transition.exec (Op.run t) b ops = some b' := by
  induction ops generalizing b h with
  | nil =>
    cases hb
    rfl
  | cons op ops ih =>
    obtain ⟨s, hs, hrest⟩ := Transition.exec_cons _ hb
    obtain ⟨c, hc, rfl⟩ := Option.map_eq_some_iff.mp hs
    show (Op.run t b op).bind _ = _
    rw [hc]
    exact ih hrest

/-! ## undoing and redoing everything -/

lemma Inv.undo_all (t : CharTable) (hi : Inv first b h) :
    ∃ b₀, Transition.exec (Op.run t) b (List.replicate h.past.length .undo) = some b₀ ∧
      b₀.toText = first ∧ b₀.undos = [] := by
  obtain ⟨past, future, latest⟩ := h
  induction past generalizing b future with
  | nil =>
    have hpast := hi.past
    cases hu : b.undos with
    | nil =>
      rw [hu] at hpast
      exact ⟨b, rfl, hpast, hu⟩
    | cons g rest =>
      rw [hu] at hpast
      exact hpast.elim
  | cons c past ih =>
    obtain ⟨b', hb', ⟨hi', -⟩, -⟩ := hi.undo t
    obtain ⟨b₀, hb₀, hrest⟩ := ih (c :: future) hi'
    refine ⟨b₀, ?_, hrest⟩
    show (Op.run t b .undo).bind _ = _
    rw [hb']
    exact hb₀

lemma Inv.redo_all (t : CharTable) (hi : Inv first b h) :
    ∃ b₁, Transition.exec (Op.run t) b (List.replicate h.future.length .redo) = some b₁ ∧
      b₁.toText = h.latest ∧ b₁.redos = [] := by
  obtain ⟨past, future, latest⟩ := h
  induction future generalizing b past with
  | nil =>
    have hfuture := hi.future
    cases hr : b.redos with
    | nil =>
      rw [hr] at hfuture
      exact ⟨b, rfl, hfuture, hr⟩
    | cons g rest =>
      rw [hr] at hfuture
      exact hfuture.elim
  | cons c future ih =>
    obtain ⟨b', hb', ⟨hi', -⟩, -⟩ := hi.redo t
    obtain ⟨b₁, hb₁, hrest⟩ := ih (c :: past) hi'
    refine ⟨b₁, ?_, hrest⟩
    show (Op.run t b .redo).bind _ = _
    rw [hb']
    exact hb₁

/-- **Undo and redo are a faithful history.** -/
theorem history_faithful (t : CharTable) (text : List Char) (ops : List Op) :
    ∃ b h, Transition.exec (watch t) (fromText text, History.start text) ops = some (b, h) ∧
      -- a group of the buffer for every change of the history
      b.undos.length = h.past.length ∧ b.redos.length = h.future.length ∧
      -- the newest group is undone and redone
      (∀ c past, h.past = c :: past → ∃ b₁, Op.undo.run t b = some b₁ ∧ b₁.snapshot = c.before ∧
        ∃ b₂, Op.redo.run t b₁ = some b₂ ∧ b₂.toText = c.after) ∧
      -- everything is undone, or redone
      (∃ b₀, Transition.exec (Op.run t) b (List.replicate b.undos.length .undo) = some b₀ ∧
        b₀.toText = text ∧ b₀.undos = []) ∧
      ∃ b₁, Transition.exec (Op.run t) b (List.replicate b.redos.length .redo) = some b₁ ∧
        b₁.toText = h.latest ∧ b₁.redos = [] := by
  obtain ⟨⟨b, h⟩, hrun, hi⟩ := Transition.exec_progress (s := (fromText text, History.start text))
    (I := fun s : EditorBuffer × History => Inv text s.1 s.2)
    (fun _ op _ hs => (Inv.step t hs op).imp fun _ hs' => ⟨hs'.1, hs'.2.1⟩) (inv_fromText text)
  refine ⟨b, h, hrun, hi.past.length, hi.future.length, ?_, ?_, ?_⟩
  · rintro c past hc
    obtain ⟨b₁, hb₁, ⟨hi₁, -⟩, hback⟩ := hi.undo t
    obtain ⟨b₂, hb₂, -, hforth⟩ := hi₁.redo t
    refine ⟨b₁, hb₁, hback c past hc, b₂, hb₂, hforth c h.future ?_⟩
    unfold History.back
    rw [hc]
  · rw [hi.past.length]
    exact hi.undo_all t
  · rw [hi.future.length]
    exact hi.redo_all t

end EditorBuffer
end TerminalManager.Editor
