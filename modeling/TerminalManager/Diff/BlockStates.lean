import TerminalManager.Diff.Builder
import TerminalManager.Syntax.Cache
import Mathlib.Data.List.Chain

/-!
# Comment states of a diff

`block_states` (`src/editor/diff_view.rs`): whether a row of a diff starts inside of a block comment.  A
hunk interleaves two texts, so there are two states, one for each side; a context row is of both.

* `blockStates`          the pass over the rows;
* `SameFile`, `parse_oneFile`   content rows next to each other are of one file;
* `stretch`, `sideState`   the rows since the last one without content, and what one side of them says;
* `blockStates_spec`     the pass, on any rows of which content rows next to each other are of one file;
* `blockStates_exact`    **main result**, for parsed documents.
-/

namespace TerminalManager.Diff
open Editor (Line)
open Syntax (Alphabet Language tokenizeSpans tokenizeSpans_total textOf)

/-! ## the pass -/

/-- the language of the path; the source keeps it beside the path -/
def DiffFileInfo.lang (f : DiffFileInfo) : Language := .fromPath f.path

def langOf (files : List DiffFileInfo) (row : DiffRowInfo) : Language :=
  (files[row.file]?.map DiffFileInfo.lang).getD .plain

/-- the states of the two sides -/
structure Sides where
  old : Bool
  new : Bool
  deriving DecidableEq, Repr

/-- the state after a text -/
def after (t : Alphabet) (lang : Language) (text : Line) (state : Bool) : Option Bool :=
  (tokenizeSpans t lang text state).map Prod.fst

/-- a context row is the same text on both sides: it is tokenized once when they agree -/
def contextRow (t : Alphabet) (lang : Language) (text : Line) (sides : Sides) : Option (Bool × Sides) :=
  if sides.old = sides.new then do
    let new ← after t lang text sides.new
    some (sides.new, ⟨new, new⟩)
  else do
    let new ← after t lang text sides.new
    let old ← after t lang text sides.old
    some (sides.new, ⟨old, new⟩)

/-- a row of the pass: the state that enters it, and the sides after it -/
def enterRow (t : Alphabet) (files : List DiffFileInfo) (sides : Sides) (row : DiffRowInfo) (text : Line) :
    Option (Bool × Sides) :=
  let lang := langOf files row
  if !row.kind.isContent || !lang.hasBlockComments then some (false, ⟨false, false⟩)
  else
    match row.kind with
    | .added => do
      let new ← after t lang text sides.new
      some (sides.new, ⟨sides.old, new⟩)
    | .removed => do
      let old ← after t lang text sides.old
      some (sides.old, ⟨old, sides.new⟩)
    | _ => contextRow t lang text sides

/-- rows and their texts -/
def entries (lines : List Line) (rows : List DiffRowInfo) : List (DiffRowInfo × Line) :=
  rows.mapIdx fun index row => (row, textOf lines index)

/-- the states so far and the sides, after one more row -/
def blockStep (t : Alphabet) (files : List DiffFileInfo) (acc : List Bool × Sides) (e : DiffRowInfo × Line) :
    Option (List Bool × Sides) := do
  let (state, sides) ← enterRow t files acc.2 e.1 e.2
  some (acc.1 ++ [state], sides)

def blockStates (t : Alphabet) (lines : List Line) (rows : List DiffRowInfo) (files : List DiffFileInfo) :
    Option (List Bool) :=
  ((entries lines rows).foldlM (blockStep t files) ([], ⟨false, false⟩)).map Prod.fst

/-- the notice of `mark_output_truncated` -/
def outputCutNotice : Line := "… diff truncated: git produced more output than can be shown".toList

def DiffDocument.markOutputTruncated (d : DiffDocument) : DiffDocument :=
  let d := { d with truncated := true }
  if d.files = [] then d
  else
    let file := min ((d.rows.getLast?.map DiffRowInfo.file).getD 0) (lastFile d.files.length)
    { d with lines := d.lines ++ [outputCutNotice], rows := d.rows ++ [⟨.note, file, none, none⟩] }

/-- the document of `run_diff`, with the notice when the output of git was cut -/
def jobDocument (text : List Char) (cap : Nat) (stdoutTruncated : Bool) : DiffDocument :=
  let document := parseUnifiedDiffWithCap text cap
  if stdoutTruncated then document.markOutputTruncated else document

/-! ## content rows next to each other -/

/-- two content rows of one file -/
def SameFile (r s : DiffRowInfo) : Prop := r.kind.isContent = true → s.kind.isContent = true → r.file = s.file

/-- the rows of `b'` are those of `b` and more, and the content rows among these are of the file `k` -/
def Adds (k : Nat) (b b' : Builder) : Prop :=
  ∃ new, b'.rows = b.rows ++ new ∧ ∀ r ∈ new, r.kind.isContent = true → r.file = k

section
variable {b b' : Builder} {row : DiffRowInfo} {text : Line} {ctx ctx' : FileCtx} {mode : Mode} {k : Nat}

lemma adds_refl (k : Nat) (b : Builder) : Adds k b b :=
  ⟨[], (List.append_nil _).symm, fun _ hr => absurd hr List.not_mem_nil⟩

lemma markTruncated_plain (b : Builder) (file : Nat) :
    ∃ new, (b.markTruncated file).rows = b.rows ++ new ∧ ∀ r ∈ new, r.kind.isContent = false := by
  have hsame : ∃ new, b.rows = b.rows ++ new ∧ ∀ r ∈ new, r.kind.isContent = false :=
    ⟨[], (List.append_nil _).symm, fun _ hr => absurd hr List.not_mem_nil⟩
  unfold Builder.markTruncated
  dsimp only
  split_ifs
  · exact hsame
  · exact hsame
  · exact ⟨[_], rfl, fun r hr => by rw [List.mem_singleton.mp hr]; rfl⟩
  · exact hsame

/-- a row is pushed, or rows without content are -/
lemma push_rows (b : Builder) (row : DiffRowInfo) (text : Line) :
    ∃ new, (b.push row text).1.rows = b.rows ++ new ∧
      (new = [row] ∨ (b.push row text).2 = false ∧ ∀ r ∈ new, r.kind.isContent = false) := by
  rcases push_cases b row text with e | ⟨-, -, e⟩
  · obtain ⟨new, hnew, hplain⟩ := markTruncated_plain b row.file
    rw [e]
    exact ⟨new, hnew, Or.inr ⟨rfl, hplain⟩⟩
  · rw [e]
    exact ⟨[row], rfl, Or.inl rfl⟩

lemma push_adds (h : row.kind.isContent = true → row.file = k) : Adds k b (b.push row text).1 := by
  obtain ⟨new, hnew, rfl | ⟨-, hplain⟩⟩ := push_rows b row text
  · refine ⟨[row], hnew, fun r hr => ?_⟩
    rw [List.mem_singleton.mp hr]
    exact h
  · refine ⟨new, hnew, fun r hr hrc => ?_⟩
    rw [hplain r hr] at hrc
    cases hrc

/-- a parser that goes on in the same section -/
def GoesOn (ctx : FileCtx) (b : Builder) (s : Parser) : Prop :=
  Adds ctx.index b s.doc ∧ ∀ ctx', s.cur = some ctx' → ctx'.index = ctx.index

lemma goesOn_same (h : ctx'.index = ctx.index) : GoesOn ctx b ⟨b, some ctx', mode⟩ := by
  refine ⟨adds_refl _ _, fun c hc => ?_⟩
  cases hc
  exact h

lemma goesOn_push (hrow : row.file = ctx.index) (h : ctx'.index = ctx.index) :
    GoesOn ctx b ⟨(b.push row text).1, some ctx', mode⟩ := by
  refine ⟨push_adds fun _ => hrow, fun c hc => ?_⟩
  cases hc
  exact h

lemma headerLine_goesOn (b : Builder) (ctx : FileCtx) (mode : Mode) (line : Line) :
    GoesOn ctx b (headerLine b ctx mode line) := by
  unfold headerLine
  split
  · exact goesOn_same rfl
  split
  · exact goesOn_same rfl
  split
  · exact goesOn_same rfl
  split
  · exact goesOn_same rfl
  split_ifs
  · exact goesOn_same rfl
  · exact goesOn_same rfl
  · exact goesOn_push rfl rfl
  · exact goesOn_push rfl rfl
  · exact goesOn_same rfl

lemma pushHunk_rows (b : Builder) (ctx : FileCtx) (line : Line) :
    (pushHunk b ctx line).rows = (b.push ⟨.hunkHeader, ctx.index, none, none⟩ line).1.rows := by
  unfold pushHunk
  dsimp only
  rcases push_cases b ⟨.hunkHeader, ctx.index, none, none⟩ line with e | ⟨-, -, e⟩ <;> rw [e]

lemma headLine_goesOn (b : Builder) (ctx : FileCtx) (mode : Mode) (line : Line) :
    GoesOn ctx b (headLine b ctx mode line) := by
  unfold headLine
  split_ifs
  · exact goesOn_push rfl rfl
  · split
    · refine ⟨?_, fun c hc => by cases hc; rfl⟩
      obtain ⟨new, hnew, hfile⟩ : Adds ctx.index b (b.push ⟨.hunkHeader, ctx.index, none, none⟩ line).1 :=
        push_adds fun _ => rfl
      exact ⟨new, by rw [pushHunk_rows, hnew], hfile⟩
    · exact goesOn_same rfl
  · exact headerLine_goesOn b ctx mode line

lemma contentRow_goesOn (b : Builder) (ctx : FileCtx) (o n : Nat) (kind : DiffRowKind) (text : Line) :
    GoesOn ctx b (contentRow b ctx o n kind text) := by
  unfold contentRow
  split <;> exact goesOn_push rfl rfl

lemma bodyLine_goesOn {o n : Nat} {line : Line} {s : Parser} (h : bodyLine b ctx o n line = some s) :
    GoesOn ctx b s := by
  unfold bodyLine at h
  split_ifs at h
  · cases h
    exact goesOn_push rfl rfl
  · split at h
    · cases h
      exact contentRow_goesOn b ctx o n _ _
    · cases h

lemma sectionLine_goesOn (b : Builder) (ctx : FileCtx) (mode : Mode) (line : Line) :
    GoesOn ctx b (sectionLine b ctx mode line) := by
  cases mode with
  | skip => exact goesOn_same rfl
  | outside => exact headLine_goesOn b ctx .outside line
  | header => exact headLine_goesOn b ctx .header line
  | hunk o n =>
    show GoesOn ctx b ((bodyLine b ctx o n line).getD (headLine b ctx .header line))
    cases h : bodyLine b ctx o n line with
    | none => exact headLine_goesOn b ctx .header line
    | some s => exact bodyLine_goesOn h

/-- the invariant of the loop: content rows next to each other are of one file, and if the last row is
one, it is of the current section -/
structure OneFile (s : Parser) : Prop where
  rows : s.doc.rows.IsChain SameFile
  last : ∀ ctx, s.cur = some ctx → ∀ r ∈ s.doc.rows.getLast?, r.kind.isContent = true → r.file = ctx.index

lemma isChain_of_file {new : List DiffRowInfo} (h : ∀ r ∈ new, r.kind.isContent = true → r.file = k) :
    new.IsChain SameFile :=
  (List.pairwise_of_forall_mem_list fun r hr s hs hrc hsc => (h r hr hrc).trans (h s hs hsc).symm).isChain

lemma OneFile.goesOn {s : Parser} (h : OneFile ⟨b, some ctx, mode⟩) (hs : GoesOn ctx b s) : OneFile s := by
  obtain ⟨⟨new, hnew, hfile⟩, hindex⟩ := hs
  constructor
  · rw [hnew]
    refine List.isChain_append.mpr ⟨h.rows, isChain_of_file hfile, fun r hr s hs hrc hsc => ?_⟩
    rw [h.last ctx rfl r hr hrc, hfile s (List.mem_of_mem_head? hs) hsc]
  · intro ctx' hctx r hr hrc
    rw [hindex ctx' hctx]
    rw [hnew] at hr
    rcases List.eq_nil_or_concat new with rfl | ⟨init, e, rfl⟩
    · rw [List.append_nil] at hr
      exact h.last ctx rfl r hr hrc
    · rw [List.concat_eq_append, ← List.append_assoc, List.getLast?_concat] at hr
      cases hr
      refine hfile r ?_ hrc
      rw [List.concat_eq_append]
      exact List.mem_append_right _ (List.mem_singleton_self _)

/-- rows without content go between content rows of any files -/
lemma chain_plain {rows new : List DiffRowInfo} (h : rows.IsChain SameFile)
    (hplain : ∀ r ∈ new, r.kind.isContent = false) : (rows ++ new).IsChain SameFile := by
  refine List.isChain_append.mpr ⟨h, isChain_of_file (k := 0) fun r hr hrc => ?_, fun r _ s hs _ hsc => ?_⟩
  · rw [hplain r hr] at hrc
    cases hrc
  · rw [hplain s (List.mem_of_mem_head? hs)] at hsc
    cases hsc

lemma finishFile_rows (b : Builder) (ctx : Option FileCtx) : (b.finishFile ctx).rows = b.rows := by
  unfold Builder.finishFile
  split
  · rfl
  · split <;> rfl

/-- a row without content is pushed, or the notice is -/
lemma push_plain (b : Builder) (text : Line) (hrow : row.kind.isContent = false) :
    ∃ new, (b.push row text).1.rows = b.rows ++ new ∧ ∀ r ∈ new, r.kind.isContent = false := by
  obtain ⟨new, hnew, rfl | ⟨-, hplain⟩⟩ := push_rows b row text
  · refine ⟨[row], hnew, fun r hr => ?_⟩
    rw [List.mem_singleton.mp hr]
    exact hrow
  · exact ⟨new, hnew, hplain⟩

lemma push_chain (row : DiffRowInfo) (text : Line) (h : b.rows.IsChain SameFile)
    (hrow : row.kind.isContent = false) : (b.push row text).1.rows.IsChain SameFile := by
  obtain ⟨new, hnew, hplain⟩ := push_plain b text hrow
  rw [hnew]
  exact chain_plain h hplain

/-- a new section begins with a row without content -/
lemma beginFile_oneFile (h : b.rows.IsChain SameFile) (start : FileStart) (mode : Mode) :
    OneFile ⟨(b.beginFile start).1, (b.beginFile start).2, mode⟩ := by
  unfold Builder.beginFile
  dsimp only
  have hspacer : (b.pushSpacer (asU32 b.files.length)).1.rows.IsChain SameFile := by
    unfold Builder.pushSpacer
    split_ifs
    · exact h
    · exact push_chain _ _ h rfl
  generalize b.pushSpacer (asU32 b.files.length) = x at hspacer ⊢
  obtain ⟨b', ok⟩ := x
  cases ok with
  | false => exact ⟨hspacer, fun ctx hctx => by cases hctx⟩
  | true =>
    dsimp only at hspacer ⊢
    have hheader := push_chain ⟨.fileHeader, asU32 b.files.length, none, none⟩ [] hspacer rfl
    rcases push_cases b' ⟨.fileHeader, asU32 b.files.length, none, none⟩ [] with e | ⟨-, -, e⟩
    · rw [e] at hheader ⊢
      exact ⟨hheader, fun ctx hctx => by cases hctx⟩
    · rw [e] at hheader ⊢
      refine ⟨hheader, fun ctx _ r hr hrc => ?_⟩
      have hlast : r = ⟨.fileHeader, asU32 b.files.length, none, none⟩ := by
        have hr' : r ∈ (b'.rows ++ [_]).getLast? := hr
        rw [List.getLast?_concat] at hr'
        cases hr'
        rfl
      rw [hlast] at hrc
      cases hrc

/-- **Step lemma** -/
theorem step_oneFile {s : Parser} (h : OneFile s) (line : Line) : OneFile (s.step line).1 := by
  obtain ⟨b, cur, mode⟩ := s
  unfold Parser.step
  cases fileStart line with
  | some start =>
    dsimp only
    have hrows : (b.finishFile cur).rows.IsChain SameFile := by
      rw [finishFile_rows]
      exact h.rows
    have hbegin := beginFile_oneFile hrows start
    generalize (b.finishFile cur).beginFile start = x at hbegin ⊢
    obtain ⟨b', cur'⟩ := x
    cases cur' with
    | none => exact hbegin mode
    | some ctx => exact hbegin .header
  | none =>
    cases cur with
    | none => exact h
    | some ctx => exact h.goesOn (sectionLine_goesOn b ctx mode line)

/-- **Run lemma** -/
theorem run_oneFile {s : Parser} (h : OneFile s) (lines : List Line) : OneFile (s.run lines) := by
  induction lines generalizing s with
  | nil => exact h
  | cons raw rest ih =>
    rw [Parser.run]
    split_ifs
    · exact h
    have hstep := step_oneFile h ((stripSuffix '\r' raw).getD raw)
    generalize s.step ((stripSuffix '\r' raw).getD raw) = x at hstep ⊢
    obtain ⟨s', more⟩ := x
    cases more with
    | true => exact ih hstep
    | false => exact hstep

/-- **Content rows next to each other are of one file**, in every parsed document. -/
theorem parse_oneFile (input : List Char) (cap : Nat) :
    (parseUnifiedDiffWithCap input cap).rows.IsChain SameFile := by
  have hstart : OneFile ⟨.new cap, none, .outside⟩ := ⟨List.IsChain.nil, fun ctx h => by cases h⟩
  show (Builder.finishFile _ _).rows.IsChain SameFile
  rw [finishFile_rows]
  exact (run_oneFile hstart (strLines input)).rows

/-- the notice at the end is no content -/
lemma cut_oneFile {d : DiffDocument} (h : d.rows.IsChain SameFile) :
    d.markOutputTruncated.rows.IsChain SameFile := by
  unfold DiffDocument.markOutputTruncated
  dsimp only
  split_ifs
  · exact h
  · exact chain_plain h fun r hr => by rw [List.mem_singleton.mp hr]; rfl

end

/-! ## the two sides -/

/-- the rows since the last one without content -/
def stretch (es : List (DiffRowInfo × Line)) : List (DiffRowInfo × Line) :=
  es.rtakeWhile fun e => e.1.kind.isContent

def onOld (e : DiffRowInfo × Line) : Bool := e.1.kind ≠ .added
def onNew (e : DiffRowInfo × Line) : Bool := e.1.kind ≠ .removed

/-- the state after some rows, tokenized one after the other from "not in a comment" on -/
def sideState (t : Alphabet) (files : List DiffFileInfo) (es : List (DiffRowInfo × Line)) : Option Bool :=
  es.foldlM (fun state e => after t (langOf files e.1) e.2 state) false

/-- what enters a row: the old side is what enters a removed row, the new side an added or a context row -/
def expected (t : Alphabet) (files : List DiffFileInfo) (es : List (DiffRowInfo × Line)) (row : DiffRowInfo) :
    Option Bool :=
  if !row.kind.isContent then some false
  else sideState t files ((stretch es).filter (if row.kind = .removed then onOld else onNew))

/-- a context row without the shortcut -/
def contextBoth (t : Alphabet) (lang : Language) (text : Line) (sides : Sides) : Option (Bool × Sides) := do
  let new ← after t lang text sides.new
  let old ← after t lang text sides.old
  some (sides.new, ⟨old, new⟩)

section
variable {t : Alphabet} {files : List DiffFileInfo} {es : List (DiffRowInfo × Line)} {e : DiffRowInfo × Line}
  {sides : Sides} {row : DiffRowInfo} {lang : Language}

/-- **The shortcut changes nothing.** -/
theorem contextRow_eq (t : Alphabet) (lang : Language) (text : Line) (sides : Sides) :
    contextRow t lang text sides = contextBoth t lang text sides := by
  obtain ⟨old, new⟩ := sides
  unfold contextRow contextBoth
  dsimp only
  by_cases hsame : old = new
  · subst hsame
    rw [if_pos rfl]
    cases after t lang text old <;> rfl
  · rw [if_neg hsame]

lemma after_total (t : Alphabet) (lang : Language) (text : Line) (state : Bool) :
    ∃ next, after t lang text state = some next ∧
      (lang.hasBlockComments = false → state = false → next = false) := by
  obtain ⟨r, hr, hflat⟩ := tokenizeSpans_total t lang text state
  exact ⟨r.1, by rw [after, hr]; rfl, hflat⟩

lemma sideState_snoc (t : Alphabet) (files : List DiffFileInfo) (es : List (DiffRowInfo × Line))
    (e : DiffRowInfo × Line) :
    sideState t files (es ++ [e]) = (sideState t files es).bind (after t (langOf files e.1) e.2) := by
  unfold sideState
  rw [List.foldlM_append]
  congr 1
  funext state
  exact bind_pure _

/-- a row that is on the side goes on with it -/
lemma side_on {p : DiffRowInfo × Line → Bool} (hp : p e = true) :
    sideState t files ((es ++ [e]).filter p) =
      (sideState t files (es.filter p)).bind (after t (langOf files e.1) e.2) := by
  rw [List.filter_append, List.filter_cons_of_pos hp, List.filter_nil, sideState_snoc]

lemma side_off {p : DiffRowInfo × Line → Bool} (hp : p e = false) :
    sideState t files ((es ++ [e]).filter p) = sideState t files (es.filter p) := by
  rw [List.filter_append, List.filter_cons_of_neg (by rw [hp]; decide), List.filter_nil, List.append_nil]

/-- rows of a language without block comments leave no comment open -/
lemma sideState_flat (h : ∀ e ∈ es, (langOf files e.1).hasBlockComments = false) :
    sideState t files es = some false := by
  induction es using List.reverseRecOn with
  | nil => rfl
  | append_singleton es e ih =>
    obtain ⟨next, hnext, hflat⟩ := after_total t (langOf files e.1) e.2 false
    have hlast := hflat (h e (List.mem_append_right _ (List.mem_singleton_self e))) rfl
    rw [sideState_snoc, ih fun e he => h e (List.mem_append_left _ he), Option.bind_some, hnext, hlast]

/-! ## the pass, on rows -/

/-- what is true after some rows: the states so far are those expected, and the sides are those of the
stretch that goes on -/
structure Tracked (t : Alphabet) (files : List DiffFileInfo) (es : List (DiffRowInfo × Line))
    (acc : List Bool × Sides) : Prop where
  length : acc.1.length = es.length
  states : ∀ i e, es[i]? = some e → acc.1[i]? = expected t files (es.take i) e.1
  old : sideState t files ((stretch es).filter onOld) = some acc.2.old
  new : sideState t files ((stretch es).filter onNew) = some acc.2.new

lemma stretch_snoc (es : List (DiffRowInfo × Line)) (he : e.1.kind.isContent = true) :
    stretch (es ++ [e]) = stretch es ++ [e] :=
  List.rtakeWhile_concat_pos _ _ _ he

lemma stretch_end (es : List (DiffRowInfo × Line)) (he : ¬ e.1.kind.isContent = true) :
    stretch (es ++ [e]) = [] :=
  List.rtakeWhile_concat_neg _ _ _ he

/-- all of a stretch is of the file of the row that goes on with it -/
lemma stretch_file (h : ((es ++ [e]).map Prod.fst).IsChain SameFile) (he : e.1.kind.isContent = true) :
    ∀ x ∈ stretch (es ++ [e]), x.1.file = e.1.file := by
  induction es using List.reverseRecOn generalizing e with
  | nil =>
    intro x hx
    rw [stretch_snoc _ he] at hx
    rw [List.mem_singleton.mp hx]
  | append_singleton es d ih =>
    intro x hx
    rw [stretch_snoc _ he] at hx
    rcases List.mem_append.mp hx with hx | hx
    · rw [List.map_append] at h
      obtain ⟨hes, -, hlast⟩ := List.isChain_append.mp h
      have hd : d.1.kind.isContent = true := by
        by_contra hd
        rw [stretch_end _ hd] at hx
        cases hx
      have hsame : SameFile d.1 e.1 := by
        refine hlast d.1 ?_ e.1 rfl
        rw [List.map_append, List.map_singleton, List.getLast?_concat]
        rfl
      rw [ih hes hd x hx]
      exact hsame hd he
    · rw [List.mem_singleton.mp hx]

/-- one more row -/
lemma Tracked.snoc {acc : List Bool × Sides} (h : Tracked t files es acc) {state : Bool} {sides : Sides}
    (hstate : expected t files es e.1 = some state)
    (hold : sideState t files ((stretch (es ++ [e])).filter onOld) = some sides.old)
    (hnew : sideState t files ((stretch (es ++ [e])).filter onNew) = some sides.new) :
    Tracked t files (es ++ [e]) (acc.1 ++ [state], sides) where
  length := by
    rw [List.length_append, List.length_append, h.length]
    rfl
  states := by
    intro i x hx
    show (acc.1 ++ [state])[i]? = _
    rcases Lines.getElem?_snoc hx with hx | ⟨rfl, rfl⟩
    · have hi := (List.getElem?_eq_some_iff.mp hx).1
      rw [List.getElem?_append_left (by rw [h.length]; exact hi), List.take_append_of_le_length (Nat.le_of_lt hi)]
      exact h.states i x hx
    · rw [List.take_left' rfl, hstate, ← h.length]
      exact List.getElem?_concat_length ..
  old := hold
  new := hnew

/-- **Step lemma** -/
theorem Tracked.step {acc : List Bool × Sides} (h : Tracked t files es acc)
    (hchain : ((es ++ [e]).map Prod.fst).IsChain SameFile) :
    ∃ acc', blockStep t files acc e = some acc' ∧ Tracked t files (es ++ [e]) acc' := by
  by_cases hcontent : e.1.kind.isContent = true
  swap
  · have hnil := stretch_end es hcontent
    rw [Bool.not_eq_true] at hcontent
    refine ⟨(acc.1 ++ [false], ⟨false, false⟩), ?_, h.snoc ?_ ?_ ?_⟩
    · rw [blockStep, enterRow, hcontent]
      rfl
    · rw [expected, hcontent]
      rfl
    · rw [hnil]
      rfl
    · rw [hnil]
      rfl
  have hstretch := stretch_snoc es hcontent
  by_cases hflat : (langOf files e.1).hasBlockComments = false
  · have hall : ∀ x ∈ stretch (es ++ [e]), (langOf files x.1).hasBlockComments = false := by
      intro x hx
      rw [langOf, stretch_file hchain hcontent x hx]
      exact hflat
    have hfilter : ∀ p, sideState t files ((stretch (es ++ [e])).filter p) = some false := fun p =>
      sideState_flat fun x hx => hall x (List.mem_of_mem_filter hx)
    refine ⟨(acc.1 ++ [false], ⟨false, false⟩), ?_, h.snoc ?_ (hfilter _) (hfilter _)⟩
    · rw [blockStep, enterRow, hflat, Bool.not_false, Bool.or_true]
      rfl
    · rw [expected, hcontent]
      refine sideState_flat fun x hx => hall x ?_
      rw [hstretch]
      exact List.mem_append_left _ (List.mem_of_mem_filter hx)
  rw [Bool.not_eq_false] at hflat
  obtain ⟨new, hnew, -⟩ := after_total t (langOf files e.1) e.2 acc.2.new
  obtain ⟨old, hold, -⟩ := after_total t (langOf files e.1) e.2 acc.2.old
  have henter : enterRow t files acc.2 e.1 e.2 = match e.1.kind with
      | .added => some (acc.2.new, ⟨acc.2.old, new⟩)
      | .removed => some (acc.2.old, ⟨old, acc.2.new⟩)
      | _ => some (acc.2.new, ⟨old, new⟩) := by
    rw [enterRow, hcontent, hflat, contextRow_eq, contextBoth, hnew, hold]
    cases e.1.kind <;> rfl
  rw [blockStep, henter]
  cases hkind : e.1.kind with
  | added =>
    refine ⟨_, rfl, h.snoc ?_ ?_ ?_⟩
    · rw [expected, hcontent, hkind]
      exact h.new
    · rw [hstretch, side_off (by rw [onOld, hkind]; rfl), h.old]
    · rw [hstretch, side_on (by rw [onNew, hkind]; rfl), h.new]
      exact hnew
  | removed =>
    refine ⟨_, rfl, h.snoc ?_ ?_ ?_⟩
    · rw [expected, hcontent, hkind]
      exact h.old
    · rw [hstretch, side_on (by rw [onOld, hkind]; rfl), h.old]
      exact hold
    · rw [hstretch, side_off (by rw [onNew, hkind]; rfl), h.new]
  | context =>
    refine ⟨_, rfl, h.snoc ?_ ?_ ?_⟩
    · rw [expected, hcontent, hkind]
      exact h.new
    · rw [hstretch, side_on (by rw [onOld, hkind]; rfl), h.old]
      exact hold
    · rw [hstretch, side_on (by rw [onNew, hkind]; rfl), h.new]
      exact hnew
  | _ =>
    rw [hkind] at hcontent
    cases hcontent

/-- **Run lemma** -/
theorem tracked_run (t : Alphabet) (files : List DiffFileInfo) (hchain : (es.map Prod.fst).IsChain SameFile) :
    ∃ acc, es.foldlM (blockStep t files) ([], ⟨false, false⟩) = some acc ∧ Tracked t files es acc := by
  induction es using List.reverseRecOn with
  | nil => exact ⟨_, rfl, ⟨rfl, fun i e h => (by cases h), rfl, rfl⟩⟩
  | append_singleton es e ih =>
    obtain ⟨acc, hacc, htracked⟩ := ih (by
      rw [List.map_append] at hchain
      exact (List.isChain_append.mp hchain).1)
    obtain ⟨acc', hacc', htracked'⟩ := htracked.step hchain
    refine ⟨acc', ?_, htracked'⟩
    rw [List.foldlM_append, hacc]
    show (blockStep t files acc e).bind pure = some acc'
    rw [hacc']
    rfl

lemma entries_rows (lines : List Line) (rows : List DiffRowInfo) : (entries lines rows).map Prod.fst = rows := by
  refine List.ext_getElem? fun i => ?_
  rw [entries, List.getElem?_map, List.getElem?_mapIdx]
  cases rows[i]? <;> rfl

/-- **The pass, on any rows of which content rows next to each other are of one file.** -/
theorem blockStates_spec (t : Alphabet) (files : List DiffFileInfo) (lines : List Line) {rows : List DiffRowInfo}
    (hchain : rows.IsChain SameFile) :
    ∃ states, blockStates t lines rows files = some states ∧ states.length = rows.length ∧
      ∀ i row, rows[i]? = some row →
        states[i]? = expected t files ((entries lines rows).take i) row := by
  obtain ⟨acc, hacc, htracked⟩ := tracked_run t files
    (show ((entries lines rows).map Prod.fst).IsChain SameFile by rw [entries_rows]; exact hchain)
  have hrows : (entries lines rows).length = rows.length := by
    rw [← List.length_map Prod.fst, entries_rows]
  refine ⟨acc.1, ?_, htracked.length.trans hrows, fun i row hrow => ?_⟩
  · rw [blockStates, hacc]
    rfl
  · exact htracked.states i (row, textOf lines i) (by rw [entries, List.getElem?_mapIdx, hrow]; rfl)

lemma jobDocument_oneFile (text : List Char) (cap : Nat) (stdoutTruncated : Bool) :
    (jobDocument text cap stdoutTruncated).rows.IsChain SameFile := by
  cases stdoutTruncated with
  | true => exact cut_oneFile (parse_oneFile text cap)
  | false => exact parse_oneFile text cap

/-- **Comment states of a parsed diff.**  An added or a context row is entered in the state after the added
and context rows since the last row without content, and a removed row in the state after the removed and
context rows; the shortcut of a context row never changes what the pass does. -/
theorem blockStates_exact (t : Alphabet) (text : List Char) (cap : Nat) (stdoutTruncated : Bool) :
    let d := jobDocument text cap stdoutTruncated
    let since i := stretch ((entries d.lines d.rows).take i)
    ∃ states, blockStates t d.lines d.rows d.files = some states ∧ states.length = d.rows.length ∧
      (∀ i row, d.rows[i]? = some row →
        (row.kind = .added ∨ row.kind = .context →
          states[i]? = sideState t d.files ((since i).filter onNew)) ∧
        (row.kind = .removed → states[i]? = sideState t d.files ((since i).filter onOld))) ∧
      ∀ lang line sides, contextRow t lang line sides = contextBoth t lang line sides := by
  intro d since
  obtain ⟨states, hstates, hlen, hrows⟩ :=
    blockStates_spec t d.files d.lines (jobDocument_oneFile text cap stdoutTruncated)
  refine ⟨states, hstates, hlen, fun i row hrow => ⟨fun hkind => ?_, fun hkind => ?_⟩, contextRow_eq t⟩
  · rw [hrows i row hrow, expected]
    rcases hkind with hkind | hkind <;> rw [hkind] <;> rfl
  · rw [hrows i row hrow, expected, hkind]
    rfl

end

end TerminalManager.Diff
