import TerminalManager.Editor.Moves
import TerminalManager.Syntax.Language

/-!
# The scanner

`tokenize_spans` (`src/syntax.rs`): one line becomes coloured runs, in bytes of the line, and a flag
goes from line to line: whether a block comment is open.  Slicing inside of a character panics in the
source; here it gives `none`, and so does a loop that would not end.

* `nextSpan`          the run at an offset, and the flag after it;
* `tokenizeSpans`     the loop;
* `nextSpan_spec`     a run is a piece of the line, not empty;
* `scanFrom_total`, `tokenizeSpans_total`   the loop comes to the end of the line, and without block
  comments none is open there.
-/

namespace TerminalManager.Syntax
open Editor (Line len find sliceFrom slice isWhitespace)

/-- the Unicode tables behind `char::is_alphanumeric` and `char::is_alphabetic` -/
structure Alphabet extends Editor.CharTable where
  isAlphabetic : Char → Bool
  alphabetic : ∀ c, isAlphabetic c = true → isAlphanumeric c = true

/-- the tables, of ASCII only -/
def ascii : Alphabet where
  isAlphanumeric c := c.isAlpha || c.isDigit
  isAlphabetic := Char.isAlpha
  alphabetic c h := by rw [h, Bool.true_or]

inductive TokenKind
  | comment
  | str
  | number
  | keyword
  | ident
  | punct
  | ws
  deriving DecidableEq, Repr

/-- the bytes from `start` on, up to `stop` -/
structure Span where
  start : Nat
  stop : Nat
  kind : TokenKind
  deriving DecidableEq, Repr

/-- adjacent runs of punctuation, or of whitespace, become one -/
def pushSpan (out : List Span) (start stop : Nat) (kind : TokenKind) : List Span :=
  if stop ≤ start then out
  else
    match out.getLast? with
    | some last =>
      if last.kind = kind ∧ last.stop = start ∧ (kind = .punct ∨ kind = .ws) then
        out.dropLast ++ [{ last with stop := stop }]
      else out ++ [⟨start, stop, kind⟩]
    | none => out ++ [⟨start, stop, kind⟩]

/-! ## one run -/

/-- `u8::is_ascii_whitespace` -/
def isAsciiWhitespace (c : Char) : Bool :=
  c = ' ' || c = '\t' || c = '\n' || c = Char.ofNat 12 || c = '\r'

/-- whether a byte is of a number: no byte of a character outside of ASCII is -/
def isNumberByte (c : Char) : Bool := c.isAlphanum || c = '.' || c = '_'

def isWordStart (t : Alphabet) (c : Char) : Bool := t.isAlphabetic c || c = '_' || c = '$'

/-- `-` is of a word in CSS -/
def isWordRest (t : Alphabet) (lang : Language) (c : Char) : Bool :=
  t.isAlphanumeric c || c = '_' || c = '$' || (lang = .css && c = '-')

/-- a string literal after its opening quote, the closing one included -/
def literalRest (quote : Char) : (escaped : Bool) → Line → Line
  | _, [] => []
  | true, c :: l => c :: literalRest quote false l
  | false, c :: l =>
    if c = '\\' then c :: literalRest quote true l
    else if c = quote then [c]
    else c :: literalRest quote false l

/-- where a run ends, its kind, and whether a block comment is open after it -/
structure Run where
  stop : Nat
  kind : TokenKind
  inBlockComment : Bool
  deriving DecidableEq, Repr

/-- a comment, up to the `close` in `text`, which begins at the offset `start`, or to the end of the line -/
def commentRun (line close : Line) (start : Nat) (text : Line) : Run :=
  match find close text with
  | some pos => ⟨start + pos + len close, .comment, false⟩
  | none => ⟨len line, .comment, true⟩

/-- the delimiters of a block comment that opens here -/
def opening (lang : Language) (rest : Line) : Option (Line × Line) :=
  lang.blockComment.filter fun x => x.1.isPrefixOf rest

/-- whether a line comment starts after `before`; the last byte of `before` is whitespace only when its
last character is -/
def lineCommentAt (lang : Language) (before rest : Line) : Bool :=
  match lang.lineCommentPrefix with
  | some marker =>
    (!lang.lineCommentNeedsBoundary || before.getLast?.all isAsciiWhitespace) && marker.isPrefixOf rest
  | none => false

/-- a run that is no comment -/
def codeRun (t : Alphabet) (lang : Language) (line : Line) (i : Nat) (rest : Line) : Option Run :=
  let c := rest.headD ' '
  if c ∈ lang.stringQuotes then some ⟨i + c.utf8Size + len (literalRest c false rest.tail), .str, false⟩
  else if c.isDigit then some ⟨i + len (rest.takeWhile isNumberByte), .number, false⟩
  else if isWordStart t c then do
    let j := i + len (rest.takeWhile (isWordRest t lang))
    let word ← slice line i j
    some ⟨j, if lang.isKeyword word then .keyword else .ident, false⟩
  else if isWhitespace c then some ⟨i + len (rest.takeWhile isWhitespace), .ws, false⟩
  else some ⟨i + c.utf8Size, .punct, false⟩

/-- the run that begins at an offset -/
def nextSpan (t : Alphabet) (lang : Language) (line : Line) (i : Nat) (inBlockComment : Bool) : Option Run := do
  let before ← Editor.sliceTo line i
  let rest ← sliceFrom line i
  if inBlockComment then
    some (commentRun line ((lang.blockComment.map Prod.snd).getD "*/".toList) i rest)
  else
    match opening lang rest with
    | some (opener, close) => do
      let body := i + len opener
      let text ← sliceFrom line body
      some (commentRun line close body text)
    | none =>
      if lineCommentAt lang before rest then some ⟨len line, .comment, false⟩
      else codeRun t lang line i rest

/-! ## the loop -/

/-- the loop, from an offset on; the fuel goes down by one for each run -/
def scanFrom (t : Alphabet) (lang : Language) (line : Line) :
    (fuel i : Nat) → (inBlockComment : Bool) → (out : List Span) → Option (Bool × List Span)
  | 0, _, _, _ => none
  | fuel + 1, i, inBlockComment, out =>
    if len line ≤ i then some (inBlockComment, out)
    else do
      let run ← nextSpan t lang line i inBlockComment
      scanFrom t lang line fuel run.stop run.inBlockComment (pushSpan out i run.stop run.kind)

/-- the indent of a heading -/
def headingIndent (lang : Language) (line : Line) : Option Nat :=
  let text := Editor.EditorBuffer.trimStart line
  if lang = .markdown ∧ text.head? = some '#' then some (len line - len text) else none

/-- the flag after the line, and its runs -/
def tokenizeSpans (t : Alphabet) (lang : Language) (line : Line) (inBlockComment : Bool) :
    Option (Bool × List Span) :=
  if line = [] then some (inBlockComment, [])
  else
    match headingIndent lang line with
    | some indent =>
      some (inBlockComment, pushSpan (pushSpan [] 0 indent .ws) indent (len line) .keyword)
    | none => scanFrom t lang line (len line + 1) 0 inBlockComment []

/-! ## progress -/

section
variable {t : Alphabet} {lang : Language} {line x rest text close opener : Line} {run : Run} {b : Bool}

/-- the run is a piece of the line, not empty, that begins after `x` -/
def Run.Takes (run : Run) (x rest : Line) : Prop :=
  ∃ taken after, rest = taken ++ after ∧ taken ≠ [] ∧ run.stop = len x + len taken

lemma takes_prefix (taken : Line) (h : taken <+: rest) (hne : taken ≠ [])
    (hstop : run.stop = len x + len taken) : run.Takes x rest := by
  obtain ⟨after, rfl⟩ := h
  exact ⟨taken, after, rfl, hne, hstop⟩

lemma takes_rest (hne : rest ≠ []) (hstop : run.stop = len (x ++ rest)) : run.Takes x rest :=
  takes_prefix rest (List.prefix_refl rest) hne (by rw [hstop, Editor.len_append])

lemma blockComment_ne_nil (h : lang.blockComment = some (opener, close)) : opener ≠ [] ∧ close ≠ [] := by
  cases lang <;> cases h <;> exact ⟨by decide, by decide⟩

lemma close_ne_nil (lang : Language) : (lang.blockComment.map Prod.snd).getD "*/".toList ≠ [] := by
  cases h : lang.blockComment with
  | none => decide
  | some d => exact (blockComment_ne_nil h).2

/-- a comment takes its delimiters and what is between them -/
lemma commentRun_takes (x opener text : Line) (hne : opener ++ text ≠ []) (hclose : close ≠ []) :
    (commentRun (x ++ (opener ++ text)) close (len x + len opener) text).Takes x (opener ++ text) := by
  unfold commentRun Editor.find
  cases h : Find.before close text with
  | none => exact takes_rest hne rfl
  | some a =>
    obtain ⟨r, rfl⟩ := Find.before_split h
    refine takes_prefix (opener ++ a ++ close) ⟨r, by simp only [List.append_assoc]⟩ ?_ ?_
    · exact List.append_ne_nil_of_right_ne_nil _ hclose
    · show len x + len opener + len a + len close = _
      rw [Editor.len_append, Editor.len_append]
      omega

lemma literalRest_prefix (quote : Char) (escaped : Bool) (l : Line) : literalRest quote escaped l <+: l := by
  induction l generalizing escaped with
  | nil => rw [literalRest]
  | cons c l ih =>
    cases escaped with
    | true =>
      rw [literalRest]
      exact List.cons_prefix_cons.mpr ⟨rfl, ih false⟩
    | false =>
      rw [literalRest]
      split_ifs
      · exact List.cons_prefix_cons.mpr ⟨rfl, ih true⟩
      · exact List.cons_prefix_cons.mpr ⟨rfl, List.nil_prefix⟩
      · exact List.cons_prefix_cons.mpr ⟨rfl, ih false⟩

/-- a run of one class of characters takes its first one -/
lemma takeWhile_takes {p : Char → Bool} {c : Char} {l : Line} (hc : p c = true)
    (hstop : run.stop = len x + len ((c :: l).takeWhile p)) : run.Takes x (c :: l) := by
  refine takes_prefix _ (List.takeWhile_prefix p) ?_ hstop
  rw [List.takeWhile_cons_of_pos hc]
  exact List.cons_ne_nil _ _

lemma codeRun_takes (t : Alphabet) (lang : Language) (x : Line) (hne : rest ≠ []) :
    ∃ run, codeRun t lang (x ++ rest) (len x) rest = some run ∧ run.Takes x rest ∧
      run.inBlockComment = false := by
  obtain ⟨c, l, rfl⟩ := List.exists_cons_of_ne_nil hne
  unfold codeRun
  rw [List.headD_cons, List.tail_cons]
  dsimp only
  split_ifs with hquote hdigit hword hspace
  · refine ⟨_, rfl, takes_prefix (c :: literalRest c false l) ?_ (List.cons_ne_nil _ _) ?_, rfl⟩
    · exact List.cons_prefix_cons.mpr ⟨rfl, literalRest_prefix c false l⟩
    · show _ + _ + _ = _
      rw [Editor.len_cons, Nat.add_assoc]
  · have hc : isNumberByte c = true := by
      unfold isNumberByte Char.isAlphanum
      rw [hdigit, Bool.or_true]
      rfl
    exact ⟨_, rfl, takeWhile_takes hc rfl, rfl⟩
  · have hc : isWordRest t lang c = true := by
      simp only [isWordStart, Bool.or_eq_true] at hword
      rcases hword with (ha | hu) | hd
      · simp only [isWordRest, t.alphabetic c ha, Bool.true_or]
      · simp only [isWordRest, hu, Bool.or_true, Bool.true_or]
      · simp only [isWordRest, hd, Bool.or_true, Bool.true_or]
    obtain ⟨after, hafter⟩ := List.takeWhile_prefix (isWordRest t lang) (l := c :: l)
    have hslice : slice (x ++ c :: l) (len x) (len x + len ((c :: l).takeWhile (isWordRest t lang))) =
        some ((c :: l).takeWhile (isWordRest t lang)) := by
      have h := Editor.slice_len x ((c :: l).takeWhile (isWordRest t lang)) after
      rw [List.append_assoc, hafter, Editor.len_append] at h
      exact h
    rw [hslice]
    exact ⟨_, rfl, takeWhile_takes hc rfl, rfl⟩
  · exact ⟨_, rfl, takeWhile_takes hspace rfl, rfl⟩
  · refine ⟨_, rfl, takes_prefix [c] ⟨l, rfl⟩ (List.cons_ne_nil _ _) ?_, rfl⟩
    rfl

/-- **Step lemma**: a run is a piece of the line, and without block comments none opens. -/
theorem nextSpan_spec (t : Alphabet) (lang : Language) (x : Line) (hne : rest ≠ []) (b : Bool) :
    ∃ run, nextSpan t lang (x ++ rest) (len x) b = some run ∧ run.Takes x rest ∧
      (lang.blockComment = none → b = false → run.inBlockComment = false) := by
  unfold nextSpan
  rw [Editor.sliceTo_len, Editor.sliceFrom_len]
  simp only [Option.bind_eq_bind, Option.bind_some]
  cases b with
  | true =>
    exact ⟨_, rfl, commentRun_takes x [] rest hne (close_ne_nil lang), fun _ hb => by cases hb⟩
  | false =>
    rw [if_neg Bool.false_ne_true]
    cases ho : opening lang rest with
    | some d =>
      obtain ⟨opener, close⟩ := d
      obtain ⟨hd, hpre⟩ := Option.filter_eq_some_iff.mp ho
      obtain ⟨text, rfl⟩ := List.isPrefixOf_iff_prefix.mp hpre
      have hslice := Editor.sliceFrom_len (x ++ opener) text
      rw [List.append_assoc, Editor.len_append] at hslice
      dsimp only
      rw [hslice]
      refine ⟨_, rfl, commentRun_takes x opener text hne (blockComment_ne_nil hd).2, fun hnone _ => ?_⟩
      rw [hnone] at hd
      cases hd
    | none =>
      dsimp only
      split_ifs
      · exact ⟨_, rfl, takes_rest hne rfl, fun _ _ => rfl⟩
      · obtain ⟨run, hrun, htakes, hflag⟩ := codeRun_takes t lang x hne
        exact ⟨run, hrun, htakes, fun _ _ => hflag⟩

/-- **Run lemma**: with enough fuel the loop comes to the end of the line. -/
theorem scanFrom_total (t : Alphabet) (lang : Language) (x rest : Line) {fuel : Nat} (hfuel : len rest < fuel)
    (b : Bool) (out : List Span) : ∃ r, scanFrom t lang (x ++ rest) fuel (len x) b out = some r ∧
      (lang.blockComment = none → b = false → r.1 = false) := by
  induction fuel generalizing x rest b out with
  | zero => exact absurd hfuel (Nat.not_lt_zero _)
  | succ fuel ih =>
    rw [scanFrom]
    by_cases hend : rest = []
    · subst hend
      rw [List.append_nil, if_pos (Nat.le_refl _)]
      exact ⟨_, rfl, fun _ hb => hb⟩
    have hlen : ¬ len (x ++ rest) ≤ len x := by
      have := Editor.len_pos hend
      rw [Editor.len_append]
      omega
    obtain ⟨run, hrun, ⟨taken, after, rfl, htaken, hstop⟩, hflag⟩ := nextSpan_spec t lang x hend b
    have hpos := Editor.len_pos htaken
    have hafter : len after < fuel := by
      rw [Editor.len_append] at hfuel
      omega
    obtain ⟨r, hr, hr'⟩ := ih (x ++ taken) after hafter run.inBlockComment
      (pushSpan out (len x) run.stop run.kind)
    rw [List.append_assoc, Editor.len_append, ← hstop] at hr
    rw [if_neg hlen, hrun]
    exact ⟨r, hr, fun hnone hb => hr' hnone (hflag hnone hb)⟩

/-- **`tokenize_spans` ends and slices between characters only**; without block comments, none is open
after a line when none is before it. -/
theorem tokenizeSpans_total (t : Alphabet) (lang : Language) (line : Line) (b : Bool) :
    ∃ r, tokenizeSpans t lang line b = some r ∧
      (lang.hasBlockComments = false → b = false → r.1 = false) := by
  unfold tokenizeSpans
  split_ifs
  · exact ⟨_, rfl, fun _ hb => hb⟩
  · cases headingIndent lang line with
    | some indent => exact ⟨_, rfl, fun _ hb => hb⟩
    | none =>
      obtain ⟨r, hr, hflag⟩ := scanFrom_total t lang [] line (Nat.lt_succ_self _) b []
      refine ⟨r, hr, fun hnone hb => hflag ?_ hb⟩
      exact Option.isNone_iff_eq_none.mp (by rw [← Option.not_isSome]; exact congrArg (!·) hnone)

end

end TerminalManager.Syntax
