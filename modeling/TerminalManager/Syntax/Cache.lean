import TerminalManager.Editor.Damage
import TerminalManager.Syntax.Scanner

/-!
# The cache of comment states

`SyntaxCache` (`src/editor/highlight.rs`): whether a line starts inside of a block comment, for the
lines from the first one on, as far as somebody painted.  `EditorPane::apply` cuts it at the first line
that an edit damaged.

* `entering`, `documentSpans`   what the cache is for: the document tokenized from its first line on;
* `Coherent`                 every entry is the state that enters its line;
* `stateAt_spec`, `spansFor_spec`   painting keeps the cache coherent and gives the document's spans;
* `Coherent.edited`          so does an edit, when its hint spares the lines before it;
* `cache_coherent`           **main result**, over runs of edits and paintings in any order;
* `cache_plain`              plain text has no spans.
-/

namespace TerminalManager.Syntax
open Editor (Line CharTable Damage EditorBuffer Op)

/-! ## the cache -/

structure SyntaxCache where
  lang : Language
  states : List Bool
  validLen : Nat
  deriving DecidableEq, Repr

/-- `buffer.line(line).unwrap_or("")` -/
def textOf (lines : List Line) (line : Nat) : Line := (lines[line]?).getD []

namespace SyntaxCache

def new (lang : Language) : SyntaxCache := ⟨lang, [], 0⟩

def isActive (c : SyntaxCache) : Bool := c.lang ≠ .plain

def invalidateFrom (c : SyntaxCache) (line : Nat) : SyntaxCache :=
  let validLen := min c.validLen line
  { c with validLen := validLen, states := c.states.take validLen }

/-- what `apply` does with the hint of an edit: the cache is cut when something was damaged -/
def afterEdit (c : SyntaxCache) (damage : Damage) : SyntaxCache :=
  match damage.first with
  | some line => c.invalidateFrom line
  | none => c

/-- one more entry -/
def push (c : SyntaxCache) (state : Bool) : SyntaxCache :=
  { c with states := c.states ++ [state], validLen := c.validLen + 1 }

/-- the entry for the first line -/
def seed (c : SyntaxCache) : SyntaxCache :=
  if c.states = [] then { c with states := [false], validLen := 1 } else c

/-- the loop of `state_at`, which goes round `n` times -/
def extend (t : Alphabet) (lines : List Line) (c : SyntaxCache) : Nat → Option SyntaxCache
  | 0 => some c
  | n + 1 => do
    let idx := c.validLen - 1
    let state ← c.states[idx]?
    let (state, _) ← tokenizeSpans t c.lang (textOf lines idx) state
    (c.push state).extend t lines n

def stateAt (t : Alphabet) (lines : List Line) (c : SyntaxCache) (line : Nat) : Option (SyntaxCache × Bool) :=
  if !c.lang.hasBlockComments then some (c, false)
  else if line < c.validLen then (c.states[line]?).map fun state => (c, state)
  else do
    let c ← c.seed.extend t lines (line + 1 - c.seed.validLen)
    let state ← c.states[line]?
    some (c, state)

def spansFor (t : Alphabet) (lines : List Line) (c : SyntaxCache) (line : Nat) :
    Option (SyntaxCache × List Span) :=
  if !c.isActive || lines.length ≤ line then some (c, [])
  else do
    let (c, state) ← c.stateAt t lines line
    let (state, spans) ← tokenizeSpans t c.lang (textOf lines line) state
    some (if c.validLen = line + 1 then c.push state else c, spans)

end SyntaxCache

/-! ## the pane -/

/-- the buffer of a pane and its cache -/
structure EditorPane where
  buffer : EditorBuffer
  cache : SyntaxCache
  deriving DecidableEq, Repr

inductive PaneEvent
  | apply (op : Op)
  /-- `spans_for`, for a line of the viewport -/
  | paint (line : Nat)
  deriving DecidableEq, Repr

def EditorPane.apply (t : CharTable) (pane : EditorPane) (op : Op) : Option EditorPane := do
  let (damage, buffer) ← op.effect t pane.buffer
  some ⟨buffer, pane.cache.afterEdit damage⟩

def EditorPane.step (t : Alphabet) (pane : EditorPane) : PaneEvent → Option EditorPane
  | .apply op => pane.apply t.toCharTable op
  | .paint line => (pane.cache.spansFor t pane.buffer.lines line).map fun x => ⟨pane.buffer, x.1⟩

/-! ## the document -/

/-- the state that enters a line: the lines before it, tokenized from the first one on -/
def entering (t : Alphabet) (lang : Language) (lines : List Line) : Nat → Option Bool
  | 0 => some false
  | n + 1 => do
    let state ← entering t lang lines n
    let (state, _) ← tokenizeSpans t lang (textOf lines n) state
    some state

/-- the spans of a line of the document -/
def documentSpans (t : Alphabet) (lang : Language) (lines : List Line) (line : Nat) : Option (List Span) := do
  let state ← entering t lang lines line
  let (_, spans) ← tokenizeSpans t lang (textOf lines line) state
  some spans

section
variable {t : Alphabet} {lang : Language} {lines lines' : List Line} {c : SyntaxCache}

/-- without block comments the state is always the same -/
lemma entering_flat (t : Alphabet) (lines : List Line) (h : lang.hasBlockComments = false) (n : Nat) :
    entering t lang lines n = some false := by
  induction n with
  | zero => rfl
  | succ n ih =>
    obtain ⟨⟨state, spans⟩, hr, hstate⟩ := tokenizeSpans_total t lang (textOf lines n) false
    have hfalse : state = false := hstate h rfl
    rw [entering, ih]
    simp only [Option.bind_eq_bind, Option.bind_some, hr, hfalse]

/-- the state that enters a line depends on the lines before it only -/
lemma entering_congr {n : Nat} (h : ∀ i < n, lines'[i]? = lines[i]?) :
    entering t lang lines' n = entering t lang lines n := by
  induction n with
  | zero => rfl
  | succ n ih =>
    have htext : textOf lines' n = textOf lines n := congrArg (·.getD []) (h n (Nat.lt_succ_self n))
    rw [entering, entering, ih fun i hi => h i (Nat.lt_succ_of_lt hi), htext]

/-! ## coherence -/

/-- every entry is the state that enters its line -/
structure Coherent (t : Alphabet) (lang : Language) (lines : List Line) (c : SyntaxCache) : Prop where
  language : c.lang = lang
  length : c.states.length = c.validLen
  states : ∀ n state, c.states[n]? = some state → entering t lang lines n = some state

lemma coherent_new (t : Alphabet) (lang : Language) (lines : List Line) : Coherent t lang lines (.new lang) where
  language := rfl
  length := rfl
  states := by
    intro n state h
    cases h

lemma Coherent.push (h : Coherent t lang lines c) {state : Bool}
    (hs : entering t lang lines c.validLen = some state) : Coherent t lang lines (c.push state) where
  language := h.language
  length := by
    show (c.states ++ [state]).length = c.validLen + 1
    rw [List.length_append, h.length]
    rfl
  states := by
    intro n s hn
    rcases Lines.getElem?_snoc hn with hn | ⟨rfl, rfl⟩
    · exact h.states n s hn
    · rw [h.length]
      exact hs

/-- the first line is not in a comment -/
lemma Coherent.seed (h : Coherent t lang lines c) (n : Nat) (hle : c.validLen ≤ n) (hn : 0 < n) :
    Coherent t lang lines c.seed ∧ 0 < c.seed.validLen ∧ c.seed.validLen ≤ n := by
  unfold SyntaxCache.seed
  by_cases hnil : c.states = []
  · rw [if_pos hnil]
    refine ⟨⟨h.language, rfl, fun n state hn => ?_⟩, Nat.one_pos, hn⟩
    obtain ⟨hlt, rfl⟩ := List.getElem?_eq_some_iff.mp hn
    have hzero : n = 0 := Nat.lt_one_iff.mp hlt
    subst hzero
    rfl
  · rw [if_neg hnil]
    have hpos := List.length_pos_iff.mpr hnil
    rw [h.length] at hpos
    exact ⟨h, hpos, hle⟩

/-- **Step lemma**: going round the loop adds the state that enters the next line. -/
theorem extend_spec (n : Nat) (h : Coherent t lang lines c) (hpos : 0 < c.validLen) :
    ∃ c', c.extend t lines n = some c' ∧ Coherent t lang lines c' ∧ c'.validLen = c.validLen + n := by
  induction n generalizing c with
  | zero => exact ⟨c, rfl, h, rfl⟩
  | succ n ih =>
    have hlast : c.validLen - 1 < c.states.length := by
      rw [h.length]
      omega
    obtain ⟨state, hstate⟩ : ∃ state, c.states[c.validLen - 1]? = some state :=
      ⟨_, List.getElem?_eq_getElem hlast⟩
    obtain ⟨⟨next, spans⟩, hnext, -⟩ := tokenizeSpans_total t lang (textOf lines (c.validLen - 1)) state
    have henter : entering t lang lines c.validLen = some next := by
      have hsucc : c.validLen = c.validLen - 1 + 1 := by omega
      rw [hsucc, entering, h.states _ _ hstate]
      simp only [Option.bind_eq_bind, Option.bind_some, hnext]
    obtain ⟨c', hc', hcoh, hlen⟩ := ih (h.push henter) (Nat.succ_pos _)
    refine ⟨c', ?_, hcoh, ?_⟩
    · rw [SyntaxCache.extend]
      simp only [Option.bind_eq_bind, hstate, Option.bind_some, h.language, hnext]
      exact hc'
    · rw [hlen]
      show c.validLen + 1 + n = c.validLen + (n + 1)
      omega

theorem stateAt_spec (h : Coherent t lang lines c) (line : Nat) :
    ∃ c' state, c.stateAt t lines line = some (c', state) ∧ Coherent t lang lines c' ∧
      entering t lang lines line = some state := by
  unfold SyntaxCache.stateAt
  rw [h.language]
  by_cases hflat : lang.hasBlockComments = false
  · rw [if_pos (by rw [hflat]; rfl)]
    exact ⟨c, false, rfl, h, entering_flat t lines hflat line⟩
  rw [Bool.not_eq_false] at hflat
  rw [if_neg (by rw [hflat]; decide)]
  by_cases hvalid : line < c.validLen
  · obtain ⟨state, hstate⟩ : ∃ state, c.states[line]? = some state :=
      ⟨_, List.getElem?_eq_getElem (h.length ▸ hvalid)⟩
    rw [if_pos hvalid, hstate]
    exact ⟨c, state, rfl, h, h.states _ _ hstate⟩
  rw [if_neg hvalid]
  obtain ⟨hseed, hpos, hle⟩ := h.seed (line + 1) (by omega) (Nat.succ_pos line)
  obtain ⟨c', hc', hcoh, hlen⟩ := extend_spec (line + 1 - c.seed.validLen) hseed hpos
  have hline : line < c'.states.length := by
    rw [hcoh.length, hlen]
    omega
  simp only [Option.bind_eq_bind, hc', Option.bind_some, List.getElem?_eq_getElem hline]
  exact ⟨c', _, rfl, hcoh, hcoh.states _ _ (List.getElem?_eq_getElem hline)⟩

/-- **`spans_for`** keeps the cache coherent and gives the document's spans. -/
theorem spansFor_spec (h : Coherent t lang lines c) (line : Nat) :
    ∃ c' spans, c.spansFor t lines line = some (c', spans) ∧ Coherent t lang lines c' ∧
      (lang ≠ .plain → documentSpans t lang lines line = some spans) := by
  unfold SyntaxCache.spansFor
  by_cases hoff : (!c.isActive || lines.length ≤ line) = true
  · rw [if_pos hoff]
    refine ⟨c, [], rfl, h, fun hlang => ?_⟩
    have hactive : c.isActive = true := by
      rw [SyntaxCache.isActive, h.language]
      exact decide_eq_true hlang
    rw [hactive] at hoff
    have hend : lines.length ≤ line := of_decide_eq_true hoff
    obtain ⟨-, state, -, -, henter⟩ := stateAt_spec h line
    have htext : textOf lines line = [] := by
      rw [textOf, List.getElem?_eq_none hend]
      rfl
    rw [documentSpans, henter, htext]
    rfl
  · rw [if_neg hoff]
    obtain ⟨c', state, hc', hcoh, henter⟩ := stateAt_spec h line
    obtain ⟨⟨next, spans⟩, hnext, -⟩ := tokenizeSpans_total t lang (textOf lines line) state
    simp only [Option.bind_eq_bind, hc', Option.bind_some, hcoh.language, hnext]
    refine ⟨_, spans, rfl, ?_, fun _ => ?_⟩
    · by_cases hnew : c'.validLen = line + 1
      · rw [if_pos hnew]
        refine hcoh.push ?_
        rw [hnew, entering, henter]
        simp only [Option.bind_eq_bind, Option.bind_some, hnext]
      · rw [if_neg hnew]
        exact hcoh
    · rw [documentSpans, henter]
      simp only [Option.bind_eq_bind, Option.bind_some, hnext]

/-- the entries up to a line depend on the lines before it only -/
lemma Coherent.cut (h : Coherent t lang lines c) {line : Nat} (hspare : ∀ i < line, lines'[i]? = lines[i]?) :
    Coherent t lang lines' (c.invalidateFrom line) where
  language := h.language
  length := by
    show (c.states.take (min c.validLen line)).length = min c.validLen line
    rw [List.length_take, h.length]
    omega
  states := by
    intro n state hn
    have hlt : n < min c.validLen line := by
      have := (List.getElem?_eq_some_iff.mp hn).1
      rw [show (c.invalidateFrom line).states = c.states.take (min c.validLen line) from rfl,
        List.length_take] at this
      omega
    have hn' : c.states[n]? = some state := by
      rw [← hn]
      exact (List.getElem?_take_of_lt hlt).symm
    rw [entering_congr fun i hi => hspare i (by omega)]
    exact h.states n state hn'

/-- **An edit cuts the cache where its hint says.** -/
theorem Coherent.edited (h : Coherent t lang lines c) {damage : Damage} (hspare : damage.Spares lines lines') :
    Coherent t lang lines' (c.afterEdit damage) := by
  unfold SyntaxCache.afterEdit
  cases hd : damage.first with
  | none =>
    have hsame : lines' = lines := (Editor.spares_none hd).mp hspare
    subst hsame
    exact h
  | some line => exact h.cut ((Editor.spares_first hd).mp hspare)

end

/-! ## runs -/

section
variable {t : Alphabet} {lang : Language}

/-- what every step of a pane keeps -/
def Kept (t : Alphabet) (lang : Language) (text : List Char) (pane : EditorPane) : Prop :=
  (∃ h, Editor.EditorBuffer.Inv text pane.buffer h) ∧ Coherent t lang pane.buffer.lines pane.cache

/-- **Step lemma**: no edit and no painting panics, and the cache stays coherent. -/
theorem Kept.step {text : List Char} {pane : EditorPane} (hk : Kept t lang text pane) (event : PaneEvent) :
    ∃ pane', pane.step t event = some pane' ∧ Kept t lang text pane' := by
  obtain ⟨⟨h, hinv⟩, hcoh⟩ := hk
  cases event with
  | apply op =>
    obtain ⟨⟨b', h'⟩, hwatch, hinv', -⟩ :=
      Editor.EditorBuffer.Inv.step t.toCharTable (s := (pane.buffer, h)) hinv op
    obtain ⟨b, hrun, hb⟩ := Option.map_eq_some_iff.mp hwatch
    cases hb
    rw [← Editor.effect_run] at hrun
    obtain ⟨⟨damage, b⟩, heffect, rfl⟩ := Option.map_eq_some_iff.mp hrun
    have hspare := Editor.effect_spares t.toCharTable hinv.placed op damage b heffect
    refine ⟨⟨b, pane.cache.afterEdit damage⟩, ?_, ⟨_, hinv'⟩, hcoh.edited hspare⟩
    show pane.apply t.toCharTable op = _
    unfold EditorPane.apply
    rw [heffect]
    rfl
  | paint line =>
    obtain ⟨c', spans, hspans, hcoh', -⟩ := spansFor_spec hcoh line
    refine ⟨⟨pane.buffer, c'⟩, ?_, ⟨h, hinv⟩, hcoh'⟩
    show Option.map _ _ = _
    rw [hspans]
    rfl

/-- **The cache is coherent.**  After edits and paintings in any order, whatever line is painted next, its
spans are those of the document tokenized from the first line on. -/
theorem cache_coherent (t : Alphabet) (lang : Language) (hlang : lang ≠ .plain) (text : List Char)
    (events : List PaneEvent) :
    ∃ pane, Transition.exec (EditorPane.step t) ⟨.fromText text, .new lang⟩ events = some pane ∧
      ∀ line, ∃ cache spans, pane.cache.spansFor t pane.buffer.lines line = some (cache, spans) ∧
        documentSpans t lang pane.buffer.lines line = some spans := by
  have hstart : Kept t lang text ⟨.fromText text, .new lang⟩ :=
    ⟨⟨_, Editor.EditorBuffer.inv_fromText text⟩, coherent_new t lang _⟩
  obtain ⟨pane, hrun, -, hcoh⟩ := Transition.exec_progress (I := Kept t lang text)
    (fun _ event (_ : event ∈ events) hk => hk.step event) hstart
  refine ⟨pane, hrun, fun line => ?_⟩
  obtain ⟨cache, spans, hspans, -, hdoc⟩ := spansFor_spec hcoh line
  exact ⟨cache, spans, hspans, hdoc hlang⟩

/-- a comment that is opened above a painted line, painted again, and undone -/
theorem cache_coherent_rust : ∃ pane,
    Transition.exec (EditorPane.step ascii) ⟨.fromText "a\nb */ c".toList, .new .rust⟩
      [.paint 1, .apply (.insertTyped "/*".toList), .paint 1, .apply .undo] = some pane ∧
    ∀ line, ∃ cache spans, pane.cache.spansFor ascii pane.buffer.lines line = some (cache, spans) ∧
      documentSpans ascii .rust pane.buffer.lines line = some spans :=
  cache_coherent ascii .rust (by decide) _ _

/-- **Plain text** has no spans in the pane, though the scanner would find some. -/
theorem cache_plain : ¬∀ (t : Alphabet) (lang : Language) (text : List Char) (events : List PaneEvent),
    ∃ pane, Transition.exec (EditorPane.step t) ⟨.fromText text, .new lang⟩ events = some pane ∧
      ∀ line, ∃ cache spans, pane.cache.spansFor t pane.buffer.lines line = some (cache, spans) ∧
        documentSpans t lang pane.buffer.lines line = some spans := by
  intro h
  obtain ⟨pane, hrun, hspans⟩ := h ascii .plain ['x'] []
  cases hrun
  obtain ⟨cache, spans, hpane, hdoc⟩ := hspans 0
  have hnone : spans = [] := by
    cases hpane
    rfl
  have hsome : documentSpans ascii .plain (EditorBuffer.fromText ['x']).lines 0 = some [⟨0, 1, .ident⟩] := by
    decide
  rw [hsome, hnone] at hdoc
  cases hdoc

end

end TerminalManager.Syntax
