import TerminalManager.Editor.Moves

/-!
# In-file search

`search` (`src/editor/find.rs`): all matches of a query, line by line, up to a cap.  Without regard to
case, a line is scanned in lower case, and as it is when that has another number of bytes.

* `scanLine`, `search`    the loops;
* `scanLine_spec`, `searchFrom_spec`   what they report: on each line one occurrence after the other;
* `Steady`, `lowered_split`   lines whose characters keep their bytes, and their offsets;
* `search_exact`          **main result**;
* `search_incomplete`     a line that is scanned as it is.
-/

namespace TerminalManager.Editor
open Lines

/-- the Unicode tables behind `char::to_lowercase` and `str::to_lowercase` -/
structure CaseTable where
  toLowercase : Char → List Char
  isCased : Char → Bool
  isCaseIgnorable : Char → Bool
  toLowercase_ne_nil : ∀ c, toLowercase c ≠ []

/-! ## lower case -/

/-- every character on its own, as `search` does with a line -/
def lowered (t : CaseTable) (l : Line) : Line := l.flatMap t.toLowercase

/-- `case_ignorable_then_cased` -/
def ignorableThenCased (t : CaseTable) (l : Line) : Bool := (l.dropWhile t.isCaseIgnorable).head?.any t.isCased

/-- the rest of a string in lower case, after `before`, which is in reverse; a capital sigma at the end of a
word has a form of its own -/
def strLowerFrom (t : CaseTable) : (before : Line) → Line → Line
  | _, [] => []
  | before, c :: l =>
    (if c = 'Σ' then [if ignorableThenCased t before && !ignorableThenCased t l then 'ς' else 'σ']
      else t.toLowercase c) ++ strLowerFrom t (c :: before) l

/-- `str::to_lowercase` -/
def strToLowercase (t : CaseTable) (s : Line) : Line := strLowerFrom t [] s

/-! ## the search -/

/-- the bytes from `start` on, up to `stop`, of a line -/
structure Match where
  line : Nat
  start : Nat
  stop : Nat
  deriving DecidableEq, Repr

def maxMatches : Nat := 10000

/-- the loop over one line; the fuel goes down by one for each match, and the flag says that the cap cut
the list -/
def scanLine (line : Nat) (scan needle : Line) :
    (fuel start : Nat) → (out : List Match) → Option (List Match × Bool)
  | 0, _, _ => none
  | fuel + 1, start, out => do
    let rest ← sliceFrom scan start
    match find needle rest with
    | none => some (out, false)
    | some found =>
      let stop := start + found + len needle
      let out := out ++ [⟨line, start + found, stop⟩]
      if maxMatches ≤ out.length then some (out, true)
      else if len scan < stop then some (out, false)
      else scanLine line scan needle fuel stop out

/-- whether the offsets in the text that is scanned are offsets in the line -/
def offsetsValid (t : CaseTable) (caseSensitive : Bool) (line : Line) : Bool :=
  caseSensitive || len (lowered t line) = len line

/-- what is scanned for a line, and what for -/
def scanned (t : CaseTable) (query : Line) (caseSensitive : Bool) (line : Line) : Line × Line :=
  let needle := if caseSensitive then query else strToLowercase t query
  let text := if caseSensitive then line else lowered t line
  if offsetsValid t caseSensitive line then (text, needle) else (line, query)

/-- the loop over the lines -/
def searchFrom (t : CaseTable) (query : Line) (caseSensitive : Bool) :
    (lines : List Line) → (index : Nat) → (out : List Match) → Option (List Match × Bool)
  | [], _, out => some (out, false)
  | line :: lines, index, out => do
    let (scan, needle) := scanned t query caseSensitive line
    let (out, capped) ← scanLine index scan needle (len scan + 1) 0 out
    if capped then some (out, true) else searchFrom t query caseSensitive lines (index + 1) out

def search (t : CaseTable) (b : EditorBuffer) (query : Line) (caseSensitive : Bool) : Option (List Match × Bool) :=
  if query = [] then some ([], false) else searchFrom t query caseSensitive b.lines 0 []

/-! ## one line -/

section
variable {t : CaseTable} {query l needle rest : Line} {caseSensitive : Bool} {fuel : Nat}

/-- the matches that begin at some offsets -/
def matchesAt (line : Nat) (needle : Line) (offsets : List Nat) : List Match :=
  offsets.map fun s => ⟨line, s, s + len needle⟩

/-- **The loop over a line** reports one occurrence after the other, all of them when the cap does not
cut the list. -/
theorem scanLine_spec (line : Nat) (x : Line) (hneedle : needle ≠ []) (hfuel : len rest < fuel)
    (out : List Match) :
    ∃ bs r capped, scanLine line (x ++ rest) needle fuel (len x) out =
        some (out ++ matchesAt line needle (Find.starts Char.utf8Size needle (len x) bs), capped) ∧
      Find.Cuts needle rest bs r ∧ (capped = false → Find.before needle r = none) := by
  induction fuel generalizing x rest out with
  | zero => exact absurd hfuel (Nat.not_lt_zero _)
  | succ fuel ih =>
    rw [scanLine, sliceFrom_len]
    simp only [Option.bind_eq_bind, Option.bind_some]
    cases h : Find.before needle rest with
    | none =>
      rw [find, h]
      exact ⟨[], rest, false, by rw [Find.starts, matchesAt, List.map_nil, List.append_nil]; rfl,
        .nil rest, fun _ => h⟩
    | some b =>
      obtain ⟨r, rfl⟩ := Find.before_split h
      rw [find, h]
      simp only [Option.map_some]
      have hstop : len x + len b + len needle = len (x ++ b ++ needle) := by
        rw [len_append, len_append]
      by_cases hcap : maxMatches ≤ (out ++ [(⟨line, len x + len b, len x + len b + len needle⟩ : Match)]).length
      · rw [if_pos hcap]
        exact ⟨[b], r, true, rfl, .cons h (.nil r), fun hf => by cases hf⟩
      rw [if_neg hcap]
      have hend : ¬ len (x ++ (b ++ needle ++ r)) < len x + len b + len needle := by
        simp only [len_append]
        omega
      rw [if_neg hend]
      have hpos := len_pos hneedle
      have hfuel' : len r < fuel := by
        simp only [len_append] at hfuel
        omega
      obtain ⟨bs, r', capped, hrun, hcuts, hdone⟩ := @ih r (x ++ b ++ needle) hfuel'
        (out ++ [⟨line, len x + len b, len x + len b + len needle⟩])
      refine ⟨b :: bs, r', capped, ?_, .cons h hcuts, hdone⟩
      have hline : x ++ b ++ needle ++ r = x ++ (b ++ needle ++ r) := by simp only [List.append_assoc]
      rw [hline, ← hstop] at hrun
      rw [hrun, List.append_assoc]
      rfl

/-! ## lines in lower case -/

lemma lowered_append (t : CaseTable) (a b : Line) : lowered t (a ++ b) = lowered t a ++ lowered t b :=
  List.flatMap_append

lemma lowered_cons (t : CaseTable) (c : Char) (l : Line) : lowered t (c :: l) = t.toLowercase c ++ lowered t l :=
  List.flatMap_cons

lemma strLowerFrom_ne_nil (t : CaseTable) (before : Line) (h : query ≠ []) : strLowerFrom t before query ≠ [] := by
  obtain ⟨c, l, rfl⟩ := List.exists_cons_of_ne_nil h
  rw [strLowerFrom]
  refine List.append_ne_nil_of_left_ne_nil ?_ _
  split_ifs
  · exact List.cons_ne_nil _ _
  · exact List.cons_ne_nil _ _
  · exact t.toLowercase_ne_nil c

/-- every character becomes one character of as many bytes -/
def KeepsBytes (t : CaseTable) (l : Line) : Prop :=
  ∀ c ∈ l, ∃ d, t.toLowercase c = [d] ∧ d.utf8Size = c.utf8Size

lemma KeepsBytes.len_lowered (h : KeepsBytes t l) : len (lowered t l) = len l := by
  induction l with
  | nil => rfl
  | cons c l ih =>
    obtain ⟨d, hd, hsize⟩ := h c List.mem_cons_self
    rw [lowered_cons, hd, List.singleton_append, len_cons, len_cons, hsize,
      ih fun x hx => h x (List.mem_cons_of_mem c hx)]

/-- where the line in lower case is cut, the line is -/
lemma KeepsBytes.split (h : KeepsBytes t l) {a r : Line} (hl : lowered t l = a ++ r) :
    ∃ x y, l = x ++ y ∧ lowered t x = a ∧ lowered t y = r := by
  induction l generalizing a with
  | nil =>
    obtain ⟨rfl, rfl⟩ := List.append_eq_nil_iff.mp hl.symm
    exact ⟨[], [], rfl, rfl, rfl⟩
  | cons c l ih =>
    cases a with
    | nil => exact ⟨[], c :: l, rfl, rfl, hl⟩
    | cons e a =>
      obtain ⟨d, hd, -⟩ := h c List.mem_cons_self
      rw [lowered_cons, hd, List.singleton_append, List.cons_append] at hl
      obtain ⟨rfl, htail⟩ := List.cons.inj hl
      obtain ⟨x, y, rfl, hx, hy⟩ := ih (fun x hx => h x (List.mem_cons_of_mem c hx)) htail
      exact ⟨c :: x, y, rfl, by rw [lowered_cons, hd, hx]; rfl, hy⟩

/-- **An occurrence in the line in lower case is one in the line**, at the same bytes. -/
theorem KeepsBytes.occurrence (h : KeepsBytes t l) {a p c : Line} (hl : lowered t l = a ++ p ++ c) :
    ∃ x m y, l = x ++ m ++ y ∧ lowered t m = p ∧ len x = len a ∧ len m = len p := by
  obtain ⟨z, y, rfl, hz, -⟩ := h.split hl
  have hkeep : KeepsBytes t z := fun c hc => h c (List.mem_append_left y hc)
  obtain ⟨x, m, rfl, rfl, rfl⟩ := hkeep.split hz
  refine ⟨x, m, y, rfl, rfl, ?_, ?_⟩
  · exact (KeepsBytes.len_lowered fun c hc => hkeep c (List.mem_append_left m hc)).symm
  · exact (KeepsBytes.len_lowered fun c hc => hkeep c (List.mem_append_right x hc)).symm

/-! ## what a line is searched for -/

/-- whether a text of the line is one that the query looks for: the query itself, or without regard to case,
on a line with as many bytes in lower case, a text with the query's lower case -/
def Agrees (t : CaseTable) (query : Line) (caseSensitive : Bool) (l text : Line) : Prop :=
  if caseSensitive = false ∧ len (lowered t l) = len l then lowered t text = strToLowercase t query
  else text = query

/-- a line that is scanned as it is, or whose characters keep their bytes in lower case -/
def Steady (t : CaseTable) (caseSensitive : Bool) (l : Line) : Prop :=
  caseSensitive = false → len (lowered t l) = len l → KeepsBytes t l

/-- the two ways to scan a line -/
lemma scanned_cases (t : CaseTable) (query : Line) (caseSensitive : Bool) (l : Line) :
    scanned t query caseSensitive l = (l, query) ∧ (∀ text, Agrees t query caseSensitive l text ↔ text = query) ∨
      scanned t query caseSensitive l = (lowered t l, strToLowercase t query) ∧
        (∀ text, Agrees t query caseSensitive l text ↔ lowered t text = strToLowercase t query) ∧
        (Steady t caseSensitive l → KeepsBytes t l) := by
  unfold scanned offsetsValid Agrees Steady
  cases caseSensitive with
  | true => exact Or.inl ⟨rfl, fun text => by rw [if_neg fun h => by cases h.1]⟩
  | false =>
    by_cases hlen : len (lowered t l) = len l
    · refine Or.inr ⟨?_, fun text => by rw [if_pos ⟨rfl, hlen⟩], fun h => h rfl hlen⟩
      simp only [hlen, decide_true, Bool.or_true, if_true, Bool.false_eq_true, if_false]
    · refine Or.inl ⟨?_, fun text => by rw [if_neg fun h => hlen h.2]⟩
      simp only [hlen, decide_false, Bool.or_self, Bool.false_eq_true, if_false]

lemma needle_ne_nil (t : CaseTable) (h : query ≠ []) (caseSensitive : Bool) (l : Line) :
    (scanned t query caseSensitive l).2 ≠ [] := by
  rcases scanned_cases t query caseSensitive l with ⟨e, -⟩ | ⟨e, -⟩ <;> rw [e]
  · exact h
  · exact strLowerFrom_ne_nil t [] h

/-- the matches of a line: one occurrence after the other, all of them or the first ones -/
def LineMatches (t : CaseTable) (query : Line) (caseSensitive : Bool) (index : Nat) (l : Line)
    (ms : List Match) (all : Bool) : Prop :=
  ∃ bs r, ms = matchesAt index (scanned t query caseSensitive l).2
      (Find.starts Char.utf8Size (scanned t query caseSensitive l).2 0 bs) ∧
    Find.Cuts (scanned t query caseSensitive l).2 (scanned t query caseSensitive l).1 bs r ∧
    (all = true → Find.before (scanned t query caseSensitive l).2 r = none)

variable {index : Nat} {ms : List Match} {m : Match} {all : Bool}

lemma LineMatches.at_index (h : LineMatches t query caseSensitive index l ms all) (hm : m ∈ ms) : m.line = index := by
  obtain ⟨bs, r, rfl, -⟩ := h
  obtain ⟨s, -, rfl⟩ := List.mem_map.mp hm
  rfl

lemma LineMatches.sorted (h : LineMatches t query caseSensitive index l ms all) :
    ms.Pairwise fun m m' => m.stop ≤ m'.start := by
  obtain ⟨bs, r, rfl, -⟩ := h
  exact List.pairwise_map.mpr (Find.starts_sorted _ _ _)

/-- a match is a piece of the line, and the query looks for it -/
theorem LineMatches.sound (h : LineMatches t query caseSensitive index l ms all)
    (hsteady : Steady t caseSensitive l) (hm : m ∈ ms) :
    ∃ text, slice l m.start m.stop = some text ∧ Agrees t query caseSensitive l text := by
  obtain ⟨bs, r, rfl, hcuts, -⟩ := h
  obtain ⟨s, hs, rfl⟩ := List.mem_map.mp hm
  obtain ⟨a, c, hl, rfl⟩ := Find.starts_sound hcuts hs
  rw [Nat.zero_add]
  rcases scanned_cases t query caseSensitive l with ⟨e, hagrees⟩ | ⟨e, hagrees, hkeeps⟩
  · rw [e] at hl ⊢
    dsimp only at hl ⊢
    refine ⟨query, ?_, (hagrees query).mpr rfl⟩
    rw [hl]
    have hslice := slice_len a query c
    rw [len_append] at hslice
    exact hslice
  · rw [e] at hl ⊢
    dsimp only at hl ⊢
    obtain ⟨x, text, y, rfl, htext, hx, hlen⟩ := (hkeeps hsteady).occurrence hl
    refine ⟨text, ?_, (hagrees text).mpr htext⟩
    have hslice := slice_len x text y
    rw [len_append, hx, hlen] at hslice
    exact hslice

/-- **Every text the query looks for overlaps a match**, when all are reported. -/
theorem LineMatches.complete (h : LineMatches t query caseSensitive index l ms true) (hquery : query ≠ [])
    (hsteady : Steady t caseSensitive l) {a text c : Line} (hl : l = a ++ text ++ c)
    (htext : Agrees t query caseSensitive l text) :
    ∃ m ∈ ms, m.start < len (a ++ text) ∧ len a < m.stop := by
  obtain ⟨bs, r, rfl, hcuts, hdone⟩ := h
  have hne : (scanned t query caseSensitive l).2 ≠ [] := needle_ne_nil t hquery _ _
  -- the text, where the line is scanned
  obtain ⟨a', c', hscan, ha, hlen⟩ : ∃ a' c',
      (scanned t query caseSensitive l).1 = a' ++ (scanned t query caseSensitive l).2 ++ c' ∧
        len a' = len a ∧ len (scanned t query caseSensitive l).2 = len text := by
    rcases scanned_cases t query caseSensitive l with ⟨e, hagrees⟩ | ⟨e, hagrees, hkeeps⟩
    · have hquery := (hagrees text).mp htext
      subst hquery
      rw [e]
      exact ⟨a, c, hl, rfl, rfl⟩
    · have hlow := (hagrees text).mp htext
      have hkeep := hkeeps hsteady
      have hleft : KeepsBytes t (a ++ text) := fun x hx => hkeep x (hl ▸ List.mem_append_left c hx)
      rw [e, ← hlow]
      refine ⟨lowered t a, lowered t c, ?_, ?_, ?_⟩
      · show lowered t l = _
        rw [hl, lowered_append, lowered_append]
      · exact KeepsBytes.len_lowered fun x hx => hleft x (List.mem_append_left text hx)
      · exact KeepsBytes.len_lowered fun x hx => hleft x (List.mem_append_right a hx)
  obtain ⟨s, hs, hlt, hgt⟩ := Find.starts_complete 0 utf8Size_pos hne hcuts (hdone rfl) hscan
  refine ⟨_, List.mem_map_of_mem hs, ?_, ?_⟩
  all_goals
    unfold len at ha hlen ⊢
    simp only [width_append]
    omega

/-! ## all lines -/

/-- the matches of some lines, one line after the other, up to the line where the cap cut them -/
inductive Reports (t : CaseTable) (query : Line) (caseSensitive : Bool) :
    List Line → Nat → List Match → Bool → Prop
  | done (index : Nat) : Reports t query caseSensitive [] index [] false
  | line {l : Line} {ls : List Line} {index : Nat} {new ms : List Match} {capped : Bool}
      (hnew : LineMatches t query caseSensitive index l new true)
      (hms : Reports t query caseSensitive ls (index + 1) ms capped) :
      Reports t query caseSensitive (l :: ls) index (new ++ ms) capped
  | cut {l : Line} {ls : List Line} {index : Nat} {new : List Match}
      (hnew : LineMatches t query caseSensitive index l new false) :
      Reports t query caseSensitive (l :: ls) index new true

variable {lines : List Line} {capped : Bool} {i : Nat}

/-- **The loop over the lines** -/
theorem searchFrom_spec (t : CaseTable) (hquery : query ≠ []) (caseSensitive : Bool) (lines : List Line)
    (index : Nat) (out : List Match) :
    ∃ ms capped, searchFrom t query caseSensitive lines index out = some (out ++ ms, capped) ∧
      Reports t query caseSensitive lines index ms capped := by
  induction lines generalizing index out with
  | nil => exact ⟨[], false, by rw [List.append_nil]; rfl, .done index⟩
  | cons l ls ih =>
    rw [searchFrom]
    obtain ⟨bs, r, capped, hrun, hcuts, hdone⟩ := scanLine_spec index []
      (needle_ne_nil t hquery caseSensitive l) (Nat.lt_succ_self _) out
    rw [List.nil_append] at hrun
    simp only [Option.bind_eq_bind]
    have hrun' : scanLine index (scanned t query caseSensitive l).1 (scanned t query caseSensitive l).2
        (len (scanned t query caseSensitive l).1 + 1) 0 out = _ := hrun
    rw [hrun', Option.bind_some]
    cases capped with
    | true => exact ⟨_, true, rfl, .cut ⟨bs, r, rfl, hcuts, fun h => by cases h⟩⟩
    | false =>
      obtain ⟨ms, capped, hrest, hms⟩ := ih (index + 1) (out ++ matchesAt index _ _)
      refine ⟨_, capped, ?_, .line ⟨bs, r, rfl, hcuts, fun _ => hdone rfl⟩ hms⟩
      rw [← List.append_assoc]
      exact hrest

/-- the matches are of the lines from `index` on -/
lemma Reports.index_le (h : Reports t query caseSensitive lines index ms capped) (hm : m ∈ ms) :
    index ≤ m.line := by
  induction h with
  | done index => cases hm
  | line hnew _ ih =>
    rcases List.mem_append.mp hm with hm | hm
    · exact (hnew.at_index hm).ge
    · exact Nat.le_of_succ_le (ih hm)
  | cut hnew => exact (hnew.at_index hm).ge

/-- in the order of reading, none overlaps another -/
def Match.Before (m m' : Match) : Prop := m.line < m'.line ∨ m.line = m'.line ∧ m.stop ≤ m'.start

lemma LineMatches.before (h : LineMatches t query caseSensitive index l ms all) : ms.Pairwise Match.Before := by
  refine h.sorted.imp_of_mem fun hm hm' hle => Or.inr ⟨?_, hle⟩
  rw [h.at_index hm, h.at_index hm']

theorem Reports.sorted (h : Reports t query caseSensitive lines index ms capped) : ms.Pairwise Match.Before := by
  induction h with
  | done index => exact List.Pairwise.nil
  | line hnew hms ih =>
    refine List.pairwise_append.mpr ⟨hnew.before, ih, fun m hm m' hm' => Or.inl ?_⟩
    rw [hnew.at_index hm]
    exact hms.index_le hm'
  | cut hnew => exact hnew.before

theorem Reports.sound (h : Reports t query caseSensitive lines index ms capped) (hm : m ∈ ms) :
    ∃ l, lines[m.line - index]? = some l ∧ (Steady t caseSensitive l →
      ∃ text, slice l m.start m.stop = some text ∧ Agrees t query caseSensitive l text) := by
  induction h with
  | done index => cases hm
  | @line l ls index new ms capped hnew hms ih =>
    rcases List.mem_append.mp hm with hm | hm
    · refine ⟨l, ?_, fun hsteady => hnew.sound hsteady hm⟩
      rw [hnew.at_index hm, Nat.sub_self]
      rfl
    · obtain ⟨k, hk, htext⟩ := ih hm
      have hle := hms.index_le hm
      refine ⟨k, ?_, htext⟩
      rw [show m.line - index = m.line - (index + 1) + 1 by omega]
      exact hk
  | @cut l ls index new hnew =>
    refine ⟨l, ?_, fun hsteady => hnew.sound hsteady hm⟩
    rw [hnew.at_index hm, Nat.sub_self]
    rfl

theorem Reports.complete (h : Reports t query caseSensitive lines index ms capped) (hcapped : capped = false)
    (hquery : query ≠ []) (hl : lines[i]? = some l) (hsteady : Steady t caseSensitive l) {a text c : Line}
    (e : l = a ++ text ++ c) (htext : Agrees t query caseSensitive l text) :
    ∃ m ∈ ms, m.line = index + i ∧ m.start < len (a ++ text) ∧ len a < m.stop := by
  induction h generalizing i with
  | done index => cases hl
  | @line k ls index new ms capped hnew hms ih =>
    cases i with
    | zero =>
      cases hl
      obtain ⟨m, hm, hover⟩ := hnew.complete hquery hsteady e htext
      exact ⟨m, List.mem_append_left ms hm, hnew.at_index hm, hover⟩
    | succ i =>
      obtain ⟨m, hm, hline, hover⟩ := ih hcapped hl
      exact ⟨m, List.mem_append_right new hm, by rw [hline]; omega, hover⟩
  | cut hnew => cases hcapped

/-- **What `search` reports.**  The matches are in order and none overlaps another.  On a line that is scanned
as it is, or whose characters keep their bytes in lower case, every match is a text between two characters
that the query looks for, and, when the cap does not cut the list, every such text overlaps a match.  An empty
query has no matches. -/
theorem search_exact (t : CaseTable) (b : EditorBuffer) (query : Line) (caseSensitive : Bool) :
    ∃ ms capped, search t b query caseSensitive = some (ms, capped) ∧ ms.Pairwise Match.Before ∧
      (query = [] → ms = []) ∧
      (∀ m ∈ ms, ∃ l, b.lines[m.line]? = some l ∧ (Steady t caseSensitive l →
        ∃ text, slice l m.start m.stop = some text ∧ Agrees t query caseSensitive l text)) ∧
      (query ≠ [] → capped = false → ∀ i l, b.lines[i]? = some l → Steady t caseSensitive l →
        ∀ a text c, l = a ++ text ++ c → Agrees t query caseSensitive l text →
          ∃ m ∈ ms, m.line = i ∧ m.start < len (a ++ text) ∧ len a < m.stop) := by
  unfold search
  by_cases hquery : query = []
  · rw [if_pos hquery]
    exact ⟨[], false, rfl, List.Pairwise.nil, fun _ => rfl, fun m hm => absurd hm List.not_mem_nil,
      fun h => absurd hquery h⟩
  rw [if_neg hquery]
  obtain ⟨ms, capped, hrun, hms⟩ := searchFrom_spec t hquery caseSensitive b.lines 0 []
  refine ⟨ms, capped, hrun, hms.sorted, fun h => absurd h hquery, fun m hm => ?_, ?_⟩
  · exact hms.sound hm
  · intro _ hcapped i l hl hsteady a text c e htext
    obtain ⟨m, hm, hline, hover⟩ := hms.complete hcapped hquery hl hsteady e htext
    exact ⟨m, hm, by rw [hline, Nat.zero_add], hover⟩

/-- the tables, of ASCII, the dotted capital I and the capital sharp s -/
def someCases : CaseTable where
  toLowercase c := if c = 'İ' then ['i', Char.ofNat 0x307] else if c = 'ẞ' then ['ß'] else [c.toLower]
  isCased c := c.isAlpha
  isCaseIgnorable c := c = '.'
  toLowercase_ne_nil c := by split_ifs <;> exact List.cons_ne_nil _ _

/-- **A line that grows in lower case** is scanned as it is: the `A` of `İA` is no match for `a`. -/
theorem search_incomplete : ¬∀ (t : CaseTable) (b : EditorBuffer) (query : Line) (caseSensitive : Bool),
    ∃ ms capped, search t b query caseSensitive = some (ms, capped) ∧ ms.Pairwise Match.Before ∧
      (∀ m ∈ ms, ∃ l text, b.lines[m.line]? = some l ∧ slice l m.start m.stop = some text ∧
        if caseSensitive then text = query else strToLowercase t text = strToLowercase t query) ∧
      (capped = false → ∀ i l, b.lines[i]? = some l → ∀ a text c, l = a ++ text ++ c →
        (if caseSensitive then text = query else strToLowercase t text = strToLowercase t query) →
          ∃ m ∈ ms, m.line = i ∧ m.start < len (a ++ text) ∧ len a < m.stop) := by
  intro h
  obtain ⟨ms, capped, hrun, -, -, hall⟩ := h someCases (.fromText ['İ', 'A']) ['a'] false
  have hnone : search someCases (.fromText ['İ', 'A']) ['a'] false = some ([], false) := by decide
  rw [hnone] at hrun
  cases hrun
  obtain ⟨m, hm, -⟩ := hall rfl 0 ['İ', 'A'] (by decide) ['İ'] ['A'] [] rfl (by decide +kernel)
  cases hm

-- a character that grows and one that shrinks: the lengths agree, but the offset is inside of a character
example : search someCases (.fromText ['İ', 'ẞ']) ['ß'] false = some ([⟨0, 3, 5⟩], false) ∧
    isCharBoundary ['İ', 'ẞ'] 3 = false := by
  decide

end

end TerminalManager.Editor
