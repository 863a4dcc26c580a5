import Mathlib.Data.List.Chain
import TerminalManager.Syntax.Scanner

/-!
# The runs of a line tile it

The painter walks the runs of a line without a fallback for a cell between two of them, and the snippet
renderer shows the runs as owned texts (`tokenize`).  Both need that the runs are the line cut into
pieces.

* `place`         pieces of a line as runs, from an offset on;
* `Tiled`         the runs are such pieces of a text, none empty, no two of punctuation or of whitespace
  next to each other;
* `Tiled.push`    one more piece;
* `scanFrom_tiled`, `tokenizeSpans_tiled`   the loop, and all of it;
* `tokenizeSpans_tiles`   what the painter and the snippet renderer get.
-/

namespace TerminalManager.Syntax
open Editor (Line len slice Boundary)

/-- a run as an owned text -/
structure Token where
  text : Line
  kind : TokenKind
  deriving DecidableEq, Repr

def Span.token (line : Line) (s : Span) : Option Token :=
  (slice line s.start s.stop).map fun text => ⟨text, s.kind⟩

/-- the flag after the line, and its runs as texts -/
def tokenize (t : Alphabet) (lang : Language) (line : Line) (inBlockComment : Bool) :
    Option (Bool × List Token) := do
  let (flag, spans) ← tokenizeSpans t lang line inBlockComment
  let tokens ← spans.mapM (Span.token line)
  some (flag, tokens)

/-! ## pieces -/

/-- the texts in order are the runs from `at` on -/
def place (start : Nat) : List Token → List Span
  | [] => []
  | p :: ps => ⟨start, start + len p.text, p.kind⟩ :: place (start + len p.text) ps

/-- the text of some pieces -/
def joined (ps : List Token) : Line := ps.flatMap Token.text

/-- two kinds that may follow each other: `push_span` joins two runs of punctuation, or of whitespace -/
def Apart (k k' : TokenKind) : Prop := ¬ (k = k' ∧ (k' = .punct ∨ k' = .ws))

section
variable {line x taken : Line} {ps qs : List Token} {out : List Span} {kind : TokenKind} {n : Nat}

@[simp] lemma joined_nil : joined [] = [] := rfl

@[simp] lemma joined_cons (p : Token) (ps : List Token) : joined (p :: ps) = p.text ++ joined ps := rfl

@[simp] lemma joined_append (ps qs : List Token) : joined (ps ++ qs) = joined ps ++ joined qs :=
  List.flatMap_append

lemma place_append (n : Nat) (ps qs : List Token) :
    place n (ps ++ qs) = place n ps ++ place (n + len (joined ps)) qs := by
  induction ps generalizing n with
  | nil => rfl
  | cons p ps ih =>
    rw [List.cons_append, place, ih, place, joined_cons, Editor.len_append, Nat.add_assoc]
    rfl

lemma place_kinds (n : Nat) (ps : List Token) : (place n ps).map Span.kind = ps.map Token.kind := by
  induction ps generalizing n with
  | nil => rfl
  | cons p ps ih => rw [place, List.map_cons, List.map_cons, ih]

/-- the runs are the pieces of `text`, none empty, none to be joined with the next -/
def Tiled (text : Line) (out : List Span) : Prop :=
  ∃ ps, out = place 0 ps ∧ joined ps = text ∧ (∀ p ∈ ps, p.text ≠ []) ∧ (ps.map Token.kind).IsChain Apart

lemma tiled_nil : Tiled [] [] := ⟨[], rfl, rfl, fun _ h => absurd h List.not_mem_nil, .nil⟩

/-- **Step lemma**: one more piece, which may be empty. -/
theorem Tiled.push (h : Tiled x out) (taken : Line) (kind : TokenKind) :
    Tiled (x ++ taken) (pushSpan out (len x) (len x + len taken) kind) := by
  by_cases hne : taken = []
  · subst hne
    rw [pushSpan, if_pos (show len x + len [] ≤ len x from Nat.le_refl _), List.append_nil]
    exact h
  have hpos := Editor.len_pos hne
  obtain ⟨ps, rfl, rfl, hps, hchain⟩ := h
  rw [pushSpan, if_neg (by omega)]
  rcases List.eq_nil_or_concat ps with rfl | ⟨ps, p, rfl⟩
  · refine ⟨[⟨taken, kind⟩], rfl, List.append_nil _, ?_, .singleton _⟩
    intro q hq
    rw [List.mem_singleton.mp hq]
    exact hne
  rw [List.concat_eq_append] at *
  have hsplit : place 0 (ps ++ [p]) = place 0 ps ++ [⟨len (joined ps), len (joined (ps ++ [p])), p.kind⟩] := by
    rw [place_append, Nat.zero_add, joined_append, Editor.len_append, joined_cons, joined_nil, List.append_nil]
    rfl
  rw [List.forall_mem_append, List.forall_mem_singleton] at hps
  rw [hsplit, List.getLast?_concat, List.dropLast_concat]
  dsimp only
  split_ifs with hjoin
  -- the last run grows
  · refine ⟨ps ++ [⟨p.text ++ taken, p.kind⟩], ?_, ?_, ?_, ?_⟩
    · rw [place_append, joined_append, Editor.len_append, joined_cons, joined_nil, List.append_nil, place, place,
        Nat.zero_add, Editor.len_append, Nat.add_assoc]
    · rw [joined_append, joined_append, joined_cons, joined_cons, joined_nil, List.append_nil, List.append_nil,
        List.append_assoc]
    · rw [List.forall_mem_append, List.forall_mem_singleton]
      exact ⟨hps.1, List.append_ne_nil_of_right_ne_nil _ hne⟩
    · rw [List.map_append] at hchain ⊢
      exact hchain
  -- a run of its own
  · refine ⟨ps ++ [p] ++ [⟨taken, kind⟩], ?_, ?_, ?_, ?_⟩
    · rw [place_append, hsplit, Nat.zero_add]
      rfl
    · rw [joined_append, joined_cons, joined_nil, List.append_nil]
    · rw [List.forall_mem_append, List.forall_mem_append, List.forall_mem_singleton, List.forall_mem_singleton]
      exact ⟨hps, hne⟩
    · rw [List.map_append, List.isChain_append]
      refine ⟨hchain, .singleton _, ?_⟩
      intro k hk k' hk'
      rw [List.map_append, List.map_singleton, List.getLast?_concat, Option.mem_some_iff] at hk
      rw [List.map_singleton, List.head?_cons, Option.mem_some_iff] at hk'
      subst hk hk'
      exact fun hboth => hjoin ⟨hboth.1, rfl, hboth.2⟩

/-! ## the loop -/

/-- **Run lemma**: the loop adds pieces up to the end of the line. -/
theorem scanFrom_tiled (t : Alphabet) (lang : Language) (x rest : Line) {fuel : Nat} {b flag : Bool}
    {spans : List Span} (hout : Tiled x out)
    (h : scanFrom t lang (x ++ rest) fuel (len x) b out = some (flag, spans)) : Tiled (x ++ rest) spans := by
  induction fuel generalizing x rest b out with
  | zero => cases h
  | succ fuel ih =>
    rw [scanFrom] at h
    by_cases hend : rest = []
    · subst hend
      rw [List.append_nil, if_pos (Nat.le_refl _)] at h
      cases h
      rw [List.append_nil]
      exact hout
    have hlen : ¬ len (x ++ rest) ≤ len x := by
      have := Editor.len_pos hend
      rw [Editor.len_append]
      omega
    obtain ⟨run, hrun, ⟨taken, after, rfl, -, hstop⟩, -⟩ := nextSpan_spec t lang x hend b
    rw [if_neg hlen, hrun, Option.bind_eq_bind, Option.bind_some, hstop, ← Editor.len_append, ← List.append_assoc] at h
    have htiled := ih (x ++ taken) after (hout.push taken run.kind) (by rwa [← Editor.len_append])
    rwa [List.append_assoc] at htiled

theorem tokenizeSpans_tiled (t : Alphabet) (lang : Language) (line : Line) (b : Bool) :
    ∃ flag spans, tokenizeSpans t lang line b = some (flag, spans) ∧ Tiled line spans := by
  obtain ⟨⟨flag, spans⟩, hrun, -⟩ := tokenizeSpans_total t lang line b
  refine ⟨flag, spans, hrun, ?_⟩
  unfold tokenizeSpans at hrun
  split_ifs at hrun with hnil
  · cases hrun
    rw [hnil]
    exact tiled_nil
  · cases hindent : headingIndent lang line with
    | none =>
      rw [hindent] at hrun
      exact scanFrom_tiled t lang [] line tiled_nil hrun
    | some indent =>
      rw [hindent] at hrun
      cases hrun
      -- the indent is what `trim_start` takes away
      unfold headingIndent at hindent
      dsimp only at hindent
      split_ifs at hindent with hhead
      have hline : line = line.takeWhile Editor.isWhitespace ++ Editor.EditorBuffer.trimStart line :=
        List.takeWhile_append_dropWhile.symm
      have hlen : len line = indent + len (Editor.EditorBuffer.trimStart line) := by
        have := congrArg len hline
        rw [Editor.len_append] at this
        cases hindent
        omega
      have hstart : indent = len (line.takeWhile Editor.isWhitespace) := by
        have := congrArg len hline
        rw [Editor.len_append] at this
        omega
      have hpush := (tiled_nil.push (line.takeWhile Editor.isWhitespace) .ws).push
        (Editor.EditorBuffer.trimStart line) .keyword
      rw [List.nil_append, ← hline, ← hstart, ← hlen] at hpush
      rwa [show len [] = 0 from rfl, Nat.zero_add] at hpush

/-! ## what the callers see -/

lemma place_bounds (x : Line) (ps : List Token) (hps : ∀ p ∈ ps, p.text ≠ []) :
    ∀ s ∈ place (len x) ps, s.start < s.stop ∧ len x ≤ s.start ∧ Boundary (x ++ joined ps) s.start ∧
      Boundary (x ++ joined ps) s.stop := by
  induction ps generalizing x with
  | nil => exact fun _ h => absurd h List.not_mem_nil
  | cons p ps ih =>
    rw [List.forall_mem_cons] at hps
    rw [place, List.forall_mem_cons, joined_cons, ← List.append_assoc, ← Editor.len_append]
    have hpos := Editor.len_pos hps.1
    have hlen := Editor.len_append x p.text
    refine ⟨⟨?_, Nat.le_refl _, ⟨x, p.text ++ joined ps, List.append_assoc _ _ _, rfl⟩, ⟨_, _, rfl, rfl⟩⟩, ?_⟩
    · show len x < len (x ++ p.text)
      omega
    · intro s hs
      obtain ⟨hlt, hle, hstart, hstop⟩ := ih (x ++ p.text) hps.2 s hs
      exact ⟨hlt, by omega, hstart, hstop⟩

lemma place_chain (n : Nat) (ps : List Token) : (place n ps).IsChain fun a b => a.stop = b.start := by
  induction ps generalizing n with
  | nil => exact .nil
  | cons p ps ih =>
    cases ps with
    | nil => exact .singleton _
    | cons q ps => exact .cons_cons rfl (ih _)

lemma place_pairwise (n : Nat) (ps : List Token) :
    (place n ps).Pairwise (fun a b => a.stop ≤ b.start) ∧ ∀ s ∈ place n ps, n ≤ s.start := by
  induction ps generalizing n with
  | nil => exact ⟨.nil, fun _ h => absurd h List.not_mem_nil⟩
  | cons p ps ih =>
    obtain ⟨hpair, hle⟩ := ih (n + len p.text)
    rw [place, List.pairwise_cons, List.forall_mem_cons]
    exact ⟨⟨hle, hpair⟩, Nat.le_refl _, fun s hs => Nat.le_trans (Nat.le_add_right _ _) (hle s hs)⟩

lemma place_last (n : Nat) (ps : List Token) (hne : ps ≠ []) :
    (place n ps).getLast?.map Span.stop = some (n + len (joined ps)) := by
  rcases List.eq_nil_or_concat ps with rfl | ⟨ps, p, rfl⟩
  · exact absurd rfl hne
  · rw [List.concat_eq_append, place_append, place, place, List.getLast?_concat, joined_append, joined_cons, joined_nil, List.append_nil,
      Editor.len_append, Option.map_some, Nat.add_assoc]

/-- the texts of the runs are the pieces again -/
lemma place_tokens (x : Line) (ps : List Token) : (place (len x) ps).mapM (Span.token (x ++ joined ps)) = some ps := by
  induction ps generalizing x with
  | nil => rfl
  | cons p ps ih =>
    have hslice := Editor.slice_len x p.text (joined ps)
    rw [Editor.len_append] at hslice
    have hrest := ih (x ++ p.text)
    rw [Editor.len_append] at hrest
    rw [place, List.mapM_cons, joined_cons, ← List.append_assoc, hrest, Span.token, hslice]
    rfl

/-- **Main result.**  For every line and every flag before it, `tokenize_spans` ends, and its runs are
the line cut into pieces: none is empty, each begins where the one before ends, the first at 0, the last
ends with the line, and all of it between characters.  So the tokens together are the line, and no two
runs of punctuation, or of whitespace, follow each other. -/
theorem tokenizeSpans_tiles (t : Alphabet) (lang : Language) (line : Line) (b : Bool) :
    ∃ flag spans tokens, tokenizeSpans t lang line b = some (flag, spans) ∧
      tokenize t lang line b = some (flag, tokens) ∧
      (∀ s ∈ spans, s.start < s.stop ∧ Boundary line s.start ∧ Boundary line s.stop) ∧
      spans.Pairwise (fun a b => a.stop ≤ b.start) ∧
      spans.IsChain (fun a b => a.stop = b.start) ∧
      (spans.map Span.kind).IsChain
        (fun k k' => ¬ (k = .punct ∧ k' = .punct) ∧ ¬ (k = .ws ∧ k' = .ws)) ∧
      (line = [] → spans = []) ∧
      (line ≠ [] → spans.head?.map Span.start = some 0 ∧ spans.getLast?.map Span.stop = some (len line)) ∧
      tokens.map Token.kind = spans.map Span.kind ∧
      (tokens.map Token.text).flatten = line := by
  obtain ⟨flag, spans, hrun, ps, rfl, rfl, hps, hchain⟩ := tokenizeSpans_tiled t lang line b
  have htokens := place_tokens [] ps
  have hbounds := place_bounds [] ps hps
  rw [List.nil_append, show len [] = 0 from rfl] at htokens hbounds
  refine ⟨flag, place 0 ps, ps, hrun, ?_, ?_, (place_pairwise 0 ps).1, place_chain 0 ps, ?_, ?_, ?_,
    (place_kinds 0 ps).symm, List.flatMap_def.symm⟩
  · rw [tokenize, hrun, Option.bind_eq_bind, Option.bind_some]
    dsimp only
    rw [htokens]
    rfl
  · intro s hs
    obtain ⟨hlt, -, hstart, hstop⟩ := hbounds s hs
    exact ⟨hlt, hstart, hstop⟩
  · rw [place_kinds]
    apply hchain.imp
    intro k k' hk
    exact ⟨fun h => hk ⟨h.1.trans h.2.symm, .inl h.2⟩, fun h => hk ⟨h.1.trans h.2.symm, .inr h.2⟩⟩
  · intro hnil
    cases ps with
    | nil => rfl
    | cons p ps => exact absurd (List.append_eq_nil_iff.mp hnil).1 (hps p List.mem_cons_self)
  · intro hline
    cases ps with
    | nil => exact absurd rfl hline
    | cons p ps =>
      refine ⟨rfl, ?_⟩
      rw [place_last 0 _ (List.cons_ne_nil _ _), Nat.zero_add]

end

end TerminalManager.Syntax
