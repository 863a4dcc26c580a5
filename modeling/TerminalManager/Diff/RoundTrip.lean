import TerminalManager.Diff.Document
import TerminalManager.Diff.Patch

/-!
# A printed patch is read back

* `parseHunkHeader_header`   the header of a hunk, with its starts and its counts;
* `run_body`, `run_hunks`    the lines of a hunk become its rows, by induction on the lines with the
                             remaining counts;
* `run_extended`             the extended header gives the section its identity;
* `run_section`, `run_sections`   one section more, and the whole patch;
* `parse_printPatch`         **Main result.**
* `parse_past_u32`           numbers past `u32::MAX` are not told apart.
-/

namespace TerminalManager.Diff
open Editor (Line len isWhitespace)
open Lines

/-! ## numbers and hunk headers -/

lemma stripPrefix_append (p l : Line) : stripPrefix p (p ++ l) = some l := by
  induction p with
  | nil => cases l <;> rfl
  | cons c p ih =>
    rw [List.cons_append, stripPrefix, if_pos rfl]
    exact ih

lemma le_ofDigitChars (l : Line) (n : Nat) : n ≤ Nat.ofDigitChars 10 l n := by
  induction l generalizing n with
  | nil => exact Nat.le_of_eq Nat.ofDigitChars_nil.symm
  | cons c l ih =>
    rw [Nat.ofDigitChars_cons]
    have := ih (10 * n + (c.toNat - '0'.toNat))
    omega

lemma parseDigits_eq {l : Line} (hl : ∀ c ∈ l, c.isDigit) {n : Nat}
    (h : Nat.ofDigitChars 10 l n ≤ u32Max) : parseDigits n l = some (Nat.ofDigitChars 10 l n) := by
  induction l generalizing n with
  | nil => rw [parseDigits, Nat.ofDigitChars_nil]
  | cons c l ih =>
    rw [Nat.ofDigitChars_cons, Nat.mul_comm 10 n] at h ⊢
    have hle := le_ofDigitChars l (n * 10 + (c.toNat - '0'.toNat))
    have hc : (c.isDigit && decide (n * 10 + (c.toNat - 48) ≤ u32Max)) = true := by
      rw [hl c List.mem_cons_self, Bool.true_and]
      exact decide_eq_true (Nat.le_trans hle h)
    rw [parseDigits, if_pos hc]
    exact ih (fun d hd => hl d (List.mem_cons_of_mem _ hd)) h

lemma decimal_digit {n : Nat} {c : Char} (h : c ∈ decimal n) : c.isDigit :=
  Nat.isDigit_of_mem_toDigits (by decide) (by decide) h

lemma not_mem_decimal {n : Nat} {c : Char} (h : c.isDigit = false) : c ∉ decimal n := by
  intro hm
  rw [decimal_digit hm] at h
  cases h

lemma parseU32_decimal {n : Nat} (h : n ≤ u32Max) : parseU32 (decimal n) = some n := by
  have hne : decimal n ≠ [] := Nat.toDigits_ne_nil
  have hplus : stripPrefix ['+'] (decimal n) = none := by
    cases hd : decimal n with
    | nil => exact absurd hd hne
    | cons c l =>
      refine if_neg ?_
      rintro rfl
      exact absurd (decimal_digit (hd ▸ List.mem_cons_self)) (by decide)
  have hval : Nat.ofDigitChars 10 (decimal n) 0 = n := Nat.ofDigitChars_ten_toDigits
  unfold parseU32
  rw [hplus, Option.getD_none, if_neg hne,
    parseDigits_eq (fun c hc => decimal_digit hc) (by rw [hval]; exact h), hval]

lemma splitOnce_none {c : Char} {l : Line} (h : c ∉ l) : splitOnce c l = none := by
  induction l with
  | nil => rfl
  | cons d l ih =>
    rw [splitOnce, if_neg (List.ne_of_not_mem_cons h).symm, ih (List.not_mem_of_not_mem_cons h)]
    rfl

lemma splitOnce_append {c : Char} {x y : Line} (h : c ∉ x) : splitOnce c (x ++ c :: y) = some (x, y) := by
  induction x with
  | nil => exact if_pos rfl
  | cons d x ih =>
    rw [List.cons_append, splitOnce, if_neg (List.ne_of_not_mem_cons h).symm,
      ih (List.not_mem_of_not_mem_cons h)]
    rfl

lemma parseRange_printRange {start count : Nat} (hs : start ≤ u32Max) (hc : count ≤ u32Max) :
    parseRange (printRange start count) = some (start, count) := by
  have hcomma : ',' ∉ decimal start := not_mem_decimal (by decide)
  unfold printRange parseRange
  split_ifs with h1
  · rw [List.append_nil, splitOnce_none hcomma, parseU32_decimal hs, h1]
    rfl
  · rw [splitOnce_append hcomma]
    dsimp only
    rw [parseU32_decimal hs, parseU32_decimal hc]
    rfl

/-- a range is made of digits and a comma -/
lemma mem_printRange {start count : Nat} {c : Char} (h : c ∈ printRange start count) :
    c.isDigit ∨ c = ',' := by
  unfold printRange at h
  rcases List.mem_append.mp h with h | h
  · exact Or.inl (decimal_digit h)
  · split_ifs at h
    · cases h
    · rcases List.mem_cons.mp h with rfl | h
      exacts [Or.inr rfl, Or.inl (decimal_digit h)]

/-- what stands between the marks of a hunk header -/
lemma not_whitespace {c : Char} (h : c.isDigit ∨ c = ',') : isWhitespace c = false ∧ c ≠ '@' := by
  rcases h with h | rfl
  · have h1 : 48 ≤ c.toNat ∧ c.toNat ≤ 57 := by
      unfold Char.isDigit at h
      rw [Bool.and_eq_true, decide_eq_true_iff, decide_eq_true_iff] at h
      exact ⟨h.1, h.2⟩
    constructor
    · simp only [isWhitespace, Bool.or_eq_false_iff, Bool.and_eq_false_iff, decide_eq_false_iff_not]
      omega
    · rintro rfl
      exact absurd h1.2 (by decide)
  · exact ⟨by decide, by decide⟩

lemma startsWith_cons (p l : Line) (c d : Char) :
    startsWith (c :: p) (d :: l) = (decide (c = d) && startsWith p l) := by
  unfold startsWith
  rw [stripPrefix]
  split_ifs with h
  · rw [decide_eq_true h, Bool.true_and]
  · rw [decide_eq_false h, Bool.false_and]
    rfl

lemma untilFirst_at {inner rest : Line} (h : '@' ∉ inner) :
    untilFirst " @@".toList (inner ++ (" @@".toList ++ rest)) = some inner := by
  induction inner with
  | nil => rfl
  | cons c inner ih =>
    have hno : startsWith " @@".toList (c :: (inner ++ (" @@".toList ++ rest))) = false := by
      rw [show " @@".toList = ' ' :: ['@', '@'] from rfl, startsWith_cons]
      cases inner with
      | nil => exact Bool.and_false _
      | cons d inner =>
        have hd : ¬ '@' = d := (List.ne_of_not_mem_cons (List.not_mem_of_not_mem_cons h))
        rw [List.cons_append, startsWith_cons, decide_eq_false hd, Bool.false_and, Bool.and_false]
    rw [List.cons_append, untilFirst, if_neg (by rw [hno]; exact Bool.false_ne_true),
      ih (List.not_mem_of_not_mem_cons h)]
    rfl

lemma splitWhitespace_pair {x y : Line} (hx : ∀ c ∈ x, isWhitespace c = false)
    (hy : ∀ c ∈ y, isWhitespace c = false) (hxne : x ≠ []) (hyne : y ≠ []) :
    splitWhitespace (x ++ ' ' :: y) = [x, y] := by
  unfold splitWhitespace
  rw [List.splitOnP_append_cons_of_forall_mem hx ' ' (by decide), List.splitOnP_eq_singleton hy]
  refine List.filter_eq_self.mpr fun l hl => decide_eq_true ?_
  rcases List.mem_cons.mp hl with rfl | hl
  · exact hxne
  · rw [List.mem_singleton.mp hl]
    exact hyne

theorem parseHunkHeader_header {h : Hunk} (ho : h.oldStart ≤ u32Max) (hn : h.newStart ≤ u32Max)
    (hoc : oldCount h.lines ≤ u32Max) (hnc : newCount h.lines ≤ u32Max) :
    parseHunkHeader h.header =
      some (h.oldStart, oldCount h.lines, h.newStart, newCount h.lines) := by
  have hat : ∀ start count : Nat, '@' ∉ printRange start count :=
    fun start count hm => (not_whitespace (mem_printRange hm)).2 rfl
  have hrange : ∀ start count : Nat, ∀ c ∈ printRange start count, isWhitespace c = false :=
    fun start count c hm => (not_whitespace (mem_printRange hm)).1
  have hinner : '@' ∉ '-' :: printRange h.oldStart (oldCount h.lines) ++
      ' ' :: '+' :: printRange h.newStart (newCount h.lines) := by
    simp only [List.mem_append, List.mem_cons, not_or]
    exact ⟨⟨by decide, hat _ _⟩, by decide, by decide, hat _ _⟩
  unfold parseHunkHeader Hunk.header
  rw [stripPrefix_append, Option.bind_eq_bind, Option.bind_some, List.append_assoc, untilFirst_at hinner,
    Option.bind_eq_bind, Option.bind_some, splitWhitespace_pair]
  · dsimp only
    rw [show stripPrefix ['-'] ('-' :: printRange h.oldStart (oldCount h.lines)) =
        some (printRange h.oldStart (oldCount h.lines)) from stripPrefix_append ['-'] _,
      show stripPrefix ['+'] ('+' :: printRange h.newStart (newCount h.lines)) =
        some (printRange h.newStart (newCount h.lines)) from stripPrefix_append ['+'] _,
      Option.bind_some, Option.bind_some, parseRange_printRange ho hoc, parseRange_printRange hn hnc]
    rfl
  · intro c hc
    rcases List.mem_cons.mp hc with rfl | hc
    exacts [by decide, hrange _ _ c hc]
  · intro c hc
    rcases List.mem_cons.mp hc with rfl | hc
    exacts [by decide, hrange _ _ c hc]
  · exact List.cons_ne_nil _ _
  · exact List.cons_ne_nil _ _

/-! ## lines of a run -/

section
variable {b : Builder} {ctx : FileCtx} {rest : List Line}

/-- rows that are pushed within the budget -/
def Builder.extend (b : Builder) (ps : List Row) : Builder :=
  { b with lines := b.lines ++ ps.map Prod.snd, rows := b.rows ++ ps.map Prod.fst }

lemma extend_nil (b : Builder) : b.extend [] = b := by
  unfold Builder.extend
  rw [List.map_nil, List.map_nil, List.append_nil, List.append_nil]

lemma extend_append (b : Builder) (ps qs : List Row) : (b.extend ps).extend qs = b.extend (ps ++ qs) := by
  unfold Builder.extend
  rw [List.map_append, List.map_append, ← List.append_assoc, ← List.append_assoc]

lemma length_extend (b : Builder) (ps : List Row) :
    (b.extend ps).lines.length = b.lines.length + ps.length := by
  show (b.lines ++ ps.map Prod.snd).length = _
  rw [List.length_append, List.length_map]

lemma push_extend (row : DiffRowInfo) (text : Line) (htr : b.truncated = false)
    (hroom : b.lines.length + 1 < b.cap) :
    b.push row text = (b.extend [(row, clampLine text)], true) := push_ok htr hroom

/-- one line of a run -/
lemma run_line {s t : Parser} {line : Line} (hcr : '\r' ∉ line) (htr : s.doc.truncated = false)
    (hstep : s.step line = (t, true)) : s.run (line :: rest) = t.run rest := by
  have hstrip : (stripSuffix '\r' line).getD line = line := by
    rw [stripSuffix, if_neg fun h => hcr (List.mem_of_getLast? h)]
    rfl
  rw [Parser.run, if_neg (by rw [htr]; exact Bool.false_ne_true), hstrip, hstep]

/-- a line that starts no section -/
lemma step_section {mode : Mode} {line : Line} (h : fileStart line = none) :
    Parser.step ⟨b, some ctx, mode⟩ line = (sectionLine b ctx mode line, true) := by
  unfold Parser.step
  rw [h]

lemma clampLine_short {text : Line} (h : text.length ≤ maxLineChars) : clampLine text = text := by
  unfold clampLine
  split_ifs
  · rfl
  · omega
  · rfl

/-! ## the lines of a hunk -/

lemma sectionLine_content {kind : DiffRowKind} {text line : Line} {o n : Nat}
    (hslash : startsWith ['\\'] line = false) (hpos : 0 < o ∨ 0 < n)
    (hrow : bodyRow line = some (kind, text)) :
    sectionLine b ctx (.hunk o n) line = contentRow b ctx o n kind text := by
  unfold sectionLine bodyLine
  dsimp only
  rw [if_neg (by rw [hslash]; exact Bool.false_ne_true), if_pos hpos, hrow]
  rfl

lemma satSucc_min (n : Nat) : satSucc (min n u32Max) = min (n + 1) u32Max := by
  unfold satSucc
  generalize u32Max = m
  omega

/-- a source line becomes its row, whatever its text looks like -/
lemma step_content (ctx : FileCtx) {l : PatchLine} (o n : Nat) (hshort : l.text.length ≤ maxLineChars)
    (htr : b.truncated = false) (hroom : b.lines.length + 1 < b.cap) :
    Parser.step ⟨b, some ctx, .hunk (l.mark.old + o) (l.mark.new + n)⟩ (l.mark.char :: l.text) =
      (⟨b.extend [(⟨l.mark.kind, ctx.index, if l.mark = .added then none else some ctx.oldNo,
          if l.mark = .removed then none else some ctx.newNo⟩, l.text)],
        some { ctx with
          oldNo := if l.mark = .added then ctx.oldNo else satSucc ctx.oldNo
          newNo := if l.mark = .removed then ctx.newNo else satSucc ctx.newNo },
        .hunk o n⟩, true) := by
  obtain ⟨mark, text, no⟩ := l
  have hpush := fun row => push_extend row text htr hroom
  cases mark with
  | context =>
    rw [step_section rfl]
    show (sectionLine b ctx (.hunk (1 + o) (1 + n)) (' ' :: text), true) = _
    rw [sectionLine_content rfl (Or.inl (Nat.add_pos_left Nat.one_pos o)) rfl]
    dsimp only [contentRow]
    rw [hpush, clampLine_short hshort, Nat.add_sub_cancel_left, Nat.add_sub_cancel_left]
    rfl
  | added =>
    rw [step_section rfl]
    show (sectionLine b ctx (.hunk (0 + o) (1 + n)) ('+' :: text), true) = _
    rw [sectionLine_content rfl (Or.inr (Nat.add_pos_left Nat.one_pos n)) rfl]
    dsimp only [contentRow]
    rw [hpush, clampLine_short hshort, Nat.add_sub_cancel_left, Nat.zero_add]
    rfl
  | removed =>
    rw [step_section rfl]
    show (sectionLine b ctx (.hunk (1 + o) (0 + n)) ('-' :: text), true) = _
    rw [sectionLine_content rfl (Or.inl (Nat.add_pos_left Nat.one_pos o)) rfl]
    dsimp only [contentRow]
    rw [hpush, clampLine_short hshort, Nat.add_sub_cancel_left, Nat.zero_add]
    rfl

lemma step_marker (ctx : FileCtx) (o n : Nat) (htr : b.truncated = false) (hroom : b.lines.length + 1 < b.cap) :
    Parser.step ⟨b, some ctx, .hunk o n⟩ noNewlineMarker =
      (⟨b.extend [(⟨.note, ctx.index, none, none⟩, noNewlineMarker)], some ctx, .hunk o n⟩, true) := by
  rw [step_section rfl]
  unfold sectionLine bodyLine
  dsimp only
  rw [if_pos (show startsWith ['\\'] noNewlineMarker = true from rfl), push_extend _ _ htr hroom, clampLine_short (by decide)]
  rfl

lemma Mark.char_ne (m : Mark) : m.char ≠ '\n' ∧ m.char ≠ '\r' := by
  cases m <;> decide

/-- **Body lemma**: the source lines of a hunk become its rows, by induction on the lines; the counts
that remain are those of the lines that remain. -/
theorem run_body (ctx : FileCtx) (rest : List Line) {ls : List PatchLine} (hls : ∀ l ∈ ls, l.Plain) {old new : Nat}
    (htr : b.truncated = false)
    (hroom : b.lines.length + (contentRows ctx.index old new ls).length < b.cap)
    (hold : ctx.oldNo = min old u32Max) (hnew : ctx.newNo = min new u32Max)
    (holdEnd : old + oldCount ls ≤ u32Max + 1) (hnewEnd : new + newCount ls ≤ u32Max + 1) :
    ∃ x y, Parser.run ⟨b, some ctx, .hunk (oldCount ls) (newCount ls)⟩ (ls.flatMap PatchLine.print ++ rest) =
      Parser.run ⟨b.extend (contentRows ctx.index old new ls),
        some { ctx with oldNo := x, newNo := y }, .hunk 0 0⟩ rest := by
  induction ls generalizing b ctx old new with
  | nil =>
    refine ⟨ctx.oldNo, ctx.newNo, ?_⟩
    rw [contentRows, extend_nil]
    rfl
  | cons l ls ih =>
    have hl := hls l List.mem_cons_self
    rw [contentRows, List.length_append, List.length_cons] at hroom
    rw [oldCount] at holdEnd
    rw [newCount] at hnewEnd
    -- the first line
    have hstep := step_content ctx (oldCount ls) (newCount ls) hl.short htr (by omega)
    have hcr : '\r' ∉ l.mark.char :: l.text := by
      rw [List.mem_cons, not_or]
      exact ⟨l.mark.char_ne.2.symm, hl.text.2⟩
    have hrow : (⟨l.mark.kind, ctx.index, if l.mark = .added then none else some ctx.oldNo,
        if l.mark = .removed then none else some ctx.newNo⟩ : DiffRowInfo) =
        ⟨l.mark.kind, ctx.index, if l.mark = .added then none else some old,
          if l.mark = .removed then none else some new⟩ := by
      congr 1
      · split_ifs with hm
        · rfl
        · have : l.mark.old = 1 := by cases h : l.mark <;> first | rfl | exact absurd h hm
          rw [hold, Nat.min_eq_left (by omega)]
      · split_ifs with hm
        · rfl
        · have : l.mark.new = 1 := by cases h : l.mark <;> first | rfl | exact absurd h hm
          rw [hnew, Nat.min_eq_left (by omega)]
    rw [hrow] at hstep
    have hold' : (if l.mark = .added then ctx.oldNo else satSucc ctx.oldNo) = min (old + l.mark.old) u32Max := by
      cases l.mark
      case added => exact hold
      all_goals exact (congrArg satSucc hold).trans (satSucc_min old)
    have hnew' : (if l.mark = .removed then ctx.newNo else satSucc ctx.newNo) = min (new + l.mark.new) u32Max := by
      cases l.mark
      case removed => exact hnew
      all_goals exact (congrArg satSucc hnew).trans (satSucc_min new)
    rw [hold', hnew'] at hstep
    obtain ⟨r, hr⟩ : ∃ r : Row, r = (⟨l.mark.kind, ctx.index, if l.mark = .added then none else some old,
        if l.mark = .removed then none else some new⟩, l.text) := ⟨_, rfl⟩
    rw [← hr] at hstep
    rw [List.flatMap_cons, PatchLine.print, List.cons_append, List.cons_append, oldCount, newCount,
      run_line hcr htr hstep, contentRows, ← hr]
    have hrest : ∀ b' : Builder, b'.truncated = false →
        b'.lines.length + (contentRows ctx.index (old + l.mark.old) (new + l.mark.new) ls).length < b'.cap →
        ∃ x y, Parser.run ⟨b', some { ctx with
            oldNo := min (old + l.mark.old) u32Max, newNo := min (new + l.mark.new) u32Max },
            .hunk (oldCount ls) (newCount ls)⟩ (ls.flatMap PatchLine.print ++ rest) =
          Parser.run ⟨b'.extend (contentRows ctx.index (old + l.mark.old) (new + l.mark.new) ls),
            some { ctx with oldNo := x, newNo := y }, .hunk 0 0⟩ rest := by
      intro b' htr' hroom'
      exact ih _ (fun m hm => hls m (List.mem_cons_of_mem _ hm)) htr' hroom' rfl rfl (by omega) (by omega)
    cases hno : l.noNewline with
    | false =>
      rw [hno, if_neg Bool.false_ne_true, List.length_nil] at hroom
      obtain ⟨x, y, e⟩ := hrest (b.extend [r]) htr (by
        rw [length_extend, List.length_singleton]
        show _ < b.cap
        omega)
      rw [extend_append] at e
      exact ⟨x, y, e⟩
    | true =>
      rw [hno, if_pos rfl, List.length_singleton] at hroom
      have hroom1 : (b.extend [r]).lines.length + 1 < (b.extend [r]).cap := by
        rw [length_extend, List.length_singleton]
        show _ < b.cap
        omega
      have hmark := step_marker (b := b.extend [r])
        { ctx with oldNo := min (old + l.mark.old) u32Max, newNo := min (new + l.mark.new) u32Max }
        (oldCount ls) (newCount ls) htr hroom1
      rw [if_pos rfl, if_pos rfl, List.cons_append, List.nil_append, List.cons_append,
        run_line (by decide) htr hmark]
      obtain ⟨x, y, e⟩ := hrest ((b.extend [r]).extend [(⟨.note, ctx.index, none, none⟩, noNewlineMarker)]) htr
        (by
          rw [length_extend, length_extend, List.length_singleton, List.length_singleton]
          show _ < b.cap
          omega)
      refine ⟨x, y, e.trans ?_⟩
      rw [extend_append, extend_append]
      rfl

/-! ## hunks -/

/-- rows and the positions of the hunk headers among them, recorded in the file `k` -/
def Builder.addHunks (b : Builder) (k : Nat) (ps : List Row) (starts : List Nat) : Builder :=
  { b.extend ps with
    files := b.files.modify k fun info => { info with hunkRows := info.hunkRows ++ starts } }

lemma addHunks_nil (b : Builder) (k : Nat) : b.addHunks k [] [] = b := by
  have hid : (fun info : DiffFileInfo => { info with hunkRows := info.hunkRows ++ [] }) = id := by
    funext info
    rw [List.append_nil]
    rfl
  unfold Builder.addHunks
  rw [extend_nil, hid, List.modify_id]

lemma addHunks_addHunks (b : Builder) (k : Nat) (ps qs : List Row) (is js : List Nat) :
    (b.addHunks k ps is).addHunks k qs js = b.addHunks k (ps ++ qs) (is ++ js) := by
  have hcomp : (fun info : DiffFileInfo => { info with hunkRows := info.hunkRows ++ js }) ∘
      (fun info : DiffFileInfo => { info with hunkRows := info.hunkRows ++ is }) =
      fun info => { info with hunkRows := info.hunkRows ++ (is ++ js) } := by
    funext info
    show ({ info with hunkRows := (info.hunkRows ++ is) ++ js } : DiffFileInfo) = _
    rw [List.append_assoc]
  unfold Builder.addHunks
  dsimp only [Builder.extend]
  rw [List.modify_modify_eq, hcomp, List.map_append, List.map_append, List.append_assoc, List.append_assoc]

lemma addHunks_extend (b : Builder) (k : Nat) (ps qs : List Row) (is : List Nat) :
    (b.addHunks k ps is).extend qs = b.addHunks k (ps ++ qs) is := by
  unfold Builder.addHunks
  dsimp only [Builder.extend]
  rw [List.map_append, List.map_append, List.append_assoc, List.append_assoc]

lemma length_contentRows (file file' : Nat) (ls : List PatchLine) (o n o' n' : Nat) :
    (contentRows file o n ls).length = (contentRows file' o' n' ls).length := by
  induction ls generalizing o n o' n' with
  | nil => rfl
  | cons l ls ih =>
    rw [contentRows, contentRows, List.length_append, List.length_append, List.length_cons, List.length_cons,
      ih _ _ (o' + l.mark.old) (n' + l.mark.new)]
    cases l.noNewline <;> rfl

lemma length_hunkRows (file : Nat) (h : Hunk) : (h.rows file).length = (h.rows 0).length :=
  congrArg Nat.succ (length_contentRows file 0 h.lines _ _ _ _)

lemma count_le (file : Nat) (ls : List PatchLine) (o n : Nat) :
    oldCount ls ≤ (contentRows file o n ls).length ∧ newCount ls ≤ (contentRows file o n ls).length := by
  induction ls generalizing o n with
  | nil => exact ⟨Nat.le_refl _, Nat.le_refl _⟩
  | cons l ls ih =>
    obtain ⟨h1, h2⟩ := ih (o + l.mark.old) (n + l.mark.new)
    have ho : l.mark.old ≤ 1 := by cases l.mark <;> decide
    have hn : l.mark.new ≤ 1 := by cases l.mark <;> decide
    rw [contentRows, oldCount, newCount, List.length_append, List.length_cons]
    omega

/-- the parser stands before a hunk or after a whole one -/
def Mode.Between (m : Mode) : Prop := m = .header ∨ m = .hunk 0 0

lemma sectionLine_header {m : Mode} (hm : m.Between) (h : Hunk) :
    sectionLine b ctx m h.header = headLine b ctx .header h.header := by
  rcases hm with rfl | rfl <;> rfl

lemma step_hunkHeader {m : Mode} (hm : m.Between) {h : Hunk} (hh : h.Plain) (hcomb : ctx.combined = false)
    (htr : b.truncated = false) (hroom : b.lines.length + 1 < b.cap)
    (hcounts : oldCount h.lines ≤ u32Max ∧ newCount h.lines ≤ u32Max) :
    Parser.step ⟨b, some ctx, m⟩ h.header =
      (⟨b.addHunks ctx.index [(⟨.hunkHeader, ctx.index, none, none⟩, clampLine h.header)] [b.lines.length],
        some { ctx with oldNo := h.oldStart, newNo := h.newStart },
        .hunk (oldCount h.lines) (newCount h.lines)⟩, true) := by
  have hone : startsWith "@@".toList h.header = true := rfl
  have htwo : (ctx.combined || startsWith "@@@".toList h.header) = false := by
    rw [hcomb]
    rfl
  have hpush : pushHunk b ctx h.header =
      b.addHunks ctx.index [(⟨.hunkHeader, ctx.index, none, none⟩, clampLine h.header)] [b.lines.length] := by
    unfold pushHunk
    dsimp only
    rw [push_extend _ _ htr hroom]
    rfl
  rw [step_section rfl, sectionLine_header hm]
  unfold headLine
  rw [if_pos hone, if_neg (by rw [htwo]; exact Bool.false_ne_true),
    parseHunkHeader_header hh.oldStart hh.newStart hcounts.1 hcounts.2]
  dsimp only
  rw [hpush]

lemma oneLine_append {x y : Line} : OneLine (x ++ y) ↔ OneLine x ∧ OneLine y := by
  unfold OneLine
  rw [List.mem_append, List.mem_append, not_or, not_or]
  tauto

lemma oneLine_cons {c : Char} {x : Line} : OneLine (c :: x) ↔ (c ≠ '\n' ∧ c ≠ '\r') ∧ OneLine x := by
  unfold OneLine
  rw [List.mem_cons, List.mem_cons, not_or, not_or]
  constructor
  · rintro ⟨⟨h1, h2⟩, h3, h4⟩
    exact ⟨⟨Ne.symm h1, Ne.symm h3⟩, h2, h4⟩
  · rintro ⟨⟨h1, h3⟩, h2, h4⟩
    exact ⟨⟨Ne.symm h1, h2⟩, Ne.symm h3, h4⟩

lemma oneLine_printRange (start count : Nat) : OneLine (printRange start count) := by
  constructor <;> exact fun h => absurd (mem_printRange h) (by decide)

lemma oneLine_header {h : Hunk} (hh : h.Plain) : OneLine h.header := by
  have hhead : OneLine ((h.heading.map (' ' :: ·)).getD []) := by
    cases e : h.heading with
    | none => exact ⟨List.not_mem_nil, List.not_mem_nil⟩
    | some t => exact oneLine_cons.mpr ⟨⟨by decide, by decide⟩, hh.heading t e⟩
  unfold Hunk.header
  refine oneLine_append.mpr ⟨⟨by decide, by decide⟩, oneLine_append.mpr ⟨oneLine_append.mpr
    ⟨oneLine_append.mpr ⟨?_, ?_⟩, ⟨by decide, by decide⟩⟩, hhead⟩⟩
  · exact oneLine_cons.mpr ⟨⟨by decide, by decide⟩, oneLine_printRange ..⟩
  · exact oneLine_cons.mpr ⟨⟨by decide, by decide⟩,
      oneLine_cons.mpr ⟨⟨by decide, by decide⟩, oneLine_printRange ..⟩⟩

/-- the hunks of a section become its rows, and their headers are listed -/
theorem run_hunks (rest : List Line) {hs : List Hunk} (hplain : ∀ h ∈ hs, h.Plain) {m : Mode} (hm : m.Between)
    (hcomb : ctx.combined = false) (htr : b.truncated = false) (hcap : b.cap ≤ u32Max)
    (hroom : b.lines.length + (hs.flatMap (Hunk.rows ctx.index)).length < b.cap) :
    ∃ x y, ∃ m' : Mode, m'.Between ∧
      Parser.run ⟨b, some ctx, m⟩ (hs.flatMap Hunk.print ++ rest) =
        Parser.run ⟨b.addHunks ctx.index (hs.flatMap (Hunk.rows ctx.index)) (hunkRowsFrom b.lines.length hs),
          some { ctx with oldNo := x, newNo := y }, m'⟩ rest := by
  induction hs generalizing b ctx m with
  | nil =>
    refine ⟨ctx.oldNo, ctx.newNo, m, hm, ?_⟩
    rw [hunkRowsFrom, List.flatMap_nil, List.flatMap_nil, addHunks_nil]
    rfl
  | cons h hs ih =>
    have hh := hplain h List.mem_cons_self
    rw [List.flatMap_cons, List.length_append, Hunk.rows, List.length_cons] at hroom
    obtain ⟨hoc, hnc⟩ := count_le ctx.index h.lines h.oldStart h.newStart
    have hstep := step_hunkHeader hm hh hcomb htr (by omega) ⟨by omega, by omega⟩
    rw [List.flatMap_cons, Hunk.print, List.append_assoc, List.cons_append,
      run_line (oneLine_header hh).2 htr hstep]
    obtain ⟨b1, hb1⟩ : ∃ b1, b1 = b.addHunks ctx.index
        [(⟨.hunkHeader, ctx.index, none, none⟩, clampLine h.header)] [b.lines.length] := ⟨_, rfl⟩
    rw [← hb1]
    have hlen1 : b1.lines.length = b.lines.length + 1 := by
      rw [hb1]
      exact length_extend b [_]
    have hcap1 : b1.cap = b.cap := by
      rw [hb1]
      rfl
    have htr1 : b1.truncated = false := by
      rw [hb1]
      exact htr
    have hroom1 : b1.lines.length + (contentRows ctx.index h.oldStart h.newStart h.lines).length < b1.cap := by
      rw [hlen1, hcap1]
      omega
    obtain ⟨x, y, e⟩ := run_body { ctx with oldNo := h.oldStart, newNo := h.newStart }
      (hs.flatMap Hunk.print ++ rest) hh.lines htr1 hroom1
      (Nat.min_eq_left hh.oldStart).symm (Nat.min_eq_left hh.newStart).symm hh.oldEnd hh.newEnd
    rw [e]
    -- the hunks that follow
    have hlen2 : (b1.extend (contentRows ctx.index h.oldStart h.newStart h.lines)).lines.length =
        b.lines.length + (h.rows 0).length := by
      rw [length_extend, hlen1, ← length_hunkRows ctx.index h, Hunk.rows, List.length_cons]
      omega
    have hroom2 : (b1.extend (contentRows ctx.index h.oldStart h.newStart h.lines)).lines.length +
        (hs.flatMap (Hunk.rows ctx.index)).length < b1.cap := by
      rw [hlen2, ← length_hunkRows ctx.index h, Hunk.rows, List.length_cons, hcap1]
      omega
    obtain ⟨x', y', m', hm', e'⟩ := ih (fun g hg => hplain g (List.mem_cons_of_mem _ hg)) (Or.inr rfl)
      (show FileCtx.combined { ctx with oldNo := x, newNo := y } = false from hcomb)
      (show (b1.extend (contentRows ctx.index h.oldStart h.newStart h.lines)).truncated = false from htr1)
      (Nat.le_trans (Nat.le_of_eq hcap1) hcap) hroom2
    refine ⟨x', y', m', hm', e'.trans ?_⟩
    rw [hlen2, hb1, addHunks_extend, addHunks_addHunks, hunkRowsFrom]
    rfl

/-! ## the identity of a section -/

lemma PlainPath.not_mem {p : Line} (h : PlainPath p) {c : Char}
    (hc : c = '"' ∨ c = '\t' ∨ c = '\n' ∨ c = '\r') : c ∉ p := by
  intro hm
  have hplain := List.all_eq_true.mp h.2 c hm
  rcases hc with rfl | rfl | rfl | rfl <;> exact absurd hplain (by decide)

lemma PlainPath.oneLine {p : Line} (h : PlainPath p) : OneLine p :=
  ⟨h.not_mem (by simp), h.not_mem (by simp)⟩

lemma unquotePath_plain {p : Line} (h : '"' ∉ p) : unquotePath p = p := by
  have hq : quoted p = none := by
    unfold quoted
    cases p with
    | nil => rfl
    | cons c p =>
      rw [stripPrefix, if_neg (List.ne_of_not_mem_cons h)]
      rfl
  unfold unquotePath
  rw [hq]
  rfl

lemma unquotePath_side {side p : Line} (hs : '"' ∉ side) (h : PlainPath p) :
    unquotePath (side ++ p) = side ++ p := by
  refine unquotePath_plain fun hm => ?_
  exact (List.mem_append.mp hm).elim hs (h.not_mem (Or.inl rfl))

lemma stripSidePrefix_side {c : Char} {p : Line} (hc : c ∈ ['a', 'b', 'i', 'w', 'c', 'o']) (hp : p ≠ []) :
    stripSidePrefix (c :: '/' :: p) = p := by
  cases p with
  | nil => exact absurd rfl hp
  | cons d p => exact if_pos hc

/-- both halves of a `diff --git` line that names one path -/
lemma splitGitPaths_same {p : Line} (h : PlainPath p) :
    splitGitPaths ("a/".toList ++ p ++ " b/".toList ++ p) = (some p, some p) := by
  have hlen : len ("a/".toList ++ p ++ " b/".toList ++ p) = 2 * (len p + 2) + 1 := by
    have ha : len "a/".toList = 2 := rfl
    have hb : len " b/".toList = 3 := rfl
    unfold len at ha hb ⊢
    rw [width_append, width_append, width_append, ha, hb]
    omega
  have hcut : cut Char.utf8Size ("a/".toList ++ p ++ " b/".toList ++ p) (len p + 2) =
      some ("a/".toList ++ p, ' ' :: ("b/".toList ++ p)) := by
    have hw : width Char.utf8Size ("a/".toList ++ p) = len p + 2 := by
      rw [width_append, Nat.add_comm]
      rfl
    rw [List.append_assoc, ← hw]
    exact cut_append Char.utf8Size_pos _ _
  have hmid : splitMiddle ("a/".toList ++ p ++ " b/".toList ++ p) = some (p, p) := by
    have ha : stripSidePrefix (unquotePath ("a/".toList ++ p)) = p := by
      rw [unquotePath_side (by decide) h]
      exact stripSidePrefix_side (by decide) h.1
    have hb : stripSidePrefix (unquotePath ("b/".toList ++ p)) = p := by
      rw [unquotePath_side (by decide) h]
      exact stripSidePrefix_side (by decide) h.1
    unfold splitMiddle
    rw [hlen, if_pos (by omega), show (2 * (len p + 2) + 1) / 2 = len p + 2 by omega, hcut]
    show (if stripSidePrefix (unquotePath ("a/".toList ++ p)) = stripSidePrefix (unquotePath ("b/".toList ++ p))
      then some (stripSidePrefix (unquotePath ("a/".toList ++ p)),
        stripSidePrefix (unquotePath ("b/".toList ++ p))) else none) = _
    rw [ha, hb, if_pos rfl]
  unfold splitGitPaths
  rw [hmid]

lemma pathSide_side {c : Char} (hc : c = 'a' ∨ c = 'b') {p : Line} (h : PlainPath p) :
    pathSide (sidePath [c, '/'] p) = some p := by
  have htab : ∀ d ∈ [c, '/'] ++ p, (decide (d ≠ '\t')) = true := by
    intro d hd
    refine decide_eq_true fun e => ?_
    subst e
    rcases List.mem_append.mp hd with hd | hd
    · rcases hc with rfl | rfl <;> exact absurd hd (by decide)
    · exact h.not_mem (by simp) hd
  have htake : (sidePath [c, '/'] p).takeWhile (· ≠ '\t') = [c, '/'] ++ p := by
    unfold sidePath
    rw [List.takeWhile_append_of_pos htab]
    split_ifs
    · exact List.append_nil _
    · exact List.append_nil _
  have hdev : ¬ [c, '/'] ++ p = "/dev/null".toList := by
    intro e
    have : c = '/' := (List.cons.inj e).1
    rcases hc with rfl | rfl <;> exact absurd this (by decide)
  have hquote : '"' ∉ [c, '/'] := by rcases hc with rfl | rfl <;> decide
  unfold pathSide
  dsimp only
  rw [htake, if_neg hdev, unquotePath_side hquote h]
  refine congrArg some (stripSidePrefix_side ?_ h.1)
  rcases hc with rfl | rfl <;> decide

/-- the section is the one of the change, as far as its title goes -/
structure Identified (ctx : FileCtx) (k : Nat) (c : Change) : Prop where
  index : ctx.index = k
  combined : ctx.combined = false
  path : ctx.path = c.newPath
  oldPath : ctx.oldPath = if c.oldPath = c.newPath then none else some c.oldPath
  status : ctx.status = c.status
  title : ctx.title = c.title

/-- the operands of `---` and `+++`, read back -/
def Change.minusSide : Change → Option Line
  | .added _ _ => none
  | c => some c.oldPath

def Change.plusSide : Change → Option Line
  | .deleted _ _ => none
  | c => some c.newPath

lemma pathSide_minus {c : Change} (h : c.Plain) : pathSide c.minus = c.minusSide := by
  cases c with
  | modified path modes => exact pathSide_side (Or.inl rfl) h.1
  | added path mode => rfl
  | deleted path mode => exact pathSide_side (Or.inl rfl) h.1
  | renamed old new similarity => exact pathSide_side (Or.inl rfl) h.1

lemma pathSide_plus {c : Change} (h : c.Plain) : pathSide c.plus = c.plusSide := by
  cases c with
  | modified path modes => exact pathSide_side (Or.inr rfl) h.1
  | added path mode => exact pathSide_side (Or.inr rfl) h.1
  | deleted path mode => rfl
  | renamed old new similarity => exact pathSide_side (Or.inr rfl) h.2.1

/-- what the extended header says of the section -/
def Change.applied (ctx : FileCtx) : Change → FileCtx
  | .modified _ _ => ctx
  | .added _ _ => { ctx with isNew := true }
  | .deleted _ _ => { ctx with isDeleted := true }
  | .renamed old new _ => { ctx with isRename := true, renameFrom := some old, renameTo := some new }

/-- what the `---` and `+++` lines say of it; a section without hunks has none -/
def FileSection.applied (ctx : FileCtx) (f : FileSection) : FileCtx :=
  if f.hunks = [] then ctx
  else { ctx with minus := some f.change.minusSide, plus := some f.change.plusSide }

/-- the start of a section, as its first line gives it -/
def Change.startCtx (c : Change) (k : Nat) : FileCtx :=
  (FileStart.git ("a/".toList ++ c.oldPath ++ " b/".toList ++ c.newPath)).ctx k

/-- a header line that says nothing about hunks -/
lemma run_header {ctx' : FileCtx} {line : Line} (hone : OneLine line) (htr : b.truncated = false)
    (hstart : fileStart line = none) (hat : startsWith "@@".toList line = false)
    (hline : headerLine b ctx .header line = ⟨b, some ctx', .header⟩) :
    Parser.run ⟨b, some ctx, .header⟩ (line :: rest) = Parser.run ⟨b, some ctx', .header⟩ rest := by
  refine run_line hone.2 htr ?_
  rw [step_section hstart]
  show (headLine b ctx .header line, true) = _
  unfold headLine
  rw [if_neg (by rw [hat]; exact Bool.false_ne_true), hline]

lemma oneLine_text {x y : Line} (hx : '\n' ∉ x ∧ '\r' ∉ x) (hy : OneLine y) : OneLine (x ++ y) :=
  oneLine_append.mpr ⟨hx, hy⟩

theorem run_extended {c : Change} (h : c.Plain) (htr : b.truncated = false) :
    Parser.run ⟨b, some ctx, .header⟩ (c.extended ++ rest) =
      Parser.run ⟨b, some (c.applied ctx), .header⟩ rest := by
  cases c with
  | modified path modes =>
    cases modes with
    | none => rfl
    | some m =>
      obtain ⟨hold, hnew⟩ := h.2 m rfl
      show Parser.run _ (("old mode ".toList ++ m.1) :: ("new mode ".toList ++ m.2) :: rest) = _
      rw [run_header (oneLine_text (by decide) hold) htr rfl rfl rfl,
        run_header (oneLine_text (by decide) hnew) htr rfl rfl rfl]
      rfl
  | added path mode => exact run_header (oneLine_text (by decide) h.2) htr rfl rfl rfl
  | deleted path mode => exact run_header (oneLine_text (by decide) h.2) htr rfl rfl rfl
  | renamed old new similarity =>
    obtain ⟨hold, hnew, -, hsim⟩ := h
    have hfrom : unquotePath old = old := unquotePath_plain (hold.not_mem (Or.inl rfl))
    have hto : unquotePath new = new := unquotePath_plain (hnew.not_mem (Or.inl rfl))
    have hline1 : ∀ ctx : FileCtx, headerLine b ctx .header ("rename from ".toList ++ old) =
        ⟨b, some { ctx with isRename := true, renameFrom := some old }, .header⟩ := by
      intro ctx
      rw [← congrArg some hfrom]
      rfl
    have hline2 : ∀ ctx : FileCtx, headerLine b ctx .header ("rename to ".toList ++ new) =
        ⟨b, some { ctx with isRename := true, renameTo := some new }, .header⟩ := by
      intro ctx
      rw [← congrArg some hto]
      rfl
    show Parser.run _ (("similarity index ".toList ++ similarity) :: ("rename from ".toList ++ old) ::
      ("rename to ".toList ++ new) :: rest) = _
    rw [run_header (oneLine_text (by decide) hsim) htr rfl rfl rfl,
      run_header (oneLine_text (by decide) hold.oneLine) htr rfl rfl (hline1 ctx),
      run_header (oneLine_text (by decide) hnew.oneLine) htr rfl rfl (hline2 _)]
    rfl

theorem run_index {index : Option Line} (h : ∀ t, index = some t → OneLine t) (htr : b.truncated = false) :
    Parser.run ⟨b, some ctx, .header⟩ ((index.map ("index ".toList ++ ·)).toList ++ rest) =
      Parser.run ⟨b, some ctx, .header⟩ rest := by
  cases index with
  | none => rfl
  | some t => exact run_header (oneLine_text (by decide) (h t rfl)) htr rfl rfl rfl

lemma oneLine_sidePath {side p : Line} (hs : OneLine side) (h : PlainPath p) : OneLine (sidePath side p) := by
  refine oneLine_append.mpr ⟨oneLine_append.mpr ⟨hs, h.oneLine⟩, ?_⟩
  split_ifs
  · exact ⟨by decide, by decide⟩
  · exact ⟨List.not_mem_nil, List.not_mem_nil⟩

lemma oneLine_operands {c : Change} (h : c.Plain) : OneLine c.minus ∧ OneLine c.plus := by
  have ha : OneLine "a/".toList := ⟨by decide, by decide⟩
  have hb : OneLine "b/".toList := ⟨by decide, by decide⟩
  have hnull : OneLine devNull := ⟨by decide, by decide⟩
  cases c with
  | modified path modes => exact ⟨oneLine_sidePath ha h.1, oneLine_sidePath hb h.1⟩
  | added path mode => exact ⟨hnull, oneLine_sidePath hb h.1⟩
  | deleted path mode => exact ⟨oneLine_sidePath ha h.1, hnull⟩
  | renamed old new similarity => exact ⟨oneLine_sidePath ha h.1, oneLine_sidePath hb h.2.1⟩

theorem run_sides {f : FileSection} (h : f.Plain) (htr : b.truncated = false) :
    Parser.run ⟨b, some ctx, .header⟩ (f.sides ++ rest) =
      Parser.run ⟨b, some (f.applied ctx), .header⟩ rest := by
  obtain ⟨hm, hp⟩ := oneLine_operands h.change
  unfold FileSection.sides FileSection.applied
  split_ifs
  · rfl
  · have hline1 : ∀ ctx : FileCtx, headerLine b ctx .header ("--- ".toList ++ f.change.minus) =
        ⟨b, some { ctx with minus := some f.change.minusSide }, .header⟩ := by
      intro ctx
      rw [← congrArg some (pathSide_minus h.change)]
      rfl
    have hline2 : ∀ ctx : FileCtx, headerLine b ctx .header ("+++ ".toList ++ f.change.plus) =
        ⟨b, some { ctx with plus := some f.change.plusSide }, .header⟩ := by
      intro ctx
      rw [← congrArg some (pathSide_plus h.change)]
      rfl
    show Parser.run _ (("--- ".toList ++ f.change.minus) :: ("+++ ".toList ++ f.change.plus) :: rest) = _
    rw [run_header (oneLine_text (by decide) hm) htr rfl rfl (hline1 ctx),
      run_header (oneLine_text (by decide) hp) htr rfl rfl (hline2 _)]

lemma identified_of {k : Nat} {c : Change} (hindex : ctx.index = k) (hcomb : ctx.combined = false)
    (hold : ctx.oldSide = some c.oldPath) (hpath : ctx.path = c.newPath) (hstatus : ctx.status = c.status)
    (h : c.Plain) : Identified ctx k c := by
  have holdPath : ctx.oldPath = if c.oldPath = c.newPath then none else some c.oldPath := by
    unfold FileCtx.oldPath
    rw [hold, hpath, Option.filter_some]
    by_cases e : c.oldPath = c.newPath
    · rw [if_pos e, if_neg (by rw [e]; simp)]
    · rw [if_neg e, if_pos (decide_eq_true e)]
  refine ⟨hindex, hcomb, hpath, holdPath, hstatus, ?_⟩
  unfold FileCtx.title
  rw [holdPath, hstatus, hpath]
  cases c with
  | modified path modes => split_ifs <;> rfl
  | added path mode => split_ifs <;> rfl
  | deleted path mode => split_ifs <;> rfl
  | renamed old new similarity =>
    have hne : ¬ Change.oldPath (.renamed old new similarity) = Change.newPath (.renamed old new similarity) :=
      h.2.2.1
    rw [if_neg hne]
    rfl

/-- the lines before the first hunk give a section the identity of its change -/
theorem identified {f : FileSection} (h : f.change.Plain) (k : Nat) :
    Identified (f.applied (f.change.applied (f.change.startCtx k))) k f.change := by
  obtain ⟨change, index, hunks⟩ := f
  have hsame : ∀ p : Line, PlainPath p → (FileStart.git ("a/".toList ++ p ++ " b/".toList ++ p)).ctx k =
      ⟨k, some p, some p, none, none, none, none, false, false, false, false, false, 1, 1⟩ := by
    intro p hp
    unfold FileStart.ctx
    dsimp only
    rw [splitGitPaths_same hp]
  unfold FileSection.applied
  cases change with
  | modified path modes =>
    have e : Change.startCtx (.modified path modes) k = _ := hsame path h.1
    rw [e]
    split_ifs <;> exact identified_of rfl rfl rfl rfl rfl h
  | added path mode =>
    have e : Change.startCtx (.added path mode) k = _ := hsame path h.1
    rw [e]
    split_ifs <;> exact identified_of rfl rfl rfl rfl rfl h
  | deleted path mode =>
    have e : Change.startCtx (.deleted path mode) k = _ := hsame path h.1
    rw [e]
    split_ifs <;> exact identified_of rfl rfl rfl rfl rfl h
  | renamed old new similarity =>
    unfold Change.startCtx FileStart.ctx
    split_ifs <;> exact identified_of rfl rfl rfl rfl rfl h

/-! ## sections -/

/-- a document that the parser can go on with -/
structure Grown (d : DiffDocument) : Prop where
  going : d.truncated = false
  rows_nil : d.rows = [] ↔ d.files = []
  few : d.files.length ≤ d.lines.length

lemma length_fileRows_pos (f : FileSection) (k : Nat) : 0 < (f.rows k).length := Nat.succ_pos _

lemma length_addFile (d : DiffDocument) (f : FileSection) : (d.addFile f).lines.length =
    d.lines.length + ((spacer d.files.length).length + (f.rows d.files.length).length) := by
  show (d.lines ++ (spacer d.files.length ++ f.rows d.files.length).map Prod.snd).length = _
  rw [List.length_append, List.length_map, List.length_append]

lemma Grown.addFile {d : DiffDocument} (h : Grown d) (f : FileSection) : Grown (d.addFile f) where
  going := h.going
  rows_nil := by
    refine iff_of_false (fun e => ?_) (fun e => ?_)
    · have hr := (List.append_eq_nil_iff.mp e).2
      rw [List.map_eq_nil_iff] at hr
      exact List.cons_ne_nil _ _ (List.append_eq_nil_iff.mp hr).2
    · exact List.cons_ne_nil _ _ (List.append_eq_nil_iff.mp e).2
  few := by
    rw [length_addFile]
    show (d.files ++ [_]).length ≤ _
    rw [List.length_append, List.length_singleton]
    have := h.few
    have := length_fileRows_pos f d.files.length
    omega

/-- the builder of a document -/
def DiffDocument.builder (cap : Nat) (d : DiffDocument) : Builder := ⟨cap, d.lines, d.rows, d.files, d.truncated⟩

/-- the document with the file section `f` opened: its identity is not known yet -/
def DiffDocument.openFile (d : DiffDocument) (cap : Nat) : Builder :=
  let k := d.files.length
  { (d.builder cap).extend (spacer k ++ [(⟨.fileHeader, k, none, none⟩, [])]) with
    files := d.files ++ [⟨[], none, .modified, d.lines.length + (spacer k).length, []⟩] }

lemma beginFile_eq {d : DiffDocument} (hd : Grown d) {cap : Nat} (hcap : cap ≤ u32Max)
    (hroom : d.lines.length + (spacer d.files.length).length + 1 < cap) (start : FileStart) :
    (d.builder cap).beginFile start = (d.openFile cap, some (start.ctx d.files.length)) := by
  have hfew := hd.few
  have hk : asU32 d.files.length = d.files.length := asU32_eq (by omega)
  have hclamp : clampLine [] = [] := rfl
  have hspacer : (d.builder cap).pushSpacer d.files.length =
      ((d.builder cap).extend (spacer d.files.length), true) := by
    unfold Builder.pushSpacer spacer
    by_cases hr : d.rows = []
    · have hz : d.files.length = 0 := by rw [hd.rows_nil.mp hr]; rfl
      rw [if_pos (show (d.builder cap).rows = [] from hr), if_pos hz, extend_nil]
    · have hz : d.files.length ≠ 0 := fun e => hr (hd.rows_nil.mpr (List.length_eq_zero_iff.mp e))
      rw [if_neg (show ¬ (d.builder cap).rows = [] from hr), if_neg hz]
      exact push_extend _ _ hd.going (by show d.lines.length + 1 < cap; omega)
  unfold Builder.beginFile
  dsimp only
  rw [show (d.builder cap).files.length = d.files.length from rfl, hk, hspacer]
  dsimp only
  rw [push_extend _ _ hd.going (by rw [length_extend]; exact hroom), extend_append, length_extend, hclamp]
  rfl

lemma length_openFile (d : DiffDocument) (cap : Nat) :
    (d.openFile cap).lines.length = d.lines.length + (spacer d.files.length).length + 1 := by
  show (d.lines ++ (spacer d.files.length ++ [_]).map Prod.snd).length = _
  rw [List.length_append, List.length_map, List.length_append]
  exact (Nat.add_assoc ..).symm

lemma set_at {α : Type} (A : List α) (a a' : α) (B : List α) : (A ++ a :: B).set A.length a' = A ++ a' :: B := by
  rw [List.set_append_right _ _ (Nat.le_refl _), Nat.sub_self, List.set_cons_zero]

lemma modify_last {α : Type} (A : List α) (a : α) (g : α → α) :
    (A ++ [a]).modify A.length g = A ++ [g a] := by
  induction A with
  | nil => rfl
  | cons x A ih => exact congrArg (x :: ·) ih

/-- the identity of the section, written into its entry and its header row -/
lemma finishFile_eq {d : DiffDocument} {f : FileSection} (cap : Nat)
    (h : Identified ctx d.files.length f.change) :
    ((d.openFile cap).addHunks d.files.length (f.hunks.flatMap (Hunk.rows d.files.length))
      (hunkRowsFrom (d.openFile cap).lines.length f.hunks)).finishFile (some ctx) =
      (d.addFile f).builder cap := by
  obtain ⟨k, hk⟩ : ∃ k, k = d.files.length := ⟨_, rfl⟩
  obtain ⟨first, hfirst⟩ : ∃ first, first = d.lines.length + (spacer k).length := ⟨_, rfl⟩
  obtain ⟨hr, hhr⟩ : ∃ hr, hr = hunkRowsFrom (first + 1) f.hunks := ⟨_, rfl⟩
  have hlen : (d.openFile cap).lines.length = first + 1 := by rw [length_openFile, hfirst, hk]
  have hfiles : ((d.openFile cap).addHunks k (f.hunks.flatMap (Hunk.rows k)) hr).files =
      d.files ++ [⟨[], none, .modified, first, hr⟩] := by
    show (d.files ++ [_]).modify k _ = _
    rw [hk, modify_last, hfirst, hk]
    rfl
  have hlines : ((d.openFile cap).addHunks k (f.hunks.flatMap (Hunk.rows k)) hr).lines =
      (d.lines ++ (spacer k).map Prod.snd) ++ [] :: (f.hunks.flatMap (Hunk.rows k)).map Prod.snd := by
    show (d.lines ++ (spacer d.files.length ++ [_]).map Prod.snd) ++ _ = _
    rw [← hk, List.map_append, List.append_assoc, List.append_assoc, List.append_assoc]
    rfl
  have hrows : ((d.openFile cap).addHunks k (f.hunks.flatMap (Hunk.rows k)) hr).rows =
      d.rows ++ (spacer k ++ f.rows k).map Prod.fst := by
    show (d.rows ++ (spacer d.files.length ++ [_]).map Prod.fst) ++ _ = _
    rw [← hk, List.map_append, List.map_append, List.append_assoc, List.append_assoc]
    rfl
  rw [← hk] at h ⊢
  rw [hlen, ← hhr]
  have hget : (d.files ++ [⟨[], none, .modified, first, hr⟩])[k]? =
      some (⟨[], none, .modified, first, hr⟩ : DiffFileInfo) := by
    rw [hk]
    exact List.getElem?_concat_length ..
  have hset : (d.files ++ [(⟨[], none, .modified, first, hr⟩ : DiffFileInfo)]).set k
      ⟨ctx.path, ctx.oldPath, ctx.status, first, hr⟩ =
      d.files ++ [⟨ctx.path, ctx.oldPath, ctx.status, first, hr⟩] := by
    rw [hk]
    exact set_at ..
  have htitle : ((d.lines ++ (spacer k).map Prod.snd) ++ [] :: (f.hunks.flatMap (Hunk.rows k)).map Prod.snd).set
      first (clampLine ctx.title) = d.lines ++ (spacer k ++ f.rows k).map Prod.snd := by
    have hl : first = (d.lines ++ (spacer k).map Prod.snd).length := by
      rw [List.length_append, List.length_map, hfirst]
    rw [hl, set_at, h.title, List.map_append, List.append_assoc]
    rfl
  unfold Builder.finishFile
  dsimp only
  rw [h.index, hfiles, hget]
  dsimp only
  rw [hset, hlines, htitle, hrows, h.path, h.oldPath, h.status]
  unfold DiffDocument.builder DiffDocument.addFile
  dsimp only
  rw [← hk, ← hfirst, ← hhr]
  rfl

lemma Change.Plain.paths {c : Change} (h : c.Plain) : PlainPath c.oldPath ∧ PlainPath c.newPath := by
  cases c with
  | modified path modes => exact ⟨h.1, h.1⟩
  | added path mode => exact ⟨h.1, h.1⟩
  | deleted path mode => exact ⟨h.1, h.1⟩
  | renamed old new similarity => exact ⟨h.1, h.2.1⟩

lemma oneLine_gitLine {c : Change} (h : c.Plain) : OneLine c.gitLine := by
  obtain ⟨ho, hn⟩ := h.paths
  unfold Change.gitLine
  exact oneLine_text (by decide) (oneLine_append.mpr
    ⟨oneLine_append.mpr ⟨oneLine_text (by decide) ho.oneLine, ⟨by decide, by decide⟩⟩, hn.oneLine⟩)

/-- **Section lemma**: the lines of a section append it to the document. -/
theorem run_section (rest : List Line) {s : Parser} {d : DiffDocument} {f : FileSection} {cap : Nat} (hd : Grown d)
    (hf : f.Plain) (hcap : cap ≤ u32Max) (hs : s.doc.finishFile s.cur = d.builder cap)
    (hroom : (d.addFile f).lines.length < cap) :
    ∃ t : Parser, s.run (f.print ++ rest) = t.run rest ∧ t.doc.truncated = false ∧
      t.doc.finishFile t.cur = (d.addFile f).builder cap := by
  have htr : s.doc.truncated = false := by
    rw [← finishFile_truncated s.doc s.cur, hs]
    exact hd.going
  have hlen := length_addFile d f
  have hrows : (f.rows d.files.length).length = (f.hunks.flatMap (Hunk.rows d.files.length)).length + 1 := rfl
  have hstep : s.step f.change.gitLine =
      (⟨d.openFile cap, some (f.change.startCtx d.files.length), .header⟩, true) := by
    have hstart : fileStart f.change.gitLine =
        some (.git ("a/".toList ++ f.change.oldPath ++ " b/".toList ++ f.change.newPath)) := by
      unfold fileStart Change.gitLine
      rw [stripPrefix_append]
    unfold Parser.step
    rw [hstart]
    dsimp only
    rw [hs, beginFile_eq hd hcap (by omega)]
    rfl
  have hopen : (d.openFile cap).truncated = false := hd.going
  have hid := identified hf.change d.files.length
  obtain ⟨ctx', hctx⟩ : ∃ ctx', ctx' = f.applied (f.change.applied (f.change.startCtx d.files.length)) := ⟨_, rfl⟩
  rw [← hctx] at hid
  obtain ⟨x, y, m, -, e⟩ := run_hunks rest hf.hunks (Or.inl rfl) hid.combined hopen hcap (by
    rw [length_openFile, hid.index]
    show _ < cap
    omega)
  have hrun : s.run (f.print ++ rest) =
      Parser.run ⟨d.openFile cap, some ctx', .header⟩ (f.hunks.flatMap Hunk.print ++ rest) := by
    rw [FileSection.print, List.cons_append, run_line (oneLine_gitLine hf.change).2 htr hstep,
      List.append_assoc, List.append_assoc, List.append_assoc, run_extended hf.change hopen,
      run_index hf.index hopen, run_sides hf hopen, ← hctx]
  refine ⟨_, hrun.trans e, hopen, ?_⟩
  have hid' : Identified { ctx' with oldNo := x, newNo := y } d.files.length f.change :=
    ⟨hid.index, hid.combined, hid.path, hid.oldPath, hid.status, hid.title⟩
  have hfin := finishFile_eq cap hid'
  rw [← hid.index] at hfin
  exact hfin

lemma length_foldl (fs : List FileSection) (d : DiffDocument) :
    d.lines.length ≤ (fs.foldl DiffDocument.addFile d).lines.length := by
  induction fs generalizing d with
  | nil => exact Nat.le_refl _
  | cons f fs ih =>
    have := length_addFile d f
    exact Nat.le_trans (by omega) (ih (d.addFile f))

theorem run_sections {fs : List FileSection} (hfs : ∀ f ∈ fs, f.Plain) {s : Parser} {d : DiffDocument}
    {cap : Nat} (hd : Grown d) (hcap : cap ≤ u32Max) (hs : s.doc.finishFile s.cur = d.builder cap)
    (hroom : (fs.foldl DiffDocument.addFile d).lines.length < cap) :
    ((s.run (fs.flatMap FileSection.print)).doc.finishFile (s.run (fs.flatMap FileSection.print)).cur) =
      (fs.foldl DiffDocument.addFile d).builder cap := by
  induction fs generalizing s d with
  | nil => exact hs
  | cons f fs ih =>
    have hlen := length_foldl fs (d.addFile f)
    obtain ⟨t, hrun, -, ht⟩ := run_section (fs.flatMap FileSection.print) hd
      (hfs f List.mem_cons_self) hcap hs (Nat.lt_of_le_of_lt hlen hroom)
    rw [List.flatMap_cons, hrun]
    exact ih (fun g hg => hfs g (List.mem_cons_of_mem _ hg)) (hd.addFile f) ht hroom

/-! ## the whole patch -/

lemma oneLine_extended {c : Change} (h : c.Plain) : ∀ line ∈ c.extended, OneLine line := by
  intro line hl
  cases c with
  | modified path modes =>
    cases modes with
    | none => cases hl
    | some m =>
      obtain ⟨hold, hnew⟩ := h.2 m rfl
      rcases List.mem_cons.mp hl with rfl | hl
      · exact oneLine_text (by decide) hold
      · rw [List.mem_singleton.mp hl]
        exact oneLine_text (by decide) hnew
  | added path mode =>
    rw [List.mem_singleton.mp hl]
    exact oneLine_text (by decide) h.2
  | deleted path mode =>
    rw [List.mem_singleton.mp hl]
    exact oneLine_text (by decide) h.2
  | renamed old new similarity =>
    obtain ⟨hold, hnew, -, hsim⟩ := h
    rcases List.mem_cons.mp hl with rfl | hl
    · exact oneLine_text (by decide) hsim
    rcases List.mem_cons.mp hl with rfl | hl
    · exact oneLine_text (by decide) hold.oneLine
    · rw [List.mem_singleton.mp hl]
      exact oneLine_text (by decide) hnew.oneLine

lemma oneLine_hunk {h : Hunk} (hh : h.Plain) : ∀ line ∈ h.print, OneLine line := by
  intro line hl
  rcases List.mem_cons.mp hl with rfl | hl
  · exact oneLine_header hh
  obtain ⟨l, hm, hl⟩ := List.mem_flatMap.mp hl
  rcases List.mem_cons.mp hl with rfl | hl
  · exact oneLine_cons.mpr ⟨l.mark.char_ne, (hh.lines l hm).text⟩
  · split_ifs at hl
    · rw [List.mem_singleton.mp hl]
      exact ⟨by decide, by decide⟩
    · cases hl

lemma oneLine_section {f : FileSection} (hf : f.Plain) : ∀ line ∈ f.print, OneLine line := by
  intro line hl
  rcases List.mem_cons.mp hl with rfl | hl
  · exact oneLine_gitLine hf.change
  rcases List.mem_append.mp hl with hl | hl
  · rcases List.mem_append.mp hl with hl | hl
    · rcases List.mem_append.mp hl with hl | hl
      · exact oneLine_extended hf.change line hl
      · obtain ⟨t, ht, rfl⟩ := Option.map_eq_some_iff.mp (Option.mem_toList.mp hl)
        exact oneLine_text (by decide) (hf.index t ht)
    · obtain ⟨hm, hp⟩ := oneLine_operands hf.change
      unfold FileSection.sides at hl
      split_ifs at hl
      · cases hl
      · rcases List.mem_cons.mp hl with rfl | hl
        · exact oneLine_text (by decide) hm
        · rw [List.mem_singleton.mp hl]
          exact oneLine_text (by decide) hp
  · obtain ⟨h, hm, hl⟩ := List.mem_flatMap.mp hl
    exact oneLine_hunk (hf.hunks h hm) line hl

end

/-- **Main result.** A patch that fits the budget, printed in git's format, is read back as the rows of
its hunks, in order: whatever the source lines look like, each row has its text without the marker, its
kind and its numbers counted from the starts of its hunk, and each file and hunk is listed once.  One
row of the budget is kept for the notice, and the numbers of the lines fit a `u32`. -/
theorem parse_printPatch (fs : List FileSection) (hfs : ∀ f ∈ fs, f.Plain)
    (hroom : (patchDocument fs).lines.length < maxDiffRows) :
    parseUnifiedDiff (printPatch fs) = patchDocument fs := by
  have hlines : strLines (printPatch fs) = fs.flatMap FileSection.print := by
    refine strLines_lines fun l hl => ?_
    obtain ⟨f, hf, hl⟩ := List.mem_flatMap.mp hl
    have hone := oneLine_section (hfs f hf) l hl
    exact ⟨hone.1, fun e => hone.2 (List.mem_of_getLast? e)⟩
  have hstart : Grown ⟨[], [], [], false⟩ := ⟨rfl, ⟨fun _ => rfl, fun _ => rfl⟩, Nat.le_refl _⟩
  have hrun := run_sections hfs (s := ⟨.new maxDiffRows, none, .outside⟩) hstart (by decide) rfl hroom
  unfold parseUnifiedDiff parseUnifiedDiffWithCap
  rw [hlines]
  dsimp only
  rw [hrun]
  rfl

/-- source lines that look like headers, an empty one and one without a line feed at its end -/
def samplePatch : List FileSection :=
  [⟨.modified "src/a b.rs".toList none, some "1..2 100644".toList,
      [⟨10, 12, some "fn x()".toList, [⟨.context, "@@ -1 +1 @@".toList, false⟩,
          ⟨.removed, "-- a/x".toList, true⟩, ⟨.added, [], true⟩]⟩,
        ⟨3, 3, none, [⟨.added, "diff --git a/x b/x".toList, false⟩]⟩]⟩,
    ⟨.renamed "a".toList "b".toList "95%".toList, none, []⟩]

theorem parse_samplePatch : parseUnifiedDiff (printPatch samplePatch) = patchDocument samplePatch :=
  parse_printPatch samplePatch (by decide) (by decide)

/-- a hunk of two lines, the second of them past `u32::MAX` -/
def overflowPatch : List FileSection :=
  [⟨.modified "a".toList none, none,
    [⟨u32Max, u32Max, none, [⟨.context, "x".toList, false⟩, ⟨.context, "y".toList, false⟩]⟩]⟩]

/-- The second line keeps the number of the first. -/
theorem parse_past_u32 : parseUnifiedDiff (printPatch overflowPatch) ≠ patchDocument overflowPatch := by
  intro h
  have hrow := congrArg (fun d => d.rows[3]?.bind DiffRowInfo.oldNo) h
  exact absurd hrow (by decide)

end TerminalManager.Diff
