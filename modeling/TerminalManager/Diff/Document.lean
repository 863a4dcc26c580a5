import TerminalManager.Diff.Builder

/-!
# The document of a diff is well formed

Whatever the input and whatever the row budget, the vectors that the parser fills stay consistent.

* `Good`                     the invariant of the loop;
* `step_good`, `run_good`    every line keeps it, hence the loop;
* `document_well_formed`     **Main result.**
* `document_not_exact`       the three ways out: a number past `u32::MAX`, a carriage return inside of
                             a line, and a file past the range of `u32`.
-/

namespace TerminalManager.Diff
open Editor (Line len)
open Lines

section
variable {c : Char} {cap : Nat} {b : Builder} {row : DiffRowInfo} {text : Line} {ctx : FileCtx}

/-! ## one line -/

/-- the counters of a section go on where the numbers of its hunk stopped -/
structure Counts (ctx : FileCtx) (rows : List DiffRowInfo) : Prop where
  old : ∀ n, lastNo DiffRowInfo.oldNo rows = some n → ctx.oldNo = satSucc n
  new : ∀ n, lastNo DiffRowInfo.newNo rows = some n → ctx.newNo = satSucc n

/-- the invariant of the loop -/
structure Good (c : Char) (cap : Nat) (s : Parser) : Prop where
  doc : Inv c cap s.doc
  index : ∀ ctx, s.cur = some ctx → ctx.index + 1 = s.doc.files.length
  clean : ∀ ctx, s.cur = some ctx → ctx.Clean c
  counts : ∀ ctx o n, s.cur = some ctx → s.mode = .hunk o n → s.doc.truncated = false →
    Counts ctx s.doc.rows

lemma push_truncated {b : Builder} (h : (b.push row text).1.truncated = false) :
    b.push row text = (b.append row (clampLine text), true) := by
  rcases push_cases b row text with e | ⟨-, -, e⟩
  · rw [e, markTruncated_truncated] at h
    cases h
  · exact e

/-- a row of the current section, when the counters are moved as it says -/
theorem Good.pushed (hc : c = '\n' ∨ c = '\r') (hcap : cap < 2 * (u32Max + 1)) {ctx' : FileCtx} {mode : Mode}
    (hdoc : Inv c cap b) (hfits : Fits b row) (hkind : row.kind ≠ .hunkHeader) (ht : c ∉ text)
    (hindex : ctx'.index + 1 = b.files.length) (hclean : ctx'.Clean c)
    (hcounts : ∀ o n, mode = .hunk o n → Counts ctx' (b.rows ++ [row])) :
    Good c cap ⟨(b.push row text).1, some ctx', mode⟩ where
  doc := hdoc.push hc hcap hfits hkind ht
  index := by
    intro ctx' e
    cases e
    rw [push_files]
    exact hindex
  clean := by
    intro ctx' e
    cases e
    exact hclean
  counts := by
    intro ctx' o n e hm htr
    cases e
    rw [push_truncated htr]
    exact hcounts o n hm

lemma Counts.note (h : Counts ctx b.rows) (file : Nat) :
    Counts ctx (b.rows ++ [⟨.note, file, none, none⟩]) := by
  constructor <;> intro n hn <;> rw [lastNo_snoc, if_neg (by simp)] at hn
  exacts [h.old n hn, h.new n hn]

lemma Good.note (hc : c = '\n' ∨ c = '\r') (hcap : cap < 2 * (u32Max + 1)) {ctx ctx' : FileCtx} {mode : Mode}
    (hdoc : Inv c cap b) (hindex : ctx.index + 1 = b.files.length) (he : ctx'.index = ctx.index)
    (hclean : ctx'.Clean c) (hcounts : ∀ o n, mode = .hunk o n → Counts ctx' b.rows) (ht : c ∉ text) :
    Good c cap ⟨(b.push ⟨.note, ctx.index, none, none⟩ text).1, some ctx', mode⟩ :=
  Good.pushed hc hcap hdoc (fits_plain rfl hindex) (by simp) ht (by rw [he]; exact hindex) hclean
    fun o n hm => (hcounts o n hm).note _

lemma Good.quiet {ctx : FileCtx} {mode : Mode} (hdoc : Inv c cap b)
    (hindex : ctx.index + 1 = b.files.length) (hclean : ctx.Clean c) (hmode : ∀ o n, mode ≠ .hunk o n) :
    Good c cap ⟨b, some ctx, mode⟩ where
  doc := hdoc
  index := by
    intro ctx' e
    cases e
    exact hindex
  clean := by
    intro ctx' e
    cases e
    exact hclean
  counts := fun ctx' o n _ hm => absurd hm (hmode o n)

theorem headerLine_good (hc : c = '\n' ∨ c = '\r') (hcap : cap < 2 * (u32Max + 1)) {mode : Mode} {line : Line}
    (hdoc : Inv c cap b) (hindex : ctx.index + 1 = b.files.length) (hclean : ctx.Clean c)
    (hmode : ∀ o n, mode ≠ .hunk o n) (hl : c ∉ line) : Good c cap (headerLine b ctx mode line) := by
  have hbin : c ∉ binaryNotice := by rcases hc with rfl | rfl <;> decide
  unfold headerLine
  split
  · rename_i rest e
    have hrest := stripPrefix_clean e hl
    refine Good.quiet hdoc hindex ⟨hclean.gitOld, hclean.gitNew, fun l hl => ?_, hclean.plus,
      hclean.renameFrom, hclean.renameTo⟩ hmode
    exact pathSide_clean hc hrest hl
  split
  · rename_i rest e
    have hrest := stripPrefix_clean e hl
    refine Good.quiet hdoc hindex ⟨hclean.gitOld, hclean.gitNew, hclean.minus, fun l hl => ?_,
      hclean.renameFrom, hclean.renameTo⟩ hmode
    exact pathSide_clean hc hrest hl
  split
  · rename_i rest e
    have hrest := stripPrefix_clean e hl
    refine Good.quiet hdoc hindex ⟨hclean.gitOld, hclean.gitNew, hclean.minus, hclean.plus,
      fun l hl => ?_, hclean.renameTo⟩ hmode
    cases hl
    exact not_mem_unquotePath hc hrest
  split
  · rename_i rest e
    have hrest := stripPrefix_clean e hl
    refine Good.quiet hdoc hindex ⟨hclean.gitOld, hclean.gitNew, hclean.minus, hclean.plus,
      hclean.renameFrom, fun l hl => ?_⟩ hmode
    cases hl
    exact not_mem_unquotePath hc hrest
  have hsame : ∀ x y z : Bool, FileCtx.Clean c { ctx with isNew := x, isDeleted := y, isBinary := z } :=
    fun _ _ _ => ⟨hclean.gitOld, hclean.gitNew, hclean.minus, hclean.plus, hclean.renameFrom, hclean.renameTo⟩
  split_ifs
  · exact Good.quiet hdoc hindex (hsame true ctx.isDeleted ctx.isBinary) hmode
  · exact Good.quiet hdoc hindex (hsame ctx.isNew true ctx.isBinary) hmode
  · exact Good.note hc hcap hdoc hindex rfl (hsame ctx.isNew ctx.isDeleted true)
      (fun o n e => absurd e (hmode o n)) hbin
  · exact Good.note hc hcap hdoc hindex rfl (hsame ctx.isNew ctx.isDeleted true)
      (fun o n e => by cases e) hbin
  · exact Good.quiet hdoc hindex hclean hmode

lemma map_modify {α β : Type} (f : α → β) (g : α → α) (g' : β → β) (h : ∀ a, f (g a) = g' (f a))
    (l : List α) (k : Nat) : (l.modify k g).map f = (l.map f).modify k g' := by
  apply List.ext_getElem?
  intro i
  rw [List.getElem?_map, List.getElem?_modify, List.getElem?_modify, List.getElem?_map,
    Option.map_eq_map, Option.map_eq_map, Option.map_map, Option.map_map]
  congr 1
  funext a
  show f (if k = i then g a else a) = if k = i then g' (f a) else f a
  split_ifs
  exacts [h a, rfl]

/-- the header row of a hunk, recorded in the last file -/
theorem Inv.pushHunk (hc : c = '\n' ∨ c = '\r') (hcap : cap < 2 * (u32Max + 1)) {line : Line} (h : Inv c cap b)
    (hindex : ctx.index + 1 = b.files.length) (hl : c ∉ line) :
    Inv c cap (pushHunk b ctx line) ∧ (pushHunk b ctx line).files.length = b.files.length ∧
      ((pushHunk b ctx line).truncated = false →
        (pushHunk b ctx line).rows = b.rows ++ [⟨.hunkHeader, ctx.index, none, none⟩]) := by
  unfold Diff.pushHunk
  dsimp only
  rcases push_cases b ⟨.hunkHeader, ctx.index, none, none⟩ line with e | ⟨htr, hroom, e⟩ <;> rw [e]
  · refine ⟨h.markTruncated hc hcap _ (by show _ ≤ ctx.index + 1; omega),
      congrArg List.length (markTruncated_files ..), fun htr => ?_⟩
    rw [show (b.markTruncated ctx.index).truncated = true from markTruncated_truncated ..] at htr
    cases htr
  · rw [h.parallel, h.cap_eq] at hroom
    refine ⟨⟨⟨h.cap_eq, ?_, ?_, ?_, ?_, ?_, h.oldNumbers.snoc fun n m _ hm => (by cases hm),
      h.newNumbers.snoc fun n m _ hm => (by cases hm),
      mem_snoc_clean h.clean (not_mem_clampLine hc hl)⟩, ?_, ?_⟩, List.length_modify .., fun _ => rfl⟩
    · show (b.lines ++ [_]).length = (b.rows ++ [_]).length
      rw [List.length_append, List.length_append, h.parallel]
      rfl
    · show (b.rows ++ [_]).length ≤ cap
      rw [List.length_append, List.length_singleton]
      omega
    · have hmap := map_modify DiffFileInfo.firstRow
        (fun info => { info with hunkRows := info.hunkRows ++ [b.lines.length] }) id (fun _ => rfl)
        b.files ctx.index
      rw [List.modify_id] at hmap
      show Layout (b.rows ++ [_]) ((b.files.modify _ _).map _)
      rw [hmap]
      exact h.layout.append (by rw [List.length_map]; exact hindex)
    · have hmap := map_modify DiffFileInfo.hunkRows
        (fun info => { info with hunkRows := info.hunkRows ++ [b.lines.length] })
        (· ++ [b.lines.length]) (fun _ => rfl) b.files ctx.index
      show Hunked (b.rows ++ [_]) ((b.files.modify _ _).map _)
      rw [hmap, h.parallel]
      exact h.hunked.hunk rfl
    · intro r hr
      rcases List.mem_append.mp hr with hr | hr
      · exact h.sided r hr
      · rw [List.mem_singleton.mp hr]
        exact sided_plain _ rfl
    · intro _ _
      show (b.rows ++ [_]).length < cap
      rw [List.length_append, List.length_singleton]
      exact hroom
    · intro htr'
      have : b.truncated = true := htr'
      rw [htr] at this
      cases this

/-- the header of a hunk: its row is recorded and the numbers start again -/
theorem Good.hunk (hc : c = '\n' ∨ c = '\r') (hcap : cap < 2 * (u32Max + 1)) {line : Line} (o n old new : Nat)
    (hdoc : Inv c cap b) (hindex : ctx.index + 1 = b.files.length) (hclean : ctx.Clean c) (hl : c ∉ line) :
    Good c cap ⟨pushHunk b ctx line, some { ctx with oldNo := old, newNo := new }, .hunk o n⟩ := by
  have hclean' : FileCtx.Clean c { ctx with oldNo := old, newNo := new } :=
    ⟨hclean.gitOld, hclean.gitNew, hclean.minus, hclean.plus, hclean.renameFrom, hclean.renameTo⟩
  obtain ⟨hinv, hlen, hrows⟩ := hdoc.pushHunk hc hcap hindex hl
  refine ⟨hinv, fun ctx' e' => ?_, fun ctx' e' => ?_, fun ctx' o' n' e' _ htr => ?_⟩
  · cases e'
    show ctx.index + 1 = _
    rw [hlen]
    exact hindex
  · cases e'
    exact hclean'
  · rw [hrows htr]
    constructor <;> intro m hm <;> rw [lastNo_snoc, if_pos rfl] at hm <;> cases hm

theorem headLine_good (hc : c = '\n' ∨ c = '\r') (hcap : cap < 2 * (u32Max + 1)) {mode : Mode} {line : Line}
    (hdoc : Inv c cap b) (hindex : ctx.index + 1 = b.files.length) (hclean : ctx.Clean c)
    (hmode : ∀ o n, mode ≠ .hunk o n) (hl : c ∉ line) : Good c cap (headLine b ctx mode line) := by
  have hcomb : c ∉ combinedNotice := by rcases hc with rfl | rfl <;> decide
  unfold headLine
  split_ifs
  · exact Good.note hc hcap hdoc hindex rfl hclean (fun o n e => by cases e) hcomb
  · split
    · exact Good.hunk hc hcap _ _ _ _ hdoc hindex hclean hl
    · exact Good.quiet hdoc hindex hclean hmode
  · exact headerLine_good hc hcap hdoc hindex hclean hmode hl

lemma bodyRow_clean {line : Line} {kind : DiffRowKind} (h : bodyRow line = some (kind, text))
    (hl : c ∉ line) : c ∉ text ∧ (kind = .context ∨ kind = .added ∨ kind = .removed) := by
  unfold bodyRow at h
  split at h
  · cases h
    exact ⟨hl, Or.inl rfl⟩
  · cases h
    exact ⟨fun hm => hl (List.mem_cons_of_mem _ hm), Or.inl rfl⟩
  · cases h
    exact ⟨fun hm => hl (List.mem_cons_of_mem _ hm), Or.inr (Or.inl rfl)⟩
  · cases h
    exact ⟨fun hm => hl (List.mem_cons_of_mem _ hm), Or.inr (Or.inr rfl)⟩
  · cases h

/-- a content row carries the counters of its sides, and they move past it -/
theorem contentRow_good (hc : c = '\n' ∨ c = '\r') (hcap : cap < 2 * (u32Max + 1)) {kind : DiffRowKind} (o n : Nat)
    (hdoc : Inv c cap b) (hindex : ctx.index + 1 = b.files.length) (hclean : ctx.Clean c)
    (hcounts : Counts ctx b.rows) (hkind : kind = .context ∨ kind = .added ∨ kind = .removed)
    (ht : c ∉ text) : Good c cap (contentRow b ctx o n kind text) := by
  have hsame : ∀ x y : Nat, FileCtx.Clean c { ctx with oldNo := x, newNo := y } :=
    fun _ _ => ⟨hclean.gitOld, hclean.gitNew, hclean.minus, hclean.plus, hclean.renameFrom, hclean.renameTo⟩
  have hold : ∀ a m, lastNo DiffRowInfo.oldNo b.rows = some a → some ctx.oldNo = some m → m = satSucc a := by
    intro a m ha hm
    cases hm
    exact hcounts.old a ha
  have hnew : ∀ a m, lastNo DiffRowInfo.newNo b.rows = some a → some ctx.newNo = some m → m = satSucc a := by
    intro a m ha hm
    cases hm
    exact hcounts.new a ha
  rcases hkind with rfl | rfl | rfl
  · refine Good.pushed hc hcap hdoc ⟨hindex, ⟨by simp, by simp⟩, hold, hnew⟩ (by simp) ht hindex
      (hsame (satSucc ctx.oldNo) (satSucc ctx.newNo)) fun _ _ _ => ⟨fun a ha => ?_, fun a ha => ?_⟩
    all_goals
      rw [lastNo_snoc, if_neg (by simp)] at ha
      cases ha
      rfl
  · refine Good.pushed hc hcap hdoc ⟨hindex, ⟨by simp, by simp⟩, fun a m _ hm => (by cases hm), hnew⟩
      (by simp) ht hindex (hsame ctx.oldNo (satSucc ctx.newNo)) fun _ _ _ => ⟨fun a ha => ?_, fun a ha => ?_⟩
    all_goals rw [lastNo_snoc, if_neg (by simp)] at ha
    · exact hcounts.old a ha
    · cases ha
      rfl
  · refine Good.pushed hc hcap hdoc ⟨hindex, ⟨by simp, by simp⟩, hold, fun a m _ hm => (by cases hm)⟩
      (by simp) ht hindex (hsame (satSucc ctx.oldNo) ctx.newNo) fun _ _ _ => ⟨fun a ha => ?_, fun a ha => ?_⟩
    all_goals rw [lastNo_snoc, if_neg (by simp)] at ha
    · cases ha
      rfl
    · exact hcounts.new a ha

theorem bodyLine_good (hc : c = '\n' ∨ c = '\r') (hcap : cap < 2 * (u32Max + 1)) {o n : Nat} {line : Line} {s : Parser}
    (hdoc : Inv c cap b) (hindex : ctx.index + 1 = b.files.length) (hclean : ctx.Clean c)
    (hcounts : Counts ctx b.rows) (hl : c ∉ line) (h : bodyLine b ctx o n line = some s) : Good c cap s := by
  unfold bodyLine at h
  split_ifs at h
  · cases h
    exact Good.note hc hcap hdoc hindex rfl hclean (fun _ _ _ => hcounts) hl
  · split at h
    · rename_i kind text e
      cases h
      obtain ⟨ht, hkind⟩ := bodyRow_clean e hl
      exact contentRow_good hc hcap o n hdoc hindex hclean hcounts hkind ht
    · cases h

theorem sectionLine_good (hc : c = '\n' ∨ c = '\r') (hcap : cap < 2 * (u32Max + 1)) {mode : Mode} {line : Line}
    (h : Good c cap ⟨b, some ctx, mode⟩) (htr : b.truncated = false) (hl : c ∉ line) :
    Good c cap (sectionLine b ctx mode line) := by
  have hdoc := h.doc
  have hindex := h.index ctx rfl
  have hclean := h.clean ctx rfl
  unfold sectionLine
  cases mode with
  | skip => exact h
  | outside => exact headLine_good hc hcap hdoc hindex hclean (fun o n e => by cases e) hl
  | header => exact headLine_good hc hcap hdoc hindex hclean (fun o n e => by cases e) hl
  | hunk o n =>
    dsimp only
    cases e : bodyLine b ctx o n line with
    | none => exact headLine_good hc hcap hdoc hindex hclean (fun o n e => by cases e) hl
    | some s => exact bodyLine_good hc hcap hdoc hindex hclean (h.counts ctx o n rfl rfl htr) hl e

/-- **Step lemma**: one line keeps the invariant of the loop. -/
theorem step_good (hc : c = '\n' ∨ c = '\r') (hcap : cap < 2 * (u32Max + 1)) {s : Parser} {line : Line}
    (h : Good c cap s) (htr : s.doc.truncated = false) (hl : c ∉ line) : Good c cap (s.step line).1 := by
  obtain ⟨doc, cur, mode⟩ := s
  unfold Parser.step
  cases hstart : fileStart line with
  | some start =>
    dsimp only
    have hrest : c ∉ start.rest := by
      unfold fileStart at hstart
      split at hstart
      · rename_i rest e
        cases hstart
        exact stripPrefix_clean e hl
      split at hstart
      · rename_i rest e
        cases hstart
        exact stripPrefix_clean e hl
      split at hstart
      · rename_i rest e
        cases hstart
        exact stripPrefix_clean e hl
      · cases hstart
    have hfin := h.doc.finishFile hc cur h.clean
    have hftr : (doc.finishFile cur).truncated = false := by rw [finishFile_truncated]; exact htr
    obtain ⟨hdoc, hctx⟩ := hfin.beginFile hc hcap hftr start hrest
    generalize (doc.finishFile cur).beginFile start = x at hdoc hctx ⊢
    obtain ⟨doc', ctx'⟩ := x
    cases ctx' with
    | none => exact ⟨hdoc, fun _ e => (by cases e), fun _ e => (by cases e), fun _ _ _ e => (by cases e)⟩
    | some ctx' =>
      obtain ⟨hi, hcl⟩ := hctx ctx' rfl
      exact Good.quiet hdoc hi hcl (fun o n e => by cases e)
  | none =>
    dsimp only
    cases cur with
    | none => exact h
    | some ctx => exact sectionLine_good hc hcap h htr hl

/-- **Run lemma** -/
theorem run_good (hc : c = '\n' ∨ c = '\r') (hcap : cap < 2 * (u32Max + 1)) {s : Parser} {lines : List Line}
    (h : Good c cap s) (hl : ∀ l ∈ lines, c ∉ (stripSuffix '\r' l).getD l) : Good c cap (s.run lines) := by
  induction lines generalizing s with
  | nil => exact h
  | cons raw rest ih =>
    rw [Parser.run]
    split_ifs with htr
    · exact h
    · have hstep := step_good hc hcap h (by simpa using htr) (hl raw List.mem_cons_self)
      generalize s.step ((stripSuffix '\r' raw).getD raw) = x at hstep ⊢
      obtain ⟨s', go⟩ := x
      cases go with
      | false => exact hstep
      | true => exact ih hstep fun l hm => hl l (List.mem_cons_of_mem _ hm)

/-! ## the whole document -/

theorem Inv.wellFormed {banned : List Char} (h : Inv c cap b)
    (hclean : ∀ l ∈ b.lines, ∀ d ∈ banned, d ∉ l) : WellFormed satSucc banned b.intoDocument cap where
  parallel := h.parallel
  budget := h.budget
  valid := by
    intro r hr
    have := h.layout.valid r hr
    rwa [List.length_map] at this
  header := by
    intro k info hk
    refine h.layout.header k info.firstRow ?_
    rw [List.getElem?_map, show b.files[k]? = some info from hk]
    rfl
  ascending := by
    intro info hinfo
    obtain ⟨k, hk⟩ := List.getElem?_of_mem hinfo
    refine (h.hunked k info.hunkRows ?_).1
    rw [List.getElem?_map, show b.files[k]? = some info from hk]
    rfl
  hunks := by
    intro k info hk
    refine (h.hunked k info.hunkRows ?_).2
    rw [List.getElem?_map, show b.files[k]? = some info from hk]
    rfl
  sections := by
    intro k info hk i r hr
    have hk' : (b.files.map DiffFileInfo.firstRow)[k]? = some info.firstRow := by
      rw [List.getElem?_map, show b.files[k]? = some info from hk]
      rfl
    rw [h.layout.sections k info.firstRow hk' i r hr]
    refine and_congr_right fun _ => ⟨fun hi after hafter => hi after.firstRow ?_, fun hi after hafter => ?_⟩
    · rw [List.getElem?_map, show b.files[k + 1]? = some after from hafter]
      rfl
    · rw [List.getElem?_map] at hafter
      obtain ⟨info', hinfo', rfl⟩ := Option.map_eq_some_iff.mp hafter
      exact hi info' hinfo'
  unbroken := hclean
  sided := h.sided
  oldNumbers := h.oldNumbers
  newNumbers := h.newNumbers
  notice := by
    intro htr hf
    obtain ⟨⟨r, hr, hkind⟩, hl⟩ := h.notice htr hf
    refine ⟨?_, ?_⟩
    · show b.rows.getLast?.map _ = _
      rw [List.getLast?_eq_getElem?, hr]
      exact congrArg some hkind
    · show b.lines.getLast? = _
      rw [List.getLast?_eq_getElem?, h.parallel]
      exact hl

theorem parse_inv (hc : c = '\n' ∨ c = '\r') (hcap : cap < 2 * (u32Max + 1)) {input : List Char}
    (hl : ∀ l ∈ strLines input, c ∉ (stripSuffix '\r' l).getD l) :
    ∃ b, Inv c cap b ∧ parseUnifiedDiffWithCap input cap = b.intoDocument := by
  have hstart : Good c cap ⟨.new cap, none, .outside⟩ :=
    ⟨inv_new c cap, fun _ e => (by cases e), fun _ e => (by cases e), fun _ _ _ e => (by cases e)⟩
  have hrun := run_good hc hcap hstart hl
  exact ⟨_, hrun.doc.finishFile hc _ hrun.clean, rfl⟩

end

/-- **Main result.** For every input and every budget below twice the range of `u32` the document is well formed: the
lines are parallel to the rows and within the budget, the files cut the rows into sections that start
with their header row and list their hunks, the numbers of a hunk go on by one up to `u32::MAX`, and a
truncated document ends with the notice.  No line holds a line feed; when no line of the input holds a
carriage return before its end, no line holds one either. -/
theorem document_well_formed (input : List Char) (cap : Nat) (hcap : cap < 2 * (u32Max + 1)) :
    WellFormed satSucc ['\n'] (parseUnifiedDiffWithCap input cap) cap ∧
      ((∀ l ∈ strLines input, '\r' ∉ (stripSuffix '\r' l).getD l) →
        WellFormed satSucc ['\n', '\r'] (parseUnifiedDiffWithCap input cap) cap) := by
  have hlf : ∀ l ∈ strLines input, '\n' ∉ (stripSuffix '\r' l).getD l :=
    fun l hl hm => not_mem_strLines hl (stripSuffix_getD_subset _ _ hm)
  obtain ⟨b, hb, e⟩ := parse_inv (Or.inl rfl) hcap hlf
  rw [e]
  constructor
  · refine hb.wellFormed fun l hl d hd => ?_
    rw [List.mem_singleton.mp hd]
    exact hb.clean l hl
  · intro hcr
    obtain ⟨b', hb', e'⟩ := parse_inv (Or.inr rfl) hcap hcr
    have hlines : b'.lines = b.lines := congrArg DiffDocument.lines (e'.symm.trans e)
    refine hb.wellFormed fun l hl d hd => ?_
    rcases List.mem_cons.mp hd with rfl | hd
    · exact hb.clean l hl
    · rw [List.mem_singleton.mp hd]
      exact hb'.clean l (hlines ▸ hl)

/-- a document that its budget cuts short -/
theorem document_well_formed_cut : WellFormed satSucc ['\n', '\r']
    (parseUnifiedDiffWithCap "diff --git a/a b/a\n@@ -1 +1 @@\n-x\n+y\n".toList 4) 4 :=
  (document_well_formed "diff --git a/a b/a\n@@ -1 +1 @@\n-x\n+y\n".toList 4 (by decide)).2 (by decide)

/-! ## the ways out -/

lemma finishFile_frame (b : Builder) (cur : Option FileCtx) :
    (b.finishFile cur).cap = b.cap ∧ (b.finishFile cur).rows = b.rows ∧
      (b.finishFile cur).lines.length = b.lines.length ∧
      (b.finishFile cur).files.map DiffFileInfo.firstRow = b.files.map DiffFileInfo.firstRow := by
  unfold Builder.finishFile
  split
  · exact ⟨rfl, rfl, rfl, rfl⟩
  · rename_i ctx
    split
    · exact ⟨rfl, rfl, rfl, rfl⟩
    · rename_i info hk
      exact ⟨rfl, rfl, List.length_set .., map_set_eq DiffFileInfo.firstRow
        { info with path := ctx.path, oldPath := ctx.oldPath, status := ctx.status } hk rfl⟩

/-- the line of an empty section, and a budget that leaves room for as many as wrap the index -/
def emptySection : Line := "diff --cc x".toList

/-- the parser after `k` empty sections -/
structure Opened (k : Nat) (s : Parser) : Prop where
  cap : s.doc.cap = 4 * (u32Max + 1)
  going : s.doc.truncated = false
  parallel : s.doc.lines.length = s.doc.rows.length
  rows : s.doc.rows.length = 2 * k - 1
  files : s.doc.files.length = k
  last : ∀ j, k = j + 1 → (s.doc.files.map DiffFileInfo.firstRow)[j]? = some (2 * j) ∧
    ∃ r, s.doc.rows[2 * j]? = some r ∧ r.file = asU32 j

lemma push_ok {b : Builder} {row : DiffRowInfo} {text : Line} (htr : b.truncated = false)
    (hroom : b.lines.length + 1 < b.cap) : b.push row text = (b.append row (clampLine text), true) := by
  rw [Builder.push, if_neg (by rw [htr]; exact Bool.false_ne_true), if_neg (by omega)]

lemma step_emptySection {k : Nat} {s : Parser} (h : Opened k s) (hk : k ≤ u32Max + 1) :
    ∃ t, s.step emptySection = (t, true) ∧ Opened (k + 1) t := by
  obtain ⟨hcap, hrows, hlines, hfirst⟩ := finishFile_frame s.doc s.cur
  have htr := finishFile_truncated s.doc s.cur
  have hstart : fileStart emptySection = some (.combined ['x']) := rfl
  unfold Parser.step
  rw [hstart]
  dsimp only
  generalize s.doc.finishFile s.cur = b at hcap hrows hlines hfirst htr
  rw [h.cap] at hcap
  rw [h.going] at htr
  rw [h.parallel] at hlines
  have hlen : b.files.length = k := by
    rw [← List.length_map DiffFileInfo.firstRow, hfirst, List.length_map, h.files]
  have hroom : b.lines.length + 2 < b.cap := by
    rw [hlines, hcap, h.rows]
    omega
  obtain ⟨b', hb', hcap', htr', hfiles', hrows', hpar'⟩ : ∃ b', b.pushSpacer (asU32 k) = (b', true) ∧
      b'.cap = b.cap ∧ b'.truncated = false ∧ b'.files = b.files ∧ b'.rows.length = 2 * k ∧
        b'.lines.length = b'.rows.length := by
    have hl := h.rows
    rw [← hrows] at hl hlines
    unfold Builder.pushSpacer
    split
    · rename_i e
      refine ⟨b, rfl, rfl, htr, rfl, ?_, hlines⟩
      rw [e, List.length_nil] at hl ⊢
      omega
    · rename_i e
      have := List.length_pos_iff.mpr e
      rw [push_ok htr (by omega)]
      refine ⟨_, rfl, rfl, htr, rfl, ?_, ?_⟩
      · rw [length_append]
        omega
      · show (b.lines ++ [_]).length = (b.rows ++ [_]).length
        rw [List.length_append, List.length_append, hlines]
        rfl
  unfold Builder.beginFile
  dsimp only
  rw [hlen, hb']
  dsimp only
  rw [push_ok htr' (by rw [hpar', hrows', hcap', hcap]; omega)]
  refine ⟨_, rfl, hcap'.trans hcap, htr', ?_, ?_, ?_, ?_⟩
  · show (b'.lines ++ [_]).length = (b'.rows ++ [_]).length
    rw [List.length_append, List.length_append, hpar']
    rfl
  · show (b'.rows ++ [_]).length = _
    rw [List.length_append, hrows']
    rfl
  · show (b'.files ++ [_]).length = _
    rw [List.length_append, hfiles', hlen]
    rfl
  · intro j hj
    cases hj
    constructor
    · show ((b'.files ++ [_]).map _)[k]? = _
      rw [List.map_append, hfiles', List.getElem?_append_right (Nat.le_of_eq (by rw [List.length_map, hlen])),
        List.length_map, hlen, Nat.sub_self]
      show some b'.lines.length = _
      rw [hpar', hrows']
    · refine ⟨⟨.fileHeader, asU32 k, none, none⟩, ?_, rfl⟩
      show (b'.rows ++ [_])[2 * k]? = _
      rw [← hrows']
      exact List.getElem?_concat_length ..

lemma run_emptySections {n k : Nat} {s : Parser} (h : Opened k s) (hn : k + n ≤ u32Max + 2) :
    Opened (k + n) (s.run (List.replicate n emptySection)) := by
  induction n generalizing k s with
  | zero => exact h
  | succ n ih =>
    obtain ⟨t, ht, hopen⟩ := step_emptySection h (by omega)
    have hstrip : (stripSuffix '\r' emptySection).getD emptySection = emptySection := rfl
    rw [List.replicate_succ, Parser.run, if_neg (by rw [h.going]; exact Bool.false_ne_true), hstrip, ht]
    have := ih hopen (by omega)
    rwa [Nat.succ_add_eq_add_succ] at this

/-- the header row of the file past the range of `u32` names another file -/
lemma emptySections_wrap {n : Nat} (hn : n = u32Max + 2) : ¬ WellFormed satSucc ['\n']
    (parseUnifiedDiffWithCap ((List.replicate n emptySection).flatMap (· ++ ['\n'])) (4 * (u32Max + 1))) (4 * (u32Max + 1)) := by
  intro h
  have hlines : strLines ((List.replicate n emptySection).flatMap (· ++ ['\n'])) =
      List.replicate n emptySection := by
    refine strLines_lines fun l hl => ?_
    rw [List.eq_of_mem_replicate hl]
    decide
  have hstart : Opened 0 ⟨.new (4 * (u32Max + 1)), none, .outside⟩ :=
    ⟨rfl, rfl, rfl, rfl, rfl, fun j e => by cases e⟩
  have hrun := run_emptySections (n := n) hstart (by omega)
  unfold parseUnifiedDiffWithCap at h
  rw [hlines] at h
  dsimp only at h
  generalize Parser.run _ _ = s at h hrun
  obtain ⟨-, hrows, -, hfirst⟩ := finishFile_frame s.doc s.cur
  obtain ⟨hstart', r', hr', hfile'⟩ := hrun.last (u32Max + 1) (by omega)
  rw [← hfirst, List.getElem?_map] at hstart'
  obtain ⟨info, hinfo, hinfoRow⟩ := Option.map_eq_some_iff.mp hstart'
  obtain ⟨r, hr, -, hfile⟩ := h.header (u32Max + 1) info hinfo
  rw [hinfoRow] at hr
  have hr : s.doc.rows[2 * (u32Max + 1)]? = some r := hrows ▸ hr
  rw [hr'] at hr
  cases hr
  rw [hfile'] at hfile
  exact absurd hfile (by decide)

/-- Two numbers stay at `u32::MAX`; a carriage return inside of a line stays in the document; the file
past the range of `u32` has a header row that names another file. -/
theorem document_not_exact :
    ¬ WellFormed (· + 1) ['\n']
        (parseUnifiedDiffWithCap "diff --git a/a b/a\n@@ -4294967295,2 +4294967295,2 @@\n x\n y\n".toList 10) 10 ∧
      ¬ WellFormed satSucc ['\n', '\r']
        (parseUnifiedDiffWithCap "diff --git a/a b/a\n@@ -1 +1 @@\n x\ry\n".toList 10) 10 ∧
      ¬ WellFormed satSucc ['\n']
        (parseUnifiedDiffWithCap ((List.replicate (u32Max + 2) emptySection).flatMap (· ++ ['\n'])) (4 * (u32Max + 1)))
        (4 * (u32Max + 1)) := by
  refine ⟨fun h => ?_, fun h => ?_, fun h => ?_⟩
  · have hlast := h.oldNumbers 3 ⟨.context, 0, some u32Max, some u32Max⟩ (by decide) u32Max u32Max
      (by decide) rfl
    exact absurd hlast (by decide)
  · exact h.unbroken ['x', '\r', 'y'] (by decide) '\r' (by decide) (by decide)
  · exact emptySections_wrap rfl h

end TerminalManager.Diff
