import TerminalManager.Diff.Layout
import TerminalManager.Diff.Names

/-!
# The builder of a diff document

* `Sound`, `Inv`               the invariant of the document under construction and of its budget;
* `Inv.push`                   a row that fits is pushed, or the notice is;
* `Inv.beginFile`, `Inv.finishFile`   a section begins and ends.
-/

namespace TerminalManager.Diff
open Editor (Line len)
open Lines

/-! ## the invariant of the builder -/

/-- what holds of the document at every moment, for a character that no line may hold -/
structure Sound (c : Char) (cap : Nat) (b : Builder) : Prop where
  cap_eq : b.cap = cap
  parallel : b.lines.length = b.rows.length
  budget : b.rows.length ≤ cap
  layout : Layout b.rows (b.files.map DiffFileInfo.firstRow)
  hunked : Hunked b.rows (b.files.map DiffFileInfo.hunkRows)
  sided : ∀ r ∈ b.rows, r.Sided
  oldNumbers : Numbered satSucc DiffRowInfo.oldNo b.rows
  newNumbers : Numbered satSucc DiffRowInfo.newNo b.rows
  clean : ∀ l ∈ b.lines, c ∉ l

/-- and of its budget -/
structure Inv (c : Char) (cap : Nat) (b : Builder) : Prop extends Sound c cap b where
  room : b.truncated = false → b.rows ≠ [] → b.rows.length < cap
  notice : b.truncated = true → b.files ≠ [] →
    (∃ r, b.rows[b.rows.length - 1]? = some r ∧ r.kind = .note) ∧
      b.lines[b.rows.length - 1]? = some truncationNotice

/-- the row can be pushed: it belongs to the last file and its numbers follow -/
structure Fits (b : Builder) (row : DiffRowInfo) : Prop where
  file : row.file + 1 = b.files.length
  sided : row.Sided
  oldNo : ∀ n m, lastNo DiffRowInfo.oldNo b.rows = some n → row.oldNo = some m → m = satSucc n
  newNo : ∀ n m, lastNo DiffRowInfo.newNo b.rows = some n → row.newNo = some m → m = satSucc n

lemma sided_plain {kind : DiffRowKind} (file : Nat) (hkind : kind.isContent = false) :
    DiffRowInfo.Sided ⟨kind, file, none, none⟩ := by
  have h1 : kind ≠ .context := by
    rintro rfl
    cases hkind
  have h2 : kind ≠ .removed := by
    rintro rfl
    cases hkind
  have h3 : kind ≠ .added := by
    rintro rfl
    cases hkind
  exact ⟨by simp [h1, h2], by simp [h1, h3]⟩

lemma fits_plain {b : Builder} {kind : DiffRowKind} {file : Nat} (hkind : kind.isContent = false)
    (hfile : file + 1 = b.files.length) : Fits b ⟨kind, file, none, none⟩ where
  file := hfile
  sided := sided_plain file hkind
  oldNo := by
    intro n m _ h
    cases h
  newNo := by
    intro n m _ h
    cases h

section
variable {c : Char} {cap : Nat} {b : Builder} {row : DiffRowInfo} {text : Line}

lemma inv_new (c : Char) (cap : Nat) : Inv c cap (.new cap) where
  cap_eq := rfl
  parallel := rfl
  budget := Nat.zero_le _
  layout :=
    { valid := fun r hr => absurd hr List.not_mem_nil
      few := Nat.zero_le _
      header := by
        intro k start hk
        cases hk
      sections := by
        intro k start hk
        cases hk }
  hunked := by
    intro k hs hk
    cases hk
  sided := fun r hr => absurd hr List.not_mem_nil
  oldNumbers := by
    intro i r hr
    cases hr
  newNumbers := by
    intro i r hr
    cases hr
  clean := fun l hl => absurd hl List.not_mem_nil
  room := fun _ h => absurd rfl h
  notice := by
    intro h
    cases h

lemma Sound.rows_nil (h : Sound c cap b) (hf : b.files = []) : b.rows = [] := by
  refine List.eq_nil_iff_forall_not_mem.mpr fun r hr => ?_
  have := h.layout.valid r hr
  rw [hf] at this
  exact Nat.not_lt_zero _ this

lemma mem_snoc_clean {ls : List Line} (h : ∀ l ∈ ls, c ∉ l) (ht : c ∉ text) :
    ∀ l ∈ ls ++ [text], c ∉ l := by
  intro l hl
  rcases List.mem_append.mp hl with hl | hl
  · exact h l hl
  · rw [List.mem_singleton.mp hl]
    exact ht

theorem Sound.append (h : Sound c cap b) (hrow : Fits b row) (hkind : row.kind ≠ .hunkHeader)
    (hroom : b.rows.length < cap) (ht : c ∉ text) : Sound c cap (b.append row text) where
  cap_eq := h.cap_eq
  parallel := by
    show (b.lines ++ [text]).length = (b.rows ++ [row]).length
    rw [List.length_append, List.length_append, h.parallel]
    rfl
  budget := by
    show (b.rows ++ [row]).length ≤ cap
    rw [List.length_append, List.length_singleton]
    omega
  layout := h.layout.append (by rw [List.length_map]; exact hrow.file)
  hunked := h.hunked.append hkind
  sided := by
    intro r hr
    rcases List.mem_append.mp hr with hr | hr
    · exact h.sided r hr
    · rw [List.mem_singleton.mp hr]
      exact hrow.sided
  oldNumbers := h.oldNumbers.snoc hrow.oldNo
  newNumbers := h.newNumbers.snoc hrow.newNo
  clean := mem_snoc_clean h.clean ht

lemma length_append (b : Builder) (row : DiffRowInfo) (text : Line) :
    (b.append row text).rows.length = b.rows.length + 1 := by
  show (b.rows ++ [row]).length = _
  rw [List.length_append]
  rfl

theorem Inv.append (h : Inv c cap b) (hrow : Fits b row) (hkind : row.kind ≠ .hunkHeader)
    (hb : b.truncated = false) (hroom : b.rows.length + 1 < cap) (ht : c ∉ text) :
    Inv c cap (b.append row text) where
  toSound := h.toSound.append hrow hkind (by omega) ht
  room := by
    intro _ _
    rw [length_append]
    exact hroom
  notice := by
    intro htr
    have : b.truncated = true := htr
    rw [hb] at this
    cases this

lemma lastFile_eq {n : Nat} (h0 : n ≠ 0) (hn : n ≤ u32Max) : lastFile n = n - 1 := by
  unfold lastFile asU32
  rw [u32Max] at *
  omega

lemma not_mem_truncationNotice (hc : c = '\n' ∨ c = '\r') : c ∉ truncationNotice := by
  rcases hc with rfl | rfl <;> decide

/-- the budget is spent: the notice is the last row -/
theorem Inv.markTruncated (hc : c = '\n' ∨ c = '\r') (hcap : cap < 2 * (u32Max + 1)) (h : Inv c cap b)
    (file : Nat) (hfile : b.files.length ≤ file + 1) : Inv c cap (b.markTruncated file) := by
  unfold Builder.markTruncated
  split
  · exact h
  · rename_i htr
    have htr : b.truncated = false := by simpa using htr
    have hmarked : Sound c cap { b with truncated := true } :=
      ⟨h.cap_eq, h.parallel, h.budget, h.layout, h.hunked, h.sided, h.oldNumbers, h.newNumbers, h.clean⟩
    dsimp only
    split
    · rename_i hf
      exact ⟨hmarked, fun e => (by cases e), fun _ hne => absurd hf hne⟩
    · rename_i hf
      have hlen : b.files.length ≠ 0 := by
        rwa [ne_eq, List.length_eq_zero_iff]
      have hrows : b.rows ≠ [] := by
        intro e
        obtain ⟨r, hr, -⟩ := h.layout.header 0 _
          (List.getElem?_eq_getElem (by rw [List.length_map]; exact Nat.pos_of_ne_zero hlen))
        rw [e] at hr
        cases hr
      have hroom := h.room htr hrows
      have hfew := h.layout.few
      rw [List.length_map] at hfew
      rw [if_pos (by rw [h.parallel, h.cap_eq]; exact hroom)]
      have hlast : min file (lastFile b.files.length) = b.files.length - 1 := by
        rw [lastFile_eq hlen (by omega)]
        omega
      rw [hlast]
      have hfits : Fits { b with truncated := true } ⟨.note, b.files.length - 1, none, none⟩ :=
        fits_plain rfl (by show b.files.length - 1 + 1 = b.files.length; omega)
      refine ⟨hmarked.append hfits (by simp) hroom (not_mem_truncationNotice hc), fun e => (by cases e),
        fun _ _ => ?_⟩
      have hpos : 0 < b.rows.length := List.length_pos_iff.mpr hrows
      rw [length_append, Nat.add_sub_cancel]
      refine ⟨⟨_, List.getElem?_concat_length .., rfl⟩, ?_⟩
      rw [show b.rows.length = b.lines.length from h.parallel.symm]
      exact List.getElem?_concat_length ..

lemma push_cases (b : Builder) (row : DiffRowInfo) (text : Line) :
    b.push row text = (b.markTruncated row.file, false) ∨
      b.truncated = false ∧ b.lines.length + 1 < b.cap ∧
        b.push row text = (b.append row (clampLine text), true) := by
  unfold Builder.push
  split
  · rename_i h
    left
    rw [Builder.markTruncated, if_pos h]
  · rename_i h
    split
    · exact Or.inl rfl
    · exact Or.inr ⟨by simpa using h, by omega, rfl⟩

lemma markTruncated_files (b : Builder) (file : Nat) : (b.markTruncated file).files = b.files := by
  unfold Builder.markTruncated
  dsimp only
  split_ifs <;> rfl

lemma markTruncated_truncated (b : Builder) (file : Nat) : (b.markTruncated file).truncated = true := by
  unfold Builder.markTruncated
  dsimp only
  split_ifs <;> first | rfl | assumption

lemma push_files (b : Builder) (row : DiffRowInfo) (text : Line) : (b.push row text).1.files = b.files := by
  rcases push_cases b row text with e | ⟨-, -, e⟩ <;> rw [e]
  · exact markTruncated_files b row.file
  · rfl

lemma not_mem_clampLine (hc : c = '\n' ∨ c = '\r') (ht : c ∉ text) : c ∉ clampLine text := by
  have hs : c ∉ clampSuffix := by
    rcases hc with rfl | rfl <;> decide
  unfold clampLine
  split_ifs
  · exact ht
  · rw [List.mem_append]
    exact fun h => h.elim (fun h => ht (List.mem_of_mem_take h)) hs
  · exact ht

theorem Inv.push (hc : c = '\n' ∨ c = '\r') (hcap : cap < 2 * (u32Max + 1)) (h : Inv c cap b) (hrow : Fits b row)
    (hkind : row.kind ≠ .hunkHeader) (ht : c ∉ text) : Inv c cap (b.push row text).1 := by
  have hfile := hrow.file
  rcases push_cases b row text with e | ⟨htr, hroom, e⟩ <;> rw [e]
  · exact h.markTruncated hc hcap row.file (by omega)
  · rw [h.parallel, h.cap_eq] at hroom
    exact h.append hrow hkind htr hroom (not_mem_clampLine hc ht)

/-! ## files begin and end -/

lemma not_mem_nil_line : c ∉ ([] : Line) := List.not_mem_nil

/-- a new file, its header row pushed and its entry added -/
theorem Inv.openFile (h : Inv c cap b) (hb : b.truncated = false) (hroom : b.rows.length + 1 < cap)
    (hfew : 2 * b.files.length ≤ b.rows.length) :
    Inv c cap { b.append ⟨.fileHeader, b.files.length, none, none⟩ [] with
      files := b.files ++ [⟨[], none, .modified, b.rows.length, []⟩] } where
  cap_eq := h.cap_eq
  parallel := by
    show (b.lines ++ [[]]).length = (b.rows ++ [_]).length
    rw [List.length_append, List.length_append, h.parallel]
    rfl
  budget := by
    rw [length_append]
    omega
  layout := by
    rw [List.map_append]
    exact h.layout.openFile rfl (List.length_map ..).symm (by rw [List.length_map]; exact hfew)
  hunked := by
    rw [List.map_append]
    refine (h.hunked.openFile fun r hr => ?_).append (by simp)
    have := h.layout.valid r hr
    rwa [List.length_map] at this ⊢
  sided := by
    intro r hr
    rcases List.mem_append.mp hr with hr | hr
    · exact h.sided r hr
    · rw [List.mem_singleton.mp hr]
      exact sided_plain _ rfl
  oldNumbers := h.oldNumbers.snoc fun n m _ hm => by cases hm
  newNumbers := h.newNumbers.snoc fun n m _ hm => by cases hm
  clean := mem_snoc_clean h.clean not_mem_nil_line
  room := by
    intro _ _
    rw [length_append]
    exact hroom
  notice := by
    intro htr
    have : b.truncated = true := htr
    rw [hb] at this
    cases this

lemma pushSpacer_cases (hc : c = '\n' ∨ c = '\r') (hcap : cap < 2 * (u32Max + 1)) (h : Inv c cap b)
    (hb : b.truncated = false) :
    Inv c cap (b.pushSpacer b.files.length).1 ∧
      (b.pushSpacer b.files.length).1.files = b.files ∧
      ((b.pushSpacer b.files.length).2 = true →
        (b.pushSpacer b.files.length).1.truncated = false ∧
          2 * b.files.length ≤ (b.pushSpacer b.files.length).1.rows.length) := by
  unfold Builder.pushSpacer
  have hfew := h.layout.few
  rw [List.length_map] at hfew
  split
  · rename_i hrows
    refine ⟨h, rfl, fun _ => ⟨hb, ?_⟩⟩
    rw [hrows, List.length_nil] at hfew ⊢
    omega
  · rename_i hrows
    have hfiles : b.files ≠ [] := fun e => hrows (h.rows_nil e)
    have hpos : 0 < b.files.length := List.length_pos_iff.mpr hfiles
    have hfits : Fits b ⟨.spacer, b.files.length - 1, none, none⟩ :=
      fits_plain rfl (Nat.sub_add_cancel hpos)
    refine ⟨h.push hc hcap hfits (by simp) not_mem_nil_line, push_files .., fun hok => ?_⟩
    rcases push_cases b ⟨.spacer, b.files.length - 1, none, none⟩ [] with e | ⟨htr, -, e⟩
    · rw [e] at hok
      cases hok
    · rw [e]
      refine ⟨htr, ?_⟩
      rw [length_append]
      omega

lemma asU32_eq {n : Nat} (hn : n ≤ u32Max) : asU32 n = n := Nat.mod_eq_of_lt (Nat.lt_succ_of_le hn)

lemma FileStart.ctx_index (start : FileStart) (index : Nat) : (start.ctx index).index = index := by
  cases start <;> rfl

/-- what is left of the line that starts a section -/
def FileStart.rest : FileStart → Line
  | .git rest | .combined rest => rest

lemma FileStart.ctx_clean (hc : c = '\n' ∨ c = '\r') (start : FileStart) (index : Nat)
    (h : c ∉ start.rest) : (start.ctx index).Clean c := by
  cases start with
  | git rest =>
    refine ⟨fun l hl => splitGitPaths_clean hc h (Or.inl hl),
      fun l hl => splitGitPaths_clean hc h (Or.inr hl), ?_, ?_, ?_, ?_⟩ <;> exact fun l hl => by cases hl
  | combined rest =>
    refine ⟨?_, fun l hl => ?_, ?_, ?_, ?_, ?_⟩
    case refine_2 =>
      cases hl
      exact not_mem_unquotePath hc h
    all_goals exact fun l hl => by cases hl

theorem Inv.beginFile (hc : c = '\n' ∨ c = '\r') (hcap : cap < 2 * (u32Max + 1)) (h : Inv c cap b)
    (hb : b.truncated = false) (start : FileStart) (hstart : c ∉ start.rest) :
    Inv c cap (b.beginFile start).1 ∧ ∀ ctx, (b.beginFile start).2 = some ctx →
      ctx.index + 1 = (b.beginFile start).1.files.length ∧ ctx.Clean c := by
  have hfew := h.layout.few
  rw [List.length_map] at hfew
  have hbudget := h.budget
  have hindex : asU32 b.files.length = b.files.length := by
    by_cases hrows : b.rows = []
    · rw [hrows, List.length_nil] at hfew
      exact asU32_eq (by omega)
    · have := h.room hb hrows
      exact asU32_eq (by omega)
  unfold Builder.beginFile
  rw [hindex]
  dsimp only
  obtain ⟨h1, hf, hok⟩ := pushSpacer_cases hc hcap h hb
  generalize b.pushSpacer b.files.length = x at h1 hf hok ⊢
  obtain ⟨b', ok⟩ := x
  cases ok with
  | false => exact ⟨h1, fun ctx hctx => by cases hctx⟩
  | true =>
    obtain ⟨htr, hroom⟩ := hok rfl
    dsimp only at h1 hf htr hroom ⊢
    rcases push_cases b' ⟨.fileHeader, b.files.length, none, none⟩ [] with e | ⟨-, hlen, e⟩
    · rw [e]
      refine ⟨h1.markTruncated hc hcap _ ?_, fun ctx hctx => by cases hctx⟩
      rw [hf]
      exact Nat.le_succ _
    · rw [e, ← hf]
      rw [h1.parallel, h1.cap_eq] at hlen
      have := h1.openFile htr hlen (by rw [hf]; exact hroom)
      rw [← h1.parallel] at this
      refine ⟨this, fun ctx hctx => ?_⟩
      cases hctx
      rw [FileStart.ctx_index]
      refine ⟨?_, FileStart.ctx_clean hc start _ hstart⟩
      show _ = (b'.files ++ [_]).length
      rw [List.length_append]
      rfl

/-- what rewriting the header row of a file leaves alone -/
lemma map_set_eq {β : Type*} (f : DiffFileInfo → β) {files : List DiffFileInfo} {k : Nat}
    {info : DiffFileInfo} (new : DiffFileInfo) (hk : files[k]? = some info) (hf : f new = f info) :
    (files.set k new).map f = files.map f := by
  rw [List.map_set, hf]
  obtain ⟨hlt, rfl⟩ := List.getElem?_eq_some_iff.mp hk
  have hlt' : k < (files.map f).length := by rwa [List.length_map]
  have e : f files[k] = (files.map f)[k] := (List.getElem_map ..).symm
  rw [e, List.set_getElem_self]

theorem Inv.finishFile (hc : c = '\n' ∨ c = '\r') (h : Inv c cap b) (cur : Option FileCtx)
    (hcur : ∀ ctx, cur = some ctx → ctx.Clean c) : Inv c cap (b.finishFile cur) := by
  cases cur with
  | none => exact h
  | some ctx =>
    unfold Builder.finishFile
    cases hk : b.files[ctx.index]? with
    | none =>
      dsimp only
      rw [hk]
      exact h
    | some info =>
      dsimp only
      rw [hk]
      dsimp only
      have hstart : (b.files.map DiffFileInfo.firstRow)[ctx.index]? = some info.firstRow := by
        rw [List.getElem?_map, hk]
        rfl
      obtain ⟨r, hr, hkind, -⟩ := h.layout.header _ _ hstart
      refine ⟨⟨h.cap_eq, ?_, h.budget, ?_, ?_, h.sided, h.oldNumbers, h.newNumbers, ?_⟩, h.room, ?_⟩
      · show (b.lines.set _ _).length = _
        rw [List.length_set]
        exact h.parallel
      · have e := map_set_eq DiffFileInfo.firstRow
          { info with path := ctx.path, oldPath := ctx.oldPath, status := ctx.status } hk rfl
        exact e.symm ▸ h.layout
      · have e := map_set_eq DiffFileInfo.hunkRows
          { info with path := ctx.path, oldPath := ctx.oldPath, status := ctx.status } hk rfl
        exact e.symm ▸ h.hunked
      · intro l hl
        rcases List.mem_or_eq_of_mem_set hl with hl | rfl
        · exact h.clean l hl
        · exact not_mem_clampLine hc ((hcur ctx rfl).title hc)
      · intro htr hf
        have hne : b.files ≠ [] := by
          intro e
          rw [e] at hk
          cases hk
        obtain ⟨⟨r', hr', hnote⟩, hl⟩ := h.notice htr hne
        refine ⟨⟨r', hr', hnote⟩, ?_⟩
        -- the header row is not the notice
        have hdiff : info.firstRow ≠ b.rows.length - 1 := by
          intro e
          rw [e, hr'] at hr
          cases hr
          rw [hnote] at hkind
          cases hkind
        show (b.lines.set _ _)[_]? = _
        rw [List.getElem?_set_ne hdiff]
        exact hl

lemma finishFile_truncated (b : Builder) (cur : Option FileCtx) :
    (b.finishFile cur).truncated = b.truncated := by
  unfold Builder.finishFile
  split
  · rfl
  · split <;> rfl

end

end TerminalManager.Diff
