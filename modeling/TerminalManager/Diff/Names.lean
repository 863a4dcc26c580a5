import TerminalManager.Diff.Parse

/-!
# The lines and the names of a diff

* `strLines_lines`       complete lines are read back;
* `not_mem_strLines`     a line holds no line feed;
* `splitGitPaths_clean`  what is cut out of a line, unquoted or not, stays on one line;
* `FileCtx.Clean`        so do the names that a section has given so far, and its title.
-/

namespace TerminalManager.Diff
open Editor (Line len)
open Lines

/-! ## lines -/

lemma stripSuffix_getD_subset (d : Char) (l : Line) : (stripSuffix d l).getD l ⊆ l := by
  unfold stripSuffix
  split_ifs
  · exact List.dropLast_subset l
  · exact List.Subset.refl l

lemma not_mem_strLines {input : List Char} {l : Line} (h : l ∈ strLines input) : '\n' ∉ l := by
  unfold strLines at h
  rcases List.mem_append.mp h with h | h
  · obtain ⟨l', hl', rfl⟩ := List.mem_map.mp h
    exact fun hm => not_mem_line (List.dropLast_subset _ hl') (stripSuffix_getD_subset _ _ hm)
  · have hl := (List.mem_filter.mp h).1
    rw [Option.mem_toList] at hl
    exact not_mem_line (List.mem_of_getLast? hl)

/-- complete lines are read back -/
lemma strLines_lines {ls : List Line} (h : ∀ l ∈ ls, '\n' ∉ l ∧ l.getLast? ≠ some '\r') :
    strLines (ls.flatMap (· ++ ['\n'])) = ls := by
  have hsplit : (ls.flatMap (· ++ ['\n'])).splitOn '\n' = ls ++ [[]] := by
    induction ls with
    | nil => rfl
    | cons l ls ih =>
      have hl : (l ++ ['\n']).splitOn '\n' = [l] ++ [[]] := by
        have hx : l.splitOn '\n' = [] ++ [l] := List.splitOn_eq_singleton (h l List.mem_cons_self).1
        rw [splitOn_append hx (show ['\n'].splitOn '\n' = [] :: [[]] from rfl), List.append_nil]
        rfl
      obtain ⟨z, M, hz⟩ := exists_cons '\n' (ls.flatMap (· ++ ['\n']))
      rw [List.flatMap_cons, splitOn_append hl hz, List.nil_append, ← hz,
        ih fun l hl => h l (List.mem_cons_of_mem _ hl)]
      rfl
  unfold strLines
  dsimp only
  rw [hsplit, List.dropLast_concat, List.getLast?_concat]
  have hmap : ls.map (fun l => (stripSuffix '\r' l).getD l) = ls := by
    refine (List.map_congr_left fun l hl => ?_).trans (List.map_id ls)
    rw [stripSuffix, if_neg (h l hl).2]
    rfl
  rw [hmap]
  exact List.append_nil ls

section
variable {c : Char}

/-! ## the paths of a section -/

lemma stripPrefix_some {p l r : Line} (h : stripPrefix p l = some r) : l = p ++ r := by
  induction p, l using stripPrefix.induct with
  | case1 l =>
    cases h
    rfl
  | case2 d p => cases h
  | case3 d p l ih =>
    rw [stripPrefix, if_pos rfl] at h
    rw [ih h]
    rfl
  | case4 d p e l hne =>
    rw [stripPrefix, if_neg hne] at h
    cases h

lemma stripPrefix_clean {p l r : Line} (h : stripPrefix p l = some r) (hl : c ∉ l) : c ∉ r := by
  rw [stripPrefix_some h] at hl
  exact fun hr => hl (List.mem_append_right p hr)

lemma not_mem_unquotePath (hc : c = '\n' ∨ c = '\r') {raw : Line} (h : c ∉ raw) : c ∉ unquotePath raw := by
  unfold unquotePath
  split
  · split_ifs with hd
    · exact h
    · rcases hc with rfl | rfl
      exacts [fun hm => hd (Or.inl hm), fun hm => hd (Or.inr hm)]
  · exact h

lemma not_mem_stripSidePrefix {l : Line} (h : c ∉ l) : c ∉ stripSidePrefix l := by
  unfold stripSidePrefix
  split
  · split_ifs
    · exact fun hm => h (List.mem_cons_of_mem _ (List.mem_cons_of_mem _ hm))
    · exact h
  · exact h

/-- an operand of a header line, without its prefix and its quotes -/
lemma not_mem_operand (hc : c = '\n' ∨ c = '\r') {l : Line} (h : c ∉ l) :
    c ∉ stripSidePrefix (unquotePath l) := not_mem_stripSidePrefix (not_mem_unquotePath hc h)

lemma pathSide_clean (hc : c = '\n' ∨ c = '\r') {l r : Line} (h : c ∉ l) (hr : pathSide l = some r) :
    c ∉ r := by
  unfold pathSide at hr
  dsimp only at hr
  split_ifs at hr
  cases hr
  exact not_mem_operand hc fun hm => h (List.takeWhile_subset _ hm)

lemma atLast_append {p l x y : Line} (h : atLast p l = some (x, y)) : l = x ++ y := by
  induction l generalizing x y with
  | nil => cases h
  | cons d l ih =>
    rw [atLast] at h
    split at h
    · rename_i x' y' e
      cases h
      rw [ih e]
      rfl
    · split_ifs at h
      cases h
      rfl

lemma rsplitOnce_append {d : Char} {l x y : Line} (h : Editor.rsplitOnce d l = some (x, y)) :
    l = x ++ d :: y := by
  induction l generalizing x y with
  | nil => cases h
  | cons e l ih =>
    rw [Editor.rsplitOnce] at h
    split at h
    · rename_i x' y' he
      cases h
      rw [ih he]
      rfl
    · split_ifs at h with hd
      cases h
      rw [hd]
      rfl

/-- both operands of a `diff --git` line are made of its text -/
lemma splitGitPaths_clean (hc : c = '\n' ∨ c = '\r') {rest r : Line} (h : c ∉ rest)
    (hr : (splitGitPaths rest).1 = some r ∨ (splitGitPaths rest).2 = some r) : c ∉ r := by
  unfold splitGitPaths at hr
  split at hr
  · rename_i old new e
    unfold splitMiddle at e
    split_ifs at e with hodd
    split at e
    · rename_i x y hcut
      obtain ⟨happ, -⟩ := cut_some hcut
      dsimp only at e
      split_ifs at e with heq
      cases e
      have hx : c ∉ stripSidePrefix (unquotePath x) := not_mem_operand hc fun hm =>
        h (happ ▸ List.mem_append_left _ hm)
      rcases hr with hr | hr <;> cases hr
      exacts [hx, heq ▸ hx]
    · cases e
  · split at hr
    · rename_i old new e
      have happ := atLast_append e
      rcases hr with hr | hr <;> cases hr
      · exact not_mem_operand hc fun hm => h (happ ▸ List.mem_append_left _ hm)
      · exact not_mem_operand hc fun hm => h (happ ▸ List.mem_append_right _ (List.mem_of_mem_tail hm))
    · split at hr
      · rename_i old new e
        have happ := rsplitOnce_append e
        rcases hr with hr | hr <;> cases hr
        · exact not_mem_operand hc fun hm => h (happ ▸ List.mem_append_left _ hm)
        · exact not_mem_operand hc fun hm =>
            h (happ ▸ List.mem_append_right _ (List.mem_cons_of_mem _ hm))
      · rcases hr with hr | hr <;> cases hr
        exact not_mem_operand hc h

/-- the names that a section has given so far stay on one line -/
structure FileCtx.Clean (c : Char) (ctx : FileCtx) : Prop where
  gitOld : ∀ l, ctx.gitOld = some l → c ∉ l
  gitNew : ∀ l, ctx.gitNew = some l → c ∉ l
  minus : ∀ l, ctx.minus.join = some l → c ∉ l
  plus : ∀ l, ctx.plus.join = some l → c ∉ l
  renameFrom : ∀ l, ctx.renameFrom = some l → c ∉ l
  renameTo : ∀ l, ctx.renameTo = some l → c ∉ l

variable {ctx : FileCtx}

lemma FileCtx.Clean.oldSide (h : ctx.Clean c) {l : Line} (hl : ctx.oldSide = some l) : c ∉ l := by
  rcases Option.or_eq_some_iff.mp hl with hl | ⟨-, hl⟩
  · rcases Option.or_eq_some_iff.mp hl with hl | ⟨-, hl⟩
    exacts [h.minus l hl, h.renameFrom l hl]
  · exact h.gitOld l hl

lemma FileCtx.Clean.newSide (h : ctx.Clean c) {l : Line} (hl : ctx.newSide = some l) : c ∉ l := by
  rcases Option.or_eq_some_iff.mp hl with hl | ⟨-, hl⟩
  · rcases Option.or_eq_some_iff.mp hl with hl | ⟨-, hl⟩
    exacts [h.plus l hl, h.renameTo l hl]
  · exact h.gitNew l hl

lemma FileCtx.Clean.path (h : ctx.Clean c) : c ∉ ctx.path := by
  have hboth : ∀ o : Option Line, (∀ l, o = some l → c ∉ l) → c ∉ o.getD [] := by
    intro o ho
    cases o with
    | none => exact List.not_mem_nil
    | some l => exact ho l rfl
  unfold FileCtx.path
  refine hboth _ fun l hl => ?_
  split at hl
  · rcases Option.or_eq_some_iff.mp hl with hl | ⟨-, hl⟩
    exacts [h.oldSide hl, h.newSide hl]
  · rcases Option.or_eq_some_iff.mp hl with hl | ⟨-, hl⟩
    exacts [h.newSide hl, h.oldSide hl]

lemma FileCtx.Clean.title (hc : c = '\n' ∨ c = '\r') (h : ctx.Clean c) : c ∉ ctx.title := by
  unfold FileCtx.title
  split
  · rename_i old hold _
    have hold' : c ∉ old := h.oldSide (Option.eq_some_of_filter_eq_some hold)
    have h1 : c ∉ "R ".toList := by rcases hc with rfl | rfl <;> decide
    have h2 : c ∉ " -> ".toList := by rcases hc with rfl | rfl <;> decide
    simp only [List.mem_append, not_or]
    exact ⟨⟨⟨h1, hold'⟩, h2⟩, h.path⟩
  · have hletter : ∀ status : DiffFileStatus, c ≠ status.letter := by
      intro status
      rcases hc with rfl | rfl <;> cases status <;> decide
    have hspace : c ≠ ' ' := by rcases hc with rfl | rfl <;> decide
    rw [List.mem_cons, List.mem_cons, not_or, not_or]
    exact ⟨hletter _, hspace, h.path⟩

end

end TerminalManager.Diff
