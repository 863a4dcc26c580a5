import Mathlib.Data.List.Lex
import Mathlib.Data.List.Sort
import TerminalManager.Editor.Moves
import TerminalManager.Palette.Fuzzy

/-!
# Quick open

The files of a workspace ranked against a query: the score of the path, or the one of the file name with a bonus when
that is better.  A test without a score goes before the matcher, and the list is cut at a limit.

* `FileEntry`, `FileIndex`   a file with where its name starts, and the files in the order of their paths;
* `rankCounted`              the best files, and how many matched;
* `Ranking`                  every file that matches, by score and then by path;
* `exists_ranking`, `Ranking.unique`   there is one such list;
* `rankCounted_ranks`        the test and the limit make no difference to it.
-/

namespace TerminalManager.Palette
open Editor (Line len sliceFrom Boundary)
open Keybinds (trim)

/-- a path and where the file name starts in it -/
structure FileEntry where
  rel : Line
  nameStart : Nat
  boundary : Boundary rel nameStart

namespace FileEntry

/-- the file name is after the last slash -/
def newEntry (rel : Line) : FileEntry :=
  ⟨rel, len (rel.reverse.dropWhile (· ≠ '/')).reverse, by
    refine ⟨_, (rel.reverse.takeWhile (· ≠ '/')).reverse, ?_, rfl⟩
    rw [← List.reverse_append, List.takeWhile_append_dropWhile, List.reverse_reverse]⟩

lemma sliceFrom_isSome (e : FileEntry) : (sliceFrom e.rel e.nameStart).isSome = true :=
  Option.isSome_iff_exists.mpr e.boundary.sliceFrom

def name (e : FileEntry) : Line := (sliceFrom e.rel e.nameStart).get e.sliceFrom_isSome

/-- how paths are compared -/
def key (e : FileEntry) : List Nat := (asBytes e.rel).map UInt8.toNat

end FileEntry

/-- entries by path, no two of the same path -/
structure FileIndex where
  entries : List FileEntry
  sorted : entries.Pairwise fun e e' => e.key < e'.key

structure RankedFile where
  idx : Nat
  score : Int
deriving DecidableEq, Repr

def BASENAME_BONUS : Int := 60

/-- `i32::saturating_add` -/
def saturatingAdd (a b : Int) : Int := max (-2147483648) (min 2147483647 (a + b))

/-- the better one of the path, and of the file name with its bonus -/
def bestScore (pathScore baseScore : Option Int) : Option Int :=
  match baseScore with
  | some base =>
    let boosted := saturatingAdd base BASENAME_BONUS
    some (pathScore.elim boosted fun path => max path boosted)
  | none => pathScore

namespace FileIndex

/-- the path of an entry, which is there for every index that is ranked -/
def keyAt (index : FileIndex) (idx : Nat) : List Nat := ((index.entries[idx]?).map FileEntry.key).getD []

/-- the comparison of the sort: by score, the best one first, then by path -/
def notAfter (index : FileIndex) (a b : RankedFile) : Bool :=
  decide (b.score < a.score ∨ b.score = a.score ∧ index.keyAt a.idx ≤ index.keyAt b.idx)

/-- one turn of the loop: an entry, unless it does not match -/
def rankEntry (trimmed : Line) (entry : FileEntry) (idx : Nat) : Option RankedFile :=
  if isAsciiCiSubsequence (asBytes (toAsciiLowercase trimmed)) (asBytes entry.rel) then
    let pathScore := (fuzzyMatch trimmed entry.rel).map FuzzyScore.score
    let baseScore := if entry.nameStart = 0 then pathScore else (fuzzyMatch trimmed entry.name).map FuzzyScore.score
    (bestScore pathScore baseScore).map fun score => ⟨idx, score⟩
  else none

def rankCounted (index : FileIndex) (query : Line) (limit : Nat) : List RankedFile × Nat :=
  if limit = 0 then ([], 0)
  else
    let trimmed := trim query
    if trimmed = [] then (((index.entries.take limit).zipIdx).map fun e => ⟨e.2, 0⟩, index.entries.length)
    else
      let ranked := (index.entries.zipIdx.filterMap fun e => rankEntry trimmed e.1 e.2).mergeSort index.notAfter
      (ranked.take limit, ranked.length)

/-! ## the ranking -/

/-- the score of an entry: the matcher on the whole path and on the file name -/
def scoreOf (query : Line) (entry : FileEntry) : Option Int :=
  bestScore ((fuzzyMatch query entry.rel).map FuzzyScore.score) ((fuzzyMatch query entry.name).map FuzzyScore.score)

/-- every entry that matches -/
def scored (index : FileIndex) (query : Line) : List RankedFile :=
  index.entries.zipIdx.filterMap fun e => (scoreOf query e.1).map fun score => ⟨e.2, score⟩

/-- a better score, or the same one and an earlier path -/
def Before (index : FileIndex) (a b : RankedFile) : Prop :=
  b.score < a.score ∨ b.score = a.score ∧ index.keyAt a.idx < index.keyAt b.idx

/-- every entry that matches, by score and then by path -/
structure Ranking (index : FileIndex) (query : Line) (full : List RankedFile) : Prop where
  perm : full.Perm (index.scored query)
  sorted : full.Pairwise index.Before

section
variable {index : FileIndex} {query more : Line} {entry : FileEntry} {full : List RankedFile} {a b : RankedFile} {idx : Nat}

/-- the file name is the end of the path -/
lemma name_suffix (entry : FileEntry) : entry.name <:+ entry.rel := by
  obtain ⟨x, y, hrel, hlen⟩ := entry.boundary
  have hname : entry.name = y := by
    apply Option.some.inj
    rw [FileEntry.name, Option.some_get, ← hlen, hrel]
    exact Editor.sliceFrom_len x y
  exact ⟨x, by rw [hname, hrel]⟩

lemma name_of_start (h : entry.nameStart = 0) : entry.name = entry.rel := by
  apply Option.some.inj
  rw [FileEntry.name, Option.some_get, h]
  exact Editor.sliceFrom_len [] entry.rel

lemma bestScore_isSome (pathScore baseScore : Option Int) :
    (bestScore pathScore baseScore).isSome ↔ pathScore.isSome ∨ baseScore.isSome := by
  cases pathScore <;> cases baseScore <;> simp [bestScore]

/-- an entry matches when its path does: the file name is part of it -/
lemma scoreOf_isSome (query : Line) (entry : FileEntry) :
    (scoreOf query entry).isSome ↔ (needle query).Sublist ((asBytes entry.rel).map lowerByte) := by
  rw [scoreOf, bestScore_isSome, Option.isSome_map, Option.isSome_map, fuzzyMatch_isSome, fuzzyMatch_isSome]
  refine ⟨?_, .inl⟩
  rintro (h | h)
  · exact h
  · obtain ⟨dir, hdir⟩ := name_suffix entry
    rw [← hdir, asBytes_append, List.map_append]
    exact h.trans (List.sublist_append_right _ _)

/-- **The test in front rejects nothing that matches.** -/
theorem rankEntry_eq (query : Line) (entry : FileEntry) (idx : Nat) :
    rankEntry (trim query) entry idx = (scoreOf query entry).map fun score => ⟨idx, score⟩ := by
  have hbase : (if entry.nameStart = 0 then (fuzzyMatch query entry.rel).map FuzzyScore.score
      else (fuzzyMatch query entry.name).map FuzzyScore.score) = (fuzzyMatch query entry.name).map FuzzyScore.score := by
    split_ifs with hstart
    · rw [name_of_start hstart]
    · rfl
  have htest := isAsciiCiSubsequence_iff (asBytes (toAsciiLowercase (trim query))) (asBytes entry.rel)
  unfold rankEntry
  simp only [fuzzyMatch_trim, hbase]
  split_ifs with hpass
  · rfl
  · have hnone : scoreOf query entry = none := by
      rw [← Option.not_isSome_iff_eq_none, scoreOf_isSome]
      exact fun h => hpass (htest.mpr h)
    rw [hnone]
    rfl

/-! ### its order -/

lemma keyAt_lt {i j : Nat} (hij : i < j) (hj : j < index.entries.length) : index.keyAt i < index.keyAt j := by
  have h := List.pairwise_iff_getElem.mp index.sorted i j (by omega) hj hij
  simpa [keyAt, List.getElem?_eq_getElem (show i < index.entries.length by omega), List.getElem?_eq_getElem hj] using h

lemma idx_lt (h : a ∈ index.scored query) : a.idx < index.entries.length := by
  obtain ⟨⟨e, i⟩, hmem, hmap⟩ := List.mem_filterMap.mp h
  obtain ⟨score, -, rfl⟩ := Option.map_eq_some_iff.mp hmap
  exact (List.mem_zipIdx' hmem).1

/-- the entries are met in the order of their paths -/
lemma scored_sorted (index : FileIndex) (query : Line) :
    (index.scored query).Pairwise fun a b => index.keyAt a.idx < index.keyAt b.idx := by
  rw [scored, List.pairwise_filterMap, List.pairwise_iff_getElem]
  intro i j hi hj hij a ha b hb
  obtain ⟨score, -, rfl⟩ := Option.map_eq_some_iff.mp ha
  obtain ⟨score', -, rfl⟩ := Option.map_eq_some_iff.mp hb
  rw [List.length_zipIdx] at hi hj
  simp only [List.getElem_zipIdx, Nat.zero_add]
  exact keyAt_lt hij hj

lemma notAfter_trans (a b c : RankedFile) (hab : index.notAfter a b = true) (hbc : index.notAfter b c = true) :
    index.notAfter a c = true := by
  rw [notAfter, decide_eq_true_eq] at *
  rcases hab with hab | ⟨hab, hkey⟩
  · rcases hbc with hbc | ⟨hbc, -⟩
    · exact .inl (hbc.trans hab)
    · exact .inl (hbc ▸ hab)
  · rcases hbc with hbc | ⟨hbc, hkey'⟩
    · exact .inl (hab ▸ hbc)
    · exact .inr ⟨hbc.trans hab, hkey.trans hkey'⟩

lemma notAfter_total (a b : RankedFile) : (index.notAfter a b || index.notAfter b a) = true := by
  rw [Bool.or_eq_true, notAfter, notAfter, decide_eq_true_eq, decide_eq_true_eq]
  rcases lt_trichotomy a.score b.score with h | h | h
  · exact .inr (.inl h)
  · rcases le_total (index.keyAt a.idx) (index.keyAt b.idx) with hkey | hkey
    · exact .inl (.inr ⟨h.symm, hkey⟩)
    · exact .inr (.inr ⟨h, hkey⟩)
  · exact .inl (.inl h)

/-- the sort makes a ranking -/
theorem mergeSort_ranking (index : FileIndex) (query : Line) :
    Ranking index query ((index.scored query).mergeSort index.notAfter) := by
  have hperm := List.mergeSort_perm (index.scored query) index.notAfter
  have hdistinct : ((index.scored query).mergeSort index.notAfter).Pairwise fun a b => index.keyAt a.idx ≠ index.keyAt b.idx := by
    rw [hperm.pairwise_iff (fun h => h.symm)]
    exact (scored_sorted index query).imp fun h => h.ne
  refine ⟨hperm, ?_⟩
  refine ((List.pairwise_mergeSort notAfter_trans notAfter_total (index.scored query)).and hdistinct).imp ?_
  rintro a b ⟨hle, hne⟩
  rw [notAfter, decide_eq_true_eq] at hle
  exact hle.imp_right fun h => ⟨h.1, lt_of_le_of_ne h.2 hne⟩

/-- there is only one -/
theorem Ranking.unique {full' : List RankedFile} (h : Ranking index query full) (h' : Ranking index query full') :
    full' = full := by
  refine List.Perm.eq_of_pairwise ?_ h'.sorted h.sorted (h'.perm.trans h.perm.symm)
  intro a b _ _ hab hba
  exfalso
  rcases hab with hab | ⟨hab, hkey⟩
  · rcases hba with hba | ⟨hba, -⟩
    · exact lt_asymm hab hba
    · exact hab.ne hba.symm
  · rcases hba with hba | ⟨-, hkey'⟩
    · exact hba.ne hab.symm
    · exact lt_asymm hkey hkey'

/-- the entries of a ranking are those that match -/
lemma Ranking.mem_iff (h : Ranking index query full) :
    idx ∈ full.map RankedFile.idx ↔ ∃ e, index.entries[idx]? = some e ∧ (scoreOf query e).isSome := by
  rw [(h.perm.map RankedFile.idx).mem_iff, List.mem_map]
  constructor
  · rintro ⟨a, ha, rfl⟩
    obtain ⟨⟨e, i⟩, hmem, hmap⟩ := List.mem_filterMap.mp ha
    obtain ⟨score, hscore, rfl⟩ := Option.map_eq_some_iff.mp hmap
    exact ⟨e, List.mem_zipIdx_iff_getElem?.mp hmem, Option.isSome_iff_exists.mpr ⟨score, hscore⟩⟩
  · rintro ⟨e, hget, hsome⟩
    obtain ⟨score, hscore⟩ := Option.isSome_iff_exists.mp hsome
    refine ⟨⟨idx, score⟩, List.mem_filterMap.mpr ⟨(e, idx), List.mem_zipIdx_iff_getElem?.mpr hget, ?_⟩, rfl⟩
    rw [hscore]
    rfl

/-! ## what is shown -/

lemma ranked_eq (index : FileIndex) (query : Line) :
    (index.entries.zipIdx.filterMap fun e => rankEntry (trim query) e.1 e.2) = index.scored query := by
  unfold scored
  congr 1
  funext e
  exact rankEntry_eq query e.1 e.2

/-- without a query every entry has the bonus -/
lemma scored_blank (index : FileIndex) (h : trim query = []) :
    index.scored query = index.entries.zipIdx.map fun e => ⟨e.2, BASENAME_BONUS⟩ := by
  have hscore : ∀ entry, scoreOf query entry = some BASENAME_BONUS := by
    intro entry
    have hmatch : ∀ text, fuzzyMatch query text = some ⟨0, []⟩ := by
      intro text
      rw [fuzzyMatch, h]
      rfl
    rw [scoreOf, hmatch, hmatch]
    rfl
  unfold scored
  rw [← List.filterMap_eq_map]
  congr 1
  funext e
  rw [hscore]
  rfl

lemma ranking_blank (index : FileIndex) (h : trim query = []) : Ranking index query (index.scored query) := by
  refine ⟨List.Perm.refl _, ?_⟩
  have hsorted := scored_sorted index query
  rw [scored_blank index h] at hsorted ⊢
  refine (List.pairwise_map.mpr ?_)
  refine (List.pairwise_map.mp hsorted).imp ?_
  exact fun hlt => .inr ⟨rfl, hlt⟩

lemma take_zipIdx {α : Type*} (l : List α) (n : Nat) : (l.take n).zipIdx = l.zipIdx.take n := by
  apply List.ext_getElem?
  intro i
  rw [List.getElem?_zipIdx, List.getElem?_take, List.getElem?_take, List.getElem?_zipIdx]
  split_ifs <;> rfl

/-- a result is the beginning of one list -/
lemma rankCounted_take (index : FileIndex) (query : Line) :
    ∃ shown : List RankedFile, ∀ limit, (index.rankCounted query limit).1 = shown.take limit := by
  by_cases hblank : trim query = []
  · refine ⟨(index.entries.zipIdx).map fun e => ⟨e.2, 0⟩, ?_⟩
    intro limit
    cases limit with
    | zero => rfl
    | succ limit =>
      rw [rankCounted, if_neg (Nat.succ_ne_zero _)]
      dsimp only
      rw [if_pos hblank, ← List.map_take, take_zipIdx]
  · refine ⟨(index.scored query).mergeSort index.notAfter, ?_⟩
    intro limit
    cases limit with
    | zero => rfl
    | succ limit =>
      rw [rankCounted, if_neg (Nat.succ_ne_zero _)]
      dsimp only
      rw [if_neg hblank, ranked_eq]

/-- **Main result.**  There is one list of the entries that match, by score and then by path.  For every limit the files
shown are its first ones, with their scores when the query is not blank, and the count is its length; a smaller limit
shows a beginning of what a larger one shows; and a longer query matches no other entry. -/
theorem rankCounted_ranks (index : FileIndex) (query : Line) :
    ∃ full, Ranking index query full ∧ (∀ full', Ranking index query full' → full' = full) ∧
      (∀ limit, 0 < limit → let result := index.rankCounted query limit
        result.1.map RankedFile.idx = (full.take limit).map RankedFile.idx ∧
          (trim query ≠ [] → result.1 = full.take limit) ∧ result.2 = full.length) ∧
      (∀ limit limit', limit ≤ limit' → (index.rankCounted query limit).1 <+: (index.rankCounted query limit').1) ∧
      ∀ more full', Ranking index (query ++ more) full' →
        ∀ idx ∈ full'.map RankedFile.idx, idx ∈ full.map RankedFile.idx := by
  have hranking := mergeSort_ranking index query
  refine ⟨_, hranking, fun _ h => hranking.unique h, ?_, ?_, ?_⟩
  · intro limit hlimit
    rw [rankCounted, if_neg hlimit.ne']
    dsimp only
    by_cases hblank : trim query = []
    · have hfull := hranking.unique (ranking_blank index hblank)
      rw [if_pos hblank, ← hfull, scored_blank index hblank]
      refine ⟨?_, fun h => absurd hblank h, by rw [List.length_map, List.length_zipIdx]⟩
      rw [← List.map_take, ← take_zipIdx, List.map_map, List.map_map]
      rfl
    · rw [if_neg hblank, ranked_eq]
      exact ⟨rfl, fun _ => rfl, rfl⟩
  · intro limit limit' hle
    obtain ⟨shown, hshown⟩ := rankCounted_take index query
    rw [hshown, hshown]
    exact List.take_prefix_take_left hle
  · intro more full' hfull' idx hidx
    obtain ⟨e, hget, hsome⟩ := hfull'.mem_iff.mp hidx
    refine hranking.mem_iff.mpr ⟨e, hget, ?_⟩
    rw [scoreOf_isSome] at hsome ⊢
    by_cases hblank : trim query = []
    · rw [needle, hblank]
      exact List.nil_sublist _
    · exact (needle_append query more hblank).trans hsome

/-- without a query the entry is shown with no score, and its place in the ranking has the bonus -/
theorem rankCounted_blank : let index : FileIndex := ⟨[.newEntry "a".toList], List.pairwise_singleton _ _⟩
    let full : List RankedFile := [⟨0, 60⟩]
    Ranking index [] full ∧ (index.rankCounted [] 1).1 = [⟨0, 0⟩] ∧ (index.rankCounted [] 1).1 ≠ full.take 1 := by
  refine ⟨⟨List.Perm.of_eq rfl, List.pairwise_singleton _ _⟩, rfl, ?_⟩
  show [(⟨0, 0⟩ : RankedFile)] ≠ [⟨0, 60⟩]
  decide

end

end FileIndex

end TerminalManager.Palette
