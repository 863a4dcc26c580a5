import TerminalManager.Diff.Document
import TerminalManager.Keybinds.Combo

/-!
# The rows of a reviewed patch

A patch is shown in two row spaces: the lines as they are, and the same lines with the two sides of a replacement
next to each other.

* `parsePatch`        the lines of what Git printed;
* `importPatch`       a report of a patch file, with the lines of each file;
* `align`             the rows of the second view;
* `collectHunks`      where each hunk starts in both;
* `LoadedPatch.new`   the three together.
-/

namespace TerminalManager.DiffReview
open Editor (Line)
open Diff (stripPrefix startsWith splitWhitespace strLines DiffRowKind DiffRowInfo parseUnifiedDiff)

/-! ## reports -/

inductive LineKind
  | hunk | removed | added | context | metaLine
deriving DecidableEq, Repr

/-- `git::Line` -/
structure PatchLine where
  old : Option Nat
  new : Option Nat
  kind : LineKind
  text : Line
deriving DecidableEq, Repr

structure File where
  path : Line
  oldPath : Option Line
  added : Option Nat
  removed : Option Nat
deriving DecidableEq, Repr

/-- what changed in a range, or in a patch file whose path is in `π` -/
structure Report (π : Type) where
  root : π
  base : Line
  head : Line
  label : Line
  files : List File
  /-- imported rows, indexed like files; absent for Git ranges -/
  patches : Option (List (List PatchLine))
  parallel : ∀ ps ∈ patches, ps.length = files.length

inductive Range
  | last (n : Nat)
  | unpushed
  | base (name : Line)
  | branches (fromRef toRef : Line)
deriving DecidableEq, Repr

/-! ## numbers -/

def usizeMax : Nat := 18446744073709551615

/-- a decimal digit more; none when it is no digit or the number does not fit -/
def addDigit (n : Nat) (c : Char) : Option Nat :=
  if c.isDigit ∧ 10 * n + (c.toNat - 48) ≤ usizeMax then some (10 * n + (c.toNat - 48)) else none

/-- `str::parse::<usize>` -/
def parseUsize (s : Line) : Option Nat :=
  let digits := (stripPrefix ['+'] s).getD s
  if digits = [] then
    none
  else
    digits.foldlM addDigit 0

/-- `+= 1` on a `usize` -/
def wrapSucc (n : Nat) : Nat := if n = usizeMax then 0 else n + 1

/-! ## what Git printed -/

def maxChars : Nat := 4096

def truncatedSuffix : Line := "  [line preview truncated after 4096 characters]".toList

def previewText (text : Line) : Line :=
  if text.length > maxChars then text.take maxChars ++ truncatedSuffix else text

/-- the number that starts a side of a hunk header, after the sign; the sign is one byte -/
def hunkNumber (s : Line) : Option Nat :=
  match s with
  | [] => none
  | sign :: rest => if sign.utf8Size = 1 then parseUsize (rest.takeWhile (· ≠ ',')) else none

structure PatchState where
  old : Nat
  new : Nat
  inHunk : Bool
deriving DecidableEq, Repr

def PatchState.step (s : PatchState) (text : Line) : PatchState × PatchLine :=
  let line (old new : Option Nat) (kind : LineKind) : PatchLine := ⟨old, new, kind, previewText text⟩
  if startsWith "@@ ".toList text then
    let parts := (splitWhitespace text).drop 1
    let number (i : Nat) : Nat := (parts[i]?.bind hunkNumber).getD 0
    (⟨number 0, number 1, true⟩, line none none .hunk)
  else if startsWith "diff --git ".toList text then
    ({ s with inHunk := false }, line none none .metaLine)
  else if s.inHunk && startsWith "-".toList text then
    ({ s with old := wrapSucc s.old }, line (some s.old) none .removed)
  else if s.inHunk && startsWith "+".toList text then
    ({ s with new := wrapSucc s.new }, line none (some s.new) .added)
  else if s.inHunk && startsWith " ".toList text then
    ({ s with old := wrapSucc s.old, new := wrapSucc s.new }, line (some s.old) (some s.new) .context)
  else
    (s, line none none .metaLine)

def parseLines (s : PatchState) : List Line → List PatchLine
  | [] => []
  | text :: rest => (s.step text).2 :: parseLines (s.step text).1 rest

def parsePatch (patch : Line) : List PatchLine := parseLines ⟨0, 0, false⟩ (strLines patch)

/-! ## an imported patch file -/

/-- the kind of a row and the marker before its text; a spacer is left out -/
def importKind : DiffRowKind → Option (LineKind × Line)
  | .spacer => none
  | .added => some (.added, ['+'])
  | .removed => some (.removed, ['-'])
  | .context => some (.context, [' '])
  | .hunkHeader => some (.hunk, [])
  | .fileHeader | .note => some (.metaLine, [])

def countRow (kind : DiffRowKind) (file : File) : File :=
  match kind with
  | .added => { file with added := file.added.map (· + 1) }
  | .removed => { file with removed := file.removed.map (· + 1) }
  | _ => file

/-- one row of the document under its file -/
def importRow (files : List File) (patches : List (List PatchLine)) (row : DiffRowInfo) (text : Line) :
    List File × List (List PatchLine) :=
  match importKind row.kind with
  | none => (files, patches)
  | some (kind, marker) =>
    (files.modify row.file (countRow row.kind),
      patches.modify row.file (· ++ [⟨row.oldNo, row.newNo, kind, marker ++ text⟩]))

def importRows (files : List File) (patches : List (List PatchLine)) :
    List (DiffRowInfo × Line) → List File × List (List PatchLine)
  | [] => (files, patches)
  | (row, text) :: rest =>
    importRows (importRow files patches row text).1 (importRow files patches row text).2 rest

theorem importRows_length {rows : List (DiffRowInfo × Line)} {files : List File} {patches : List (List PatchLine)}
    (h : patches.length = files.length) :
    (importRows files patches rows).2.length = (importRows files patches rows).1.length := by
  induction rows generalizing files patches with
  | nil => exact h
  | cons row rows ih =>
    obtain ⟨row, text⟩ := row
    refine ih ?_
    unfold importRow
    split
    · exact h
    · simpa using h

def importFile (file : Diff.DiffFileInfo) : File :=
  let counted : Option Nat := if file.status = .binary then none else some 0
  ⟨file.path, file.oldPath, counted, counted⟩

/-- `patch_file::parse` -/
def importPatch {π : Type} (path : π) (text : Line) : Except String (Report π) :=
  let doc := parseUnifiedDiff text
  if doc.files = [] then
    .error "No Git-format diff found. Choose a patch containing diff --git file headers."
  else if doc.truncated then
    .error "Patch exceeds the preview row limit. Export a smaller patch."
  else
    let files := doc.files.map importFile
    let imported := importRows files (List.replicate files.length []) (doc.rows.zip doc.lines)
    .ok {
      root := path
      base := []
      head := []
      label := "Imported patch; counts reflect displayed changes".toList
      files := imported.1
      patches := some imported.2
      parallel := by
        rintro _ ⟨⟩
        exact importRows_length (by simp) }

/-! ## the two views -/

namespace Split

structure Cell where
  line : Nat
  note : Option Nat
deriving DecidableEq, Repr

inductive Row
  | shared (line : Nat)
  | pair (old new : Option Cell)
deriving DecidableEq, Repr

/-- a run of removed and added lines, and the side of its last one -/
structure Block where
  old : List Cell
  new : List Cell
  oldSide : Bool
deriving DecidableEq, Repr

namespace Block

def push (b : Block) (oldSide : Bool) (cell : Cell) : Block :=
  if oldSide then
    { b with old := b.old ++ [cell], oldSide := true }
  else
    { b with new := b.new ++ [cell], oldSide := false }

/-- a note goes to the last line of the current side, when there is one -/
def noteLast (cells : List Cell) (index : Nat) : List Cell :=
  cells.modify (cells.length - 1) ({ · with note := some index })

/-- the block with one more line, `none` when the line ends it -/
def add (b : Block) (index : Nat) (line : PatchLine) : Option Block :=
  match line.kind with
  | .removed => some (b.push true ⟨index, none⟩)
  | .added => some (b.push false ⟨index, none⟩)
  | .metaLine =>
    if startsWith ['\\', ' '] line.text then
      some (if b.oldSide then { b with old := noteLast b.old index } else { b with new := noteLast b.new index })
    else
      none
  | _ => none

/-- the two sides next to each other -/
def rows (b : Block) : List Row :=
  (List.range (max b.old.length b.new.length)).map fun i => .pair b.old[i]? b.new[i]?

end Block

/-- the rows from the line `index` on; an open block is the inner loop of the source -/
def alignFrom (index : Nat) : Option Block → List PatchLine → List Row
  | none, [] => []
  | some b, [] => b.rows
  | none, line :: rest =>
    if line.kind = .removed ∨ line.kind = .added then
      alignFrom (index + 1) (Block.add ⟨[], [], true⟩ index line) rest
    else
      .shared index :: alignFrom (index + 1) none rest
  | some b, line :: rest =>
    match b.add index line with
    | some b' => alignFrom (index + 1) (some b') rest
    | none => b.rows ++ .shared index :: alignFrom (index + 1) none rest

def align (lines : List PatchLine) : List Row := alignFrom 0 none lines

lemma mem_rows_ne_shared {b : Block} {line : Nat} : Row.shared line ∉ b.rows := by
  intro h
  obtain ⟨i, -, hi⟩ := List.mem_map.mp h
  cases hi

/-- a row that both sides share is a line of the patch -/
theorem shared_lt {line index : Nat} {b : Option Block} {lines : List PatchLine}
    (h : Row.shared line ∈ alignFrom index b lines) : line < index + lines.length := by
  induction lines generalizing index b with
  | nil =>
    cases b with
    | none => cases h
    | some b => exact absurd h mem_rows_ne_shared
  | cons l lines ih =>
    have hrest : ∀ {b}, Row.shared line ∈ alignFrom (index + 1) b lines → line < index + (l :: lines).length := by
      intro b h
      have := ih h
      simp only [List.length_cons]
      omega
    have hhead : ∀ {rows}, (Row.shared line ∈ rows → line < index + (l :: lines).length) →
        Row.shared line ∈ Row.shared index :: rows → line < index + (l :: lines).length := by
      intro rows hrows h
      rcases List.mem_cons.mp h with h | h
      · cases h
        simp
      · exact hrows h
    cases b with
    | none =>
      simp only [alignFrom] at h
      split at h
      · exact hrest h
      · exact hhead hrest h
    | some b =>
      simp only [alignFrom] at h
      split at h
      · exact hrest h
      · rcases List.mem_append.mp h with h | h
        · exact absurd h mem_rows_ne_shared
        · exact hhead hrest h

end Split

/-! ## hunks -/

structure Hunk where
  unifiedRow : Nat
  splitRow : Nat
deriving DecidableEq, Repr

/-- the hunk that starts at a row -/
def hunkAt (lines : List PatchLine) (splitRow : Nat) : Split.Row → Option Hunk
  | .shared line => if lines[line]?.map PatchLine.kind = some .hunk then some ⟨line, splitRow⟩ else none
  | .pair _ _ => none

def collectHunks (lines : List PatchLine) (rows : List Split.Row) : List Hunk :=
  rows.zipIdx.filterMap fun row => hunkAt lines row.2 row.1

structure LoadedPatch where
  lines : List PatchLine
  splitRows : List Split.Row
  hunks : List Hunk
deriving DecidableEq, Repr

def LoadedPatch.new (lines : List PatchLine) : LoadedPatch :=
  ⟨lines, Split.align lines, collectHunks lines (Split.align lines)⟩

/-- a hunk starts at a row of both views -/
theorem collectHunks_lt {lines : List PatchLine} {rows : List Split.Row} {hunk : Hunk}
    (h : hunk ∈ collectHunks lines rows) : hunk.unifiedRow < lines.length ∧ hunk.splitRow < rows.length := by
  obtain ⟨⟨row, splitRow⟩, hmem, hat⟩ := List.mem_filterMap.mp h
  cases row with
  | pair old new => cases hat
  | shared line =>
    have hif : (if lines[line]?.map PatchLine.kind = some .hunk then some ⟨line, splitRow⟩ else none) = some hunk := hat
    split_ifs at hif with hkind
    cases hif
    obtain ⟨l, hl, -⟩ := Option.map_eq_some_iff.mp hkind
    exact ⟨(List.getElem?_eq_some_iff.mp hl).1, (List.mem_zipIdx' hmem).1⟩

end TerminalManager.DiffReview
