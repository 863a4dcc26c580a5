import TerminalManager.Diff.Parse

/-!
# Patches and how git prints them

A patch is a list of file sections, a section a change of identity and a list of hunks, a hunk two
starts and a list of source lines.

* `printPatch`     git's unified format, one text line after the other;
* `patchDocument`  the document a reader expects of it: the sections appended in order, the numbers
                   counted from the starts of the hunks;
* `FileSection.Plain`   what the format asks of the texts and the numbers.
-/

namespace TerminalManager.Diff
open Editor (Line len)

inductive Mark
  | context
  | added
  | removed
  deriving DecidableEq, Repr

def Mark.char : Mark → Char
  | .context => ' '
  | .added => '+'
  | .removed => '-'

def Mark.kind : Mark → DiffRowKind
  | .context => .context
  | .added => .added
  | .removed => .removed

/-- the lines it counts for on the old side -/
def Mark.old : Mark → Nat
  | .added => 0
  | _ => 1

def Mark.new : Mark → Nat
  | .removed => 0
  | _ => 1

structure PatchLine where
  mark : Mark
  text : Line
  /-- the last line of a file that does not end with a line feed -/
  noNewline : Bool
  deriving DecidableEq, Repr

structure Hunk where
  oldStart : Nat
  newStart : Nat
  heading : Option Line
  lines : List PatchLine
  deriving DecidableEq, Repr

inductive Change
  | modified (path : Line) (modes : Option (Line × Line))
  | added (path mode : Line)
  | deleted (path mode : Line)
  | renamed (old new similarity : Line)
  deriving DecidableEq, Repr

structure FileSection where
  change : Change
  index : Option Line
  hunks : List Hunk
  deriving DecidableEq, Repr

/-! ## printing -/

def noNewlineMarker : Line := "\\ No newline at end of file".toList

def PatchLine.print (l : PatchLine) : List Line :=
  (l.mark.char :: l.text) :: if l.noNewline then [noNewlineMarker] else []

def oldCount : List PatchLine → Nat
  | [] => 0
  | l :: ls => l.mark.old + oldCount ls

def newCount : List PatchLine → Nat
  | [] => 0
  | l :: ls => l.mark.new + newCount ls

def decimal (n : Nat) : Line := Nat.toDigits 10 n

/-- a count of one is left out -/
def printRange (start count : Nat) : Line :=
  decimal start ++ if count = 1 then [] else ',' :: decimal count

def Hunk.header (h : Hunk) : Line :=
  "@@ ".toList ++ ('-' :: printRange h.oldStart (oldCount h.lines) ++
    ' ' :: '+' :: printRange h.newStart (newCount h.lines) ++
    " @@".toList ++ (h.heading.map (' ' :: ·)).getD [])

def Hunk.print (h : Hunk) : List Line := h.header :: h.lines.flatMap PatchLine.print

/-- a path after `--- ` or `+++ `: a tab follows when it holds a space -/
def sidePath (side path : Line) : Line := side ++ path ++ if ' ' ∈ path then ['\t'] else []

def devNull : Line := "/dev/null".toList

/-- the path of the old and of the new side -/
def Change.oldPath : Change → Line
  | .modified path _ | .added path _ | .deleted path _ | .renamed path _ _ => path

def Change.newPath : Change → Line
  | .modified path _ | .added path _ | .deleted path _ | .renamed _ path _ => path

/-- the operands of `---` and `+++` -/
def Change.minus : Change → Line
  | .added _ _ => devNull
  | c => sidePath "a/".toList c.oldPath

def Change.plus : Change → Line
  | .deleted _ _ => devNull
  | c => sidePath "b/".toList c.newPath

/-- the extended header between the `diff --git` and the `index` lines -/
def Change.extended : Change → List Line
  | .modified _ none => []
  | .modified _ (some (old, new)) => ["old mode ".toList ++ old, "new mode ".toList ++ new]
  | .added _ mode => ["new file mode ".toList ++ mode]
  | .deleted _ mode => ["deleted file mode ".toList ++ mode]
  | .renamed old new similarity =>
    ["similarity index ".toList ++ similarity, "rename from ".toList ++ old, "rename to ".toList ++ new]

def Change.gitLine (c : Change) : Line :=
  "diff --git ".toList ++ ("a/".toList ++ c.oldPath ++ " b/".toList ++ c.newPath)

def FileSection.sides (f : FileSection) : List Line :=
  if f.hunks = [] then []
  else ["--- ".toList ++ f.change.minus, "+++ ".toList ++ f.change.plus]

def FileSection.print (f : FileSection) : List Line :=
  f.change.gitLine :: (f.change.extended ++ (f.index.map ("index ".toList ++ ·)).toList ++
    f.sides ++ f.hunks.flatMap Hunk.print)

def printPatch (fs : List FileSection) : List Char :=
  (fs.flatMap FileSection.print).flatMap (· ++ ['\n'])

/-! ## the document -/

abbrev Row := DiffRowInfo × Line

/-- the rows of the lines of a hunk, numbered from `old` and `new` on -/
def contentRows (file old new : Nat) : List PatchLine → List Row
  | [] => []
  | l :: ls =>
    (⟨l.mark.kind, file, if l.mark = .added then none else some old,
      if l.mark = .removed then none else some new⟩, l.text) ::
      (if l.noNewline then [(⟨.note, file, none, none⟩, noNewlineMarker)] else []) ++
        contentRows file (old + l.mark.old) (new + l.mark.new) ls

/-- the header of a hunk is kept verbatim, up to the limit on a line -/
def Hunk.rows (file : Nat) (h : Hunk) : List Row :=
  (⟨.hunkHeader, file, none, none⟩, clampLine h.header) :: contentRows file h.oldStart h.newStart h.lines

/-- the rows of the hunk headers, when the first of them is at `start` -/
def hunkRowsFrom (start : Nat) : List Hunk → List Nat
  | [] => []
  | h :: hs => start :: hunkRowsFrom (start + (h.rows 0).length) hs

def Change.status : Change → DiffFileStatus
  | .modified _ _ => .modified
  | .added _ _ => .added
  | .deleted _ _ => .deleted
  | .renamed _ _ _ => .renamed

def Change.title : Change → Line
  | .renamed old new _ => "R ".toList ++ old ++ " -> ".toList ++ new
  | c => c.status.letter :: ' ' :: c.newPath

def FileSection.rows (file : Nat) (f : FileSection) : List Row :=
  (⟨.fileHeader, file, none, none⟩, clampLine f.change.title) :: f.hunks.flatMap (Hunk.rows file)

/-- the blank row before every file but the first -/
def spacer (file : Nat) : List Row := if file = 0 then [] else [(⟨.spacer, file - 1, none, none⟩, [])]

/-- a file section after the ones of `d` -/
def DiffDocument.addFile (d : DiffDocument) (f : FileSection) : DiffDocument :=
  let file := d.files.length
  let rows := spacer file ++ f.rows file
  let first := d.lines.length + (spacer file).length
  { d with
    lines := d.lines ++ rows.map Prod.snd
    rows := d.rows ++ rows.map Prod.fst
    files := d.files ++ [⟨f.change.newPath, if f.change.oldPath = f.change.newPath then none
      else some f.change.oldPath, f.change.status, first, hunkRowsFrom (first + 1) f.hunks⟩] }

def patchDocument (fs : List FileSection) : DiffDocument :=
  fs.foldl DiffDocument.addFile ⟨[], [], [], false⟩

/-! ## what the format asks for -/

/-- one line of text -/
def OneLine (l : Line) : Prop := '\n' ∉ l ∧ '\r' ∉ l

instance (l : Line) : Decidable (OneLine l) := inferInstanceAs (Decidable (_ ∧ _))

/-- a character that git prints as it is -/
def plainChar (c : Char) : Bool := c ≠ '"' && c ≠ '\\' && 32 ≤ c.toNat && c.toNat ≠ 127

/-- a path that git does not quote -/
def PlainPath (l : Line) : Prop := l ≠ [] ∧ l.all plainChar = true

instance (l : Line) : Decidable (PlainPath l) := inferInstanceAs (Decidable (_ ∧ _))

structure PatchLine.Plain (l : PatchLine) : Prop where
  text : OneLine l.text
  short : l.text.length ≤ maxLineChars

instance (l : PatchLine) : Decidable l.Plain :=
  decidable_of_iff (OneLine l.text ∧ l.text.length ≤ maxLineChars) ⟨fun h => ⟨h.1, h.2⟩, fun h => ⟨h.1, h.2⟩⟩

/-- every number that the hunk gives a line fits a `u32` -/
structure Hunk.Plain (h : Hunk) : Prop where
  heading : ∀ t, h.heading = some t → OneLine t
  lines : ∀ l ∈ h.lines, l.Plain
  oldStart : h.oldStart ≤ u32Max
  newStart : h.newStart ≤ u32Max
  oldEnd : h.oldStart + oldCount h.lines ≤ u32Max + 1
  newEnd : h.newStart + newCount h.lines ≤ u32Max + 1

instance (h : Hunk) : Decidable h.Plain :=
  decidable_of_iff ((∀ t ∈ h.heading, OneLine t) ∧ (∀ l ∈ h.lines, l.Plain) ∧
      h.oldStart ≤ u32Max ∧ h.newStart ≤ u32Max ∧ h.oldStart + oldCount h.lines ≤ u32Max + 1 ∧
      h.newStart + newCount h.lines ≤ u32Max + 1)
    ⟨fun ⟨h1, h2, h3, h4, h5, h6⟩ => ⟨h1, h2, h3, h4, h5, h6⟩,
      fun ⟨h1, h2, h3, h4, h5, h6⟩ => ⟨h1, h2, h3, h4, h5, h6⟩⟩

def Change.Plain : Change → Prop
  | .modified path modes => PlainPath path ∧ ∀ m, modes = some m → OneLine m.1 ∧ OneLine m.2
  | .added path mode | .deleted path mode => PlainPath path ∧ OneLine mode
  | .renamed old new similarity => PlainPath old ∧ PlainPath new ∧ old ≠ new ∧ OneLine similarity

instance (c : Change) : Decidable c.Plain :=
  match c with
  | .modified path modes => inferInstanceAs
      (Decidable (PlainPath path ∧ ∀ m ∈ modes, OneLine m.1 ∧ OneLine m.2))
  | .added path mode => inferInstanceAs (Decidable (PlainPath path ∧ OneLine mode))
  | .deleted path mode => inferInstanceAs (Decidable (PlainPath path ∧ OneLine mode))
  | .renamed old new similarity => inferInstanceAs
      (Decidable (PlainPath old ∧ PlainPath new ∧ old ≠ new ∧ OneLine similarity))

structure FileSection.Plain (f : FileSection) : Prop where
  change : f.change.Plain
  index : ∀ t, f.index = some t → OneLine t
  hunks : ∀ h ∈ f.hunks, h.Plain

instance (f : FileSection) : Decidable f.Plain :=
  decidable_of_iff (f.change.Plain ∧ (∀ t ∈ f.index, OneLine t) ∧ ∀ h ∈ f.hunks, h.Plain)
    ⟨fun h => ⟨h.1, h.2.1, h.2.2⟩, fun h => ⟨h.1, h.2, h.3⟩⟩

end TerminalManager.Diff
