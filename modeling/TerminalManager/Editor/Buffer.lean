import TerminalManager.Lib.Lines
import TerminalManager.Lib.Find

/-!
# The buffer of the editor

`EditorBuffer` (`src/editor/buffer.rs`): the lines of a text, a cursor, a selection anchor and two
stacks of undo groups.  A line is a list of characters and a column a number of UTF-8 bytes.
Slicing inside of a character and indexing past the end panic in the source; here they give `none`.
Stacks have their newest group first.

* `rawReplace`      the splice every edit is made of;
* `recordReplace`, `pushRecord`   a splice that is recorded, in a new group or in the open one;
* `undo`, `redo`;
* `Op`, `Op.run`    the public operations.
-/

namespace TerminalManager.Editor
open Lines

abbrev Line := List Char

/-- the Unicode table behind `char::is_alphanumeric` -/
structure CharTable where
  isAlphanumeric : Char → Bool

/-- `char::is_whitespace`: the property White_Space -/
def isWhitespace (c : Char) : Bool :=
  let n := c.toNat
  (9 ≤ n && n ≤ 13) || n = 0x20 || n = 0x85 || n = 0xA0 || n = 0x1680 ||
    (0x2000 ≤ n && n ≤ 0x200A) || n = 0x2028 || n = 0x2029 || n = 0x202F || n = 0x205F || n = 0x3000

/-! ## strings -/

/-- the number of bytes -/
def len (l : Line) : Nat := width Char.utf8Size l

/-- `l[..n]` -/
def sliceTo (l : Line) (n : Nat) : Option Line := (cut Char.utf8Size l n).map Prod.fst

/-- `l[n..]` -/
def sliceFrom (l : Line) (n : Nat) : Option Line := (cut Char.utf8Size l n).map Prod.snd

/-- `l[m..n]` -/
def slice (l : Line) (m n : Nat) : Option Line := do
  let x ← sliceTo l n
  sliceFrom x m

/-- `str::find`: the offset of the first occurrence -/
def find (p l : Line) : Option Nat := (Find.before p l).map len

def isCharBoundary (l : Line) (n : Nat) : Bool := (cut Char.utf8Size l n).isSome

/-- `String::truncate` -/
def truncate (l : Line) (n : Nat) : Option Line := if n ≤ len l then sliceTo l n else some l

def rsplitOnce (c : Char) : List Char → Option (List Char × List Char)
  | [] => none
  | a :: s =>
    match rsplitOnce c s with
    | some (head, last) => some (a :: head, last)
    | none => if a = c then some ([], s) else none

/-! ## helpers of the module -/

/-- `TAB_SPACES` -/
def tabSpaces : Nat := 4

def charWidthAt (c : Char) (col : Nat) : Nat :=
  if c = '\t' then tabSpaces - col % tabSpaces else 1

inductive Damage
  | none
  | line (l : Nat)
  /-- `From`: the line structure changed from this line downward -/
  | fromLine (l : Nat)
  deriving DecidableEq, Repr

def Damage.merge : Damage → Damage → Damage
  | .none, d => d
  | d, .none => d
  | .line a, .line b => if a = b then .line a else .fromLine (min a b)
  | .fromLine a, .line b => .fromLine (min a b)
  | .line b, .fromLine a => .fromLine (min a b)
  | .fromLine a, .fromLine b => .fromLine (min a b)

inductive GroupKind
  | typing
  | deleting
  | other
  deriving DecidableEq, Repr

structure EditRecord where
  start : Position
  oldText : List Char
  newText : List Char
  cursorBefore : Position
  anchorBefore : Option Position
  cursorAfter : Position
  deriving DecidableEq, Repr

structure UndoGroup where
  id : UInt64
  kind : GroupKind
  records : List EditRecord
  deriving DecidableEq, Repr

def endOfText (start : Position) (text : List Char) : Position :=
  match rsplitOnce '\n' text with
  | none => ⟨start.line, start.col + len text⟩
  | some (head, last) => ⟨start.line + head.count '\n' + 1, len last⟩

def indentEnd (l : Line) : Nat := len (l.takeWhile isWhitespace)

def outdentWidth (l : Line) : Nat :=
  if l.head? = some '\t' then 1 else ((l.take tabSpaces).takeWhile (· = ' ')).length

def isWordChar (t : CharTable) (c : Char) : Bool := t.isAlphanumeric c || c = '_'

/-- of the same class as `c`, and not whitespace -/
def sameRun (t : CharTable) (c d : Char) : Bool :=
  !isWhitespace d && isWordChar t d == isWordChar t c

def prevWordBoundary (t : CharTable) (s : Line) (pos : Nat) : Option Nat :=
  (sliceTo s pos).map fun p =>
    match p.reverse.dropWhile isWhitespace with
    | [] => 0
    | c :: q => len ((c :: q).dropWhile (sameRun t c))

/-- the first half of `next_word_boundary`: the run the line begins with is skipped -/
def skipRun (t : CharTable) : Line → Line
  | c :: l => if isWhitespace c then c :: l else (c :: l).dropWhile (sameRun t c)
  | [] => []

def nextWordBoundary (t : CharTable) (s : Line) (pos : Nat) : Option Nat :=
  (sliceFrom s pos).map fun p =>
    let rest := (skipRun t p).dropWhile isWhitespace
    if rest = [] then len s else pos + (len p - len rest)

/-- `c` goes down to a boundary -/
def snapDown (l : Line) : Nat → Nat
  | 0 => 0
  | c + 1 => if isCharBoundary l (c + 1) then c + 1 else snapDown l c

/-- the loop of `visual_col`: `byte` is the offset and `v` the visual column of the next character -/
def visualColFrom (col : Nat) : Line → (byte v : Nat) → Nat
  | [], _, v => v
  | c :: l, byte, v =>
    if col ≤ byte then v else visualColFrom col l (byte + c.utf8Size) (v + charWidthAt c v)

/-- the loop of `col_for_visual` -/
def colForVisualFrom (target : Nat) : Line → (byte v : Nat) → Nat
  | [], byte, _ => byte
  | c :: l, byte, v =>
    if target < v + charWidthAt c v then byte
    else colForVisualFrom target l (byte + c.utf8Size) (v + charWidthAt c v)

/-! ## the buffer -/

structure EditorBuffer where
  lines : List Line
  cursor : Position
  anchor : Option Position
  stickyChars : Option Nat
  undos : List UndoGroup
  redos : List UndoGroup
  nextGroupId : UInt64
  groupOpen : Bool
  deriving DecidableEq, Repr

namespace EditorBuffer

def fromText (text : List Char) : EditorBuffer where
  lines := text.splitOn '\n'
  cursor := ⟨0, 0⟩
  anchor := none
  stickyChars := none
  undos := []
  redos := []
  nextGroupId := 1
  groupOpen := false

def toText (b : EditorBuffer) : List Char := ['\n'].intercalate b.lines

def selection (b : EditorBuffer) : Option (Position × Position) :=
  match b.anchor with
  | none => none
  | some a =>
    if a = b.cursor then none
    else if a.before b.cursor then some (a, b.cursor)
    else some (b.cursor, a)

/-- the text between two ordered positions -/
def textRange (b : EditorBuffer) (start stop : Position) : Option (List Char) :=
  if start.line = stop.line then do
    let l ← b.lines[start.line]?
    slice l start.col stop.col
  else do
    let l ← b.lines[start.line]?
    let first ← sliceFrom l start.col
    let middle ← if start.line + 1 ≤ stop.line ∧ stop.line ≤ b.lines.length then
        some ((b.lines.take stop.line).drop (start.line + 1))
      else none
    let l ← b.lines[stop.line]?
    let last ← sliceTo l stop.col
    some (first ++ middle.flatMap (fun m => '\n' :: m) ++ '\n' :: last)

/-- the text of the selection, when something is selected -/
def selectedText (b : EditorBuffer) : Option (Option (List Char)) :=
  match b.selection with
  | none => some none
  | some (start, stop) => (b.textRange start stop).map some

def snapToCharBoundary (b : EditorBuffer) (line col : Nat) : Option Nat :=
  b.lines[line]?.map fun l => snapDown l (min col (len l))

def clampPosition (b : EditorBuffer) (pos : Position) : Option Position := do
  let line := min pos.line (b.lines.length - 1)
  let l ← b.lines[line]?
  let col ← b.snapToCharBoundary line (min pos.col (len l))
  some ⟨line, col⟩

def charCol (b : EditorBuffer) (pos : Position) : Option Nat := do
  let l ← b.lines[pos.line]?
  let p ← sliceTo l pos.col
  some p.length

def colForCharIndex (b : EditorBuffer) (line chars : Nat) : Option Nat :=
  b.lines[line]?.map fun l => len (l.take chars)

def visualCol (b : EditorBuffer) (pos : Position) : Option Nat :=
  b.lines[pos.line]?.map fun l => visualColFrom pos.col l 0 0

def colForVisual (b : EditorBuffer) (line target : Nat) : Option Nat :=
  b.lines[line]?.map fun l => colForVisualFrom target l 0 0

def prevCharCol (b : EditorBuffer) (line col : Nat) : Option Nat := do
  let l ← b.lines[line]?
  let p ← sliceTo l col
  some (len p.dropLast)

def nextCharCol (b : EditorBuffer) (line col : Nat) : Option Nat := do
  let l ← b.lines[line]?
  match ← sliceFrom l col with
  | c :: _ => some (col + c.utf8Size)
  | [] => some (len l)

def docEnd (b : EditorBuffer) : Option Position := do
  let line := b.lines.length - 1
  let l ← b.lines[line]?
  some ⟨line, len l⟩

/-! ### movement -/

def beginMove (b : EditorBuffer) (extend : Bool) : EditorBuffer :=
  { b with
    groupOpen := false
    anchor := if extend then some (b.anchor.getD b.cursor) else none }

def moveLeft (b : EditorBuffer) (extend : Bool) : Option EditorBuffer :=
  let b := { b with stickyChars := none }
  match if extend then none else b.selection with
  | some (start, _) => some { b with cursor := start, anchor := none }
  | none =>
    let b := b.beginMove extend
    if 0 < b.cursor.col then do
      let col ← b.prevCharCol b.cursor.line b.cursor.col
      some { b with cursor := ⟨b.cursor.line, col⟩ }
    else if 0 < b.cursor.line then do
      let l ← b.lines[b.cursor.line - 1]?
      some { b with cursor := ⟨b.cursor.line - 1, len l⟩ }
    else some b

def moveRight (b : EditorBuffer) (extend : Bool) : Option EditorBuffer :=
  let b := { b with stickyChars := none }
  match if extend then none else b.selection with
  | some (_, stop) => some { b with cursor := stop, anchor := none }
  | none => do
    let b := b.beginMove extend
    let l ← b.lines[b.cursor.line]?
    if b.cursor.col < len l then
      let col ← b.nextCharCol b.cursor.line b.cursor.col
      some { b with cursor := ⟨b.cursor.line, col⟩ }
    else if b.cursor.line + 1 < b.lines.length then
      some { b with cursor := ⟨b.cursor.line + 1, 0⟩ }
    else some b

/-- the column to keep to, `sticky_chars.unwrap_or_else(..)` -/
def stickyCol (b : EditorBuffer) : Option Nat :=
  match b.stickyChars with
  | some s => some s
  | none => b.visualCol b.cursor

/-- `move_vertical` from `begin_move` on -/
def moveLines (b : EditorBuffer) (delta : Int) : Option EditorBuffer := do
  let sticky ← b.stickyCol
  let target := min (b.cursor.line + delta).toNat (b.lines.length - 1)
  if target = b.cursor.line then
    if delta < 0 then
      some { b with cursor := ⟨b.cursor.line, 0⟩, stickyChars := none }
    else
      let l ← b.lines[b.cursor.line]?
      some { b with cursor := ⟨b.cursor.line, len l⟩, stickyChars := none }
  else
    let col ← b.colForVisual target sticky
    some { b with cursor := ⟨target, col⟩, stickyChars := some sticky }

def moveVertical (b : EditorBuffer) (delta : Int) (extend : Bool) : Option EditorBuffer :=
  match if extend then none else b.selection with
  | some (start, stop) =>
    ({ b with cursor := if delta < 0 then start else stop }.beginMove extend).moveLines delta
  | none => (b.beginMove extend).moveLines delta

def moveUp (b : EditorBuffer) (extend : Bool) : Option EditorBuffer := b.moveVertical (-1) extend

def moveDown (b : EditorBuffer) (extend : Bool) : Option EditorBuffer := b.moveVertical 1 extend

def movePage (b : EditorBuffer) (deltaLines : Int) (extend : Bool) : Option EditorBuffer :=
  b.moveVertical deltaLines extend

def moveHome (b : EditorBuffer) (extend : Bool) : Option EditorBuffer := do
  let b := { b with stickyChars := none }.beginMove extend
  let l ← b.lines[b.cursor.line]?
  let indent := indentEnd l
  some { b with cursor := ⟨b.cursor.line, if b.cursor.col = indent then 0 else indent⟩ }

def moveEnd (b : EditorBuffer) (extend : Bool) : Option EditorBuffer := do
  let b := { b with stickyChars := none }.beginMove extend
  let l ← b.lines[b.cursor.line]?
  some { b with cursor := ⟨b.cursor.line, len l⟩ }

def moveDocStart (b : EditorBuffer) (extend : Bool) : Option EditorBuffer :=
  some { { b with stickyChars := none }.beginMove extend with cursor := ⟨0, 0⟩ }

def moveDocEnd (b : EditorBuffer) (extend : Bool) : Option EditorBuffer := do
  let stop ← b.docEnd
  some { { b with stickyChars := none }.beginMove extend with cursor := stop }

def moveWordLeft (t : CharTable) (b : EditorBuffer) (extend : Bool) : Option EditorBuffer :=
  let b := { b with stickyChars := none }.beginMove extend
  if b.cursor.col = 0 then
    if 0 < b.cursor.line then do
      let l ← b.lines[b.cursor.line - 1]?
      some { b with cursor := ⟨b.cursor.line - 1, len l⟩ }
    else some b
  else do
    let l ← b.lines[b.cursor.line]?
    let col ← prevWordBoundary t l b.cursor.col
    some { b with cursor := ⟨b.cursor.line, col⟩ }

def moveWordRight (t : CharTable) (b : EditorBuffer) (extend : Bool) : Option EditorBuffer := do
  let b := { b with stickyChars := none }.beginMove extend
  let l ← b.lines[b.cursor.line]?
  if len l ≤ b.cursor.col then
    if b.cursor.line + 1 < b.lines.length then some { b with cursor := ⟨b.cursor.line + 1, 0⟩ }
    else some b
  else
    let col ← nextWordBoundary t l b.cursor.col
    some { b with cursor := ⟨b.cursor.line, col⟩ }

def setCursor (b : EditorBuffer) (pos : Position) (extend : Bool) : Option EditorBuffer := do
  let b := { b with stickyChars := none }.beginMove extend
  let pos ← b.clampPosition pos
  some { b with cursor := pos }

def selectAll (b : EditorBuffer) : Option EditorBuffer := do
  let stop ← b.docEnd
  some { b with stickyChars := none, anchor := some ⟨0, 0⟩, cursor := stop }

def classOf (t : CharTable) (c : Char) : Nat :=
  if isWhitespace c then 2 else if isWordChar t c then 0 else 1

/-- the column of the character at a position, or of the last one of the line -/
def wordCol (b : EditorBuffer) (pos : Position) (l : Line) : Option Nat :=
  if len l ≤ pos.col then b.prevCharCol pos.line (len l) else some pos.col

def selectWordAt (t : CharTable) (b : EditorBuffer) (pos : Position) : Option EditorBuffer := do
  let b := { b with stickyChars := none }
  let pos ← b.clampPosition pos
  let l ← b.lines[pos.line]?
  if l = [] then some { b with anchor := none, cursor := pos }
  else
    let col ← b.wordCol pos l
    let left ← sliceTo l col
    let right ← sliceFrom l col
    let run := fun c => classOf t c = classOf t (right.headD ' ')
    some { b with
      anchor := some ⟨pos.line, len (left.reverse.dropWhile run)⟩
      cursor := ⟨pos.line, col + len (right.takeWhile run)⟩ }

/-! ### editing -/

/-- one line of the vector is changed in place -/
def modifyLine (lines : List Line) (i : Nat) (f : Line → Option Line) : Option (List Line) := do
  let l ← lines[i]?
  let l ← f l
  some (lines.set i l)

/-- the first half of `raw_replace` -/
def removeRange (lines : List Line) (start stop : Position) : Option (Damage × List Line) :=
  if start = stop then some (.none, lines)
  else if start.line = stop.line then do
    let lines ← modifyLine lines start.line fun l => do
      let x ← sliceTo l start.col
      let y ← sliceFrom l stop.col
      if start.col ≤ stop.col then some (x ++ y) else none
    some (.line start.line, lines)
  else do
    let l ← lines[stop.line]?
    let tail ← sliceFrom l stop.col
    let lines ← modifyLine lines start.line fun l => (truncate l start.col).map (· ++ tail)
    if start.line ≤ stop.line ∧ stop.line < lines.length then
      some (.fromLine start.line, lines.take (start.line + 1) ++ lines.drop (stop.line + 1))
    else none

/-- the lines `parts` go in from line `i` on, one after the other -/
def insertLines : List Line → Nat → List Line → Option (List Line)
  | lines, _, [] => some lines
  | lines, i, p :: ps =>
    if i ≤ lines.length then insertLines (lines.insertIdx i p) (i + 1) ps else none

/-- the second half of `raw_replace` -/
def insertText (lines : List Line) (start : Position) (text : List Char) :
    Option (Damage × List Line) :=
  if text = [] then some (.none, lines)
  else if '\n' ∉ text then do
    let lines ← modifyLine lines start.line fun l => do
      let x ← sliceTo l start.col
      let y ← sliceFrom l start.col
      some (x ++ text ++ y)
    some (.line start.line, lines)
  else do
    let l ← lines[start.line]?
    let tail ← sliceFrom l start.col
    let lines ← modifyLine lines start.line fun l => truncate l start.col
    let parts := text.splitOn '\n'
    let lines ← modifyLine lines start.line fun l => some (l ++ parts.headD [])
    let lines ← insertLines lines (start.line + 1) parts.tail
    let lines ← modifyLine lines (start.line + parts.tail.length) fun l => some (l ++ tail)
    some (.fromLine start.line, lines)

def rawReplace (b : EditorBuffer) (start stop : Position) (text : List Char) :
    Option (Damage × EditorBuffer) := do
  let (removal, lines) ← removeRange b.lines start stop
  let (insertion, lines) ← insertText lines start text
  some (removal.merge insertion,
    { b with lines := lines, cursor := endOfText start text, anchor := none })

/-- the last record of the open group, with one more edit taken in -/
def coalesce (kind : GroupKind) (last record : EditRecord) : Option EditRecord :=
  match kind with
  | .typing =>
    if record.oldText = [] ∧ record.start = endOfText last.start last.newText then
      some { last with
        newText := last.newText ++ record.newText
        cursorAfter := record.cursorAfter }
    else none
  | .deleting =>
    if record.newText = [] ∧ endOfText record.start record.oldText = last.start then
      some { last with
        oldText := record.oldText ++ last.oldText
        start := record.start
        cursorAfter := record.cursorAfter }
    else if record.newText = [] ∧ record.start = last.start then
      some { last with
        oldText := last.oldText ++ record.oldText
        cursorAfter := record.cursorAfter }
    else none
  | .other => none

/-- the open group with the edit taken in, when it can be -/
def coalesced (b : EditorBuffer) (kind : GroupKind) (record : EditRecord) :
    Option (List UndoGroup) :=
  if b.groupOpen ∧ kind ≠ .other then
    match b.undos with
    | g :: rest =>
      if g.kind = kind then do
        let last ← g.records.getLast?
        let r ← coalesce kind last record
        some ({ g with records := g.records.dropLast ++ [r] } :: rest)
      else none
    | [] => none
  else none

def pushRecord (b : EditorBuffer) (kind : GroupKind) (record : EditRecord) : EditorBuffer :=
  match b.coalesced kind record with
  | some undos => { b with redos := [], undos := undos }
  | none =>
    { b with
      redos := []
      undos := ⟨b.nextGroupId, kind, [record]⟩ :: b.undos
      nextGroupId := b.nextGroupId + 1
      groupOpen := decide (kind ≠ .other) }

def recordReplace (b : EditorBuffer) (start stop : Position) (text : List Char) (kind : GroupKind) :
    Option (Damage × EditorBuffer) := do
  let oldText ← b.textRange start stop
  if oldText = [] ∧ text = [] then some (.none, b)
  else
    let record : EditRecord :=
      { start := start
        oldText := oldText
        newText := text
        cursorBefore := b.cursor
        anchorBefore := b.anchor
        cursorAfter := endOfText start text }
    let (damage, b) ← b.rawReplace start stop text
    some (damage, b.pushRecord kind record)

/-- `0` for a pristine buffer -/
def topGroupId (b : EditorBuffer) : UInt64 :=
  match b.undos with
  | g :: _ => g.id
  | [] => 0

def breakUndoGroup (b : EditorBuffer) : EditorBuffer := { b with groupOpen := false }

/-- the loops of `undo` and `redo`: at each start, the first text is replaced by the second -/
def replay (b : EditorBuffer) : List (Position × List Char × List Char) → Damage →
    Option (Damage × EditorBuffer)
  | [], damage => some (damage, b)
  | (start, old, new) :: rest, damage => do
    let (d, b) ← b.rawReplace start (endOfText start old) new
    replay b rest (damage.merge d)

def undo (b : EditorBuffer) : Option (Damage × EditorBuffer) :=
  let b := { b with stickyChars := none, groupOpen := false }
  match b.undos with
  | [] => some (.none, b)
  | g :: rest => do
    let (damage, b) ←
      { b with undos := rest }.replay
        (g.records.reverse.map fun r : EditRecord => (r.start, r.newText, r.oldText)) .none
    let first ← g.records.head?
    some (damage,
      { b with cursor := first.cursorBefore, anchor := first.anchorBefore, redos := g :: b.redos })

def redo (b : EditorBuffer) : Option (Damage × EditorBuffer) :=
  let b := { b with stickyChars := none, groupOpen := false }
  match b.redos with
  | [] => some (.none, b)
  | g :: rest => do
    let (damage, b) ←
      { b with redos := rest }.replay
        (g.records.map fun r : EditRecord => (r.start, r.oldText, r.newText)) .none
    let last ← g.records.getLast?
    some (damage, { b with cursor := last.cursorAfter, anchor := none, undos := g :: b.undos })

def deleteSelection (b : EditorBuffer) : Option (Damage × EditorBuffer) :=
  let b := { b with stickyChars := none }
  match b.selection with
  | some (start, stop) => b.recordReplace start stop [] .other
  | none => some (.none, b)

/-- `replace("\r\n", "\n")` -/
def replaceCrlf : List Char → List Char
  | '\r' :: '\n' :: s => '\n' :: replaceCrlf s
  | c :: s => c :: replaceCrlf s
  | [] => []

/-- `\r\n` and `\r` become `\n` -/
def normalize (text : List Char) : List Char :=
  if '\r' ∈ text then (replaceCrlf text).map fun c => if c = '\r' then '\n' else c else text

def insertWithKind (b : EditorBuffer) (text : List Char) (kind : GroupKind) :
    Option (Damage × EditorBuffer) :=
  let b := { b with stickyChars := none }
  let (start, stop) := b.selection.getD (b.cursor, b.cursor)
  b.recordReplace start stop (normalize text) kind

def insertStr (b : EditorBuffer) (text : List Char) : Option (Damage × EditorBuffer) :=
  b.insertWithKind text .other

def insertTyped (b : EditorBuffer) (text : List Char) : Option (Damage × EditorBuffer) :=
  b.insertWithKind text .typing

def insertChar (b : EditorBuffer) (c : Char) : Option (Damage × EditorBuffer) := b.insertTyped [c]

def insertNewline (b : EditorBuffer) : Option (Damage × EditorBuffer) := b.insertStr ['\n']

def insertNewlineAutoIndent (b : EditorBuffer) : Option (Damage × EditorBuffer) := do
  let start := (b.selection.map Prod.fst).getD b.cursor
  let l ← b.lines[start.line]?
  let indent ← sliceTo l (min (indentEnd l) start.col)
  b.insertWithKind ('\n' :: indent) .other

def backspace (t : CharTable) (b : EditorBuffer) (word : Bool) : Option (Damage × EditorBuffer) :=
  let b := { b with stickyChars := none }
  if b.selection.isSome then b.deleteSelection
  else
    let ⟨line, col⟩ := b.cursor
    if col = 0 then
      if line = 0 then some (.none, b)
      else do
        let l ← b.lines[line - 1]?
        b.recordReplace ⟨line - 1, len l⟩ b.cursor [] .other
    else if word then do
      let l ← b.lines[line]?
      let start ← prevWordBoundary t l col
      b.recordReplace ⟨line, start⟩ b.cursor [] .other
    else do
      let start ← b.prevCharCol line col
      b.recordReplace ⟨line, start⟩ b.cursor [] .deleting

def deleteForward (t : CharTable) (b : EditorBuffer) (word : Bool) : Option (Damage × EditorBuffer) :=
  let b := { b with stickyChars := none }
  if b.selection.isSome then b.deleteSelection
  else do
    let ⟨line, col⟩ := b.cursor
    let l ← b.lines[line]?
    if len l ≤ col then
      if b.lines.length ≤ line + 1 then some (.none, b)
      else b.recordReplace b.cursor ⟨line + 1, 0⟩ [] .other
    else if word then
      let stop ← nextWordBoundary t l col
      b.recordReplace b.cursor ⟨line, stop⟩ [] .other
    else
      let stop ← b.nextCharCol line col
      b.recordReplace b.cursor ⟨line, stop⟩ [] .deleting

/-- the lines a line-wise command acts on, the last included -/
def lineSpan (b : EditorBuffer) : Nat × Nat :=
  match b.selection with
  | none => (b.cursor.line, b.cursor.line)
  | some (start, stop) =>
    (start.line, if stop.col = 0 ∧ start.line < stop.line then stop.line - 1 else stop.line)

def floorBoundary (b : EditorBuffer) (line col : Nat) : Option Nat :=
  b.lines[line]?.map fun l => snapDown l (min col (len l))

def setLastCursorAfter (b : EditorBuffer) (pos : Position) : EditorBuffer :=
  match b.undos with
  | g :: rest =>
    match g.records.getLast? with
    | some r =>
      { b with undos := { g with records := g.records.dropLast ++ [{ r with cursorAfter := pos }] } :: rest }
    | none => b
  | [] => b

/-- the cursor and the anchor that `rewrite_lines` leaves in `c`, where the lines are the new ones -/
def rewrittenCursor (b c : EditorBuffer) (first last : Nat) (cursorDelta : Int) :
    Option (Position × Option Position) :=
  if b.selection.isSome then do
    let l ← c.lines[last]?
    some (⟨last, len l⟩, some ⟨first, 0⟩)
  else do
    let l ← c.lines[b.cursor.line]?
    let col := (max 0 (min (b.cursor.col + cursorDelta) (len l))).toNat
    let col ← c.floorBoundary b.cursor.line col
    some (⟨b.cursor.line, col⟩, none)

def rewriteLines (b : EditorBuffer) (first last : Nat) (newLines : List Line) (cursorDelta : Int) :
    Option (Damage × EditorBuffer) := do
  let old ← (List.range newLines.length).mapM fun k => b.lines[first + k]?
  if newLines = old then some (.none, b)
  else
    let l ← b.lines[last]?
    let (damage, c) ← b.recordReplace ⟨first, 0⟩ ⟨last, len l⟩ (['\n'].intercalate newLines) .other
    let (cursor, anchor) ← b.rewrittenCursor c first last cursorDelta
    some (damage,
      { { c with cursor := cursor, anchor := anchor }.setLastCursorAfter cursor with stickyChars := none })

/-- a line-wise command: each line of the span with its new text and how far that moves the
cursor, and the shift of the cursor's own line -/
def rewriteSpan (b : EditorBuffer) (f : Nat → Line → Option (Line × Int)) :
    Option (Damage × EditorBuffer) := do
  let (first, last) := b.lineSpan
  let rewritten ← (List.range' first (last + 1 - first)).mapM fun i => do
    let l ← b.lines[i]?
    let x ← f i l
    some (i, x)
  let cursorDelta := ((rewritten.find? fun x => x.1 = b.cursor.line).map fun x => x.2.2).getD 0
  b.rewriteLines first last (rewritten.map fun x => x.2.1) cursorDelta

def indent (b : EditorBuffer) : Option (Damage × EditorBuffer) :=
  if b.selection.isNone then do
    let v ← b.visualCol b.cursor
    b.insertTyped (List.replicate (tabSpaces - v % tabSpaces) ' ')
  else
    b.rewriteSpan fun _ l =>
      some (if l = [] then [] else List.replicate tabSpaces ' ' ++ l, 0)

def outdent (b : EditorBuffer) : Option (Damage × EditorBuffer) :=
  b.rewriteSpan fun _ l => do
    let rest ← sliceFrom l (outdentWidth l)
    some (rest, -(outdentWidth l : Int))

/-- `trim().is_empty()` -/
def isBlank (l : Line) : Bool := l.all isWhitespace

/-- `trim_start` -/
def trimStart (l : Line) : Line := l.dropWhile isWhitespace

/-- a commented line without its marker and the space after it -/
def uncommented (marker : List Char) (l : Line) : Option (Line × Int) := do
  let start := indentEnd l
  let head ← sliceTo l start
  let rest ← sliceFrom l (start + len marker)
  let rest := if rest.head? = some ' ' then rest.tail else rest
  some (head ++ rest, -((len l : Int) - start - len rest))

def toggleLineComment (b : EditorBuffer) (marker : List Char) : Option (Damage × EditorBuffer) := do
  let (first, last) := b.lineSpan
  let span ← (List.range' first (last + 1 - first)).mapM fun i => b.lines[i]?
  let nonBlank := span.filter fun l => !isBlank l
  match (nonBlank.map indentEnd).min? with
  | none => some (.none, b)
  | some column =>
    let uncomment := nonBlank.all fun l => marker.isPrefixOf (trimStart l)
    b.rewriteSpan fun i l =>
      if isBlank l then some (l, 0)
      else if uncomment then uncommented marker l
      else do
        let k ← b.floorBoundary i column
        let head ← sliceTo l k
        let rest ← sliceFrom l k
        some (head ++ marker ++ ' ' :: rest, (len marker : Int) + 1)

end EditorBuffer

/-! ## the public operations -/

inductive Op
  | insertStr (text : List Char)
  | insertTyped (text : List Char)
  | insertChar (c : Char)
  | insertNewline
  | insertNewlineAutoIndent
  | backspace (word : Bool)
  | deleteForward (word : Bool)
  | deleteSelection
  | indent
  | outdent
  | toggleLineComment (marker : List Char)
  | moveLeft (extend : Bool)
  | moveRight (extend : Bool)
  | moveUp (extend : Bool)
  | moveDown (extend : Bool)
  | movePage (deltaLines : Int) (extend : Bool)
  | moveHome (extend : Bool)
  | moveEnd (extend : Bool)
  | moveDocStart (extend : Bool)
  | moveDocEnd (extend : Bool)
  | moveWordLeft (extend : Bool)
  | moveWordRight (extend : Bool)
  | setCursor (pos : Position) (extend : Bool)
  | selectAll
  | selectWordAt (pos : Position)
  | breakUndoGroup
  | undo
  | redo
  deriving DecidableEq, Repr

/-- the buffer after an operation; `none` when it panics -/
def Op.run (t : CharTable) (b : EditorBuffer) : Op → Option EditorBuffer
  | .insertStr text => (b.insertStr text).map Prod.snd
  | .insertTyped text => (b.insertTyped text).map Prod.snd
  | .insertChar c => (b.insertChar c).map Prod.snd
  | .insertNewline => b.insertNewline.map Prod.snd
  | .insertNewlineAutoIndent => b.insertNewlineAutoIndent.map Prod.snd
  | .backspace word => (b.backspace t word).map Prod.snd
  | .deleteForward word => (b.deleteForward t word).map Prod.snd
  | .deleteSelection => b.deleteSelection.map Prod.snd
  | .indent => b.indent.map Prod.snd
  | .outdent => b.outdent.map Prod.snd
  | .toggleLineComment marker => (b.toggleLineComment marker).map Prod.snd
  | .moveLeft extend => b.moveLeft extend
  | .moveRight extend => b.moveRight extend
  | .moveUp extend => b.moveUp extend
  | .moveDown extend => b.moveDown extend
  | .movePage deltaLines extend => b.movePage deltaLines extend
  | .moveHome extend => b.moveHome extend
  | .moveEnd extend => b.moveEnd extend
  | .moveDocStart extend => b.moveDocStart extend
  | .moveDocEnd extend => b.moveDocEnd extend
  | .moveWordLeft extend => b.moveWordLeft t extend
  | .moveWordRight extend => b.moveWordRight t extend
  | .setCursor pos extend => b.setCursor pos extend
  | .selectAll => b.selectAll
  | .selectWordAt pos => b.selectWordAt t pos
  | .breakUndoGroup => some b.breakUndoGroup
  | .undo => b.undo.map Prod.snd
  | .redo => b.redo.map Prod.snd

end TerminalManager.Editor
