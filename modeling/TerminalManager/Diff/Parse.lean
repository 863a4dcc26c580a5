import TerminalManager.Editor.Buffer

/-!
# The unified-diff parser

`src/diff/parse.rs`: the output of `git diff` becomes a flat document, a text line and a decoration
for each row, and a list of files that point into the rows.

* `DiffDocument`               what the parser returns;
* `Builder`                    the document under construction and its row budget;
* `fileStart`, `bodyRow`, `headerLine`, `parseHunkHeader`   what one line says;
* `Parser.step`                the state machine over the lines (`Mode`);
* `parseUnifiedDiffWithCap`.

`u32` numbers are natural numbers, with the places that saturate or wrap written out.
-/

namespace TerminalManager.Diff
open Editor (Line len isWhitespace rsplitOnce)

def u32Max : Nat := 4294967295

/-- `as u32` -/
def asU32 (n : Nat) : Nat := n % (u32Max + 1)

/-- `saturating_add(1)` -/
def satSucc (n : Nat) : Nat := min (n + 1) u32Max

/-! ## strings -/

def stripPrefix : Line → Line → Option Line
  | [], l => some l
  | _ :: _, [] => none
  | c :: p, d :: l => if c = d then stripPrefix p l else none

def startsWith (p l : Line) : Bool := (stripPrefix p l).isSome

/-- `strip_suffix(c)` -/
def stripSuffix (c : Char) (l : Line) : Option Line :=
  if l.getLast? = some c then some l.dropLast else none

/-- the text before the first occurrence of a nonempty pattern -/
def untilFirst (p : Line) : Line → Option Line
  | [] => none
  | c :: l => if startsWith p (c :: l) then some [] else (untilFirst p l).map (c :: ·)

/-- the text before the last occurrence of a nonempty pattern, and from it on -/
def atLast (p : Line) : Line → Option (Line × Line)
  | [] => none
  | c :: l =>
    match atLast p l with
    | some (x, y) => some (c :: x, y)
    | none => if startsWith p (c :: l) then some ([], c :: l) else none

def splitOnce (c : Char) : Line → Option (Line × Line)
  | [] => none
  | d :: l => if d = c then some ([], l) else (splitOnce c l).map fun x => (d :: x.1, x.2)

/-- `str::lines` -/
def strLines (input : List Char) : List Line :=
  let segments := input.splitOn '\n'
  segments.dropLast.map (fun l => (stripSuffix '\r' l).getD l) ++
    segments.getLast?.toList.filter (· ≠ [])

def splitWhitespace (l : Line) : List Line := (l.splitOnP isWhitespace).filter (· ≠ [])

def parseDigits (n : Nat) : Line → Option Nat
  | [] => some n
  | c :: l =>
    if c.isDigit && n * 10 + (c.toNat - 48) ≤ u32Max then parseDigits (n * 10 + (c.toNat - 48)) l
    else none

/-- `u32::from_str` -/
def parseU32 (l : Line) : Option Nat :=
  let digits := (stripPrefix ['+'] l).getD l
  if digits = [] then none else parseDigits 0 digits

/-! ## the document -/

inductive DiffRowKind
  | fileHeader
  | hunkHeader
  | context
  | added
  | removed
  | note
  | spacer
  deriving DecidableEq, Repr

def DiffRowKind.isContent : DiffRowKind → Bool
  | .context | .added | .removed => true
  | _ => false

inductive DiffFileStatus
  | added
  | deleted
  | modified
  | renamed
  | binary
  deriving DecidableEq, Repr

def DiffFileStatus.letter : DiffFileStatus → Char
  | .added => 'A'
  | .deleted => 'D'
  | .modified => 'M'
  | .renamed => 'R'
  | .binary => 'B'

structure DiffRowInfo where
  kind : DiffRowKind
  file : Nat
  oldNo : Option Nat
  newNo : Option Nat
  deriving DecidableEq, Repr

structure DiffFileInfo where
  path : Line
  oldPath : Option Line
  status : DiffFileStatus
  firstRow : Nat
  hunkRows : List Nat
  deriving DecidableEq, Repr

structure DiffDocument where
  lines : List Line
  rows : List DiffRowInfo
  files : List DiffFileInfo
  truncated : Bool
  deriving DecidableEq, Repr

/-- `MAX_DIFF_ROWS` -/
def maxDiffRows : Nat := 200000

/-- `MAX_LINE_CHARS` -/
def maxLineChars : Nat := 4096

def clampSuffix : Line := " …".toList
def truncationNotice : Line := "… diff truncated: too many rows to display".toList
def combinedNotice : Line := "combined diff (merge commit) is not shown".toList
def binaryNotice : Line := "Binary files differ".toList

def clampLine (text : Line) : Line :=
  if len text ≤ maxLineChars then text
  else if maxLineChars < text.length then text.take maxLineChars ++ clampSuffix
  else text

/-! ## paths -/

def octal (b : UInt8) : Bool := 48 ≤ b && b ≤ 55

/-- the escapes of one letter -/
def escapeByte (b : UInt8) : Option UInt8 :=
  if b = 34 then some 34            -- double quote
  else if b = 92 then some 92       -- backslash
  else if b = 110 then some 10      -- n
  else if b = 116 then some 9       -- t
  else if b = 114 then some 13      -- r
  else if b = 97 then some 7        -- a
  else if b = 98 then some 8        -- b
  else if b = 102 then some 12      -- f
  else if b = 118 then some 11      -- v
  else none

def octalByte (x y z : UInt8) : Option UInt8 :=
  let value := ((x.toNat - 48) * 8 + (y.toNat - 48)) * 8 + (z.toNat - 48)
  if octal x && octal y && octal z && value ≤ 255 then some value.toUInt8 else none

/-- the bytes that a C-quoted body stands for -/
def unescape : List UInt8 → Option (List UInt8)
  | [] => some []
  | b :: l =>
    if b ≠ 92 then (unescape l).map (b :: ·)
    else
      match l with
      | [] => none
      | e :: l' =>
        if octal e then
          match l' with
          | y :: z :: l'' =>
            match octalByte e y z with
            | some v => (unescape l'').map (v :: ·)
            | none => none
          | _ => none
        else
          match escapeByte e with
          | some v => (unescape l').map (v :: ·)
          | none => none

def decodeCQuoted (body : Line) : Option Line := do
  let bytes ← unescape (body.flatMap String.utf8EncodeChar)
  let text ← String.fromUTF8? ⟨bytes.toArray⟩
  some text.toList

/-- the text between two quotes -/
def quoted (raw : Line) : Option Line := do
  let rest ← stripPrefix ['"'] raw
  stripSuffix '"' rest

/-- a path that cannot be decoded, or that would break the line, is kept as it is -/
def unquotePath (raw : Line) : Line :=
  match (quoted raw).bind decodeCQuoted with
  | some decoded => if '\n' ∈ decoded ∨ '\r' ∈ decoded then raw else decoded
  | none => raw

def stripSidePrefix : Line → Line
  | c :: '/' :: d :: path =>
    if c ∈ ['a', 'b', 'i', 'w', 'c', 'o'] then d :: path else c :: '/' :: d :: path
  | path => path

/-- one operand of `---` or `+++`; `none` for `/dev/null` -/
def pathSide (rest : Line) : Option Line :=
  let rest := rest.takeWhile (· ≠ '\t')
  if rest = "/dev/null".toList then none else some (stripSidePrefix (unquotePath rest))

/-- the two halves around the space in the middle, when they name the same path -/
def splitMiddle (rest : Line) : Option (Line × Line) :=
  if len rest % 2 = 1 then
    match Lines.cut Char.utf8Size rest (len rest / 2) with
    | some (x, ' ' :: y) =>
      let old := stripSidePrefix (unquotePath x)
      let new := stripSidePrefix (unquotePath y)
      if old = new then some (old, new) else none
    | _ => none
  else none

def splitGitPaths (rest : Line) : Option Line × Option Line :=
  match splitMiddle rest with
  | some (old, new) => (some old, some new)
  | none =>
    match atLast " b/".toList rest with
    | some (old, new) =>
      (some (stripSidePrefix (unquotePath old)), some (stripSidePrefix (unquotePath new.tail)))
    | none =>
      match rsplitOnce ' ' rest with
      | some (old, new) =>
        (some (stripSidePrefix (unquotePath old)), some (stripSidePrefix (unquotePath new)))
      | none => (none, some (stripSidePrefix (unquotePath rest)))

/-! ## hunk headers -/

def parseRange (text : Line) : Option (Nat × Nat) :=
  match splitOnce ',' text with
  | some (start, count) => do
    let start ← parseU32 start
    let count ← parseU32 count
    some (start, count)
  | none => (parseU32 text).map fun start => (start, 1)

def parseHunkHeader (line : Line) : Option (Nat × Nat × Nat × Nat) := do
  let rest ← stripPrefix "@@ ".toList line
  let inner ← untilFirst " @@".toList rest
  match splitWhitespace inner with
  | old :: new :: _ =>
    let (oldStart, oldCount) ← (stripPrefix ['-'] old).bind parseRange
    let (newStart, newCount) ← (stripPrefix ['+'] new).bind parseRange
    some (oldStart, oldCount, newStart, newCount)
  | _ => none

/-! ## one file section -/

/-- what is known of the file section being read -/
structure FileCtx where
  index : Nat
  gitOld : Option Line
  gitNew : Option Line
  /-- the `---` operand: `some none` for `/dev/null` -/
  minus : Option (Option Line)
  /-- the `+++` operand: `some none` for `/dev/null` -/
  plus : Option (Option Line)
  renameFrom : Option Line
  renameTo : Option Line
  isRename : Bool
  isNew : Bool
  isDeleted : Bool
  isBinary : Bool
  combined : Bool
  oldNo : Nat
  newNo : Nat
  deriving DecidableEq, Repr

inductive Mode
  | outside
  | header
  | hunk (oldRem newRem : Nat)
  | skip
  deriving DecidableEq, Repr

inductive FileStart
  | git (rest : Line)
  | combined (rest : Line)
  deriving DecidableEq, Repr

def fileStart (line : Line) : Option FileStart :=
  match stripPrefix "diff --git ".toList line with
  | some rest => some (.git rest)
  | none =>
    match stripPrefix "diff --cc ".toList line with
    | some rest => some (.combined rest)
    | none =>
      match stripPrefix "diff --combined ".toList line with
      | some rest => some (.combined rest)
      | none => none

def bodyRow : Line → Option (DiffRowKind × Line)
  | [] => some (.context, [])
  | ' ' :: text => some (.context, text)
  | '+' :: text => some (.added, text)
  | '-' :: text => some (.removed, text)
  | _ => none

/-- the status of a finished section: binary wins, then a rename -/
def FileCtx.status (ctx : FileCtx) : DiffFileStatus :=
  if ctx.isBinary then .binary
  else if ctx.isRename then .renamed
  else if ctx.isNew || ctx.minus = some none then .added
  else if ctx.isDeleted || ctx.plus = some none then .deleted
  else .modified

/-- the old path of a finished section, from the first source that names one -/
def FileCtx.oldSide (ctx : FileCtx) : Option Line := (ctx.minus.join.or ctx.renameFrom).or ctx.gitOld

def FileCtx.newSide (ctx : FileCtx) : Option Line := (ctx.plus.join.or ctx.renameTo).or ctx.gitNew

/-- the path to open -/
def FileCtx.path (ctx : FileCtx) : Line :=
  (match ctx.status with
    | .deleted => ctx.oldSide.or ctx.newSide
    | _ => ctx.newSide.or ctx.oldSide).getD []

def FileCtx.oldPath (ctx : FileCtx) : Option Line := ctx.oldSide.filter (· ≠ ctx.path)

/-- the text of the header row -/
def FileCtx.title (ctx : FileCtx) : Line :=
  match ctx.oldPath, ctx.status with
  | some old, .renamed => "R ".toList ++ old ++ " -> ".toList ++ ctx.path
  | _, status => status.letter :: ' ' :: ctx.path

/-! ## the builder -/

structure Builder where
  cap : Nat
  lines : List Line
  rows : List DiffRowInfo
  files : List DiffFileInfo
  truncated : Bool
  deriving DecidableEq, Repr

def Builder.new (cap : Nat) : Builder := ⟨cap, [], [], [], false⟩

/-- a line and its decoration, whatever the budget -/
def Builder.append (b : Builder) (row : DiffRowInfo) (text : Line) : Builder :=
  { b with lines := b.lines ++ [text], rows := b.rows ++ [row] }

/-- `files.len() as u32 - 1`, in a build without overflow checks -/
def lastFile (n : Nat) : Nat := asU32 (asU32 n + u32Max)

def Builder.markTruncated (b : Builder) (file : Nat) : Builder :=
  if b.truncated then b
  else
    let b := { b with truncated := true }
    if b.files = [] then b
    else if b.lines.length < b.cap then
      b.append ⟨.note, min file (lastFile b.files.length), none, none⟩ truncationNotice
    else b

/-- the row is pushed when the budget leaves room for the notice after it -/
def Builder.push (b : Builder) (row : DiffRowInfo) (text : Line) : Builder × Bool :=
  if b.truncated then (b, false)
  else if b.cap ≤ b.lines.length + 1 then (b.markTruncated row.file, false)
  else (b.append row (clampLine text), true)

/-- the spacer before every file but the first -/
def Builder.pushSpacer (b : Builder) (index : Nat) : Builder × Bool :=
  if b.rows = [] then (b, true) else b.push ⟨.spacer, index - 1, none, none⟩ []

/-- the context a section starts with -/
def FileStart.ctx (start : FileStart) (index : Nat) : FileCtx :=
  match start with
  | .git rest =>
    ⟨index, (splitGitPaths rest).1, (splitGitPaths rest).2, none, none, none, none,
      false, false, false, false, false, 1, 1⟩
  | .combined rest =>
    ⟨index, none, some (unquotePath rest), none, none, none, none,
      false, false, false, false, true, 1, 1⟩

def Builder.beginFile (b : Builder) (start : FileStart) : Builder × Option FileCtx :=
  let index := asU32 b.files.length
  match b.pushSpacer index with
  | (b, false) => (b, none)
  | (b, true) =>
    let firstRow := b.lines.length
    match b.push ⟨.fileHeader, index, none, none⟩ [] with
    | (b, false) => (b, none)
    | (b, true) =>
      ({ b with files := b.files ++ [⟨[], none, .modified, firstRow, []⟩] }, some (start.ctx index))

/-- the identity of a finished section, written into its file and its header row -/
def Builder.finishFile (b : Builder) : Option FileCtx → Builder
  | none => b
  | some ctx =>
    match b.files[ctx.index]? with
    | none => b
    | some info =>
      { b with
        files := b.files.set ctx.index
          { info with path := ctx.path, oldPath := ctx.oldPath, status := ctx.status }
        lines := b.lines.set info.firstRow (clampLine ctx.title) }

def Builder.intoDocument (b : Builder) : DiffDocument := ⟨b.lines, b.rows, b.files, b.truncated⟩

/-! ## the state machine -/

structure Parser where
  doc : Builder
  cur : Option FileCtx
  mode : Mode
  deriving DecidableEq, Repr

/-- a line of the extended header -/
def headerLine (doc : Builder) (ctx : FileCtx) (mode : Mode) (line : Line) : Parser :=
  match stripPrefix "--- ".toList line with
  | some rest => ⟨doc, some { ctx with minus := some (pathSide rest) }, mode⟩
  | none =>
  match stripPrefix "+++ ".toList line with
  | some rest => ⟨doc, some { ctx with plus := some (pathSide rest) }, mode⟩
  | none =>
  match stripPrefix "rename from ".toList line with
  | some rest => ⟨doc, some { ctx with isRename := true, renameFrom := some (unquotePath rest) }, mode⟩
  | none =>
  match stripPrefix "rename to ".toList line with
  | some rest => ⟨doc, some { ctx with isRename := true, renameTo := some (unquotePath rest) }, mode⟩
  | none =>
  if startsWith "new file mode ".toList line then ⟨doc, some { ctx with isNew := true }, mode⟩
  else if startsWith "deleted file mode ".toList line then ⟨doc, some { ctx with isDeleted := true }, mode⟩
  else if startsWith "Binary files ".toList line || startsWith "Files ".toList line then
    ⟨(doc.push ⟨.note, ctx.index, none, none⟩ binaryNotice).1, some { ctx with isBinary := true }, mode⟩
  else if startsWith "GIT binary patch".toList line then
    ⟨(doc.push ⟨.note, ctx.index, none, none⟩ binaryNotice).1, some { ctx with isBinary := true }, .skip⟩
  else ⟨doc, some ctx, mode⟩

/-- the header row of a hunk, recorded in its file when it was pushed -/
def pushHunk (doc : Builder) (ctx : FileCtx) (line : Line) : Builder :=
  let row := doc.lines.length
  match doc.push ⟨.hunkHeader, ctx.index, none, none⟩ line with
  | (doc, true) =>
    { doc with files := doc.files.modify ctx.index fun info =>
        { info with hunkRows := info.hunkRows ++ [row] } }
  | (doc, false) => doc

/-- a line outside of a hunk's body -/
def headLine (doc : Builder) (ctx : FileCtx) (mode : Mode) (line : Line) : Parser :=
  if startsWith "@@".toList line then
    if ctx.combined || startsWith "@@@".toList line then
      ⟨(doc.push ⟨.note, ctx.index, none, none⟩ combinedNotice).1, some ctx, .skip⟩
    else
      match parseHunkHeader line with
      | some (oldStart, oldCount, newStart, newCount) =>
        ⟨pushHunk doc ctx line, some { ctx with oldNo := oldStart, newNo := newStart },
          .hunk oldCount newCount⟩
      | none => ⟨doc, some ctx, mode⟩
  else headerLine doc ctx mode line

/-- a content row, the counters moved past it -/
def contentRow (doc : Builder) (ctx : FileCtx) (oldRem newRem : Nat) (kind : DiffRowKind) (text : Line) :
    Parser :=
  match kind with
  | .context =>
    ⟨(doc.push ⟨kind, ctx.index, some ctx.oldNo, some ctx.newNo⟩ text).1,
      some { ctx with oldNo := satSucc ctx.oldNo, newNo := satSucc ctx.newNo },
      .hunk (oldRem - 1) (newRem - 1)⟩
  | .added =>
    ⟨(doc.push ⟨kind, ctx.index, none, some ctx.newNo⟩ text).1,
      some { ctx with newNo := satSucc ctx.newNo }, .hunk oldRem (newRem - 1)⟩
  | _ =>
    ⟨(doc.push ⟨kind, ctx.index, some ctx.oldNo, none⟩ text).1,
      some { ctx with oldNo := satSucc ctx.oldNo }, .hunk (oldRem - 1) newRem⟩

/-- a line of a hunk's body; `none` when the body ends before it -/
def bodyLine (doc : Builder) (ctx : FileCtx) (oldRem newRem : Nat) (line : Line) : Option Parser :=
  if startsWith ['\\'] line then
    some ⟨(doc.push ⟨.note, ctx.index, none, none⟩ line).1, some ctx, .hunk oldRem newRem⟩
  else if 0 < oldRem ∨ 0 < newRem then
    match bodyRow line with
    | some (kind, text) => some (contentRow doc ctx oldRem newRem kind text)
    | none => none
  else none

/-- a line inside of a file section -/
def sectionLine (doc : Builder) (ctx : FileCtx) (mode : Mode) (line : Line) : Parser :=
  match mode with
  | .skip => ⟨doc, some ctx, .skip⟩
  | .hunk oldRem newRem =>
    (bodyLine doc ctx oldRem newRem line).getD (headLine doc ctx .header line)
  | mode => headLine doc ctx mode line

/-- one line; the flag says whether the loop goes on -/
def Parser.step (s : Parser) (line : Line) : Parser × Bool :=
  match fileStart line with
  | some start =>
    match (s.doc.finishFile s.cur).beginFile start with
    | (doc, some ctx) => (⟨doc, some ctx, .header⟩, true)
    | (doc, none) => (⟨doc, none, s.mode⟩, false)
  | none =>
    match s.cur with
    | none => (s, true)
    | some ctx => (sectionLine s.doc ctx s.mode line, true)

/-- the loop over the lines, each without its last carriage return -/
def Parser.run (s : Parser) : List Line → Parser
  | [] => s
  | raw :: rest =>
    if s.doc.truncated then s
    else
      match s.step ((stripSuffix '\r' raw).getD raw) with
      | (s, true) => s.run rest
      | (s, false) => s

def parseUnifiedDiffWithCap (input : List Char) (cap : Nat) : DiffDocument :=
  let s := Parser.run ⟨.new cap, none, .outside⟩ (strLines input)
  (s.doc.finishFile s.cur).intoDocument

def parseUnifiedDiff (input : List Char) : DiffDocument := parseUnifiedDiffWithCap input maxDiffRows

end TerminalManager.Diff
