import TerminalManager.DiffReview.Patch
import Mathlib.Data.Finset.Basic

/-!
# The diff review

A review asks for a range or for a file of it; the one worker answers.  What it has to load next stands in a queue of
one place, and a later request replaces it.

* `Review`                       the open review;
* `State`                        with the queue, the worker and the counter of requests;
* `submit`, `refresh`            a request;
* `dispatch`, `openPatchFile`, `acceptDrop`   what the user does;
* `load`, `apply`                what the worker does;
* `step`                         one event.

The counter is a `u64` of the process: it is a number without bound here.
-/

namespace TerminalManager.DiffReview
open Editor (Line)
open Diff (startsWith)
open Keybinds (trim)

/-- a shared value: two pointers are the same when they point to one address -/
structure Arc (α : Type) where
  addr : Nat
  value : α

inductive Mode
  | last | unpushed | base | branches | patch
deriving DecidableEq, Repr

def pageLines : Nat := 200
def pageFiles : Nat := 100

/-- `review.root` and the other paths are in `π` -/
structure Review (π : Type) where
  root : π
  mode : Mode
  patchPath : Option π
  count : Line
  baseRef : Line
  fromRef : Line
  toRef : Line
  request : Nat
  loading : Bool
  error : Option String
  report : Option (Arc (Report π))
  lines : List PatchLine
  splitRows : List Split.Row
  sideBySide : Bool
  selected : Nat
  rowStart : Nat
  hunks : List Hunk
  activeHunk : Option Nat
  filePage : Nat
  fileFilter : Line
  /-- inputs own their live buffer; only explicit Clear remounts the input -/
  fileFilterReset : Nat
  fileMatches : List Nat
  /-- file indices of the current range -/
  viewed : Finset Nat

inductive Query (π : Type)
  | range (root : π) (range : Range)
  | patchFile (path : π)
  | file (report : Arc (Report π)) (index : Nat)

structure Job (π : Type) where
  id : Nat
  query : Query π

/-- what the worker found -/
structure Loaded (π : Type) where
  id : Nat
  report : Except String (Arc (Report π))
  lines : Option (Except String LoadedPatch)

inductive Worker (π : Type)
  | waiting
  | took (job : Job π)
  | loaded (result : Loaded π)

structure State (π : Type) where
  /-- `None` until the worker is started; then what it has to load next -/
  queue : Option (Option (Job π))
  worker : Worker π
  /-- `NEXT` -/
  next : Nat
  /-- the next address to be allocated -/
  addr : Nat
  review : Option (Review π)

def State.init (π : Type) : State π := ⟨none, .waiting, 1, 0, none⟩

/-- what `metadata` and the bytes of an opened file are, each of which can fail -/
structure OpenedFile where
  isFile : Except String Bool
  bytes : Except String (List UInt8)

/-- what the program asks of its host; what it reads of the disk depends on the time, in `τ` -/
structure Host (τ π : Type) where
  /-- `str::to_lowercase` -/
  lowercase : Line → Line
  pathFrom : Line → π
  /-- `Path::extension`, when it is Unicode -/
  extension : π → Option Line
  /-- `git::load`: a report of a Git range has no patches -/
  gitLoad : τ → π → Range → Except String (π × Line × Line × Line × List File)
  /-- `git diff` between the ends of the report, of one file -/
  gitDiff : τ → Report π → File → Except String Line
  openFile : τ → π → Except String OpenedFile

section
variable {τ π : Type} (host : Host τ π)

/-! ## the open review -/

namespace Review

def new (root : π) : Review π where
  root := root
  mode := .last
  patchPath := none
  count := ['1']
  baseRef := []
  fromRef := []
  toRef := "HEAD".toList
  request := 0
  loading := false
  error := none
  report := none
  lines := []
  splitRows := []
  sideBySide := false
  selected := 0
  rowStart := 0
  hunks := []
  activeHunk := none
  filePage := 0
  fileFilter := []
  fileFilterReset := 0
  fileMatches := []
  viewed := ∅

variable (r : Review π)

def rowCount : Nat := if r.sideBySide then r.splitRows.length else r.lines.length

def hunkRow (index : Nat) : Nat :=
  match r.hunks[index]? with
  | some hunk => if r.sideBySide then hunk.splitRow else hunk.unifiedRow
  | none => 0

/-- the hunk that a move goes to -/
def hunkTarget (forward : Bool) : Option Nat :=
  if r.loading then
    none
  else
    match r.activeHunk with
    | some index =>
      if forward then
        if index + 1 < r.hunks.length then some (index + 1) else none
      else
        if index = 0 then none else some (index - 1)
    | none =>
      if forward then
        (List.range r.hunks.length).find? fun index => r.hunkRow index ≥ r.rowStart
      else
        (List.range r.hunks.length).reverse.find? fun index => r.hunkRow index < r.rowStart

def clearPatch : Review π :=
  { r with lines := [], splitRows := [], hunks := [], activeHunk := none, rowStart := 0 }

/-- a path as it is searched -/
def normalized (path : Line) : Line := host.lowercase (path.map fun c => if c = '\\' then '/' else c)

/-- `str::contains` -/
def contains (needle : Line) (path : Line) : Bool := path.tails.any (startsWith needle)

def fileMatchesOf (filter : Line) (report : Report π) : List Nat :=
  let needle := normalized host (trim filter)
  let isMatch (path : Line) : Bool := contains needle (normalized host path)
  (List.range report.files.length).filter fun index =>
    report.files[index]?.any fun file => needle.isEmpty || isMatch file.path || file.oldPath.any isMatch

def rebuildFileMatches : Review π :=
  { r with
    fileMatches := (r.report.map fun report => fileMatchesOf host r.fileFilter report.value).getD []
    filePage := 0 }

def setFileFilter (query : Line) : Review π := { r with fileFilter := query.take 256 }.rebuildFileMatches host

end Review

/-! ## a request -/

/-- the next request, of the review: nothing of the patch before it is left -/
def submit (s : State π) (r : Review π) (query : Query π) : State π × Review π :=
  let r := { r with request := s.next }.clearPatch
  match s.queue with
  | none =>
    ({ s with next := s.next + 1 },
      { r with loading := false, error := some "Git review worker is not available." })
  | some _ =>
    ({ s with next := s.next + 1, queue := some (some ⟨s.next, query⟩) }, { r with loading := true, error := none })

/-- the range that the fields ask for, `none` when the count is not one to ask for -/
def rangeOf (r : Review π) : Option Range :=
  match r.mode with
  | .unpushed => some .unpushed
  | .base => some (.base r.baseRef)
  | .branches => some (.branches r.fromRef r.toRef)
  | .last | .patch =>
    match parseUsize r.count with
    | some n => if 1 ≤ n ∧ n ≤ 10000 then some (.last n) else none
    | none => none

def refresh (s : State π) (r : Review π) : State π × Review π :=
  let r := { r with viewed := ∅ }
  if r.mode = .patch then
    let r := { r with report := none, fileMatches := [], selected := 0, filePage := 0 }
    match r.patchPath with
    | some path => submit s r (.patchFile path)
    | none => (s, r)
  else
    match rangeOf r with
    | some range =>
      submit s { r with report := none, fileMatches := [], selected := 0, filePage := 0 } (.range r.root range)
    | none =>
      -- the number of the request is spent, but nothing is queued
      ({ s with next := s.next + 1 },
        { { r with request := s.next, loading := false, report := none, fileMatches := [] }.clearPatch with
          error := some "Choose between 1 and 10000 commits." })

/-- the review that a request leaves open -/
def State.opened (x : State π × Review π) : State π := { x.1 with review := some x.2 }

/-! ## what the user does -/

inductive Command (π : Type)
  | patch (path : Line)
  /-- with the directory of the active pane -/
  | open (root : π)
  | close
  | viewed
  | hunk (forward : Bool)
  | fileStart
  | filterClear
  | filter (query : Line)
  | view (split : Bool)
  | refresh
  | mode (mode : Mode)
  | prev
  | next
  | filesPrev
  | filesNext
  | file (index : Line)

/-- `cwd` is the directory of the active workspace -/
def openPatchFile (s : State π) (cwd : π) (path : π) : State π :=
  State.opened (refresh s { s.review.getD (Review.new cwd) with mode := .patch, patchPath := some path })

/-- the file is a patch, by its name -/
def isPatchName (path : π) : Bool :=
  (host.extension path).any fun ext => let ext := ext.map Char.toLower; ext = "patch".toList || ext = "diff".toList

def acceptDrop (s : State π) (cwd : π) (paths : List π) : Option (State π) :=
  match s.review, paths with
  | some _, [path] => if isPatchName host path then some (openPatchFile s cwd path) else none
  | _, _ => none

/-- a command to the open review that asks for nothing new; `none` is `false`, and nothing changed -/
def Review.command (r : Review π) : Command π → Option (Review π)
  | .viewed =>
    if r.loading ∨ r.error.isSome ∨ ¬ r.report.any (fun report => r.selected < report.value.files.length) then
      none
    else if r.selected ∈ r.viewed then
      some { r with viewed := r.viewed.erase r.selected }
    else
      some { r with viewed := insert r.selected r.viewed }
  | .hunk forward =>
    (r.hunkTarget forward).map fun index => { r with activeHunk := some index, rowStart := r.hunkRow index }
  | .fileStart => if 0 < r.rowStart ∨ r.activeHunk.isSome then some { r with rowStart := 0, activeHunk := none } else none
  | .filterClear =>
    let r := r.setFileFilter host []
    some { r with fileFilterReset := (r.fileFilterReset + 1) % (usizeMax + 1) }
  | .filter query => some (r.setFileFilter host query)
  | .view split =>
    if r.sideBySide = split then
      none
    else
      let r := { r with sideBySide := split }
      some { r with rowStart := (r.activeHunk.map r.hunkRow).getD 0 }
  | .prev => if 0 < r.rowStart then some { r with rowStart := r.rowStart - pageLines, activeHunk := none } else none
  | .next =>
    if r.rowStart + pageLines < r.rowCount then
      some { r with rowStart := r.rowStart + pageLines, activeHunk := none }
    else
      none
  | .filesPrev => some { r with filePage := r.filePage - 1 }
  | .filesNext =>
    if (r.filePage + 1) * pageFiles < r.fileMatches.length then some { r with filePage := r.filePage + 1 } else none
  | _ => none

/-- `cwd` is the directory of the active workspace; `none` is `false`, and nothing changed -/
def dispatch (s : State π) (cwd : π) (command : Command π) : Option (State π) :=
  match command, s.review with
  | .patch path, _ => some (openPatchFile s cwd (host.pathFrom path))
  | .open root, _ => some (State.opened (refresh s (Review.new root)))
  | .close, some _ => some { s with review := none }
  | .refresh, some r => some (State.opened (refresh s r))
  | .mode .patch, some _ => none
  | .mode mode, some r => some (State.opened (refresh s { r with mode := mode }))
  | .file index, some r =>
    match parseUsize index, r.report with
    | some index, some report =>
      if index < report.value.files.length then
        some (State.opened (submit s { r with selected := index } (.file report index)))
      else
        none
    | _, _ => none
  | command, some r => (r.command host command).map fun r => { s with review := some r }
  | _, none => none

/-! ## what the worker does -/

def maxBytes : Nat := 4194304

/-- `patch_file::load` -/
def loadPatchFile (t : τ) (path : π) : Except String (Report π) := do
  let file ← (host.openFile t path).mapError fun e => "Cannot open patch: " ++ e
  let isFile ← file.isFile.mapError fun e => "Cannot inspect patch: " ++ e
  if ¬ isFile then
    throw "Choose a regular patch file."
  let bytes ← file.bytes.mapError fun e => "Cannot read patch: " ++ e
  if maxBytes < bytes.length then
    throw "Patch exceeds the 4 MiB preview limit."
  match String.fromUTF8? ⟨bytes.toArray⟩ with
  | some text => importPatch path (text.toList.dropWhile (· = '\uFEFF'))
  | none => throw "Patch is not UTF-8. Export it as a UTF-8 patch and try again."

def loadRange (t : τ) (root : π) (range : Range) : Except String (Report π) :=
  (host.gitLoad t root range).map fun (root, base, head, label, files) =>
    { root, base, head, label, files, patches := none, parallel := by simp }

/-- the report that a query is about, and the file of it to show -/
def findReport (t : τ) (addr : Nat) : Query π → Except String (Arc (Report π)) × Nat
  | .range root range => ((loadRange host t root range).map (Arc.mk addr), 0)
  | .file report index => (.ok report, index)
  | .patchFile path => ((loadPatchFile host t path).map (Arc.mk addr), 0)

/-- the lines of the file `index` of the report, `none` when it has no such file -/
def loadLines (t : τ) (report : Report π) (index : Nat) : Option (Except String (List PatchLine)) :=
  report.files[index]?.map fun file =>
    match report.patches with
    | none => (host.gitDiff t report file).map parsePatch
    | some patches => .ok (patches[index]?.getD [])

def load (t : τ) (addr : Nat) (job : Job π) : Loaded π where
  id := job.id
  report := (findReport host t addr job.query).1
  lines := (findReport host t addr job.query).1.toOption.bind fun report =>
    (loadLines host t report.value (findReport host t addr job.query).2).map fun lines => lines.map LoadedPatch.new

/-- the review with a report; what was kept for another one is dropped -/
def Review.setReport (r : Review π) (report : Arc (Report π)) : Review π :=
  if r.report.any (·.addr = report.addr) then
    { r with report := some report }
  else
    { r with report := some report, viewed := ∅ }.rebuildFileMatches host

def Review.applied (r : Review π) (result : Loaded π) : Review π :=
  let r := { r with loading := false }
  match result.report with
  | .error error => { r with error := some error }
  | .ok report =>
    let r := r.setReport host report
    match result.lines with
    | some (.ok patch) =>
      { r with lines := patch.lines, splitRows := patch.splitRows, hunks := patch.hunks, activeHunk := none, rowStart := 0 }
    | some (.error error) => { r with error := some error }
    | none => r

/-- `none` is `false`: the result is not of the current request -/
def apply (s : State π) (result : Loaded π) : Option (State π) :=
  match s.review with
  | some r => if r.request = result.id then some { s with review := some (r.applied host result) } else none
  | none => none

/-! ## one event -/

inductive Field
  | count | base | fromRef | toRef
deriving DecidableEq, Repr

/-- an edit of a field of the form -/
def Review.edit (r : Review π) (field : Field) (text : Line) : Review π :=
  let value := text.take 1024
  match field with
  | .count => { r with count := value }
  | .base => { r with baseRef := value }
  | .fromRef => { r with fromRef := value }
  | .toRef => { r with toRef := value }

inductive Event (τ π : Type)
  /-- the application starts the worker -/
  | start
  | command (cwd : π) (command : Command π)
  | openPatchFile (cwd path : π)
  | drop (cwd : π) (paths : List π)
  | edit (field : Field) (text : Line)
  /-- another part of the program closes the review -/
  | dismiss
  /-- the worker takes the queued job -/
  | take
  /-- the worker has loaded it, at a time -/
  | load (t : τ)
  /-- the worker applies the result -/
  | apply

/-- the worker's events are possible only when it has got that far -/
def step (s : State π) : Event τ π → Option (State π)
  | .start => some (if s.queue.isSome then s else { s with queue := some none })
  | .command cwd command => some ((dispatch host s cwd command).getD s)
  | .openPatchFile cwd path => some (openPatchFile s cwd path)
  | .drop cwd paths => some ((acceptDrop host s cwd paths).getD s)
  | .edit field text => some { s with review := s.review.map fun r => r.edit field text }
  | .dismiss => some { s with review := none }
  | .take =>
    match s.queue, s.worker with
    | some (some job), .waiting => some { s with queue := some none, worker := .took job }
    | _, _ => none
  | .load t =>
    match s.worker with
    | .took job => some { s with worker := .loaded (load host t s.addr job), addr := s.addr + 1 }
    | _ => none
  | .apply =>
    match s.worker with
    | .loaded result => some ((apply host { s with worker := .waiting } result).getD { s with worker := .waiting })
    | _ => none

end

end TerminalManager.DiffReview
