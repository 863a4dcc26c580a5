import TerminalManager.Core.Snapshot
import TerminalManager.Ptyd.Frame
import TerminalManager.Ptyd.Session

/-!
# The answers that carry a snapshot

An attach is answered with a snapshot of the session, in one control frame (`protocol/message.rs`,
`daemon/handler.rs`).  A frame has a largest length, a snapshot has not.

* `Response`, `Response.json`   `SessionAttached` and `SessionEnsured`, as they are written;
* `attached`, `ensured`         the answer for the terminal of a session;
* `written_iff`                 an answer is written exactly when it has room in a frame;
* `reattached_iff`              the same in terms of what the terminal shows;
* `too_many_cells`              more than 349441 cells have none, whatever they are.
-/

namespace TerminalManager.Ptyd
open JsonText
open Core (Snapshot Terminal)

inductive EnsureDisposition
  | existing | spawned
deriving DecidableEq

/-- the responses with a snapshot -/
inductive Response
  | sessionAttached (id : Nat) (snapshot : Snapshot) (hookCapability : String)
  | sessionEnsured (id sessionId : Nat) (disposition : EnsureDisposition) (snapshot : Snapshot) (hookCapability : String)

def EnsureDisposition.name : EnsureDisposition → String
  | existing => "existing"
  | spawned => "spawned"

def Response.json : Response → Text
  | sessionAttached id snapshot hookCapability =>
    object [("kind", quote "session_attached"), ("id", number id), ("snapshot", snapshot.json),
      ("hook_capability", quote hookCapability)]
  | sessionEnsured id sessionId disposition snapshot hookCapability =>
    object [("kind", quote "session_ensured"), ("id", number id), ("session_id", number sessionId),
      ("disposition", quote disposition.name), ("snapshot", snapshot.json), ("hook_capability", quote hookCapability)]

/-- the frame of a response, when it can be written -/
def writeResponse (r : Response) : Except ProtocolError (List UInt8) := encodeFrame kindControl r.json

/-- the answer to `AttachSession`; the client's `scrollback_lines` is clamped -/
def attached (id : Nat) (t : Terminal) (scrollbackLines : Nat) (hookCapability : String) : Response :=
  .sessionAttached id (t.snapshot (min scrollbackLines snapshotMaxScrollbackLines)) hookCapability

/-- the answer to `EnsureSession` -/
def ensured (id sessionId : Nat) (disposition : EnsureDisposition) (t : Terminal) (scrollbackLines : Nat)
    (hookCapability : String) : Response :=
  .sessionEnsured id sessionId disposition (t.snapshot (min scrollbackLines snapshotMaxScrollbackLines)) hookCapability

/-! ## what has room -/

/-- the snapshot, the other members, and the bytes of names and punctuation -/
def Response.size : Response → Nat
  | sessionAttached id snapshot hookCapability => 64 + digits id + snapshot.size + quoteSize hookCapability
  | sessionEnsured id sessionId disposition snapshot hookCapability =>
    92 + digits id + digits sessionId + quoteSize disposition.name + snapshot.size + quoteSize hookCapability

lemma Response.length_json (r : Response) : r.json.length = r.size := by
  cases r with
  | sessionAttached id snapshot hookCapability =>
    unfold json size
    rw [length_object]
    simp only [List.map_cons, List.map_nil, length_number, length_quote, snapshot.length_json, listSize, List.sum_cons,
      List.sum_nil, List.length_cons, List.length_nil, memberSize, show quoteSize "kind" = 6 from rfl,
      show quoteSize "session_attached" = 18 from rfl, show quoteSize "id" = 4 from rfl,
      show quoteSize "snapshot" = 10 from rfl, show quoteSize "hook_capability" = 17 from rfl]
    omega
  | sessionEnsured id sessionId disposition snapshot hookCapability =>
    unfold json size
    rw [length_object]
    simp only [List.map_cons, List.map_nil, length_number, length_quote, snapshot.length_json, listSize, List.sum_cons,
      List.sum_nil, List.length_cons, List.length_nil, memberSize, show quoteSize "kind" = 6 from rfl,
      show quoteSize "session_ensured" = 17 from rfl, show quoteSize "id" = 4 from rfl,
      show quoteSize "session_id" = 12 from rfl, show quoteSize "disposition" = 13 from rfl,
      show quoteSize "snapshot" = 10 from rfl, show quoteSize "hook_capability" = 17 from rfl]
    omega

/-- a response is written when its text has room beside the kind byte -/
theorem written_iff (r : Response) : (∃ frame, writeResponse r = .ok frame) ↔ r.size ≤ maxFrameLen - 1 := by
  have hpos : 0 < maxFrameLen := by decide
  rw [← r.length_json]
  constructor
  · rintro ⟨frame, h⟩
    have hlen := (encodeFrame_ok h).1
    omega
  · intro h
    exact ⟨_, encodeFrame_eq_ok kindControl (by omega)⟩

/-- the bytes of the cells that an attached client is shown: those of the grid and of the newest lines above it -/
def cellBytes (t : Terminal) (scrollbackLines : Nat) : Nat :=
  Core.lineSize t.grid.cells +
    listSize ((t.scrollback.tail (min scrollbackLines snapshotMaxScrollbackLines)).map Core.lineSize)

/-- the bytes of the numbers and the flags beside them -/
def fieldBytes (t : Terminal) : Nat :=
  digits t.grid.rows + digits t.grid.cols + digits t.grid.cursorRow + digits t.grid.cursorCol +
    boolSize t.grid.cursorVisible + boolSize t.focusReporting1004 + boolSize t.mouseModes.report1000 +
    boolSize t.mouseModes.report1002 + boolSize t.mouseModes.report1003 + boolSize t.mouseModes.sgr

lemma snapshot_size (t : Terminal) (scrollbackLines : Nat) :
    (t.snapshot (min scrollbackLines snapshotMaxScrollbackLines)).size =
      187 + cellBytes t scrollbackLines + fieldBytes t := by
  unfold Snapshot.size Core.Grid.size Core.MouseModes.size cellBytes fieldBytes Terminal.snapshot
  dsimp only
  omega

/-- the text of a response fits in a frame, and is written -/
def Fits (r : Response) : Prop := r.json.length ≤ maxFrameLen - 1 ∧ ∃ frame, writeResponse r = .ok frame

lemma fits_iff (r : Response) : Fits r ↔ r.size ≤ maxFrameLen - 1 := by
  unfold Fits
  rw [r.length_json, written_iff, and_self_iff]

/-- **Main result.** Whatever its terminal went through, a session can be attached to, or ensured, exactly when the cells
that are shown leave room for the rest of the answer. -/
theorem reattached_iff (t : Terminal) (id sessionId scrollbackLines : Nat) (disposition : EnsureDisposition)
    (hookCapability : String) :
    (Fits (attached id t scrollbackLines hookCapability) ↔
      cellBytes t scrollbackLines + fieldBytes t + digits id + quoteSize hookCapability ≤ 1048324) ∧
    (Fits (ensured id sessionId disposition t scrollbackLines hookCapability) ↔
      cellBytes t scrollbackLines + fieldBytes t + digits id + digits sessionId + quoteSize disposition.name +
        quoteSize hookCapability ≤ 1048296) := by
  constructor
  · rw [fits_iff]
    unfold attached Response.size
    dsimp only
    rw [snapshot_size]
    unfold maxFrameLen
    omega
  · rw [fits_iff]
    unfold ensured Response.size
    dsimp only
    rw [snapshot_size]
    unfold maxFrameLen
    omega

/-- a grid of so many cells has no room -/
theorem too_many_cells {t : Terminal} (h : 349441 < t.grid.cells.length) (id scrollbackLines : Nat)
    (hookCapability : String) : ¬ Fits (attached id t scrollbackLines hookCapability) := by
  rw [fits_iff]
  unfold attached Response.size
  dsimp only
  rw [snapshot_size]
  have hcells := Core.lineSize_ge t.grid.cells
  unfold cellBytes maxFrameLen
  omega

/-- a session of 600 by 600 that has written nothing yet -/
theorem blank_square_not_written :
    ¬ Fits (attached 1 (Terminal.new false 600 600 defaultScrollback) 0 "") := by
  refine too_many_cells ?_ 1 0 ""
  show 349441 < (List.replicate (600 * 600) Core.Cell.blank).length
  rw [List.length_replicate]
  decide

end TerminalManager.Ptyd
