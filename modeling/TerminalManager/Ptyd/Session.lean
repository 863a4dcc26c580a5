import Mathlib.Tactic.Common

/-!
# One session of the daemon

A `Session` is the daemon-side counterpart of a pane: one PTY child, the terminal fed with its
output, and the output sink of the client that is attached (`session/mod.rs`).

* `Emulator`      the terminal as a session uses it;
* `OutputState`   the swappable sink under the output lock.  Its token is below `next_token`
                  by construction;
* `Session.attachWithSnapshot`, `Session.detach`, `OutputState.close`   what runs under the
                  output lock, each as one function of the state;
* `Session.react` what the reader, the child and its watcher do on their own.  A session only
                  ever dies of it (`childRunning_react`, `open?_react`).
-/

namespace TerminalManager.Ptyd

/-- the terminal emulator of a session -/
structure Emulator where
  Terminal : Type
  Snapshot : Type
  new : (rows cols maxScrollback : Nat) → Terminal
  processBytes : Terminal → List UInt8 → Terminal
  resize : Terminal → (rows cols : Nat) → Terminal
  snapshot : Terminal → (scrollbackLines : Nat) → Snapshot

/-- an emulator that keeps the bytes it was fed; its snapshots show the last of them -/
def Emulator.transcript : Emulator where
  Terminal := List UInt8
  Snapshot := List UInt8
  new _ _ _ := []
  processBytes t bytes := t ++ bytes
  resize t _ _ := t
  snapshot t n := t.drop (t.length - n)

def u64Max : Nat := 0xFFFFFFFFFFFFFFFF

/-- `DEFAULT_SCROLLBACK` -/
def defaultScrollback : Nat := 10000

/-- `SNAPSHOT_MAX_SCROLLBACK_LINES` -/
def snapshotMaxScrollbackLines : Nat := 100

abbrev AttachmentToken := Nat

/-- what `try_wait` on the child answers: `Ok(None)`, `Ok(Some(_))`, or an error or a poisoned
lock -/
inductive ChildStatus
  | running
  | exited
  | unknown
  deriving DecidableEq, Repr

/-! ## the output sink -/

/-- `OutputState`.  The sink is given by its token: every channel is made by the attach that
installs it under a fresh token. -/
structure OutputState where
  current : Option AttachmentToken
  nextToken : Nat
  readerOpen : Bool
  /-- the mutex is poisoned: an attach ran out of tokens while it held the lock -/
  poisoned : Bool
  current_lt : ∀ t ∈ current, t < nextToken

namespace OutputState

/-- the sink a session is spawned with -/
def spawned : OutputState where
  current := some 1
  nextToken := 2
  readerOpen := true
  poisoned := false
  current_lt t ht := Option.some.inj ht ▸ Nat.one_lt_two

/-- `close_output` -/
def close (o : OutputState) : OutputState where
  current := none
  nextToken := o.nextToken
  readerOpen := false
  poisoned := o.poisoned
  current_lt := by simp

/-- `Session::detach`: clears the sink only when `token` still owns it -/
def detach (o : OutputState) (token : AttachmentToken) : Bool × OutputState :=
  if o.current = some token then (true, { o with current := none, current_lt := by simp })
  else (false, o)

/-- a fresh sink under the next token -/
def install (o : OutputState) : OutputState where
  current := some o.nextToken
  nextToken := o.nextToken + 1
  readerOpen := o.readerOpen
  poisoned := o.poisoned
  current_lt := by simp

/-- `checked_add` found no token left: the panic poisons the lock it holds -/
def exhaust (o : OutputState) : OutputState := { o with poisoned := true }

/-- what `alive` reads under the lock -/
def open? (o : OutputState) : Bool := o.readerOpen && !o.poisoned

@[simp] lemma close_open? (o : OutputState) : o.close.open? = false := rfl

@[simp] lemma install_open? (o : OutputState) : o.install.open? = o.open? := rfl

@[simp] lemma exhaust_open? (o : OutputState) : o.exhaust.open? = false := by
  simp [exhaust, open?]

@[simp] lemma detach_open? (o : OutputState) (t : AttachmentToken) :
    (o.detach t).2.open? = o.open? := by
  unfold detach
  split <;> rfl

end OutputState

/-! ## the session -/

structure Session (E : Emulator) where
  id : Nat
  /-- the child, `none` once the session was killed -/
  pty : Option ChildStatus
  cols : UInt16
  rows : UInt16
  pid : Option UInt32
  terminal : E.Terminal
  terminalPoisoned : Bool
  output : OutputState
  workspaceId : UInt32
  paneId : UInt32
  name : Option String
  hookCapability : String

/-- what an attach comes to -/
inductive Attach (E : Emulator)
  | refused
  | panicked
  | attached (token : AttachmentToken) (snapshot : E.Snapshot)

/-- a child the host started -/
structure SpawnedChild where
  pid : Option UInt32
  hookCapability : String

/-- what happens to a session from outside -/
inductive SessionEvent
  | childExits
  | childLost
  | readerCloses
  | ptyOutput (chunk : List UInt8)
  deriving DecidableEq, Repr

namespace Session
variable {E : Emulator}

/-- the session around a child that was just started -/
def spawn (id : Nat) (child : SpawnedChild) (cols rows : UInt16) (workspaceId paneId : UInt32)
    (name : Option String) : Session E where
  id := id
  pty := some .running
  cols := cols
  rows := rows
  pid := child.pid
  terminal := E.new rows.toNat cols.toNat defaultScrollback
  terminalPoisoned := false
  output := .spawned
  workspaceId := workspaceId
  paneId := paneId
  name := name
  hookCapability := child.hookCapability

def childRunning (s : Session E) : Bool := s.pty = some .running

def childExitConfirmed (s : Session E) : Bool := s.pty = none ∨ s.pty = some .exited

/-- `alive`, when both of its reads see the same state -/
def alive (s : Session E) : Bool := s.output.open? && s.childRunning

/-- `attach_with_snapshot`: the terminal and the output are locked throughout -/
def attachWithSnapshot (s : Session E) (scrollbackLines : Nat) : Attach E × Session E :=
  if !s.output.readerOpen || !s.childRunning then
    (.refused, { s with output := s.output.close })
  else if s.output.nextToken = u64Max then
    (.panicked, { s with output := s.output.exhaust, terminalPoisoned := true })
  else
    (.attached s.output.nextToken (E.snapshot s.terminal scrollbackLines),
      { s with output := s.output.install })

def detach (s : Session E) (token : AttachmentToken) : Bool × Session E :=
  ((s.output.detach token).1, { s with output := (s.output.detach token).2 })

/-- `resize`; `ok` is the answer of the PTY master -/
def resize (s : Session E) (ok : Bool) (cols rows : UInt16) : Session E :=
  if s.pty.isSome && ok then
    { s with
      cols := cols
      rows := rows
      terminal :=
        if s.terminalPoisoned then s.terminal
        else E.resize s.terminal rows.toNat cols.toNat }
  else s

def snapshot (s : Session E) (scrollbackLines : Nat) : E.Snapshot :=
  if s.terminalPoisoned then E.snapshot (E.new s.rows.toNat s.cols.toNat 0) 0
  else E.snapshot s.terminal scrollbackLines

def setName (s : Session E) (name : Option String) : Session E :=
  { s with name := name.filter fun n => !n.isEmpty }

/-- what the reader, the child and its watcher do to a session while nobody holds its locks -/
def react (s : Session E) : SessionEvent → Session E
  | .childExits => { s with pty := s.pty.map fun _ => .exited }
  | .childLost => { s with pty := s.pty.map fun c => if c = .running then .unknown else c }
  | .readerCloses => { s with output := s.output.close }
  | .ptyOutput chunk =>
    { s with
      terminal := if s.terminalPoisoned then s.terminal else E.processBytes s.terminal chunk }

@[simp] lemma alive_spawn (id : Nat) (child : SpawnedChild) (cols rows : UInt16) (w p : UInt32)
    (name : Option String) : (spawn id child cols rows w p name : Session E).alive = true := rfl

lemma alive_iff (s : Session E) : s.alive = true ↔ s.output.open? = true ∧ s.childRunning = true := by
  rw [alive, Bool.and_eq_true]

/-- a child that runs after an event ran before it -/
lemma childRunning_react {s : Session E} {e : SessionEvent} (h : (s.react e).childRunning = true) :
    s.childRunning = true := by
  obtain ⟨_, pty, _, _, _, _, _, _, _, _, _, _⟩ := s
  unfold childRunning react at *
  cases e <;> cases pty <;> simp_all
  rename_i c
  cases c <;> simp_all

/-- a reader that is open after an event was open before it -/
lemma open?_react {s : Session E} {e : SessionEvent} (h : (s.react e).output.open? = true) :
    s.output.open? = true := by
  cases e with
  | readerCloses => simp [react] at h
  | childExits => exact h
  | childLost => exact h
  | ptyOutput chunk => exact h

/-- a confirmed exit stays confirmed -/
lemma childExitConfirmed_react {s : Session E} (e : SessionEvent)
    (h : s.childExitConfirmed = true) : (s.react e).childExitConfirmed = true := by
  obtain ⟨_, pty, _, _, _, _, _, _, _, _, _, _⟩ := s
  unfold childExitConfirmed react at *
  cases e <;> cases pty <;> simp_all

/-- an event leaves alone what identifies a session and who may attach to it next -/
lemma react_identity (s : Session E) (e : SessionEvent) :
    (s.react e).id = s.id ∧ (s.react e).workspaceId = s.workspaceId ∧
      (s.react e).paneId = s.paneId ∧ (s.react e).output.nextToken = s.output.nextToken := by
  cases e <;> exact ⟨rfl, rfl, rfl, rfl⟩

/-- a refused or a panicked attach leaves a session that is not alive -/
lemma attachWithSnapshot_dead {s : Session E} {n : Nat}
    (h : ∀ t m, (s.attachWithSnapshot n).1 ≠ .attached t m) :
    (s.attachWithSnapshot n).2.alive = false := by
  unfold attachWithSnapshot at h ⊢
  split
  · simp [alive]
  · rename_i h1
    split
    · simp [alive]
    · rename_i h2
      refine absurd ?_ (h s.output.nextToken (E.snapshot s.terminal n))
      rw [if_neg h1, if_neg h2]

/-- an attach hands out the token that was next and moves on to the one after -/
lemma attachWithSnapshot_attached {s : Session E} {n t : Nat} {m : E.Snapshot}
    (h : (s.attachWithSnapshot n).1 = .attached t m) :
    s.output.readerOpen = true ∧ s.childRunning = true ∧ t = s.output.nextToken ∧
      t ≠ u64Max ∧ m = E.snapshot s.terminal n ∧
      (s.attachWithSnapshot n).2 = { s with output := s.output.install } := by
  unfold attachWithSnapshot at h ⊢
  split at h
  · cases h
  · rename_i h1
    split at h
    · cases h
    · rename_i h2
      cases h
      simp only [Bool.or_eq_true, not_or, Bool.not_eq_true', Bool.not_eq_false] at h1
      simp [h1.1, h1.2, h2]

end Session
end TerminalManager.Ptyd
