import Mathlib.Data.List.AList
import TerminalManager.Lib.Interference
import TerminalManager.Ptyd.Session

/-!
# The session registry

`SessionRegistry` (`session/registry.rs`): the table of sessions, the id counter, the stopping
flag and the connection count.  Every operation holds the mutex of the table from its first to
its last action, so an operation is a program of atomic actions (`Prog`): each query of a
session's reader flag, of its child or of an atomic counter is an action of its own, because
readers, children and connections change them without that mutex (`HostEvent`).

The order in which a `HashMap` iterates is any order of its keys (`Host.order`); whether the PTY
resizes and whether a child starts is for the host to say.
-/

namespace TerminalManager.Ptyd
open Interference

/-- the key the UI matches a session to a pane by -/
structure PaneKey where
  workspaceId : UInt32
  paneId : UInt32
  deriving DecidableEq, Repr

def Session.key {E : Emulator} (s : Session E) : PaneKey := ⟨s.workspaceId, s.paneId⟩

inductive ErrorKind
  | connectionAborted
  | alreadyExists
  | notFound
  | other
  deriving DecidableEq, Repr

structure IoError where
  kind : ErrorKind
  message : String
  deriving DecidableEq, Repr

/-- an operation fails with an error of its own, passes on an error of `Session::spawn`, or its
task dies of a panic -/
inductive Failure
  | io (e : IoError)
  | host (e : IoError)
  | panicked
  deriving DecidableEq, Repr

def retiring : IoError := ⟨.connectionAborted, "daemon is retiring"⟩

def keyIsOwned : IoError :=
  ⟨.alreadyExists, "a live session already owns this workspace and pane key"⟩

def keyIsShared : IoError :=
  ⟨.alreadyExists, "multiple live sessions share one workspace and pane key"⟩

def noSession (id : Nat) : IoError := ⟨.notFound, s!"no session for id {id}"⟩

/-- what the operating system and the hash map answer during one operation -/
structure Host where
  order : List Nat → List Nat
  order_perm : ∀ l, (order l).Perm l
  resizes : Bool
  spawn : Except IoError SpawnedChild
  /-- what happens to the new session before the operation takes its snapshot -/
  beforeSnapshot : List SessionEvent
  /-- and between that and its insertion into the table -/
  beforeInsert : List SessionEvent

structure Registry (E : Emulator) where
  sessions : AList fun _ : Nat => Session E
  nextId : Nat
  stopping : Bool
  connections : Nat

namespace Registry
variable {E : Emulator}

def new : Registry E := ⟨∅, 1, false, 0⟩

/-- a host on which everything works -/
def quietHost : Host := ⟨id, fun l => .refl l, true, .ok ⟨some 7, "cap"⟩, [], []⟩

def get? (r : Registry E) (id : Nat) : Option (Session E) := r.sessions.lookup id

def insert (r : Registry E) (id : Nat) (s : Session E) : Registry E :=
  { r with sessions := r.sessions.insert id s }

def erase (r : Registry E) (id : Nat) : Registry E :=
  { r with sessions := r.sessions.erase id }

/-- the session `id`, if there is one, changed by `f` -/
def modify (r : Registry E) (id : Nat) (f : Session E → Session E) : Registry E :=
  match r.get? id with
  | some s => r.insert id (f s)
  | none => r

def clear (r : Registry E) : Registry E := { r with sessions := ∅ }

lemma get?_insert (r : Registry E) (id i : Nat) (s : Session E) :
    (r.insert id s).get? i = if i = id then some s else r.get? i := by
  by_cases h : i = id
  · subst h
    rw [if_pos rfl]
    exact AList.lookup_insert _
  · rw [if_neg h]
    exact AList.lookup_insert_ne h

lemma get?_erase (r : Registry E) (id i : Nat) :
    (r.erase id).get? i = if i = id then none else r.get? i := by
  by_cases h : i = id
  · subst h
    rw [if_pos rfl]
    exact AList.lookup_erase _ _
  · rw [if_neg h]
    exact AList.lookup_erase_ne h

lemma get?_modify (r : Registry E) (id i : Nat) (f : Session E → Session E) :
    (r.modify id f).get? i = if i = id then (r.get? id).map f else r.get? i := by
  unfold modify
  cases h : r.get? id with
  | some s => exact get?_insert r id i (f s)
  | none =>
    by_cases hi : i = id
    · rw [if_pos hi, hi]
      exact h
    · rw [if_neg hi]

@[simp] lemma get?_clear (r : Registry E) (i : Nat) : r.clear.get? i = none := rfl

lemma mem_keys_iff (r : Registry E) (id : Nat) :
    id ∈ r.sessions.keys ↔ ∃ s, r.get? id = some s := by
  rw [← AList.mem_keys, ← AList.lookup_isSome, Option.isSome_iff_exists]
  rfl

@[simp] lemma modify_nextId (r : Registry E) (id : Nat) (f : Session E → Session E) :
    (r.modify id f).nextId = r.nextId := by
  unfold modify
  split <;> rfl

@[simp] lemma modify_stopping (r : Registry E) (id : Nat) (f : Session E → Session E) :
    (r.modify id f).stopping = r.stopping := by
  unfold modify
  split <;> rfl

@[simp] lemma modify_connections (r : Registry E) (id : Nat) (f : Session E → Session E) :
    (r.modify id f).connections = r.connections := by
  unfold modify
  split <;> rfl

/-! ## what happens without the lock -/

inductive HostEvent
  | session (id : Nat) (e : SessionEvent)
  | connectionDropped
  deriving DecidableEq, Repr

/-- the moves of the environment; `ConnectionGuard::drop` decrements the count -/
def env (r : Registry E) : HostEvent → Option (Registry E)
  | .session id e => some (r.modify id fun s => s.react e)
  | .connectionDropped =>
    if 0 < r.connections then some { r with connections := r.connections - 1 } else none

/-! ## queries -/

/-- is the reader of `id` open, as `alive` reads it? -/
def readerOpen (id : Nat) : Prog (Registry E) Bool :=
  .read fun r => (r.get? id).any fun s => s.output.open?

def childRunning (id : Nat) : Prog (Registry E) Bool :=
  .read fun r => (r.get? id).any fun s => s.childRunning

def childExitConfirmed (id : Nat) : Prog (Registry E) Bool :=
  .read fun r => (r.get? id).all fun s => s.childExitConfirmed

/-- `Session::alive`: the reader flag first, the child only when it is set -/
def alive (id : Nat) : Prog (Registry E) Bool := do
  if ← readerOpen id then childRunning id else return false

def hasKey (key : PaneKey) (id : Nat) : Prog (Registry E) Bool :=
  .read fun r => (r.get? id).any fun s => s.key = key

/-- the test of the searches: the key matches and the session is alive -/
def matchesAlive (key : PaneKey) (id : Nat) : Prog (Registry E) Bool := do
  if ← hasKey key id then alive id else return false

/-- the key matches and the session is not alive -/
def matchesDead (key : PaneKey) (id : Nat) : Prog (Registry E) Bool := do
  if ← hasKey key id then
    let a ← alive id
    return !a
  else
    return false

/-- the ids of the table, in the order the hash map iterates in -/
def ids (h : Host) : Prog (Registry E) (List Nat) := .read fun r => h.order r.sessions.keys

/-- `check_accepting`: is the daemon retiring? -/
def isStopping : Prog (Registry E) Bool := .read Registry.stopping

/-- `next_id`: saturating; never wraps to zero -/
def takeId : Prog (Registry E) Nat :=
  .modifyGet fun r => (r.nextId, if r.nextId = u64Max then r else { r with nextId := r.nextId + 1 })

def dropSession (id : Nat) : Prog (Registry E) Unit := .update fun r => r.erase id

/-! ## the operations -/

structure SpawnRequest where
  cols : UInt16
  rows : UInt16
  workspaceId : UInt32
  paneId : UInt32
  name : Option String

def SpawnRequest.key (q : SpawnRequest) : PaneKey := ⟨q.workspaceId, q.paneId⟩

structure SpawnedSession where
  sessionId : Nat
  attachmentToken : AttachmentToken
  hookCapability : String

inductive EnsureDisposition
  | existing
  | spawned
  deriving DecidableEq, Repr

structure EnsuredSession (E : Emulator) where
  sessionId : Nat
  attachmentToken : AttachmentToken
  hookCapability : String
  disposition : EnsureDisposition
  snapshot : E.Snapshot

/-- `register_connection` -/
def registerConnection : Prog (Registry E) (Except IoError Unit) := do
  if ← isStopping then
    return .error retiring
  else
    Prog.update fun r => { r with connections := r.connections + 1 }
    return .ok ()

/-- `stop`: `begin_shutdown(force)` is `stop(force, false)`, `begin_retirement` is
`stop(false, true)` -/
def stop (h : Host) (force retire : Bool) : Prog (Registry E) (Except String Unit) := do
  let all ← ids h
  let unconfirmed ← Prog.filter (fun id => do
    let c ← childExitConfirmed id
    return !c) all
  if !force && 0 < unconfirmed.length then
    return .error s!"{unconfirmed.length} sessions alive"
  else
    let connections ← Prog.read Registry.connections
    if retire && 1 < connections then
      return .error "another client is connected"
    else
      Prog.update fun r => { r with stopping := true }
      Prog.update Registry.clear
      return .ok ()

/-- the end of `spawn_with_context` and `ensure_with_context`: a fresh id, the child, the
insert -/
def spawnSession (h : Host) (q : SpawnRequest) :
    Prog (Registry E) (Except Failure (Nat × Session E)) := do
  let id ← takeId
  match h.spawn with
  | .error e => return .error (.host e)
  | .ok child =>
    return .ok (id, .spawn id child q.cols q.rows q.workspaceId q.paneId q.name)

def spawnWithContext (h : Host) (q : SpawnRequest) :
    Prog (Registry E) (Except Failure SpawnedSession) := do
  if ← isStopping then
    return .error (.io retiring)
  else
    let all ← ids h
    if ← Prog.any (matchesAlive q.key) all then
      return .error (.io keyIsOwned)
    else
      let all ← ids h
      Prog.forEach (fun id => do
        if ← matchesDead q.key id then dropSession id else return ()) all
      match ← spawnSession h q with
      | .error e => return .error e
      | .ok (id, s) =>
        Prog.update fun r => r.insert id (h.beforeInsert.foldl Session.react s)
        return .ok ⟨id, 1, s.hookCapability⟩

/-- the atomic part of an attach, for a session that is in the table -/
def attachAction (id lines : Nat) : Prog (Registry E) (Option (Attach E × String)) :=
  .modifyGet fun r =>
    match r.get? id with
    | some s =>
      (some ((s.attachWithSnapshot lines).1, s.hookCapability),
        r.insert id (s.attachWithSnapshot lines).2)
    | none => (none, r)

/-- a surviving session is resized to the geometry of the client, when they differ -/
def fitGeometry (h : Host) (id : Nat) (cols rows : UInt16) : Prog (Registry E) Unit :=
  .update fun r => r.modify id fun s =>
    if s.cols ≠ cols ∨ s.rows ≠ rows then s.resize h.resizes cols rows else s

/-- the second half of `ensure_with_context`: no live session owns the key -/
def ensureFresh (h : Host) (q : SpawnRequest) (scrollbackLines : Nat) :
    Prog (Registry E) (Except Failure (EnsuredSession E)) := do
  let all ← ids h
  let dead ← Prog.filter (matchesDead q.key) all
  Prog.forEach dropSession dead
  match ← spawnSession h q with
  | .error e => return .error e
  | .ok (id, s) =>
    let s := h.beforeSnapshot.foldl Session.react s
    let snapshot := s.snapshot (min scrollbackLines snapshotMaxScrollbackLines)
    Prog.update fun r => r.insert id (h.beforeInsert.foldl Session.react s)
    return .ok ⟨id, 1, s.hookCapability, .spawned, snapshot⟩

def ensureWithContext (h : Host) (q : SpawnRequest) (scrollbackLines : Nat) :
    Prog (Registry E) (Except Failure (EnsuredSession E)) := do
  if ← isStopping then
    return .error (.io retiring)
  else
    let all ← ids h
    match ← Prog.filter (matchesAlive q.key) all with
    | [] => ensureFresh h q scrollbackLines
    | [id] =>
      fitGeometry h id q.cols q.rows
      match ← attachAction id (min scrollbackLines snapshotMaxScrollbackLines) with
      | some (.attached token snapshot, capability) =>
        return .ok ⟨id, token, capability, .existing, snapshot⟩
      | some (.panicked, _) => return .error .panicked
      | _ =>
        dropSession id
        ensureFresh h q scrollbackLines
    | _ => return .error (.io keyIsShared)

/-- `attach_with_snapshot`: a session that cannot be attached to is removed -/
def attachWithSnapshot (id scrollbackLines : Nat) :
    Prog (Registry E) (Except Failure (Option (AttachmentToken × String × E.Snapshot))) := do
  match ← attachAction id (min scrollbackLines snapshotMaxScrollbackLines) with
  | some (.attached token snapshot, capability) => return .ok (some (token, capability, snapshot))
  | some (.panicked, _) => return .error .panicked
  | _ =>
    dropSession id
    return .ok none

/-- `attach`: the same without the snapshot -/
def attach (id : Nat) : Prog (Registry E) (Except Failure (Option (AttachmentToken × String))) := do
  match ← attachAction id 0 with
  | some (.attached token _, capability) => return .ok (some (token, capability))
  | some (.panicked, _) => return .error .panicked
  | _ =>
    dropSession id
    return .ok none

def detach (id : Nat) (token : AttachmentToken) : Prog (Registry E) Bool :=
  .modifyGet fun r =>
    match r.get? id with
    | some s => ((s.detach token).1, r.insert id (s.detach token).2)
    | none => (false, r)

/-- `remove`: the session leaves the table and its child is killed -/
def remove (id : Nat) : Prog (Registry E) Bool :=
  .modifyGet fun r => ((r.get? id).isSome, r.erase id)

def resize (h : Host) (id : Nat) (cols rows : UInt16) : Prog (Registry E) (Except IoError Unit) :=
  .modifyGet fun r =>
    match r.get? id with
    | some s => (.ok (), r.insert id (s.resize h.resizes cols rows))
    | none => (.error (noSession id), r)

def rename (id : Nat) (name : Option String) : Prog (Registry E) Bool :=
  .modifyGet fun r =>
    match r.get? id with
    | some s => (true, r.insert id (s.setName name))
    | none => (false, r)

/-! ## one call -/

inductive Call
  | registerConnection
  | beginShutdown (h : Host) (force : Bool)
  | beginRetirement (h : Host)
  | spawn (h : Host) (q : SpawnRequest)
  | ensure (h : Host) (q : SpawnRequest) (scrollbackLines : Nat)
  | attach (id : Nat)
  | attachWithSnapshot (id scrollbackLines : Nat)
  | detach (id : Nat) (token : AttachmentToken)
  | remove (id : Nat)
  | resize (h : Host) (id : Nat) (cols rows : UInt16)
  | rename (id : Nat) (name : Option String)

inductive Reply (E : Emulator)
  | registered (r : Except IoError Unit)
  | stopped (r : Except String Unit)
  | spawned (r : Except Failure SpawnedSession)
  | ensured (r : Except Failure (EnsuredSession E))
  | attached (r : Except Failure (Option (AttachmentToken × String)))
  | attachedWithSnapshot (r : Except Failure (Option (AttachmentToken × String × E.Snapshot)))
  | detached (r : Bool)
  | removed (r : Bool)
  | resized (r : Except IoError Unit)
  | renamed (r : Bool)

/-- what a call runs while it holds the mutex of the table -/
def Call.body : Call → Prog (Registry E) (Reply E)
  | .registerConnection => return .registered (← Registry.registerConnection)
  | .beginShutdown h force => return .stopped (← stop h force false)
  | .beginRetirement h => return .stopped (← stop h false true)
  | .spawn h q => return .spawned (← spawnWithContext h q)
  | .ensure h q n => return .ensured (← ensureWithContext h q n)
  | .attach id => return .attached (← Registry.attach id)
  | .attachWithSnapshot id n => return .attachedWithSnapshot (← Registry.attachWithSnapshot id n)
  | .detach id token => return .detached (← Registry.detach id token)
  | .remove id => return .removed (← Registry.remove id)
  | .resize h id cols rows => return .resized (← Registry.resize h id cols rows)
  | .rename id name => return .renamed (← Registry.rename id name)

end Registry
end TerminalManager.Ptyd
