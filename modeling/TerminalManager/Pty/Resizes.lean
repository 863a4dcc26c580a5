import TerminalManager.Lib.Table
import TerminalManager.Lib.Transition

/-!
# Resizes on their way to the daemon

The thread of the interface asks and the worker thread talks to the daemon.  A drag asks for a new size with every
frame; the requests that wait are kept by pane, the latest in place of the one before, and one command in the channel
wakes the worker for all of them.

* `Shim.enqueueLatestResize`, `replacePaneSession`, `pushRecordedSize`   what the thread of the interface does;
* `step`                  a step of either thread, of the daemon, or of time;
* `Shim.Flow`             the command that wakes the worker is under way exactly when the shim says so;
* `Shim.Calls`            a queued command that gives a pane a session is that of the call that waits for it.
-/

namespace TerminalManager.Pty
open Transition

structure ResizeRequest where
  sessionId : Nat
  paneId : Nat
  cols : Nat
  rows : Nat
deriving DecidableEq, Repr

def ResizeRequest.size (r : ResizeRequest) : Nat × Nat := (r.cols, r.rows)

/-- the commands for the worker; `query` is one that neither gives a pane a session nor asks for a size: a write, a list of
the sessions, a name -/
inductive Command
  | spawn (paneId cols rows : Nat)
  | ensure (paneId cols rows : Nat)
  | attach (paneId sessionId : Nat)
  | query
  | flushResizes
  | kill (sessionId : Nat)
  | killAck (sessionId : Nat)
deriving DecidableEq, Repr

/-- the pane that gets a session, and its size -/
def Command.geometry : Command → Option (Nat × (Nat × Nat))
  | spawn paneId cols rows | ensure paneId cols rows => some (paneId, (cols, rows))
  | _ => none

/-- the interface waits for the reply of every command but these two -/
def Command.waits : Command → Bool
  | flushResizes | kill _ => false
  | _ => true

/-- what the daemon answers: a session, an acknowledgement, `session_not_found` or another error -/
inductive Reply
  | session (sessionId : Nat)
  | done
  | notFound
  | failed
deriving DecidableEq, Repr

/-- a call of the interface that waits for the worker: the channel of its reply, and the reply in it -/
structure Call where
  ticket : Nat
  command : Command
  reply : Option Reply
deriving DecidableEq, Repr

/-- where the worker is in its loop: at its channel, at the requests of a batch that it still has to deliver, or at the
command that it sends when others have come in the meantime -/
inductive Worker
  | ready
  | delivering (batch : List ResizeRequest)
  | following
deriving DecidableEq, Repr

def Worker.batch : Worker → List ResizeRequest
  | delivering batch => batch
  | _ => []

/-- `DaemonPty` with its worker, of the sizes of the panes; `sent` is what the daemon was asked for, the latest in front -/
structure Shim where
  connected : Bool := false
  paneSizes : Table Nat (Nat × Nat) := ∅
  sessions : Table Nat Nat := ∅
  pending : Table Nat ResizeRequest := ∅
  flushQueued : Bool := false
  commands : List (Nat × Command) := []
  tickets : Nat := 0
  call : Option Call := none
  worker : Worker := .ready
  sent : List ResizeRequest := []

namespace Shim
variable (p : Shim)

/-! ## the thread of the interface -/

def send (command : Command) : Shim :=
  { p with commands := p.commands ++ [(p.tickets, command)], tickets := p.tickets + 1 }

/-- a command with a reply to wait for -/
def request (command : Command) : Shim := { p.send command with call := some ⟨p.tickets, command, none⟩ }

def enqueueLatestResize (r : ResizeRequest) : Shim :=
  let q := { p with pending := p.pending.insert r.paneId r }
  if p.flushQueued then q else { q with flushQueued := true }.send .flushResizes

def discardPendingResize (paneId : Nat) : Shim := { p with pending := p.pending.remove paneId }

def discardPendingResizesForSession (sessionId : Nat) : Shim :=
  { p with pending := p.pending.retain fun paneId => (p.pending.get paneId).all (·.sessionId != sessionId) }

def replacePaneSession (paneId sessionId : Nat) : Shim :=
  let q := { p with sessions := p.sessions.insert paneId sessionId }
  if (p.sessions.get paneId).any (· != sessionId) then q.discardPendingResize paneId else q

def resize (paneId cols rows : Nat) : Shim :=
  let q := { p with paneSizes := p.paneSizes.insert paneId (cols, rows) }
  if p.connected then
    match p.sessions.get paneId with
    | some sessionId =>
      if p.paneSizes.get paneId ≠ some (cols, rows) then q.enqueueLatestResize ⟨sessionId, paneId, cols, rows⟩ else q
    | none => q
  else q

/-- the recorded size of a pane that has just got its session -/
def pushRecordedSize (paneId sessionId : Nat) (spawnedWith : Option (Nat × Nat)) : Shim :=
  match p.paneSizes.get paneId with
  | none => p
  | some size => if spawnedWith = some size then p else p.enqueueLatestResize ⟨sessionId, paneId, size.1, size.2⟩

/-- the panes of a session lose it -/
def unmapSession (sessionId : Nat) : Shim :=
  { p with sessions := p.sessions.retain fun paneId => (p.sessions.get paneId).all (· != sessionId) }.discardPendingResizesForSession
    sessionId

def killSessionId (sessionId : Nat) : Shim := (p.unmapSession sessionId).send (.kill sessionId)

def destroy (paneId : Nat) : Shim :=
  let q := { p with paneSizes := p.paneSizes.remove paneId }
  if p.connected then
    let q := q.discardPendingResize paneId
    match p.sessions.get paneId with
    | some sessionId => { q with sessions := q.sessions.remove paneId }.send (.kill sessionId)
    | none => q
  else q

/-- `sessionIds` are those of the panes, in the order in which they are met -/
def destroyAll (sessionIds : List Nat) : Shim :=
  let q := { p with paneSizes := ∅ }
  if p.connected then
    sessionIds.foldl (fun q sessionId => q.send (.kill sessionId)) { q with pending := ∅, sessions := ∅ }
  else q

/-- what a call does with its reply -/
def handle : Command → Reply → Shim
  | .spawn paneId cols rows, .session sessionId | .ensure paneId cols rows, .session sessionId =>
    (p.replacePaneSession paneId sessionId).pushRecordedSize paneId sessionId (some (cols, rows))
  | .attach paneId sessionId, .session _ => (p.replacePaneSession paneId sessionId).pushRecordedSize paneId sessionId none
  | .killAck sessionId, .done | .killAck sessionId, .notFound => p.unmapSession sessionId
  | _, _ => p

/-! ## the worker -/

/-- what the daemon is asked for with a command that it answers -/
def asked : Command → Reply → List ResizeRequest
  | .spawn paneId cols rows, .session sessionId | .ensure paneId cols rows, .session sessionId =>
    [⟨sessionId, paneId, cols, rows⟩]
  | _, _ => []

/-- the worker takes a command, and its reply goes to the call that waits for it, if one still does -/
def serve (ticket : Nat) (command : Command) (rest : List (Nat × Command)) (reply : Reply) : Shim :=
  { p with
    commands := rest
    sent := asked command reply ++ p.sent
    call := p.call.map fun c => if c.ticket = ticket then { c with reply := some reply } else c }

/-- the end of a batch -/
def finish : Shim :=
  if p.pending.isEmpty then { p with worker := .ready, flushQueued := false } else { p with worker := .following }

end Shim

inductive Event
  | connect
  | resize (paneId cols rows : Nat)
  | call (command : Command)
  | handle
  | timeout
  | post
  | destroy (paneId : Nat)
  | kill (sessionId : Nat)
  | destroyAll (sessionIds : List Nat)
  | serve (reply : Reply)
  | flush (batch : List ResizeRequest)
  | deliver
  | finish
  | follow
deriving DecidableEq, Repr

/-- a step; the thread of the interface makes none while a call waits, other threads post queries at any time -/
def step (p : Shim) : Event → Option Shim
  | .connect => if p.call = none ∧ p.connected = false then some ({ p with connected := true }.send .query) else none
  | .resize paneId cols rows => if p.call = none then some (p.resize paneId cols rows) else none
  | .call command =>
    if p.call = none ∧ p.connected = true ∧ command.waits = true then some (p.request command) else none
  | .handle =>
    match p.call with
    | some ⟨_, command, some reply⟩ => some ({ p with call := none }.handle command reply)
    | _ => none
  | .timeout =>
    match p.call with
    | some ⟨_, .query, none⟩ | some ⟨_, .killAck _, none⟩ => some { p with call := none }
    | _ => none
  | .post => if p.connected then some (p.send .query) else none
  | .destroy paneId => if p.call = none then some (p.destroy paneId) else none
  | .kill sessionId => if p.call = none ∧ p.connected = true then some (p.killSessionId sessionId) else none
  | .destroyAll sessionIds =>
    if p.call = none ∧ sessionIds.Perm (p.sessions.entries.map Prod.snd) then some (p.destroyAll sessionIds) else none
  | .serve reply =>
    match p.worker, p.commands with
    | .ready, (ticket, command) :: rest =>
      if command ≠ .flushResizes then some (p.serve ticket command rest reply) else none
    | _, _ => none
  | .flush batch =>
    match p.worker, p.commands with
    | .ready, (_, .flushResizes) :: rest =>
      if batch.Perm (p.pending.entries.map Prod.snd) then
        some { p with commands := rest, pending := ∅, worker := .delivering batch }
      else none
    | _, _ => none
  | .deliver =>
    match p.worker with
    | .delivering (r :: rest) => some { p with worker := .delivering rest, sent := r :: p.sent }
    | _ => none
  | .finish => if p.worker = .delivering [] then some p.finish else none
  | .follow => if p.worker = .following then some ({ p with worker := .ready }.send .flushResizes) else none

namespace Shim

/-- the commands that wait for the requests, the one that the worker is at among them -/
def flushes (p : Shim) : Nat := p.commands.countP (fun e => e.2 = .flushResizes) + if p.worker = .ready then 0 else 1

variable {p q : Shim}

/-! ## the command that wakes the worker -/

structure Flow (p : Shim) : Prop where
  flushes : p.flushes = p.flushQueued.toNat
  queued : p.pending.isEmpty = false → p.flushQueued = true

lemma flushes_send (p : Shim) (command : Command) :
    (p.send command).flushes = p.flushes + if command = .flushResizes then 1 else 0 := by
  unfold flushes send
  rw [List.countP_append, List.countP_singleton]
  simp only [decide_eq_true_eq]
  omega

lemma Flow.send (h : p.Flow) {command : Command} (hc : command ≠ .flushResizes) : (p.send command).Flow where
  flushes := by rw [flushes_send, if_neg hc]; exact h.flushes
  queued := h.queued

/-- requests are taken back, and nothing else changes that the worker sees -/
lemma Flow.fewer (h : p.Flow) (hc : q.commands = p.commands) (hw : q.worker = p.worker)
    (hf : q.flushQueued = p.flushQueued) (hp : p.pending.isEmpty = true → q.pending.isEmpty = true) : q.Flow where
  flushes := by
    unfold Shim.flushes
    rw [hc, hw, hf]
    exact h.flushes
  queued hq := by
    rw [hf]
    refine h.queued (Bool.eq_false_iff.mpr fun he => ?_)
    rw [hp he] at hq
    cases hq

lemma isEmpty_retain {κ α : Type*} {t : Table κ α} (h : t.isEmpty = true) (keep : κ → Bool) :
    (t.retain keep).isEmpty = true := by
  unfold Table.isEmpty at h ⊢
  rw [List.isEmpty_iff] at h ⊢
  unfold Table.retain
  rw [h, List.filter_nil]

lemma Flow.enqueue (h : p.Flow) (r : ResizeRequest) : (p.enqueueLatestResize r).Flow := by
  unfold enqueueLatestResize
  by_cases hq : p.flushQueued = true
  · rw [if_pos hq]
    exact ⟨h.flushes, fun _ => hq⟩
  · rw [if_neg hq]
    rw [Bool.not_eq_true] at hq
    refine ⟨?_, fun _ => rfl⟩
    have hnone : p.flushes = 0 := by rw [h.flushes, hq, Bool.toNat_false]
    rw [flushes_send, if_pos rfl]
    show p.flushes + 1 = 1
    rw [hnone]

lemma Flow.replace (h : p.Flow) (paneId sessionId : Nat) : (p.replacePaneSession paneId sessionId).Flow := by
  unfold replacePaneSession
  split
  · exact h.fewer rfl rfl rfl fun he => isEmpty_retain he _
  · exact h.fewer rfl rfl rfl id

lemma Flow.push (h : p.Flow) (paneId sessionId : Nat) (spawnedWith : Option (Nat × Nat)) :
    (p.pushRecordedSize paneId sessionId spawnedWith).Flow := by
  unfold pushRecordedSize
  split
  · exact h
  · split
    · exact h
    · exact h.enqueue _

lemma Flow.unmap (h : p.Flow) (sessionId : Nat) : (p.unmapSession sessionId).Flow :=
  h.fewer rfl rfl rfl fun he => isEmpty_retain he _

lemma Flow.handle (h : p.Flow) (command : Command) (reply : Reply) : (p.handle command reply).Flow := by
  unfold Shim.handle
  split
  · exact (h.replace _ _).push _ _ _
  · exact (h.replace _ _).push _ _ _
  · exact (h.replace _ _).push _ _ _
  · exact h.unmap _
  · exact h.unmap _
  · exact h

lemma Flow.sendAll (h : p.Flow) (sessionIds : List Nat) :
    (sessionIds.foldl (fun q sessionId => q.send (.kill sessionId)) p).Flow := by
  induction sessionIds generalizing p with
  | nil => exact h
  | cons sessionId sessionIds ih => exact ih (h.send nofun)

/-- a command other than that one is taken from the channel -/
lemma Flow.taken (h : p.Flow) {e : Nat × Command} {rest : List (Nat × Command)} (hc : p.commands = e :: rest)
    (he : e.2 ≠ .flushResizes) (hq : q.commands = rest) (hw : q.worker = p.worker) (hf : q.flushQueued = p.flushQueued)
    (hp : q.pending = p.pending) : q.Flow where
  flushes := by
    have hflushes := h.flushes
    unfold Shim.flushes at hflushes ⊢
    rw [hc, List.countP_cons_of_neg (by simpa using he)] at hflushes
    rw [hq, hw, hf]
    exact hflushes
  queued := by
    rw [hf, hp]
    exact h.queued

/-- a request of the interface is recorded, and waits for the worker when it is a new one for a pane with a session -/
lemma resize_cases (p : Shim) (paneId cols rows : Nat) :
    (∃ sessionId, p.sessions.get paneId = some sessionId ∧ p.resize paneId cols rows =
      { p with paneSizes := p.paneSizes.insert paneId (cols, rows) }.enqueueLatestResize ⟨sessionId, paneId, cols, rows⟩) ∨
    p.resize paneId cols rows = { p with paneSizes := p.paneSizes.insert paneId (cols, rows) } ∧
      (p.connected = true → ∀ sessionId, p.sessions.get paneId = some sessionId →
        p.paneSizes.get paneId = some (cols, rows)) := by
  unfold Shim.resize
  dsimp only
  by_cases hon : p.connected = true
  · rw [if_pos hon]
    cases hs : p.sessions.get paneId with
    | none => exact .inr ⟨rfl, fun _ _ h => by cases h⟩
    | some sessionId =>
      by_cases hz : p.paneSizes.get paneId = some (cols, rows)
      · exact .inr ⟨if_neg (not_not.mpr hz), fun _ _ _ => hz⟩
      · exact .inl ⟨sessionId, rfl, if_pos hz⟩
  · exact .inr ⟨if_neg hon, fun h => absurd h hon⟩

lemma Flow.resize (h : p.Flow) (paneId cols rows : Nat) : (p.resize paneId cols rows).Flow := by
  have hsize : Flow { p with paneSizes := p.paneSizes.insert paneId (cols, rows) } := ⟨h.flushes, h.queued⟩
  obtain ⟨sessionId, -, heq⟩ | ⟨heq, -⟩ := resize_cases p paneId cols rows
  · rw [heq]
    exact hsize.enqueue _
  · rw [heq]
    exact hsize

lemma Flow.destroy (h : p.Flow) (paneId : Nat) : (p.destroy paneId).Flow := by
  have hfewer : Flow { p with
      paneSizes := p.paneSizes.remove paneId, pending := p.pending.remove paneId } :=
    h.fewer rfl rfl rfl fun he => isEmpty_retain he _
  unfold Shim.destroy
  dsimp only
  split_ifs
  · split
    · exact Flow.send (p := { p with
        paneSizes := p.paneSizes.remove paneId
        pending := p.pending.remove paneId
        sessions := p.sessions.remove paneId }) ⟨hfewer.flushes, hfewer.queued⟩ fun hc => by cases hc
    · exact hfewer
  · exact ⟨h.flushes, h.queued⟩

lemma Flow.finish (h : p.Flow) (hw : p.worker = .delivering []) : p.finish.Flow := by
  have hflushes := h.flushes
  unfold Shim.flushes at hflushes
  rw [hw, if_neg nofun] at hflushes
  unfold Shim.finish
  split_ifs with he
  · refine ⟨?_, fun hne => ?_⟩
    · show p.commands.countP _ + 0 = 0
      have hle := Bool.toNat_le p.flushQueued
      omega
    · rw [he] at hne
      cases hne
  · exact ⟨hflushes, h.queued⟩

/-- a step that is possible under a condition -/
lemma guarded {c : Prop} [Decidable c] (h : (if c then some p else none) = some q) : c ∧ p = q := by
  obtain ⟨hc, heq⟩ := Option.ite_none_right_eq_some.mp h
  exact ⟨hc, Option.some.inj heq⟩

lemma step_handle (hq : step p .handle = some q) : ∃ ticket command reply,
    p.call = some ⟨ticket, command, some reply⟩ ∧ q = Shim.handle { p with call := none } command reply := by
  unfold step at hq
  dsimp only at hq
  split at hq
  next ticket command reply hcall => exact ⟨ticket, command, reply, hcall, (Option.some.inj hq).symm⟩
  next => cases hq

lemma step_timeout (hq : step p .timeout = some q) : ∃ ticket command,
    p.call = some ⟨ticket, command, none⟩ ∧ command.geometry = none ∧ q = { p with call := none } := by
  unfold step at hq
  dsimp only at hq
  split at hq
  next ticket hcall => exact ⟨ticket, _, hcall, rfl, (Option.some.inj hq).symm⟩
  next ticket _ hcall => exact ⟨ticket, _, hcall, rfl, (Option.some.inj hq).symm⟩
  next => cases hq

lemma step_serve {reply : Reply} (hq : step p (.serve reply) = some q) : ∃ ticket command rest, p.worker = .ready ∧
    p.commands = (ticket, command) :: rest ∧ command ≠ .flushResizes ∧ q = p.serve ticket command rest reply := by
  unfold step at hq
  dsimp only at hq
  split at hq
  next ticket command rest hw hc =>
    obtain ⟨hne, heq⟩ := guarded hq
    exact ⟨ticket, command, rest, hw, hc, hne, heq.symm⟩
  next => cases hq

lemma step_flush {batch : List ResizeRequest} (hq : step p (.flush batch) = some q) : ∃ ticket rest, p.worker = .ready ∧
    p.commands = (ticket, .flushResizes) :: rest ∧ batch.Perm (p.pending.entries.map Prod.snd) ∧
      q = { p with commands := rest, pending := ∅, worker := .delivering batch } := by
  unfold step at hq
  dsimp only at hq
  split at hq
  next ticket rest hw hc =>
    obtain ⟨hperm, heq⟩ := guarded hq
    exact ⟨ticket, rest, hw, hc, hperm, heq.symm⟩
  next => cases hq

lemma step_deliver (hq : step p .deliver = some q) : ∃ r rest, p.worker = .delivering (r :: rest) ∧
    q = { p with worker := .delivering rest, sent := r :: p.sent } := by
  unfold step at hq
  dsimp only at hq
  split at hq
  next r rest hw => exact ⟨r, rest, hw, (Option.some.inj hq).symm⟩
  next => cases hq

/-- **Step**: the command that wakes the worker is there exactly when the shim says so. -/
lemma Flow.step (h : p.Flow) {e : Event} (hq : step p e = some q) : q.Flow := by
  cases e with
  | connect =>
    obtain ⟨-, rfl⟩ := guarded hq
    exact Flow.send (p := { p with connected := true }) ⟨h.flushes, h.queued⟩ nofun
  | resize paneId cols rows =>
    obtain ⟨-, rfl⟩ := guarded hq
    exact h.resize paneId cols rows
  | call command =>
    obtain ⟨⟨-, -, hc⟩, rfl⟩ := guarded hq
    have hsend : (p.send command).Flow := h.send fun heq => by rw [heq] at hc; cases hc
    exact ⟨hsend.flushes, hsend.queued⟩
  | handle =>
    obtain ⟨ticket, command, reply, -, rfl⟩ := step_handle hq
    exact Flow.handle (p := { p with call := none }) ⟨h.flushes, h.queued⟩ command reply
  | timeout =>
    obtain ⟨ticket, command, -, -, rfl⟩ := step_timeout hq
    exact ⟨h.flushes, h.queued⟩
  | post =>
    obtain ⟨-, rfl⟩ := guarded hq
    exact h.send nofun
  | destroy paneId =>
    obtain ⟨-, rfl⟩ := guarded hq
    exact h.destroy paneId
  | kill sessionId =>
    obtain ⟨-, rfl⟩ := guarded hq
    exact (h.unmap sessionId).send nofun
  | destroyAll sessionIds =>
    obtain ⟨-, rfl⟩ := guarded hq
    have hclear : Flow { p with paneSizes := ∅, pending := ∅, sessions := ∅ } := ⟨h.flushes, nofun⟩
    unfold Shim.destroyAll
    dsimp only
    split_ifs
    · exact hclear.sendAll sessionIds
    · exact ⟨h.flushes, h.queued⟩
  | serve reply =>
    obtain ⟨ticket, command, rest, -, hc, hne, rfl⟩ := step_serve hq
    exact h.taken hc hne rfl rfl rfl rfl
  | flush batch =>
    obtain ⟨ticket, rest, hw, hc, -, rfl⟩ := step_flush hq
    refine ⟨?_, nofun⟩
    have hflushes := h.flushes
    unfold Shim.flushes at hflushes ⊢
    rw [hc, hw, List.countP_cons_of_pos (by rfl), if_pos rfl] at hflushes
    exact hflushes
  | deliver =>
    obtain ⟨r, rest, hw, rfl⟩ := step_deliver hq
    refine ⟨?_, h.queued⟩
    have hflushes := h.flushes
    unfold Shim.flushes at hflushes ⊢
    rw [hw] at hflushes
    exact hflushes
  | finish =>
    obtain ⟨hw, rfl⟩ := guarded hq
    exact h.finish hw
  | follow =>
    obtain ⟨hw, rfl⟩ := guarded hq
    refine ⟨?_, h.queued⟩
    have hflushes := h.flushes
    unfold Shim.flushes at hflushes
    rw [hw, if_neg nofun] at hflushes
    rw [flushes_send, if_pos rfl]
    exact hflushes

/-! ## the calls that wait -/

/-- every queued command that gives a pane a session is that of the call that waits -/
structure Calls (p : Shim) : Prop where
  increasing : p.commands.Pairwise (·.1 < ·.1)
  bound : ∀ e ∈ p.commands, e.1 < p.tickets
  waiting : ∀ c, p.call = some c → c.ticket < p.tickets
  own : ∀ e ∈ p.commands, ∀ c, p.call = some c → c.ticket = e.1 → c.command = e.2
  geometry : ∀ e ∈ p.commands, e.2.geometry ≠ none → p.call = some ⟨e.1, e.2, none⟩

lemma Calls.of_eq (h : p.Calls) (hc : q.commands = p.commands) (ht : q.tickets = p.tickets) (hcall : q.call = p.call) :
    q.Calls where
  increasing := hc ▸ h.increasing
  bound := by rw [hc, ht]; exact h.bound
  waiting := by rw [hcall, ht]; exact h.waiting
  own := by rw [hc, hcall]; exact h.own
  geometry := by rw [hc, hcall]; exact h.geometry

lemma pairwise_send (h : p.Calls) (command : Command) : (p.send command).commands.Pairwise (·.1 < ·.1) := by
  refine List.pairwise_append.mpr ⟨h.increasing, List.pairwise_singleton _ _, fun e he f hf => ?_⟩
  rw [List.mem_singleton.mp hf]
  exact h.bound e he

lemma bound_send (h : p.Calls) (command : Command) : ∀ e ∈ (p.send command).commands, e.1 < (p.send command).tickets := by
  intro e he
  show e.1 < p.tickets + 1
  rcases List.mem_append.mp he with hold | hnew
  · exact Nat.lt_succ_of_lt (h.bound e hold)
  · rw [List.mem_singleton.mp hnew]
    exact Nat.lt_succ_self _

lemma Calls.send (h : p.Calls) {command : Command} (hc : command.geometry = none) : (p.send command).Calls where
  increasing := pairwise_send h command
  bound := bound_send h command
  waiting c hcall := Nat.lt_succ_of_lt (h.waiting c hcall)
  own e he c hcall ht := by
    rcases List.mem_append.mp he with hold | hnew
    · exact h.own e hold c hcall ht
    · rw [List.mem_singleton.mp hnew] at ht
      exact absurd ht (Nat.ne_of_lt (h.waiting c hcall))
  geometry e he hgeo := by
    rcases List.mem_append.mp he with hold | hnew
    · exact h.geometry e hold hgeo
    · rw [List.mem_singleton.mp hnew] at hgeo
      exact absurd hc hgeo

lemma Calls.request (h : p.Calls) (hcall : p.call = none) (command : Command) : (p.request command).Calls where
  increasing := pairwise_send h command
  bound := bound_send h command
  waiting c hc := by
    cases hc
    exact Nat.lt_succ_self _
  own e he c hc ht := by
    cases hc
    rcases List.mem_append.mp he with hold | hnew
    · exact absurd ht.symm (Nat.ne_of_lt (h.bound e hold))
    · rw [List.mem_singleton.mp hnew]
  geometry e he hgeo := by
    rcases List.mem_append.mp he with hold | hnew
    · have hwait := h.geometry e hold hgeo
      rw [hcall] at hwait
      cases hwait
    · rw [List.mem_singleton.mp hnew]
      rfl

/-- a call that no queued command gives a session to is over -/
lemma Calls.over (h : p.Calls) {ticket : Nat} {command : Command} {reply : Option Reply}
    (hcall : p.call = some ⟨ticket, command, reply⟩) (hc : reply = none → command.geometry = none) :
    Calls { p with call := none } where
  increasing := h.increasing
  bound := h.bound
  waiting c hc := by cases hc
  own e _ c hc _ := by cases hc
  geometry e he hgeo := by
    have hwait := h.geometry e he hgeo
    rw [hcall] at hwait
    cases hwait
    exact absurd (hc rfl) hgeo

lemma Calls.serve (h : p.Calls) {ticket : Nat} {command : Command} {rest : List (Nat × Command)}
    (hc : p.commands = (ticket, command) :: rest) (reply : Reply) : (p.serve ticket command rest reply).Calls := by
  have hall := List.pairwise_cons.mp (hc ▸ h.increasing)
  have hmem : ∀ e ∈ rest, e ∈ p.commands := fun e he => hc ▸ List.mem_cons_of_mem _ he
  refine ⟨hall.2, fun e he => h.bound e (hmem e he), ?_, ?_, ?_⟩
  · intro c hcall
    obtain ⟨d, hd, rfl⟩ := Option.map_eq_some_iff.mp hcall
    have hlt := h.waiting d hd
    split_ifs <;> exact hlt
  · intro e he c hcall ht
    obtain ⟨d, hd, rfl⟩ := Option.map_eq_some_iff.mp hcall
    have hown := h.own e (hmem e he) d hd
    split_ifs at ht ⊢ <;> exact hown ht
  · intro e he hgeo
    show p.call.map _ = _
    rw [h.geometry e (hmem e he) hgeo, Option.map_some, if_neg (Nat.ne_of_gt (hall.1 e he))]

lemma Calls.enqueue (h : p.Calls) (r : ResizeRequest) : (p.enqueueLatestResize r).Calls := by
  have hinsert : Calls { p with pending := p.pending.insert r.paneId r } := h.of_eq rfl rfl rfl
  have hqueued : Calls { p with pending := p.pending.insert r.paneId r, flushQueued := true } := h.of_eq rfl rfl rfl
  unfold enqueueLatestResize
  dsimp only
  split_ifs
  · exact hinsert
  · exact hqueued.send rfl

lemma Calls.handle (h : p.Calls) (command : Command) (reply : Reply) : (p.handle command reply).Calls := by
  have hreplace : ∀ paneId sessionId, (p.replacePaneSession paneId sessionId).Calls := by
    intro paneId sessionId
    unfold replacePaneSession
    split
    · exact h.of_eq rfl rfl rfl
    · exact h.of_eq rfl rfl rfl
  have hpush : ∀ {q : Shim}, q.Calls → ∀ paneId sessionId spawnedWith,
      (q.pushRecordedSize paneId sessionId spawnedWith).Calls := by
    intro q hq paneId sessionId spawnedWith
    unfold pushRecordedSize
    split
    · exact hq
    · split
      · exact hq
      · exact hq.enqueue _
  unfold Shim.handle
  split
  · exact hpush (hreplace _ _) _ _ _
  · exact hpush (hreplace _ _) _ _ _
  · exact hpush (hreplace _ _) _ _ _
  · exact h.of_eq rfl rfl rfl
  · exact h.of_eq rfl rfl rfl
  · exact h

lemma Calls.resize (h : p.Calls) (paneId cols rows : Nat) : (p.resize paneId cols rows).Calls := by
  have hsize : Calls { p with paneSizes := p.paneSizes.insert paneId (cols, rows) } := h.of_eq rfl rfl rfl
  obtain ⟨sessionId, -, heq⟩ | ⟨heq, -⟩ := resize_cases p paneId cols rows
  · rw [heq]
    exact hsize.enqueue _
  · rw [heq]
    exact hsize

lemma Calls.sendAll (h : p.Calls) (sessionIds : List Nat) :
    (sessionIds.foldl (fun q sessionId => q.send (.kill sessionId)) p).Calls := by
  induction sessionIds generalizing p with
  | nil => exact h
  | cons sessionId sessionIds ih => exact ih (h.send rfl)

/-- **Step**: the calls and their commands belong together. -/
lemma Calls.step (h : p.Calls) {e : Event} (hq : step p e = some q) : q.Calls := by
  cases e with
  | connect =>
    obtain ⟨-, rfl⟩ := guarded hq
    have hon : Calls { p with connected := true } := h.of_eq rfl rfl rfl
    exact hon.send rfl
  | resize paneId cols rows =>
    obtain ⟨-, rfl⟩ := guarded hq
    exact h.resize paneId cols rows
  | call command =>
    obtain ⟨⟨hcall, -, -⟩, rfl⟩ := guarded hq
    exact h.request hcall command
  | handle =>
    obtain ⟨ticket, command, reply, hcall, rfl⟩ := step_handle hq
    exact (h.over hcall nofun).handle command reply
  | timeout =>
    obtain ⟨ticket, command, hcall, hgeo, rfl⟩ := step_timeout hq
    exact h.over hcall fun _ => hgeo
  | post =>
    obtain ⟨-, rfl⟩ := guarded hq
    exact h.send rfl
  | destroy paneId =>
    obtain ⟨-, rfl⟩ := guarded hq
    have hgone : Calls { p with
        paneSizes := p.paneSizes.remove paneId
        pending := p.pending.remove paneId
        sessions := p.sessions.remove paneId } := h.of_eq rfl rfl rfl
    unfold Shim.destroy
    dsimp only
    split_ifs
    · split
      · exact hgone.send rfl
      · exact h.of_eq rfl rfl rfl
    · exact h.of_eq rfl rfl rfl
  | kill sessionId =>
    obtain ⟨-, rfl⟩ := guarded hq
    have hunmap : (p.unmapSession sessionId).Calls := h.of_eq rfl rfl rfl
    exact hunmap.send rfl
  | destroyAll sessionIds =>
    obtain ⟨-, rfl⟩ := guarded hq
    have hclear : Calls { p with paneSizes := ∅, pending := ∅, sessions := ∅ } := h.of_eq rfl rfl rfl
    unfold Shim.destroyAll
    dsimp only
    split_ifs
    · exact hclear.sendAll sessionIds
    · exact h.of_eq rfl rfl rfl
  | serve reply =>
    obtain ⟨ticket, command, rest, -, hc, -, rfl⟩ := step_serve hq
    exact h.serve hc reply
  | flush batch =>
    obtain ⟨ticket, rest, -, hc, -, rfl⟩ := step_flush hq
    have hmem : ∀ e ∈ rest, e ∈ p.commands := fun e he => hc ▸ List.mem_cons_of_mem _ he
    exact ⟨(List.pairwise_cons.mp (hc ▸ h.increasing)).2, fun e he => h.bound e (hmem e he), h.waiting,
      fun e he => h.own e (hmem e he), fun e he => h.geometry e (hmem e he)⟩
  | deliver =>
    obtain ⟨r, rest, -, rfl⟩ := step_deliver hq
    exact h.of_eq rfl rfl rfl
  | finish =>
    obtain ⟨-, rfl⟩ := guarded hq
    unfold Shim.finish
    split_ifs <;> exact h.of_eq rfl rfl rfl
  | follow =>
    obtain ⟨-, rfl⟩ := guarded hq
    have hready : Calls { p with worker := .ready } := h.of_eq rfl rfl rfl
    exact hready.send rfl

end Shim

end TerminalManager.Pty
