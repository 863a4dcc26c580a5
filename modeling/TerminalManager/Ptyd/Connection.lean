import Mathlib.Data.List.Basic
import TerminalManager.Lib.Transition
import TerminalManager.Ptyd.Frame

/-!
# One connection of the daemon

The tasks that write to one connection (`daemon/handler.rs`): the handler, which serves one
request at a time, and a `forward_output` task for each attachment.  They share the write half
through a mutex, taken by whoever asks when it is free.  A `write_all` may be suspended with any
part of its frame written, and an aborted task stops where it is suspended, which drops its guard.

* `Connection.step`   the interleavings;
* `wire`              the bytes the socket has accepted: the frames begun so far, in the order in
                      which they got the writer, each up to the byte reached;
* `wire_framed`       **main result**: the wire is a prefix of whole frames, as long as no abort
                      hits a forwarder in the middle of a frame;
* `torn_frame`        a run in which one does.
-/

namespace TerminalManager.Ptyd
open Transition LittleEndian

abbrev TaskId := Nat

/-- a request of the client, as far as the wire can tell -/
inductive Request
  /-- `EnsureSession` and `AttachSession`, accepted: the forwarders this connection has for the
  session are aborted, a new one is spawned, and the response follows -/
  | attach (sessionId token : Nat)
  /-- `SpawnSession`, accepted: as an attach, but no forwarder is aborted -/
  | spawn (sessionId token : Nat)
  /-- `DetachSession` and `KillSession`: the forwarders of the session are aborted -/
  | drop (sessionId : Nat)
  /-- any other request, and any refusal -/
  | plain
  deriving DecidableEq, Repr

namespace Connection

/-- what a frame on the wire is for -/
inductive Tag
  /-- the response to a request, with the forwarder of the attachment it announces -/
  | response (attached : Option TaskId)
  | output (task : TaskId) (chunk : List UInt8)
  deriving DecidableEq, Repr

/-- a frame that was begun, and how much of it was accepted -/
structure Sent where
  tag : Tag
  frame : List UInt8
  written : Nat
  encoded : IsFrame frame

def Sent.bytes (f : Sent) : List UInt8 := f.frame.take f.written

/-- written whole, or not at all -/
def Sent.Clean (f : Sent) : Prop := f.written = 0 ∨ f.frame.length ≤ f.written

instance (f : Sent) : Decidable f.Clean := inferInstanceAs (Decidable (_ ∨ _))

/-- a `forward_output` task -/
inductive ForwarderPc
  /-- the channel exists, the task does not yet -/
  | unspawned
  /-- `rx.recv().await` -/
  | receiving
  /-- `writer.lock().await` -/
  | locking (chunk : List UInt8)
  /-- it holds the writer -/
  | writing
  | ended
  deriving DecidableEq, Repr

structure Forwarder where
  sessionId : Nat
  token : Nat
  queue : List (List UInt8)
  pc : ForwarderPc
  deriving DecidableEq, Repr

inductive Owner
  | handler
  | forwarder (task : TaskId)
  deriving DecidableEq, Repr

/-- where the handler is in a request; `response` is the JSON it will send -/
inductive HandlerPc
  | idle
  /-- `abort_forwarders_for_session`; then the forwarder of the new attachment, if any -/
  | aborting (tasks : List TaskId) (attached : Option TaskId) (response : List UInt8)
  | locking (attached : Option TaskId) (response : List UInt8)
  | writing
  /-- an error was passed up: the connection is torn down -/
  | closed
  deriving DecidableEq, Repr

/-- a chunk put on the channel of a task, when `begun` frames had been begun -/
structure Offered where
  task : TaskId
  chunk : List UInt8
  begun : Nat
  deriving DecidableEq, Repr

end Connection

open Connection

structure Connection where
  handler : HandlerPc
  /-- all forwarder tasks there ever were -/
  tasks : List Forwarder
  /-- the map of the handler: the tasks it has a handle of -/
  forwarders : List TaskId
  writer : Option Owner
  /-- the frames begun, the latest first -/
  sent : List Sent
  /-- the chunks put on channels, the latest first -/
  offered : List Offered

namespace Connection

def start : Connection := ⟨.idle, [], [], none, [], []⟩

/-- the bytes the socket has accepted -/
def wire (c : Connection) : List UInt8 := c.sent.reverse.flatMap Sent.bytes

inductive Event
  /-- the handler reads a request, the registry has answered; `response` is the JSON to send -/
  | request (r : Request) (response : List UInt8)
  | abort
  | proceed
  | lockHandler
  | finishHandler
  | offer (task : TaskId) (chunk : List UInt8)
  | receive (task : TaskId)
  | lockForwarder (task : TaskId)
  | finishForwarder (task : TaskId)
  /-- the sender was dropped and the queue is empty -/
  | endForwarder (task : TaskId)
  /-- the socket accepts `n` more bytes of whoever holds the writer -/
  | accept (n : Nat)
  deriving DecidableEq, Repr

/-- the handles the handler has for the session -/
def handlesOf (c : Connection) (sessionId : Nat) : List TaskId :=
  c.forwarders.filter fun t => (c.tasks[t]?).any fun f => f.sessionId = sessionId

def setTask (c : Connection) (t : TaskId) (f : Forwarder → Forwarder) : Connection :=
  { c with tasks := c.tasks.modify t f }

def setPc (c : Connection) (t : TaskId) (pc : ForwarderPc) : Connection :=
  c.setTask t fun f => { f with pc := pc }

def pcOf (c : Connection) (t : TaskId) : Option ForwarderPc := c.tasks[t]?.map Forwarder.pc

/-- a map insert: a handle under the same key is forgotten, its task runs on -/
def insertHandle (c : Connection) (t : TaskId) : Connection :=
  let key := c.tasks[t]?.map fun f => (f.sessionId, f.token)
  { c with
    forwarders := t :: c.forwarders.filter fun u =>
      decide ((c.tasks[u]?.map fun f => (f.sessionId, f.token)) ≠ key) }

/-- the frame is encoded and its bytes are about to be written -/
def begin? (c : Connection) (owner : Owner) (tag : Tag) (kind : UInt8) (payload : List UInt8) :
    Option Connection :=
  match h : encodeFrame kind payload with
  | .ok frame =>
    some { c with writer := some owner, sent := ⟨tag, frame, 0, kind, payload, h⟩ :: c.sent }
  | .error _ => none

/-- the last frame begun is written to its end -/
def finished (c : Connection) : Bool := c.sent.head?.all fun f => f.frame.length ≤ f.written

def step (c : Connection) : Event → Option Connection
  | .request r response =>
    match c.handler, r with
    | .idle, .attach sessionId token =>
      some { c with
        tasks := c.tasks ++ [⟨sessionId, token, [], .unspawned⟩]
        handler := .aborting (c.handlesOf sessionId) (some c.tasks.length) response }
    | .idle, .spawn sessionId token =>
      some { c with
        tasks := c.tasks ++ [⟨sessionId, token, [], .unspawned⟩]
        handler := .aborting [] (some c.tasks.length) response }
    | .idle, .drop sessionId =>
      some { c with handler := .aborting (c.handlesOf sessionId) none response }
    | .idle, .plain => some { c with handler := .locking none response }
    | _, _ => none
  | .abort =>
    match c.handler with
    | .aborting (t :: ts) attached response =>
      some { c.setPc t .ended with
        writer := if c.writer = some (.forwarder t) then none else c.writer
        forwarders := c.forwarders.filter fun u => decide (u ≠ t)
        handler := .aborting ts attached response }
    | _ => none
  | .proceed =>
    match c.handler with
    | .aborting [] (some t) response =>
      some { (c.setPc t .receiving).insertHandle t with handler := .locking (some t) response }
    | .aborting [] none response => some { c with handler := .locking none response }
    | _ => none
  | .lockHandler =>
    match c.handler, c.writer with
    | .locking attached response, none =>
      match c.begin? .handler (.response attached) kindControl response with
      | some d => some { d with handler := .writing }
      | none => some { c with handler := .closed }
    | _, _ => none
  | .finishHandler =>
    match c.handler, c.writer with
    | .writing, some .handler =>
      if c.finished then some { c with writer := none, handler := .idle } else none
    | _, _ => none
  | .offer t chunk =>
    match c.pcOf t with
    | none => none
    | some .ended => none
    | some _ =>
      some { c.setTask t fun f => { f with queue := f.queue ++ [chunk] } with
        offered := ⟨t, chunk, c.sent.length⟩ :: c.offered }
  | .receive t =>
    match c.tasks[t]? with
    | some ⟨_, _, x :: queue, .receiving⟩ =>
      some (c.setTask t fun f => { f with queue := queue, pc := .locking x })
    | _ => none
  | .lockForwarder t =>
    match c.tasks[t]?, c.writer with
    | some ⟨sessionId, _, _, .locking chunk⟩, none =>
      match c.begin? (.forwarder t) (.output t chunk) kindOutput (outputPayload sessionId chunk) with
      | some d => some (d.setPc t .writing)
      | none => some (c.setPc t .ended)
    | _, _ => none
  | .finishForwarder t =>
    if c.writer = some (.forwarder t) ∧ c.finished then
      some { c.setPc t .receiving with writer := none }
    else none
  | .endForwarder t =>
    match c.tasks[t]? with
    | some ⟨_, _, [], .receiving⟩ => some (c.setPc t .ended)
    | _ => none
  | .accept n =>
    match c.writer, c.sent with
    | some _, f :: l =>
      if f.written + n ≤ f.frame.length then
        some { c with sent := { f with written := f.written + n } :: l }
      else none
    | _, _ => none

/-! ## framing -/

/-- every frame but the one the holder of the writer is at is clean -/
def Framing (c : Connection) : Prop :=
  (∀ f ∈ c.sent.tail, f.Clean) ∧ (c.writer = none → ∀ f ∈ c.sent, f.Clean)

lemma bytes_clean {f : Sent} (h : f.Clean) : f.bytes = [] ∨ f.bytes = f.frame := by
  rcases h with h | h
  · left
    rw [Sent.bytes, h, List.take_zero]
  · exact .inr (List.take_of_length_le h)

/-- clean frames are whole frames, those not begun left out -/
lemma framed_clean {l : List Sent} (h : ∀ f ∈ l, f.Clean) {rest : List UInt8} (hr : Framed rest) :
    Framed (l.flatMap Sent.bytes ++ rest) := by
  induction l with
  | nil => exact hr
  | cons f l ih =>
    have hl := ih fun g hg => h g (List.mem_cons_of_mem f hg)
    rw [List.flatMap_cons, List.append_assoc]
    rcases bytes_clean (h f List.mem_cons_self) with e | e
    · rw [e]
      exact hl
    · rw [e]
      obtain ⟨frames, hf, t, ht⟩ := hl
      refine ⟨f.frame :: frames, ?_, t, ?_⟩
      · intro g hg
        rcases List.mem_cons.mp hg with rfl | hg
        · exact f.encoded
        · exact hf g hg
      · rw [List.flatten_cons, ← ht]
        simp only [List.append_assoc]

lemma Framing.framed {c : Connection} (h : c.Framing) : Framed c.wire := by
  unfold wire
  cases hs : c.sent with
  | nil => exact ⟨[], fun f hf => absurd hf List.not_mem_nil, List.nil_prefix⟩
  | cons f l =>
    have hl : ∀ g ∈ l.reverse, g.Clean := fun g hg =>
      h.1 g (by rw [hs]; exact List.mem_reverse.mp hg)
    rw [List.reverse_cons, List.flatMap_append]
    refine framed_clean hl ⟨[f.frame], fun g hg => ?_, ?_⟩
    · rw [List.mem_singleton.mp hg]
      exact f.encoded
    · rw [List.flatMap_singleton, List.flatten_singleton]
      exact List.take_prefix _ _

/-- the forwarder holds the writer, and its frame is partly written -/
def midFrame (c : Connection) (t : TaskId) : Bool :=
  decide (c.writer = some (.forwarder t)) && c.sent.head?.any fun f => !decide f.Clean

/-- the forwarder the handler aborts next -/
def nextAbort (c : Connection) : Option TaskId :=
  match c.handler with
  | .aborting (t :: _) _ _ => some t
  | _ => none

/-- no abort hits a forwarder in the middle of a frame -/
def AbortsBetweenFrames (c : Connection) (e : Event) : Prop :=
  e = .abort → ∀ t ∈ c.nextAbort, ¬ c.midFrame t

instance (c : Connection) (e : Event) : Decidable (c.AbortsBetweenFrames e) :=
  inferInstanceAs (Decidable (e = .abort → ∀ t ∈ c.nextAbort, ¬ c.midFrame t))

lemma clean_of_not_midFrame {c : Connection} {t : TaskId} (h : ¬ c.midFrame t)
    (hw : c.writer = some (.forwarder t)) : ∀ f ∈ c.sent.head?, f.Clean := by
  intro f hf
  unfold midFrame at h
  rw [hw, hf] at h
  simpa using h

@[simp] lemma setPc_sent (c : Connection) (t : TaskId) (pc : ForwarderPc) :
    (c.setPc t pc).sent = c.sent := rfl

@[simp] lemma setPc_writer (c : Connection) (t : TaskId) (pc : ForwarderPc) :
    (c.setPc t pc).writer = c.writer := rfl

lemma Framing.of_eq {c d : Connection} (h : c.Framing) (hs : d.sent = c.sent)
    (hw : d.writer = none → c.writer = none) : d.Framing := by
  unfold Framing
  rw [hs]
  exact ⟨h.1, fun e => h.2 (hw e)⟩

/-- the writer is given back after a clean frame -/
lemma Framing.release {c d : Connection} (h : c.Framing) (hs : d.sent = c.sent)
    (hc : ∀ f ∈ c.sent.head?, f.Clean) : d.Framing := by
  unfold Framing
  rw [hs]
  refine ⟨h.1, fun _ f hf => ?_⟩
  cases hl : c.sent with
  | nil =>
    rw [hl] at hf
    cases hf
  | cons g l =>
    rw [hl] at hf
    rcases List.mem_cons.mp hf with rfl | hf
    · exact hc f (by rw [hl]; rfl)
    · exact h.1 f (by rw [hl]; exact hf)

lemma finished_clean {c : Connection} (h : c.finished = true) : ∀ f ∈ c.sent.head?, f.Clean := by
  intro f hf
  unfold finished at h
  rw [hf] at h
  exact .inr (of_decide_eq_true h)

lemma begin?_some {c d : Connection} {owner : Owner} {tag : Tag} {kind : UInt8}
    {payload : List UInt8} (h : c.begin? owner tag kind payload = some d) :
    ∃ f : Sent, f.tag = tag ∧ f.written = 0 ∧
      d = { c with writer := some owner, sent := f :: c.sent } := by
  unfold begin? at h
  split at h
  · cases h
    exact ⟨_, rfl, rfl, rfl⟩
  · cases h

/-- a new frame, begun by whoever found the writer free -/
lemma Framing.begin? {c d : Connection} (h : c.Framing) (hw : c.writer = none) {owner : Owner}
    {tag : Tag} {kind : UInt8} {payload : List UInt8}
    (hd : c.begin? owner tag kind payload = some d) : d.Framing ∧ d.writer = some owner := by
  obtain ⟨f, -, -, rfl⟩ := begin?_some hd
  exact ⟨⟨h.2 hw, fun e => by cases e⟩, rfl⟩

/-- **Every step keeps the framing**, an abort only between two frames. -/
theorem step_framing {c d : Connection} {e : Event} (h : c.Framing) (hC : c.AbortsBetweenFrames e)
    (he : c.step e = some d) : d.Framing := by
  cases e with
  | request r response =>
    simp only [step] at he
    split at he <;> cases he <;> exact h.of_eq rfl fun e => e
  | abort =>
    simp only [step] at he
    split at he
    · rename_i t ts attached response hh
      cases he
      by_cases hw : c.writer = some (.forwarder t)
      · have hn : c.nextAbort = some t := by
          rw [nextAbort, hh]
        exact h.release rfl (clean_of_not_midFrame (hC rfl t hn) hw)
      · refine h.of_eq rfl fun e => ?_
        have e' : (if c.writer = some (.forwarder t) then none else c.writer) = none := e
        rwa [if_neg hw] at e'
    · cases he
  | proceed =>
    simp only [step] at he
    split at he
    · cases he
      exact h.of_eq rfl fun e => e
    · cases he
      exact h.of_eq rfl fun e => e
    · cases he
  | lockHandler =>
    simp only [step] at he
    split at he
    · rename_i attached response hh hw
      split at he
      · rename_i d' hb
        cases he
        obtain ⟨hd, hdw⟩ := h.begin? hw hb
        exact hd.of_eq rfl fun e => e
      · cases he
        exact h.of_eq rfl fun e => e
    · cases he
  | finishHandler =>
    simp only [step] at he
    split at he
    · split at he
      · rename_i hf
        cases he
        exact h.release rfl (finished_clean hf)
      · cases he
    · cases he
  | offer t chunk =>
    simp only [step] at he
    split at he
    · cases he
    · cases he
    · cases he
      exact h.of_eq rfl fun e => e
  | receive t =>
    simp only [step] at he
    split at he
    · cases he
      exact h.of_eq rfl fun e => e
    · cases he
  | lockForwarder t =>
    simp only [step] at he
    split at he
    · rename_i sessionId token queue chunk hh hw
      split at he
      · rename_i d' hb
        cases he
        obtain ⟨hd, -⟩ := h.begin? hw hb
        exact hd.of_eq rfl fun e => e
      · cases he
        exact h.of_eq rfl fun e => e
    · cases he
  | finishForwarder t =>
    simp only [step] at he
    split at he
    · rename_i hf
      cases he
      exact h.release rfl (finished_clean hf.2)
    · cases he
  | endForwarder t =>
    simp only [step] at he
    split at he
    · cases he
      exact h.of_eq rfl fun e => e
    · cases he
  | accept n =>
    simp only [step] at he
    split at he
    · rename_i o f l hw hs
      split at he
      · cases he
        refine ⟨?_, fun e => ?_⟩
        · have ht := h.1
          rw [hs] at ht
          exact ht
        · have e' : c.writer = none := e
          rw [hw] at e'
          cases e'
      · cases he
    · cases he

lemma framing_start : start.Framing :=
  ⟨fun _ hf => absurd hf List.not_mem_nil, fun _ _ hf => absurd hf List.not_mem_nil⟩

/-- **Frames do not interleave.**  In every run in which no abort hits a forwarder in the middle
of a frame, the wire is at all times a prefix of whole frames. -/
theorem wire_framed {es : List Event} {c : Connection}
    (hC : Along step AbortsBetweenFrames start es) (h : exec step start es = some c) :
    Framed c.wire :=
  Framing.framed (exec_guarded (fun _ _ _ hs hC he => step_framing hs hC he) framing_start hC h)

/-! ### a torn frame -/

/-- the bytes of a text of ASCII characters -/
def ascii (s : String) : List UInt8 := s.toList.map fun c => UInt8.ofNat c.toNat

def spawnedJson : List UInt8 :=
  ascii "\x7b\"kind\":\"session_spawned\",\"id\":6,\"session_id\":1,\"hook_capability\":\"00\"\x7d"

def ackJson : List UInt8 := ascii "\x7b\"kind\":\"ack\",\"id\":7\x7d"

/-- `SpawnSession` is answered, and the forwarder takes the writer for a chunk of one byte -/
def spawnAndForward : List Event :=
  [.request (.spawn 1 1) spawnedJson, .proceed, .lockHandler, .accept 76, .finishHandler,
    .offer 0 [104], .receive 0, .lockForwarder 0]

/-- `DetachSession`: the forwarder is aborted, and the acknowledgement is written -/
def detachAndAck : List Event := [.request (.drop 1) ackJson, .abort, .proceed, .lockHandler, .accept 26]

theorem wire_framed_detach : ∃ c,
    exec step start (spawnAndForward ++ [.accept 14, .finishForwarder 0] ++ detachAndAck) = some c ∧
      c.wire.length = 116 ∧ Framed c.wire := by
  refine ⟨_, rfl, by decide, ?_⟩
  have hC : Along step AbortsBetweenFrames start
      (spawnAndForward ++ [.accept 14, .finishForwarder 0] ++ detachAndAck) := by decide
  exact wire_framed hC rfl

/-- the socket accepts two bytes of the output frame before the forwarder is aborted -/
theorem torn_frame : ∃ c, exec step start (spawnAndForward ++ [.accept 2] ++ detachAndAck) = some c ∧
    ¬ Framed c.wire := by
  refine ⟨_, rfl, fun h => ?_⟩
  -- the whole response, two bytes of the output frame, the acknowledgement
  have hw : ((exec step start (spawnAndForward ++ [.accept 2] ++ detachAndAck)).map wire) =
      some ((leBytes 4 72 ++ kindControl :: spawnedJson) ++
        ([10, 0] ++ (leBytes 4 22 ++ kindControl :: ackJson))) := by decide
  rw [Option.some.inj hw] at h
  obtain ⟨n, hn⟩ := (h.rest ⟨kindControl, spawnedJson, by decide⟩).decodeLength
    (by decide)
  have hbad : Ptyd.decodeLength (([10, 0] ++ (leBytes 4 22 ++ kindControl :: ackJson)).take 4) =
      .error (.frameTooLarge 1441802 maxFrameLen) := by decide
  rw [show lenPrefixSize = 4 from rfl, hbad] at hn
  cases hn

end Connection
end TerminalManager.Ptyd
