import TerminalManager.Lib.Table
import TerminalManager.Lib.Transition

/-!
# The output of a session on its way to its terminal

The daemon sends the output of every session in chunks.  A session with a sink has its chunks put on the channel of the
sink; those of a session without one wait, the oldest of some session making room when too many bytes wait.  A reader
thread cuts the chunks of the channel to the size of its buffer and hands them over through a bounded channel, and the
terminal takes them in batches.

* `Routes.evict`, `push`, `install`, `remove`   the chunks that wait and the sinks;
* `Reader.read`           the reader of a channel;
* `step`                  a step of the daemon, the worker, a reader thread or a terminal;
* `outputsSince`          the output of a session since its sink was last set or taken away.
-/

namespace TerminalManager.Pty.Output
open Transition

abbrev Chunk := List UInt8

def size (chunks : List Chunk) : Nat := (chunks.map List.length).sum

def maxPendingBytes : Nat := 512 * 1024

def maxPendingChunksPerSession : Nat := 128

/-- `OutputRoutes`; a sink is the number of its channel -/
structure Routes where
  sinks : Table Nat Nat := ∅
  pending : Table Nat (List Chunk) := ∅
  pendingBytes : Nat := 0
deriving DecidableEq, Repr

namespace Routes
variable (r : Routes)

/-- the oldest chunk of a session makes room -/
def popFront (sessionId : Nat) : Routes :=
  match r.pending.get sessionId with
  | some (chunk :: rest) =>
    { r with
      pending := if rest.isEmpty then r.pending.remove sessionId else r.pending.insert sessionId rest
      pendingBytes := r.pendingBytes - chunk.length }
  | some [] => { r with pending := r.pending.remove sessionId }
  | none => r

/-- `victims` are the sessions that the hash map yields first, one after the other -/
def evict (r : Routes) (len : Nat) : List Nat → Option Routes
  | [] => if maxPendingBytes < r.pendingBytes + len ∧ r.pending.isEmpty = false then none else some r
  | sessionId :: victims =>
    if maxPendingBytes < r.pendingBytes + len ∧ r.pending.contains sessionId = true then
      evict (r.popFront sessionId) len victims
    else none

def push (sessionId : Nat) (bytes : Chunk) : Routes :=
  let queue := (r.pending.get sessionId).getD []
  let q := if maxPendingChunksPerSession ≤ queue.length then
      { r with pendingBytes := r.pendingBytes - (queue.head?.getD []).length }
    else r
  let kept := if maxPendingChunksPerSession ≤ queue.length then queue.tail else queue
  { q with pending := q.pending.insert sessionId (kept ++ [bytes]), pendingBytes := q.pendingBytes + bytes.length }

/-- a chunk of a session without a sink -/
def hold (sessionId : Nat) (bytes : Chunk) (victims : List Nat) : Option Routes :=
  if maxPendingBytes < bytes.length then if victims = [] then some r else none
  else (r.evict bytes.length victims).map fun q => q.push sessionId bytes

/-- the chunks that wait for a session -/
def waiting (sessionId : Nat) : List Chunk := (r.pending.get sessionId).getD []

/-- what waits for a session is taken -/
def take (sessionId : Nat) : Routes :=
  { r with
    pending := r.pending.remove sessionId
    pendingBytes := r.pendingBytes - size (r.waiting sessionId) }

/-- `remove_output_route` -/
def remove (sessionId : Nat) : Routes := { r.take sessionId with sinks := r.sinks.remove sessionId }

end Routes

/-! ## the reader of a channel -/

/-- `ChannelReader`; `queue` is what is on the channel -/
structure Reader where
  queue : List Chunk := []
  leftover : Chunk := []
  offset : Nat := 0
deriving DecidableEq, Repr

namespace Reader
variable (r : Reader)

/-- the bytes read, none at the end; a read waits while the channel is empty and has a sender -/
def read (hungUp : Bool) (len : Nat) : Option (Chunk × Reader) :=
  if r.offset < r.leftover.length then
    let remaining := r.leftover.drop r.offset
    let n := min remaining.length len
    let offset := r.offset + n
    some (remaining.take n,
      if r.leftover.length ≤ offset then { r with leftover := [], offset := 0 } else { r with offset := offset })
  else
    match r.queue with
    | [] => if hungUp then some ([], r) else none
    | chunk :: rest =>
      if chunk.isEmpty then some ([], { r with queue := rest })
      else
        let n := min chunk.length len
        some (chunk.take n,
          if n < chunk.length then { queue := rest, leftover := chunk, offset := n } else { r with queue := rest })

/-- the bytes that a reader still has to read -/
def unread : Chunk := r.leftover.drop r.offset ++ r.queue.flatten

end Reader

/-! ## from the channel to the terminal -/

/-- the buffer of the reader thread -/
def bufferSize : Nat := 4096

/-- the capacity of the channel between the reader thread and the terminal -/
def capacity : Nat := 8

def ptyBatchMaxChunks : Nat := 32

/-- what follows a sink: its channel and the reader of it, the thread that reads, the bounded channel and the subscription
of the pane.  `kept` are the chunks that waited for the sink, `before` the output that they are of, and `sent` all that was
put on the channel; `fed` is what the terminal got -/
structure Pipe where
  sessionId : Nat
  reader : Reader := {}
  ended : Bool := false
  bounded : List Chunk := []
  inBatch : Nat := 0
  batchBytes : Nat := 0
  mounted : Bool := true
  cancelled : Bool := false
  fed : Chunk := []
  dead : Bool := false
  before : List Chunk := []
  kept : List Chunk := []
  sent : List Chunk := []
deriving DecidableEq, Repr

namespace Pipe
variable (p : Pipe)

def send (chunks : List Chunk) : Pipe :=
  { p with reader := { p.reader with queue := p.reader.queue ++ chunks }, sent := p.sent ++ chunks }

/-- a turn of the reader thread, which waits while the channel that it hands over to is full -/
def pump (hungUp : Bool) : Option Pipe :=
  if p.ended then none
  else
    match p.reader.read hungUp bufferSize with
    | none => none
    | some ([], reader) => some { p with reader := reader, ended := true }
    | some (data, reader) =>
      if p.cancelled then some { p with reader := reader, ended := true }
      else if p.bounded.length < capacity then some { p with reader := reader, bounded := p.bounded ++ [data] }
      else none

/-- the first chunk of a batch; it is dropped when the pane has no terminal any more -/
def recv : Option Pipe :=
  match p.bounded with
  | data :: rest =>
    if p.cancelled = false ∧ p.inBatch = 0 then
      if p.mounted then
        some { p with bounded := rest, fed := p.fed ++ data, inBatch := 1, batchBytes := data.length }
      else some { p with bounded := rest }
    else none
  | [] => none

/-- a further chunk of a batch -/
def tryRecv : Option Pipe :=
  match p.bounded with
  | data :: rest =>
    if 0 < p.inBatch ∧ p.inBatch < ptyBatchMaxChunks then
      some { p with
        bounded := rest
        fed := p.fed ++ data
        inBatch := p.inBatch + 1
        batchBytes := p.batchBytes + data.length }
    else none
  | [] => none

def endBatch : Option Pipe :=
  if 0 < p.inBatch ∧ (p.bounded = [] ∨ p.inBatch = ptyBatchMaxChunks) then some { p with inBatch := 0, batchBytes := 0 } else none

end Pipe

/-! ## the system -/

/-- an output of a session, or its sink set or taken away -/
inductive Entry
  | output (sessionId : Nat) (bytes : Chunk)
  | reset (sessionId : Nat)
deriving DecidableEq, Repr

/-- the output of a session since its sink was set or taken away; the log has its latest entry in front -/
def outputsSince (sessionId : Nat) : List Entry → List Chunk
  | [] => []
  | .output other bytes :: log =>
    if other = sessionId then outputsSince sessionId log ++ [bytes] else outputsSince sessionId log
  | .reset other :: log => if other = sessionId then [] else outputsSince sessionId log

structure World where
  routes : Routes := {}
  pipes : List Pipe := []
  log : List Entry := []
deriving DecidableEq, Repr

inductive Event
  | output (sessionId : Nat) (bytes : Chunk) (victims : List Nat)
  | install (sessionId : Nat) (alive : Bool)
  | remove (sessionId : Nat)
  | pump (channel : Nat)
  | recv (channel : Nat)
  | tryRecv (channel : Nat)
  | endBatch (channel : Nat)
  | unmount (channel : Nat)
  | cancel (channel : Nat)
deriving DecidableEq, Repr

namespace World
variable (w : World)

def at? (channel : Nat) (f : Pipe → Option Pipe) : Option World :=
  match w.pipes[channel]? with
  | some p => (f p).map fun p => { w with pipes := w.pipes.set channel p }
  | none => none

/-- no sender is left for a channel -/
def hungUp (channel sessionId : Nat) : Bool := w.routes.sinks.get sessionId != some channel

/-- an output event of the daemon -/
def output (sessionId : Nat) (bytes : Chunk) (victims : List Nat) : Option World :=
  match w.routes.sinks.get sessionId with
  | some channel =>
    match w.pipes[channel]? with
    | some p =>
      if p.ended then
        some { w with
          routes := { w.routes with sinks := w.routes.sinks.remove sessionId }
          log := .reset sessionId :: .output sessionId bytes :: w.log }
      else
        some { w with pipes := w.pipes.set channel (p.send [bytes]), log := .output sessionId bytes :: w.log }
    | none => none
  | none =>
    (w.routes.hold sessionId bytes victims).map fun routes =>
      { w with routes := routes, log := .output sessionId bytes :: w.log }

/-- `install_output_sink`, with a new channel; nothing is sent when its receiver is gone -/
def install (sessionId : Nat) (alive : Bool) : World :=
  let chunks := w.routes.waiting sessionId
  let p : Pipe := { sessionId := sessionId, ended := !alive, dead := !alive, before := outputsSince sessionId w.log }
  { routes := { w.routes.take sessionId with
      sinks := if alive || chunks.isEmpty then w.routes.sinks.insert sessionId w.pipes.length
        else w.routes.sinks.remove sessionId }
    pipes := w.pipes ++ [if alive then { p with kept := chunks }.send chunks else p]
    log := .reset sessionId :: w.log }

end World

def step (w : World) : Event → Option World
  | .output sessionId bytes victims => w.output sessionId bytes victims
  | .install sessionId alive => some (w.install sessionId alive)
  | .remove sessionId => some { w with routes := w.routes.remove sessionId, log := .reset sessionId :: w.log }
  | .pump channel => w.at? channel fun p => p.pump (w.hungUp channel p.sessionId)
  | .recv channel => w.at? channel Pipe.recv
  | .tryRecv channel => w.at? channel Pipe.tryRecv
  | .endBatch channel => w.at? channel Pipe.endBatch
  | .unmount channel => w.at? channel fun p => some { p with mounted := false }
  | .cancel channel => w.at? channel fun p => if p.inBatch = 0 then some { p with cancelled := true } else none

/-! ## the chunks that wait -/

namespace Routes
variable {r : Routes} {sessionId : Nat}

/-- the count of the bytes that wait is exact, no session has too many chunks waiting, and one with a sink has none -/
structure Inv (r : Routes) : Prop where
  distinct : r.pending.Distinct
  bytes : r.pendingBytes = r.pending.sum size
  bound : r.pendingBytes ≤ maxPendingBytes
  queues : ∀ s chunks, r.pending.get s = some chunks → chunks ≠ [] ∧ chunks.length ≤ maxPendingChunksPerSession
  apart : ∀ s, r.sinks.contains s = true → r.pending.get s = none

lemma size_cons (chunk : Chunk) (chunks : List Chunk) : size (chunk :: chunks) = chunk.length + size chunks := List.sum_cons

lemma size_append (chunks : List Chunk) (bytes : Chunk) : size (chunks ++ [bytes]) = size chunks + bytes.length := by
  unfold size
  rw [List.map_append, List.sum_append, List.map_singleton, List.sum_singleton]

lemma waiting_of_get {chunks : List Chunk} (h : r.pending.get sessionId = some chunks) : r.waiting sessionId = chunks := by
  unfold waiting
  rw [h, Option.getD_some]

lemma waiting_of_none (h : r.pending.get sessionId = none) : r.waiting sessionId = [] := by
  unfold waiting
  rw [h, Option.getD_none]

lemma sum_remove_waiting (h : r.Inv) (sessionId : Nat) :
    (r.pending.remove sessionId).sum size + size (r.waiting sessionId) = r.pendingBytes := by
  rw [h.bytes, ← Table.sum_remove h.distinct size sessionId]
  unfold waiting
  cases r.pending.get sessionId <;> rfl

lemma Inv.take (h : r.Inv) (sessionId : Nat) : (r.take sessionId).Inv where
  distinct := h.distinct.retain _
  bytes := by
    have hsum := sum_remove_waiting h sessionId
    show r.pendingBytes - _ = (r.pending.remove sessionId).sum size
    omega
  bound := Nat.le_trans (Nat.sub_le _ _) h.bound
  queues s chunks hs := by
    refine h.queues s chunks ?_
    have hget := Table.get_remove r.pending sessionId s
    split_ifs at hget with heq
    · cases hget.symm.trans hs
    · exact hget.symm.trans hs
  apart s hs := by
    show (r.pending.remove sessionId).get s = none
    rw [Table.get_remove, h.apart s hs, ite_self]

lemma waiting_take (r : Routes) (sessionId s : Nat) :
    (r.take sessionId).waiting s = if s = sessionId then [] else r.waiting s := by
  unfold waiting take
  dsimp only
  rw [Table.get_remove]
  split_ifs <;> rfl

/-- a session loses at most the oldest of its chunks -/
lemma waiting_popFront (r : Routes) (sessionId s : Nat) :
    (r.popFront sessionId).waiting s = if s = sessionId then (r.waiting s).tail else r.waiting s := by
  unfold popFront waiting
  split
  · next chunk rest hget =>
    by_cases hs : s = sessionId
    · subst hs
      rw [if_pos rfl, hget]
      by_cases hrest : rest.isEmpty = true
      · dsimp only
        rw [if_pos hrest, Table.get_remove_self, List.isEmpty_iff.mp hrest]
        rfl
      · dsimp only
        rw [if_neg hrest, Table.get_insert_self]
        rfl
    · rw [if_neg hs]
      by_cases hrest : rest.isEmpty = true
      · dsimp only
        rw [if_pos hrest, Table.get_remove_of_ne _ hs]
      · dsimp only
        rw [if_neg hrest, Table.get_insert_of_ne _ _ hs]
  · next hget =>
    dsimp only
    rw [Table.get_remove]
    split_ifs with hs
    · rw [hs, hget]
      rfl
    · rfl
  · next hget =>
    split_ifs with hs
    · rw [hs, hget]
      rfl
    · rfl

lemma Inv.popFront (h : r.Inv) (sessionId : Nat) : (r.popFront sessionId).Inv := by
  have hsum := sum_remove_waiting h sessionId
  have hgone : ∀ s, r.sinks.contains s = true → (r.pending.remove sessionId).get s = none := fun s hs => by
    rw [Table.get_remove, h.apart s hs, ite_self]
  have hqueues : ∀ s chunks, (r.pending.remove sessionId).get s = some chunks →
      chunks ≠ [] ∧ chunks.length ≤ maxPendingChunksPerSession := fun s chunks hs =>
    (h.take sessionId).queues s chunks hs
  unfold Routes.popFront
  split
  · next chunk rest hget =>
    rw [waiting_of_get hget, size_cons] at hsum
    obtain ⟨-, hlen⟩ := h.queues _ _ hget
    rw [List.length_cons] at hlen
    have hle : r.pendingBytes - chunk.length ≤ maxPendingBytes := Nat.le_trans (Nat.sub_le _ _) h.bound
    by_cases hrest : rest.isEmpty = true
    · rw [if_pos hrest]
      refine ⟨h.distinct.retain _, ?_, hle, hqueues, hgone⟩
      rw [List.isEmpty_iff.mp hrest] at hsum
      have hnil : size [] = 0 := rfl
      show r.pendingBytes - chunk.length = (r.pending.remove sessionId).sum size
      omega
    · rw [if_neg hrest]
      refine ⟨h.distinct.insert _ _, ?_, hle, fun s chunks hs => ?_, fun s hs => ?_⟩
      · show r.pendingBytes - chunk.length = (r.pending.insert sessionId rest).sum size
        rw [Table.sum_insert]
        omega
      · have hs' : (r.pending.insert sessionId rest).get s = some chunks := hs
        rw [Table.get_insert] at hs'
        split_ifs at hs' with heq
        · obtain rfl := Option.some.inj hs'
          exact ⟨fun hnil => hrest (by rw [hnil]; rfl), Nat.le_trans (Nat.le_succ _) hlen⟩
        · exact h.queues s chunks hs'
      · have hne : s ≠ sessionId := by
          rintro rfl
          rw [h.apart s hs] at hget
          cases hget
        show (r.pending.insert sessionId rest).get s = none
        rw [Table.get_insert_of_ne _ _ hne, h.apart s hs]
  · next hget =>
    exact absurd rfl (h.queues _ _ hget).1
  · exact h

/-- room is made from the oldest chunks on, and enough of it -/
lemma evict_spec {len : Nat} (hlen : len ≤ maxPendingBytes) {victims : List Nat} {q : Routes} (h : r.Inv)
    (hq : r.evict len victims = some q) :
    q.Inv ∧ q.sinks = r.sinks ∧ q.pendingBytes + len ≤ maxPendingBytes ∧ ∀ s, q.waiting s <:+ r.waiting s := by
  induction victims generalizing r with
  | nil =>
    unfold evict at hq
    split_ifs at hq with hfull
    obtain rfl := Option.some.inj hq
    refine ⟨h, rfl, ?_, fun s => List.suffix_rfl⟩
    by_contra hover
    have hempty : r.pending.isEmpty = true := by
      by_contra hne
      exact hfull ⟨Nat.lt_of_not_le hover, Bool.eq_false_iff.mpr hne⟩
    have hzero : r.pendingBytes = 0 := by
      rw [h.bytes]
      unfold Table.sum
      rw [List.isEmpty_iff.mp hempty]
      rfl
    omega
  | cons sessionId victims ih =>
    unfold evict at hq
    split_ifs at hq
    obtain ⟨hinv, hsinks, hroom, hsuffix⟩ := ih (h.popFront sessionId) hq
    refine ⟨hinv, hsinks.trans ?_, hroom, fun s => (hsuffix s).trans ?_⟩
    · unfold Routes.popFront
      split <;> rfl
    · rw [waiting_popFront]
      split_ifs
      · exact List.tail_suffix _
      · exact List.suffix_rfl

lemma head?_length (chunks : List Chunk) : (chunks.head?.getD []).length + size chunks.tail = size chunks := by
  cases chunks with
  | nil => rfl
  | cons chunk rest => exact (size_cons chunk rest).symm

lemma push_waiting (r : Routes) (sessionId : Nat) (bytes : Chunk) (s : Nat) :
    (r.push sessionId bytes).waiting s = if s = sessionId then
      (if maxPendingChunksPerSession ≤ (r.waiting s).length then (r.waiting s).tail else r.waiting s) ++ [bytes]
    else r.waiting s := by
  unfold push waiting
  dsimp only
  by_cases hs : s = sessionId
  · subst hs
    rw [if_pos rfl]
    split_ifs <;> rw [Table.get_insert_self, Option.getD_some]
  · rw [if_neg hs]
    split_ifs <;> rw [Table.get_insert_of_ne _ _ hs]

lemma Inv.push (h : r.Inv) {bytes : Chunk} (hroom : r.pendingBytes + bytes.length ≤ maxPendingBytes)
    (hsink : r.sinks.contains sessionId = false) : (r.push sessionId bytes).Inv := by
  have hsum := sum_remove_waiting h sessionId
  have hhead := head?_length (r.waiting sessionId)
  have hapart : ∀ (kept : List Chunk) s, r.sinks.contains s = true →
      (r.pending.insert sessionId (kept ++ [bytes])).get s = none := by
    intro kept s hs
    have hne : s ≠ sessionId := by
      rintro rfl
      rw [hsink] at hs
      cases hs
    rw [Table.get_insert_of_ne _ _ hne, h.apart s hs]
  have hqueues : ∀ kept : List Chunk, kept.length < maxPendingChunksPerSession → ∀ s chunks,
      (r.pending.insert sessionId (kept ++ [bytes])).get s = some chunks →
        chunks ≠ [] ∧ chunks.length ≤ maxPendingChunksPerSession := by
    intro kept hlt s chunks hs
    rw [Table.get_insert] at hs
    split_ifs at hs
    · obtain rfl := Option.some.inj hs
      refine ⟨List.append_ne_nil_of_right_ne_nil _ (List.cons_ne_nil _ _), ?_⟩
      rw [List.length_append, List.length_singleton]
      exact hlt
    · exact h.queues s chunks hs
  have hlen : (r.waiting sessionId).length ≤ maxPendingChunksPerSession := by
    unfold waiting
    cases hget : r.pending.get sessionId with
    | none => exact Nat.zero_le _
    | some chunks => exact (h.queues _ _ hget).2
  unfold Routes.push
  change Inv (let queue := r.waiting sessionId; _)
  dsimp only
  split_ifs with hfull
  · have htail : (r.waiting sessionId).tail.length < maxPendingChunksPerSession := by
      rw [List.length_tail]
      have hpos : 0 < maxPendingChunksPerSession := Nat.zero_lt_succ _
      omega
    refine ⟨h.distinct.insert _ _, ?_, ?_, hqueues _ htail, hapart _⟩
    · show r.pendingBytes - ((r.waiting sessionId).head?.getD []).length + bytes.length =
        (r.pending.insert sessionId ((r.waiting sessionId).tail ++ [bytes])).sum size
      rw [Table.sum_insert, size_append]
      omega
    · show r.pendingBytes - ((r.waiting sessionId).head?.getD []).length + bytes.length ≤ maxPendingBytes
      omega
  · refine ⟨h.distinct.insert _ _, ?_, hroom, hqueues _ (Nat.lt_of_not_le hfull), hapart _⟩
    show r.pendingBytes + bytes.length = (r.pending.insert sessionId (r.waiting sessionId ++ [bytes])).sum size
    rw [Table.sum_insert, size_append]
    omega

/-- the chunks that can wait at all -/
def small (chunk : Chunk) : Bool := chunk.length ≤ maxPendingBytes

/-- **Holding a chunk**: the counts stay exact, and what waits is the end of what came. -/
lemma hold_spec (h : r.Inv) {bytes : Chunk} {victims : List Nat} {q : Routes} (hsink : r.sinks.contains sessionId = false)
    (hq : r.hold sessionId bytes victims = some q) :
    q.Inv ∧ q.sinks = r.sinks ∧ (∀ s, s ≠ sessionId → q.waiting s <:+ r.waiting s) ∧
      q.waiting sessionId <:+ r.waiting sessionId ++ [bytes].filter small := by
  unfold hold at hq
  split_ifs at hq with hlarge
  · obtain rfl := Option.some.inj hq
    have hnot : small bytes = false := decide_eq_false (Nat.not_le_of_lt hlarge)
    rw [List.filter_cons_of_neg (by rw [hnot]; exact Bool.false_ne_true), List.filter_nil, List.append_nil]
    exact ⟨h, rfl, fun s _ => List.suffix_rfl, List.suffix_rfl⟩
  · have hle := Nat.le_of_not_lt hlarge
    have hsmall : small bytes = true := decide_eq_true hle
    rw [List.filter_cons_of_pos hsmall, List.filter_nil]
    obtain ⟨m, hm, rfl⟩ := Option.map_eq_some_iff.mp hq
    obtain ⟨hinv, hsinks, hroom, hsuffix⟩ := evict_spec hle h hm
    refine ⟨hinv.push hroom (by rw [hsinks]; exact hsink), ?_, fun s hs => ?_, ?_⟩
    · rw [← hsinks]
      unfold Routes.push
      dsimp only
      split_ifs <;> rfl
    · rw [push_waiting, if_neg hs]
      exact hsuffix s
    · rw [push_waiting, if_pos rfl, List.suffix_append_self_iff]
      split_ifs
      · exact (List.tail_suffix _).trans (hsuffix sessionId)
      · exact hsuffix sessionId

end Routes

/-! ## the bytes that are read -/

namespace Reader
variable {r r' : Reader} {hungUp : Bool} {len : Nat} {data : Chunk}

/-- **Reading**: the bytes read are the next ones, and none are read only at an empty chunk or at the end. -/
lemma read_spec (hlen : 0 < len) (h : r.read hungUp len = some (data, r')) :
    data ++ r'.unread = r.unread ∧ data.length ≤ len ∧ (∀ chunk ∈ r'.queue, chunk ∈ r.queue) ∧
      (data = [] → [] ∈ r.queue ∨ r'.unread = [] ∧ r'.queue = [] ∧ hungUp = true) := by
  unfold read at h
  dsimp only at h
  by_cases hleft : r.offset < r.leftover.length
  · -- the rest of a chunk
    rw [if_pos hleft] at h
    obtain ⟨rfl, rfl⟩ := Prod.mk.inj (Option.some.inj h)
    have hrest : (r.leftover.drop r.offset).length = r.leftover.length - r.offset := List.length_drop
    have hne : (r.leftover.drop r.offset).take (min (r.leftover.drop r.offset).length len) ≠ [] := by
      intro hnil
      have hzero := congrArg List.length hnil
      rw [List.length_take, hrest, List.length_nil] at hzero
      omega
    refine ⟨?_, ?_, ?_, fun hnil => absurd hnil hne⟩
    · split_ifs with hall
      · rw [List.take_of_length_le (by omega)]
        rfl
      · show _ ++ (r.leftover.drop _ ++ r.queue.flatten) = _
        rw [← List.drop_drop, ← List.append_assoc, List.take_append_drop]
        rfl
    · rw [List.length_take]
      omega
    · split_ifs <;> exact fun _ => id
  · rw [if_neg hleft] at h
    have hdone : r.leftover.drop r.offset = [] := List.drop_eq_nil_of_le (Nat.le_of_not_lt hleft)
    have hunread : r.unread = r.queue.flatten := by
      unfold unread
      rw [hdone, List.nil_append]
    rw [hunread]
    split at h
    · next hqueue =>
      split_ifs at h with hup
      obtain ⟨rfl, rfl⟩ := Prod.mk.inj (Option.some.inj h)
      exact ⟨hunread, Nat.zero_le _, fun _ => id, fun _ => .inr ⟨by rw [hunread, hqueue]; rfl, hqueue, hup⟩⟩
    · next chunk rest hqueue =>
      rw [hqueue, List.flatten_cons]
      by_cases hempty : chunk.isEmpty = true
      · rw [if_pos hempty] at h
        obtain ⟨rfl, rfl⟩ := Prod.mk.inj (Option.some.inj h)
        rw [List.isEmpty_iff.mp hempty]
        refine ⟨?_, Nat.zero_le _, fun _ => List.mem_cons_of_mem _, fun _ => .inl List.mem_cons_self⟩
        show [] ++ (r.leftover.drop r.offset ++ rest.flatten) = _
        rw [hdone]
        rfl
      · rw [if_neg hempty] at h
        obtain ⟨rfl, rfl⟩ := Prod.mk.inj (Option.some.inj h)
        have hne : chunk.take (min chunk.length len) ≠ [] := by
          intro hnil
          have hzero := congrArg List.length hnil
          rw [List.length_take, List.length_nil] at hzero
          refine hempty (List.isEmpty_iff.mpr (List.length_eq_zero_iff.mp ?_))
          omega
        refine ⟨?_, ?_, ?_, fun hnil => absurd hnil hne⟩
        · split_ifs with hcut
          · show _ ++ (chunk.drop _ ++ rest.flatten) = _
            rw [← List.append_assoc, List.take_append_drop]
          · show _ ++ (r.leftover.drop r.offset ++ rest.flatten) = _
            rw [List.take_of_length_le (by omega), hdone]
            rfl
        · rw [List.length_take]
          omega
        · split_ifs <;> exact fun _ => List.mem_cons_of_mem _

lemma unread_send (r : Reader) (chunks : List Chunk) :
    unread { r with queue := r.queue ++ chunks } = r.unread ++ chunks.flatten := by
  unfold unread
  rw [List.flatten_append, List.append_assoc]

end Reader

/-! ## one pipe -/

namespace Pipe
variable {p q : Pipe}

/-- the invariant of a pipe, whose sink is `gone` or not -/
structure Inv (p : Pipe) (gone : Prop) : Prop where
  whole : p.cancelled = false → p.mounted = true ∨ 0 < p.inBatch →
    p.fed ++ p.bounded.flatten ++ p.reader.unread = p.sent.flatten
  fed : p.fed <+: p.sent.flatten
  queue : ∀ chunk ∈ p.reader.queue, chunk ∈ p.sent
  ended : p.ended = true → p.cancelled = true ∨ p.dead = true ∨ [] ∈ p.sent ∨
    p.reader.unread = [] ∧ p.reader.queue = [] ∧ gone
  bounded : p.bounded.length ≤ capacity ∧ ∀ data ∈ p.bounded, data ≠ [] ∧ data.length ≤ bufferSize
  batch : p.inBatch ≤ ptyBatchMaxChunks ∧ p.batchBytes ≤ p.inBatch * bufferSize
  cancelled : p.cancelled = true → p.inBatch = 0
  kept : p.kept <:+ p.before.filter Routes.small

lemma Inv.mono {gone gone' : Prop} (h : p.Inv gone) (himp : gone → gone') : p.Inv gone' :=
  { h with ended := fun he => (h.ended he).imp_right (Or.imp_right (Or.imp_right fun ⟨h1, h2, h3⟩ => ⟨h1, h2, himp h3⟩)) }

/-- more is put on the channel -/
lemma Inv.send {gone gone' : Prop} (h : p.Inv gone) (he : p.ended = false) (chunks : List Chunk) :
    (p.send chunks).Inv gone' where
  whole hc hm := by
    show p.fed ++ p.bounded.flatten ++ Reader.unread { p.reader with queue := p.reader.queue ++ chunks } =
      (p.sent ++ chunks).flatten
    rw [Reader.unread_send, List.flatten_append, ← h.whole hc hm, List.append_assoc _ p.reader.unread]
  fed := by
    show p.fed <+: (p.sent ++ chunks).flatten
    rw [List.flatten_append]
    exact h.fed.trans (List.prefix_append _ _)
  queue chunk hc := by
    rcases List.mem_append.mp hc with hold | hnew
    · exact List.mem_append_left _ (h.queue chunk hold)
    · exact List.mem_append_right _ hnew
  ended he' := absurd (he.symm.trans he') nofun
  bounded := h.bounded
  batch := h.batch
  cancelled := h.cancelled
  kept := h.kept

lemma Inv.pump {gone : Prop} (h : p.Inv gone) {hungUp : Bool} (hgone : hungUp = true → gone) (hq : p.pump hungUp = some q) :
    q.Inv gone := by
  have hlen : 0 < bufferSize := Nat.zero_lt_succ _
  unfold Pipe.pump at hq
  by_cases he : p.ended = true
  · rw [if_pos he] at hq
    cases hq
  rw [if_neg he] at hq
  split at hq
  · cases hq
  · next reader hread =>
    obtain rfl := Option.some.inj hq
    obtain ⟨hbytes, -, hqueue, hend⟩ := Reader.read_spec hlen hread
    refine { h with whole := ?_, queue := ?_, ended := ?_ }
    · intro hc hm
      show p.fed ++ p.bounded.flatten ++ reader.unread = p.sent.flatten
      rw [show reader.unread = p.reader.unread from hbytes]
      exact h.whole hc hm
    · exact fun chunk hc => h.queue chunk (hqueue chunk hc)
    · intro _
      rcases hend rfl with hnil | ⟨hunread, hempty, hup⟩
      · exact .inr (.inr (.inl (h.queue [] hnil)))
      · exact .inr (.inr (.inr ⟨hunread, hempty, hgone hup⟩))
  · next data reader hne hread =>
    obtain ⟨hbytes, hsize, hqueue, -⟩ := Reader.read_spec hlen hread
    have hsub : ∀ chunk ∈ reader.queue, chunk ∈ p.sent := fun chunk hc => h.queue chunk (hqueue chunk hc)
    by_cases hc : p.cancelled = true
    · rw [if_pos hc] at hq
      obtain rfl := Option.some.inj hq
      exact { h with whole := fun hc' => absurd (hc.symm.trans hc') nofun, queue := hsub, ended := fun _ => .inl hc }
    · rw [if_neg hc] at hq
      obtain ⟨hroom, heq⟩ := Option.ite_none_right_eq_some.mp hq
      obtain rfl := Option.some.inj heq
      refine { h with whole := ?_, queue := hsub, ended := fun he' => absurd he' he, bounded := ⟨?_, ?_⟩ }
      · intro hc' hm
        show p.fed ++ (p.bounded ++ [data]).flatten ++ reader.unread = p.sent.flatten
        rw [List.flatten_append, List.flatten_singleton, ← h.whole hc' hm, ← hbytes]
        simp only [List.append_assoc]
      · show (p.bounded ++ [data]).length ≤ capacity
        rw [List.length_append, List.length_singleton]
        exact hroom
      · intro d hd
        rcases List.mem_append.mp hd with hold | hnew
        · exact h.bounded.2 d hold
        · rw [List.mem_singleton.mp hnew]
          exact ⟨hne, hsize⟩

lemma Inv.recv {gone : Prop} (h : p.Inv gone) (hq : p.recv = some q) : q.Inv gone := by
  unfold Pipe.recv at hq
  split at hq
  · next data rest hbounded =>
    obtain ⟨⟨hc, hzero⟩, hq⟩ := Option.ite_none_right_eq_some.mp hq
    have hrest := h.bounded
    rw [hbounded, List.length_cons] at hrest
    have hbounds : rest.length ≤ capacity ∧ ∀ d ∈ rest, d ≠ [] ∧ d.length ≤ bufferSize :=
      ⟨Nat.le_of_succ_le hrest.1, fun d hd => hrest.2 d (List.mem_cons_of_mem _ hd)⟩
    by_cases hm : p.mounted = true
    · rw [if_pos hm] at hq
      obtain rfl := Option.some.inj hq
      have hwhole := h.whole hc (.inl hm)
      rw [hbounded, List.flatten_cons, ← List.append_assoc p.fed] at hwhole
      refine { h with
        whole := fun _ _ => hwhole, fed := ?_, bounded := hbounds, batch := ⟨Nat.succ_le_succ (Nat.zero_le _), ?_⟩
        cancelled := fun hc' => absurd (hc.symm.trans hc') nofun }
      · rw [← hwhole, List.append_assoc (p.fed ++ data)]
        exact List.prefix_append _ _
      · rw [Nat.one_mul]
        exact (hrest.2 data List.mem_cons_self).2
    · rw [if_neg hm] at hq
      obtain rfl := Option.some.inj hq
      refine { h with whole := fun _ hor => ?_, bounded := hbounds }
      rcases hor with hm' | hpos
      · exact absurd hm' hm
      · exact absurd (hzero ▸ hpos : 0 < 0) (Nat.lt_irrefl 0)
  · cases hq

lemma Inv.tryRecv {gone : Prop} (h : p.Inv gone) (hq : p.tryRecv = some q) : q.Inv gone := by
  unfold Pipe.tryRecv at hq
  split at hq
  · next data rest hbounded =>
    obtain ⟨⟨hpos, hlt⟩, hq⟩ := Option.ite_none_right_eq_some.mp hq
    obtain rfl := Option.some.inj hq
    have hc : p.cancelled = false := Bool.eq_false_iff.mpr fun hc => absurd (h.cancelled hc) (Nat.ne_of_gt hpos)
    have hwhole := h.whole hc (.inr hpos)
    have hrest := h.bounded
    rw [hbounded, List.flatten_cons, ← List.append_assoc p.fed] at hwhole
    rw [hbounded, List.length_cons] at hrest
    refine { h with
      whole := fun _ _ => hwhole, fed := ?_, batch := ⟨hlt, ?_⟩
      bounded := ⟨Nat.le_of_succ_le hrest.1, fun d hd => hrest.2 d (List.mem_cons_of_mem _ hd)⟩
      cancelled := fun hc' => absurd (hc.symm.trans hc') nofun }
    · rw [← hwhole, List.append_assoc (p.fed ++ data)]
      exact List.prefix_append _ _
    · rw [Nat.add_mul, Nat.one_mul]
      exact Nat.add_le_add h.batch.2 (hrest.2 data List.mem_cons_self).2
  · cases hq

lemma Inv.endBatch {gone : Prop} (h : p.Inv gone) (hq : p.endBatch = some q) : q.Inv gone := by
  obtain ⟨⟨hpos, -⟩, hq⟩ := Option.ite_none_right_eq_some.mp hq
  obtain rfl := Option.some.inj hq
  refine { h with whole := fun hc hor => h.whole hc (.inr hpos), batch := ⟨Nat.zero_le _, Nat.zero_le _⟩, cancelled := ?_ }
  exact fun _ => rfl

lemma Inv.unmount {gone : Prop} (h : p.Inv gone) : Inv { p with mounted := false } gone :=
  { h with whole := fun hc hor => h.whole hc (hor.imp_left fun hm => absurd hm nofun) }

lemma Inv.cancel {gone : Prop} (h : p.Inv gone) (hzero : p.inBatch = 0) : Inv { p with cancelled := true } gone :=
  { h with whole := fun hc => absurd hc nofun, ended := fun _ => .inl rfl, cancelled := fun _ => hzero }

end Pipe

/-! ## runs -/

namespace World
variable {w w' : World}

/-- the sink of a session is that of a pipe, which got what waited and the output since -/
structure Inv (w : World) : Prop where
  routes : w.routes.Inv
  held : ∀ s, w.routes.waiting s <:+ (outputsSince s w.log).filter Routes.small
  sinks : ∀ s channel, w.routes.sinks.get s = some channel → ∃ p, w.pipes[channel]? = some p ∧ p.sessionId = s ∧
    p.sent = p.kept ++ outputsSince s w.log
  pipes : ∀ (channel : Nat) p, w.pipes[channel]? = some p → p.Inv (w.routes.sinks.get p.sessionId ≠ some channel)

lemma inv_start : Inv {} where
  routes := ⟨Table.distinct_empty, rfl, Nat.zero_le _, nofun, nofun⟩
  held _ := List.suffix_rfl
  sinks := nofun
  pipes := nofun

/-- a step of one pipe, which goes on with what it got -/
lemma Inv.at? (h : w.Inv) {channel : Nat} {f : Pipe → Option Pipe} (hw : w.at? channel f = some w')
    (hkeeps : ∀ p q, f p = some q → q.sessionId = p.sessionId ∧ q.sent = p.sent ∧ q.kept = p.kept)
    (hinv : ∀ p q, w.pipes[channel]? = some p → f p = some q →
      q.Inv (w.routes.sinks.get p.sessionId ≠ some channel)) : w'.Inv := by
  unfold World.at? at hw
  split at hw
  · next p hp =>
    obtain ⟨q, hq, rfl⟩ := Option.map_eq_some_iff.mp hw
    obtain ⟨hsession, hsent, hkept⟩ := hkeeps p q hq
    have hlt := (List.getElem?_eq_some_iff.mp hp).1
    refine ⟨h.routes, h.held, fun s c hs => ?_, fun c r hr => ?_⟩
    · obtain ⟨r, hr, hrs, hrsent⟩ := h.sinks s c hs
      by_cases hc : channel = c
      · subst hc
        obtain rfl : r = p := Option.some.inj (hr.symm.trans hp)
        exact ⟨q, List.getElem?_set_self hlt, hsession.trans hrs, by rw [hsent, hkept]; exact hrsent⟩
      · exact ⟨r, (List.getElem?_set_ne hc).trans hr, hrs, hrsent⟩
    · have hr' : (w.pipes.set channel q)[c]? = some r := hr
      by_cases hc : channel = c
      · subst hc
        rw [List.getElem?_set_self hlt] at hr'
        obtain rfl := Option.some.inj hr'
        rw [hsession]
        exact hinv p q hp hq
      · rw [List.getElem?_set_ne hc] at hr'
        exact h.pipes c r hr'
  · cases hw

lemma outputsSince_reset (sessionId s : Nat) (log : List Entry) :
    outputsSince s (.reset sessionId :: log) = if s = sessionId then [] else outputsSince s log :=
  if_congr eq_comm rfl rfl

lemma outputsSince_output (sessionId s : Nat) (bytes : Chunk) (log : List Entry) :
    outputsSince s (.output sessionId bytes :: log) =
      if s = sessionId then outputsSince s log ++ [bytes] else outputsSince s log :=
  if_congr eq_comm rfl rfl

lemma Inv.remove (h : w.Inv) (sessionId : Nat) :
    Inv { w with routes := w.routes.remove sessionId, log := .reset sessionId :: w.log } := by
  have hget : ∀ s, (w.routes.sinks.remove sessionId).get s = if s = sessionId then none else w.routes.sinks.get s :=
    Table.get_remove _ _
  have htake := h.routes.take sessionId
  refine ⟨⟨htake.distinct, htake.bytes, htake.bound, htake.queues, fun s hs => ?_⟩, fun s => ?_, fun s c hs => ?_,
    fun c p hp => ?_⟩
  · rw [show (w.routes.remove sessionId).sinks = w.routes.sinks.remove sessionId from rfl, Table.contains_remove,
      Bool.and_eq_true] at hs
    exact htake.apart s hs.2
  · show (w.routes.take sessionId).waiting s <:+ _
    rw [Routes.waiting_take, outputsSince_reset]
    split_ifs
    · exact List.nil_suffix
    · exact h.held s
  · have hs' : (w.routes.sinks.remove sessionId).get s = some c := hs
    rw [hget] at hs'
    split_ifs at hs' with hne
    rw [outputsSince_reset, if_neg hne]
    exact h.sinks s c hs'
  · refine (h.pipes c p hp).mono fun hgone => ?_
    show (w.routes.sinks.remove sessionId).get p.sessionId ≠ some c
    rw [hget]
    split_ifs
    · exact (Option.some_ne_none c).symm
    · exact hgone

lemma fresh_inv {sessionId : Nat} {before kept : List Chunk} (hkept : kept <:+ before.filter Routes.small) (gone : Prop) :
    Pipe.Inv { sessionId := sessionId, before := before, kept := kept } gone where
  whole _ _ := rfl
  fed := List.prefix_rfl
  queue := nofun
  ended := nofun
  bounded := ⟨Nat.zero_le _, nofun⟩
  batch := ⟨Nat.zero_le _, Nat.zero_le _⟩
  cancelled := nofun
  kept := hkept

lemma Inv.install (h : w.Inv) (sessionId : Nat) (alive : Bool) : (w.install sessionId alive).Inv := by
  have htake := h.routes.take sessionId
  -- the sink of a session other than this one is the one it had
  have hother : ∀ s, s ≠ sessionId → (w.install sessionId alive).routes.sinks.get s = w.routes.sinks.get s := by
    intro s hs
    unfold World.install
    dsimp only
    split_ifs
    · exact Table.get_insert_of_ne _ _ hs
    · exact Table.get_remove_of_ne _ hs
  have hself : ∀ c, (w.install sessionId alive).routes.sinks.get sessionId = some c → c = w.pipes.length ∧
      (alive = true ∨ w.routes.waiting sessionId = []) := by
    intro c hc
    unfold World.install at hc
    dsimp only at hc
    split_ifs at hc with hif
    · rw [Table.get_insert_self] at hc
      rw [Bool.or_eq_true, List.isEmpty_iff] at hif
      exact ⟨(Option.some.inj hc).symm, hif⟩
    · rw [Table.get_remove_self] at hc
      cases hc
  have hkept : w.routes.waiting sessionId <:+ (outputsSince sessionId w.log).filter Routes.small := h.held sessionId
  refine ⟨⟨htake.distinct, htake.bytes, htake.bound, htake.queues, fun s hs => ?_⟩, fun s => ?_, fun s c hs => ?_,
    fun c p hp => ?_⟩
  · show (w.routes.pending.remove sessionId).get s = none
    rw [Table.get_remove]
    split_ifs with hne
    · rfl
    · refine h.routes.apart s ?_
      unfold Table.contains at hs ⊢
      rw [hother s hne] at hs
      exact hs
  · show (w.routes.take sessionId).waiting s <:+ (outputsSince s (.reset sessionId :: w.log)).filter _
    rw [Routes.waiting_take, outputsSince_reset]
    split_ifs
    · exact List.nil_suffix
    · exact h.held s
  · show ∃ p, (w.pipes ++ [_])[c]? = some p ∧ p.sessionId = s ∧ p.sent = p.kept ++ outputsSince s (.reset sessionId :: w.log)
    rw [outputsSince_reset]
    by_cases hne : s = sessionId
    · subst hne
      obtain ⟨rfl, hor⟩ := hself c hs
      rw [if_pos rfl, List.getElem?_concat_length]
      refine ⟨_, rfl, ?_, ?_⟩
      · split_ifs <;> rfl
      · split_ifs with halive
        · show [] ++ w.routes.waiting s = w.routes.waiting s ++ []
          rw [List.nil_append, List.append_nil]
        · rfl
    · rw [hother s hne] at hs
      obtain ⟨p, hp, hps, hsent⟩ := h.sinks s c hs
      rw [if_neg hne]
      exact ⟨p, (List.getElem?_append_left (List.getElem?_eq_some_iff.mp hp).1).trans hp, hps, hsent⟩
  · have hp' : (w.pipes ++ [if alive then
        { sessionId := sessionId, ended := !alive, dead := !alive, before := outputsSince sessionId w.log
          kept := w.routes.waiting sessionId : Pipe }.send (w.routes.waiting sessionId)
      else { sessionId := sessionId, ended := !alive, dead := !alive, before := outputsSince sessionId w.log }])[c]? =
        some p := hp
    rcases Nat.lt_or_ge c w.pipes.length with hlt | hge
    · rw [List.getElem?_append_left hlt] at hp'
      refine (h.pipes c p hp').mono fun hgone hs => hgone ?_
      by_cases hne : p.sessionId = sessionId
      · rw [hne] at hs
        exact absurd (hself c hs).1 (Nat.ne_of_lt hlt)
      · exact (hother _ hne).symm.trans hs
    · rw [List.getElem?_append_right hge, List.getElem?_singleton] at hp'
      split_ifs at hp' with hzero
      · obtain rfl := Option.some.inj hp'
        rename_i halive
        subst halive
        exact Pipe.Inv.send (fresh_inv hkept True) rfl _
      · obtain rfl := Option.some.inj hp'
        rename_i halive
        have hdead : Pipe.Inv { sessionId := sessionId, before := outputsSince sessionId w.log } True :=
          fresh_inv List.nil_suffix True
        rw [Bool.not_eq_true] at halive
        subst halive
        exact { hdead with ended := fun _ => .inr (.inl rfl) }

/-- the output of a session whose sink is gone is lost, and the sink with it -/
lemma Inv.lost (h : w.Inv) {sessionId channel : Nat} (hsink : w.routes.sinks.get sessionId = some channel) (bytes : Chunk) :
    Inv { w with
      routes := { w.routes with sinks := w.routes.sinks.remove sessionId }
      log := .reset sessionId :: .output sessionId bytes :: w.log } := by
  have hget : ∀ s, (w.routes.sinks.remove sessionId).get s = if s = sessionId then none else w.routes.sinks.get s :=
    Table.get_remove _ _
  have hlog : ∀ s, s ≠ sessionId →
      outputsSince s (.reset sessionId :: .output sessionId bytes :: w.log) = outputsSince s w.log := by
    intro s hs
    rw [outputsSince_reset, if_neg hs, outputsSince_output, if_neg hs]
  refine ⟨⟨h.routes.distinct, h.routes.bytes, h.routes.bound, h.routes.queues, fun s hs => ?_⟩, fun s => ?_,
    fun s c hs => ?_, fun c p hp => ?_⟩
  · rw [show ({ w.routes with sinks := w.routes.sinks.remove sessionId } : Routes).sinks =
      w.routes.sinks.remove sessionId from rfl, Table.contains_remove, Bool.and_eq_true] at hs
    exact h.routes.apart s hs.2
  · by_cases hs : s = sessionId
    · subst hs
      have hwaiting : w.routes.waiting s = [] :=
        Routes.waiting_of_none (h.routes.apart s (Table.contains_of_get hsink))
      show w.routes.waiting s <:+ _
      rw [hwaiting]
      exact List.nil_suffix
    · rw [hlog s hs]
      exact h.held s
  · have hs' : (w.routes.sinks.remove sessionId).get s = some c := hs
    rw [hget] at hs'
    split_ifs at hs' with hne
    rw [hlog s hne]
    exact h.sinks s c hs'
  · refine (h.pipes c p hp).mono fun hgone => ?_
    show (w.routes.sinks.remove sessionId).get p.sessionId ≠ some c
    rw [hget]
    split_ifs
    · exact (Option.some_ne_none c).symm
    · exact hgone

lemma Inv.sent (h : w.Inv) {sessionId channel : Nat} {p : Pipe} (hsink : w.routes.sinks.get sessionId = some channel)
    (hp : w.pipes[channel]? = some p) (he : p.ended = false) (bytes : Chunk) :
    Inv { w with pipes := w.pipes.set channel (p.send [bytes]), log := .output sessionId bytes :: w.log } := by
  have hlt := (List.getElem?_eq_some_iff.mp hp).1
  obtain ⟨p', hp', hsession, hsent⟩ := h.sinks sessionId channel hsink
  obtain rfl : p' = p := Option.some.inj (hp'.symm.trans hp)
  refine ⟨h.routes, fun s => ?_, fun s c hs => ?_, fun c q hq => ?_⟩
  · show w.routes.waiting s <:+ _
    rw [outputsSince_output]
    split_ifs with hs
    · subst hs
      rw [Routes.waiting_of_none (h.routes.apart s (Table.contains_of_get hsink))]
      exact List.nil_suffix
    · exact h.held s
  · show ∃ q, (w.pipes.set channel (p'.send [bytes]))[c]? = some q ∧ q.sessionId = s ∧ q.sent = q.kept ++ _
    rw [outputsSince_output]
    obtain ⟨q, hq, hqs, hqsent⟩ := h.sinks s c hs
    by_cases hne : s = sessionId
    · subst hne
      obtain rfl : channel = c := Option.some.inj (hsink.symm.trans hs)
      refine ⟨p'.send [bytes], List.getElem?_set_self hlt, hsession, ?_⟩
      show p'.sent ++ [bytes] = p'.kept ++ _
      rw [if_pos rfl, hsent, List.append_assoc]
    · have hc : channel ≠ c := by
        rintro rfl
        obtain rfl : q = p' := Option.some.inj (hq.symm.trans hp)
        exact hne (hqs.symm.trans hsession)
      rw [if_neg hne]
      exact ⟨q, (List.getElem?_set_ne hc).trans hq, hqs, hqsent⟩
  · have hq' : (w.pipes.set channel (p'.send [bytes]))[c]? = some q := hq
    by_cases hc : channel = c
    · subst hc
      rw [List.getElem?_set_self hlt] at hq'
      obtain rfl := Option.some.inj hq'
      exact (h.pipes channel p' hp).send he [bytes]
    · rw [List.getElem?_set_ne hc] at hq'
      exact h.pipes c q hq'

lemma Inv.held_back (h : w.Inv) {sessionId : Nat} (hsink : w.routes.sinks.get sessionId = none) {bytes : Chunk}
    {victims : List Nat} {routes : Routes} (hr : w.routes.hold sessionId bytes victims = some routes) :
    Inv { w with routes := routes, log := .output sessionId bytes :: w.log } := by
  obtain ⟨hinv, hsinks, hothers, hself⟩ := Routes.hold_spec h.routes (Table.contains_eq_false.mpr hsink) hr
  refine ⟨hinv, fun s => ?_, fun s c hs => ?_, fun c p hp => ?_⟩
  · show routes.waiting s <:+ _
    rw [outputsSince_output]
    split_ifs with hs
    · subst hs
      rw [List.filter_append]
      exact hself.trans (List.suffix_append_self_iff.mpr (h.held s))
    · exact (hothers s hs).trans (h.held s)
  · have hs' : routes.sinks.get s = some c := hs
    rw [hsinks] at hs'
    have hne : s ≠ sessionId := by
      rintro rfl
      rw [hsink] at hs'
      cases hs'
    rw [outputsSince_output, if_neg hne]
    exact h.sinks s c hs'
  · rw [hsinks]
    exact h.pipes c p hp

/-- **Step**: what waits, what is on its way and what the terminals got belong together. -/
lemma inv_step : Invariant step Inv := by
  intro w e w' h hw
  cases e with
  | output sessionId bytes victims =>
    unfold step World.output at hw
    dsimp only at hw
    split at hw
    · next channel hsink =>
      split at hw
      · next p hp =>
        by_cases he : p.ended = true
        · rw [if_pos he] at hw
          obtain rfl := Option.some.inj hw
          exact h.lost hsink bytes
        · rw [if_neg he] at hw
          obtain rfl := Option.some.inj hw
          exact h.sent hsink hp (Bool.eq_false_iff.mpr he) bytes
      · cases hw
    · next hsink =>
      obtain ⟨routes, hr, rfl⟩ := Option.map_eq_some_iff.mp hw
      exact h.held_back hsink hr
  | install sessionId alive =>
    obtain rfl := Option.some.inj hw
    exact h.install sessionId alive
  | remove sessionId =>
    obtain rfl := Option.some.inj hw
    exact h.remove sessionId
  | pump channel =>
    refine h.at? hw (fun p q hq => ?_) fun p q hp hq => ?_
    · unfold Pipe.pump at hq
      split at hq
      · cases hq
      · split at hq
        · cases hq
        · cases hq
          exact ⟨rfl, rfl, rfl⟩
        · split_ifs at hq <;> cases hq <;> exact ⟨rfl, rfl, rfl⟩
    · refine (h.pipes channel p hp).pump (fun hup => ?_) hq
      exact bne_iff_ne.mp hup
  | recv channel =>
    refine h.at? hw (fun p q hq => ?_) fun p q hp hq => (h.pipes channel p hp).recv hq
    unfold Pipe.recv at hq
    split at hq
    · split_ifs at hq <;> cases hq <;> exact ⟨rfl, rfl, rfl⟩
    · cases hq
  | tryRecv channel =>
    refine h.at? hw (fun p q hq => ?_) fun p q hp hq => (h.pipes channel p hp).tryRecv hq
    unfold Pipe.tryRecv at hq
    split at hq
    · split_ifs at hq
      cases hq
      exact ⟨rfl, rfl, rfl⟩
    · cases hq
  | endBatch channel =>
    refine h.at? hw (fun p q hq => ?_) fun p q hp hq => (h.pipes channel p hp).endBatch hq
    obtain ⟨-, heq⟩ := Option.ite_none_right_eq_some.mp hq
    cases heq
    exact ⟨rfl, rfl, rfl⟩
  | unmount channel =>
    refine h.at? hw (fun p q hq => ?_) fun p q hp hq => ?_
    · cases hq
      exact ⟨rfl, rfl, rfl⟩
    · cases hq
      exact (h.pipes channel p hp).unmount
  | cancel channel =>
    refine h.at? hw (fun p q hq => ?_) fun p q hp hq => ?_
    · obtain ⟨-, heq⟩ := Option.ite_none_right_eq_some.mp hq
      cases heq
      exact ⟨rfl, rfl, rfl⟩
    · obtain ⟨hzero, heq⟩ := Option.ite_none_right_eq_some.mp hq
      cases heq
      exact (h.pipes channel p hp).cancel hzero

lemma inv_run {events : List Event} (h : exec step {} events = some w) : w.Inv := Invariant.exec inv_step inv_start h

end World

/-- **Routing**: whatever the interleaving, the count of the bytes that wait is exact and at most the limit; what waits for a
session is the end of its output since it last had a sink (of the chunks small enough to wait), at most 128 chunks and none
when it has a sink; and the sink of a session got what waited for it followed by every output since, in order. -/
theorem output_routed (events : List Event) (w : World) (h : exec step {} events = some w) :
    w.routes.pendingBytes = w.routes.pending.sum size ∧ w.routes.pendingBytes ≤ 524288 ∧
    (∀ sessionId, w.routes.waiting sessionId <:+ (outputsSince sessionId w.log).filter Routes.small ∧
      (w.routes.waiting sessionId).length ≤ 128) ∧
    ∀ sessionId channel, w.routes.sinks.get sessionId = some channel →
      w.routes.waiting sessionId = [] ∧ ∃ p, w.pipes[channel]? = some p ∧ p.sessionId = sessionId ∧
        p.kept <:+ p.before.filter Routes.small ∧ p.sent = p.kept ++ outputsSince sessionId w.log := by
  have hinv := World.inv_run h
  refine ⟨hinv.routes.bytes, hinv.routes.bound, fun s => ⟨hinv.held s, ?_⟩, fun s channel hs => ⟨?_, ?_⟩⟩
  · unfold Routes.waiting
    cases hget : w.routes.pending.get s with
    | none => exact Nat.zero_le _
    | some chunks => exact (hinv.routes.queues s chunks hget).2
  · exact Routes.waiting_of_none (hinv.routes.apart s (Table.contains_of_get hs))
  · obtain ⟨p, hp, hsession, hsent⟩ := hinv.sinks s channel hs
    exact ⟨p, hp, hsession, (hinv.pipes channel p hp).kept, hsent⟩

/-- a chunk that waits for its sink, and one that comes after -/
theorem output_routed_attach : ∃ p,
    [{ sessionId := 5
       reader := { queue := [[1, 2], [3]] }
       before := [[1, 2]]
       kept := [[1, 2]]
       sent := [[1, 2], [3]] : Pipe }][0]? = some p ∧ p.sessionId = 5 ∧ p.kept <:+ p.before.filter Routes.small ∧
      p.sent = p.kept ++ outputsSince 5 [.output 5 [3], .reset 5, .output 5 [1, 2]] :=
  ((output_routed [.output 5 [1, 2] [], .install 5 true, .output 5 [3] []]
    { routes := { sinks := ⟨[(5, 0)]⟩ }
      pipes := [{
        sessionId := 5
        reader := { queue := [[1, 2], [3]] }
        before := [[1, 2]]
        kept := [[1, 2]]
        sent := [[1, 2], [3]] }]
      log := [.output 5 [3], .reset 5, .output 5 [1, 2]] } rfl).2.2.2 5 0 rfl).2

end TerminalManager.Pty.Output
