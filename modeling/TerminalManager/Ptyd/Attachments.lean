import TerminalManager.Lib.Monitor
import TerminalManager.Ptyd.Sinks

/-!
# Attachments of many connections

Any number of connections (`daemon/handler.rs`) share one registry.  A connection serves one
request at a time and keeps the keys `(session_id, attachment_token)` of its forwarders;
`DetachSession` and the clean-up of a closed connection detach the keys it finds there, one after
the other, and between any two registry calls the other connections run.

* `Daemon.step`      the interleavings: the registry is the `Monitor` of `Operations`, called on
                     behalf of the connections;
* `Ledger`           the attachments the replies told of, against the table;
* `latest_sink`      **main result**: an open session keeps the sink of its latest attachment
                     until the connection that owns it detaches it, and no token is issued twice;
* `stolen_sink`      a run to the end of the id space, after which that fails.
-/

namespace TerminalManager.Ptyd
open Transition Interference OutputState

namespace Daemon

abbrev ConnectionId := Nat

/-- `(session_id, attachment_token)` -/
abbrev Key := Nat × AttachmentToken

/-- the requests that reach the table of sessions and may change it -/
inductive Request
  | shutdown (h : Host) (force : Bool)
  | retireIfIdle (h : Host)
  | spawnSession (h : Host) (q : Registry.SpawnRequest)
  | ensureSession (h : Host) (q : Registry.SpawnRequest) (scrollbackLines : Nat)
  | attachSession (sessionId scrollbackLines : Nat)
  | detachSession (sessionId : Nat)
  | killSession (sessionId : Nat)
  | resize (h : Host) (sessionId : Nat) (cols rows : UInt16)
  | renameSession (sessionId : Nat) (name : Option String)

/-- the registry call of a request; `DetachSession` makes one for each key it finds -/
def Request.call? : Request → Option Registry.Call
  | .shutdown h force => some (.beginShutdown h force)
  | .retireIfIdle h => some (.beginRetirement h)
  | .spawnSession h q => some (.spawn h q)
  | .ensureSession h q n => some (.ensure h q (min n snapshotMaxScrollbackLines))
  | .attachSession id n => some (.attachWithSnapshot id (min n snapshotMaxScrollbackLines))
  | .detachSession _ => none
  | .killSession id => some (.remove id)
  | .resize h id cols rows => some (.resize h id cols rows)
  | .renameSession id name => some (.rename id name)

/-- a loop over the keys of a connection -/
inductive Loop
  /-- of `DetachSession` -/
  | session (sessionId : Nat)
  /-- `cleanup_forwarders` -/
  | cleanup
  deriving DecidableEq, Repr

def Loop.covers : Loop → Key → Bool
  | .session id, key => key.1 = id
  | .cleanup, _ => true

inductive Pc
  | idle
  /-- in the registry call of a request, or waiting for the mutex -/
  | calling (r : Request)
  | loop (l : Loop)
  /-- in `registry.detach(key)`, or waiting for the mutex -/
  | detaching (l : Loop) (key : Key)
  | closed

def Pc.call? : Pc → Option Registry.Call
  | .calling r => r.call?
  | .detaching _ key => some (.detach key.1 key.2)
  | _ => none

/-- a connection -/
structure Handler where
  forwarders : List Key
  pc : Pc

namespace Handler
variable {E : Emulator}

def new : Handler := ⟨[], .idle⟩

/-- `abort_forwarders_for_session` -/
def abortForwarders (h : Handler) (sessionId : Nat) : Handler :=
  { h with forwarders := h.forwarders.filter fun key => decide (key.1 ≠ sessionId) }

def insert (h : Handler) (key : Key) : Handler :=
  { h with forwarders := key :: h.forwarders.filter fun k => decide (k ≠ key) }

/-- the reply of the registry is dealt with and the response is sent -/
def answer (h : Handler) : Request → Registry.Reply E → Handler
  | .spawnSession _ _, .spawned (.ok s) =>
    { h.insert (s.sessionId, s.attachmentToken) with pc := .idle }
  | .ensureSession _ _ _, .ensured (.ok e) =>
    { (h.abortForwarders e.sessionId).insert (e.sessionId, e.attachmentToken) with pc := .idle }
  | .attachSession id _, .attachedWithSnapshot (.ok (some (token, _, _))) =>
    { (h.abortForwarders id).insert (id, token) with pc := .idle }
  | .killSession id, .removed _ => { h.abortForwarders id with pc := .idle }
  | .shutdown _ _, .stopped (.ok _) => { h with pc := .loop .cleanup }
  | .retireIfIdle _, .stopped (.ok _) => { h with pc := .loop .cleanup }
  -- the task of the connection dies of the panic, without a clean-up
  | _, .ensured (.error .panicked) => ⟨[], .closed⟩
  | _, .attachedWithSnapshot (.error .panicked) => ⟨[], .closed⟩
  | _, _ => { h with pc := .idle }

/-- the call is over -/
def resume (h : Handler) (reply : Registry.Reply E) : Handler :=
  match h.pc with
  | .calling r => h.answer r reply
  | .detaching l _ => { h with pc := .loop l }
  | _ => h

end Handler

/-- an attachment, and the connection that was told of it -/
structure Attachment where
  connection : ConnectionId
  sessionId : Nat
  token : AttachmentToken
  deriving DecidableEq, Repr

def Attachment.key (a : Attachment) : Key := (a.sessionId, a.token)

inductive Event
  | request (c : ConnectionId) (r : Request)
  /-- end of file, a broken socket, or the shutdown signal -/
  | disconnect (c : ConnectionId)
  /-- the loop of the connection takes its next key; the map has any order -/
  | next (c : ConnectionId) (key : Key)
  | done (c : ConnectionId)
  | enter (c : ConnectionId)
  | act
  | leave
  | host (e : Registry.HostEvent)

/-- the registry, called on behalf of connections -/
def monitor (E : Emulator) :
    Monitor (Registry E) (ConnectionId × Registry.Call) (Registry.Reply E) Registry.HostEvent where
  body c := c.2.body
  env := Registry.env

/-- the attachment a detach is for -/
def detachOf (c : ConnectionId) : Registry.Call → Option Attachment
  | .detach id token => some ⟨c, id, token⟩
  | _ => none

end Daemon

open Daemon

structure Daemon (E : Emulator) where
  lock : Monitor.State (Registry E) (ConnectionId × Registry.Call) (Registry.Reply E)
  handlers : ConnectionId → Handler
  /-- the attachments replies told of, the latest first -/
  issued : List Attachment
  /-- the attachments connections asked to detach, the latest first -/
  detached : List Attachment

namespace Daemon
variable {E : Emulator}

def start (E : Emulator) : Daemon E := ⟨Monitor.start .new, fun _ => .new, [], []⟩

def registry (d : Daemon E) : Registry E := d.lock.shared

def setHandler (d : Daemon E) (c : ConnectionId) (h : Handler) : Daemon E :=
  { d with handlers := fun x => if x = c then h else d.handlers x }

/-- the latest attachment to a session -/
def latest (d : Daemon E) (sessionId : Nat) : Option Attachment :=
  d.issued.find? fun a => a.sessionId = sessionId

def step (d : Daemon E) : Event → Option (Daemon E)
  | .request c r =>
    match (d.handlers c).pc, r with
    | .idle, .detachSession id => some (d.setHandler c { d.handlers c with pc := .loop (.session id) })
    | .idle, r => some (d.setHandler c { d.handlers c with pc := .calling r })
    | _, _ => none
  | .disconnect c =>
    match (d.handlers c).pc with
    | .idle => some (d.setHandler c { d.handlers c with pc := .loop .cleanup })
    | _ => none
  | .next c key =>
    match (d.handlers c).pc with
    | .loop l =>
      if key ∈ (d.handlers c).forwarders ∧ l.covers key then
        some (d.setHandler c ⟨(d.handlers c).forwarders.filter fun k => decide (k ≠ key),
          .detaching l key⟩)
      else none
    | _ => none
  | .done c =>
    match (d.handlers c).pc with
    | .loop l =>
      if (d.handlers c).forwarders.any l.covers then none
      else some (d.setHandler c { d.handlers c with
        pc := match l with | .session _ => .idle | .cleanup => .closed })
    | _ => none
  | .enter c =>
    match (d.handlers c).pc.call? with
    | some call =>
      ((monitor E).step d.lock (.enter (c, call))).map fun m =>
        { d with lock := m, detached := (detachOf c call).toList ++ d.detached }
    | none => none
  | .act => ((monitor E).step d.lock .act).map fun m => { d with lock := m }
  | .leave =>
    match d.lock.returning with
    | some ((c, call), _, reply) =>
      ((monitor E).step d.lock .leave).map fun m =>
        { d.setHandler c ((d.handlers c).resume reply) with
          lock := m
          issued := ((call.attachment reply).map fun key => ⟨c, key.1, key.2⟩).toList ++ d.issued }
    | none => none
  | .host e => ((monitor E).step d.lock (.env e)).map fun m => { d with lock := m }

/-! ## the ledger -/

/-- what is known of a sink: it is that of the last token, unless the session closed or a
connection was asked to detach that token -/
def Sunk (detached : List Attachment) (k : Nat) (o : OutputState) : Prop :=
  ∃ t, o.nextToken = t + 1 ∧ (o.current = some t ∨
    o.current = none ∧ (o.readerOpen = false ∨ ∃ c, ⟨c, k, t⟩ ∈ detached))

lemma sunk_fresh {l : List Attachment} {k t : Nat} {o : OutputState} (h : Fresh t o) :
    Sunk l k o :=
  ⟨t, h.nextToken, h.current.imp_right fun hc => ⟨hc.1, .inl hc.2⟩⟩

lemma Sunk.mono {l m : List Attachment} {k : Nat} {o : OutputState} (h : Sunk l k o)
    (hlm : l ⊆ m) : Sunk m k o := by
  obtain ⟨t, ht, hc⟩ := h
  exact ⟨t, ht, hc.imp_right fun hc => ⟨hc.1, hc.2.imp_right fun ⟨c, hm⟩ => ⟨c, hlm hm⟩⟩⟩

lemma Sunk.kept {l : List Attachment} {k : Nat} {d : Option AttachmentToken} {o o' : OutputState}
    (h : Sunk l k o) (hk : Kept d o o') (hd : ∀ t, d = some t → ∃ c, ⟨c, k, t⟩ ∈ l) : Sunk l k o' := by
  obtain ⟨t, ht, hc⟩ := h
  refine ⟨t, hk.nextToken.trans ht, ?_⟩
  have hclosed : o.readerOpen = false → o'.readerOpen = false := by
    intro hr
    by_contra hne
    rw [hk.reader (Bool.not_eq_false _ ▸ hne)] at hr
    cases hr
  rcases hk.current with hc' | ⟨hc', hr | ho⟩
  · rw [hc']
    exact hc.imp_right fun hc => ⟨hc.1, hc.2.imp_left hclosed⟩
  · exact .inr ⟨hc', .inl hr⟩
  · rcases hc with hc | ⟨-, hr⟩
    · exact .inr ⟨hc', .inr (hd t (ho.symm.trans hc))⟩
    · exact .inr ⟨hc', hr.imp_left hclosed⟩

/-- the attachments issued, against the table between two calls -/
structure Ledger (issued : List Attachment) (r : Registry E) : Prop where
  numbered : r.Numbered
  below : ∀ a ∈ issued, a.sessionId < r.nextId ∧
    ∀ s, r.get? a.sessionId = some s → a.token < s.output.nextToken
  latest : ∀ (k : Nat) (s : Session E), r.get? k = some s →
    ∃ a, issued.find? (fun a => a.sessionId = k) = some a ∧ a.token + 1 = s.output.nextToken
  nodup : (issued.map Attachment.key).Nodup

variable {issued : List Attachment} {r u : Registry E} {dt : Nat → Option AttachmentToken}

lemma ledger_new : Ledger [] (Registry.new : Registry E) where
  numbered _ _ h := by cases h
  below _ h := absurd h List.not_mem_nil
  latest _ _ h := by cases h
  nodup := List.nodup_nil

/-- nothing was attached -/
lemma Ledger.quiet (h : Ledger issued r) (hs : Registry.Sinks dt none r u) : Ledger issued u where
  numbered := hs.numbered h.numbered
  below a ha := by
    obtain ⟨h1, h2⟩ := h.below a ha
    refine ⟨Nat.lt_of_lt_of_le h1 hs.nextId, fun s' hs' => ?_⟩
    obtain ⟨s, hk, hkept⟩ := hs.kept _ s' hs' (by simp)
    rw [hkept.nextToken]
    exact h2 s hk
  latest k s' hs' := by
    obtain ⟨s, hk, hkept⟩ := hs.kept _ s' hs' (by simp)
    rw [hkept.nextToken]
    exact h.latest k s hk
  nodup := h.nodup

/-- **A new attachment.**  Its token is new to the session. -/
lemma Ledger.attach {c : ConnectionId} {k t : Nat} (h : Ledger issued r)
    (hs : Registry.Sinks dt (some (k, t)) r u) : Ledger (⟨c, k, t⟩ :: issued) u := by
  have hnum := hs.numbered h.numbered
  -- an earlier attachment to the session has a smaller token
  have hnew : ∀ a ∈ issued, a.sessionId = k → a.token < t := by
    intro a ha hak
    obtain ⟨h1, h2⟩ := h.below a ha
    rcases hs.origin k t rfl with ⟨hlo, -⟩ | ⟨s, hsk, hst⟩
    · rw [hak] at h1
      exact absurd h1 (Nat.not_lt.mpr hlo)
    · rw [← hst]
      exact h2 s (hak ▸ hsk)
  have hold : ∀ i s', u.get? i = some s' → i ≠ k →
      ∃ s, r.get? i = some s ∧ Kept (dt i) s.output s'.output := fun i s' hi hne =>
    hs.kept i s' hi fun t' e => hne (congrArg Prod.fst (Option.some.inj e)).symm
  refine ⟨hnum, fun a ha => ?_, fun i s' hi => ?_, ?_⟩
  · rcases List.mem_cons.mp ha with rfl | ha
    · refine ⟨?_, fun s' hs' => ?_⟩
      · rcases hs.origin k t rfl with ⟨-, hhi⟩ | ⟨s, hsk, -⟩
        · exact hhi
        · exact Nat.lt_of_lt_of_le (h.numbered k s hsk) hs.nextId
      · rw [(hs.fresh k t s' rfl hs').nextToken]
        exact Nat.lt_succ_self t
    · obtain ⟨h1, h2⟩ := h.below a ha
      refine ⟨Nat.lt_of_lt_of_le h1 hs.nextId, fun s' hs' => ?_⟩
      by_cases hak : a.sessionId = k
      · rw [(hs.fresh k t s' rfl (hak ▸ hs')).nextToken]
        exact Nat.lt_succ_of_lt (hnew a ha hak)
      · obtain ⟨s, hk, hkept⟩ := hold _ s' hs' hak
        rw [hkept.nextToken]
        exact h2 s hk
  · by_cases hik : i = k
    · subst hik
      refine ⟨⟨c, i, t⟩, ?_, (hs.fresh i t s' rfl hi).nextToken.symm⟩
      exact List.find?_cons_of_pos (by simp)
    · obtain ⟨s, hk, hkept⟩ := hold i s' hi hik
      obtain ⟨a, ha, hat⟩ := h.latest i s hk
      refine ⟨a, ?_, hat.trans hkept.nextToken.symm⟩
      rw [List.find?_cons_of_neg (by simpa using Ne.symm hik)]
      exact ha
  · rw [List.map_cons, List.nodup_cons]
    refine ⟨fun hm => ?_, h.nodup⟩
    obtain ⟨a, ha, hkey⟩ := List.mem_map.mp hm
    have hk : a.sessionId = k := congrArg Prod.fst hkey
    have ht : a.token = t := congrArg Prod.snd hkey
    exact Nat.ne_of_lt (hnew a ha hk) ht

/-! ## the invariant -/

/-- the table as it was when the mutex was last free -/
def base (d : Daemon E) : Registry E :=
  match d.lock.holder with
  | some run => run.entry
  | none => d.registry

abbrev Good (s : Monitor.State (Registry E) (ConnectionId × Registry.Call) (Registry.Reply E)) : Prop :=
  (monitor E).Good Registry.Unsaturated (fun _ => True) (fun c => Registry.sinkGuar c.2)
    (fun _ => Registry.SinkStep.refl) (fun c => Registry.sinkPost c.2) s

structure Inv (d : Daemon E) : Prop where
  good : Good d.lock
  ledger : Ledger d.issued d.base
  sunk : ∀ (k : Nat) (s : Session E), d.registry.get? k = some s → Sunk d.detached k s.output
  /-- a connection holds the keys of its own attachments only -/
  forwarders : ∀ c, ∀ key ∈ (d.handlers c).forwarders, ⟨c, key.1, key.2⟩ ∈ d.issued
  detaching : ∀ c l key, (d.handlers c).pc = .detaching l key → ⟨c, key.1, key.2⟩ ∈ d.issued
  detached : d.detached ⊆ d.issued
  holder : ∀ run, d.lock.holder = some run → (d.handlers run.call.1).pc.call? = some run.call.2 ∧
    ∀ a ∈ detachOf run.call.1 run.call.2, a ∈ d.detached

lemma inv_start : (start E).Inv where
  good := trivial
  ledger := ledger_new
  sunk _ _ h := by cases h
  forwarders _ _ h := absurd h List.not_mem_nil
  detaching _ _ _ h := by cases h
  detached := List.nil_subset _
  holder _ h := by cases h

/-- a connection moves on without the registry -/
lemma Inv.setHandler {d : Daemon E} (h : d.Inv) {c : ConnectionId} {x : Handler}
    (hf : x.forwarders ⊆ (d.handlers c).forwarders)
    (hd : ∀ l key, x.pc = .detaching l key → key ∈ (d.handlers c).forwarders)
    (hp : (d.handlers c).pc.call? = none) : (d.setHandler c x).Inv where
  good := h.good
  ledger := h.ledger
  sunk := h.sunk
  forwarders c' key hk := by
    have hk' : key ∈ (if c' = c then x else d.handlers c').forwarders := hk
    split at hk'
    · rename_i e
      rw [e]
      exact h.forwarders c key (hf hk')
    · exact h.forwarders c' key hk'
  detaching c' l key hpc := by
    have hpc' : (if c' = c then x else d.handlers c').pc = .detaching l key := hpc
    split at hpc'
    · rename_i e
      rw [e]
      exact h.forwarders c key (hd l key hpc')
    · exact h.detaching c' l key hpc'
  detached := h.detached
  holder run hr := by
    obtain ⟨h1, h2⟩ := h.holder run hr
    refine ⟨?_, h2⟩
    have hne : run.call.1 ≠ c := by
      intro e
      rw [e, hp] at h1
      cases h1
    show (if run.call.1 = c then x else d.handlers run.call.1).pc.call? = _
    rw [if_neg hne]
    exact h1

lemma detachOf_call {pc : Pc} {call : Registry.Call} {c : ConnectionId} {a : Attachment}
    (h : pc.call? = some call) (ha : a ∈ detachOf c call) :
    ∃ l key, pc = .detaching l key ∧ a = ⟨c, key.1, key.2⟩ := by
  cases pc with
  | idle => cases h
  | loop l => cases h
  | closed => cases h
  | calling r =>
    cases r with
    | detachSession id => cases h
    | _ =>
      cases h
      cases ha
  | detaching l key =>
    cases h
    cases ha
    exact ⟨l, key, rfl, rfl⟩

lemma detachOf_detaches {call : Registry.Call} {c : ConnectionId} {k t : Nat}
    (h : call.detaches k = some t) : (⟨c, k, t⟩ : Attachment) ∈ detachOf c call := by
  cases call with
  | detach id token =>
    have h' : (if k = id then some token else none) = some t := h
    split at h'
    · rename_i e
      cases h'
      rw [e]
      rfl
    · cases h'
  | _ => cases h

/-- a connection comes back from a call with its old keys and that of the attachment it made -/
lemma resume_forwarders {x : Handler} {call : Registry.Call} {reply : Registry.Reply E} {key : Key}
    (h : x.pc.call? = some call) (hk : key ∈ (x.resume reply).forwarders) :
    key ∈ x.forwarders ∨ call.attachment reply = some key := by
  obtain ⟨forwarders, pc⟩ := x
  have hins : ∀ (l : List Key) (new : Key), l ⊆ forwarders →
      key ∈ new :: l.filter (fun k => decide (k ≠ new)) → key ∈ forwarders ∨ some new = some key := by
    intro l new hl hm
    rcases List.mem_cons.mp hm with rfl | hm
    · exact .inr rfl
    · exact .inl (hl (List.mem_filter.mp hm).1)
  have habort : ∀ id : Nat, forwarders.filter (fun k : Key => decide (k.1 ≠ id)) ⊆ forwarders :=
    fun id => List.filter_sublist.subset
  cases pc with
  | idle => cases h
  | loop l => cases h
  | closed => cases h
  | detaching l k => exact .inl hk
  | calling r =>
    simp only [Handler.resume] at hk
    unfold Handler.answer at hk
    split at hk
    · cases h
      exact hins _ _ (List.Subset.refl _) hk
    · cases h
      exact hins _ _ (habort _) hk
    · cases h
      exact hins _ _ (habort _) hk
    · exact .inl (habort _ hk)
    · exact .inl hk
    · exact .inl hk
    · exact absurd hk List.not_mem_nil
    · exact absurd hk List.not_mem_nil
    · exact .inl hk

lemma resume_pc {x : Handler} {reply : Registry.Reply E} {l : Loop} {key : Key}
    (h : x.pc.call? ≠ none) : (x.resume reply).pc ≠ .detaching l key := by
  obtain ⟨forwarders, pc⟩ := x
  intro e
  cases pc with
  | idle => exact h rfl
  | loop l => exact h rfl
  | closed => exact h rfl
  | detaching l k => cases e
  | calling r =>
    simp only [Handler.resume] at e
    unfold Handler.answer at e
    split at e <;> cases e

lemma good_step {m m' : Monitor.State (Registry E) (ConnectionId × Registry.Call) (Registry.Reply E)}
    {e : Monitor.Event (ConnectionId × Registry.Call) Registry.HostEvent} (h : Good m)
    (hM : m.shared.Unsaturated) (he : (monitor E).step m e = some m')
    (hM' : m'.shared.Unsaturated) : Good m' :=
  Monitor.good_step (fun _ _ _ _ _ _ => trivial) (fun c _ _ hs => Registry.sinks_body c.2 hs)
    (fun _ _ _ _ _ => trivial) h hM he hM'

lemma Inv.step_sunk {d : Daemon E} (h : d.Inv) {dt : Nat → Option AttachmentToken} {u : Registry E}
    (hs : Registry.SinkStep dt d.registry u)
    (hd : ∀ k t, dt k = some t → ∃ c, ⟨c, k, t⟩ ∈ d.detached) :
    ∀ (k : Nat) (s : Session E), u.get? k = some s → Sunk d.detached k s.output := by
  intro k s' hk
  rcases hs k s' hk with ⟨t, hf⟩ | ⟨s, hks, hkept⟩
  · exact sunk_fresh hf
  · exact (h.sunk k s hks).kept hkept (hd k)

lemma inv_enter {d d' : Daemon E} {c : ConnectionId} (h : d.Inv) (hM : d.registry.Unsaturated)
    (he : d.step (.enter c) = some d') : d'.Inv := by
  simp only [step] at he
  split at he
  · rename_i call hpc
    obtain ⟨m, hm, rfl⟩ := Option.map_eq_some_iff.mp he
    obtain ⟨c', e, hfree, -, rfl⟩ | ⟨_, _, _, _, e, -⟩ | ⟨_, _, _, e, -⟩ | ⟨_, _, e, -⟩ :=
      Monitor.step_cases h.good hm
    · cases e
      have hown : ∀ a ∈ detachOf c call, a ∈ d.issued := by
        intro a ha
        obtain ⟨l, key, hp, rfl⟩ := detachOf_call hpc ha
        exact h.detaching c l key hp
      have hbase : d.base = d.registry := by rw [base, hfree]
      have hled : Ledger d.issued d.registry := hbase ▸ h.ledger
      refine ⟨good_step h.good hM hm hM, hled, fun k s hk => ?_, h.forwarders,
        h.detaching, fun a ha => ?_, fun run hr => ?_⟩
      · exact (h.sunk k s hk).mono (List.subset_append_right _ _)
      · rcases List.mem_append.mp ha with ha | ha
        · exact hown a (Option.mem_toList.mp ha)
        · exact h.detached ha
      · cases hr
        exact ⟨hpc, fun a ha => List.mem_append_left _ (Option.mem_toList.mpr ha)⟩
    · cases e
    · cases e
    · cases e
  · cases he

lemma inv_act {d d' : Daemon E} (h : d.Inv) (hM : d.registry.Unsaturated)
    (hM' : d'.registry.Unsaturated) (he : d.step .act = some d') : d'.Inv := by
  obtain ⟨m, hm, rfl⟩ := Option.map_eq_some_iff.mp he
  obtain ⟨_, e, -⟩ | ⟨c, s₀, f, k, -, hr, hg, rfl⟩ | ⟨_, _, _, e, -⟩ | ⟨_, _, e, -⟩ :=
    Monitor.step_cases h.good hm
  · cases e
  · obtain ⟨hpc, hdet⟩ := h.holder _ hr
    have hbase : d.base = s₀ := by rw [base, hr]
    refine ⟨good_step h.good hM hm hM', hbase ▸ h.ledger, ?_, h.forwarders, h.detaching, h.detached,
      fun run hrun => ?_⟩
    · exact h.step_sunk hg fun i t hi => ⟨c.1, hdet _ (detachOf_detaches hi)⟩
    · cases hrun
      exact ⟨hpc, hdet⟩
  · cases e
  · cases e

lemma inv_leave {d d' : Daemon E} (h : d.Inv) (hM : d.registry.Unsaturated)
    (he : d.step .leave = some d') : d'.Inv := by
  simp only [step] at he
  split at he
  · rename_i c call s₀ reply hret
    obtain ⟨m, hm, rfl⟩ := Option.map_eq_some_iff.mp he
    obtain ⟨_, e, -⟩ | ⟨_, _, _, _, e, -⟩ | ⟨c', s', r', -, hret', hpost, rfl⟩ | ⟨_, _, e, -⟩ :=
      Monitor.step_cases h.good hm
    · cases e
    · cases e
    · rw [hret] at hret'
      cases hret'
      have hpost' : Registry.Sinks call.detaches (call.attachment reply) s₀ d.registry := hpost
      have hr : d.lock.holder = some ⟨(c, call), s₀, .ret reply⟩ := by
        obtain ⟨⟨sh, _ | ⟨x, y, r | ⟨f, k⟩⟩⟩, hs, is, ds⟩ := d
        · cases hret
        · cases hret
          rfl
        · cases hret
      obtain ⟨hpc, -⟩ := h.holder _ hr
      have hbase : d.base = s₀ := by rw [base, hr]
      have hmono : d.issued ⊆ ((call.attachment reply).map fun key =>
          (⟨c, key.1, key.2⟩ : Attachment)).toList ++ d.issued := List.subset_append_right _ _
      refine ⟨good_step h.good hM hm hM, ?_, h.sunk, fun c' key hk => ?_, fun c' l key hp => ?_,
        fun a ha => hmono (h.detached ha), fun run hrun => by cases hrun⟩
      · have hled : Ledger d.issued s₀ := hbase ▸ h.ledger
        cases ha : call.attachment reply with
        | none =>
          rw [ha] at hpost'
          exact hled.quiet hpost'
        | some key =>
          rw [ha] at hpost'
          exact hled.attach hpost'
      · have hk' : key ∈ (if c' = c then (d.handlers c).resume reply else d.handlers c').forwarders := hk
        split at hk'
        · rename_i e
          rw [e]
          rcases resume_forwarders hpc hk' with hk' | ha
          · exact hmono (h.forwarders c key hk')
          · show _ ∈ ((call.attachment reply).map _).toList ++ d.issued
            rw [ha]
            exact List.mem_cons_self
        · exact hmono (h.forwarders c' key hk')
      · have hp' : (if c' = c then (d.handlers c).resume reply else d.handlers c').pc
            = .detaching l key := hp
        split at hp'
        · exact absurd hp' (resume_pc (by rw [hpc]; exact Option.some_ne_none _))
        · exact hmono (h.detaching c' l key hp')
    · cases e
  · cases he

lemma inv_host {d d' : Daemon E} {v : Registry.HostEvent} (h : d.Inv) (hM : d.registry.Unsaturated)
    (hM' : d'.registry.Unsaturated) (he : d.step (.host v) = some d') : d'.Inv := by
  obtain ⟨m, hm, rfl⟩ := Option.map_eq_some_iff.mp he
  obtain ⟨_, e, -⟩ | ⟨_, _, _, _, e, -⟩ | ⟨_, _, _, e, -⟩ | ⟨v', u, e, hu, rfl⟩ :=
    Monitor.step_cases h.good hm
  · cases e
  · cases e
  · cases e
  · cases e
    have hs : Registry.Sinks Registry.noDetach none d.registry u := Registry.sinks_env hu
    refine ⟨good_step h.good hM hm hM', ?_, ?_, h.forwarders, h.detaching, h.detached, h.holder⟩
    · have hled := h.ledger
      unfold base at hled ⊢
      cases hh : d.lock.holder with
      | none =>
        rw [hh] at hled
        exact hled.quiet hs
      | some run =>
        rw [hh] at hled
        exact hled
    · exact h.step_sunk hs.step fun k t e => by cases e

/-- **Every step keeps the invariant**, as long as the id counter has not saturated. -/
theorem step_inv {d d' : Daemon E} {e : Event} (h : d.Inv) (hM : d.registry.Unsaturated)
    (hM' : d'.registry.Unsaturated) (he : d.step e = some d') : d'.Inv := by
  cases e with
  | request c r =>
    simp only [step] at he
    split at he
    · rename_i hp
      cases he
      exact h.setHandler (List.Subset.refl _) (fun _ _ e => by cases e) (by rw [hp]; rfl)
    · rename_i hp _
      cases he
      exact h.setHandler (List.Subset.refl _) (fun _ _ e => by cases e) (by rw [hp]; rfl)
    · cases he
  | disconnect c =>
    simp only [step] at he
    split at he
    · rename_i hp
      cases he
      exact h.setHandler (List.Subset.refl _) (fun _ _ e => by cases e) (by rw [hp]; rfl)
    · cases he
  | next c key =>
    simp only [step] at he
    split at he
    · rename_i l hp
      split at he
      · rename_i hk
        cases he
        refine h.setHandler List.filter_sublist.subset (fun l' key' e => ?_) (by rw [hp]; rfl)
        cases e
        exact hk.1
      · cases he
    · cases he
  | done c =>
    simp only [step] at he
    split at he
    · rename_i l hp
      split at he
      · cases he
      · cases he
        refine h.setHandler (List.Subset.refl _) (fun l' key' e => ?_) (by rw [hp]; rfl)
        cases l <;> cases e
    · cases he
  | enter c => exact inv_enter h hM he
  | act => exact inv_act h hM hM' he
  | leave => exact inv_leave h hM he
  | host v => exact inv_host h hM hM' he

lemma exec_inv {es : List Event} {d : Daemon E}
    (hM : Throughout step (fun d => d.registry.Unsaturated) (start E) es)
    (h : exec step (start E) es = some d) : d.Inv :=
  (exec_guarded (I := fun d => d.Inv ∧ d.registry.Unsaturated)
    (fun _ _ d' hs hC he => ⟨step_inv hs.1 hs.2 (hC d' he) he, hC d' he⟩)
    ⟨inv_start, hM.1⟩ hM.2 h).1

/-- **A stale detach is harmless.**  As long as the id counter has not saturated, in every run of
any number of connections: no token is issued twice for one session; a session whose reader is
open has the sink of the last token it handed out, unless the connection that was told of that
token has asked to detach it; and between two calls that is the latest attachment a reply told
of. -/
theorem latest_sink {es : List Event} {d : Daemon E}
    (hM : Throughout step (fun d => d.registry.Unsaturated) (start E) es)
    (h : exec step (start E) es = some d) :
    (d.issued.map Attachment.key).Nodup ∧
    (∀ (k : Nat) (s : Session E), d.registry.get? k = some s → s.output.readerOpen = true →
      s.output.current = some (s.output.nextToken - 1) ∨
      s.output.current = none ∧ ∃ a ∈ d.detached, a ∈ d.issued ∧ a.sessionId = k ∧
        a.token + 1 = s.output.nextToken) ∧
    (d.lock.holder = none → ∀ (k : Nat) (s : Session E), d.registry.get? k = some s →
      s.output.readerOpen = true → ∃ a, d.latest k = some a ∧
        (s.output.current = some a.token ∨ s.output.current = none ∧ a ∈ d.detached)) := by
  have hI := exec_inv hM h
  have hsink : ∀ (k : Nat) (s : Session E), d.registry.get? k = some s → s.output.readerOpen = true →
      s.output.current = some (s.output.nextToken - 1) ∨
      s.output.current = none ∧ ∃ a ∈ d.detached, a ∈ d.issued ∧ a.sessionId = k ∧
        a.token + 1 = s.output.nextToken := by
    intro k s hk hopen
    obtain ⟨t, ht, hc⟩ := hI.sunk k s hk
    rcases hc with hc | ⟨hc, hr | ⟨c, hm⟩⟩
    · left
      rw [hc, ht]
      rfl
    · rw [hopen] at hr
      cases hr
    · exact .inr ⟨hc, ⟨c, k, t⟩, hm, hI.detached hm, rfl, ht.symm⟩
  refine ⟨hI.ledger.nodup, hsink, fun hfree k s hk hopen => ?_⟩
  have hled := hI.ledger
  rw [base, hfree] at hled
  obtain ⟨a, ha, hat⟩ := hled.latest k s hk
  have hak : a.sessionId = k := by simpa using List.find?_some ha
  refine ⟨a, ha, ?_⟩
  rcases hsink k s hk hopen with hc | ⟨hc, b, hb, hbi, hbk, hbt⟩
  · left
    rw [hc, ← hat]
    rfl
  · -- the attachment that was detached is the latest one
    have hkey : b.key = a.key := by
      rw [Attachment.key, Attachment.key, hbk, hak, Nat.succ.inj (hbt.trans hat.symm)]
    have hba := List.inj_on_of_nodup_map hI.ledger.nodup hbi (List.mem_of_find?_eq_some ha) hkey
    exact .inr ⟨hc, hba ▸ hb⟩

/-! ### sample runs -/

/-- a connection calls the registry, which takes `n` actions -/
def calling (c : ConnectionId) (n : Nat) : List Event :=
  .enter c :: List.replicate n .act ++ [.leave]

/-- `SpawnSession` for a pane, when `n` other sessions live -/
def spawning (c : ConnectionId) (paneId : UInt32) (n : Nat) : List Event :=
  .request c (.spawnSession Registry.quietHost ⟨80, 24, 1, paneId, none⟩) :: calling c (5 + 2 * n)

/-- the connection closes and cleans up after one attachment -/
def closing (c : ConnectionId) (key : Key) : List Event :=
  [.disconnect c, .next c key] ++ calling c 1 ++ [.done c]

/-- the connection that spawned a session closes after another one has attached -/
def staleCleanup : List Event :=
  spawning 1 1 0 ++ .request 2 (.attachSession 1 10) :: calling 2 1 ++ closing 1 (1, 1)

theorem latest_sink_stale : ∃ d s, exec step (start .transcript) staleCleanup = some d ∧
    d.registry.get? 1 = some s ∧ s.output.current = some 2 ∧
    ∃ a, d.latest 1 = some a ∧ (s.output.current = some a.token ∨
      s.output.current = none ∧ a ∈ d.detached) := by
  refine ⟨_, _, rfl, rfl, rfl, ?_⟩
  exact (latest_sink (E := .transcript)
    (show Throughout step (fun d => d.registry.Unsaturated) (start _) staleCleanup by decide) rfl).2.2
    rfl 1 _ rfl rfl

/-- between two calls of idle connections, with no session and `n` the next id -/
structure Fallow (n : Nat) (d : Daemon .transcript) : Prop where
  lock : d.lock = Monitor.start ⟨∅, n, false, 0⟩
  handlers : ∀ c, d.handlers c = .new
  detached : d.detached = []

lemma erase_insert (n id : Nat) (s : Session .transcript) :
    ((⟨∅, n, false, 0⟩ : Registry .transcript).insert id s).erase id = ⟨∅, n, false, 0⟩ := by
  have h : (AList.insert id s (∅ : AList fun _ : Nat => Session .transcript)).erase id = ∅ := by
    apply AList.ext
    rw [AList.insert_empty]
    exact List.kerase_cons_eq rfl
  exact congrArg (fun x => (⟨x, n, false, 0⟩ : Registry .transcript)) h

/-- a session is spawned and killed -/
def spawnAndKill (id : Nat) : List Event :=
  spawning 0 1 0 ++ .request 0 (.killSession id) :: calling 0 1

lemma spawnAndKill_fallow {n : Nat} {d : Daemon .transcript} (h : Fallow n d) (hn : n ≠ u64Max) :
    ∃ d', exec step d (spawnAndKill n) = some d' ∧ Fallow (n + 1) d' := by
  obtain ⟨lock, handlers, issued, detached⟩ := d
  obtain ⟨rfl, hh, rfl⟩ := h
  obtain rfl : handlers = fun _ => .new := funext hh
  refine ⟨_, rfl, ?_, fun c => ?_, rfl⟩
  · show (⟨((if n = u64Max then (⟨∅, n, false, 0⟩ : Registry .transcript)
      else ⟨∅, n + 1, false, 0⟩).insert n _).erase n, none⟩ : Monitor.State _ _ _) = _
    rw [if_neg hn, erase_insert]
    rfl
  · by_cases hc : c = 0
    · rw [hc]
      show Handler.abortForwarders ⟨[(n, 1)], .idle⟩ n = .new
      simp [Handler.abortForwarders, Handler.new]
    · show (if c = 0 then _ else if c = 0 then _ else if c = 0 then _ else if c = 0 then _ else
        Handler.new) = Handler.new
      rw [if_neg hc, if_neg hc, if_neg hc, if_neg hc]

lemma reach_fallow (n : Nat) (hn : n + 1 ≤ u64Max) :
    ∃ es d, exec step (start .transcript) es = some d ∧ Fallow (n + 1) d := by
  induction n with
  | zero => exact ⟨[], _, rfl, rfl, fun _ => rfl, rfl⟩
  | succ n ih =>
    obtain ⟨es, d, hd, hf⟩ := ih (Nat.le_of_succ_le hn)
    obtain ⟨d', hd', hf'⟩ := spawnAndKill_fallow hf (Nat.ne_of_lt hn)
    refine ⟨es ++ spawnAndKill (n + 1), d', ?_, hf'⟩
    rw [exec_append, hd]
    exact hd'

/-- a connection with one attachment closes -/
lemma closing_spec {d : Daemon E} {c : ConnectionId} {k t : Nat} {s : Session E}
    (hlock : d.lock.holder = none) (hc : d.handlers c = ⟨[(k, t)], .idle⟩)
    (hs : d.registry.get? k = some s) : ∃ d', exec step d (closing c (k, t)) = some d' ∧
      d'.lock.holder = none ∧ d'.registry = d.registry.insert k (s.detach t).2 ∧
      d'.issued = d.issued ∧ d'.detached = ⟨c, k, t⟩ :: d.detached := by
  obtain ⟨⟨r, holder⟩, handlers, issued, detached⟩ := d
  cases hlock
  have hc' : handlers c = ⟨[(k, t)], .idle⟩ := hc
  have hs' : r.get? k = some s := hs
  simp [closing, calling, exec, step, setHandler, hc', Loop.covers, Pc.call?, Monitor.step, monitor,
    Registry.Call.body, Registry.detach, Prog.modifyGet, Monitor.State.returning, hs',
    Handler.resume, detachOf, Registry.Call.attachment, registry, bind, Prog.bind, pure]

/-- two connections spawn a session each -/
def spawnTwice : List Event := spawning 1 1 0 ++ spawning 2 2 1

/-- both sessions get the last id, and the table keeps the second -/
lemma spawnTwice_saturated {d : Daemon .transcript} (h : Fallow u64Max d) :
    ∃ d' r s, exec step d spawnTwice = some d' ∧ d'.lock = ⟨Registry.insert r u64Max s, none⟩ ∧
      s.output = .spawned ∧ s.pty = some .running ∧ d'.handlers 1 = ⟨[(u64Max, 1)], .idle⟩ ∧
      d'.latest u64Max = some ⟨2, u64Max, 1⟩ ∧ d'.detached = [] := by
  obtain ⟨lock, handlers, issued, detached⟩ := d
  obtain ⟨rfl, hh, rfl⟩ := h
  obtain rfl : handlers = fun _ => .new := funext hh
  exact ⟨_, _, _, rfl, rfl, rfl, rfl, rfl, rfl, rfl⟩

/-- **The end of the id space.**  When the counter has saturated, two sessions get the same id and
first token, and the clean-up of the connection of the first clears the sink of the second. -/
theorem stolen_sink : ∃ es d s, exec step (start .transcript) es = some d ∧ d.lock.holder = none ∧
    d.registry.get? u64Max = some s ∧ s.alive = true ∧ s.output.current = none ∧
    d.latest u64Max = some ⟨2, u64Max, 1⟩ ∧ d.detached = [⟨1, u64Max, 1⟩] := by
  obtain ⟨es, d₀, hd₀, hf⟩ := reach_fallow 0xFFFFFFFFFFFFFFFE (Nat.le_refl _)
  obtain ⟨d₁, r, s, hd₁, hlock, hout, hpty, hc, hlat, hdet⟩ := spawnTwice_saturated hf
  have hreg : d₁.registry = r.insert u64Max s := congrArg Monitor.State.shared hlock
  have hs : d₁.registry.get? u64Max = some s := by
    rw [hreg, Registry.get?_insert, if_pos rfl]
  obtain ⟨d₂, hd₂, hfree, hreg₂, hiss, hdet₂⟩ := closing_spec (by rw [hlock]) hc hs
  have hsink : (s.detach 1).2.output = { s.output with current := none, current_lt := by simp } := by
    show (s.output.detach 1).2 = _
    rw [detach, if_pos (by rw [hout]; rfl)]
  refine ⟨es ++ (spawnTwice ++ closing 1 (u64Max, 1)), d₂, (s.detach 1).2, ?_, hfree, ?_, ?_, ?_, ?_, ?_⟩
  · rw [exec_append, hd₀, Option.bind_some, exec_append, hd₁, Option.bind_some]
    exact hd₂
  · rw [hreg₂, Registry.get?_insert, if_pos rfl]
  · show ((s.output.detach 1).2.open? && s.childRunning) = true
    rw [detach_open?, Session.childRunning, hout, hpty]
    rfl
  · rw [hsink]
  · rw [latest, hiss]
    exact hlat
  · rw [hdet₂, hdet]

end Daemon
end TerminalManager.Ptyd
