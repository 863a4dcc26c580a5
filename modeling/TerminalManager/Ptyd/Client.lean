import Mathlib.Data.List.AList
import Mathlib.Logic.Function.Basic
import TerminalManager.Lib.Transition
import TerminalManager.Ptyd.Codec

/-!
# Calls of a client and its reader loop

`Client` (`client/mod.rs`): a caller puts the sender of a fresh channel in the pending map, writes
its request and waits for the channel, while `reader_loop` takes senders out as responses come in,
and drops all of them when it ends.  Everything done under one lock of the map is one step, and the
two sides interleave in any way.

* `Event`, `Client.step`   the steps of the caller, of the reader loop and of their surroundings;
* `Inv`            a call that waits for an open channel has its sender in the map;
* `no_stranded`    **main result**: when the reader loop has ended, nothing is pending and every call
  returns, if no call enters the map after the final clear;
* `stranded`       a call that does so waits forever.
-/

namespace TerminalManager.Ptyd

/-- the body of a control or event frame, as `serde_json` reads it -/
structure Json (ρ ε : Type) where
  response : List UInt8 → Option (UInt64 × ρ)
  event : List UInt8 → Option ε

/-- the one value a `oneshot` channel carries -/
inductive Channel (ρ : Type)
  | empty
  | sent (resp : ρ)
  | senderDropped
  deriving DecidableEq, Repr

def Channel.dropSender {ρ : Type} : Channel ρ → Channel ρ
  | .empty => .senderDropped
  | c => c

lemma Channel.dropSender_ne {ρ : Type} (c : Channel ρ) : c.dropSender ≠ .empty := by
  cases c with
  | empty => exact fun h => (by cases h)
  | sent resp => exact fun h => (by cases h)
  | senderDropped => exact fun h => (by cases h)

/-- where the caller is in `roundtrip`, with its channel and its id -/
inductive Call
  | idle
  | writing (channel : Nat) (id : UInt64)
  | writeFailed (channel : Nat) (id : UInt64)
  | awaiting (channel : Nat) (id : UInt64)
  deriving DecidableEq, Repr

/-- the channel and the id of a call that returns with its channel -/
def Call.slot : Call → Option (Nat × UInt64)
  | .writing n id => some (n, id)
  | .awaiting n id => some (n, id)
  | _ => none

inductive ReaderState
  | reading
  /-- the loop is left, and the map is not cleared yet -/
  | ending
  | done
  deriving DecidableEq, Repr

inductive Event
  /-- `roundtrip` is called: an id and a channel are made, and the sender goes into the map -/
  | roundtrip
  | written
  | writeFailed
  /-- the failed call takes its sender out of the map and returns -/
  | cleanup
  /-- `rx.await` is over -/
  | returned
  /-- the future of the call is dropped -/
  | cancel
  /-- what `read_frame` gives the reader loop -/
  | read (result : Except ReadError (Option Frame))
  /-- the final clear of the reader loop -/
  | finish
  /-- the receiver of the events is dropped -/
  | dropEvents

structure Client (ρ : Type) where
  next : UInt64
  pending : AList fun _ : UInt64 => Nat
  channels : Nat → Channel ρ
  opened : Nat
  call : Call
  reader : ReaderState
  receiver : Bool

namespace Client
variable {ρ ε : Type}

/-- `Client::connect_with_events`; `Client::connect` is the same with the receiver dropped at once -/
def start (receiver : Bool) : Client ρ := ⟨1, ∅, fun _ => .empty, 0, .idle, .reading, receiver⟩

/-- `RequestIds::next`, which saturates -/
def nextId (n : UInt64) : UInt64 := if n + 1 = 0 then n else n + 1

/-- the sender under `id` leaves the map, and is dropped -/
def dropSender (c : Client ρ) (id : UInt64) : Nat → Channel ρ :=
  match c.pending.lookup id with
  | some n => Function.update c.channels n (c.channels n).dropSender
  | none => c.channels

/-- one turn of `reader_loop`, with the frame -/
def dispatch (json : Json ρ ε) (c : Client ρ) (f : Frame) : Client ρ :=
  if f.kind = kindControl then
    match json.response f.payload with
    | none => { c with reader := .ending }
    | some (id, resp) =>
      match c.pending.lookup id with
      | none => c
      | some n =>
        { c with
          pending := c.pending.erase id
          channels := Function.update c.channels n (.sent resp) }
  else if f.kind = kindOutput then
    match decodeOutputPayload f.payload with
    | .error _ => { c with reader := .ending }
    | .ok _ => if c.receiver then c else { c with reader := .ending }
  else if f.kind = kindEvent then
    match json.event f.payload with
    | none => { c with reader := .ending }
    | some _ => if c.receiver then c else { c with reader := .ending }
  else { c with reader := .ending }

def step (json : Json ρ ε) (c : Client ρ) : Event → Option (Client ρ)
  | .roundtrip =>
    match c.call with
    | .idle =>
      some { c with
        next := nextId c.next
        -- a sender that is there already is replaced, and dropped
        channels := c.dropSender c.next
        pending := c.pending.insert c.next c.opened
        opened := c.opened + 1
        call := .writing c.opened c.next }
    | _ => none
  | .written =>
    match c.call with
    | .writing n id => some { c with call := .awaiting n id }
    | _ => none
  | .writeFailed =>
    match c.call with
    | .writing n id => some { c with call := .writeFailed n id }
    | _ => none
  | .cleanup =>
    match c.call with
    | .writeFailed _ id =>
      some { c with channels := c.dropSender id, pending := c.pending.erase id, call := .idle }
    | _ => none
  | .returned =>
    match c.call with
    | .awaiting n _ =>
      match c.channels n with
      | .empty => none
      | _ => some { c with call := .idle }
    | _ => none
  | .cancel =>
    match c.call with
    | .idle => none
    | _ => some { c with call := .idle }
  | .read result =>
    match c.reader, result with
    | .reading, .ok (some f) => some (c.dispatch json f)
    | .reading, _ => some { c with reader := .ending }
    | _, _ => none
  | .finish =>
    match c.reader with
    | .ending =>
      some { c with
        channels := fun n =>
          if n ∈ c.pending.entries.map Sigma.snd then (c.channels n).dropSender else c.channels n
        pending := ∅
        reader := .done }
    | _ => none
  | .dropEvents => some { c with receiver := false }

/-! ## the invariant -/

variable {json : Json ρ ε} {c d : Client ρ} {e : Event} {n : Nat} {id : UInt64}

/-- what a frame does: nothing, the end of the loop, or one sender is used -/
lemma dispatch_cases (json : Json ρ ε) (c : Client ρ) (f : Frame) :
    c.dispatch json f = c ∨ c.dispatch json f = { c with reader := .ending } ∨
      ∃ id n resp, c.pending.lookup id = some n ∧ c.dispatch json f = { c with
        pending := c.pending.erase id
        channels := Function.update c.channels n (.sent resp) } := by
  unfold dispatch
  split
  · cases json.response f.payload with
    | none => exact .inr (.inl rfl)
    | some x =>
      obtain ⟨id, resp⟩ := x
      cases h : c.pending.lookup id with
      | none => exact .inl (by simp only [h])
      | some n => exact .inr (.inr ⟨id, n, resp, h, by simp only [h]⟩)
  · split
    · cases decodeOutputPayload f.payload with
      | error e => exact .inr (.inl rfl)
      | ok x =>
        by_cases hr : c.receiver = true
        · exact .inl (if_pos hr)
        · exact .inr (.inl (if_neg hr))
    · split
      · cases json.event f.payload with
        | none => exact .inr (.inl rfl)
        | some x =>
          by_cases hr : c.receiver = true
          · exact .inl (if_pos hr)
          · exact .inr (.inl (if_neg hr))
      · exact .inr (.inl rfl)

structure Inv (c : Client ρ) : Prop where
  cleared : c.reader = .done → c.pending = ∅
  /-- the sender of an open channel that is waited for is in the map -/
  waits : ∀ n id, c.call.slot = some (n, id) → c.channels n = .empty → c.pending.lookup id = some n

lemma inv_start (receiver : Bool) : Inv (start receiver : Client ρ) :=
  ⟨fun h => (by cases h), fun n id h => (by cases h)⟩

/-- the loop goes on or is left -/
lemma Inv.reading (hi : Inv c) {r : ReaderState} (hr : r ≠ .done) : Inv { c with reader := r } :=
  ⟨fun h => absurd h hr, hi.waits⟩

/-- one sender is used -/
lemma Inv.respond (hi : Inv c) (hr : c.reader ≠ .done) {resp : ρ} (hl : c.pending.lookup id = some n) :
    Inv { c with pending := c.pending.erase id, channels := Function.update c.channels n (.sent resp) } := by
  refine ⟨fun h => absurd h hr, fun m i hslot hempty => ?_⟩
  have hne : m ≠ n := by
    rintro rfl
    have h : Function.update c.channels m (.sent resp) m = .empty := hempty
    rw [Function.update_self] at h
    cases h
  have hm : c.channels m = .empty := by
    have h : Function.update c.channels n (.sent resp) m = .empty := hempty
    rw [Function.update_of_ne hne] at h
    exact h
  have hold := hi.waits m i hslot hm
  have hi' : i ≠ id := by
    rintro rfl
    rw [hl] at hold
    exact hne (Option.some.inj hold).symm
  show (c.pending.erase id).lookup i = some m
  rw [AList.lookup_erase_ne hi', hold]

lemma Inv.dispatch (hi : Inv c) (hr : c.reader = .reading) (f : Frame) : Inv (c.dispatch json f) := by
  have hne : c.reader ≠ .done := by
    rw [hr]
    exact fun h => (by cases h)
  rcases dispatch_cases json c f with h | h | ⟨id, n, resp, hl, h⟩
  · rw [h]
    exact hi
  · rw [h]
    exact hi.reading (fun h => by cases h)
  · rw [h]
    exact hi.respond hne hl

/-- the final clear drops the sender of every call that waits -/
lemma Inv.finish (hi : Inv c) : Inv { c with
    channels := fun n =>
      if n ∈ c.pending.entries.map Sigma.snd then (c.channels n).dropSender else c.channels n
    pending := ∅
    reader := .done } := by
  refine ⟨fun _ => rfl, fun n id hslot hempty => ?_⟩
  have hempty' : (if n ∈ c.pending.entries.map Sigma.snd then (c.channels n).dropSender
      else c.channels n) = .empty := hempty
  by_cases hmem : n ∈ c.pending.entries.map Sigma.snd
  · rw [if_pos hmem] at hempty'
    exact absurd hempty' (Channel.dropSender_ne _)
  · rw [if_neg hmem] at hempty'
    have hl := AList.mem_lookup_iff.mp (hi.waits n id hslot hempty')
    exact absurd (List.mem_map.mpr ⟨_, hl, rfl⟩) hmem

theorem Inv.step (hi : Inv c) (he : e = .roundtrip → c.reader ≠ .done) (h : c.step json e = some d) :
    Inv d := by
  cases e with
  | roundtrip =>
    dsimp only [Client.step] at h
    split at h
    · cases h
      refine ⟨fun hd => absurd hd (he rfl), ?_⟩
      rintro n id ⟨⟩ -
      exact AList.lookup_insert _
    · cases h
  | written =>
    dsimp only [Client.step] at h
    split at h
    · rename_i n id hcall
      cases h
      refine ⟨hi.cleared, ?_⟩
      rintro n id ⟨⟩ hempty
      exact hi.waits n id (by rw [hcall]; rfl) hempty
    · cases h
  | writeFailed =>
    dsimp only [Client.step] at h
    split at h
    · cases h
      exact ⟨hi.cleared, fun n id hslot => (by cases hslot)⟩
    · cases h
  | cleanup =>
    dsimp only [Client.step] at h
    split at h
    · cases h
      refine ⟨fun hd => ?_, fun n id hslot => (by cases hslot)⟩
      rw [hi.cleared hd]
      rfl
    · cases h
  | returned =>
    dsimp only [Client.step] at h
    split at h
    · split at h
      · cases h
      · cases h
        exact ⟨hi.cleared, fun n id hslot => (by cases hslot)⟩
    · cases h
  | cancel =>
    dsimp only [Client.step] at h
    split at h
    · cases h
    · cases h
      exact ⟨hi.cleared, fun n id hslot => (by cases hslot)⟩
  | read result =>
    dsimp only [Client.step] at h
    split at h
    · rename_i hr
      cases h
      exact hi.dispatch hr _
    · cases h
      exact hi.reading (fun h => by cases h)
    · cases h
  | finish =>
    dsimp only [Client.step] at h
    split at h
    · cases h
      exact hi.finish
    · cases h
  | dropEvents =>
    cases h
    exact ⟨hi.cleared, hi.waits⟩

/-- **No call is stranded**, when none enters the map after the reader loop's final clear. -/
theorem no_stranded (json : Json ρ ε) (receiver : Bool) {es : List Event} {c : Client ρ}
    (h : Transition.exec (step json) (start receiver) es = some c)
    (hlate : Transition.Along (step json) (fun c e => e = .roundtrip → c.reader ≠ .done)
      (start receiver) es)
    (hdone : c.reader = .done) :
    c.pending = ∅ ∧ ∀ n id, c.call = .awaiting n id → ∃ d, c.step json .returned = some d := by
  have hi : Inv c := Transition.exec_guarded (fun _ _ _ hi he hs => hi.step he hs) (inv_start receiver)
    hlate h
  refine ⟨hi.cleared hdone, fun n id hcall => ?_⟩
  have hchan : c.channels n ≠ .empty := by
    intro hempty
    have hl := hi.waits n id (by rw [hcall]; rfl) hempty
    rw [hi.cleared hdone] at hl
    cases hl
  unfold step
  simp only [hcall]
  exact ⟨_, rfl⟩

/-- a call that is answered before the loop ends -/
theorem no_stranded_answered : ∃ c : Client Unit,
    Transition.exec (step (⟨fun _ => some (1, ()), fun _ => none⟩ : Json Unit Unit)) (start true)
      [.roundtrip, .written, .read (.ok (some ⟨kindControl, []⟩)), .read (.ok none), .finish] = some c ∧
    c.pending = ∅ ∧ ∀ n id, c.call = .awaiting n id →
      ∃ d, c.step (⟨fun _ => some (1, ()), fun _ => none⟩ : Json Unit Unit) .returned = some d := by
  have hrun : ∃ c : Client Unit, Transition.exec (step (⟨fun _ => some (1, ()), fun _ => none⟩ : Json Unit Unit))
      (start true) [.roundtrip, .written, .read (.ok (some ⟨kindControl, []⟩)), .read (.ok none), .finish] =
      some c ∧ c.reader = .done := ⟨_, rfl, rfl⟩
  obtain ⟨c, hc, hdone⟩ := hrun
  refine ⟨c, hc, no_stranded _ true hc ⟨?_, ?_⟩ hdone⟩
  · exact fun _ h => (by cases h)
  · rintro _ ⟨⟩
    refine ⟨fun h => (by cases h), ?_⟩
    rintro _ ⟨⟩
    refine ⟨fun h => (by cases h), ?_⟩
    rintro _ ⟨⟩
    refine ⟨fun h => (by cases h), ?_⟩
    rintro _ ⟨⟩
    refine ⟨fun h => (by cases h), ?_⟩
    rintro _ ⟨⟩
    trivial

/-! ## a late call -/

/-- nobody resolves or drops the first channel any more -/
structure Stuck (c : Client ρ) : Prop where
  done : c.reader = .done
  open' : c.channels 0 = .empty
  sender : ∀ id, c.pending.lookup id = some 0 → id = 1
  fresh : 1 < c.next.toNat
  opened : c.opened ≠ 0
  others : ∀ n id, c.call = .writing n id ∨ c.call = .writeFailed n id → id ≠ 1

lemma nextId_le (n : UInt64) : n.toNat ≤ (nextId n).toNat := by
  unfold nextId
  split
  · exact Nat.le_refl _
  · rename_i h
    have hne : (n + 1).toNat ≠ 0 := fun e => h (UInt64.toNat_inj.mp e)
    rw [UInt64.toNat_add] at hne ⊢
    have hlt := n.toNat_lt
    have h1 : (1 : UInt64).toNat = 1 := rfl
    rw [h1] at hne ⊢
    omega

/-- the sender under another id is not that of the first channel -/
lemma Stuck.dropSender (hs : Stuck c) (hid : id ≠ 1) : c.dropSender id 0 = .empty := by
  unfold Client.dropSender
  cases hl : c.pending.lookup id with
  | some n =>
    have hne : (0 : Nat) ≠ n := by
      rintro rfl
      exact hid (hs.sender id hl)
    show Function.update c.channels n (c.channels n).dropSender 0 = .empty
    rw [Function.update_of_ne hne]
    exact hs.open'
  | none => exact hs.open'

lemma Stuck.step (hs : Stuck c) (h : c.step json e = some d) : Stuck d := by
  have hnext : c.next ≠ 1 := by
    intro e
    have hlt := hs.fresh
    rw [e] at hlt
    exact absurd hlt (by decide)
  cases e with
  | roundtrip =>
    dsimp only [Client.step] at h
    split at h
    · cases h
      refine ⟨hs.done, hs.dropSender hnext, fun id hl => ?_, ?_, Nat.succ_ne_zero _, ?_⟩
      · have hl' : (c.pending.insert c.next c.opened).lookup id = some 0 := hl
        by_cases hid : id = c.next
        · subst hid
          rw [AList.lookup_insert] at hl'
          exact absurd (Option.some.inj hl') hs.opened
        · rw [AList.lookup_insert_ne hid] at hl'
          exact hs.sender id hl'
      · exact Nat.lt_of_lt_of_le hs.fresh (nextId_le _)
      · rintro n id (⟨⟨⟩⟩ | ⟨⟨⟩⟩)
        exact hnext
    · cases h
  | written =>
    dsimp only [Client.step] at h
    split at h
    · cases h
      exact ⟨hs.done, hs.open', hs.sender, hs.fresh, hs.opened, fun n id hc => (by rcases hc with h | h <;> cases h)⟩
    · cases h
  | writeFailed =>
    dsimp only [Client.step] at h
    split at h
    · rename_i n id hcall
      cases h
      refine ⟨hs.done, hs.open', hs.sender, hs.fresh, hs.opened, ?_⟩
      rintro m i (⟨⟨⟩⟩ | ⟨⟨⟩⟩)
      exact hs.others n id (.inl hcall)
    · cases h
  | cleanup =>
    dsimp only [Client.step] at h
    split at h
    · rename_i n id hcall
      cases h
      have hid := hs.others n id (.inr hcall)
      refine ⟨hs.done, hs.dropSender hid, fun i hl => ?_, hs.fresh, hs.opened,
        fun n id hc => (by rcases hc with h | h <;> cases h)⟩
      have hl' : (c.pending.erase id).lookup i = some 0 := hl
      by_cases hi : i = id
      · subst hi
        rw [AList.lookup_erase] at hl'
        cases hl'
      · rw [AList.lookup_erase_ne hi] at hl'
        exact hs.sender i hl'
    · cases h
  | returned =>
    dsimp only [Client.step] at h
    split at h
    · split at h
      · cases h
      · cases h
        exact ⟨hs.done, hs.open', hs.sender, hs.fresh, hs.opened, fun n id hc => (by rcases hc with h | h <;> cases h)⟩
    · cases h
  | cancel =>
    dsimp only [Client.step] at h
    split at h
    · cases h
    · cases h
      exact ⟨hs.done, hs.open', hs.sender, hs.fresh, hs.opened, fun n id hc => (by rcases hc with h | h <;> cases h)⟩
  | read result =>
    dsimp only [Client.step] at h
    rw [hs.done] at h
    cases h
  | finish =>
    dsimp only [Client.step] at h
    rw [hs.done] at h
    cases h
  | dropEvents =>
    cases h
    exact ⟨hs.done, hs.open', hs.sender, hs.fresh, hs.opened, hs.others⟩

/-- **A late call waits forever.**  The events are dropped, so the first output ends the reader loop;
the socket still takes the request of the next call. -/
theorem stranded : ∃ c : Client Unit,
    Transition.exec (step (⟨fun _ => none, fun _ => none⟩ : Json Unit Unit)) (start false)
      [.read (.ok (some ⟨kindOutput, outputPayload 1 []⟩)), .finish, .roundtrip, .written] = some c ∧
    c.reader = .done ∧ c.pending ≠ ∅ ∧ c.call = .awaiting 0 1 ∧
    ∀ (es : List Event) (d : Client Unit),
      Transition.exec (step (⟨fun _ => none, fun _ => none⟩ : Json Unit Unit)) c es = some d →
      d.call = .awaiting 0 1 →
      d.step (⟨fun _ => none, fun _ => none⟩ : Json Unit Unit) .returned = none := by
  refine ⟨_, rfl, rfl, ?_, rfl, ?_⟩
  · intro h
    have hl : (∅ : AList fun _ : UInt64 => Nat).lookup 1 = some 0 := by
      rw [← h]
      rfl
    cases hl
  · intro es d hd hcall
    have hs : Stuck d := by
      refine Transition.Invariant.exec (fun _ _ _ hs hstep => hs.step hstep) ⟨rfl, rfl, ?_, by decide, by decide, ?_⟩ hd
      · intro id hl
        by_contra hid
        have hl' : AList.lookup id (AList.insert (1 : UInt64) 0 (∅ : AList fun _ : UInt64 => Nat)) = some 0 := hl
        rw [AList.lookup_insert_ne hid] at hl'
        cases hl'
      · rintro n id (⟨⟨⟩⟩ | ⟨⟨⟩⟩)
    simp only [Client.step, hcall, hs.open']

end Client
end TerminalManager.Ptyd
