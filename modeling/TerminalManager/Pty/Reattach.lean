import Mathlib.Data.List.Induction
import TerminalManager.Lib.Table
import TerminalManager.Lib.Transition

/-!
# Reattaching the panes to the sessions of the daemon

When the interface connects, the daemon lists its sessions.  A pane whose key one living session has is reattached to it;
a key of several sessions is ambiguous, and nothing is attached for it or started.  The fallback runs only when the daemon
does not know the session any more.

* `fill`                  the cache and the ambiguous keys, from the list of the sessions;
* `fill_spec`             a key is cached when one living session has it, ambiguous when several have it;
* `State.attachOrSpawn`   what is asked of the daemon for a pane;
* `reattach_closed`       over every run only the one living session of a key is attached, once at most, and the fallback
                          is run only after it was attached or is gone.
-/

namespace TerminalManager.Pty.Reattach
open Transition

/-- a workspace and a pane -/
abbrev Key := Nat × Nat

structure SessionInfo where
  id : Nat
  workspaceId : Nat
  paneId : Nat
  alive : Bool
deriving DecidableEq, Repr

def SessionInfo.key (info : SessionInfo) : Key := (info.workspaceId, info.paneId)

inductive ErrorKind
  | notFound
  | notConnected
  | alreadyExists
  | other
deriving DecidableEq, Repr

/-- the kind of the error that the client makes of an error response to an attach request -/
def attachErrorKind (code : String) : ErrorKind :=
  if code = "session_not_found" then .notFound
  else if code = "session_dead" then .notConnected
  else if code = "session_key_ambiguous" then .alreadyExists
  else .other

inductive ReconcileOutcome
  | cachedAttached
  | ensuredExisting
  | spawned
deriving DecidableEq, Repr

/-- what was asked of the daemon for a key; `error` is the code of the response to an attach request, if it was one -/
inductive Request
  | attach (key : Key) (sessionId : Nat) (error : Option String)
  | ensure (key : Key)
deriving DecidableEq, Repr

structure State where
  reattachCache : Table Key Nat := ∅
  ambiguousReattachKeys : List Key := []
  sessions : Table Nat Nat := ∅
  reconcileOutcomes : Table Nat ReconcileOutcome := ∅
  asked : List Request := []
deriving DecidableEq, Repr

/-- a session of the list -/
def note (s : State) (info : SessionInfo) : State :=
  if info.alive then
    if info.key ∈ s.ambiguousReattachKeys then s
    else if s.reattachCache.contains info.key then
      { s with
        reattachCache := (s.reattachCache.insert info.key info.id).remove info.key
        ambiguousReattachKeys := info.key :: s.ambiguousReattachKeys }
    else { s with reattachCache := s.reattachCache.insert info.key info.id }
  else s

/-- `connect_to`, from the list of the sessions -/
def fill (sessions : List SessionInfo) : State := sessions.foldl note {}

namespace State
variable (s : State)

/-- the daemon's ensure operation, which runs the fallback when no session has the key; it may fail -/
def ensure (key : Key) (answer : Option (Nat × Bool)) : State :=
  let s := { s with asked := .ensure key :: s.asked }
  match answer with
  | some (sessionId, existing) =>
    { s with
      sessions := s.sessions.insert key.2 sessionId
      reconcileOutcomes := s.reconcileOutcomes.insert key.2 (if existing then .ensuredExisting else .spawned) }
  | none => s

/-- `error` is the code of the error that an attach request gets, if it gets one, and `answer` that of an ensure request -/
def attachOrSpawn (key : Key) (error : Option String) (answer : Option (Nat × Bool)) : State :=
  let s := { s with reconcileOutcomes := s.reconcileOutcomes.remove key.2 }
  if key ∈ s.ambiguousReattachKeys then s
  else
    match s.reattachCache.get key with
    | some sessionId =>
      let s := { s with
        reattachCache := s.reattachCache.remove key, asked := .attach key sessionId error :: s.asked }
      match error with
      | none =>
        { s with
          sessions := s.sessions.insert key.2 sessionId
          reconcileOutcomes := s.reconcileOutcomes.insert key.2 .cachedAttached }
      | some code =>
        if attachErrorKind code = .notFound then s.ensure key answer
        else { s with reattachCache := s.reattachCache.insert key sessionId }
    | none => s.ensure key answer

/-- the session of a pane is gone -/
def unmap (sessionId : Nat) : State :=
  { s with sessions := s.sessions.retain fun paneId => (s.sessions.get paneId).all (· != sessionId) }

/-- `killed` tells whether the daemon has ended the session of the pane, or does not know it -/
def replaceOrSpawn (key : Key) (killed : Bool) (error : Option String) (answer : Option (Nat × Bool)) : State :=
  match s.sessions.get key.2 with
  | some sessionId => if killed then (s.unmap sessionId).attachOrSpawn key error answer else s
  | none => s.attachOrSpawn key error answer

def destroy (paneId : Nat) : State :=
  { s with sessions := s.sessions.remove paneId, reconcileOutcomes := s.reconcileOutcomes.remove paneId }

end State

inductive Event
  | attachOrSpawn (key : Key) (error : Option String) (answer : Option (Nat × Bool))
  | replaceOrSpawn (key : Key) (killed : Bool) (error : Option String) (answer : Option (Nat × Bool))
  | destroy (paneId : Nat)
deriving DecidableEq, Repr

def step (s : State) : Event → Option State
  | .attachOrSpawn key error answer => some (s.attachOrSpawn key error answer)
  | .replaceOrSpawn key killed error answer => some (s.replaceOrSpawn key killed error answer)
  | .destroy paneId => some (s.destroy paneId)

/-! ## the cache -/

/-- the living sessions of a key, in the order of the list -/
def living (sessions : List SessionInfo) (key : Key) : List Nat :=
  (sessions.filter fun info => info.alive ∧ info.key = key).map SessionInfo.id

def only : List Nat → Option Nat
  | [sessionId] => some sessionId
  | _ => none

lemma living_append (sessions : List SessionInfo) (info : SessionInfo) (key : Key) :
    living (sessions ++ [info]) key =
      living sessions key ++ if info.alive = true ∧ info.key = key then [info.id] else [] := by
  unfold living
  rw [List.filter_append, List.map_append, List.filter_cons]
  by_cases h : info.alive = true ∧ info.key = key
  · rw [decide_eq_true h, if_pos h]
    rfl
  · rw [decide_eq_false h, if_neg h]
    rfl

/-- **The cache**: a key has its one living session, and is ambiguous when it has several. -/
lemma fill_spec (sessions : List SessionInfo) (key : Key) :
    (fill sessions).reattachCache.get key = only (living sessions key) ∧
      (key ∈ (fill sessions).ambiguousReattachKeys ↔ 2 ≤ (living sessions key).length) := by
  induction sessions using List.reverseRecOn with
  | nil => exact ⟨rfl, by simp [fill, living]⟩
  | append_singleton sessions info ih =>
    obtain ⟨hcached, hambiguous⟩ := ih
    rw [fill, List.foldl_append, List.foldl_cons, List.foldl_nil, ← fill, living_append]
    unfold note
    by_cases halive : info.alive = true
    · rw [if_pos halive]
      by_cases hkey : info.key = key
      · subst hkey
        have hboth : info.alive = true ∧ info.key = info.key := ⟨halive, rfl⟩
        rw [if_pos hboth]
        rcases hlive : living sessions info.key with _ | ⟨id, _ | ⟨id', rest⟩⟩
        · rw [hlive] at hcached hambiguous
          have hnot : info.key ∉ (fill sessions).ambiguousReattachKeys := fun hmem => absurd (hambiguous.mp hmem) (by simp)
          rw [if_neg hnot, if_neg (by rw [Table.contains_eq_false.mpr hcached]; exact Bool.false_ne_true)]
          exact ⟨Table.get_insert_self _ _ _, iff_of_false hnot (by simp)⟩
        · rw [hlive] at hcached hambiguous
          have hnot : info.key ∉ (fill sessions).ambiguousReattachKeys := fun hmem => absurd (hambiguous.mp hmem) (by simp)
          rw [if_neg hnot, if_pos (Table.contains_of_get hcached)]
          exact ⟨Table.get_remove_self _ _, iff_of_true List.mem_cons_self (by simp)⟩
        · rw [hlive] at hcached hambiguous
          have hlen : 2 ≤ (id :: id' :: rest).length := Nat.succ_le_succ (Nat.succ_le_succ (Nat.zero_le _))
          have hmem : info.key ∈ (fill sessions).ambiguousReattachKeys := hambiguous.mpr hlen
          rw [if_pos hmem]
          refine ⟨hcached, iff_of_true hmem (Nat.le_trans hlen ?_)⟩
          rw [List.length_append]
          exact Nat.le_add_right _ _
      · have hother : ¬(info.alive = true ∧ info.key = key) := fun h => hkey h.2
        rw [if_neg hother, List.append_nil]
        have hne : key ≠ info.key := Ne.symm hkey
        split_ifs
        · exact ⟨hcached, hambiguous⟩
        · refine ⟨?_, ?_⟩
          · rw [Table.get_remove_of_ne _ hne, Table.get_insert_of_ne _ _ hne]
            exact hcached
          · rw [List.mem_cons, or_iff_right hne]
            exact hambiguous
        · exact ⟨(Table.get_insert_of_ne _ _ hne).trans hcached, hambiguous⟩
    · have hdead : ¬(info.alive = true ∧ info.key = key) := fun h => halive h.1
      rw [if_neg halive, if_neg hdead, List.append_nil]
      exact ⟨hcached, hambiguous⟩

/-! ## runs -/

/-- the session is attached, or the daemon does not know it -/
def final : Option String → Bool
  | none => true
  | some code => attachErrorKind code = .notFound

def finalFor (key : Key) : Request → Bool
  | .attach other _ error => other = key && final error
  | .ensure _ => false

lemma finalFor_attach {key other : Key} {sessionId : Nat} {error : Option String}
    (h : finalFor key (.attach other sessionId error) = true) : other = key ∧ final error = true := by
  obtain ⟨hkey, hfinal⟩ := Bool.and_eq_true_iff.mp h
  exact ⟨of_decide_eq_true hkey, hfinal⟩

/-- what may be asked after `earlier`, which has the latest request in front -/
def Allowed (sessions : List SessionInfo) (earlier : List Request) : Request → Prop
  | .attach key sessionId _ => living sessions key = [sessionId] ∧ earlier.countP (finalFor key) = 0
  | .ensure key => living sessions key = [] ∨
    ∃ sessionId error, living sessions key = [sessionId] ∧ .attach key sessionId error ∈ earlier ∧ final error = true

def Sound (sessions : List SessionInfo) : List Request → Prop
  | [] => True
  | r :: earlier => Allowed sessions earlier r ∧ Sound sessions earlier

structure Inv (sessions : List SessionInfo) (s : State) : Prop where
  ambiguous : ∀ key, key ∈ s.ambiguousReattachKeys ↔ 2 ≤ (living sessions key).length
  cached : ∀ key, s.reattachCache.get key =
    if s.asked.countP (finalFor key) = 0 then only (living sessions key) else none
  sound : Sound sessions s.asked

variable {sessions : List SessionInfo} {s : State}

lemma inv_fill (sessions : List SessionInfo) : Inv sessions (fill sessions) := by
  have hasked : (fill sessions).asked = [] := by
    induction sessions using List.reverseRecOn with
    | nil => rfl
    | append_singleton sessions info ih =>
      rw [fill, List.foldl_append, List.foldl_cons, List.foldl_nil, ← fill]
      unfold note
      split_ifs <;> exact ih
  refine ⟨fun key => (fill_spec sessions key).2, fun key => ?_, by rw [hasked]; trivial⟩
  rw [hasked, List.countP_nil, if_pos rfl]
  exact (fill_spec sessions key).1

/-- the steps that ask nothing and keep the cache -/
lemma Inv.of_eq (h : Inv sessions s) {t : State} (ha : t.ambiguousReattachKeys = s.ambiguousReattachKeys)
    (hc : t.reattachCache = s.reattachCache) (hq : t.asked = s.asked) : Inv sessions t where
  ambiguous := ha ▸ h.ambiguous
  cached := by rw [hc, hq]; exact h.cached
  sound := hq ▸ h.sound

lemma only_eq_some {l : List Nat} {sessionId : Nat} (h : only l = some sessionId) : l = [sessionId] := by
  obtain _ | ⟨a, _ | ⟨b, l⟩⟩ := l
  · cases h
  · rw [Option.some.inj h]
  · cases h

lemma allowed_of_split {asked later earlier : List Request} (h : Sound sessions asked) {r : Request}
    (hasked : asked = later ++ r :: earlier) : Allowed sessions earlier r := by
  induction later generalizing asked with
  | nil =>
    subst hasked
    exact h.1
  | cons r' later ih =>
    subst hasked
    exact ih h.2 rfl

lemma living_of_mem {asked : List Request} (h : Sound sessions asked) {key : Key} {sessionId : Nat} {error : Option String}
    (hmem : .attach key sessionId error ∈ asked) : living sessions key = [sessionId] := by
  obtain ⟨later, earlier, hsplit⟩ := List.append_of_mem hmem
  exact (allowed_of_split h hsplit).1

lemma Inv.ensure (h : Inv sessions s) {key : Key} (hallowed : Allowed sessions s.asked (.ensure key))
    (answer : Option (Nat × Bool)) : Inv sessions (s.ensure key answer) := by
  have hask : Inv sessions { s with asked := .ensure key :: s.asked } :=
    ⟨h.ambiguous, h.cached, hallowed, h.sound⟩
  unfold State.ensure
  split
  · exact hask.of_eq rfl rfl rfl
  · exact hask

/-- **Step**: a pane is reattached, or its fallback is asked for. -/
lemma Inv.attachOrSpawn (h : Inv sessions s) (key : Key) (error : Option String) (answer : Option (Nat × Bool)) :
    Inv sessions (s.attachOrSpawn key error answer) := by
  have hclear : Inv sessions { s with reconcileOutcomes := s.reconcileOutcomes.remove key.2 } := h.of_eq rfl rfl rfl
  unfold State.attachOrSpawn
  dsimp only
  by_cases hmany : key ∈ s.ambiguousReattachKeys
  · rw [if_pos hmany]
    exact hclear
  rw [if_neg hmany]
  have hcached := h.cached key
  split
  · next sessionId hget =>
    rw [hget] at hcached
    split_ifs at hcached with hzero
    have hlive := only_eq_some hcached.symm
    have hallowed : Allowed sessions s.asked (.attach key sessionId error) := ⟨hlive, hzero⟩
    -- the entry is taken out of the cache while the daemon answers
    have hasked : ∀ e, final e = true → Allowed sessions s.asked (.attach key sessionId e) → Inv sessions { s with
        reattachCache := s.reattachCache.remove key
        reconcileOutcomes := s.reconcileOutcomes.remove key.2
        asked := .attach key sessionId e :: s.asked } := by
      intro e he ha
      refine ⟨h.ambiguous, fun k => ?_, ha, h.sound⟩
      show (s.reattachCache.remove key).get k = _
      rw [Table.get_remove, List.countP_cons]
      by_cases hk : k = key
      · subst hk
        rw [if_pos rfl, show finalFor k (.attach k sessionId e) = true by simp [finalFor, he], hzero]
        rfl
      · rw [if_neg hk, show finalFor k (.attach key sessionId e) = false by simp [finalFor, Ne.symm hk]]
        exact h.cached k
    cases error with
    | none => exact (hasked none rfl hallowed).of_eq rfl rfl rfl
    | some code =>
      dsimp only
      split_ifs with hnot
      · have hfinal : final (some code) = true := decide_eq_true hnot
        refine (hasked (some code) hfinal hallowed).ensure (.inr ⟨sessionId, some code, hlive, ?_, hfinal⟩) answer
        exact List.mem_cons_self
      · have hopen : final (some code) = false := decide_eq_false hnot
        refine ⟨h.ambiguous, fun k => ?_, hallowed, h.sound⟩
        show ((s.reattachCache.remove key).insert key sessionId).get k = _
        rw [List.countP_cons, show finalFor k (.attach key sessionId (some code)) = false by simp [finalFor, hopen]]
        by_cases hk : k = key
        · subst hk
          rw [Table.get_insert_self, ← hget]
          exact h.cached k
        · rw [Table.get_insert_of_ne _ _ hk, Table.get_remove_of_ne _ hk]
          exact h.cached k
  · next hget =>
    rw [hget] at hcached
    refine hclear.ensure ?_ answer
    have hlen : ¬2 ≤ (living sessions key).length := fun hlen => hmany ((h.ambiguous key).mpr hlen)
    obtain hnil | ⟨sessionId, hlive⟩ : living sessions key = [] ∨ ∃ sessionId, living sessions key = [sessionId] := by
      rcases hlive : living sessions key with _ | ⟨id, _ | ⟨id', rest⟩⟩
      · exact .inl rfl
      · exact .inr ⟨id, rfl⟩
      · rw [hlive] at hlen
        exact absurd (Nat.succ_le_succ (Nat.succ_le_succ (Nat.zero_le _))) hlen
    · exact .inl hnil
    · refine .inr ⟨sessionId, ?_⟩
      rw [hlive] at hcached
      have hpos : 0 < s.asked.countP (finalFor key) := by
        refine Nat.pos_of_ne_zero fun hzero => ?_
        rw [if_pos hzero] at hcached
        cases hcached
      obtain ⟨r, hr, hfinal⟩ := List.countP_pos_iff.mp hpos
      cases r with
      | attach other id error =>
        obtain ⟨rfl, hdone⟩ := finalFor_attach hfinal
        obtain rfl : id = sessionId := by
          have hid := living_of_mem h.sound hr
          rw [hlive] at hid
          exact (List.cons.inj hid).1.symm
        exact ⟨error, hlive, hr, hdone⟩
      | ensure other => cases hfinal

lemma inv_step (sessions : List SessionInfo) : Invariant step (Inv sessions) := by
  intro s e t h ht
  cases e with
  | attachOrSpawn key error answer =>
    obtain rfl := Option.some.inj ht
    exact h.attachOrSpawn key error answer
  | replaceOrSpawn key killed error answer =>
    obtain rfl := Option.some.inj ht
    unfold State.replaceOrSpawn
    split
    · next sessionId _ =>
      split_ifs
      · have hunmap : Inv sessions (s.unmap sessionId) := h.of_eq rfl rfl rfl
        exact hunmap.attachOrSpawn key error answer
      · exact h
    · exact h.attachOrSpawn key error answer
  | destroy paneId =>
    obtain rfl := Option.some.inj ht
    exact h.of_eq rfl rfl rfl

lemma countP_final_le {asked : List Request} (h : Sound sessions asked) (key : Key) :
    asked.countP (finalFor key) ≤ 1 := by
  induction asked with
  | nil => exact Nat.zero_le _
  | cons r earlier ih =>
    rw [List.countP_cons]
    by_cases hr : finalFor key r = true
    · cases r with
      | attach other sessionId error =>
        obtain ⟨rfl, -⟩ := finalFor_attach hr
        exact Nat.le_of_eq (by rw [h.1.2, if_pos hr])
      | ensure other => cases hr
    · rw [if_neg hr]
      exact ih h.2

/-- **Fail closed**: from the list of the sessions on, over every run of reattachments, replacements and closed panes and
whatever the daemon answers: only the one living session of a key is attached for it; it is attached, or found to be gone, once
at most; and the fallback of a key is asked for only when no living session had the key, or after its one session was attached
or found to be gone. -/
theorem reattach_closed (sessions : List SessionInfo) (events : List Event) (s : State)
    (h : exec step (fill sessions) events = some s) :
    (∀ key sessionId error, .attach key sessionId error ∈ s.asked → living sessions key = [sessionId]) ∧
    (∀ key, s.asked.countP (finalFor key) ≤ 1) ∧
    ∀ later key earlier, s.asked = later ++ .ensure key :: earlier → living sessions key = [] ∨
      ∃ sessionId error, living sessions key = [sessionId] ∧ .attach key sessionId error ∈ earlier ∧ final error = true := by
  have hinv := Invariant.exec (inv_step sessions) (inv_fill sessions) h
  exact ⟨fun key sessionId error hmem => living_of_mem hinv.sound hmem, countP_final_le hinv.sound,
    fun later key earlier hsplit => allowed_of_split hinv.sound hsplit⟩

/-- a session that has died before its pane is reattached -/
theorem reattach_closed_gone : living [⟨4, 1, 7, true⟩] (1, 7) = [] ∨ ∃ sessionId error,
    living [⟨4, 1, 7, true⟩] (1, 7) = [sessionId] ∧
      .attach (1, 7) sessionId error ∈ [Request.attach (1, 7) 4 (some "session_not_found"), .attach (1, 7) 4 (some "io")] ∧
        final error = true :=
  (reattach_closed [⟨4, 1, 7, true⟩]
    [.attachOrSpawn (1, 7) (some "io") none, .attachOrSpawn (1, 7) (some "session_not_found") (some (5, false))]
    { sessions := ⟨[(7, 5)]⟩
      reconcileOutcomes := ⟨[(7, .spawned)]⟩
      asked := [.ensure (1, 7), .attach (1, 7) 4 (some "session_not_found"), .attach (1, 7) 4 (some "io")] }
    (by decide)).2.2 [] (1, 7) _ rfl

end TerminalManager.Pty.Reattach
