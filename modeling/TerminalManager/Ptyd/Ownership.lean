import TerminalManager.Lib.Monitor
import TerminalManager.Ptyd.Registry

/-!
# Who owns a pane key

A session owns its key while it is alive.  This file has the vocabulary in which the registry's
guarantees are stated, and what each write to the table does to it:

* `owner`, `vacant`, `UniqueOwner`    a live session with the key, none, at most one per key;
* `Below`        fewer sessions, and no owner that was not one before: every write but the
                 insertion of a new session, and every event of the host;
* `Admissible`   what any action of any operation may do (`Below.admissible`,
                 `admissible_insert`).
-/

namespace TerminalManager.Ptyd
open Interference

namespace Registry
variable {E : Emulator} {r s t : Registry E} {key : PaneKey} {i j : Nat}

/-- the live session `i` has the key -/
def owner (r : Registry E) (key : PaneKey) (i : Nat) : Prop :=
  ∃ s, r.get? i = some s ∧ s.key = key ∧ s.alive = true

def vacant (r : Registry E) (key : PaneKey) : Prop := ∀ i, ¬ r.owner key i

def UniqueOwner (r : Registry E) : Prop := ∀ key i j, r.owner key i → r.owner key j → i = j

def running (r : Registry E) (i : Nat) : Prop := ∃ s, r.get? i = some s ∧ s.childRunning = true

/-- every registered child has exited, and that was confirmed -/
def AllConfirmed (r : Registry E) : Prop :=
  ∀ i s, r.get? i = some s → s.childExitConfirmed = true

instance (r : Registry E) (key : PaneKey) : Decidable (r.vacant key) :=
  decidable_of_iff
    (∀ i ∈ r.sessions.keys, ((r.get? i).any fun s => decide (s.key = key) && s.alive) = false) <| by
    constructor
    · rintro h i ⟨s, hs, hk, ha⟩
      have hi := h i ((mem_keys_iff r i).mpr ⟨s, hs⟩)
      rw [hs] at hi
      simp [hk, ha] at hi
    · intro h i hi
      obtain ⟨s, hs⟩ := (mem_keys_iff r i).mp hi
      rw [hs]
      refine Bool.eq_false_iff.mpr fun hb => ?_
      rw [Option.any_some, Bool.and_eq_true, decide_eq_true_iff] at hb
      exact h i ⟨s, hs, hb.1, hb.2⟩

lemma get?_env_session {e : SessionEvent} {id : Nat} (h : r.env (.session id e) = some t) (i : Nat) :
    t.get? i = if i = id then (r.get? id).map fun s => s.react e else r.get? i := by
  cases h
  exact get?_modify r id i _

lemma get?_env_dropped (h : r.env .connectionDropped = some t) :
    t = { r with connections := r.connections - 1 } := by
  have h' : (if 0 < r.connections then some { r with connections := r.connections - 1 } else none)
      = some t := h
  split at h'
  · exact (Option.some.inj h').symm
  · cases h'

/-- after an event, every session is one from before, or that session after a reaction -/
lemma get?_env {e : HostEvent} (h : r.env e = some t) {s' : Session E} (hi : t.get? i = some s') :
    ∃ s, r.get? i = some s ∧ (s' = s ∨ ∃ v, s' = s.react v) := by
  cases e with
  | session id v =>
    rw [get?_env_session h] at hi
    by_cases e : i = id
    · rw [if_pos e] at hi
      obtain ⟨s, hs, rfl⟩ := Option.map_eq_some_iff.mp hi
      exact ⟨s, e ▸ hs, .inr ⟨v, rfl⟩⟩
    · rw [if_neg e] at hi
      exact ⟨s', hi, .inl rfl⟩
  | connectionDropped =>
    rw [get?_env_dropped h] at hi
    exact ⟨s', hi, .inl rfl⟩

lemma env_stopping {e : HostEvent} (h : r.env e = some t) : t.stopping = r.stopping := by
  cases e with
  | session id v =>
    cases h
    exact modify_stopping r id _
  | connectionDropped => rw [get?_env_dropped h]

lemma env_nextId {e : HostEvent} (h : r.env e = some t) : t.nextId = r.nextId := by
  cases e with
  | session id v =>
    cases h
    exact modify_nextId r id _
  | connectionDropped => rw [get?_env_dropped h]

lemma env_isSome {e : HostEvent} (h : r.env e = some t) (i : Nat) :
    (t.get? i).isSome = (r.get? i).isSome := by
  cases e with
  | session id v =>
    rw [get?_env_session h]
    by_cases e : i = id
    · rw [if_pos e, e, Option.isSome_map]
    · rw [if_neg e]
  | connectionDropped => rw [get?_env_dropped h]; rfl

lemma env_connections {e : HostEvent} (h : r.env e = some t) : t.connections ≤ r.connections := by
  cases e with
  | session id v =>
    cases h
    exact le_of_eq (modify_connections r id _)
  | connectionDropped =>
    rw [get?_env_dropped h]
    exact Nat.sub_le _ _

/-! ## fewer sessions, no new owner -/

/-- every session of `t` is one of `s`, with the same key, and alive only if it was -/
def Below (t s : Registry E) : Prop :=
  ∀ i s', t.get? i = some s' →
    ∃ s₀, s.get? i = some s₀ ∧ s'.key = s₀.key ∧ (s'.alive = true → s₀.alive = true)

lemma Below.refl (r : Registry E) : r.Below r := fun _ s' h => ⟨s', h, rfl, id⟩

lemma Below.trans (h₁ : t.Below s) (h₂ : s.Below r) : t.Below r := by
  intro i s' hi
  obtain ⟨s₁, hs₁, hk₁, ha₁⟩ := h₁ i s' hi
  obtain ⟨s₂, hs₂, hk₂, ha₂⟩ := h₂ i s₁ hs₁
  exact ⟨s₂, hs₂, hk₁.trans hk₂, fun h => ha₂ (ha₁ h)⟩

lemma Below.owner (h : t.Below s) (ho : t.owner key i) : s.owner key i := by
  obtain ⟨s', hi, hk, ha⟩ := ho
  obtain ⟨s₀, hs₀, hk₀, ha₀⟩ := h i s' hi
  exact ⟨s₀, hs₀, hk₀ ▸ hk, ha₀ ha⟩

lemma Below.uniqueOwner (h : t.Below s) (hs : s.UniqueOwner) : t.UniqueOwner :=
  fun k i j hi hj => hs k i j (h.owner hi) (h.owner hj)

lemma Below.isSome (h : t.Below s) (hi : (t.get? i).isSome = true) : (s.get? i).isSome = true := by
  obtain ⟨s', hs'⟩ := Option.isSome_iff_exists.mp hi
  obtain ⟨s₀, hs₀, -⟩ := h i s' hs'
  exact Option.isSome_iff_exists.mpr ⟨s₀, hs₀⟩

lemma alive_react {s : Session E} {e : SessionEvent} (h : (s.react e).alive = true) :
    s.alive = true := by
  obtain ⟨ho, hc⟩ := (Session.alive_iff _).mp h
  exact (Session.alive_iff _).mpr ⟨Session.open?_react ho, Session.childRunning_react hc⟩

lemma key_react (s : Session E) (e : SessionEvent) : (s.react e).key = s.key := by
  obtain ⟨-, hw, hp, -⟩ := s.react_identity e
  rw [Session.key, hw, hp]
  rfl

/-- the host never adds a session and never brings one to life -/
theorem env_below {e : HostEvent} (h : r.env e = some t) : t.Below r := by
  intro i s' hi
  obtain ⟨s, hs, rfl | ⟨v, rfl⟩⟩ := get?_env h hi
  · exact ⟨s', hs, rfl, id⟩
  · exact ⟨s, hs, key_react s v, alive_react⟩

lemma env_running {e : HostEvent} (h : r.env e = some t) (ht : t.running i) : r.running i := by
  obtain ⟨s', hi, hr⟩ := ht
  obtain ⟨s, hs, rfl | ⟨v, rfl⟩⟩ := get?_env h hi
  · exact ⟨s', hs, hr⟩
  · exact ⟨s, hs, Session.childRunning_react hr⟩

lemma env_confirmed {e : HostEvent} (h : r.env e = some t) (hr : r.AllConfirmed) :
    t.AllConfirmed := by
  intro i s' hi
  obtain ⟨s, hs, rfl | ⟨v, rfl⟩⟩ := get?_env h hi
  · exact hr i s' hs
  · exact Session.childExitConfirmed_react v (hr i s hs)

/-- a change of one session that keeps its key and does not revive it -/
lemma modify_below {id : Nat} {f : Session E → Session E}
    (hf : ∀ s, r.get? id = some s → (f s).key = s.key ∧ ((f s).alive = true → s.alive = true)) :
    (r.modify id f).Below r := by
  intro i s' hi
  rw [get?_modify] at hi
  by_cases e : i = id
  · rw [if_pos e] at hi
    obtain ⟨s, hs, rfl⟩ := Option.map_eq_some_iff.mp hi
    exact ⟨s, e ▸ hs, (hf s hs).1, (hf s hs).2⟩
  · rw [if_neg e] at hi
    exact ⟨s', hi, rfl, fun h => h⟩

lemma insert_eq_modify {id : Nat} {s : Session E} (f : Session E → Session E)
    (h : r.get? id = some s) : r.insert id (f s) = r.modify id f := by
  rw [modify, h]

lemma erase_below (id : Nat) : (r.erase id).Below r := by
  intro i s' hi
  rw [get?_erase] at hi
  by_cases e : i = id
  · rw [if_pos e] at hi
    cases hi
  · rw [if_neg e] at hi
    exact ⟨s', hi, rfl, fun h => h⟩

lemma clear_below : r.clear.Below r := fun i s' hi => by
  rw [get?_clear] at hi
  cases hi

/-! ## what an action may do -/

/-- a new owner appears only where the key was vacant, and alone; once the daemon is stopping it
stays so and no session is added -/
structure Admissible (s t : Registry E) : Prop where
  owners : ∀ key i, t.owner key i →
    s.owner key i ∨ s.vacant key ∧ ∀ j, t.owner key j → j = i
  stopping : s.stopping = true → t.stopping = true
  closed : s.stopping = true → ∀ i, (t.get? i).isSome = true → (s.get? i).isSome = true

lemma Below.admissible (h : t.Below s) (hst : s.stopping = true → t.stopping = true) :
    Admissible s t where
  owners _ _ ho := .inl (h.owner ho)
  stopping := hst
  closed _ _ hi := h.isSome hi

lemma Admissible.refl (r : Registry E) : Admissible r r := (Below.refl r).admissible id

lemma Admissible.uniqueOwner (h : Admissible s t) (hs : s.UniqueOwner) : t.UniqueOwner := by
  intro key i j hi hj
  rcases h.owners key i hi with hsi | ⟨-, hone⟩
  · rcases h.owners key j hj with hsj | ⟨hv, -⟩
    · exact hs key i j hsi hsj
    · exact absurd hsi (hv i)
  · exact (hone j hj).symm

/-- a new session for a vacant key -/
lemma admissible_insert {id : Nat} {x : Session E} (hv : r.vacant x.key)
    (hst : r.stopping = false) : Admissible r (r.insert id x) where
  owners key i := by
    rintro ⟨s', hi, hk, ha⟩
    rw [get?_insert] at hi
    by_cases e : i = id
    · rw [if_pos e] at hi
      cases hi
      subst hk
      refine .inr ⟨hv, ?_⟩
      rintro j ⟨s'', hj, hk'', ha''⟩
      rw [get?_insert] at hj
      by_cases e' : j = id
      · rw [e', e]
      · rw [if_neg e'] at hj
        exact absurd ⟨s'', hj, hk'', ha''⟩ (hv j)
    · rw [if_neg e] at hi
      exact .inl ⟨s', hi, hk, ha⟩
  stopping h := h
  closed h := by
    rw [hst] at h
    cases h

end Registry
end TerminalManager.Ptyd
