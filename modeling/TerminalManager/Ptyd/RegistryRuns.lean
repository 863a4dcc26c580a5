import TerminalManager.Ptyd.Ensure

/-!
# Runs of the registry

The registry from its start, under any order of calls, of the atomic actions inside them and of
host events.

* `reachable_good`        the contract of `Operations` along every run;
* `one_live_owner`        **main result**: at every moment a pane key has at most one live owner,
                          `ensure` never reports several, and while the owner of a key lives every
                          `ensure` of the key returns it;
* `retirement`            **main result**: when a stop is accepted, and what follows from it.
-/

namespace TerminalManager.Ptyd
open Interference Transition

namespace Registry
variable {E : Emulator}

/-- the registry with nobody inside -/
def init (E : Emulator) : Monitor.State (Registry E) Call (Reply E) := Monitor.start new

abbrev Good (M : Registry E → Prop) (s : Monitor.State (Registry E) Call (Reply E)) : Prop :=
  (monitor E).Good M Inv guar guar_refl (post M) s

lemma inv_new : (new : Registry E).Inv := .of_empty fun _ => rfl

/-- one step through moments of `M` -/
lemma good_step {M : Registry E → Prop} {s t : Monitor.State (Registry E) Call (Reply E)}
    {e : Monitor.Event Call HostEvent} (hs : Good M s) (hM : M s.shared)
    (h : (monitor E).step s e = some t) (hMt : M t.shared) : Good M t :=
  Monitor.good_step (fun s e t hs he _ => downward_inv.hostStable s e t hs he)
    (fun c _ hs hM => body_safe M c hs hM) (fun _ _ _ _ h => h.1) hs hM h hMt

theorem reachable_good {es : List (Monitor.Event Call HostEvent)}
    {s : Monitor.State (Registry E) Call (Reply E)}
    (h : exec (monitor E).step (init E) es = some s) : Good (fun _ => True) s :=
  Invariant.exec (I := Good fun _ => True) (fun _ _ _ hs he => good_step hs trivial he trivial)
    (s := init E) inv_new h

/-- what a step does to the table: nothing, an admissible action, or a move of the host -/
lemma step_shared {M : Registry E → Prop} {s t : Monitor.State (Registry E) Call (Reply E)}
    {e : Monitor.Event Call HostEvent} (hs : Good M s) (h : (monitor E).step s e = some t) :
    t.shared = s.shared ∨ Admissible s.shared t.shared ∨
      t.shared.Below s.shared ∧ t.shared.stopping = s.shared.stopping := by
  rcases Monitor.step_cases hs h with ⟨c, -, -, -, rfl⟩ | ⟨c, s₀, f, k, -, -, hg, rfl⟩ |
    ⟨c, s₀, r, -, -, -, rfl⟩ | ⟨v, u, -, hu, rfl⟩
  · exact .inl rfl
  · exact .inr (.inl hg.1)
  · exact .inl rfl
  · exact .inr (.inr ⟨env_below hu, env_stopping hu⟩)

/-! ## one live owner -/

lemma step_unique {M : Registry E → Prop} {s t : Monitor.State (Registry E) Call (Reply E)}
    {e : Monitor.Event Call HostEvent} (hs : Good M s) (hu : s.shared.UniqueOwner)
    (h : (monitor E).step s e = some t) : t.shared.UniqueOwner := by
  rcases step_shared hs h with he | ha | ⟨hb, -⟩
  · rw [he]
    exact hu
  · exact ha.uniqueOwner hu
  · exact hb.uniqueOwner hu

theorem reachable_unique {es : List (Monitor.Event Call HostEvent)}
    {s : Monitor.State (Registry E) Call (Reply E)}
    (h : exec (monitor E).step (init E) es = some s) : s.shared.UniqueOwner :=
  (Invariant.exec (I := fun s => Good (fun _ => True) s ∧ s.shared.UniqueOwner)
    (fun _ _ _ hs he => ⟨good_step hs.1 trivial he trivial, step_unique hs.1 hs.2 he⟩)
    (s := init E) ⟨inv_new, inv_new.unique⟩ h).2

/-- while the key always has an owner, the owner stays the one it was -/
lemma step_onlyOwner {key : PaneKey} {i : Nat} {M : Registry E → Prop}
    {s t : Monitor.State (Registry E) Call (Reply E)} {e : Monitor.Event Call HostEvent}
    (hs : Good M s) (hv : ¬ s.shared.vacant key) (hi : ∀ j, s.shared.owner key j → j = i)
    (h : (monitor E).step s e = some t) : ∀ j, t.shared.owner key j → j = i := by
  intro j hj
  rcases step_shared hs h with he | ha | ⟨hb, -⟩
  · rw [he] at hj
    exact hi j hj
  · rcases ha.owners key j hj with ho | ⟨hv', -⟩
    · exact hi j ho
    · exact absurd hv' hv
  · exact hi j (hb.owner hj)

/-- from a state in which `i` is the only owner, an `ensure` of the key returns `i` and finds it
existing, provided the key has an owner at every moment -/
lemma ensure_existing {key : PaneKey} {i : Nat} {es : List (Monitor.Event Call HostEvent)}
    {s t : Monitor.State (Registry E) Call (Reply E)} {s₀ : Registry E} {h' : Host}
    {q : SpawnRequest} {n : Nat} {r : Except Failure (EnsuredSession E)}
    (hs : s.holder = none) (hI : s.shared.Inv) (hi : ∀ j, s.shared.owner key j → j = i)
    (hlive : Throughout (monitor E).step (fun s => ¬ s.shared.vacant key) s es)
    (h : exec (monitor E).step s es = some t) (hq : q.key = key)
    (hr : t.returning = some (.ensure h' q n, s₀, .ensured r)) :
    ∃ e, r = .ok e ∧ e.sessionId = i ∧ e.disposition = .existing := by
  have hgood : Good (fun r => ¬ r.vacant key) s := by
    unfold Good Monitor.Good
    rw [hs]
    exact hI
  obtain ⟨ht, hv, hone⟩ := exec_guarded
    (I := fun s => Good (fun r => ¬ r.vacant key) s ∧ ¬ s.shared.vacant key ∧
      ∀ j, s.shared.owner key j → j = i)
    (fun s e t hs hC he => ⟨good_step hs.1 hs.2.1 he (hC t he), hC t he,
      step_onlyOwner hs.1 hs.2.1 hs.2.2 he⟩) ⟨hgood, hlive.1, hi⟩ hlive.2 h
  have hnever : ¬ Vacated (fun r : Registry E => ¬ r.vacant key) key := fun ⟨_, hu, hvu⟩ => hu hvu
  subst hq
  have hpost := (ht.returning hr).2
  cases r with
  | error f => exact absurd (hpost q.key rfl).2 hnever
  | ok e =>
    obtain ⟨honly, hspawned⟩ := hpost.2 q.key rfl
    refine ⟨e, rfl, ?_, ?_⟩
    · have ⟨j, hj⟩ := not_forall.mp hv
      have hj := not_not.mp hj
      exact (honly j hj).symm.trans (hone j hj)
    · cases hd : e.disposition with
      | existing => rfl
      | spawned => exact absurd (hspawned hd) hnever

/-- **One live owner for each pane key.**  In every reachable state the live sessions have
pairwise distinct keys; no `ensure` ever reports several live sessions; and an `ensure` that
starts after another `ensure` of the same key has returned, with the key never without a live
session in between, finds the session of the first one existing. -/
theorem one_live_owner {es : List (Monitor.Event Call HostEvent)}
    {s : Monitor.State (Registry E) Call (Reply E)}
    (h : exec (monitor E).step (init E) es = some s) :
    s.shared.UniqueOwner ∧
    (∀ h q n s₀, s.returning ≠ some (.ensure h q n, s₀, .ensured (.error (.io keyIsShared)))) ∧
    ∀ h q n s₀ e, s.returning = some (.ensure h q n, s₀, .ensured (.ok e)) →
      ∀ fs t h' q' n' s₁ r, q'.key = q.key →
        Throughout (monitor E).step (fun s => ¬ s.shared.vacant q.key) s (.leave :: fs) →
        exec (monitor E).step s (.leave :: fs) = some t →
        t.returning = some (.ensure h' q' n', s₁, .ensured r) →
        ∃ e', r = .ok e' ∧ e'.sessionId = e.sessionId ∧ e'.disposition = .existing := by
  have hgood := reachable_good h
  refine ⟨reachable_unique h, ?_, ?_⟩
  · intro h' q n s₀ hr
    exact ((hgood.returning hr).2 q.key rfl).1 rfl
  · intro h' q n s₀ e hr fs t h'' q' n' s₁ r hq hlive hrun hr'
    obtain ⟨hI, -, hpost⟩ := hgood.returning hr
    have honly := (hpost q.key rfl).1
    obtain ⟨u, hu, hut⟩ := exec_cons _ hrun
    have hu' : u = ⟨s.shared, none⟩ := by
      rcases Monitor.step_cases hgood hu with ⟨c, he, -⟩ | ⟨c, s₀, f, k, he, -⟩ |
        ⟨c, s₀, r, -, -, -, rfl⟩ | ⟨v, u, he, -⟩
      · cases he
      · cases he
      · rfl
      · cases he
    subst hu'
    have hlive' : Throughout (monitor E).step (fun s => ¬ s.shared.vacant q.key)
        ⟨s.shared, none⟩ fs := ⟨hlive.1, hlive.2.2 _ hu⟩
    exact ensure_existing (s := ⟨s.shared, none⟩) rfl hI honly hlive' hut hq hr'

/-! ## a sample call -/

/-- a call and its first `n` actions -/
def calling (c : Call) (n : Nat) : List (Monitor.Event Call HostEvent) :=
  .enter c :: List.replicate n .act

def afterRun (s : Monitor.State (Registry .transcript) Call (Reply .transcript))
    (es : List (Monitor.Event Call HostEvent)) :
    Monitor.State (Registry .transcript) Call (Reply .transcript) :=
  (exec (monitor .transcript).step s es).getD s

def sampleEnsure : Call := .ensure quietHost ⟨80, 24, 1, 2, none⟩ 10

def ensuredOnce : Monitor.State (Registry .transcript) Call (Reply .transcript) :=
  afterRun (init _) (calling sampleEnsure 5)

def ensuredTwice : Monitor.State (Registry .transcript) Call (Reply .transcript) :=
  afterRun ensuredOnce (.leave :: calling sampleEnsure 7)

theorem one_live_owner_twice :
    ensuredOnce.shared.UniqueOwner ∧ ∃ s₁ e,
      ensuredTwice.returning = some (sampleEnsure, s₁, .ensured (.ok e)) ∧
      e.sessionId = 1 ∧ e.disposition = .existing := by
  have hrun : exec (monitor .transcript).step (init _) (calling sampleEnsure 5) = some ensuredOnce :=
    rfl
  have h := one_live_owner hrun
  have hlive : Throughout (monitor .transcript).step (fun s => ¬ s.shared.vacant ⟨1, 2⟩)
      ensuredOnce (.leave :: calling sampleEnsure 7) := by decide
  have hr : ensuredTwice.returning = some (sampleEnsure, ensuredOnce.shared,
      .ensured (.ok ⟨1, 2, "cap", .existing, []⟩)) := rfl
  obtain ⟨e, he, hid, hd⟩ := h.2.2 _ _ _ new ⟨1, 1, "cap", .spawned, []⟩ rfl
    (calling sampleEnsure 7) ensuredTwice _ _ _ _ _ rfl hlive rfl hr
  exact ⟨h.1, _, e, he ▸ hr, hid, hd⟩

/-! ## retirement -/

/-- the daemon is stopping and holds no session -/
def Retired (r : Registry E) : Prop := r.stopping = true ∧ ∀ i, r.get? i = none

lemma step_retired {M : Registry E → Prop} {s t : Monitor.State (Registry E) Call (Reply E)}
    {e : Monitor.Event Call HostEvent} (hs : Good M s) (hr : s.shared.Retired)
    (h : (monitor E).step s e = some t) : t.shared.Retired := by
  have hnone : (∀ i, (t.shared.get? i).isSome = true → (s.shared.get? i).isSome = true) →
      ∀ i, t.shared.get? i = none := by
    intro hsub i
    by_contra hne
    have hi := hsub i (Option.isSome_iff_ne_none.mpr hne)
    rw [hr.2 i] at hi
    cases hi
  rcases step_shared hs h with he | ha | ⟨hb, hst⟩
  · rw [he]
    exact hr
  · exact ⟨ha.stopping hr.1, hnone (ha.closed hr.1)⟩
  · exact ⟨hst.trans hr.1, hnone fun i => hb.isSome⟩

lemma exec_retired {fs : List (Monitor.Event Call HostEvent)}
    {s t : Monitor.State (Registry E) Call (Reply E)} (hs : Good (fun _ => True) s)
    (hr : s.shared.Retired) (h : exec (monitor E).step s fs = some t) :
    Good (fun _ => True) t ∧ t.shared.Retired :=
  Invariant.exec (I := fun s => Good (fun _ => True) s ∧ s.shared.Retired)
    (fun _ _ _ hs he => ⟨good_step hs.1 trivial he trivial, step_retired hs.1 hs.2 he⟩) ⟨hs, hr⟩ h

/-- the calls that a retired daemon must refuse, with the reply that would accept them -/
def Reply.admits : Reply E → Prop
  | .registered (.ok _) => True
  | .spawned (.ok _) => True
  | .ensured (.ok _) => True
  | _ => False

lemma returning_admits {s : Monitor.State (Registry E) Call (Reply E)} (hs : Good (fun _ => True) s)
    {c : Call} {s₀ : Registry E} {r : Reply E} (hr : s.returning = some (c, s₀, r))
    (ha : r.admits) : s.shared.stopping = false := by
  have hp := (hs.returning hr).2
  rcases r with (_ | _) | (_ | _) | (_ | _) | (_ | x) | _ | _ | _ | _ | _ | _
  case registered.ok => exact hp
  case spawned.ok => exact hp
  case ensured.ok => exact hp.1
  all_goals exact absurd ha (fun h => h)

lemma hostMoves_frame {s t : Registry E} (h : HostMoves s t) :
    t.stopping = s.stopping ∧ t.nextId = s.nextId ∧
      ∀ i, (t.get? i).isSome = (s.get? i).isSome := by
  induction h with
  | refl => exact ⟨rfl, rfl, fun _ => rfl⟩
  | tail _ he ih =>
    obtain ⟨e, he⟩ := he
    refine ⟨(env_stopping he).trans ih.1, (env_nextId he).trans ih.2.1, fun i => ?_⟩
    rw [← ih.2.2 i]
    exact env_isSome he i

/-- **Retirement.**  In every reachable state:

* when a stop returns accepted, the daemon holds no session from then on, and every later
  `register_connection`, `spawn` and `ensure` is refused;
* an accepted stop saw a state, reached from the one it found by moves of the host alone, in
  which every registered child had exited (unless forced) and at most one connection was
  registered (when retiring), and every change it makes to the table it makes in such a state;
* a refused stop changed nothing: sessions, flag and id counter are those it found, up to what
  the host did to the sessions meanwhile. -/
theorem retirement {es : List (Monitor.Event Call HostEvent)}
    {s : Monitor.State (Registry E) Call (Reply E)}
    (h : exec (monitor E).step (init E) es = some s) :
    (∀ c s₀ fs t, s.returning = some (c, s₀, .stopped (.ok ())) →
      exec (monitor E).step s fs = some t →
      t.shared.stopping = true ∧ (∀ i, t.shared.get? i = none) ∧
        ∀ c' s₁ r, t.returning = some (c', s₁, r) → ¬ r.admits) ∧
    (∀ c s₀ force retire, s.returning = some (c, s₀, .stopped (.ok ())) →
      c.stops = some (force, retire) →
      ∃ u, HostMoves s₀ u ∧ (force = false → u.AllConfirmed) ∧
        (retire = true → u.connections ≤ 1 ∧ s.shared.connections ≤ 1)) ∧
    (∀ r force retire t, s.holder = some r → r.call.stops = some (force, retire) →
      (monitor E).step s .act = some t → t.shared ≠ s.shared →
      (force = false → s.shared.AllConfirmed) ∧ (retire = true → s.shared.connections ≤ 1)) ∧
    (∀ c s₀ m, s.returning = some (c, s₀, .stopped (.error m)) →
      HostMoves s₀ s.shared ∧ s.shared.stopping = s₀.stopping ∧ s.shared.nextId = s₀.nextId ∧
        ∀ i, (s.shared.get? i).isSome = (s₀.get? i).isSome) := by
  have hgood := reachable_good h
  refine ⟨?_, ?_, ?_, ?_⟩
  · intro c s₀ fs t hr ht
    obtain ⟨hI, hst, -⟩ := hgood.returning hr
    obtain ⟨hgt, hret⟩ := exec_retired hgood ⟨hst, hI.stopped hst⟩ ht
    refine ⟨hret.1, hret.2, fun c' s₁ r hr' ha => ?_⟩
    have hf := returning_admits hgt hr' ha
    rw [hret.1] at hf
    cases hf
  · intro c s₀ force retire hr hc
    obtain ⟨-, -, hp⟩ := hgood.returning hr
    obtain ⟨hmay, u, hu, hmu⟩ := hp force retire hc
    exact ⟨u, hu, hmu.1, fun hre => ⟨hmu.2 hre, hmay.2 hre⟩⟩
  · intro r force retire t hh hc hact hne
    rcases Monitor.step_cases hgood hact with ⟨c, he, -⟩ | ⟨c, s₀, f, k, -, hh', hg, rfl⟩ |
      ⟨c, s₀, r', he, -⟩ | ⟨v, u, he, -⟩
    · cases he
    · rw [hh] at hh'
      cases hh'
      exact (hg.2 force retire hc).resolve_left hne
    · cases he
    · cases he
  · intro c s₀ m hr
    have hm : HostMoves s₀ s.shared := (hgood.returning hr).2
    exact ⟨hm, hostMoves_frame hm⟩

/-- one session whose child exits, then a stop -/
def stoppedOnce : Monitor.State (Registry .transcript) Call (Reply .transcript) :=
  afterRun (init _) (calling sampleEnsure 5 ++ [.leave, .env (.session 1 .childExits)] ++
    calling (.beginShutdown quietHost false) 5)

def stoppedThenEnsure : Monitor.State (Registry .transcript) Call (Reply .transcript) :=
  afterRun stoppedOnce (.leave :: calling sampleEnsure 1)

theorem retirement_then_ensure :
    (∀ i, stoppedThenEnsure.shared.get? i = none) ∧ ∃ s₁ r,
      stoppedThenEnsure.returning = some (sampleEnsure, s₁, r) ∧ ¬ r.admits := by
  have hrun : exec (monitor .transcript).step (init _) (calling sampleEnsure 5 ++
      [.leave, .env (.session 1 .childExits)] ++ calling (.beginShutdown quietHost false) 5)
      = some stoppedOnce := rfl
  have h := retirement hrun
  have hr : stoppedThenEnsure.returning = some (sampleEnsure, stoppedOnce.shared,
      .ensured (.error (.io retiring))) := rfl
  obtain ⟨-, hnone, hadmit⟩ := h.1 (.beginShutdown quietHost false) _ (.leave :: calling sampleEnsure 1)
    stoppedThenEnsure rfl rfl
  exact ⟨hnone, _, _, hr, hadmit _ _ _ hr⟩

end Registry
end TerminalManager.Ptyd
