import TerminalManager.Ptyd.Ownership

/-!
# What every registry operation guarantees

The registry is a `Monitor`: its operations run under the mutex of the table, the host events
do not wait for it.  Each operation is proved `Safe` for one contract, whatever the host does in
between:

* `guar`     every action is `Admissible`, and an action of a stop that changes the state is
             taken only where the stop may be accepted;
* `post`     the table is left with at most one owner for each key, empty when the daemon is
             stopping, and the reply means what the caller takes it to mean (`replyPost`);
* `safe_stop`, `safe_spawnWithContext`   two of the operations that meet it; the rest, and the
             contract for every call, are in `Ensure`.

The moments of a run may be restricted to states of a set `M`.  A reply of `ensure` that does
not name an existing session then exhibits a moment of `M` at which the key was vacant.
-/

namespace TerminalManager.Ptyd
open Interference Relation

namespace Registry
variable {E : Emulator}

def monitor (E : Emulator) : Monitor (Registry E) Call (Reply E) HostEvent where
  body := Call.body
  env := env

/-- the arguments `(force, retire)` of a call that runs `stop` -/
def Call.stops : Call → Option (Bool × Bool)
  | .beginShutdown _ force => some (force, false)
  | .beginRetirement _ => some (false, true)
  | _ => none

/-- the key of an `ensure` -/
def Call.ensures : Call → Option PaneKey
  | .ensure _ q _ => some q.key
  | _ => none

/-- the states in which `stop(force, retire)` may be accepted -/
def MayStop (force retire : Bool) (r : Registry E) : Prop :=
  (force = false → r.AllConfirmed) ∧ (retire = true → r.connections ≤ 1)

def guar (c : Call) (s t : Registry E) : Prop :=
  Admissible s t ∧ ∀ force retire, c.stops = some (force, retire) → t = s ∨ s.MayStop force retire

lemma guar_refl (c : Call) (s : Registry E) : guar c s s :=
  ⟨.refl s, fun _ _ _ => .inl rfl⟩

/-- what holds whenever the mutex is free -/
structure Inv (r : Registry E) : Prop where
  unique : r.UniqueOwner
  stopped : r.stopping = true → ∀ i, r.get? i = none

/-- at some moment of `M` nobody owned the key -/
def Vacated (M : Registry E → Prop) (key : PaneKey) : Prop := ∃ u, M u ∧ u.vacant key

/-- the moves of the host alone -/
def HostMoves : Registry E → Registry E → Prop := ReflTransGen fun s t => ∃ e, s.env e = some t

/-- what a reply says about the state the call found and the one it leaves -/
def replyPost (M : Registry E → Prop) : Call → Registry E → Reply E → Registry E → Prop
  | c, s₀, .stopped (.ok _), t =>
    t.stopping = true ∧ ∀ force retire, c.stops = some (force, retire) →
      t.MayStop force retire ∧ ∃ u, HostMoves s₀ u ∧ u.MayStop force retire
  | _, s₀, .stopped (.error _), t => HostMoves s₀ t
  | _, _, .registered (.ok _), t => t.stopping = false
  | _, _, .spawned (.ok _), t => t.stopping = false
  | c, _, .ensured (.ok e), t =>
    t.stopping = false ∧ ∀ key, c.ensures = some key →
      (∀ j, t.owner key j → j = e.sessionId) ∧ (e.disposition = .spawned → Vacated M key)
  | c, _, .ensured (.error f), _ =>
    ∀ key, c.ensures = some key → f ≠ .io keyIsShared ∧ Vacated M key
  | _, _, _, _ => True

def post (M : Registry E → Prop) (c : Call) (s₀ : Registry E) (r : Reply E) (t : Registry E) : Prop :=
  t.Inv ∧ replyPost M c s₀ r t

/-! ## assertions the others cannot falsify -/

def HostStable (P : Registry E → Prop) : Prop := ∀ s e t, P s → s.env e = some t → P t

/-- an assertion that survives the loss of sessions and of owners -/
def Downward (P : Registry E → Prop) : Prop :=
  ∀ s t, P s → t.Below s → t.stopping = s.stopping → P t

lemma Downward.hostStable {P : Registry E → Prop} (hP : Downward P) : HostStable P :=
  fun s _ t hs he => hP s t hs (env_below he) (env_stopping he)

lemma Downward.and {P R : Registry E → Prop} (hP : Downward P) (hR : Downward R) :
    Downward fun s => P s ∧ R s :=
  fun s t hs hb he => ⟨hP s t hs.1 hb he, hR s t hs.2 hb he⟩

lemma downward_uniqueOwner : Downward (E := E) UniqueOwner := fun _ _ hs hb _ => hb.uniqueOwner hs

lemma downward_stopping (b : Bool) : Downward (E := E) fun r => r.stopping = b :=
  fun _ _ hs _ he => he.trans hs

lemma downward_not_owner (key : PaneKey) (i : Nat) : Downward (E := E) fun r => ¬ r.owner key i :=
  fun _ _ hs hb _ ht => hs (hb.owner ht)

lemma downward_vacant (key : PaneKey) : Downward (E := E) fun r => r.vacant key :=
  fun _ _ hs hb _ i ht => hs i (hb.owner ht)

/-- every registered id is in the list -/
def KeysIn (l : List Nat) (r : Registry E) : Prop := ∀ i, (r.get? i).isSome = true → i ∈ l

lemma downward_keysIn (l : List Nat) : Downward (E := E) (KeysIn l) :=
  fun _ _ hs hb _ i ht => hs i (hb.isSome ht)

lemma downward_inv : Downward (E := E) Inv := by
  intro s t hs hb he
  refine ⟨hb.uniqueOwner hs.unique, fun ht i => ?_⟩
  by_contra hne
  have h := hb.isSome (Option.isSome_iff_ne_none.mpr hne)
  rw [hs.stopped (he ▸ ht) i] at h
  cases h

lemma Inv.of_accepting {r : Registry E} (hu : r.UniqueOwner) (hs : r.stopping = false) : r.Inv where
  unique := hu
  stopped h := by
    rw [hs] at h
    cases h

lemma Inv.of_empty {r : Registry E} (h : ∀ i, r.get? i = none) : r.Inv where
  unique := by
    rintro key i j ⟨s, hs, -⟩
    rw [h i] at hs
    cases hs
  stopped _ := h

lemma KeysIn.vacant {r : Registry E} {l : List Nat} {key : PaneKey} (hl : KeysIn l r)
    (h : ∀ i ∈ l, ¬ r.owner key i) : r.vacant key := by
  rintro i ⟨s, hs, ha⟩
  exact h i (hl i (hs ▸ rfl)) ⟨s, hs, ha⟩

lemma keysIn_order (h : Host) (r : Registry E) : KeysIn (h.order r.sessions.keys) r := by
  intro i hi
  rw [(h.order_perm _).mem_iff, mem_keys_iff]
  exact Option.isSome_iff_exists.mp hi

lemma nodup_order (h : Host) (r : Registry E) : (h.order r.sessions.keys).Nodup :=
  (h.order_perm _).nodup_iff.mpr r.sessions.keys_nodup

/-! ## rules for the registry's own actions -/

section
variable {M : Registry E → Prop} {c : Call} {P : Registry E → Prop} {s : Registry E} {α : Type}

abbrev con (M : Registry E → Prop) (c : Call) : Contract (Registry E) :=
  (monitor E).contract M guar guar_refl c

lemma HostStable.stable (hP : HostStable P) : (con M c).Stable P :=
  fun s t hs he _ => he.elim fun e he => hP s e t hs he

lemma Downward.stable (hP : Downward P) : (con M c).Stable P := hP.hostStable.stable

/-- a downward assertion at a moment of `M` -/
lemma Downward.stable_moment (hP : Downward P) : (con M c).Stable fun t => P t ∧ M t :=
  hP.stable.and Contract.stable_moment

/-- a query, from a downward assertion -/
lemma safe_query (hP : Downward P) (hs : P s ∧ M s) {f : Registry E → α}
    {Q : α → Registry E → Prop} (hQ : ∀ a, HostStable (Q a)) (h : ∀ t, P t → Q (f t) t) :
    (con M c).Safe (fun a t => (P t ∧ M t) ∧ Q a t) (.read f) s :=
  Contract.safe_read _ hP.stable_moment hs (fun a => hP.stable_moment.and (hQ a).stable)
    fun t ht => ⟨ht, h t ht.1⟩

/-- a write that only takes away, by a call that does not stop the daemon -/
lemma safe_shrink (hc : c.stops = none) (hP : Downward P) (hs : P s ∧ M s)
    {f : Registry E → Registry E} (hf : ∀ r, (f r).Below r ∧ (f r).stopping = r.stopping) :
    (con M c).Safe (fun _ t => P t ∧ M t) (.update f) s := by
  refine Contract.safe_update _ hP.stable_moment hs hP.stable_moment fun t ht => ⟨?_, fun hm => ?_⟩
  · refine ⟨(hf t).1.admissible fun h => (hf t).2.trans h, fun force retire e => ?_⟩
    rw [hc] at e
    cases e
  · exact ⟨hP t (f t) ht.1 (hf t).1 (hf t).2, hm⟩

/-- the same for a write that also reads -/
lemma safe_shrinkGet (hc : c.stops = none) (hP : Downward P) (hs : P s ∧ M s)
    {f : Registry E → α × Registry E} {Q : α → Registry E → Prop}
    (hf : ∀ r, (f r).2.Below r ∧ (f r).2.stopping = r.stopping) (hQ : ∀ a, Downward (Q a))
    (h : ∀ t, P t → Q (f t).1 (f t).2) :
    (con M c).Safe (fun a t => (P t ∧ M t) ∧ Q a t) (.modifyGet f) s := by
  refine Contract.safe_modifyGet _ hP.stable_moment hs
    (fun a => hP.stable_moment.and (hQ a).stable) fun t ht => ⟨?_, fun hm => ?_⟩
  · refine ⟨(hf t).1.admissible fun h => (hf t).2.trans h, fun force retire e => ?_⟩
    rw [hc] at e
    cases e
  · exact ⟨⟨hP t _ ht.1 (hf t).1 (hf t).2, hm⟩, h t ht.1⟩

lemma safe_dropSession (hc : c.stops = none) (hP : Downward P) (hs : P s ∧ M s) (i : Nat) :
    (con M c).Safe (fun _ t => P t ∧ M t) (dropSession i) s :=
  safe_shrink hc hP hs fun _ => ⟨erase_below i, rfl⟩

lemma takeId_below (r : Registry E) :
    (if r.nextId = u64Max then r else { r with nextId := r.nextId + 1 }).Below r := by
  split
  · exact .refl r
  · exact .refl r

lemma safe_takeId (hc : c.stops = none) (hP : Downward P) (hs : P s ∧ M s) :
    (con M c).Safe (fun _ t => P t ∧ M t) takeId s :=
  (safe_shrinkGet hc hP hs (Q := fun _ _ => True) (fun r => ⟨takeId_below r, by dsimp; split <;> rfl⟩)
    (fun _ _ _ _ _ _ => trivial) fun _ _ => trivial).mono fun _ _ h => h.1

end

/-! ## the searches -/

section
variable {M : Registry E → Prop} {c : Call} {P : Registry E → Prop} {s : Registry E}

lemma owner_of_reads {key : PaneKey} {i : Nat} {t : Registry E}
    (hk : ∀ x, t.get? i = some x → x.key = key)
    (ho : ((t.get? i).any fun x => x.output.open?) = true) (hr : t.running i) : t.owner key i := by
  obtain ⟨x, hx, hc⟩ := hr
  rw [hx] at ho
  exact ⟨x, hx, hk x hx, (Session.alive_iff x).mpr ⟨ho, hc⟩⟩

lemma hostStable_hasKey (key : PaneKey) (i : Nat) :
    HostStable fun t : Registry E => ∀ x, t.get? i = some x → x.key = key := by
  intro s e t hs he x hx
  obtain ⟨x₀, hx₀, hk, -⟩ := env_below he i x hx
  exact hk.trans (hs x₀ hx₀)

/-- **The test of a search.**  `alive` reads the reader flag and the child one after the other.
When both say yes the session was the owner at the first read, so whatever `R` follows from that
and cannot be falsified holds; when one says no the session is not the owner any more. -/
lemma safe_matchesAlive (key : PaneKey) (i : Nat) (hP : Downward P) (hs : P s ∧ M s)
    {R : Registry E → Prop} (hR : HostStable R) (h : ∀ t, P t → t.owner key i → R t) :
    (con M c).Safe (fun b t => (P t ∧ M t) ∧ if b then R t else ¬ t.owner key i)
      (matchesAlive key i) s := by
  have hno : HostStable fun t : Registry E => ¬ t.owner key i := (downward_not_owner key i).hostStable
  have hQ : ∀ b : Bool, HostStable fun t => if b then R t else ¬ t.owner key i := by
    intro b
    cases b with
    | false => exact hno
    | true => exact hR
  let K : Registry E → Prop := fun t => ∀ x, t.get? i = some x → x.key = key
  have hkey : ∀ b : Bool, HostStable fun t => if b then K t else ¬ t.owner key i := by
    intro b
    cases b with
    | false => exact hno
    | true => exact hostStable_hasKey key i
  refine Contract.safe_bind (safe_query hP hs hkey fun t ht => ?_) fun b t ht => ?_
  · cases hx : t.get? i with
    | none =>
      rintro ⟨x, hx', -⟩
      rw [hx] at hx'
      cases hx'
    | some x =>
      by_cases hk : x.key = key
      · have hb : ((some x).any fun x => decide (x.key = key)) = true := decide_eq_true hk
        rw [hb]
        intro y hy
        rw [hx] at hy
        cases hy
        exact hk
      · have hb : ((some x).any fun x => decide (x.key = key)) = false := decide_eq_false hk
        rw [hb]
        rintro ⟨y, hy, hk', -⟩
        rw [hx] at hy
        cases hy
        exact hk hk'
  cases b with
  | false => exact Contract.safe_ret (hP.stable_moment.and hno.stable) ht
  | true =>
    -- between the two reads: if the child still runs, the session was the owner
    have hmid : ∀ b : Bool, HostStable fun t : Registry E =>
        if b then t.running i → R t else ¬ t.owner key i := by
      intro b
      cases b with
      | false => exact hno
      | true =>
        intro s e t hs he ht
        exact hR s e t (hs (env_running he ht)) he
    have hPK : (con M c).Stable fun t => (P t ∧ M t) ∧ K t :=
      hP.stable_moment.and (hostStable_hasKey key i).stable
    refine Contract.safe_bind (Contract.safe_read (Q := fun b t => (P t ∧ M t) ∧
      if b then t.running i → R t else ¬ t.owner key i) _ hPK ht
      (fun b => hP.stable_moment.and (hmid b).stable) fun t ht => ⟨ht.1, ?_⟩) fun b t ht => ?_
    · by_cases ho : ((t.get? i).any fun x => x.output.open?) = true
      · rw [if_pos ho]
        exact fun hr => h t ht.1.1 (owner_of_reads ht.2 ho hr)
      · rw [if_neg ho]
        rintro ⟨x, hx, -, ha⟩
        rw [hx] at ho
        exact ho ((Session.alive_iff x).mp ha).1
    · cases b with
      | false => exact Contract.safe_ret (hP.stable_moment.and hno.stable) ht
      | true =>
        refine Contract.safe_read _ (hP.stable_moment.and (hmid true).stable) ht
          (fun b => hP.stable_moment.and (hQ b).stable) fun t ht => ⟨ht.1, ?_⟩
        by_cases hc : ((t.get? i).any fun x => x.childRunning) = true
        · rw [if_pos hc]
          obtain ⟨x, hx, hr⟩ := (Option.any_eq_true _ _).mp hc
          exact ht.2 ⟨x, hx, hr⟩
        · rw [if_neg hc]
          rintro ⟨x, hx, -, ha⟩
          rw [hx] at hc
          exact hc ((Session.alive_iff x).mp ha).2

end

/-! ## stopping -/

section
variable {M : Registry E → Prop} {c : Call} {s : Registry E}

lemma hostStable_mayStop (force retire : Bool) :
    HostStable fun r : Registry E => r.MayStop force retire := by
  intro s e t hs he
  exact ⟨fun hf => env_confirmed he (hs.1 hf), fun hr => Nat.le_trans (env_connections he) (hs.2 hr)⟩

lemma hostStable_hostMoves (s₀ : Registry E) : HostStable (HostMoves s₀) :=
  fun _ e _ hs he => hs.tail ⟨e, he⟩

lemma hostStable_replyPost (M : Registry E → Prop) (c : Call) (s₀ : Registry E) (r : Reply E) :
    HostStable (replyPost M c s₀ r) := by
  intro s e t hs he
  have hst := env_stopping he
  rcases r with (_ | _) | (_ | _) | (_ | _) | (_ | x) | _ | _ | _ | _ | _ | _
  case registered.ok => exact hst.trans hs
  case stopped.error => exact hs.tail ⟨e, he⟩
  case stopped.ok =>
    exact ⟨hst.trans hs.1, fun f b h =>
      ⟨hostStable_mayStop f b s e t (hs.2 f b h).1 he, (hs.2 f b h).2⟩⟩
  case spawned.ok => exact hst.trans hs
  case ensured.ok =>
    exact ⟨hst.trans hs.1, fun key hk =>
      ⟨fun j hj => (hs.2 key hk).1 j ((env_below he).owner hj), (hs.2 key hk).2⟩⟩
  case ensured.error => exact hs
  all_goals trivial

lemma hostStable_post (M : Registry E → Prop) (c : Call) (s₀ : Registry E) (r : Reply E) :
    HostStable (post M c s₀ r) := fun s e t hs he =>
  ⟨downward_inv.hostStable s e t hs.1 he, hostStable_replyPost M c s₀ r s e t hs.2 he⟩

/-- the search for children whose exit is not confirmed: when it finds none, every registered
child has exited -/
lemma safe_unconfirmed {l : List Nat} {s₀ : Registry E}
    (hs : (s.Inv ∧ HostMoves s₀ s) ∧ KeysIn l s) :
    (con M c).Safe (fun k t => (t.Inv ∧ HostMoves s₀ t) ∧ (k = [] → t.AllConfirmed))
      (Prog.filter (fun id => do
        let b ← childExitConfirmed id
        return !b) l) s := by
  let J : List Nat → List Nat → Registry E → Prop := fun d k t =>
    ((t.Inv ∧ HostMoves s₀ t) ∧ KeysIn l t) ∧
      (k = [] → ∀ i ∈ d, ∀ x, t.get? i = some x → x.childExitConfirmed = true)
  have hJ : ∀ d k, (con M c).Stable (J d k) := by
    intro d k
    refine ((downward_inv.stable.and (hostStable_hostMoves s₀).stable).and
      (downward_keysIn l).stable).and (HostStable.stable ?_)
    intro s e t hs he hk i hi x hx
    obtain ⟨x₀, hx₀, rfl | ⟨v, rfl⟩⟩ := get?_env he hx
    · exact hs hk i hi x hx₀
    · exact Session.childExitConfirmed_react v (hs hk i hi x₀ hx₀)
  refine (Contract.safe_filter J hJ ⟨hs, fun _ i hi => absurd hi (by simp)⟩ ?_).mono ?_
  · intro d k i r t _ ht
    refine Contract.safe_bind (Contract.safe_read (Q := fun b => J (d ++ [i]) (if b then k else k ++ [i]))
      _ (hJ d k) ht (fun _ => hJ _ _) fun t ht => ⟨ht.1, ?_⟩) fun b t ht => ?_
    · intro hk j hj x hx
      have hb : (t.get? i).all (fun x => x.childExitConfirmed) = true := by
        by_contra hb
        rw [if_neg hb] at hk
        exact absurd hk (by simp)
      rw [if_pos hb] at hk
      rcases List.mem_append.mp hj with hj | hj
      · exact ht.2 hk j hj x hx
      · rw [List.mem_singleton.mp hj] at hx
        rw [hx] at hb
        exact hb
    · cases b with
      | false => exact Contract.safe_ret (hJ _ _) ht
      | true => exact Contract.safe_ret (hJ _ _) ht
  · intro k t ht
    exact ⟨ht.1.1, fun hk i x hx => ht.2 hk i (ht.1.2 i (hx ▸ rfl)) x hx⟩

/-- **`stop`** touches nothing until it may be accepted, and then empties the table. -/
theorem safe_stop (h : Host) {force retire : Bool} (hc : c.stops = some (force, retire))
    (hs : s.Inv) : (con M c).Safe (fun r => post M c s (.stopped r)) (stop h force retire) s := by
  have hpost : ∀ r, (con M c).Stable (post M c s (.stopped r)) := fun r =>
    (hostStable_post M c s _).stable
  have hguar : ∀ {t u : Registry E}, t.MayStop force retire → u.Below t →
      (t.stopping = true → u.stopping = true) → guar c t u := by
    intro t u ht hb hu
    refine ⟨hb.admissible hu, fun f b e => .inr ?_⟩
    rw [hc] at e
    cases e
    exact ht
  have hq : (con M c).Stable fun t => t.Inv ∧ HostMoves s t :=
    downward_inv.stable.and (hostStable_hostMoves s).stable
  refine Contract.safe_bind (Contract.safe_read (Q := fun l t => (t.Inv ∧ HostMoves s t) ∧ KeysIn l t)
    _ hq ⟨hs, .refl⟩ (fun l => hq.and (downward_keysIn l).stable)
    fun t ht => ⟨ht, keysIn_order h t⟩) fun l t ht => ?_
  refine Contract.safe_bind (safe_unconfirmed ht) fun k t ht => ?_
  split
  · exact Contract.safe_ret (hpost _) ht.1
  · rename_i hk
    have hconf : force = false → t.AllConfirmed := by
      intro hf
      rw [hf] at hk
      exact ht.2 (List.eq_nil_of_length_eq_zero (by simpa using hk))
    have hc' : (con M c).Stable fun t : Registry E =>
        (t.Inv ∧ HostMoves s t) ∧ (force = false → t.AllConfirmed) :=
      hq.and (HostStable.stable fun s e t hs he hf => env_confirmed he (hs hf))
    refine Contract.safe_bind (Contract.safe_read (Q := fun n t =>
      ((t.Inv ∧ HostMoves s t) ∧ (force = false → t.AllConfirmed)) ∧ t.connections ≤ n)
      _ hc' ⟨ht.1, hconf⟩ (fun n => hc'.and (HostStable.stable fun s e t hs he =>
        Nat.le_trans (env_connections he) hs)) fun t ht => ⟨ht, le_refl _⟩) fun n t ht => ?_
    split
    · exact Contract.safe_ret (hpost _) ht.1.1
    · rename_i hn
      have hmay : t.MayStop force retire := by
        refine ⟨ht.1.2, fun hr => Nat.le_trans ht.2 ?_⟩
        rw [hr] at hn
        simpa using hn
      have hseen : ∃ u, HostMoves s u ∧ u.MayStop force retire := ⟨t, ht.1.1.2, hmay⟩
      have hm := (hostStable_mayStop (E := E) force retire).stable (M := M) (c := c)
      have hm' := (downward_stopping (E := E) true).stable (M := M) (c := c)
      refine Contract.safe_bind (Contract.safe_update (Q := fun _ t =>
        t.stopping = true ∧ t.MayStop force retire) _ hm hmay (hm'.and hm) fun t ht =>
          ⟨hguar ht (.refl t) fun _ => rfl, fun _ => ⟨rfl, ht⟩⟩) fun _ t ht => ?_
      refine Contract.safe_bind (Contract.safe_update (Q := fun _ => post M c s (.stopped (.ok ())))
        _ (hm'.and hm) ht (hpost _) fun t ht => ⟨hguar ht.2 clear_below fun h => h, fun _ => ?_⟩)
        fun _ t ht => Contract.safe_ret (hpost _) ht
      refine ⟨.of_empty fun i => rfl, ht.1, fun f b e => ?_⟩
      rw [hc] at e
      cases e
      exact ⟨⟨fun _ i x hx => (by cases hx), ht.2.2⟩, hseen⟩

end

/-! ## spawning -/

section
variable {M : Registry E → Prop} {c : Call} {P : Registry E → Prop} {s s₀ : Registry E}

lemma quiet_matchesDead (key : PaneKey) (i : Nat) : (matchesDead (E := E) key i).Quiet := by
  refine (Prog.quiet_read _).bind fun b => ?_
  cases b with
  | false => trivial
  | true =>
    refine Prog.Quiet.bind ((Prog.quiet_read _).bind fun b => ?_) fun _ => trivial
    cases b with
    | false => trivial
    | true => exact Prog.quiet_read _

lemma safe_ids (h : Host) (hP : Downward P) (hs : P s ∧ M s) :
    (con M c).Safe (fun l t => ((P t ∧ KeysIn l t) ∧ M t) ∧ l.Nodup) (ids h) s := by
  refine (safe_query hP hs (Q := fun l t => KeysIn l t ∧ l.Nodup) (fun l => ?_) fun t _ =>
    ⟨keysIn_order h t, nodup_order h t⟩).mono fun l t ht => ⟨⟨⟨ht.1.1, ht.2.1⟩, ht.1.2⟩, ht.2.2⟩
  exact fun s e t hs he => ⟨(downward_keysIn l).hostStable s e t hs.1 he, hs.2⟩

lemma safe_isStopping (hP : Downward P) (hs : P s ∧ M s) :
    (con M c).Safe (fun b t => (P t ∧ t.stopping = b) ∧ M t) isStopping s :=
  (safe_query hP hs (fun b => (downward_stopping b).hostStable) fun _ _ => rfl).mono
    fun _ _ ht => ⟨⟨ht.1.1, ht.2⟩, ht.1.2⟩

/-- the table accepts a new owner of the key -/
def Ready (key : PaneKey) (r : Registry E) : Prop :=
  (r.UniqueOwner ∧ r.stopping = false) ∧ r.vacant key

lemma downward_ready (key : PaneKey) : Downward (E := E) (Ready key) :=
  (downward_uniqueOwner.and (downward_stopping false)).and (downward_vacant key)

lemma key_foldl_react (l : List SessionEvent) (x : Session E) :
    (l.foldl Session.react x).key = x.key := by
  induction l generalizing x with
  | nil => rfl
  | cons e l ih => rw [List.foldl_cons, ih, key_react]

/-- a fresh id and the session around a fresh child; the table stays ready -/
lemma safe_spawnSession (hc : c.stops = none) (h : Host) (q : SpawnRequest) (hP : Downward P)
    (hs : P s ∧ M s) :
    (con M c).Safe (fun r t => (P t ∧ M t) ∧ (∀ id x, r = .ok (id, x) → x.key = q.key) ∧
      ∀ f, r = .error f → f ≠ .io keyIsShared) (spawnSession h q) s := by
  refine Contract.safe_bind (safe_takeId hc hP hs) fun id t ht => ?_
  cases h.spawn with
  | error e =>
    refine Contract.safe_ret (hP.stable_moment.and (Contract.stable_const _)) ⟨ht, ?_, ?_⟩
    · intro id x hx
      cases hx
    · intro f hf
      cases hf
      exact fun h => by cases h
  | ok child =>
    refine Contract.safe_ret (hP.stable_moment.and (Contract.stable_const _)) ⟨ht, ?_, ?_⟩
    · intro id x hx
      cases hx
      rfl
    · intro f hf
      cases hf

/-- the insertion of the new owner -/
lemma safe_insert (hc : c.stops = none) {key : PaneKey} {id : Nat} {x : Session E}
    (hx : x.key = key) (hs : Ready key s ∧ M s) :
    (con M c).Safe (fun _ t => (t.UniqueOwner ∧ t.stopping = false) ∧ ∀ j, t.owner key j → j = id)
      (.update fun r => r.insert id x) s := by
  subst hx
  have hQ : (con M c).Stable fun t : Registry E =>
      (t.UniqueOwner ∧ t.stopping = false) ∧ ∀ j, t.owner x.key j → j = id :=
    (downward_uniqueOwner.and (downward_stopping false)).stable.and
      (HostStable.stable fun s e t hs he j hj => hs j ((env_below he).owner hj))
  refine Contract.safe_update _ (downward_ready x.key).stable_moment hs hQ fun t ht => ?_
  have hadm : Admissible t (t.insert id x) := admissible_insert ht.1.2 ht.1.1.2
  refine ⟨⟨hadm, fun force retire e => ?_⟩, fun _ => ⟨⟨hadm.uniqueOwner ht.1.1.1, ht.1.1.2⟩, ?_⟩⟩
  · rw [hc] at e
    cases e
  · rintro j ⟨y, hy, hk, ha⟩
    by_contra hj
    rw [get?_insert, if_neg hj] at hy
    exact ht.1.2 j ⟨y, hy, hk, ha⟩

/-- **`spawn_with_context`** inserts a session only when the key has no live owner. -/
theorem safe_spawnWithContext (hc : c.stops = none) (h : Host) (q : SpawnRequest)
    (hs : s.Inv ∧ M s) :
    (con M c).Safe (fun r => post M c s₀ (.spawned r)) (spawnWithContext h q) s := by
  have hpost : ∀ r, (con M c).Stable (post M c s₀ (.spawned r)) := fun r =>
    (hostStable_post M c s₀ _).stable
  have hbase := downward_uniqueOwner.and (downward_stopping (E := E) false)
  refine Contract.safe_bind (safe_isStopping downward_inv hs) fun b t ht => ?_
  cases b with
  | true => exact Contract.safe_ret (hpost _) ⟨ht.1.1, trivial⟩
  | false =>
  refine Contract.safe_bind (safe_ids h hbase ⟨⟨ht.1.1.unique, ht.1.2⟩, ht.2⟩) fun l t ht => ?_
  let J : List Nat → Registry E → Prop := fun d t =>
    ((t.UniqueOwner ∧ t.stopping = false) ∧ KeysIn l t) ∧ ∀ i ∈ d, ¬ t.owner q.key i
  have hJ : ∀ d, Downward (J d) := fun d => (hbase.and (downward_keysIn l)).and
    fun s t hs hb he i hi => downward_not_owner q.key i s t (hs i hi) hb he
  refine Contract.safe_bind (Contract.safe_any (K := Inv) (fun d t => J d t ∧ M t)
    (fun d => (hJ d).stable_moment) downward_inv.stable
    ⟨⟨ht.1.1, fun i hi => absurd hi (by simp)⟩, ht.1.2⟩ fun d i r t _ ht => ?_) fun b t ht => ?_
  · refine (safe_matchesAlive q.key i (hJ d) ht (R := fun _ => True)
      (fun _ _ _ _ _ => trivial) fun _ _ _ => trivial).mono fun b t ht => ?_
    cases b with
    | true => exact .of_accepting ht.1.1.1.1.1 ht.1.1.1.1.2
    | false =>
      refine ⟨⟨ht.1.1.1, fun j hj => ?_⟩, ht.1.2⟩
      rcases List.mem_append.mp hj with hj | hj
      · exact ht.1.1.2 j hj
      · rw [List.mem_singleton.mp hj]
        exact ht.2
  cases b with
  | true => exact Contract.safe_ret (hpost _) ⟨ht, trivial⟩
  | false =>
  have hready : Ready q.key t ∧ M t := ⟨⟨ht.1.1.1, ht.1.1.2.vacant ht.1.2⟩, ht.2⟩
  refine Contract.safe_bind (safe_ids h (downward_ready q.key) hready) fun l t ht => ?_
  have hR := (downward_ready (E := E) q.key).stable_moment (M := M) (c := c)
  refine Contract.safe_bind (Contract.safe_forEach (fun _ t => Ready q.key t ∧ M t)
    (fun _ => hR) ⟨ht.1.1.1, ht.1.2⟩ fun d i r t _ ht => ?_) fun _ t ht => ?_
  · refine Contract.safe_bind (Contract.safe_quiet (quiet_matchesDead q.key i) hR ht)
      fun b t ht => ?_
    cases b with
    | true => exact safe_dropSession hc (downward_ready q.key) ht i
    | false => exact Contract.safe_ret hR ht
  refine Contract.safe_bind (safe_spawnSession hc h q (downward_ready q.key) ht) fun r t ht => ?_
  rcases r with f | ⟨id, x⟩
  · exact Contract.safe_ret (hpost _) ⟨.of_accepting ht.1.1.1.1 ht.1.1.1.2, trivial⟩
  · have hx : (h.beforeInsert.foldl Session.react x).key = q.key := by
      rw [key_foldl_react]
      exact ht.2.1 id x rfl
    refine Contract.safe_bind (safe_insert hc hx ht.1) fun _ t ht => ?_
    exact Contract.safe_ret (hpost _) ⟨.of_accepting ht.1.1 ht.1.2, ht.1.2⟩

end

end Registry
end TerminalManager.Ptyd
