import TerminalManager.Ptyd.Operations

/-!
# Ensuring and attaching

`ensure_with_context` searches for the live owner of a key, attaches to it, and when that fails
spawns a new one under the same lock.  The host may kill the owner at any point in between.

* `safe_search`     the search finds the one live owner, or nobody owns the key;
* `safe_attachAction`  an attach that fails leaves a session that is not alive;
* `safe_ensureWithContext`, `safe_attach`, …   the operations;
* `body_safe`       **main result**: every call meets the contract of `Operations`.
-/

namespace TerminalManager.Ptyd
open Interference

namespace Session
variable {E : Emulator}

lemma attachWithSnapshot_key (s : Session E) (n : Nat) : (s.attachWithSnapshot n).2.key = s.key := by
  unfold attachWithSnapshot
  split
  · rfl
  · split <;> rfl

lemma attachWithSnapshot_alive {s : Session E} {n : Nat}
    (h : (s.attachWithSnapshot n).2.alive = true) : s.alive = true := by
  rcases hr : (s.attachWithSnapshot n).1 with _ | _ | ⟨t, m⟩
  · rw [attachWithSnapshot_dead (by simp [hr])] at h
    cases h
  · rw [attachWithSnapshot_dead (by simp [hr])] at h
    cases h
  · rw [(attachWithSnapshot_attached hr).2.2.2.2.2] at h
    exact h

lemma resize_key (s : Session E) (ok : Bool) (cols rows : UInt16) :
    (s.resize ok cols rows).key = s.key := by
  unfold resize
  split <;> rfl

lemma resize_alive (s : Session E) (ok : Bool) (cols rows : UInt16) :
    (s.resize ok cols rows).alive = s.alive := by
  unfold resize
  split <;> rfl

lemma detach_alive (s : Session E) (token : AttachmentToken) :
    (s.detach token).2.alive = s.alive := by
  show ((s.output.detach token).2.open? && s.childRunning) = s.alive
  rw [OutputState.detach_open?]
  rfl

end Session

namespace Registry
variable {E : Emulator}

section
variable {M : Registry E → Prop} {c : Call} {P : Registry E → Prop} {s s₀ : Registry E}

/-- what an attach does to the table -/
def attachStep (id lines : Nat) (r : Registry E) : Option (Attach E × String) × Registry E :=
  match r.get? id with
  | some s =>
    (some ((s.attachWithSnapshot lines).1, s.hookCapability),
      r.insert id (s.attachWithSnapshot lines).2)
  | none => (none, r)

lemma attachStep_below (id lines : Nat) (r : Registry E) :
    (attachStep id lines r).2.Below r ∧ (attachStep id lines r).2.stopping = r.stopping := by
  unfold attachStep
  cases hx : r.get? id with
  | none => exact ⟨.refl r, rfl⟩
  | some x =>
    dsimp only
    refine ⟨?_, rfl⟩
    rw [insert_eq_modify (fun x : Session E => (x.attachWithSnapshot lines).2) hx]
    exact modify_below fun s _ => ⟨s.attachWithSnapshot_key lines, Session.attachWithSnapshot_alive⟩

/-- the session an attach was refused by is not alive -/
def Unless (id : Nat) (a : Option (Attach E × String)) (t : Registry E) : Prop :=
  (∀ token m cap, a ≠ some (.attached token m, cap)) → ∀ key, ¬ t.owner key id

lemma downward_unless (id : Nat) (a : Option (Attach E × String)) : Downward (Unless id a) :=
  fun s t hs hb he h key => downward_not_owner key id s t (hs h key) hb he

lemma attachStep_unless (id lines : Nat) (r : Registry E) :
    Unless id (attachStep id lines r).1 (attachStep id lines r).2 := by
  unfold attachStep
  cases hx : r.get? id with
  | none =>
    rintro - key ⟨y, hy, -⟩
    rw [hx] at hy
    cases hy
  | some x =>
    rintro h key ⟨y, hy, -, ha⟩
    rw [get?_insert, if_pos rfl] at hy
    cases hy
    have hno : ∀ t m, (x.attachWithSnapshot lines).1 ≠ .attached t m := fun t m e =>
      h t m x.hookCapability (by dsimp only; rw [e])
    rw [Session.attachWithSnapshot_dead hno] at ha
    cases ha

/-- **The attach boundary.** -/
lemma safe_attachAction (hc : c.stops = none) (id lines : Nat) (hP : Downward P) (hs : P s ∧ M s) :
    (con M c).Safe (fun a t => (P t ∧ M t) ∧ Unless id a t) (attachAction id lines) s :=
  safe_shrinkGet (f := attachStep id lines) hc hP hs (attachStep_below id lines)
    (downward_unless id) fun t _ => attachStep_unless id lines t

/-- what the search of `ensure` knows of the ids it has tested and those it has kept -/
def Found (key : PaneKey) (d k : List Nat) (t : Registry E) : Prop :=
  ((∀ i ∈ d, i ∉ k → ¬ t.owner key i) ∧ ∀ i ∈ k, ∀ j, j ≠ i → ¬ t.owner key j) ∧
    k.length ≤ 1 ∧ k ⊆ d

lemma downward_found (key : PaneKey) (d k : List Nat) : Downward (E := E) (Found key d k) := by
  intro s t hs hb he
  exact ⟨⟨fun i hi hk => downward_not_owner key i s t (hs.1.1 i hi hk) hb he,
    fun i hi j hj => downward_not_owner key j s t (hs.1.2 i hi j hj) hb he⟩, hs.2⟩

/-- one more id tested: kept only when nothing was kept before -/
lemma Found.step {key : PaneKey} {d k : List Nat} {i : Nat} {t : Registry E} (b : Bool)
    (h : Found key d k t)
    (hb : if b then k = [] ∧ ∀ j, j ≠ i → ¬ t.owner key j else ¬ t.owner key i) :
    Found key (d ++ [i]) (if b then k ++ [i] else k) t := by
  obtain ⟨⟨hd, hk⟩, hlen, hsub⟩ := h
  cases b with
  | true =>
    obtain ⟨rfl, hj⟩ := hb
    refine ⟨⟨fun x hx hxi => ?_, fun x hx => ?_⟩, by simp, by simp⟩
    · exact hj x fun e => hxi (by simp [e])
    · have hxi : x = i := by simpa using hx
      rw [hxi]
      exact hj
  | false =>
    refine ⟨⟨fun x hx hxk => ?_, hk⟩, hlen, fun x hx => List.mem_append_left _ (hsub hx)⟩
    rcases List.mem_append.mp hx with hx | hx
    · exact hd x hx hxk
    · rw [List.mem_singleton.mp hx]
      exact hb

/-- **The search for the live owner.** -/
lemma safe_search (key : PaneKey) {l : List Nat} (hl : l.Nodup)
    (hs : ((s.UniqueOwner ∧ s.stopping = false) ∧ KeysIn l s) ∧ M s) :
    (con M c).Safe (fun k t =>
        ((((t.UniqueOwner ∧ t.stopping = false) ∧ KeysIn l t) ∧ Found key l k t) ∧ M t))
      (Prog.filter (matchesAlive key) l) s := by
  let J : List Nat → List Nat → Registry E → Prop := fun d k t =>
    ((t.UniqueOwner ∧ t.stopping = false) ∧ KeysIn l t) ∧ Found key d k t
  have hJ : ∀ d k, Downward (J d k) := fun d k =>
    ((downward_uniqueOwner.and (downward_stopping false)).and (downward_keysIn l)).and
      (downward_found key d k)
  have h0 : Found key [] [] s := ⟨⟨by simp, by simp⟩, by simp, by simp⟩
  refine Contract.safe_filter (fun d k t => J d k t ∧ M t) (fun d k => (hJ d k).stable_moment)
    ⟨⟨hs.1, h0⟩, hs.2⟩ fun d k i r t hd ht => ?_
  have hid : i ∉ d := by
    rw [← hd] at hl
    exact fun h => (List.nodup_append.mp hl).2.2 i h i List.mem_cons_self rfl
  have hR : HostStable fun t : Registry E => k = [] ∧ ∀ j, j ≠ i → ¬ t.owner key j :=
    fun s e t hs he => ⟨hs.1, fun j hj => (downward_not_owner key j).hostStable s e t (hs.2 j hj) he⟩
  refine (safe_matchesAlive key i (hJ d k) ht hR fun t ht ho => ⟨?_, fun j hj hoj => ?_⟩).mono
    fun b t hb => ⟨⟨hb.1.1.1, hb.1.1.2.step b hb.2⟩, hb.1.2⟩
  · -- `i` is the owner, so no other id can have been found before it
    rcases k with _ | ⟨x, k⟩
    · rfl
    · have hx : x ∈ d := ht.2.2.2 List.mem_cons_self
      exact absurd ho (ht.2.1.2 x List.mem_cons_self i fun e => hid (e ▸ hx))
  · exact hj (ht.1.1.1 key j i hoj ho)

/-- the part of `ensure` that spawns, entered at a moment when nobody owned the key -/
lemma safe_ensureFresh (hc : c.stops = none) (h : Host) (q : SpawnRequest) (n : Nat)
    (hs : Ready q.key s ∧ M s) :
    (con M c).Safe (fun r t => t.Inv ∧
        (∀ e, r = .ok e → t.stopping = false ∧ ∀ j, t.owner q.key j → j = e.sessionId) ∧
        ∀ f, r = .error f → f ≠ .io keyIsShared) (ensureFresh h q n) s := by
  have hready := downward_ready (E := E) q.key
  have hR := hready.stable_moment (M := M) (c := c)
  have hQ : ∀ r : Except Failure (EnsuredSession E), (con M c).Stable fun t => t.Inv ∧
      (∀ e, r = .ok e → t.stopping = false ∧ ∀ j, t.owner q.key j → j = e.sessionId) ∧
        ∀ f, r = .error f → f ≠ .io keyIsShared := by
    intro r
    refine downward_inv.stable.and ((HostStable.stable ?_).and (Contract.stable_const _))
    exact fun s e t hs he x hx => ⟨(env_stopping he).trans (hs x hx).1,
      fun j hj => (hs x hx).2 j ((env_below he).owner hj)⟩
  refine Contract.safe_bind (safe_ids h hready hs) fun l t ht => ?_
  refine Contract.safe_bind (Contract.safe_quiet (Prog.Quiet.filter (quiet_matchesDead q.key) l)
    hR ⟨ht.1.1.1, ht.1.2⟩) fun dead t ht => ?_
  refine Contract.safe_bind (Contract.safe_forEach (fun _ t => Ready q.key t ∧ M t) (fun _ => hR) ht
    fun d i r t _ ht => safe_dropSession hc hready ht i) fun _ t ht => ?_
  refine Contract.safe_bind (safe_spawnSession hc h q hready ht) fun r t ht => ?_
  rcases r with f | ⟨id, x⟩
  · refine Contract.safe_ret (hQ _) ⟨.of_accepting ht.1.1.1.1 ht.1.1.1.2, ?_, ?_⟩
    · intro e he
      cases he
    · intro f' hf
      cases hf
      exact ht.2.2 f rfl
  · have hx : (h.beforeInsert.foldl Session.react (h.beforeSnapshot.foldl Session.react x)).key
        = q.key := by
      rw [key_foldl_react, key_foldl_react]
      exact ht.2.1 id x rfl
    refine Contract.safe_bind (safe_insert hc hx ht.1) fun _ t ht => ?_
    refine Contract.safe_ret (hQ _) ⟨.of_accepting ht.1.1 ht.1.2, ?_, ?_⟩
    · intro e he
      cases he
      exact ⟨ht.1.2, ht.2⟩
    · intro f hf
      cases hf

lemma fitGeometry_below (h : Host) (id : Nat) (cols rows : UInt16) (r : Registry E) :
    (r.modify id fun s =>
      if s.cols ≠ cols ∨ s.rows ≠ rows then s.resize h.resizes cols rows else s).Below r := by
  refine modify_below fun s _ => ?_
  split
  · exact ⟨s.resize_key h.resizes cols rows, fun ha => by rwa [Session.resize_alive] at ha⟩
  · exact ⟨rfl, fun ha => ha⟩

/-- **`ensure_with_context`**: the one live owner of the key is returned, unless at some moment
of the call there was none. -/
theorem safe_ensureWithContext (h h' : Host) (q : SpawnRequest) (n n' : Nat) (hs : s.Inv ∧ M s) :
    (con M (.ensure h' q n')).Safe (fun r => post M (.ensure h' q n') s₀ (.ensured r))
      (ensureWithContext h q n) s := by
  have hpost : ∀ r, (con M (.ensure h' q n')).Stable (post M (.ensure h' q n') s₀ (.ensured r)) :=
    fun r => (hostStable_post M _ s₀ _).stable
  have hbase := downward_uniqueOwner.and (downward_stopping (E := E) false)
  have hfresh : ∀ {t}, Ready q.key t ∧ M t → (con M (.ensure h' q n')).Safe
      (fun r => post M (.ensure h' q n') s₀ (.ensured r)) (ensureFresh h q n) t := by
    intro t ht
    have hv : Vacated M q.key := ⟨t, ht.2, ht.1.2⟩
    refine (safe_ensureFresh rfl h q n ht).mono fun r u hu => ⟨hu.1, ?_⟩
    cases r with
    | error f =>
      intro key hk
      cases hk
      exact ⟨hu.2.2 f rfl, hv⟩
    | ok e =>
      refine ⟨(hu.2.1 e rfl).1, fun key hk => ?_⟩
      cases hk
      exact ⟨(hu.2.1 e rfl).2, fun _ => hv⟩
  refine Contract.safe_bind (safe_isStopping downward_inv hs) fun b t ht => ?_
  cases b with
  | true =>
    have hne : Failure.io retiring ≠ .io keyIsShared := fun e => by cases e
    refine Contract.safe_ret (hpost _) ⟨ht.1.1, fun key _ => ⟨hne, t, ht.2, ?_⟩⟩
    rintro i ⟨x, hx, -⟩
    rw [ht.1.1.stopped ht.1.2 i] at hx
    cases hx
  | false =>
  refine Contract.safe_bind (safe_ids h hbase ⟨⟨ht.1.1.unique, ht.1.2⟩, ht.2⟩) fun l t ht => ?_
  refine Contract.safe_bind (safe_search q.key ht.2 ht.1) fun k t ht => ?_
  obtain ⟨⟨⟨hb, hkeys⟩, ⟨hd, hk⟩, hlen, hsub⟩, hM⟩ := ht
  rcases k with _ | ⟨id, _ | ⟨x, k⟩⟩
  · exact hfresh ⟨⟨hb, hkeys.vacant fun i hi => hd i hi (by simp)⟩, hM⟩
  · have hothers : Downward fun t : Registry E =>
        (t.UniqueOwner ∧ t.stopping = false) ∧ ∀ j, j ≠ id → ¬ t.owner q.key j :=
      hbase.and fun s t hs hb he j hj => downward_not_owner q.key j s t (hs j hj) hb he
    have hone := hk id List.mem_cons_self
    refine Contract.safe_bind (safe_shrink rfl hothers ⟨⟨hb, hone⟩, hM⟩ fun r =>
      ⟨fitGeometry_below h id q.cols q.rows r, modify_stopping r id _⟩) fun _ t ht => ?_
    refine Contract.safe_bind (safe_attachAction rfl id _ hothers ht) fun a t ht => ?_
    obtain ⟨⟨⟨hb, hone⟩, hM⟩, ha⟩ := ht
    -- an attach that fails leaves the key without an owner
    have hvac : (∀ token m cap, a ≠ some (.attached token m, cap)) → t.vacant q.key := by
      intro hne j
      by_cases hj : j = id
      · rw [hj]
        exact ha hne q.key
      · exact hone j hj
    have hretry : (∀ token m cap, a ≠ some (.attached token m, cap)) →
        (con M (.ensure h' q n')).Safe (fun r => post M (.ensure h' q n') s₀ (.ensured r))
          ((dropSession id).bind fun _ => ensureFresh h q n) t := fun hne =>
      Contract.safe_bind (safe_dropSession rfl (downward_ready q.key) ⟨⟨hb, hvac hne⟩, hM⟩ id)
        fun _ t ht => hfresh ht
    rcases a with _ | ⟨_ | _ | ⟨token, m⟩, cap⟩
    · exact hretry (by simp)
    · exact hretry (by simp)
    · have hne : Failure.panicked ≠ .io keyIsShared := fun e => by cases e
      refine Contract.safe_ret (hpost _) ⟨.of_accepting hb.1 hb.2, fun key hk => ?_⟩
      cases hk
      exact ⟨hne, t, hM, hvac (by simp)⟩
    · refine Contract.safe_ret (hpost _) ⟨.of_accepting hb.1 hb.2, hb.2, fun key hk => ?_⟩
      cases hk
      refine ⟨fun j hj => ?_, fun e => by cases e⟩
      by_contra hne
      exact hone j hne hj
  · exact absurd hlen (by simp)

/-! ## the other operations -/

theorem safe_attachWithSnapshot (hc : c.stops = none) (id n : Nat) (hs : s.Inv ∧ M s) :
    (con M c).Safe (fun _ t => t.Inv) (attachWithSnapshot id n) s := by
  have hI := downward_inv (E := E)
  refine Contract.safe_bind (safe_attachAction hc id _ hI hs) fun a t ht => ?_
  have hdrop : (con M c).Safe (fun _ t => t.Inv) ((dropSession id).bind fun _ =>
      .ret (.ok none : Except Failure (Option (AttachmentToken × String × E.Snapshot)))) t :=
    Contract.safe_bind (safe_dropSession hc hI ht.1 id) fun _ t ht =>
      Contract.safe_ret hI.stable ht.1
  rcases a with _ | ⟨_ | _ | ⟨token, m⟩, cap⟩
  · exact hdrop
  · exact hdrop
  · exact Contract.safe_ret hI.stable ht.1.1
  · exact Contract.safe_ret hI.stable ht.1.1

theorem safe_attach (hc : c.stops = none) (id : Nat) (hs : s.Inv ∧ M s) :
    (con M c).Safe (fun _ t => t.Inv) (attach id) s := by
  have hI := downward_inv (E := E)
  refine Contract.safe_bind (safe_attachAction hc id _ hI hs) fun a t ht => ?_
  have hdrop : (con M c).Safe (fun _ t => t.Inv) ((dropSession id).bind fun _ =>
      .ret (.ok none : Except Failure (Option (AttachmentToken × String)))) t :=
    Contract.safe_bind (safe_dropSession hc hI ht.1 id) fun _ t ht =>
      Contract.safe_ret hI.stable ht.1
  rcases a with _ | ⟨_ | _ | ⟨token, m⟩, cap⟩
  · exact hdrop
  · exact hdrop
  · exact Contract.safe_ret hI.stable ht.1.1
  · exact Contract.safe_ret hI.stable ht.1.1

/-- an operation that is one write to the table, which only takes away -/
lemma safe_single {α : Type} (hc : c.stops = none) (hs : s.Inv ∧ M s)
    {f : Registry E → α × Registry E}
    (hf : ∀ r, (f r).2.Below r ∧ (f r).2.stopping = r.stopping) :
    (con M c).Safe (fun _ t => t.Inv) (.modifyGet f) s :=
  (safe_shrinkGet hc downward_inv hs (Q := fun _ _ => True) hf
    (fun _ _ _ _ _ _ => trivial) fun _ _ => trivial).mono fun _ _ h => h.1.1

/-- a lookup and a change of the session found, which keeps its key and does not revive it -/
lemma lookup_below {α : Type} {r : Registry E} {id : Nat} {f : Session E → α × Session E}
    {d : α} (hf : ∀ x, (f x).2.key = x.key ∧ ((f x).2.alive = true → x.alive = true)) :
    (match r.get? id with
      | some x => ((f x).1, r.insert id (f x).2)
      | none => (d, r)).2.Below r ∧
    (match r.get? id with
      | some x => ((f x).1, r.insert id (f x).2)
      | none => (d, r)).2.stopping = r.stopping := by
  cases hx : r.get? id with
  | none => exact ⟨.refl r, rfl⟩
  | some x =>
    refine ⟨?_, rfl⟩
    dsimp only
    rw [insert_eq_modify (fun x : Session E => (f x).2) hx]
    exact modify_below fun x _ => hf x

theorem safe_detach (hc : c.stops = none) (id : Nat) (token : AttachmentToken) (hs : s.Inv ∧ M s) :
    (con M c).Safe (fun _ t => t.Inv) (detach id token) s :=
  safe_single hc hs fun _ => lookup_below (f := fun x => x.detach token)
    fun x => ⟨rfl, fun h => by rwa [Session.detach_alive] at h⟩

theorem safe_remove (hc : c.stops = none) (id : Nat) (hs : s.Inv ∧ M s) :
    (con M c).Safe (fun _ t => t.Inv) (remove id) s :=
  safe_single hc hs fun _ => ⟨erase_below id, rfl⟩

theorem safe_resize (hc : c.stops = none) (h : Host) (id : Nat) (cols rows : UInt16)
    (hs : s.Inv ∧ M s) : (con M c).Safe (fun _ t => t.Inv) (resize h id cols rows) s :=
  safe_single hc hs fun _ => lookup_below
    (f := fun x => (Except.ok (), x.resize h.resizes cols rows)) (d := .error (noSession id))
    fun x => ⟨x.resize_key _ _ _, fun h => by rwa [Session.resize_alive] at h⟩

theorem safe_rename (hc : c.stops = none) (id : Nat) (name : Option String) (hs : s.Inv ∧ M s) :
    (con M c).Safe (fun _ t => t.Inv) (rename id name) s :=
  safe_single hc hs fun _ => lookup_below (f := fun x => (true, x.setName name))
    fun _ => ⟨rfl, fun h => h⟩

theorem safe_registerConnection (hc : c.stops = none) (hs : s.Inv ∧ M s) :
    (con M c).Safe (fun r => post M c s₀ (.registered r)) registerConnection s := by
  have hpost : ∀ r, (con M c).Stable (post M c s₀ (.registered r)) := fun r =>
    (hostStable_post M c s₀ _).stable
  refine Contract.safe_bind (safe_isStopping downward_inv hs) fun b t ht => ?_
  cases b with
  | true => exact Contract.safe_ret (hpost _) ⟨ht.1.1, trivial⟩
  | false =>
    refine Contract.safe_bind (safe_shrink hc (downward_inv.and (downward_stopping false)) ht
      fun r => ⟨fun i x hx => ⟨x, hx, rfl, fun h => h⟩, rfl⟩) fun _ t ht => ?_
    exact Contract.safe_ret (hpost _) ht.1

/-- **Main result.**  Every call, entered with the invariant, meets the contract: each of its
actions is admissible, and it returns with the invariant and a reply that says the truth. -/
theorem body_safe (M : Registry E → Prop) (c : Call) (hs : s.Inv) (hM : M s) :
    (con M c).Safe (post M c s) c.body s := by
  have hpost : ∀ r, (con M c).Stable (post M c s r) := fun r => (hostStable_post M c s r).stable
  have hwrap : ∀ {α : Type} {p : Prog (Registry E) α} {f : α → Reply E},
      (con M c).Safe (fun a => post M c s (f a)) p s →
      (con M c).Safe (post M c s) (p.bind fun a => .ret (f a)) s := fun hp =>
    Contract.safe_bind hp fun _ _ ht => Contract.safe_ret (hpost _) ht
  have hinv : ∀ {α : Type} {p : Prog (Registry E) α} {f : α → Reply E},
      (∀ a t, replyPost M c s (f a) t) → (con M c).Safe (fun _ t => t.Inv) p s →
      (con M c).Safe (post M c s) (p.bind fun a => .ret (f a)) s := fun hf hp =>
    hwrap (hp.mono fun a t ht => ⟨ht, hf a t⟩)
  cases c with
  | registerConnection => exact hwrap (safe_registerConnection rfl ⟨hs, hM⟩)
  | beginShutdown h force => exact hwrap (safe_stop h rfl hs)
  | beginRetirement h => exact hwrap (safe_stop h rfl hs)
  | spawn h q => exact hwrap (safe_spawnWithContext rfl h q ⟨hs, hM⟩)
  | ensure h q n => exact hwrap (safe_ensureWithContext h h q n n ⟨hs, hM⟩)
  | attach id => exact hinv (fun _ _ => trivial) (safe_attach rfl id ⟨hs, hM⟩)
  | attachWithSnapshot id n =>
    exact hinv (fun _ _ => trivial) (safe_attachWithSnapshot rfl id n ⟨hs, hM⟩)
  | detach id token => exact hinv (fun _ _ => trivial) (safe_detach rfl id token ⟨hs, hM⟩)
  | remove id => exact hinv (fun _ _ => trivial) (safe_remove rfl id ⟨hs, hM⟩)
  | resize h id cols rows => exact hinv (fun _ _ => trivial) (safe_resize rfl h id cols rows ⟨hs, hM⟩)
  | rename id name => exact hinv (fun _ _ => trivial) (safe_rename rfl id name ⟨hs, hM⟩)

end

end Registry
end TerminalManager.Ptyd
