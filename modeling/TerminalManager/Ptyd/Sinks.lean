import TerminalManager.Ptyd.Operations

/-!
# What a registry call does to the output sinks

An attachment is known by its session and its token.  A call makes at most one (`Call.attachment`),
and the only sinks it takes away are those of sessions that close and the one it is asked to
detach, under the very token it is given:

* `Kept`         the sink is left alone, or cleared by a close or by a detach of its own token;
* `Fresh`        the sink was installed under the token, and at most closed since;
* `Sinks d a`    from one state of the table to a later one, with the attachment `a` made between;
* `sinks_body`   **main result**: so much holds of every call, as long as the id counter has not
                 saturated, whatever the host does meanwhile.
-/

namespace TerminalManager.Ptyd
open Interference

namespace OutputState

/-- the sink of `o` is left alone, or cleared by a close or by the detach of `d` -/
structure Kept (d : Option AttachmentToken) (o o' : OutputState) : Prop where
  nextToken : o'.nextToken = o.nextToken
  reader : o'.readerOpen = true → o.readerOpen = true
  current : o'.current = o.current ∨
    o'.current = none ∧ (o'.readerOpen = false ∨ o.current = d)

/-- installed under `t`, and at most closed since -/
structure Fresh (t : AttachmentToken) (o : OutputState) : Prop where
  nextToken : o.nextToken = t + 1
  current : o.current = some t ∨ o.current = none ∧ o.readerOpen = false

variable {d : Option AttachmentToken} {t : AttachmentToken} {o o' o'' : OutputState}

lemma Kept.refl (d : Option AttachmentToken) (o : OutputState) : Kept d o o := ⟨rfl, id, .inl rfl⟩

lemma Kept.of_none (h : Kept none o o') : Kept d o o' := by
  refine ⟨h.nextToken, h.reader, ?_⟩
  rcases h.current with hc | ⟨hc, hr | ho⟩
  · exact .inl hc
  · exact .inr ⟨hc, .inl hr⟩
  · exact .inl (hc.trans ho.symm)

lemma Kept.trans (h : Kept d o o') (h' : Kept d o' o'') : Kept d o o'' := by
  refine ⟨h'.nextToken.trans h.nextToken, fun hr => h.reader (h'.reader hr), ?_⟩
  have hclosed : o'.readerOpen = false → o''.readerOpen = false := by
    intro hr
    by_contra hne
    rw [h'.reader (Bool.not_eq_false _ ▸ hne)] at hr
    cases hr
  rcases h.current with hc | ⟨hc, hr⟩
  · rw [← hc]
    exact h'.current
  · refine .inr ⟨?_, hr.imp_left hclosed⟩
    rcases h'.current with hc' | ⟨hc', -⟩
    · exact hc'.trans hc
    · exact hc'

lemma Fresh.kept (h : Fresh t o) (h' : Kept none o o') : Fresh t o' := by
  refine ⟨h'.nextToken.trans h.nextToken, ?_⟩
  rcases h.current with hc | ⟨hc, hr⟩
  · rcases h'.current with hc' | ⟨hc', hr | ho⟩
    · exact .inl (hc'.trans hc)
    · exact .inr ⟨hc', hr⟩
    · rw [hc] at ho
      cases ho
  · have hr' : o'.readerOpen = false := by
      by_contra hne
      rw [h'.reader (Bool.not_eq_false _ ▸ hne)] at hr
      cases hr
    rcases h'.current with hc' | ⟨hc', -⟩
    · exact .inr ⟨hc'.trans hc, hr'⟩
    · exact .inr ⟨hc', hr'⟩

lemma fresh_spawned : Fresh 1 spawned := ⟨rfl, .inl rfl⟩

lemma kept_close (o : OutputState) : Kept d o o.close :=
  ⟨rfl, fun h => (by cases h), .inr ⟨rfl, .inl rfl⟩⟩

lemma kept_exhaust (o : OutputState) : Kept d o o.exhaust := ⟨rfl, id, .inl rfl⟩

lemma fresh_install (o : OutputState) : Fresh o.nextToken o.install := ⟨rfl, .inl rfl⟩

lemma kept_detach (o : OutputState) (t : AttachmentToken) : Kept (some t) o (o.detach t).2 := by
  unfold detach
  split
  · rename_i h
    exact ⟨rfl, id, .inr ⟨rfl, .inr h⟩⟩
  · exact .refl _ o

end OutputState

open OutputState

namespace Session
variable {E : Emulator}

lemma kept_react (s : Session E) (e : SessionEvent) : Kept none s.output (s.react e).output := by
  cases e with
  | readerCloses => exact kept_close _
  | childExits => exact .refl _ _
  | childLost => exact .refl _ _
  | ptyOutput chunk => exact .refl _ _

lemma kept_reacts (s : Session E) (es : List SessionEvent) :
    Kept none s.output (es.foldl react s).output := by
  induction es generalizing s with
  | nil => exact .refl _ _
  | cons e es ih => exact (s.kept_react e).trans (ih (s.react e))

/-- a new session, whatever happened to it before it was registered -/
lemma fresh_spawn {s : Session E} (h : s.output = .spawned) (es : List SessionEvent) :
    Fresh 1 (es.foldl react s).output := by
  have hs : Fresh 1 s.output := h ▸ fresh_spawned
  exact hs.kept (s.kept_reacts es)

/-- an attach that hands out no token leaves the sink alone or closes it -/
lemma kept_attach {s : Session E} {n : Nat}
    (h : ∀ t m, (s.attachWithSnapshot n).1 ≠ .attached t m) :
    Kept none s.output (s.attachWithSnapshot n).2.output := by
  unfold attachWithSnapshot at h ⊢
  split
  · exact kept_close _
  · rename_i h1
    split
    · exact kept_exhaust _
    · rename_i h2
      refine absurd ?_ (h s.output.nextToken (E.snapshot s.terminal n))
      rw [if_neg h1, if_neg h2]

lemma fresh_attach {s : Session E} {n t : Nat} {m : E.Snapshot}
    (h : (s.attachWithSnapshot n).1 = .attached t m) :
    t = s.output.nextToken ∧ Fresh t (s.attachWithSnapshot n).2.output := by
  obtain ⟨-, -, rfl, -, -, hs⟩ := attachWithSnapshot_attached h
  rw [hs]
  exact ⟨rfl, fresh_install _⟩

lemma resize_output (s : Session E) (ok : Bool) (cols rows : UInt16) :
    (s.resize ok cols rows).output = s.output := by
  unfold resize
  split <;> rfl

end Session

namespace Registry
variable {E : Emulator}

/-- the token a call asks to detach from a session -/
def Call.detaches : Call → Nat → Option AttachmentToken
  | .detach id token, k => if k = id then some token else none
  | _, _ => none

/-- the attachment a reply tells of -/
def Call.attachment : Call → Reply E → Option (Nat × AttachmentToken)
  | .spawn _ _, .spawned (.ok s) => some (s.sessionId, s.attachmentToken)
  | .ensure _ _ _, .ensured (.ok e) => some (e.sessionId, e.attachmentToken)
  | .attach id, .attached (.ok (some (token, _))) => some (id, token)
  | .attachWithSnapshot id _, .attachedWithSnapshot (.ok (some (token, _, _))) => some (id, token)
  | _, _ => none

/-- every id in the table was handed out -/
def Numbered (r : Registry E) : Prop := ∀ (k : Nat) (s : Session E), r.get? k = some s → k < r.nextId

/-- from `r` to a later state `r'`, with the attachment `a` made in between and the detaches `d` -/
structure Sinks (d : Nat → Option AttachmentToken) (a : Option (Nat × AttachmentToken))
    (r r' : Registry E) : Prop where
  nextId : r.nextId ≤ r'.nextId
  kept : ∀ (k : Nat) (s' : Session E), r'.get? k = some s' → (∀ t, a ≠ some (k, t)) →
    ∃ s, r.get? k = some s ∧ Kept (d k) s.output s'.output
  fresh : ∀ (k t : Nat) (s' : Session E), a = some (k, t) → r'.get? k = some s' → Fresh t s'.output
  /-- the session is new, or the token was its next one -/
  origin : ∀ k t, a = some (k, t) → (r.nextId ≤ k ∧ k < r'.nextId) ∨
    ∃ s, r.get? k = some s ∧ s.output.nextToken = t

/-- the detaches of a call that detaches nothing -/
abbrev noDetach : Nat → Option AttachmentToken := fun _ => none

section
variable {d : Nat → Option AttachmentToken} {a : Option (Nat × AttachmentToken)} {r m u : Registry E}

lemma Sinks.refl (r : Registry E) : Sinks d none r r where
  nextId := Nat.le_refl _
  kept _ s h _ := ⟨s, h, .refl _ _⟩
  fresh _ _ _ h := by cases h
  origin _ _ h := by cases h

/-- a step that keeps each session that stays in the table -/
lemma Sinks.of_kept (hn : r.nextId ≤ u.nextId) (h : ∀ (k : Nat) (s' : Session E), u.get? k = some s' →
    ∃ s, r.get? k = some s ∧ Kept (d k) s.output s'.output) : Sinks d none r u where
  nextId := hn
  kept k s' hk _ := h k s' hk
  fresh _ _ _ h := by cases h
  origin _ _ h := by cases h

/-- nothing attached before -/
lemma Sinks.after (h : Sinks d none r m) (h' : Sinks d a m u) : Sinks d a r u where
  nextId := Nat.le_trans h.nextId h'.nextId
  kept k s' hk ha := by
    obtain ⟨s, hs, hks⟩ := h'.kept k s' hk ha
    obtain ⟨s₀, hs₀, hk₀⟩ := h.kept k s hs (by simp)
    exact ⟨s₀, hs₀, hk₀.trans hks⟩
  fresh := h'.fresh
  origin k t ha := by
    rcases h'.origin k t ha with ⟨h1, h2⟩ | ⟨s, hs, ht⟩
    · exact .inl ⟨Nat.le_trans h.nextId h1, h2⟩
    · obtain ⟨s₀, hs₀, hk₀⟩ := h.kept k s hs (by simp)
      exact .inr ⟨s₀, hs₀, hk₀.nextToken.symm.trans ht⟩

/-- nothing attached and nothing detached after -/
lemma Sinks.before (h : Sinks d a r m) (h' : Sinks noDetach none m u) : Sinks d a r u where
  nextId := Nat.le_trans h.nextId h'.nextId
  kept k s' hk ha := by
    obtain ⟨s, hs, hks⟩ := h'.kept k s' hk (by simp)
    obtain ⟨s₀, hs₀, hk₀⟩ := h.kept k s hs ha
    exact ⟨s₀, hs₀, hk₀.trans hks.of_none⟩
  fresh k t s' ha hk := by
    obtain ⟨s, hs, hks⟩ := h'.kept k s' hk (by simp)
    exact (h.fresh k t s ha hs).kept hks
  origin k t ha := by
    rcases h.origin k t ha with ⟨h1, h2⟩ | hs
    · exact .inl ⟨h1, Nat.lt_of_lt_of_le h2 h'.nextId⟩
    · exact .inr hs

lemma Sinks.numbered (h : Sinks d a r m) (hr : r.Numbered) : m.Numbered := by
  intro k s' hk
  have hold : ∀ s, r.get? k = some s → k < m.nextId := fun s hs =>
    Nat.lt_of_lt_of_le (hr k s hs) h.nextId
  by_cases ha : ∃ t, a = some (k, t)
  · obtain ⟨t, ha⟩ := ha
    rcases h.origin k t ha with ⟨-, h2⟩ | ⟨s, hs, -⟩
    · exact h2
    · exact hold s hs
  · obtain ⟨s, hs, -⟩ := h.kept k s' hk fun t e => ha ⟨t, e⟩
    exact hold s hs

lemma sinks_env {e : HostEvent} (h : r.env e = some u) : Sinks d none r u := by
  refine Sinks.of_kept (Nat.le_of_eq (env_nextId h).symm) fun k s' hk => ?_
  obtain ⟨s, hs, rfl | ⟨v, rfl⟩⟩ := get?_env h hk
  · exact ⟨s', hs, .refl _ _⟩
  · exact ⟨s, hs, (s.kept_react v).of_none⟩

lemma sinks_erase (r : Registry E) (id : Nat) : Sinks d none r (r.erase id) := by
  refine Sinks.of_kept (Nat.le_refl _) fun k s' hk => ?_
  rw [get?_erase] at hk
  split at hk
  · cases hk
  · exact ⟨s', hk, .refl _ _⟩

/-- one session is replaced by another of the same id -/
lemma sinks_insert {id : Nat} {s s' : Session E} (hs : r.get? id = some s)
    (h : Kept (d id) s.output s'.output) : Sinks d none r (r.insert id s') := by
  refine Sinks.of_kept (Nat.le_refl _) fun k x hk => ?_
  rw [get?_insert] at hk
  split at hk
  · rename_i e
    cases hk
    rw [e]
    exact ⟨s, hs, h⟩
  · exact ⟨x, hk, .refl _ _⟩

/-- a new sink is installed in a session of the table -/
lemma sinks_attach {id t : Nat} {s s' : Session E} (hs : r.get? id = some s)
    (ht : s.output.nextToken = t) (h : Fresh t s'.output) :
    Sinks d (some (id, t)) r (r.insert id s') where
  nextId := Nat.le_refl _
  kept k x hk ha := by
    have hne : k ≠ id := fun e => ha t (by rw [e])
    rw [get?_insert, if_neg hne] at hk
    exact ⟨x, hk, .refl _ _⟩
  fresh k t' x ha hk := by
    cases ha
    rw [get?_insert, if_pos rfl] at hk
    cases hk
    exact h
  origin k t' ha := by
    cases ha
    exact .inr ⟨s, hs, ht⟩

/-- a session with a new id enters the table -/
lemma sinks_new {r₀ : Registry E} {id : Nat} {s' : Session E} (h₀ : Sinks d none r₀ r)
    (hlo : r₀.nextId ≤ id) (hhi : id < r.nextId) (h : Fresh 1 s'.output) :
    Sinks d (some (id, 1)) r₀ (r.insert id s') where
  nextId := h₀.nextId
  kept k x hk ha := by
    have hne : k ≠ id := fun e => ha 1 (by rw [e])
    rw [get?_insert, if_neg hne] at hk
    exact h₀.kept k x hk (by simp)
  fresh k t' x ha hk := by
    cases ha
    rw [get?_insert, if_pos rfl] at hk
    cases hk
    exact h
  origin k t' ha := by
    cases ha
    exact .inl ⟨hlo, hhi⟩

end

/-! ## the contract -/

/-- what one action of a call may do to the sinks -/
def SinkStep (d : Nat → Option AttachmentToken) (r r' : Registry E) : Prop :=
  ∀ (k : Nat) (s' : Session E), r'.get? k = some s' →
    (∃ t, Fresh t s'.output) ∨ ∃ s, r.get? k = some s ∧ Kept (d k) s.output s'.output

lemma SinkStep.refl {d : Nat → Option AttachmentToken} (r : Registry E) : SinkStep d r r :=
  fun _ s h => .inr ⟨s, h, .refl _ _⟩

lemma Sinks.step {d : Nat → Option AttachmentToken} {a : Option (Nat × AttachmentToken)}
    {r r' : Registry E} (h : Sinks d a r r') : SinkStep d r r' := by
  intro k s' hk
  by_cases ha : ∃ t, a = some (k, t)
  · obtain ⟨t, ha⟩ := ha
    exact .inl ⟨t, h.fresh k t s' ha hk⟩
  · exact .inr (h.kept k s' hk fun t e => ha ⟨t, e⟩)

def sinkGuar (c : Call) (r r' : Registry E) : Prop := SinkStep c.detaches r r'

/-- the id counter has not saturated -/
def Unsaturated (r : Registry E) : Prop := r.nextId ≠ u64Max

instance (r : Registry E) : Decidable r.Unsaturated := inferInstanceAs (Decidable (_ ≠ _))

def sinkPost (c : Call) (r : Registry E) (reply : Reply E) (r' : Registry E) : Prop :=
  Sinks c.detaches (c.attachment reply) r r'

abbrev sinkCon (E : Emulator) (c : Call) : Contract (Registry E) :=
  (monitor E).contract Unsaturated sinkGuar (fun _ => SinkStep.refl) c

/-- the assertion: the attachment `a` was made since `r₀` -/
def Since (d : Nat → Option AttachmentToken) (r₀ : Registry E) (a : Option (Nat × AttachmentToken))
    (r : Registry E) : Prop := Sinks d a r₀ r ∧ r.Unsaturated

section
variable {c : Call} {d : Nat → Option AttachmentToken} {a : Option (Nat × AttachmentToken)}
  {r₀ s : Registry E} {α : Type}

lemma stable_since : (sinkCon E c).Stable (Since d r₀ a) :=
  fun _ _ h ⟨_, he⟩ hm => ⟨h.1.before (sinks_env he), hm⟩

/-- a part of a call that only reads -/
lemma since_quiet {p : Prog (Registry E) α} (hp : p.Quiet) (hs : Since d r₀ a s) :
    (sinkCon E c).Safe (fun _ => Since d r₀ a) p s :=
  Contract.safe_quiet hp stable_since hs

/-- a write that attaches nothing and detaches nothing -/
lemma since_update {f : Registry E → Registry E} (hf : ∀ r, Sinks noDetach none r (f r))
    (hc : c.detaches = noDetach) (hs : Since d r₀ a s) :
    (sinkCon E c).Safe (fun _ => Since d r₀ a) (.update f) s := by
  refine Contract.safe_update _ stable_since hs stable_since fun t ht => ⟨?_, fun hm => ?_⟩
  · show SinkStep c.detaches t (f t)
    rw [hc]
    exact (hf t).step
  · exact ⟨ht.1.before (hf t), hm⟩

lemma since_modifyGet {f : Registry E → α × Registry E} (hf : ∀ r, Sinks noDetach none r (f r).2)
    (hc : c.detaches = noDetach) (hs : Since d r₀ a s) :
    (sinkCon E c).Safe (fun _ => Since d r₀ a) (.modifyGet f) s := by
  refine Contract.safe_modifyGet _ stable_since hs (fun _ => stable_since) fun t ht =>
    ⟨?_, fun hm => ?_⟩
  · show SinkStep c.detaches t (f t).2
    rw [hc]
    exact (hf t).step
  · exact ⟨ht.1.before (hf t), hm⟩

lemma since_drop (hc : c.detaches = noDetach) (hs : Since d r₀ a s) (id : Nat) :
    (sinkCon E c).Safe (fun _ => Since d r₀ a) (dropSession id) s :=
  since_update (fun r => sinks_erase r id) hc hs

/-! ## the queries -/

lemma quiet_alive (id : Nat) : (alive id : Prog (Registry E) Bool).Quiet := by
  refine Prog.Quiet.bind (Prog.quiet_read _) fun b => ?_
  cases b with
  | false => trivial
  | true => exact Prog.quiet_read _

lemma quiet_matchesAlive (key : PaneKey) (id : Nat) :
    (matchesAlive key id : Prog (Registry E) Bool).Quiet := by
  refine Prog.Quiet.bind (Prog.quiet_read _) fun b => ?_
  cases b with
  | false => trivial
  | true => exact quiet_alive id

lemma since_ret {Q : α → Registry E → Prop} {x : α} (h : Q x = Since d r₀ a)
    (hs : Since d r₀ a s) : (sinkCon E c).Safe Q (.ret x) s := by
  refine Contract.safe_ret ?_ ?_
  · rw [h]
    exact stable_since
  · rw [h]
    exact hs

/-! ## the operations -/

/-- what `spawnSession` returns: an id nobody had, and a session with its first sink -/
def Spawned (r₀ : Registry E) : Except Failure (Nat × Session E) → Registry E → Prop
  | .ok (id, x), t => (Since noDetach r₀ none t ∧ r₀.nextId ≤ id ∧ id < t.nextId) ∧ x.output = .spawned
  | .error _, t => Since noDetach r₀ none t

lemma stable_handed (id : Nat) :
    (sinkCon E c).Stable fun t => Since noDetach r₀ none t ∧ r₀.nextId ≤ id ∧ id < t.nextId := by
  rintro t u ⟨ht, hlo, hhi⟩ ⟨e, he⟩ hm
  refine ⟨stable_since t u ht ⟨e, he⟩ hm, hlo, ?_⟩
  rw [env_nextId he]
  exact hhi

lemma since_takeId (hs : Since noDetach r₀ none s) : (sinkCon E c).Safe
    (fun id t => Since noDetach r₀ none t ∧ r₀.nextId ≤ id ∧ id < t.nextId) takeId s := by
  refine Contract.safe_modifyGet _ stable_since hs stable_handed fun t ht => ?_
  have hn : (if t.nextId = u64Max then t else { t with nextId := t.nextId + 1 })
      = { t with nextId := t.nextId + 1 } := if_neg ht.2
  have hsinks : ∀ d, Sinks d none t { t with nextId := t.nextId + 1 } := fun d =>
    Sinks.of_kept (Nat.le_succ _) fun k x hk => ⟨x, hk, .refl _ _⟩
  show sinkGuar c t (if t.nextId = u64Max then t else { t with nextId := t.nextId + 1 }) ∧ _
  rw [hn]
  exact ⟨(hsinks _).step, fun hm => ⟨⟨ht.1.before (hsinks _), hm⟩, ht.1.nextId, Nat.lt_succ_self _⟩⟩

lemma since_spawnSession (h : Host) (q : SpawnRequest) (hs : Since noDetach r₀ none s) :
    (sinkCon E c).Safe (Spawned r₀) (spawnSession h q) s := by
  refine Contract.safe_bind (since_takeId hs) fun id t ht => ?_
  cases h.spawn with
  | error e => exact Contract.safe_ret (Q := Spawned r₀) stable_since ht.1
  | ok child =>
    exact Contract.safe_ret (Q := Spawned r₀) ((stable_handed id).and (Contract.stable_const _))
      ⟨ht, rfl⟩

/-- the new session is registered -/
lemma since_insert {id : Nat} {x : Session E} (hx : Fresh 1 x.output)
    (hs : Since noDetach r₀ none s ∧ r₀.nextId ≤ id ∧ id < s.nextId) :
    (sinkCon E c).Safe (fun _ => Since noDetach r₀ (some (id, 1)))
      (.update fun r => r.insert id x) s := by
  refine Contract.safe_update _ (stable_handed id) hs stable_since fun t ht => ⟨?_, fun hm => ?_⟩
  · intro k y hk
    rw [get?_insert] at hk
    split at hk
    · cases hk
      exact .inl ⟨1, hx⟩
    · exact .inr ⟨y, hk, .refl _ _⟩
  · exact ⟨sinks_new ht.1.1 ht.2.1 ht.2.2 hx, hm⟩

theorem since_spawnWithContext (h h' : Host) (q q' : SpawnRequest) (hs : Since noDetach r₀ none s) :
    (sinkCon E (.spawn h' q')).Safe
      (fun r => Since noDetach r₀ ((Call.spawn h' q').attachment (Reply.spawned (E := E) r)))
      (spawnWithContext h q) s := by
  refine Contract.safe_bind (since_quiet (Prog.quiet_read _) hs) fun b t ht => ?_
  cases b with
  | true => exact since_ret rfl ht
  | false =>
  refine Contract.safe_bind (since_quiet (Prog.quiet_read _) ht) fun l t ht => ?_
  refine Contract.safe_bind (since_quiet (Prog.Quiet.any (quiet_matchesAlive q.key) l) ht)
    fun b t ht => ?_
  cases b with
  | true => exact since_ret rfl ht
  | false =>
  refine Contract.safe_bind (since_quiet (Prog.quiet_read _) ht) fun l t ht => ?_
  refine Contract.safe_bind (Contract.safe_forEach (fun _ => Since noDetach r₀ none)
    (fun _ => stable_since) ht fun done id rest t _ ht => ?_) fun _ t ht => ?_
  · refine Contract.safe_bind (since_quiet (quiet_matchesDead q.key id) ht) fun b t ht => ?_
    cases b with
    | true => exact since_drop rfl ht id
    | false => exact since_ret rfl ht
  refine Contract.safe_bind (since_spawnSession h q ht) fun r t ht => ?_
  rcases r with f | ⟨id, x⟩
  · exact since_ret rfl ht
  · exact Contract.safe_bind (since_insert (x.fresh_spawn ht.2 _) ht.1) fun _ t ht => since_ret rfl ht

/-- what an attach tells of the sinks -/
def attachMade (id : Nat) : Option (Attach E × String) → Option (Nat × AttachmentToken)
  | some (.attached token _, _) => some (id, token)
  | _ => none

lemma since_attachAction (hc : c.detaches = noDetach) (id n : Nat)
    (hs : Since noDetach r₀ none s) :
    (sinkCon E c).Safe (fun x => Since noDetach r₀ (attachMade id x)) (attachAction id n) s := by
  refine Contract.safe_modifyGet _ stable_since hs (fun _ => stable_since) fun t ht => ?_
  cases hx : t.get? id with
  | none => exact ⟨SinkStep.refl t, fun hm => ⟨ht.1, hm⟩⟩
  | some x =>
    have hsinks : Sinks noDetach (attachMade id (some ((x.attachWithSnapshot n).1, x.hookCapability))) t
        (t.insert id (x.attachWithSnapshot n).2) := by
      rcases hr : (x.attachWithSnapshot n).1 with _ | _ | ⟨token, m⟩
      · exact sinks_insert hx (Session.kept_attach (by simp [hr]))
      · exact sinks_insert hx (Session.kept_attach (by simp [hr]))
      · obtain ⟨htok, hf⟩ := Session.fresh_attach hr
        exact sinks_attach hx htok.symm hf
    refine ⟨?_, fun hm => ⟨ht.1.after hsinks, hm⟩⟩
    show SinkStep c.detaches t (t.insert id (x.attachWithSnapshot n).2)
    rw [hc]
    exact hsinks.step

lemma sinks_fitGeometry (h : Host) (id : Nat) (cols rows : UInt16) (r : Registry E) :
    Sinks noDetach none r (r.modify id fun s =>
      if s.cols ≠ cols ∨ s.rows ≠ rows then s.resize h.resizes cols rows else s) := by
  refine Sinks.of_kept (Nat.le_of_eq (modify_nextId r id _).symm) fun k x hk => ?_
  rw [get?_modify] at hk
  split at hk
  · rename_i e
    obtain ⟨y, hy, rfl⟩ := Option.map_eq_some_iff.mp hk
    refine ⟨y, e ▸ hy, ?_⟩
    split
    · rw [Session.resize_output]
      exact .refl _ _
    · exact .refl _ _
  · exact ⟨x, hk, .refl _ _⟩

theorem since_ensureFresh (h h' : Host) (q q' : SpawnRequest) (n n' : Nat)
    (hs : Since noDetach r₀ none s) :
    (sinkCon E (.ensure h' q' n')).Safe
      (fun r => Since noDetach r₀ ((Call.ensure h' q' n').attachment (.ensured r)))
      (ensureFresh h q n) s := by
  refine Contract.safe_bind (since_quiet (Prog.quiet_read _) hs) fun l t ht => ?_
  refine Contract.safe_bind (since_quiet (Prog.Quiet.filter (quiet_matchesDead q.key) l) ht)
    fun dead t ht => ?_
  refine Contract.safe_bind (Contract.safe_forEach (fun _ => Since noDetach r₀ none)
    (fun _ => stable_since) ht fun _ id _ t _ ht => since_drop rfl ht id) fun _ t ht => ?_
  refine Contract.safe_bind (since_spawnSession h q ht) fun r t ht => ?_
  rcases r with f | ⟨id, x⟩
  · exact since_ret rfl ht
  · have hx : Fresh 1 (h.beforeInsert.foldl Session.react (h.beforeSnapshot.foldl Session.react x)).output :=
      (x.fresh_spawn ht.2 _).kept (Session.kept_reacts _ _)
    exact Contract.safe_bind (since_insert hx ht.1) fun _ t ht => since_ret rfl ht

theorem since_ensureWithContext (h h' : Host) (q q' : SpawnRequest) (n n' : Nat)
    (hs : Since noDetach r₀ none s) :
    (sinkCon E (.ensure h' q' n')).Safe
      (fun r => Since noDetach r₀ ((Call.ensure h' q' n').attachment (.ensured r)))
      (ensureWithContext h q n) s := by
  refine Contract.safe_bind (since_quiet (Prog.quiet_read _) hs) fun b t ht => ?_
  cases b with
  | true => exact since_ret rfl ht
  | false =>
  refine Contract.safe_bind (since_quiet (Prog.quiet_read _) ht) fun l t ht => ?_
  refine Contract.safe_bind (since_quiet (Prog.Quiet.filter (quiet_matchesAlive q.key) l) ht)
    fun k t ht => ?_
  rcases k with _ | ⟨id, _ | ⟨x, k⟩⟩
  · exact since_ensureFresh h h' q q' n n' ht
  · refine Contract.safe_bind (since_update (sinks_fitGeometry h id q.cols q.rows) rfl ht)
      fun _ t ht => ?_
    refine Contract.safe_bind (since_attachAction rfl id _ ht) fun r t ht => ?_
    have hretry : Since noDetach r₀ none t → (sinkCon E (.ensure h' q' n')).Safe
        (fun r => Since noDetach r₀ ((Call.ensure h' q' n').attachment (.ensured r)))
        ((dropSession id).bind fun _ => ensureFresh h q n) t := fun ht =>
      Contract.safe_bind (since_drop rfl ht id) fun _ t ht => since_ensureFresh h h' q q' n n' ht
    rcases r with _ | ⟨_ | _ | ⟨token, m⟩, cap⟩
    · exact hretry ht
    · exact hretry ht
    · exact since_ret rfl ht
    · exact since_ret rfl ht
  · exact since_ret rfl ht

theorem since_attachWithSnapshot (id n n' : Nat) (hs : Since noDetach r₀ none s) :
    (sinkCon E (.attachWithSnapshot id n')).Safe
      (fun r => Since noDetach r₀ ((Call.attachWithSnapshot id n').attachment (.attachedWithSnapshot r)))
      (attachWithSnapshot id n) s := by
  refine Contract.safe_bind (since_attachAction rfl id _ hs) fun r t ht => ?_
  rcases r with _ | ⟨_ | _ | ⟨token, m⟩, cap⟩
  · exact Contract.safe_bind (since_drop rfl ht id) fun _ t ht => since_ret rfl ht
  · exact Contract.safe_bind (since_drop rfl ht id) fun _ t ht => since_ret rfl ht
  · exact since_ret rfl ht
  · exact since_ret rfl ht

theorem since_attach (id : Nat) (hs : Since noDetach r₀ none s) :
    (sinkCon E (.attach id)).Safe
      (fun r => Since noDetach r₀ ((Call.attach id).attachment (Reply.attached (E := E) r)))
      (attach id) s := by
  refine Contract.safe_bind (since_attachAction rfl id _ hs) fun r t ht => ?_
  rcases r with _ | ⟨_ | _ | ⟨token, m⟩, cap⟩
  · exact Contract.safe_bind (since_drop rfl ht id) fun _ t ht => since_ret rfl ht
  · exact Contract.safe_bind (since_drop rfl ht id) fun _ t ht => since_ret rfl ht
  · exact since_ret rfl ht
  · exact since_ret rfl ht

theorem since_detach (id token : Nat) (hs : Since (Call.detach id token).detaches r₀ none s) :
    (sinkCon E (.detach id token)).Safe
      (fun _ => Since (Call.detach id token).detaches r₀ none) (detach id token) s := by
  refine Contract.safe_modifyGet _ stable_since hs (fun _ => stable_since) fun t ht => ?_
  cases hx : t.get? id with
  | none => exact ⟨SinkStep.refl t, fun hm => ⟨ht.1, hm⟩⟩
  | some x =>
    have hd : (Call.detach id token).detaches id = some token := if_pos rfl
    have hsinks : Sinks (Call.detach id token).detaches none t (t.insert id (x.detach token).2) :=
      sinks_insert hx (hd ▸ kept_detach x.output token)
    exact ⟨hsinks.step, fun hm => ⟨ht.1.after hsinks, hm⟩⟩

/-- a change of one session that leaves its sink alone -/
lemma sinks_lookup {α : Type} {id : Nat} {f : Session E → α × Session E} {y : α}
    (hf : ∀ x, (f x).2.output = x.output) (r : Registry E) :
    Sinks noDetach none r (match r.get? id with
      | some x => ((f x).1, r.insert id (f x).2)
      | none => (y, r)).2 := by
  cases hx : r.get? id with
  | none => exact .refl r
  | some x => exact sinks_insert hx ((hf x).symm ▸ .refl _ _)

theorem since_stop (h : Host) (force retire : Bool) (hc : c.detaches = noDetach)
    (hs : Since noDetach r₀ none s) :
    (sinkCon E c).Safe (fun _ => Since noDetach r₀ none) (stop h force retire) s := by
  refine Contract.safe_bind (since_quiet (Prog.quiet_read _) hs) fun l t ht => ?_
  have hq : ∀ id, ((childExitConfirmed id).bind fun b =>
      (.ret (!b) : Prog (Registry E) Bool)).Quiet := fun id =>
    Prog.Quiet.bind (Prog.quiet_read _) fun _ => trivial
  refine Contract.safe_bind (since_quiet (Prog.Quiet.filter hq l) ht) fun alive t ht => ?_
  split
  · exact since_ret rfl ht
  · refine Contract.safe_bind (since_quiet (Prog.quiet_read _) ht) fun n t ht => ?_
    split
    · exact since_ret rfl ht
    · refine Contract.safe_bind (since_update (fun r => ?_) hc ht) fun _ t ht => ?_
      · exact Sinks.of_kept (Nat.le_refl _) fun k x hk => ⟨x, hk, .refl _ _⟩
      refine Contract.safe_bind (since_update (fun r => ?_) hc ht) fun _ t ht => since_ret rfl ht
      exact Sinks.of_kept (Nat.le_refl _) fun k x hk => by cases hk

theorem since_registerConnection (hc : c.detaches = noDetach) (hs : Since noDetach r₀ none s) :
    (sinkCon E c).Safe (fun _ => Since noDetach r₀ none) registerConnection s := by
  refine Contract.safe_bind (since_quiet (Prog.quiet_read _) hs) fun b t ht => ?_
  cases b with
  | true => exact since_ret rfl ht
  | false =>
    refine Contract.safe_bind (since_update (fun r => ?_) hc ht) fun _ t ht => since_ret rfl ht
    exact Sinks.of_kept (Nat.le_refl _) fun k x hk => ⟨x, hk, .refl _ _⟩

/-- **Main result.**  Whatever the host does meanwhile, a call makes at most the attachment its
reply tells of and takes away no sink but those of closed sessions and the one it detaches. -/
theorem sinks_body (c : Call) (hs : s.Unsaturated) :
    (sinkCon E c).Safe (sinkPost c s) c.body s := by
  have h₀ : ∀ d, Since d s none s := fun d => ⟨.refl s, hs⟩
  have hwrap : ∀ {α : Type} {p : Prog (Registry E) α} {f : α → Reply E},
      (sinkCon E c).Safe (fun x => Since c.detaches s (c.attachment (f x))) p s →
      (sinkCon E c).Safe (sinkPost c s) (p.bind fun x => .ret (f x)) s := fun hp =>
    Contract.safe_bind hp fun x t ht =>
      (Contract.safe_ret (Q := fun y => Since c.detaches s (c.attachment y)) stable_since ht).mono
        fun _ _ h => h.1
  cases c with
  | registerConnection => exact hwrap (since_registerConnection rfl (h₀ _))
  | beginShutdown h force => exact hwrap (since_stop h force false rfl (h₀ _))
  | beginRetirement h => exact hwrap (since_stop h false true rfl (h₀ _))
  | spawn h q => exact hwrap (since_spawnWithContext h h q q (h₀ _))
  | ensure h q n => exact hwrap (since_ensureWithContext h h q q n n (h₀ _))
  | attach id => exact hwrap (since_attach id (h₀ _))
  | attachWithSnapshot id n => exact hwrap (since_attachWithSnapshot id n n (h₀ _))
  | detach id token => exact hwrap (since_detach id token (h₀ _))
  | remove id => exact hwrap (since_modifyGet (fun r => sinks_erase r id) rfl (h₀ _))
  | resize h id cols rows =>
    exact hwrap (since_modifyGet (fun r => sinks_lookup
      (f := fun x => (Except.ok (), x.resize h.resizes cols rows)) (y := .error (noSession id))
      (fun x => x.resize_output _ _ _) r) rfl (h₀ _))
  | rename id name =>
    exact hwrap (since_modifyGet (fun r => sinks_lookup (f := fun x => (true, x.setName name))
      (y := false) (fun _ => rfl) r) rfl (h₀ _))

end

end Registry
end TerminalManager.Ptyd
