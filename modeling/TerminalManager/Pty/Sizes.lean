import TerminalManager.Pty.Resizes

/-!
# The latest size

The daemon is asked for the size of a pane with the session that it spawns for it, and with every request that the
worker delivers.

* `Shim.lastSent`         the size that the daemon was asked for last, for a pane and a session;
* `Shim.Sizes`            the invariant: the recorded size of a pane with a session waits, is being delivered, or was
                          asked for last;
* `latest_size`           no request is stranded, at most one command waits for them, and when nothing is under way the
                          daemon was asked for the recorded size of every pane that has a session;
* `worker_settles`        left to itself the worker gets there.
-/

namespace TerminalManager.Pty
open Transition

namespace Shim
variable {p q : Shim}

/-- the size that the daemon was asked for last -/
def lastSent (p : Shim) (paneId sessionId : Nat) : Option (Nat × Nat) :=
  (p.sent.find? fun r => r.paneId = paneId ∧ r.sessionId = sessionId).map ResizeRequest.size

/-! ## the sizes on their way -/

/-- the daemon is asked for one of `sizes` last, and for `size` before it is asked for nothing more -/
def Delivered (p : Shim) (paneId sessionId : Nat) (size : Nat × Nat) (sizes : List (Nat × Nat)) : Prop :=
  (∃ r, p.pending.get paneId = some r ∧ r.sessionId = sessionId) ∨
    (∀ r ∈ p.worker.batch, r.paneId = paneId → r.sessionId = sessionId → r.size = size) ∧
      ((∃ r ∈ p.worker.batch, r.paneId = paneId ∧ r.sessionId = sessionId) ∨
        ∃ y ∈ sizes, p.lastSent paneId sessionId = some y)

/-- the pane gets the session in a moment, which the daemon was asked to give the size `size` -/
def Answered (p : Shim) (paneId sessionId : Nat) (size : Nat × Nat) : Prop :=
  ∃ ticket command, p.call = some ⟨ticket, command, some (.session sessionId)⟩ ∧ command.geometry = some (paneId, size)

structure Sizes (p : Shim) : Prop where
  offline : p.connected = false → (∀ k, p.sessions.get k = none) ∧ p.call = none
  current : ∀ e ∈ p.pending.entries, e.2.paneId = e.1 ∧ p.sessions.get e.1 = some e.2.sessionId ∧
    p.paneSizes.get e.1 = some e.2.size
  settled : ∀ paneId sessionId size, p.sessions.get paneId = some sessionId → p.paneSizes.get paneId = some size →
    (∀ y, ¬p.Answered paneId sessionId y) → p.Delivered paneId sessionId size [size]
  answered : ∀ paneId sessionId y, p.Answered paneId sessionId y → ∀ size, p.paneSizes.get paneId = some size →
    p.Delivered paneId sessionId size [size, y]

lemma not_answered (h : p.call = none) (paneId sessionId : Nat) (y : Nat × Nat) : ¬p.Answered paneId sessionId y := by
  intro ⟨ticket, command, hcall, _⟩
  rw [h] at hcall
  cases hcall

section
variable {paneId sessionId : Nat} {size : Nat × Nat} {sizes : List (Nat × Nat)}

lemma not_mem_of_get_none {κ α : Type*} [DecidableEq κ] {t : Table κ α} {k : κ} (h : t.get k = none) (a : α) :
    (k, a) ∉ t.entries := by
  intro hmem
  unfold Table.get at h
  rw [List.lookup_eq_none_iff] at h
  exact absurd rfl (bne_iff_ne.mp (h _ hmem))

lemma Delivered.of_eq (h : p.Delivered paneId sessionId size sizes)
    (hp : q.pending.get paneId = p.pending.get paneId) (hw : q.worker.batch = p.worker.batch)
    (hs : q.lastSent paneId sessionId = p.lastSent paneId sessionId) : q.Delivered paneId sessionId size sizes := by
  unfold Delivered
  rw [hp, hw, hs]
  exact h

lemma lastSent_cons (p : Shim) (r : ResizeRequest) : lastSent { p with sent := r :: p.sent } paneId sessionId =
    if r.paneId = paneId ∧ r.sessionId = sessionId then some r.size else p.lastSent paneId sessionId := by
  unfold lastSent
  dsimp only
  rw [List.find?_cons]
  split_ifs with h
  · rw [decide_eq_true h]
    rfl
  · rw [decide_eq_false h]

/-- the worker takes all that waits -/
lemma Delivered.flush (h : p.Delivered paneId sessionId size sizes) (hp : p.Sizes)
    (hz : p.paneSizes.get paneId = some size) (hw : p.worker = .ready) {batch : List ResizeRequest}
    (hbatch : batch.Perm (p.pending.entries.map Prod.snd)) (rest : List (Nat × Command)) :
    Delivered { p with commands := rest, pending := ∅, worker := .delivering batch } paneId sessionId size sizes := by
  have hfrom : ∀ r ∈ batch, p.paneSizes.get r.paneId = some r.size := by
    intro r hr
    obtain ⟨e, he, rfl⟩ := List.mem_map.mp (hbatch.mem_iff.mp hr)
    rw [(hp.current e he).1]
    exact (hp.current e he).2.2
  refine .inr ⟨fun r hr hpane _ => ?_, ?_⟩
  · have hsize := hfrom r hr
    rw [hpane, hz] at hsize
    exact (Option.some.inj hsize).symm
  · rcases h with ⟨r, hr, hs⟩ | ⟨-, ⟨r, hr, -⟩ | hsent⟩
    · have hmem := Table.mem_of_get hr
      exact .inl ⟨r, hbatch.mem_iff.mpr (List.mem_map_of_mem hmem), (hp.current _ hmem).1, hs⟩
    · rw [hw] at hr
      cases hr
    · exact .inr hsent

/-- the daemon answers for the first request of a batch -/
lemma Delivered.deliver (h : p.Delivered paneId sessionId size sizes) (hz : size ∈ sizes) {r : ResizeRequest}
    {rest : List ResizeRequest} (hw : p.worker = .delivering (r :: rest)) :
    Delivered { p with worker := .delivering rest, sent := r :: p.sent } paneId sessionId size sizes := by
  rcases h with hpending | ⟨hall, hany⟩
  · exact .inl hpending
  · rw [hw] at hall hany
    refine .inr ⟨fun r' hr' => hall r' (List.mem_cons_of_mem _ hr'), ?_⟩
    show (∃ r' ∈ rest, _) ∨ ∃ y ∈ sizes, lastSent { p with sent := r :: p.sent } paneId sessionId = some y
    rw [lastSent_cons]
    by_cases hr : r.paneId = paneId ∧ r.sessionId = sessionId
    · rw [if_pos hr]
      exact .inr ⟨size, hz, congrArg some (hall r List.mem_cons_self hr.1 hr.2)⟩
    · rw [if_neg hr]
      refine hany.imp_left fun ⟨r', hr', hmatch⟩ => ?_
      rcases List.mem_cons.mp hr' with rfl | hrest
      · exact absurd hmatch hr
      · exact ⟨r', hrest, hmatch⟩

end

/-- what the sizes are like while those of one pane are about to change -/
structure Apart (p : Shim) (paneId : Nat) : Prop where
  offline : p.connected = false → ∀ k, p.sessions.get k = none
  call : p.call = none
  current : ∀ e ∈ p.pending.entries, e.1 ≠ paneId → e.2.paneId = e.1 ∧ p.sessions.get e.1 = some e.2.sessionId ∧
    p.paneSizes.get e.1 = some e.2.size
  settled : ∀ k sessionId size, k ≠ paneId → p.sessions.get k = some sessionId → p.paneSizes.get k = some size →
    p.Delivered k sessionId size [size]

lemma Sizes.apart (h : p.Sizes) {paneId : Nat} (hcall : q.call = none) (hon : q.connected = p.connected)
    (hw : q.worker = p.worker) (hsent : q.sent = p.sent)
    (hmem : ∀ e ∈ q.pending.entries, e.1 ≠ paneId → e ∈ p.pending.entries)
    (hget : ∀ k, k ≠ paneId → q.pending.get k = p.pending.get k ∧ q.sessions.get k = p.sessions.get k ∧
      q.paneSizes.get k = p.paneSizes.get k)
    (hans : ∀ k sessionId y, p.Answered k sessionId y → k = paneId)
    (hoff : q.connected = false → q.sessions.get paneId = none) : q.Apart paneId where
  offline hq k := by
    by_cases hk : k = paneId
    · rw [hk]
      exact hoff hq
    · rw [(hget k hk).2.1]
      exact (h.offline (hon ▸ hq)).1 k
  call := hcall
  current e he hk := by
    rw [(hget e.1 hk).2.1, (hget e.1 hk).2.2]
    exact h.current e (hmem e he hk)
  settled k sessionId size hk hs hz := by
    rw [(hget k hk).2.1] at hs
    rw [(hget k hk).2.2] at hz
    refine (h.settled k sessionId size hs hz fun y hy => hk (hans k sessionId y hy)).of_eq (hget k hk).1 ?_ ?_
    · rw [hw]
    · unfold lastSent
      rw [hsent]

/-- the sizes of the pane have not changed, or it has no session -/
lemma Apart.sizes {paneId : Nat} (h : p.Apart paneId)
    (hcur : ∀ e ∈ p.pending.entries, e.1 = paneId → e.2.paneId = e.1 ∧ p.sessions.get e.1 = some e.2.sessionId ∧
      p.paneSizes.get e.1 = some e.2.size)
    (hset : ∀ sessionId size, p.sessions.get paneId = some sessionId → p.paneSizes.get paneId = some size →
      p.Delivered paneId sessionId size [size]) : p.Sizes where
  offline hoff := ⟨h.offline hoff, h.call⟩
  current e he := by
    by_cases hk : e.1 = paneId
    · exact hcur e he hk
    · exact h.current e he hk
  settled k sessionId size hs hz _ := by
    by_cases hk : k = paneId
    · rw [hk] at hs hz ⊢
      exact hset sessionId size hs hz
    · exact h.settled k sessionId size hk hs hz
  answered k sessionId y hy := absurd hy (not_answered h.call k sessionId y)

lemma Sizes.send (h : p.Sizes) (command : Command) : (p.send command).Sizes :=
  ⟨h.offline, h.current, h.settled, h.answered⟩

/-- the new request of the pane is the one that its recorded size asks for -/
lemma Apart.enqueue {paneId : Nat} (h : p.Apart paneId) {r : ResizeRequest} (hr : r.paneId = paneId)
    (hs : p.sessions.get paneId = some r.sessionId) (hz : p.paneSizes.get paneId = some r.size) :
    (p.enqueueLatestResize r).Sizes := by
  subst hr
  have hsizes : ∀ queued, Sizes { p with pending := p.pending.insert r.paneId r, flushQueued := queued } := by
    intro queued
    have hapart : Apart { p with pending := p.pending.insert r.paneId r, flushQueued := queued } r.paneId := by
      refine ⟨h.offline, h.call, fun e he hk => ?_, fun k s z hk hs hz => ?_⟩
      · rcases Table.mem_insert.mp he with rfl | ⟨he, -⟩
        · exact absurd rfl hk
        · exact h.current e he hk
      · exact (h.settled k s z hk hs hz).of_eq (Table.get_insert_of_ne _ _ hk) rfl rfl
    refine hapart.sizes ?_ ?_
    · intro e he hk
      rcases Table.mem_insert.mp he with rfl | ⟨-, hne⟩
      · exact ⟨rfl, hs, hz⟩
      · exact absurd hk hne
    · intro s z hs' _
      refine .inl ⟨r, Table.get_insert_self _ _ _, ?_⟩
      exact Option.some.inj (hs.symm.trans hs')
  unfold enqueueLatestResize
  dsimp only
  split_ifs
  · exact hsizes p.flushQueued
  · exact (hsizes true).send _

lemma Sizes.resize (h : p.Sizes) (hcall : p.call = none) (paneId cols rows : Nat) : (p.resize paneId cols rows).Sizes := by
  have hget : ∀ k, k ≠ paneId → (p.paneSizes.insert paneId (cols, rows)).get k = p.paneSizes.get k :=
    fun k hk => Table.get_insert_of_ne _ _ hk
  have hapart : Apart { p with paneSizes := p.paneSizes.insert paneId (cols, rows) } paneId :=
    h.apart hcall rfl rfl rfl (fun _ he _ => he) (fun k hk => ⟨rfl, rfl, hget k hk⟩)
      (fun k s y hy => absurd hy (not_answered hcall k s y)) fun hoff => (h.offline hoff).1 paneId
  obtain ⟨sessionId, hs, heq⟩ | ⟨heq, hsame⟩ := resize_cases p paneId cols rows
  · rw [heq]
    exact hapart.enqueue rfl hs (Table.get_insert_self _ _ _)
  · rw [heq]
    -- the request asks for the recorded size again
    have hrecorded : ∀ sessionId, p.sessions.get paneId = some sessionId → p.paneSizes.get paneId = some (cols, rows) := by
      intro sessionId hs
      refine hsame ?_ sessionId hs
      by_contra hoff
      rw [(h.offline (Bool.eq_false_iff.mpr hoff)).1 paneId] at hs
      cases hs
    refine hapart.sizes (fun e he hk => ?_) fun sessionId size hs hz => ?_
    · obtain ⟨hpane, hs, hz⟩ := h.current e he
      refine ⟨hpane, hs, ?_⟩
      show (p.paneSizes.insert paneId (cols, rows)).get e.1 = _
      rw [hk, hrecorded _ (hk ▸ hs)] at hz
      rw [hk, Table.get_insert_self]
      exact hz
    · have hz' : (p.paneSizes.insert paneId (cols, rows)).get paneId = some size := hz
      rw [Table.get_insert_self] at hz'
      exact h.settled paneId sessionId size hs (by rw [hrecorded _ hs, hz']) fun y => not_answered hcall _ _ y

lemma Sizes.destroy (h : p.Sizes) (hcall : p.call = none) (paneId : Nat) : (p.destroy paneId).Sizes := by
  have hgone : Sizes { p with
      paneSizes := p.paneSizes.remove paneId
      pending := p.pending.remove paneId
      sessions := p.sessions.remove paneId } := by
    have hapart : Apart { p with
        paneSizes := p.paneSizes.remove paneId
        pending := p.pending.remove paneId
        sessions := p.sessions.remove paneId } paneId :=
      h.apart hcall rfl rfl rfl (fun e he _ => (Table.mem_retain.mp he).1)
        (fun k hk => ⟨Table.get_remove_of_ne _ hk, Table.get_remove_of_ne _ hk, Table.get_remove_of_ne _ hk⟩)
        (fun k s y hy => absurd hy (not_answered hcall k s y)) fun _ => Table.get_remove_self _ _
    refine hapart.sizes (fun e he hk => ?_) fun sessionId size hs _ => ?_
    · have hne := (Table.mem_retain.mp he).2
      rw [hk, bne_self_eq_false] at hne
      cases hne
    · have hs' : (p.sessions.remove paneId).get paneId = some sessionId := hs
      rw [Table.get_remove_self] at hs'
      cases hs'
  unfold Shim.destroy
  dsimp only
  split_ifs with hon
  · split
    · exact hgone.send _
    · next hnone =>
      have hsame : ∀ k, (p.sessions.remove paneId).get k = p.sessions.get k := by
        intro k
        rw [Table.get_remove]
        split_ifs with hk
        · rw [hk, hnone]
        · rfl
      refine ⟨fun hoff => h.offline hoff, fun e he => ?_, fun k s z hs => ?_, hgone.answered⟩
      · obtain ⟨hpane, hs, hz⟩ := hgone.current e he
        exact ⟨hpane, (hsame e.1).symm.trans hs, hz⟩
      · exact hgone.settled k s z ((hsame k).trans hs)
  · have hnone := (h.offline (Bool.eq_false_iff.mpr hon)).1
    refine ⟨fun hoff => h.offline hoff, fun e he => ?_, fun k s z hs => ?_,
      fun k s y hy => absurd hy (not_answered hcall k s y)⟩
    · have hs := (h.current e he).2.1
      rw [hnone] at hs
      cases hs
    · have hs' : p.sessions.get k = some s := hs
      rw [hnone] at hs'
      cases hs'

lemma Sizes.unmap (h : p.Sizes) (hcall : p.call = none) (sessionId : Nat) : (p.unmapSession sessionId).Sizes := by
  have hmapped : ∀ k s, (p.unmapSession sessionId).sessions.get k = some s ↔ p.sessions.get k = some s ∧ s ≠ sessionId := by
    intro k s
    show (p.sessions.retain _).get k = _ ↔ _
    rw [Table.get_retain]
    cases hs : p.sessions.get k with
    | none => simp
    | some s' =>
      simp only [Option.all_some, bne_iff_ne, ne_eq, Option.ite_none_right_eq_some, Option.some.injEq]
      constructor
      · rintro ⟨hne, rfl⟩
        exact ⟨rfl, hne⟩
      · rintro ⟨rfl, hne⟩
        exact ⟨hne, rfl⟩
  refine ⟨fun hoff => ⟨fun k => ?_, hcall⟩, fun e he => ?_, fun k s z hs hz _ => ?_,
    fun k s y hy => absurd hy (not_answered hcall k s y)⟩
  · show (p.sessions.retain _).get k = none
    rw [Table.get_retain, (h.offline hoff).1 k, ite_self]
  · obtain ⟨hold, hkeep⟩ := Table.mem_retain.mp he
    obtain ⟨hpane, hs, hz⟩ := h.current e hold
    refine ⟨hpane, (hmapped _ _).mpr ⟨hs, fun heq => ?_⟩, hz⟩
    -- the entry that `get` finds is one of the same session
    have hsome : ∃ r, p.pending.get e.1 = some r := by
      cases hget : p.pending.get e.1 with
      | some r => exact ⟨r, rfl⟩
      | none => exact absurd hold (not_mem_of_get_none hget e.2)
    obtain ⟨r, hr⟩ := hsome
    have hr' := (h.current _ (Table.mem_of_get hr)).2.1
    rw [hs] at hr'
    rw [hr, Option.all_some, bne_iff_ne, ← Option.some.inj hr', heq] at hkeep
    exact hkeep rfl
  · obtain ⟨hs, hne⟩ := (hmapped k s).mp hs
    refine (h.settled k s z hs hz fun y => not_answered hcall k s y).of_eq ?_ rfl rfl
    show (p.pending.retain _).get k = _
    rw [Table.get_retain]
    cases hr : p.pending.get k with
    | none => exact ite_self none
    | some r =>
      have hr' := (h.current _ (Table.mem_of_get hr)).2.1
      rw [hs] at hr'
      rw [Option.all_some, ← Option.some.inj hr', if_pos (bne_iff_ne.mpr hne)]

lemma Sizes.sendAll (h : p.Sizes) (sessionIds : List Nat) :
    (sessionIds.foldl (fun q sessionId => q.send (.kill sessionId)) p).Sizes := by
  induction sessionIds generalizing p with
  | nil => exact h
  | cons sessionId sessionIds ih => exact ih (h.send _)

lemma Sizes.destroyAll (h : p.Sizes) (hcall : p.call = none) (sessionIds : List Nat) : (p.destroyAll sessionIds).Sizes := by
  have hnot := fun k s y => not_answered hcall k s y
  unfold Shim.destroyAll
  dsimp only
  split_ifs with hon
  · have hclear : Sizes { p with paneSizes := ∅, pending := ∅, sessions := ∅ } :=
      ⟨fun _ => ⟨fun _ => rfl, hcall⟩, nofun, nofun, fun k s y hy => absurd hy (hnot k s y)⟩
    exact hclear.sendAll sessionIds
  · have hnone := h.offline (Bool.eq_false_iff.mpr hon)
    refine ⟨fun _ => hnone, fun e he => ?_, nofun, fun k s y hy => absurd hy (hnot k s y)⟩
    have hs := (h.current e he).2.1
    rw [hnone.1] at hs
    cases hs

/-- the call is over, and no pane gets a session from it -/
lemma Sizes.over (h : p.Sizes) (hnot : ∀ k s y, ¬p.Answered k s y) : Sizes { p with call := none } :=
  ⟨fun hoff => ⟨(h.offline hoff).1, rfl⟩, h.current, fun k s z hs hz _ => h.settled k s z hs hz (hnot k s),
    fun k s y hy => absurd hy (not_answered rfl k s y)⟩

/-- the pane has got its session -/
lemma Sizes.replace (h : p.Sizes) {paneId sessionId : Nat} (hon : p.connected = true)
    (hans : ∀ k s y, p.Answered k s y → k = paneId) :
    (replacePaneSession { p with call := none } paneId sessionId).Apart paneId := by
  have hsessions : ∀ k, k ≠ paneId → (p.sessions.insert paneId sessionId).get k = p.sessions.get k :=
    fun k hk => Table.get_insert_of_ne _ _ hk
  unfold replacePaneSession
  dsimp only
  split_ifs
  · exact h.apart rfl rfl rfl rfl (fun e he _ => (Table.mem_retain.mp he).1)
      (fun k hk => ⟨Table.get_remove_of_ne _ hk, hsessions k hk, rfl⟩) hans fun hoff => absurd hon (Bool.eq_false_iff.mp hoff)
  · exact h.apart rfl rfl rfl rfl (fun _ he _ => he) (fun k hk => ⟨rfl, hsessions k hk, rfl⟩) hans
      fun hoff => absurd hon (Bool.eq_false_iff.mp hoff)

lemma replace_eq (p : Shim) (paneId sessionId : Nat) : p.replacePaneSession paneId sessionId =
    { p with
      sessions := p.sessions.insert paneId sessionId
      pending := if (p.sessions.get paneId).any (· != sessionId) then p.pending.remove paneId else p.pending } := by
  unfold replacePaneSession
  dsimp only
  split_ifs <;> rfl

/-- the requests that wait for a pane are of its session, so they stay when it gets the same one again -/
lemma Sizes.kept (h : p.Sizes) {paneId sessionId : Nat} {e : Nat × ResizeRequest}
    (he : e ∈ (if (p.sessions.get paneId).any (· != sessionId) then p.pending.remove paneId else p.pending).entries)
    (hk : e.1 = paneId) : e ∈ p.pending.entries ∧ e.2.sessionId = sessionId := by
  split_ifs at he with hne
  · have hkeep := (Table.mem_retain.mp he).2
    rw [hk, bne_self_eq_false] at hkeep
    cases hkeep
  · refine ⟨he, ?_⟩
    have hs := (h.current e he).2.1
    rw [hk] at hs
    rw [hs, Option.any_some, bne_iff_ne, not_not] at hne
    exact hne

/-- **The hand-over**: a pane gets a session, and its recorded size follows unless the session was asked for with it. -/
lemma Sizes.handOver (h : p.Sizes) {paneId sessionId : Nat} (hon : p.connected = true)
    (hans : ∀ k s y, p.Answered k s y → k = paneId) (spawnedWith : Option (Nat × Nat))
    (hspawned : ∀ size, spawnedWith = some size → p.Answered paneId sessionId size) :
    ((replacePaneSession { p with call := none } paneId sessionId).pushRecordedSize paneId sessionId spawnedWith).Sizes := by
  have hapart : (replacePaneSession { p with call := none } paneId sessionId).Apart paneId := h.replace hon hans
  rw [replace_eq] at hapart ⊢
  unfold pushRecordedSize
  dsimp only
  split
  · next hnone =>
    refine hapart.sizes (fun e he hk => ?_) fun s z _ hz => ?_
    · have hz := (h.current e (h.kept he hk).1).2.2
      rw [hk, hnone] at hz
      cases hz
    · exact absurd (hnone.symm.trans hz) nofun
  · next size hsize =>
    by_cases hwith : spawnedWith = some size
    · rw [if_pos hwith]
      refine hapart.sizes (fun e he hk => ?_) fun s z hs hz => ?_
      · obtain ⟨hmem, hsame⟩ := h.kept he hk
        refine ⟨(h.current e hmem).1, ?_, (h.current e hmem).2.2⟩
        show (p.sessions.insert paneId sessionId).get e.1 = some e.2.sessionId
        rw [hk, hsame, Table.get_insert_self]
      · have hs' : (p.sessions.insert paneId sessionId).get paneId = some s := hs
        rw [Table.get_insert_self] at hs'
        obtain rfl := Option.some.inj hs'
        obtain rfl := Option.some.inj (hsize.symm.trans hz)
        rcases h.answered _ _ _ (hspawned size hwith) size hsize with ⟨r, hr, hrs⟩ | ⟨hall, hany⟩
        · have hprev := (h.current _ (Table.mem_of_get hr)).2.1
          have hkeep : (p.sessions.get paneId).any (· != sessionId) = false := by
            rw [hprev, hrs, Option.any_some, bne_self_eq_false]
          refine .inl ⟨r, ?_, hrs⟩
          dsimp only
          rw [hkeep, if_neg Bool.false_ne_true]
          exact hr
        · refine .inr ⟨hall, hany.imp_right fun ⟨y, hy, hlast⟩ => ⟨y, ?_, hlast⟩⟩
          rcases List.mem_cons.mp hy with rfl | hy
          · exact List.mem_singleton_self _
          · exact hy
    · rw [if_neg hwith]
      exact hapart.enqueue rfl (Table.get_insert_self _ _ _) hsize

lemma Sizes.handle (h : p.Sizes) {ticket : Nat} {command : Command} {reply : Reply}
    (hcall : p.call = some ⟨ticket, command, some reply⟩) : (Shim.handle { p with call := none } command reply).Sizes := by
  have hon : p.connected = true := by
    by_contra hoff
    rw [(h.offline (Bool.eq_false_iff.mpr hoff)).2] at hcall
    cases hcall
  have hof : ∀ k s y, p.Answered k s y → command.geometry = some (k, y) ∧ reply = .session s := by
    intro k s y ⟨t, c, hc, hgeo⟩
    rw [hcall] at hc
    cases hc
    exact ⟨hgeo, rfl⟩
  have hgets : ∀ paneId sessionId size, command.geometry = some (paneId, size) → reply = .session sessionId →
      ((replacePaneSession { p with call := none } paneId sessionId).pushRecordedSize paneId sessionId (some size)).Sizes := by
    intro paneId sessionId size hgeo hreply
    refine h.handOver hon (fun k s y hy => ?_) _ fun z hz => ?_
    · exact congrArg Prod.fst (Option.some.inj ((hof k s y hy).1.symm.trans hgeo))
    · rw [hreply] at hcall
      exact ⟨ticket, command, hcall, by rw [hgeo, Option.some.inj hz]⟩
  have hover : (∀ k s y, ¬p.Answered k s y) → Sizes { p with call := none } := h.over
  unfold Shim.handle
  split
  · exact hgets _ _ _ rfl rfl
  · exact hgets _ _ _ rfl rfl
  · refine h.handOver hon (fun k s y hy => ?_) none nofun
    cases (hof k s y hy).1
  · exact (hover fun k s y hy => nomatch (hof k s y hy).1).unmap rfl _
  · exact (hover fun k s y hy => nomatch (hof k s y hy).1).unmap rfl _
  · next hspawn hensure _ _ _ =>
    refine hover fun k s y hy => ?_
    obtain ⟨hgeo, hreply⟩ := hof k s y hy
    cases command with
    | spawn paneId cols rows => exact hspawn _ _ _ _ rfl hreply
    | ensure paneId cols rows => exact hensure _ _ _ _ rfl hreply
    | _ => cases hgeo

lemma asked_eq_nil {command : Command} (h : command.geometry = none) (reply : Reply) : asked command reply = [] := by
  cases command with
  | spawn | ensure => cases h
  | _ => rfl

lemma asked_session {command : Command} {paneId : Nat} {size : Nat × Nat} (h : command.geometry = some (paneId, size))
    (sessionId : Nat) : asked command (.session sessionId) = [⟨sessionId, paneId, size.1, size.2⟩] := by
  cases command with
  | spawn | ensure =>
    cases h
    rfl
  | _ => cases h

lemma asked_of_ne {command : Command} {reply : Reply} (h : ∀ sessionId, reply ≠ .session sessionId) :
    asked command reply = [] := by
  cases reply with
  | session sessionId => exact absurd rfl (h sessionId)
  | _ => cases command <;> rfl

/-- the call that waits has its reply, or its command is still queued -/
lemma answered_serve (hc : p.Calls) {ticket : Nat} {command : Command} {rest : List (Nat × Command)}
    (hcommands : p.commands = (ticket, command) :: rest) {reply : Reply} {paneId sessionId : Nat} {size : Nat × Nat} :
    (p.serve ticket command rest reply).Answered paneId sessionId size ↔
      p.Answered paneId sessionId size ∧ command.geometry = none ∨
        command.geometry = some (paneId, size) ∧ reply = .session sessionId := by
  have hhead : (ticket, command) ∈ p.commands := hcommands ▸ List.mem_cons_self
  constructor
  · intro ⟨t, c, hcall, hgeo⟩
    obtain ⟨d, hd, heq⟩ := Option.map_eq_some_iff.mp hcall
    cases hnone : command.geometry with
    | none =>
      by_cases hticket : d.ticket = ticket
      · rw [if_pos hticket] at heq
        cases heq
        rw [hc.own _ hhead d hd hticket, hnone] at hgeo
        cases hgeo
      · rw [if_neg hticket] at heq
        exact .inl ⟨⟨t, c, heq ▸ hd, hgeo⟩, rfl⟩
    | some g =>
      have hwait := hc.geometry _ hhead (by rw [hnone]; exact Option.some_ne_none _)
      rw [hd] at hwait
      cases hwait
      rw [if_pos rfl] at heq
      cases heq
      exact .inr ⟨hnone.symm.trans hgeo, rfl⟩
  · rintro (⟨⟨t, c, hcall, hgeo⟩, hnone⟩ | ⟨hgeo, rfl⟩)
    · refine ⟨t, c, ?_, hgeo⟩
      show p.call.map _ = _
      rw [hcall, Option.map_some, if_neg]
      intro heq
      have hown : c = command := hc.own _ hhead _ hcall heq
      rw [hown, hnone] at hgeo
      cases hgeo
    · have hwait := hc.geometry _ hhead (by rw [hgeo]; exact Option.some_ne_none _)
      refine ⟨ticket, command, ?_, hgeo⟩
      show p.call.map _ = _
      rw [hwait, Option.map_some, if_pos rfl]

lemma Sizes.serve (h : p.Sizes) (hc : p.Calls) (hw : p.worker = .ready) {ticket : Nat} {command : Command}
    {rest : List (Nat × Command)} (hcommands : p.commands = (ticket, command) :: rest) (reply : Reply) :
    (p.serve ticket command rest reply).Sizes := by
  have hhead : (ticket, command) ∈ p.commands := hcommands ▸ List.mem_cons_self
  have hoff : p.connected = false → (∀ k, p.sessions.get k = none) ∧ (p.serve ticket command rest reply).call = none :=
    fun hoff => ⟨(h.offline hoff).1, by show p.call.map _ = none; rw [(h.offline hoff).2]; rfl⟩
  have hkept : ∀ {k s z sizes}, p.Delivered k s z sizes → asked command reply = [] →
      (p.serve ticket command rest reply).Delivered k s z sizes := by
    intro k s z sizes hdel hnil
    refine hdel.of_eq rfl rfl ?_
    unfold lastSent Shim.serve
    dsimp only
    rw [hnil, List.nil_append]
  cases hgeo : command.geometry with
  | none =>
    have hnil := asked_eq_nil hgeo reply
    refine ⟨hoff, h.current, fun k s z hs hz hnot => ?_, fun k s y hy z hz => ?_⟩
    · refine hkept (h.settled k s z hs hz fun y hy => ?_) hnil
      exact hnot y ((answered_serve hc hcommands).mpr (.inl ⟨hy, hgeo⟩))
    · rcases (answered_serve hc hcommands).mp hy with ⟨hold, -⟩ | ⟨hnew, -⟩
      · exact hkept (h.answered k s y hold z hz) hnil
      · cases hgeo.symm.trans hnew
  | some g =>
    obtain ⟨pane, size⟩ := g
    have hwait := hc.geometry _ hhead (by rw [hgeo]; exact Option.some_ne_none _)
    have hnot : ∀ k s y, ¬p.Answered k s y := by
      intro k s y ⟨t, c, hcall, _⟩
      rw [hwait] at hcall
      cases hcall
    have hans : ∀ k s y, (p.serve ticket command rest reply).Answered k s y ↔
        command.geometry = some (k, y) ∧ reply = .session s := by
      intro k s y
      rw [answered_serve hc hcommands, hgeo]
      simp
    by_cases hreply : ∃ s, reply = .session s
    · obtain ⟨session, rfl⟩ := hreply
      have hlast : ∀ k s, (p.serve ticket command rest (.session session)).lastSent k s =
          if pane = k ∧ session = s then some size else p.lastSent k s := by
        intro k s
        have hasked := asked_session hgeo session
        unfold Shim.serve
        rw [hasked]
        exact lastSent_cons p ⟨session, pane, size.1, size.2⟩
      refine ⟨hoff, h.current, fun k s z hs hz hnew => ?_, fun k s y hy z hz => ?_⟩
      · refine (h.settled k s z hs hz (hnot k s)).of_eq rfl rfl ?_
        rw [hlast, if_neg]
        rintro ⟨rfl, rfl⟩
        exact hnew size ((hans _ _ _).mpr ⟨hgeo, rfl⟩)
      · obtain ⟨hg, hr⟩ := (hans k s y).mp hy
        rw [hgeo] at hg
        cases hg
        cases hr
        refine .inr ⟨fun r hr => ?_, .inr ⟨size, List.mem_cons_of_mem _ List.mem_cons_self, ?_⟩⟩
        · have hr' : r ∈ p.worker.batch := hr
          rw [hw] at hr'
          cases hr'
        · rw [hlast, if_pos ⟨rfl, rfl⟩]
    · have hnil : asked command reply = [] := asked_of_ne fun s hs => hreply ⟨s, hs⟩
      refine ⟨hoff, h.current, fun k s z hs hz _ => hkept (h.settled k s z hs hz (hnot k s)) hnil, fun k s y hy => ?_⟩
      exact absurd ⟨s, ((hans k s y).mp hy).2⟩ hreply

/-- **Step**: the sizes of the panes stay on their way. -/
lemma Sizes.step (h : p.Sizes) (hc : p.Calls) {e : Event} (hq : step p e = some q) : q.Sizes := by
  cases e with
  | connect =>
    obtain ⟨⟨hcall, hoff⟩, rfl⟩ := guarded hq
    have hon : Sizes { p with connected := true } := ⟨nofun, h.current, h.settled, h.answered⟩
    exact hon.send _
  | resize paneId cols rows =>
    obtain ⟨hcall, rfl⟩ := guarded hq
    exact h.resize hcall paneId cols rows
  | call command =>
    obtain ⟨⟨hcall, hon, -⟩, rfl⟩ := guarded hq
    refine ⟨fun hoff => absurd hon (Bool.eq_false_iff.mp hoff), h.current, fun k s z hs hz _ => ?_, fun k s y hy => ?_⟩
    · exact h.settled k s z hs hz fun y => not_answered hcall k s y
    · obtain ⟨t, c, hnew, -⟩ := hy
      cases hnew
  | handle =>
    obtain ⟨ticket, command, reply, hcall, rfl⟩ := step_handle hq
    exact h.handle hcall
  | timeout =>
    obtain ⟨ticket, command, hcall, -, rfl⟩ := step_timeout hq
    refine h.over fun k s y ⟨t, c, hold, _⟩ => ?_
    rw [hcall] at hold
    cases hold
  | post =>
    obtain ⟨-, rfl⟩ := guarded hq
    exact h.send _
  | destroy paneId =>
    obtain ⟨hcall, rfl⟩ := guarded hq
    exact h.destroy hcall paneId
  | kill sessionId =>
    obtain ⟨⟨hcall, -⟩, rfl⟩ := guarded hq
    exact (h.unmap hcall sessionId).send _
  | destroyAll sessionIds =>
    obtain ⟨⟨hcall, -⟩, rfl⟩ := guarded hq
    exact h.destroyAll hcall sessionIds
  | serve reply =>
    obtain ⟨ticket, command, rest, hw, hcommands, -, rfl⟩ := step_serve hq
    exact h.serve hc hw hcommands reply
  | flush batch =>
    obtain ⟨ticket, rest, hw, -, hbatch, rfl⟩ := step_flush hq
    exact ⟨h.offline, nofun, fun k s z hs hz hnot => (h.settled k s z hs hz hnot).flush h hz hw hbatch rest,
      fun k s y hy z hz => (h.answered k s y hy z hz).flush h hz hw hbatch rest⟩
  | deliver =>
    obtain ⟨r, rest, hw, rfl⟩ := step_deliver hq
    exact ⟨h.offline, h.current,
      fun k s z hs hz hnot => (h.settled k s z hs hz hnot).deliver List.mem_cons_self hw,
      fun k s y hy z hz => (h.answered k s y hy z hz).deliver List.mem_cons_self hw⟩
  | finish =>
    obtain ⟨hw, rfl⟩ := guarded hq
    have hbatch : p.worker.batch = [] := by rw [hw]; rfl
    unfold Shim.finish
    split_ifs
    · exact ⟨h.offline, h.current, fun k s z hs hz hnot => (h.settled k s z hs hz hnot).of_eq rfl hbatch.symm rfl,
        fun k s y hy z hz => (h.answered k s y hy z hz).of_eq rfl hbatch.symm rfl⟩
    · exact ⟨h.offline, h.current, fun k s z hs hz hnot => (h.settled k s z hs hz hnot).of_eq rfl hbatch.symm rfl,
        fun k s y hy z hz => (h.answered k s y hy z hz).of_eq rfl hbatch.symm rfl⟩
  | follow =>
    obtain ⟨hw, rfl⟩ := guarded hq
    have hbatch : p.worker.batch = [] := by rw [hw]; rfl
    have hready : Sizes { p with worker := .ready } :=
      ⟨h.offline, h.current, fun k s z hs hz hnot => (h.settled k s z hs hz hnot).of_eq rfl hbatch.symm rfl,
        fun k s y hy z hz => (h.answered k s y hy z hz).of_eq rfl hbatch.symm rfl⟩
    exact hready.send _

/-! ## runs -/

/-- nothing is under way -/
def Idle (p : Shim) : Prop := p.call = none ∧ p.commands = [] ∧ p.worker = .ready

structure Inv (p : Shim) : Prop where
  flow : p.Flow
  calls : p.Calls
  sizes : p.Sizes

lemma inv_start : Inv {} where
  flow := ⟨rfl, nofun⟩
  calls := ⟨.nil, nofun, nofun, nofun, nofun⟩
  sizes := ⟨fun _ => ⟨fun _ => rfl, rfl⟩, nofun, nofun, fun _ _ _ h => absurd h (not_answered rfl _ _ _)⟩

lemma inv_step : Invariant step Inv := fun _ _ _ h hq =>
  ⟨h.flow.step hq, h.calls.step hq, h.sizes.step h.calls hq⟩

lemma inv_run {events : List Event} (h : exec step {} events = some p) : p.Inv := Invariant.exec inv_step inv_start h

end Shim

open Shim

lemma latest_size_of_run {events : List Event} {p : Shim} (h : exec step {} events = some p) :
    p.flushes ≤ 1 ∧ (p.pending.isEmpty = false → p.flushes = 1) ∧
      (p.Idle → p.pending.isEmpty = true ∧ ∀ paneId sessionId size, p.sessions.get paneId = some sessionId →
        p.paneSizes.get paneId = some size → p.lastSent paneId sessionId = some size) := by
  have hinv := inv_run h
  refine ⟨?_, fun hne => ?_, fun ⟨hcall, hcommands, hworker⟩ => ?_⟩
  · rw [hinv.flow.flushes]
    exact Bool.toNat_le _
  · rw [hinv.flow.flushes, hinv.flow.queued hne, Bool.toNat_true]
  · have hnone : p.flushes = 0 := by
      unfold flushes
      rw [hcommands, hworker]
      rfl
    have hempty : p.pending.isEmpty = true := by
      by_contra hne
      have hqueued := hinv.flow.flushes
      rw [hinv.flow.queued (Bool.eq_false_iff.mpr hne), hnone] at hqueued
      cases hqueued
    refine ⟨hempty, fun paneId sessionId size hs hz => ?_⟩
    rcases hinv.sizes.settled paneId sessionId size hs hz fun y => not_answered hcall _ _ y with
      ⟨r, hr, -⟩ | ⟨-, ⟨r, hr, -⟩ | ⟨y, hy, hlast⟩⟩
    · have hkey := Table.isEmpty_iff.mp hempty paneId
      rw [Table.contains_of_get hr] at hkey
      cases hkey
    · rw [hworker] at hr
      cases hr
    · rw [hlast, List.mem_singleton.mp hy]

/-- **Latest size**: whatever the threads do and in whatever order, at most one command to deliver the requests is under way,
there is one while requests wait, and when nothing is under way no request waits and the daemon was asked last, for every
pane with a session, for the size that is recorded for it. -/
theorem latest_size (events : List Event) (p : Shim) (h : exec step {} events = some p) :
    p.flushes ≤ 1 ∧ (p.pending.isEmpty = false → p.flushes = 1) ∧
      (p.Idle → p.pending.isEmpty = true ∧ ∀ paneId sessionId size, p.sessions.get paneId = some sessionId →
        p.paneSizes.get paneId = some size → p.lastSent paneId sessionId = some size) :=
  latest_size_of_run h

/-- two sizes asked for in a row, of which the daemon is asked for the second -/
theorem latest_size_drag : lastSent
    { connected := true
      paneSizes := ⟨[(7, (120, 40))]⟩
      sessions := ⟨[(7, 3)]⟩
      tickets := 3
      sent := [⟨3, 7, 120, 40⟩, ⟨3, 7, 80, 24⟩] } 7 3 = some (120, 40) :=
  ((latest_size [.connect, .serve .done, .call (.spawn 7 80 24), .serve (.session 3), .handle, .resize 7 100 30,
    .resize 7 120 40, .flush [⟨3, 7, 120, 40⟩], .deliver, .finish] _ rfl).2.2 ⟨rfl, rfl, rfl⟩).2 7 3 (120, 40) rfl rfl

/-! ## the worker left to itself -/

/-- the steps of the worker -/
def Event.ofWorker : Event → Bool
  | serve _ | flush _ | deliver | finish | follow => true
  | _ => false

namespace Shim
variable {p q : Shim}

/-- how many steps the worker has before it at most -/
def weight (p : Shim) : Nat :=
  2 * p.commands.length + p.pending.entries.length +
    match p.worker with
    | .ready => 0
    | .delivering batch => batch.length + 1 + if p.pending.isEmpty then 0 else 4
    | .following => 3

lemma weight_step {e : Event} (he : e.ofWorker = true) (hq : step p e = some q) : q.weight < p.weight := by
  cases e with
  | serve reply =>
    obtain ⟨ticket, command, rest, hw, hc, -, rfl⟩ := step_serve hq
    unfold weight serve
    simp only [hw, hc, List.length_cons]
    omega
  | flush batch =>
    obtain ⟨ticket, rest, hw, hc, hbatch, rfl⟩ := step_flush hq
    have hlen := hbatch.length_eq
    rw [List.length_map] at hlen
    have hempty : (∅ : Table Nat ResizeRequest).isEmpty = true := rfl
    have hnil : (∅ : Table Nat ResizeRequest).entries.length = 0 := rfl
    unfold weight
    simp only [hw, hc, hempty, hnil, if_true, List.length_cons]
    omega
  | deliver =>
    obtain ⟨r, rest, hw, rfl⟩ := step_deliver hq
    unfold weight
    simp only [hw, List.length_cons]
    omega
  | finish =>
    obtain ⟨hw, rfl⟩ := guarded hq
    unfold weight Shim.finish
    split_ifs with hempty
    · simp only [hw, List.length_nil]
      omega
    · simp only [hw, List.length_nil]
      omega
  | follow =>
    obtain ⟨hw, rfl⟩ := guarded hq
    unfold weight send
    simp only [hw, List.length_append, List.length_singleton]
    omega
  | _ => cases he

/-- the worker changes nothing that the interface reads, but the reply of a call -/
lemma worker_keeps {e : Event} (he : e.ofWorker = true) (hq : step p e = some q) :
    q.sessions = p.sessions ∧ q.paneSizes = p.paneSizes ∧ (p.call = none → q.call = none) := by
  cases e with
  | serve reply =>
    obtain ⟨ticket, command, rest, -, -, -, rfl⟩ := step_serve hq
    refine ⟨rfl, rfl, fun hcall => ?_⟩
    show p.call.map _ = none
    rw [hcall, Option.map_none]
  | flush batch =>
    obtain ⟨ticket, rest, -, -, -, rfl⟩ := step_flush hq
    exact ⟨rfl, rfl, id⟩
  | deliver =>
    obtain ⟨r, rest, -, rfl⟩ := step_deliver hq
    exact ⟨rfl, rfl, id⟩
  | finish =>
    obtain ⟨-, rfl⟩ := guarded hq
    unfold Shim.finish
    split_ifs <;> exact ⟨rfl, rfl, id⟩
  | follow =>
    obtain ⟨-, rfl⟩ := guarded hq
    exact ⟨rfl, rfl, id⟩
  | _ => cases he

/-- the worker has a step to make until nothing is queued -/
lemma worker_possible (h : p.commands ≠ [] ∨ p.worker ≠ .ready) : ∃ e q, e.ofWorker = true ∧ step p e = some q := by
  cases hw : p.worker with
  | ready =>
    cases hc : p.commands with
    | nil => exact absurd hw (h.resolve_left fun hne => hne hc)
    | cons e rest =>
      obtain ⟨ticket, command⟩ := e
      by_cases hflush : command = .flushResizes
      · subst hflush
        refine ⟨.flush (p.pending.entries.map Prod.snd),
          { p with commands := rest, pending := ∅, worker := .delivering (p.pending.entries.map Prod.snd) }, rfl, ?_⟩
        simp only [step, hw, hc]
        exact if_pos (List.Perm.refl _)
      · refine ⟨.serve .done, p.serve ticket command rest .done, rfl, ?_⟩
        simp only [step, hw, hc]
        exact if_pos hflush
  | delivering batch =>
    cases batch with
    | nil => exact ⟨.finish, _, rfl, if_pos hw⟩
    | cons r rest =>
      refine ⟨.deliver, { p with worker := .delivering rest, sent := r :: p.sent }, rfl, ?_⟩
      simp only [step, hw]
  | following => exact ⟨.follow, _, rfl, if_pos hw⟩

lemma worker_drains (p : Shim) : ∃ events q, (∀ e ∈ events, Event.ofWorker e = true) ∧ exec step p events = some q ∧
    q.commands = [] ∧ q.worker = .ready := by
  induction hn : p.weight using Nat.strongRecOn generalizing p with
  | ind n ih =>
    by_cases h : p.commands ≠ [] ∨ p.worker ≠ .ready
    · obtain ⟨e, q, he, hq⟩ := worker_possible h
      obtain ⟨events, r, hall, hr, hdone⟩ := ih q.weight (hn ▸ weight_step he hq) q rfl
      refine ⟨e :: events, r, List.forall_mem_cons.mpr ⟨he, hall⟩, ?_, hdone⟩
      show (step p e).bind _ = some r
      rw [hq]
      exact hr
    · rw [not_or, not_not, not_not] at h
      exact ⟨[], p, nofun, rfl, h⟩

end Shim

/-- **The worker settles**: left to itself the worker makes boundedly many steps and can always go on until nothing is queued;
when no call waits, the daemon was then asked last, for every pane with a session, for the size that is recorded for it. -/
theorem worker_settles (events : List Event) (p : Shim) (h : exec step {} events = some p) :
    (∀ steps q, (∀ e ∈ steps, Event.ofWorker e = true) → exec step p steps = some q →
      steps.length ≤ p.weight ∧ (q.commands ≠ [] ∨ q.worker ≠ .ready → ∃ e r, e.ofWorker = true ∧ step q e = some r) ∧
      (p.call = none → q.commands = [] → q.worker = .ready → ∀ paneId sessionId size,
        p.sessions.get paneId = some sessionId → p.paneSizes.get paneId = some size →
          q.lastSent paneId sessionId = some size)) ∧
    ∃ steps q, (∀ e ∈ steps, Event.ofWorker e = true) ∧ exec step p steps = some q ∧ q.commands = [] ∧
      q.worker = .ready := by
  refine ⟨fun steps q hsteps hq => ?_, worker_drains p⟩
  have hbound : steps.length + q.weight ≤ p.weight ∧ q.sessions = p.sessions ∧ q.paneSizes = p.paneSizes ∧
      (p.call = none → q.call = none) := by
    clear h
    induction steps generalizing p with
    | nil =>
      cases hq
      exact ⟨Nat.le_of_eq (Nat.zero_add _), rfl, rfl, id⟩
    | cons e steps ih =>
      obtain ⟨he, hrest⟩ := List.forall_mem_cons.mp hsteps
      obtain ⟨t, ht, htq⟩ := exec_cons step hq
      obtain ⟨hle, hs, hz, hcall⟩ := ih t hrest htq
      obtain ⟨hs', hz', hcall'⟩ := worker_keeps he ht
      have hlt := weight_step he ht
      refine ⟨?_, hs.trans hs', hz.trans hz', fun hnone => hcall (hcall' hnone)⟩
      rw [List.length_cons]
      omega
  obtain ⟨hle, hs, hz, hcall⟩ := hbound
  refine ⟨Nat.le_trans (Nat.le_add_right _ _) hle, fun hne => worker_possible hne, fun hnone hcommands hworker k s z hks hkz => ?_⟩
  have hrun : exec step {} (events ++ steps) = some q := by
    rw [exec_append, h]
    exact hq
  have hidle : q.Idle := ⟨hcall hnone, hcommands, hworker⟩
  obtain ⟨-, -, hlatest⟩ := latest_size_of_run hrun
  exact (hlatest hidle).2 k s z (by rw [hs]; exact hks) (by rw [hz]; exact hkz)

/-- a size asked for while the worker still has the answer to a list of the sessions to wait for -/
theorem worker_settles_after_resize : ∃ steps q, (∀ e ∈ steps, Event.ofWorker e = true) ∧
    exec step
      { connected := true
        paneSizes := ⟨[(7, (100, 30))]⟩
        sessions := ⟨[(7, 3)]⟩
        pending := ⟨[(7, ⟨3, 7, 100, 30⟩)]⟩
        flushQueued := true
        commands := [(2, .query), (3, .flushResizes)]
        tickets := 4
        sent := [⟨3, 7, 80, 24⟩] } steps = some q ∧ q.commands = [] ∧ q.worker = .ready :=
  (worker_settles [.connect, .serve .done, .call (.spawn 7 80 24), .serve (.session 3), .handle, .post, .resize 7 100 30]
    _ rfl).2

end TerminalManager.Pty
