import TerminalManager.Ptyd.Connection

/-!
# The response and the output of a new attachment

The handler spawns the forwarder of a new attachment before it asks for the writer to send the
response, so the forwarder may get the writer first.  What the daemon does guarantee:

* `Stream`          the invariant: the chunks put on the channel of a task are, in order, those of
                    its output frames, the one in its hands and those queued;
* `response_first`  **main result**: the response comes before every output frame of its
                    attachment, unless a chunk was on the channel before the handler got the
                    writer; and the output frames carry the chunks in the order they were put on
                    the channel, none left out;
* `output_first`    a run in which the forwarder gets the writer first.
-/

namespace TerminalManager.Ptyd.Connection
open Transition

/-- the frames begun, in the order of the wire -/
def frames (c : Connection) : List Tag := c.sent.reverse.map Sent.tag

def Tag.chunk? (t : TaskId) : Tag → Option (List UInt8)
  | .output u chunk => if u = t then some chunk else none
  | .response _ => none

/-- the chunks of the output frames of a task, in the order of the wire -/
def outputs (c : Connection) (t : TaskId) : List (List UInt8) := c.frames.filterMap (Tag.chunk? t)

/-- the chunks put on the channel of a task, in order -/
def offers (c : Connection) (t : TaskId) : List (List UInt8) :=
  (c.offered.reverse.filter fun o => o.task = t).map Offered.chunk

def ForwarderPc.inHand : ForwarderPc → List (List UInt8)
  | .locking chunk => [chunk]
  | _ => []

/-- the chunks a forwarder has not written yet; one that has ended writes none -/
def Carries (f : Forwarder) (offers outputs : List (List UInt8)) : Prop :=
  outputs <+: offers ∧ (f.pc ≠ .ended → offers = outputs ++ f.pc.inHand ++ f.queue)

structure Stream (c : Connection) : Prop where
  offered : ∀ o ∈ c.offered, o.begun ≤ c.sent.length ∧ o.task < c.tasks.length
  begun : ∀ t chunk, .output t chunk ∈ c.frames → t < c.tasks.length
  carries : ∀ (t : TaskId) (f : Forwarder), c.tasks[t]? = some f → Carries f (c.offers t) (c.outputs t)
  order : ∀ before t chunk after, c.frames = before ++ .output t chunk :: after →
    ∃ o ∈ c.offered, o.task = t ∧ o.begun ≤ before.length

lemma stream_start : start.Stream where
  offered _ ho := absurd ho List.not_mem_nil
  begun _ _ h := absurd h List.not_mem_nil
  carries _ _ h := by cases h
  order before t chunk after h := by
    have hlen := congrArg List.length h
    simp [frames, start] at hlen

/-- a step that begins no frame and puts nothing on a channel, and takes no chunk from a
forwarder that goes on -/
lemma Stream.of_eq {c d : Connection} (h : c.Stream) (hf : d.frames = c.frames)
    (ho : d.offered = c.offered) (hl : d.tasks.length = c.tasks.length)
    (ht : ∀ (t : TaskId) (f : Forwarder), d.tasks[t]? = some f → ∃ g, c.tasks[t]? = some g ∧
      (f.pc ≠ .ended → g.pc ≠ .ended ∧ f.pc.inHand ++ f.queue = g.pc.inHand ++ g.queue)) :
    d.Stream where
  offered o hod := by
    rw [ho] at hod
    obtain ⟨h1, h2⟩ := h.offered o hod
    refine ⟨h1.trans_eq ?_, by rw [hl]; exact h2⟩
    have hlen := congrArg List.length hf
    simpa [frames] using hlen.symm
  begun t chunk hm := by
    rw [hl]
    exact h.begun t chunk (hf ▸ hm)
  carries t f hft := by
    obtain ⟨g, hg, hpc⟩ := ht t f hft
    have hc := h.carries t g hg
    have hoff : d.offers t = c.offers t := by rw [offers, ho, offers]
    have hout : d.outputs t = c.outputs t := by rw [outputs, hf, outputs]
    rw [hoff, hout]
    refine ⟨hc.1, fun hne => ?_⟩
    obtain ⟨hge, hq⟩ := hpc hne
    rw [hc.2 hge, List.append_assoc, List.append_assoc, hq]
  order before t chunk after he := by
    rw [hf] at he
    rw [ho]
    exact h.order before t chunk after he

lemma getElem?_modify_task {l : List Forwarder} {t u : TaskId} {m : Forwarder → Forwarder}
    {f : Forwarder} (h : (l.modify t m)[u]? = some f) :
    ∃ g, l[u]? = some g ∧ (u = t → f = m g) ∧ (u ≠ t → f = g) := by
  rw [List.getElem?_modify] at h
  obtain ⟨g, hg, rfl⟩ := Option.map_eq_some_iff.mp h
  by_cases e : t = u
  · rw [if_pos e]
    exact ⟨g, hg, fun _ => rfl, fun hne => absurd e.symm hne⟩
  · rw [if_neg e]
    exact ⟨g, hg, fun h' => absurd h'.symm e, fun _ => rfl⟩

/-- the task `t` ends, or its pc changes without a chunk changing hands -/
lemma Stream.setPc {c d : Connection} (h : c.Stream) {t : TaskId} {pc : ForwarderPc}
    (hf : d.frames = c.frames) (ho : d.offered = c.offered)
    (ht : d.tasks = c.tasks.modify t fun f => { f with pc := pc })
    (hpc : pc = .ended ∨ ∀ g, c.tasks[t]? = some g → g.pc ≠ .ended ∧ pc.inHand = g.pc.inHand) :
    d.Stream := by
  refine h.of_eq hf ho (by rw [ht, List.length_modify]) fun u f hu => ?_
  rw [ht] at hu
  obtain ⟨g, hg, hsame, hother⟩ := getElem?_modify_task hu
  refine ⟨g, hg, fun hne => ?_⟩
  by_cases e : u = t
  · rw [hsame e] at hne ⊢
    rcases hpc with rfl | hpc
    · exact absurd rfl hne
    · obtain ⟨hge, hin⟩ := hpc g (e ▸ hg)
      exact ⟨hge, by rw [hin]⟩
  · rw [hother e] at hne ⊢
    exact ⟨hne, rfl⟩

/-! ## which task is where -/

/-- the task of a new attachment is not spawned while the handler aborts the old ones, and the
holder of the writer is writing -/
structure Tasks (c : Connection) : Prop where
  handles : ∀ t ∈ c.forwarders, t < c.tasks.length
  attached : ∀ ts t response, c.handler = .aborting ts (some t) response →
    c.pcOf t = some .unspawned ∧ t ∉ ts
  writer : ∀ t, c.writer = some (.forwarder t) → c.pcOf t = some .writing

lemma tasks_start : start.Tasks where
  handles _ h := absurd h List.not_mem_nil
  attached _ _ _ h := by cases h
  writer _ h := by cases h

lemma pcOf_lt {c : Connection} {t : TaskId} {pc : ForwarderPc} (h : c.pcOf t = some pc) :
    t < c.tasks.length := by
  obtain ⟨f, hf, -⟩ := Option.map_eq_some_iff.mp h
  exact (List.getElem?_eq_some_iff.mp hf).1

lemma pcOf_of_task {c : Connection} {t : TaskId} {f : Forwarder} (h : c.tasks[t]? = some f) :
    c.pcOf t = some f.pc := by
  rw [pcOf, h]
  rfl

lemma pcOf_modify {c d : Connection} {t : TaskId} {m : Forwarder → Forwarder}
    (h : d.tasks = c.tasks.modify t m) (u : TaskId) :
    d.pcOf u = if t = u then c.tasks[u]?.map fun f => (m f).pc else c.pcOf u := by
  unfold pcOf
  rw [h, List.getElem?_modify]
  by_cases e : t = u
  · simp only [if_pos e, Option.map_eq_map, Option.map_map]
    rfl
  · simp only [if_neg e, Option.map_eq_map, Option.map_map]
    rfl

/-- a step that changes one task `t`, which was neither waiting to be spawned nor the writer -/
lemma Tasks.modify {c d : Connection} (h : c.Tasks) {t : TaskId} {m : Forwarder → Forwarder}
    (hf : d.forwarders = c.forwarders) (hh : d.handler = c.handler)
    (ht : d.tasks = c.tasks.modify t m) (hun : c.pcOf t ≠ some .unspawned ∨ ∀ f, (m f).pc = f.pc)
    (hw : ∀ u, d.writer = some (.forwarder u) →
      u = t ∧ d.pcOf t = some .writing ∨ c.writer = some (.forwarder u) ∧
        (u ≠ t ∨ ∀ f, (m f).pc = f.pc)) : d.Tasks where
  handles u hu := by
    rw [ht, List.length_modify]
    exact h.handles u (hf ▸ hu)
  attached ts u response hd := by
    obtain ⟨h1, h2⟩ := h.attached ts u response (hh ▸ hd)
    refine ⟨?_, h2⟩
    rw [pcOf_modify ht]
    by_cases e : t = u
    · subst e
      rw [if_pos rfl]
      rcases hun with hun | hm
      · exact absurd h1 hun
      · simp only [hm]
        exact h1
    · rw [if_neg e]
      exact h1
  writer u hu := by
    rcases hw u hu with ⟨rfl, hp⟩ | ⟨hc, hne⟩
    · exact hp
    · rw [pcOf_modify ht]
      by_cases e : t = u
      · subst e
        rw [if_pos rfl]
        rcases hne with hne | hm
        · exact absurd rfl hne
        · simp only [hm]
          exact h.writer t hc
      · rw [if_neg e]
        exact h.writer u hc

lemma begin?_frame {c d : Connection} {owner : Owner} {tag : Tag} {kind : UInt8}
    {payload : List UInt8} (h : c.begin? owner tag kind payload = some d) :
    d.tasks = c.tasks ∧ d.forwarders = c.forwarders ∧ d.handler = c.handler ∧
      d.writer = some owner ∧ d.offered = c.offered ∧ d.frames = c.frames ++ [tag] := by
  obtain ⟨f, hf, -, rfl⟩ := begin?_some h
  refine ⟨rfl, rfl, rfl, rfl, rfl, ?_⟩
  show ((f :: c.sent).reverse).map Sent.tag = _
  rw [List.reverse_cons, List.map_append, frames, List.map_singleton, hf]

/-- a step that leaves the tasks as they are, and after which no old attachment is aborted for a new one -/
lemma Tasks.of_eq {c d : Connection} (h : c.Tasks) (ht : d.tasks = c.tasks) (hf : d.forwarders = c.forwarders)
    (hh : ∀ ts t response, d.handler ≠ .aborting ts (some t) response)
    (hw : ∀ t, d.writer = some (.forwarder t) → c.writer = some (.forwarder t)) : d.Tasks where
  handles t hm := by
    rw [ht]
    exact h.handles t (hf ▸ hm)
  attached ts t response e := absurd e (hh ts t response)
  writer t e := by
    rw [pcOf, ht]
    exact h.writer t (hw t e)

/-- a request makes a task, which waits until the old ones are aborted -/
lemma Tasks.append {c d : Connection} (h : c.Tasks) {x : Forwarder} (ht : d.tasks = c.tasks ++ [x])
    (hx : x.pc = .unspawned) (hf : d.forwarders = c.forwarders)
    (hh : ∀ ts t response, d.handler = .aborting ts (some t) response →
      t = c.tasks.length ∧ ∀ u ∈ ts, u ∈ c.forwarders)
    (hw : d.writer = c.writer) : d.Tasks where
  handles t hm := by
    rw [ht, List.length_append]
    exact Nat.lt_add_right _ (h.handles t (hf ▸ hm))
  attached ts t response e := by
    obtain ⟨rfl, hts⟩ := hh ts t response e
    refine ⟨?_, fun hm => Nat.lt_irrefl _ (h.handles _ (hts _ hm))⟩
    rw [pcOf, ht, List.getElem?_append_right (Nat.le_refl _), Nat.sub_self]
    exact congrArg some hx
  writer t e := by
    have hp := h.writer t (hw ▸ e)
    rw [pcOf, ht, List.getElem?_append_left (pcOf_lt hp)]
    exact hp

theorem step_tasks {c d : Connection} {e : Event} (h : c.Tasks) (he : c.step e = some d) :
    d.Tasks := by
  cases e with
  | request r response =>
    simp only [step] at he
    split at he
    · cases he
      refine h.append rfl rfl rfl (fun ts t response e => ?_) rfl
      cases e
      exact ⟨rfl, fun u hu => (List.mem_filter.mp hu).1⟩
    · cases he
      refine h.append rfl rfl rfl (fun ts t response e => ?_) rfl
      cases e
      exact ⟨rfl, fun u hu => absurd hu List.not_mem_nil⟩
    · cases he
      exact h.of_eq rfl rfl (fun _ _ _ e => by cases e) fun _ => id
    · cases he
      exact h.of_eq rfl rfl (fun _ _ _ e => by cases e) fun _ => id
    · cases he
  | abort =>
    simp only [step] at he
    split at he
    · rename_i t ts attached response hh
      cases he
      have hpc := pcOf_modify (c := c) (d := c.setPc t .ended) rfl
      refine ⟨fun u hu => ?_, fun ts' u response' e => ?_, fun u e => ?_⟩
      · show u < (c.tasks.modify t _).length
        rw [List.length_modify]
        exact h.handles u (List.mem_filter.mp hu).1
      · cases e
        obtain ⟨h1, h2⟩ := h.attached _ u _ hh
        have hne : t ≠ u := fun e => h2 (e ▸ List.mem_cons_self)
        exact ⟨(hpc u).trans (by rw [if_neg hne]; exact h1), fun hm => h2 (List.mem_cons_of_mem t hm)⟩
      · have e' : (if c.writer = some (.forwarder t) then none else c.writer)
            = some (.forwarder u) := e
        split at e'
        · cases e'
        · rename_i hw
          have hne : t ≠ u := fun heq => hw (heq ▸ e')
          exact (hpc u).trans (by rw [if_neg hne]; exact h.writer u e')
    · cases he
  | proceed =>
    simp only [step] at he
    split at he
    · rename_i t response hh
      cases he
      obtain ⟨h1, -⟩ := h.attached _ t _ hh
      have hpc := pcOf_modify (c := c) (d := c.setPc t .receiving) rfl
      refine ⟨fun u hu => ?_, fun _ _ _ e => (by cases e), fun u e => ?_⟩
      · show u < (c.tasks.modify t _).length
        rw [List.length_modify]
        rcases List.mem_cons.mp hu with rfl | hu
        · exact pcOf_lt h1
        · exact h.handles u (List.mem_filter.mp hu).1
      · have hwu := h.writer u e
        have hne : t ≠ u := by
          rintro rfl
          rw [h1] at hwu
          cases hwu
        exact (hpc u).trans (by rw [if_neg hne]; exact hwu)
    · cases he
      exact h.of_eq rfl rfl (fun _ _ _ e => by cases e) fun _ => id
    · cases he
  | lockHandler =>
    simp only [step] at he
    split at he
    · split at he
      · rename_i d' hb
        cases he
        obtain ⟨ht, hf, -, hw, -, -⟩ := begin?_frame hb
        refine h.of_eq ht hf (fun _ _ _ e => by cases e) fun t e => ?_
        have e' : d'.writer = some (.forwarder t) := e
        rw [hw] at e'
        cases e'
      · cases he
        exact h.of_eq rfl rfl (fun _ _ _ e => by cases e) fun _ => id
    · cases he
  | finishHandler =>
    simp only [step] at he
    split at he
    · split at he
      · cases he
        exact h.of_eq rfl rfl (fun _ _ _ e => by cases e) fun _ e => by cases e
      · cases he
    · cases he
  | offer t chunk =>
    simp only [step] at he
    split at he
    · cases he
    · cases he
    · cases he
      exact h.modify rfl rfl rfl (.inr fun _ => rfl) fun u hu => .inr ⟨hu, .inr fun _ => rfl⟩
  | receive t =>
    simp only [step] at he
    split at he
    · rename_i sid tok x queue ht
      cases he
      have hp := pcOf_of_task ht
      refine h.modify rfl rfl rfl (.inl (by rw [hp]; simp)) fun u hu => .inr ⟨hu, .inl ?_⟩
      rintro rfl
      have hw := h.writer u hu
      rw [hp] at hw
      cases hw
    · cases he
  | lockForwarder t =>
    simp only [step] at he
    split at he
    · rename_i sid tok queue chunk ht hwn
      have hp := pcOf_of_task ht
      split at he
      · rename_i d' hb
        cases he
        obtain ⟨htasks, hf, hh, hw, -, -⟩ := begin?_frame hb
        have hmod : (d'.setPc t .writing).tasks = c.tasks.modify t fun f => { f with pc := .writing } := by
          rw [← htasks]
          rfl
        refine h.modify hf hh hmod (.inl (by rw [hp]; simp)) fun u hu => .inl ?_
        have hu' : d'.writer = some (.forwarder u) := hu
        rw [hw] at hu'
        cases hu'
        refine ⟨rfl, ?_⟩
        rw [pcOf_modify hmod, if_pos rfl, ht]
        rfl
      · cases he
        refine h.modify rfl rfl rfl (.inl (by rw [hp]; simp)) fun u hu => ?_
        have hu' : c.writer = some (.forwarder u) := hu
        rw [hwn] at hu'
        cases hu'
    · cases he
  | finishForwarder t =>
    simp only [step] at he
    split at he
    · rename_i hw
      cases he
      have hp := h.writer t hw.1
      exact h.modify rfl rfl rfl (.inl (by rw [hp]; simp)) fun u hu => by cases hu
    · cases he
  | endForwarder t =>
    simp only [step] at he
    split at he
    · rename_i sid tok ht
      cases he
      have hp := pcOf_of_task ht
      refine h.modify rfl rfl rfl (.inl (by rw [hp]; simp)) fun u hu => .inr ⟨hu, .inl ?_⟩
      rintro rfl
      have hw := h.writer u hu
      rw [hp] at hw
      cases hw
    · cases he
  | accept n =>
    simp only [step] at he
    split at he
    · split at he
      · cases he
        exact ⟨h.handles, h.attached, h.writer⟩
      · cases he
    · cases he

/-! ## the chunks on the wire -/

/-- a task is added; nothing was put on its channel and it has no frame -/
lemma Stream.push {c d : Connection} (h : c.Stream) {x : Forwarder} (hq : x.queue = [])
    (hx : x.pc = .unspawned) (hf : d.frames = c.frames) (ho : d.offered = c.offered)
    (ht : d.tasks = c.tasks ++ [x]) : d.Stream where
  offered o hod := by
    obtain ⟨h1, h2⟩ := h.offered o (ho ▸ hod)
    refine ⟨h1.trans_eq ?_, ?_⟩
    · have hlen := congrArg List.length hf
      simpa [frames] using hlen.symm
    · rw [ht, List.length_append]
      exact Nat.lt_add_right _ h2
  begun t chunk hm := by
    rw [ht, List.length_append]
    exact Nat.lt_add_right _ (h.begun t chunk (hf ▸ hm))
  carries t f hft := by
    have hoff : d.offers t = c.offers t := by rw [offers, ho, offers]
    have hout : d.outputs t = c.outputs t := by rw [outputs, hf, outputs]
    rw [hoff, hout]
    by_cases hlt : t < c.tasks.length
    · rw [ht, List.getElem?_append_left hlt] at hft
      exact h.carries t f hft
    · -- the new task
      have hge : c.tasks.length ≤ t := Nat.not_lt.mp hlt
      have h1 : c.offers t = [] := by
        rw [offers, List.filter_eq_nil_iff.mpr, List.map_nil]
        intro o hmem e
        have hot := (h.offered o (List.mem_reverse.mp hmem)).2
        rw [of_decide_eq_true e] at hot
        exact hlt hot
      have h2 : c.outputs t = [] := by
        rw [outputs, List.filterMap_eq_nil_iff]
        intro tag hmem
        cases tag with
        | response a => rfl
        | output u chunk =>
          have hu := h.begun u chunk hmem
          have hne : u ≠ t := fun e => hlt (e ▸ hu)
          exact if_neg hne
      have hfx : f = x := by
        rw [ht, List.getElem?_append_right hge] at hft
        have hmem := List.mem_of_getElem? hft
        exact List.mem_singleton.mp hmem
      rw [h1, h2]
      refine ⟨List.nil_prefix, fun _ => ?_⟩
      rw [hfx, hx, hq]
      rfl
  order before t chunk after he := by
    rw [hf] at he
    rw [ho]
    exact h.order before t chunk after he

/-- where a frame stands when one is added at the end -/
lemma split_snoc {l before after : List Tag} {x y : Tag} (h : l ++ [x] = before ++ y :: after) :
    (∃ after', l = before ++ y :: after') ∨ (l = before ∧ x = y) := by
  rcases List.eq_nil_or_concat after with rfl | ⟨after', z, rfl⟩
  · obtain ⟨h1, h2⟩ := List.append_inj' h rfl
    exact .inr ⟨h1, List.singleton_inj.mp h2⟩
  · left
    refine ⟨after', ?_⟩
    rw [List.concat_eq_append, ← List.cons_append, ← List.append_assoc] at h
    exact (List.append_inj' h rfl).1

/-- the handler begins a response -/
lemma Stream.respond {c d : Connection} (h : c.Stream) {attached : Option TaskId}
    (hf : d.frames = c.frames ++ [.response attached]) (ho : d.offered = c.offered)
    (ht : d.tasks = c.tasks) : d.Stream where
  offered o hod := by
    obtain ⟨h1, h2⟩ := h.offered o (ho ▸ hod)
    refine ⟨?_, by rw [ht]; exact h2⟩
    have hlen := congrArg List.length hf
    simp only [frames, List.length_map, List.length_reverse, List.length_append] at hlen
    omega
  begun t chunk hm := by
    rw [ht]
    rw [hf, List.mem_append] at hm
    rcases hm with hm | hm
    · exact h.begun t chunk hm
    · cases List.mem_singleton.mp hm
  carries t f hft := by
    have hoff : d.offers t = c.offers t := by rw [offers, ho, offers]
    have hout : d.outputs t = c.outputs t := by
      rw [outputs, hf, List.filterMap_append, outputs]
      exact List.append_nil _
    rw [hoff, hout]
    exact h.carries t f (ht ▸ hft)
  order before t chunk after he := by
    rw [hf] at he
    rw [ho]
    rcases split_snoc he with ⟨after', e⟩ | ⟨-, e⟩
    · exact h.order before t chunk after' e
    · cases e

/-- a forwarder begins the frame of the chunk in its hands -/
lemma Stream.output {c d : Connection} (h : c.Stream) {t : TaskId} {chunk : List UInt8}
    (hp : c.pcOf t = some (.locking chunk)) (hf : d.frames = c.frames ++ [.output t chunk])
    (ho : d.offered = c.offered)
    (ht : d.tasks = c.tasks.modify t fun f => { f with pc := .writing }) : d.Stream := by
  obtain ⟨g, hg, hgp⟩ := Option.map_eq_some_iff.mp hp
  have hlen : d.sent.length = c.sent.length + 1 := by
    have hlen := congrArg List.length hf
    simpa [frames] using hlen
  have hcg := (h.carries t g hg).2 (by rw [hgp]; simp)
  rw [hgp] at hcg
  refine ⟨fun o hod => ?_, fun u x hm => ?_, fun u f hu => ?_, fun before u x after he => ?_⟩
  · obtain ⟨h1, h2⟩ := h.offered o (ho ▸ hod)
    rw [hlen, ht, List.length_modify]
    exact ⟨Nat.le_succ_of_le h1, h2⟩
  · rw [ht, List.length_modify]
    rw [hf, List.mem_append] at hm
    rcases hm with hm | hm
    · exact h.begun u x hm
    · cases List.mem_singleton.mp hm
      exact pcOf_lt hp
  · have hoff : d.offers u = c.offers u := by rw [offers, ho, offers]
    have hout : d.outputs u = c.outputs u ++ if t = u then [chunk] else [] := by
      rw [outputs, hf, List.filterMap_append, outputs]
      by_cases e : t = u
      · rw [if_pos e]
        simp [Tag.chunk?, e]
      · rw [if_neg e]
        simp [Tag.chunk?, e]
    rw [ht] at hu
    obtain ⟨g', hg', hsame, hother⟩ := getElem?_modify_task hu
    rw [hoff, hout]
    by_cases e : u = t
    · subst e
      have hgg : g' = g := Option.some.inj (hg'.symm.trans hg)
      rw [if_pos rfl, hsame rfl, hgg, hcg]
      refine ⟨⟨g.queue, rfl⟩, fun _ => ?_⟩
      simp [ForwarderPc.inHand]
    · rw [if_neg (Ne.symm e), List.append_nil, hother e]
      exact h.carries u g' hg'
  · rw [hf] at he
    rw [ho]
    rcases split_snoc he with ⟨after', e⟩ | ⟨e, ex⟩
    · exact h.order before u x after' e
    · cases ex
      -- the chunk in hand was put on the channel
      have hmem : chunk ∈ c.offers t := by
        rw [hcg]
        simp [ForwarderPc.inHand]
      obtain ⟨o, hom, -⟩ := List.mem_map.mp hmem
      obtain ⟨hor, hot⟩ := List.mem_filter.mp hom
      have ho' := List.mem_reverse.mp hor
      refine ⟨o, ho', of_decide_eq_true hot, ?_⟩
      rw [← e, frames, List.length_map, List.length_reverse]
      exact (h.offered o ho').1

/-- a chunk is put on the channel of a task that has not ended -/
lemma Stream.offer {c d : Connection} (h : c.Stream) {t : TaskId} {chunk : List UInt8}
    (hlt : t < c.tasks.length) (hf : d.sent = c.sent)
    (ho : d.offered = ⟨t, chunk, c.sent.length⟩ :: c.offered)
    (ht : d.tasks = c.tasks.modify t fun f => { f with queue := f.queue ++ [chunk] }) :
    d.Stream := by
  have hfr : d.frames = c.frames := by rw [frames, hf, frames]
  refine ⟨fun o hod => ?_, fun u x hm => ?_, fun u f hu => ?_, fun before u x after he => ?_⟩
  · rw [ho] at hod
    rw [hf, ht, List.length_modify]
    rcases List.mem_cons.mp hod with rfl | hod
    · exact ⟨Nat.le_refl _, hlt⟩
    · exact h.offered o hod
  · rw [ht, List.length_modify]
    exact h.begun u x (hfr ▸ hm)
  · have hout : d.outputs u = c.outputs u := by rw [outputs, hfr, outputs]
    have hoff : d.offers u = c.offers u ++ if t = u then [chunk] else [] := by
      rw [offers, ho, List.reverse_cons, List.filter_append, List.map_append, offers]
      by_cases e : t = u
      · simp [e]
      · simp [e]
    rw [ht] at hu
    obtain ⟨g, hg, hsame, hother⟩ := getElem?_modify_task hu
    obtain ⟨hpre, hall⟩ := h.carries u g hg
    rw [hout, hoff]
    refine ⟨hpre.trans (List.prefix_append _ _), fun hne => ?_⟩
    by_cases e : u = t
    · rw [hsame e] at hne ⊢
      rw [if_pos e.symm, hall hne]
      simp only [List.append_assoc]
    · rw [hother e] at hne ⊢
      rw [if_neg (Ne.symm e), List.append_nil]
      exact hall hne
  · rw [hfr] at he
    obtain ⟨o, hom, h1, h2⟩ := h.order before u x after he
    refine ⟨o, ?_, h1, h2⟩
    rw [ho]
    exact List.mem_cons_of_mem _ hom

/-- the same frames, channels and tasks -/
lemma Stream.same {c d : Connection} (h : c.Stream) (hf : d.frames = c.frames)
    (ho : d.offered = c.offered) (ht : d.tasks = c.tasks) : d.Stream :=
  h.of_eq hf ho (by rw [ht]) fun _ f hu => ⟨f, ht ▸ hu, fun hne => ⟨hne, rfl⟩⟩

theorem step_stream {c d : Connection} {e : Event} (hT : c.Tasks) (h : c.Stream)
    (he : c.step e = some d) : d.Stream := by
  cases e with
  | request r response =>
    simp only [step] at he
    split at he
    · cases he
      exact h.push rfl rfl rfl rfl rfl
    · cases he
      exact h.push rfl rfl rfl rfl rfl
    · cases he
      exact h.same rfl rfl rfl
    · cases he
      exact h.same rfl rfl rfl
    · cases he
  | abort =>
    simp only [step] at he
    split at he
    · cases he
      exact h.setPc rfl rfl rfl (.inl rfl)
    · cases he
  | proceed =>
    simp only [step] at he
    split at he
    · rename_i t response hh
      cases he
      obtain ⟨hp, -⟩ := hT.attached _ t _ hh
      refine h.setPc rfl rfl rfl (.inr fun g hg => ?_)
      have hgp : g.pc = .unspawned := Option.some.inj ((pcOf_of_task hg).symm.trans hp)
      rw [hgp]
      exact ⟨by simp, rfl⟩
    · cases he
      exact h.same rfl rfl rfl
    · cases he
  | lockHandler =>
    simp only [step] at he
    split at he
    · split at he
      · rename_i d' hb
        cases he
        obtain ⟨ht, -, -, -, ho, hf⟩ := begin?_frame hb
        exact h.respond hf ho ht
      · cases he
        exact h.same rfl rfl rfl
    · cases he
  | finishHandler =>
    simp only [step] at he
    split at he
    · split at he
      · cases he
        exact h.same rfl rfl rfl
      · cases he
    · cases he
  | offer t chunk =>
    simp only [step] at he
    split at he
    · cases he
    · cases he
    · rename_i hp
      cases he
      exact h.offer (pcOf_lt hp) rfl rfl rfl
  | receive t =>
    simp only [step] at he
    split at he
    · rename_i sid tok x queue ht
      cases he
      refine h.of_eq rfl rfl (List.length_modify _ _ _) fun u f hu => ?_
      obtain ⟨g, hg, hsame, hother⟩ := getElem?_modify_task hu
      refine ⟨g, hg, fun hne => ?_⟩
      by_cases e : u = t
      · have hgt : g = ⟨sid, tok, x :: queue, .receiving⟩ := Option.some.inj (hg.symm.trans (e ▸ ht))
        rw [hsame e, hgt]
        exact ⟨by simp, rfl⟩
      · rw [hother e] at hne ⊢
        exact ⟨hne, rfl⟩
    · cases he
  | lockForwarder t =>
    simp only [step] at he
    split at he
    · rename_i sid tok queue chunk ht hwn
      split at he
      · rename_i d' hb
        cases he
        obtain ⟨htasks, -, -, -, ho, hf⟩ := begin?_frame hb
        refine h.output (pcOf_of_task ht) hf ho ?_
        rw [← htasks]
        rfl
      · cases he
        exact h.setPc rfl rfl rfl (.inl rfl)
    · cases he
  | finishForwarder t =>
    simp only [step] at he
    split at he
    · rename_i hw
      cases he
      refine h.setPc rfl rfl rfl (.inr fun g hg => ?_)
      have hgp : g.pc = .writing :=
        Option.some.inj ((pcOf_of_task hg).symm.trans (hT.writer t hw.1))
      rw [hgp]
      exact ⟨by simp, rfl⟩
    · cases he
  | endForwarder t =>
    simp only [step] at he
    split at he
    · cases he
      exact h.setPc rfl rfl rfl (.inl rfl)
    · cases he
  | accept n =>
    simp only [step] at he
    split at he
    · rename_i o f l hw hs
      split at he
      · cases he
        refine h.same ?_ rfl rfl
        rw [frames, frames, hs, List.reverse_cons, List.reverse_cons, List.map_append,
          List.map_append]
        rfl
      · cases he
    · cases he

lemma exec_stream {es : List Event} {c : Connection} (h : exec step start es = some c) :
    c.Tasks ∧ c.Stream :=
  Invariant.exec (I := fun c => c.Tasks ∧ c.Stream)
    (fun _ _ _ ⟨hT, hS⟩ he => ⟨step_tasks hT he, step_stream hT hS he⟩) ⟨tasks_start, stream_start⟩ h

/-- **The response before the output.**  In every run, the response to an attachment comes before
its output frames unless a chunk was put on its channel before the handler got the writer, and
its output frames carry the chunks put on its channel, in order and with none left out. -/
theorem response_first {es : List Event} {c : Connection} (h : exec step start es = some c)
    (t : TaskId) :
    (∀ before after, c.frames = before ++ .response (some t) :: after →
      (∀ o ∈ c.offered, o.task = t → before.length < o.begun) →
      ∀ chunk, .output t chunk ∉ before) ∧
    c.outputs t <+: c.offers t ∧
    ∀ (f : Forwarder), c.tasks[t]? = some f → f.pc ≠ .ended →
      c.offers t = c.outputs t ++ f.pc.inHand ++ f.queue := by
  obtain ⟨-, hS⟩ := exec_stream h
  refine ⟨fun before after he hlate chunk hm => ?_, ?_, fun f hf hne => (hS.carries t f hf).2 hne⟩
  · obtain ⟨l, r, rfl⟩ := List.append_of_mem hm
    rw [List.append_assoc] at he
    obtain ⟨o, ho, hot, hle⟩ := hS.order l t chunk _ he
    have hlt := hlate o ho hot
    rw [List.length_append] at hlt
    omega
  · cases ht : c.tasks[t]? with
    | some f => exact (hS.carries t f ht).1
    | none =>
      have hge := List.getElem?_eq_none_iff.mp ht
      have hout : c.outputs t = [] := by
        rw [outputs, List.filterMap_eq_nil_iff]
        intro tag hmem
        cases tag with
        | response a => rfl
        | output u chunk =>
          have hu := hS.begun u chunk hmem
          exact if_neg (Nat.ne_of_lt (Nat.lt_of_lt_of_le hu hge))
      rw [hout]
      exact List.nil_prefix

/-! ### the forwarder gets the writer first -/

/-- the response to an attach, of a blank screen of one cell -/
def attachedJson : List UInt8 :=
  ascii "\x7b\"kind\":\"session_attached\",\"id\":2,\"snapshot\":\x7b\"grid\":\x7b\"rows\":1,\"cols\":1," ++
  ascii "\"cells\":[\x7b\x7d],\"cursor_row\":0,\"cursor_col\":0,\"cursor_visible\":true\x7d," ++
  ascii "\"scrollback\":[],\"mouse_modes\":\x7b\"report_1000\":false,\"report_1002\":false," ++
  ascii "\"report_1003\":false,\"sgr\":false\x7d,\"focus_reporting_1004\":false\x7d," ++
  ascii "\"hook_capability\":\"00\"\x7d"

theorem response_first_spawned : ∃ c, exec step start spawnAndForward = some c ∧
    c.frames = [.response (some 0), .output 0 [104]] ∧ c.outputs 0 <+: c.offers 0 := by
  refine ⟨_, rfl, rfl, ?_⟩
  have h := response_first (show exec step start spawnAndForward = some _ from rfl) 0
  exact h.2.1

/-- the handler spawns the forwarder of an attachment, the reader of the session parses a byte,
and the forwarder asks for the writer before the handler does -/
def outputFirst : List Event :=
  [.request (.attach 1 2) attachedJson, .proceed, .offer 0 [104], .receive 0, .lockForwarder 0,
    .accept 14, .finishForwarder 0, .lockHandler]

theorem output_first : ∃ c, exec step start outputFirst = some c ∧ c.handler = .writing ∧
    c.frames = [.output 0 [104], .response (some 0)] := by
  have h : (exec step start outputFirst).map (fun c => (c.handler, c.frames)) =
      some (.writing, [.output 0 [104], .response (some 0)]) := by decide +kernel
  obtain ⟨c, hc, hp⟩ := Option.map_eq_some_iff.mp h
  exact ⟨c, hc, congrArg Prod.fst hp, congrArg Prod.snd hp⟩

end TerminalManager.Ptyd.Connection
