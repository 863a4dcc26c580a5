import Mathlib.Data.List.Nodup
import TerminalManager.App.Persist
import TerminalManager.App.Outcomes

/-!
# No table outlives its pane

* `Tidy`             the tables mention panes of the layouts only; a pane is an editor, a flow or neither,
                     and only one that is neither has a terminal, a session or an agent;
* `Tidy.close`, …    one lemma for each teardown of `PaneTables`;
* `KeepsTidy`        the steps that clean up after themselves;
* `no_orphans`       in a run of such steps every state is tidy, each pane in one tab.
-/

namespace TerminalManager.App
open Ui (F32)
open Transition
open scoped List

namespace PaneTables

/-- the tables mention the panes `ids` only, and each pane in the tables of its kind -/
structure Tidy (t : PaneTables) (ids : PaneId → Prop) : Prop where
  sessions : ∀ x ∈ t.sessions, t.terminals.contains x.1 = true
  terminals : ∀ id, t.terminals.contains id = true → ids id ∧ t.transient id = false
  editors : ∀ id, t.editors.contains id = true → ids id ∧ t.flows.contains id = false
  flows : ∀ id, t.flows.contains id = true → ids id
  agents : ∀ id, t.mentions id = true → ids id ∧ t.transient id = false

variable {t : PaneTables} {ids : PaneId → Prop}

lemma Tidy.mono (h : t.Tidy ids) {ids' : PaneId → Prop} (hsub : ∀ id, ids id → ids' id) : t.Tidy ids' where
  sessions := h.sessions
  terminals id hid := (h.terminals id hid).imp_left (hsub id)
  editors id hid := (h.editors id hid).imp_left (hsub id)
  flows id hid := hsub id (h.flows id hid)
  agents id hid := (h.agents id hid).imp_left (hsub id)

/-- no table mentions a pane -/
lemma Tidy.new (ids : PaneId → Prop) : PaneTables.new.Tidy ids where
  sessions x hx := by cases hx
  terminals id hid := by cases hid
  editors id hid := by cases hid
  flows id hid := by cases hid
  agents id hid := by cases hid

/-- panes that no table mentions may go -/
lemma Tidy.restrict (h : t.Tidy ids) {ids' : PaneId → Prop}
    (hsub : ∀ id, ids id → t.terminals.contains id = true ∨ t.transient id = true ∨ t.mentions id = true → ids' id) :
    t.Tidy ids' where
  sessions := h.sessions
  terminals id hid := (h.terminals id hid).imp_left fun hin => hsub id hin (.inl hid)
  editors id hid := (h.editors id hid).imp_left fun hin =>
    hsub id hin (.inr (.inl (by unfold transient; rw [hid]; rfl)))
  flows id hid := hsub id (h.flows id hid) (.inr (.inl (by unfold transient; rw [hid, Bool.or_true])))
  agents id hid := (h.agents id hid).imp_left fun hin => hsub id hin (.inr (.inr hid))

lemma transient_eq_false {id : PaneId} :
    t.transient id = false ↔ t.editors.contains id = false ∧ t.flows.contains id = false := Bool.or_eq_false_iff

@[simp] lemma transient_killTerminal (id : PaneId) : (t.killTerminal id).transient = t.transient := rfl

/-- a terminal pane that is killed or closed is gone from every table -/
lemma Tidy.killTerminal (h : t.Tidy ids) {id : PaneId} (hid : t.transient id = false) :
    (t.killTerminal id).Tidy fun j => ids j ∧ j ≠ id where
  sessions x hx := by
    obtain ⟨hx, hne⟩ := List.mem_filter.mp hx
    show (t.terminals.remove id).contains x.1 = true
    rw [Table.contains_remove, h.sessions x hx, Bool.and_true, Bool.not_eq_true', decide_eq_false_iff_not]
    exact bne_iff_ne.mp hne
  terminals j hj := by
    rw [show (t.killTerminal id).terminals = t.terminals.remove id from rfl, Table.contains_remove,
      Bool.and_eq_true, Bool.not_eq_true', decide_eq_false_iff_not] at hj
    exact ⟨⟨(h.terminals j hj.2).1, hj.1⟩, (h.terminals j hj.2).2⟩
  editors j hj := by
    refine ⟨⟨(h.editors j hj).1, fun heq => ?_⟩, (h.editors j hj).2⟩
    have hfalse := (transient_eq_false.mp hid).1
    rw [← heq, show t.editors.contains j = true from hj] at hfalse
    cases hfalse
  flows j hj := by
    refine ⟨h.flows j hj, fun heq => ?_⟩
    have hfalse := (transient_eq_false.mp hid).2
    rw [← heq, show t.flows.contains j = true from hj] at hfalse
    cases hfalse
  agents j hj := by
    have hmentions : (t.killTerminal id).mentions j = (!decide (j = id) && t.mentions j) := t.mentions_forget id j
    rw [hmentions, Bool.and_eq_true, Bool.not_eq_true', decide_eq_false_iff_not] at hj
    exact ⟨⟨(h.agents j hj.2).1, hj.1⟩, (h.agents j hj.2).2⟩

lemma Tidy.closeTerminal (h : t.Tidy ids) {id : PaneId} (hid : t.transient id = false) :
    (t.closeTerminal id).Tidy fun j => ids j ∧ j ≠ id :=
  let hk := h.killTerminal hid
  ⟨hk.sessions, hk.terminals, hk.editors, hk.flows, hk.agents⟩

/-- an editor pane that is closed is gone from every table -/
lemma Tidy.dropEditor (h : t.Tidy ids) {id : PaneId} (hid : t.editors.contains id = true) :
    Tidy { t with editors := t.editors.remove id } fun j => ids j ∧ j ≠ id := by
  have htransient : t.transient id = true := by
    unfold transient
    rw [hid]
    rfl
  have hne {j : PaneId} (hj : t.transient j = false) : j ≠ id := by
    intro heq
    rw [heq, htransient] at hj
    cases hj
  have hclear {j : PaneId} (hj : t.transient j = false) :
      transient { t with editors := t.editors.remove id } j = false := by
    obtain ⟨he, hf⟩ := transient_eq_false.mp hj
    apply transient_eq_false.mpr
    refine ⟨?_, hf⟩
    show (t.editors.remove id).contains j = false
    rw [Table.contains_remove, he, Bool.and_false]
  refine ⟨h.sessions, fun j hj => ?_, fun j hj => ?_, fun j hj => ?_, fun j hj => ?_⟩
  · obtain ⟨hin, hj⟩ := h.terminals j hj
    exact ⟨⟨hin, hne hj⟩, hclear hj⟩
  · rw [Table.contains_remove, Bool.and_eq_true, Bool.not_eq_true', decide_eq_false_iff_not] at hj
    obtain ⟨hin, hf⟩ := h.editors j hj.2
    exact ⟨⟨hin, hj.1⟩, hf⟩
  · refine ⟨h.flows j hj, fun heq => ?_⟩
    have hf := (h.editors id hid).2
    rw [← heq, hj] at hf
    cases hf
  · obtain ⟨hin, hj⟩ := h.agents j hj
    exact ⟨⟨hin, hne hj⟩, hclear hj⟩

/-- a flow pane that is closed is gone from every table -/
lemma Tidy.dropFlow (h : t.Tidy ids) {id : PaneId} (hid : t.flows.contains id = true) :
    Tidy { t with flows := t.flows.remove id } fun j => ids j ∧ j ≠ id := by
  have htransient : t.transient id = true := by
    unfold transient
    rw [hid, Bool.or_true]
  have hne {j : PaneId} (hj : t.transient j = false) : j ≠ id := by
    intro heq
    rw [heq, htransient] at hj
    cases hj
  have hclear {j : PaneId} (hj : t.transient j = false) :
      transient { t with flows := t.flows.remove id } j = false := by
    obtain ⟨he, hf⟩ := transient_eq_false.mp hj
    apply transient_eq_false.mpr
    refine ⟨he, ?_⟩
    show (t.flows.remove id).contains j = false
    rw [Table.contains_remove, hf, Bool.and_false]
  refine ⟨h.sessions, fun j hj => ?_, fun j hj => ?_, fun j hj => ?_, fun j hj => ?_⟩
  · obtain ⟨hin, hj⟩ := h.terminals j hj
    exact ⟨⟨hin, hne hj⟩, hclear hj⟩
  · obtain ⟨hin, hf⟩ := h.editors j hj
    refine ⟨⟨hin, fun heq => ?_⟩, ?_⟩
    · rw [heq, hid] at hf
      cases hf
    · show (t.flows.remove id).contains j = false
      rw [Table.contains_remove, hf, Bool.and_false]
  · rw [Table.contains_remove, Bool.and_eq_true, Bool.not_eq_true', decide_eq_false_iff_not] at hj
    exact ⟨h.flows j hj.2, hj.1⟩
  · obtain ⟨hin, hj⟩ := h.agents j hj
    exact ⟨⟨hin, hne hj⟩, hclear hj⟩

/-- a pane torn down by its kind is gone from every table -/
lemma Tidy.dropPane {terminal : PaneTables → PaneId → PaneTables}
    (hterminal : ∀ {t : PaneTables} {ids : PaneId → Prop} {id : PaneId}, t.Tidy ids → t.transient id = false →
      (terminal t id).Tidy fun j => ids j ∧ j ≠ id) (h : t.Tidy ids) (id : PaneId) :
    (dropPane terminal t id).Tidy fun j => ids j ∧ j ≠ id := by
  unfold PaneTables.dropPane
  split_ifs with he hf
  · exact h.dropEditor he
  · exact h.dropFlow hf
  · exact hterminal h (transient_eq_false.mpr ⟨Bool.eq_false_iff.mpr he, Bool.eq_false_iff.mpr hf⟩)

/-- the panes of a list torn down one after the other -/
lemma Tidy.foldl {f : PaneTables → PaneId → PaneTables}
    (hf : ∀ {t : PaneTables} {ids : PaneId → Prop} (id : PaneId), t.Tidy ids → (f t id).Tidy fun j => ids j ∧ j ≠ id)
    (gone : List PaneId) (h : t.Tidy ids) : (gone.foldl f t).Tidy fun j => ids j ∧ j ∉ gone := by
  induction gone generalizing t ids with
  | nil => exact h.mono fun id hid => ⟨hid, List.not_mem_nil⟩
  | cons id gone ih =>
    refine (ih (hf id h)).mono fun j hj => ⟨hj.1.1, fun hmem => ?_⟩
    rcases List.mem_cons.mp hmem with heq | hmem
    · exact hj.1.2 heq
    · exact hj.2 hmem

lemma Tidy.closeAll (h : t.Tidy ids) (gone : List PaneId) :
    (gone.foldl .closePaneTables t).Tidy fun j => ids j ∧ j ∉ gone :=
  Tidy.foldl (fun id h => h.dropPane (fun h hid => h.closeTerminal hid) id) gone h

lemma Tidy.killPanes (h : t.Tidy ids) (gone : List PaneId) :
    (gone.foldl .killPaneTables t).Tidy fun j => ids j ∧ j ∉ gone :=
  Tidy.foldl (fun id h => h.dropPane (fun h hid => h.killTerminal hid) id) gone h

/-- what the tables know of a pane that is not in them -/
lemma Tidy.fresh (h : t.Tidy ids) {id : PaneId} (hid : ¬ ids id) :
    t.transient id = false ∧ t.terminals.contains id = false ∧ t.mentions id = false := by
  refine ⟨transient_eq_false.mpr ⟨?_, ?_⟩, ?_, ?_⟩
  · exact Bool.eq_false_iff.mpr fun he => hid (h.editors id he).1
  · exact Bool.eq_false_iff.mpr fun hf => hid (h.flows id hf)
  · exact Bool.eq_false_iff.mpr fun ht => hid (h.terminals id ht).1
  · exact Bool.eq_false_iff.mpr fun ha => hid (h.agents id ha).1

/-- a fresh pane gets a terminal, and maybe a session and an agent; the editors and the flows stay -/
lemma Tidy.addTerminal (h : t.Tidy ids) {id : PaneId} (hid : ¬ ids id) {t' : PaneTables}
    (hsessions : ∀ x ∈ t'.sessions, x.1 = id ∨ x ∈ t.sessions)
    (hterminals : ∀ j, t'.terminals.contains j = (decide (j = id) || t.terminals.contains j))
    (htransient : t'.editors = t.editors ∧ t'.flows = t.flows)
    (hmentions : ∀ j, t'.mentions j = true → j = id ∨ t.mentions j = true) : t'.Tidy fun j => j = id ∨ ids j := by
  have hsame (j : PaneId) : t'.transient j = t.transient j := by
    unfold transient
    rw [htransient.1, htransient.2]
  have hclear := (h.fresh hid).1
  refine ⟨fun x hx => ?_, fun j hj => ?_, fun j hj => ?_, fun j hj => ?_, fun j hj => ?_⟩
  · rw [hterminals, Bool.or_eq_true, decide_eq_true_eq]
    exact (hsessions x hx).imp_right (h.sessions x)
  · rw [hterminals, Bool.or_eq_true, decide_eq_true_eq] at hj
    rw [hsame]
    rcases hj with rfl | hj
    · exact ⟨.inl rfl, hclear⟩
    · exact (h.terminals j hj).imp_left .inr
  · rw [htransient.1] at hj
    rw [htransient.2]
    exact (h.editors j hj).imp_left .inr
  · rw [htransient.2] at hj
    exact .inr (h.flows j hj)
  · rw [hsame]
    rcases hmentions j hj with rfl | hj
    · exact ⟨.inl rfl, hclear⟩
    · exact (h.agents j hj).imp_left .inr

lemma Tidy.spawn (h : t.Tidy ids) {id : PaneId} (hid : ¬ ids id) (spawned : SpawnResult) :
    (t.spawn id spawned).Tidy fun j => j = id ∨ ids j := by
  obtain ⟨hsessions, hterminals⟩ := t.spawn_spec id spawned
  obtain ⟨heditors, hflows, hmentions⟩ := t.spawn_rest id spawned
  apply h.addTerminal hid hsessions
  · intro j
    rw [hterminals, Table.contains_insert]
  · exact ⟨heditors, hflows⟩
  · intro j hj
    rw [hmentions] at hj
    exact .inr hj

lemma Tidy.launch (h : t.Tidy ids) {id : PaneId} (hid : ¬ ids id) (launch : AgentLaunch) (outcome : LaunchOutcome) :
    (t.launchAgent id launch outcome).Tidy fun j => j = id ∨ ids j := by
  obtain ⟨hsessions, hterminals, htransient⟩ := t.launchAgent_spec id launch outcome
  apply h.addTerminal hid hsessions
  · intro j
    rw [hterminals, Table.contains_insert]
  · exact htransient
  · intro j hj
    exact t.launchAgent_mentions id launch outcome hj

/-- a fresh pane gets an editor -/
lemma Tidy.addEditor (h : t.Tidy ids) {id : PaneId} (hid : ¬ ids id) (editor : EditorPane) :
    Tidy { t with editors := t.editors.insert id editor } fun j => j = id ∨ ids j := by
  obtain ⟨htransient, hterminals, hmentions⟩ := h.fresh hid
  have hkeep {j : PaneId} (hj : t.transient j = false) (hne : j ≠ id) :
      transient { t with editors := t.editors.insert id editor } j = false := by
    obtain ⟨he, hf⟩ := transient_eq_false.mp hj
    apply transient_eq_false.mpr
    refine ⟨?_, hf⟩
    show (t.editors.insert id editor).contains j = false
    rw [Table.contains_insert, he, decide_eq_false hne]
    rfl
  refine ⟨h.sessions, fun j hj => ?_, fun j hj => ?_, fun j hj => .inr (h.flows j hj), fun j hj => ?_⟩
  · obtain ⟨hin, hclear⟩ := h.terminals j hj
    exact ⟨.inr hin, hkeep hclear fun heq => hid (heq ▸ hin)⟩
  · rw [Table.contains_insert, Bool.or_eq_true, decide_eq_true_eq] at hj
    rcases hj with rfl | hj
    · exact ⟨.inl rfl, (transient_eq_false.mp htransient).2⟩
    · exact (h.editors j hj).imp_left .inr
  · obtain ⟨hin, hclear⟩ := h.agents j hj
    exact ⟨.inr hin, hkeep hclear fun heq => hid (heq ▸ hin)⟩

/-- a fresh pane gets a flow -/
lemma Tidy.addFlow (h : t.Tidy ids) {id : PaneId} (hid : ¬ ids id) (pane : FlowPane) :
    Tidy { t with flows := t.flows.insert id pane } fun j => j = id ∨ ids j := by
  have hother {j : PaneId} (hj : t.flows.contains j = false) (hin : ids j) :
      (t.flows.insert id pane).contains j = false := by
    rw [Table.contains_insert, hj, Bool.or_false]
    exact decide_eq_false fun heq => hid (heq ▸ hin)
  have hkeep {j : PaneId} (hj : t.transient j = false) (hin : ids j) :
      transient { t with flows := t.flows.insert id pane } j = false := by
    obtain ⟨he, hf⟩ := transient_eq_false.mp hj
    exact transient_eq_false.mpr ⟨he, hother hf hin⟩
  refine ⟨h.sessions, fun j hj => ?_, fun j hj => ?_, fun j hj => ?_, fun j hj => ?_⟩
  · obtain ⟨hin, hclear⟩ := h.terminals j hj
    exact ⟨.inr hin, hkeep hclear hin⟩
  · obtain ⟨hin, hclear⟩ := h.editors j hj
    exact ⟨.inr hin, hother hclear hin⟩
  · rw [Table.contains_insert, Bool.or_eq_true, decide_eq_true_eq] at hj
    exact hj.imp_right (h.flows j)
  · obtain ⟨hin, hclear⟩ := h.agents j hj
    exact ⟨.inr hin, hkeep hclear hin⟩

/-- the agents of a workspace are killed -/
lemma Tidy.killAgents (h : t.Tidy ids) (gone : List PaneId) (hgone : ∀ id ∈ gone, t.transient id = false) :
    (gone.foldl .killAgentTables t).Tidy fun j => ids j ∧ j ∉ gone := by
  induction gone generalizing t ids with
  | nil => exact h.mono fun id hid => ⟨hid, List.not_mem_nil⟩
  | cons id gone ih =>
    have hid := hgone id List.mem_cons_self
    have hclose : t.killAgentTables id = t.closeTerminal id := by
      unfold killAgentTables
      rw [if_neg (Bool.eq_false_iff.mp (transient_eq_false.mp hid).2)]
    rw [List.foldl_cons, hclose]
    refine (ih (h.closeTerminal hid) fun id hid => hgone id (List.mem_cons_of_mem _ hid)).mono fun j hj => ?_
    exact ⟨hj.1.1, List.not_mem_cons_of_ne_of_not_mem hj.1.2 hj.2⟩

lemma Tidy.retainAgents (h : t.Tidy ids) (kept : PaneId → Bool) : (t.retainAgents kept).Tidy ids := by
  refine ⟨h.sessions, h.terminals, h.editors, h.flows, fun id hid => h.agents id ?_⟩
  rw [mentions_retainAgents] at hid
  unfold mentions
  revert hid
  cases kept id <;> cases t.paneAgents.contains id <;> cases t.flowPending.contains id <;> simp

/-- what is kept of a pane whose process is stopped when the app is closed -/
def leftBehind (t : PaneTables) (id : PaneId) : Bool :=
  t.transient id || t.paneAgents.contains id || t.flowPending.contains id

/-- the panes that are not kept when the app is closed, when nothing else is kept of them -/
lemma Tidy.keepPanes (h : t.Tidy ids) (doomed : List PaneId) {kept : PaneId → Bool}
    (hdoomed : ∀ id, ids id → (id ∈ doomed ↔ kept id = false))
    (hleft : ∀ id, ids id → kept id = false → t.leftBehind id = false) :
    ((doomed.foldl .stopTerminal t).retainAgents kept).Tidy fun id => ids id ∧ kept id = true := by
  have hkept {id : PaneId} (hid : ids id) (hleave : t.leftBehind id = true) : kept id = true := by
    by_contra hnot
    have hfalse := hleft id hid (Bool.eq_false_iff.mpr hnot)
    rw [hleave] at hfalse
    cases hfalse
  rw [stop_foldl]
  refine ⟨fun x hx => ?_, fun id hid => ?_, fun id hid => ?_, fun id hid => ?_, fun id hid => ?_⟩
  · obtain ⟨hx, hout⟩ := List.mem_filter.mp hx
    show (t.terminals.retain _).contains x.1 = true
    rw [Table.contains_retain, h.sessions x hx, hout]
    rfl
  · have hid : (t.terminals.retain fun id => !doomed.contains id).contains id = true := hid
    rw [Table.contains_retain, Bool.and_eq_true, Bool.not_eq_true', List.contains_eq_mem, decide_eq_false_iff_not] at hid
    obtain ⟨hin, hclear⟩ := h.terminals id hid.2
    refine ⟨⟨hin, ?_⟩, hclear⟩
    by_contra hnot
    exact hid.1 ((hdoomed id hin).mpr (Bool.eq_false_iff.mpr hnot))
  · obtain ⟨hin, hclear⟩ := h.editors id hid
    refine ⟨⟨hin, hkept hin ?_⟩, hclear⟩
    unfold leftBehind transient
    rw [show t.editors.contains id = true from hid]
    rfl
  · have hin := h.flows id hid
    refine ⟨hin, hkept hin ?_⟩
    unfold leftBehind transient
    rw [show t.flows.contains id = true from hid, Bool.or_true]
    rfl
  · rw [mentions_retainAgents, Bool.or_assoc, Bool.or_eq_true] at hid
    rcases hid with hid | hid
    · obtain ⟨hk, hid⟩ := Bool.and_eq_true_iff.mp hid
      obtain ⟨hin, hclear⟩ := h.agents id (by
        unfold mentions
        revert hid
        show (t.agentRestarts.contains id || t.pendingAgentResumes.contains id || t.agentResumeAttempts.contains id) =
          true → _
        cases t.agentRestarts.contains id <;> cases t.pendingAgentResumes.contains id <;> simp_all)
      exact ⟨⟨hin, hk⟩, hclear⟩
    · have hid : (t.paneAgents.contains id || t.flowPending.contains id) = true := hid
      obtain ⟨hin, hclear⟩ := h.agents id (by
        unfold mentions
        revert hid
        cases t.paneAgents.contains id <;> cases t.flowPending.contains id <;> simp)
      refine ⟨⟨hin, hkept hin ?_⟩, hclear⟩
      unfold leftBehind
      rw [Bool.or_assoc, hid, Bool.or_true]

/-- the tables that `mutate_kill_all_terminals` does not clear are empty -/
def killAllClears (t : PaneTables) : Bool := t.flows.isEmpty && t.paneAgents.isEmpty && t.flowPending.isEmpty

lemma Tidy.killAll (h : t.Tidy ids) (hclears : t.killAllClears = true) (ids' : PaneId → Prop) :
    t.killAll.Tidy ids' := by
  obtain ⟨hboth, hpending⟩ := Bool.and_eq_true_iff.mp hclears
  obtain ⟨hflows, hagents⟩ := Bool.and_eq_true_iff.mp hboth
  refine ⟨fun x hx => ?_, fun id hid => ?_, fun id hid => ?_, fun id hid => ?_, fun id hid => ?_⟩
  · -- every session has a terminal, and the sessions of the terminals are gone
    obtain ⟨hx, hout⟩ := List.mem_filter.mp hx
    have hout : (!t.terminals.contains x.1) = true := hout
    rw [h.sessions x hx] at hout
    cases hout
  · cases hid
  · cases hid
  · rw [show t.killAll.flows.contains id = t.flows.contains id from rfl, Table.isEmpty_iff.mp hflows id] at hid
    cases hid
  · have hnone : t.killAll.mentions id = (t.paneAgents.contains id || t.flowPending.contains id) := by
      unfold mentions PaneTables.killAll
      simp
    rw [hnone, Table.isEmpty_iff.mp hagents id, Table.isEmpty_iff.mp hpending id] at hid
    cases hid

end PaneTables

namespace AppState
section
variable {F : Type}

/-- the panes are distinct, and the tables are those of the panes -/
structure Tidy (s : AppState F) : Prop where
  nodup : s.paneIds.Nodup
  side : s.side.Tidy (· ∈ s.paneIds)

/-- no pane is in two tabs; each terminal, editor and flow is that of a pane of a tab, and of one kind;
the agents are those of panes of the tabs -/
structure NoOrphans (s : AppState F) : Prop where
  once : s.paneIds.Nodup
  terminals : ∀ id, s.side.terminals.contains id = true →
    id ∈ s.paneIds ∧ s.side.editors.contains id = false ∧ s.side.flows.contains id = false
  editors : ∀ id, s.side.editors.contains id = true → id ∈ s.paneIds ∧ s.side.flows.contains id = false
  flows : ∀ id, s.side.flows.contains id = true → id ∈ s.paneIds
  agents : ∀ id, s.side.mentions id = true → id ∈ s.paneIds

lemma Tidy.noOrphans {s : AppState F} (h : s.Tidy) : s.NoOrphans where
  once := h.nodup
  terminals id hid := (h.side.terminals id hid).imp_right PaneTables.transient_eq_false.mp
  editors := h.side.editors
  flows := h.side.flows
  agents id hid := (h.side.agents id hid).1

/-- what is left and what is new after a step that cleans up after itself -/
lemma Tidy.turns {s t : AppState F} (hs : s.Tidy) {gone extra : List PaneId} (h : Turns s t gone extra)
    (hextra : extra.Nodup) (hnew : ∀ id ∈ extra, id ∉ s.paneIds)
    (hside : t.side.Tidy fun id => (id ∈ extra ∨ id ∈ s.paneIds) ∧ id ∉ gone) : t.Tidy := by
  have hnodup : (extra ++ s.paneIds).Nodup := by
    refine List.nodup_append.mpr ⟨hextra, hs.nodup, fun id hid id' hid' heq => ?_⟩
    exact hnew id hid (heq ▸ hid')
  refine ⟨(List.nodup_append.mp (h.perm.nodup_iff.mpr hnodup)).2.1, hside.mono fun id hid => ?_⟩
  have hmem := h.perm.mem_iff.mpr (List.mem_append.mpr hid.1)
  exact (List.mem_append.mp hmem).resolve_left hid.2

/-- a new pane -/
lemma Tidy.brings {s t : AppState F} (hs : s.Tidy) {id : PaneId} (h : Turns s t [] [id]) (hnew : id ∉ s.paneIds)
    (hside : t.side.Tidy fun j => j = id ∨ j ∈ s.paneIds) : t.Tidy := by
  refine hs.turns h (List.nodup_singleton id) ?_ (hside.mono fun j hj => ⟨?_, List.not_mem_nil⟩)
  · intro j hj
    rwa [List.mem_singleton.mp hj]
  · exact hj.imp_left List.mem_singleton.mpr

/-- the panes `gone` torn down -/
lemma Tidy.loses {s t : AppState F} (hs : s.Tidy) {gone : List PaneId} (h : Turns s t gone [])
    (hside : t.side.Tidy fun j => j ∈ s.paneIds ∧ j ∉ gone) : t.Tidy := by
  refine hs.turns h List.nodup_nil ?_ (hside.mono fun j hj => hj.imp_left .inr)
  intro j hj
  cases hj

lemma Tidy.closes {s t : AppState F} (hs : s.Tidy) {ids : List PaneId} (h : Closes s t ids) : t.Tidy := by
  obtain ⟨gone, hturns, hside, -⟩ := h
  apply hs.loses hturns
  rw [hside]
  exact hs.side.closeAll gone

/-- only the attention moves -/
lemma Tidy.moved {s t : AppState F} (hs : s.Tidy) (h : Turns s t [] [])
    (hside : ∃ a, t.side = { s.side with attentionPaneIds := a }) : t.Tidy := by
  obtain ⟨a, hside⟩ := hside
  have hsame : PaneTables.Tidy { s.side with attentionPaneIds := a } (· ∈ s.paneIds) :=
    ⟨hs.side.sessions, hs.side.terminals, hs.side.editors, hs.side.flows, hs.side.agents⟩
  apply hs.loses h
  rw [hside]
  exact hsame.mono fun j hj => ⟨hj, List.not_mem_nil⟩

lemma mutateKillSessionId_tidy {s : AppState F} (hs : s.Tidy) (sessionId : Nat) :
    (s.mutateKillSessionId sessionId).Tidy := by
  obtain hsame | ⟨id, hid, hside, hsub, hmem⟩ := s.mutateKillSessionId_cases sessionId
  · rwa [hsame]
  · refine ⟨hs.nodup.sublist hsub, ?_⟩
    rw [hside]
    have hclear := (hs.side.terminals id (hs.side.sessions _ hid)).2
    exact (hs.side.killTerminal hclear).mono fun j hj => hmem j hj.1 hj.2

lemma mutateKillAllTerminals_tidy {s : AppState F} (hs : s.Tidy) (hclears : s.side.killAllClears = true) :
    s.mutateKillAllTerminals.Tidy := by
  refine ⟨?_, hs.side.killAll hclears _⟩
  rw [mutateKillAllTerminals_paneIds]
  exact List.nodup_nil

/-- a pane that is opened is tidy, whatever it is -/
lemma Opens.tidy {s : AppState F} {side : PaneTables} (h : s.Opens side) (hs : s.Tidy) (hfresh : s.nextId ∉ s.paneIds) :
    side.Tidy fun j => j = s.nextId ∨ j ∈ s.paneIds := by
  cases h with
  | terminal spawned => exact hs.side.spawn hfresh spawned
  | agent launch outcome => exact hs.side.launch hfresh launch outcome
  | editor editor => exact hs.side.addEditor hfresh editor
  | flow pane => exact hs.side.addFlow hfresh pane

end

section
variable {F : Type} [F32 F]

/-- the steps that clean up after themselves: a new pane has a new id; a tab is moved when no other one has
the id of the active tab; what is dropped in the centre of a pane has nothing kept of it; when all is killed there
is no flow and no tag of an agent, and when some panes are kept the others are neither editors nor flows and
have no tag -/
def KeepsTidy (s : AppState F) (op : Op) : Prop :=
  (∀ id ∈ s.minted op, id ∉ s.paneIds) ∧
    match op with
    | .reorder _ _ => s.SoleActive
    | .dropSplit source target .center =>
      ∀ idx p, s.dragSource source = some (some (idx, p)) → target ∈ s.live.ids →
        s.side.terminals.contains p.id = false ∧ s.side.transient p.id = false ∧ s.side.mentions p.id = false
    | .killAll | .closeUnsaved (.killAll _) => s.side.killAllClears = true
    | .closeUnsaved (.keepRunning (some kept) _) => ∀ id ∈ s.paneIds, id ∉ kept → s.side.leftBehind id = false
    | _ => True

/-- a pane dropped in the centre of another is lost, with nothing kept of it -/
lemma mutatePaneDropSplit_tidy {s t : AppState F} (hseated : s.Seated) (hs : s.Tidy) {source : String} {target : PaneId}
    (hkeeps : ∀ idx p, s.dragSource source = some (some (idx, p)) → target ∈ s.live.ids →
      s.side.terminals.contains p.id = false ∧ s.side.transient p.id = false ∧ s.side.mentions p.id = false)
    (h : s.mutatePaneDropSplit source target .center = some t) : t.Tidy := by
  obtain rfl | ⟨idx, p, tab, hdrag, htab, hidx, hcount, hp, htarget, ⟨-, rfl⟩ | ⟨hedge, -⟩⟩ := mutatePaneDropSplit_cases h
  · exact hs
  · obtain ⟨hterminal, htransient, hmentions⟩ := hkeeps idx p hdrag htarget
    apply hs.loses (dropTab_turns hseated htab hidx hcount hp)
    refine hs.side.restrict fun id hin hkept => ⟨hin, fun hmem => ?_⟩
    obtain rfl := List.mem_singleton.mp hmem
    rw [hterminal, htransient, hmentions] at hkept
    simp at hkept
  · exact absurd rfl hedge

/-- the agents of a workspace killed -/
lemma mutateKillWorkspaceAgents_tidy {s t : AppState F} (hseated : s.Seated) (hs : s.Tidy) {n : Nat}
    (h : s.mutateKillWorkspaceAgents n = some t) : t.Tidy := by
  obtain ⟨-, rfl⟩ | hprune := mutateKillWorkspaceAgents_cases h
  · exact hs
  · let agentIds := s.workspaceAgentPaneIds n
    have hagent : ∀ id ∈ agentIds, s.side.transient id = false := by
      intro id hid
      refine (hs.side.agents id ?_).2
      have hagent := (List.mem_filter.mp hid).2
      unfold isAgentPane PaneTables.isAgentPane at hagent
      unfold PaneTables.mentions
      rw [hagent]
      rfl
    have hcut : Seated { s with side := agentIds.foldl .killAgentTables s.side } :=
      ⟨hseated.workspace, hseated.tab, hseated.bare⟩
    obtain ⟨-, hperm, hside⟩ := pruneCloseLayoutToKeptPanes_perm hcut hprune
    refine ⟨hperm.nodup_iff.mpr (hs.nodup.filter _), ?_⟩
    rw [hside]
    refine ((hs.side.killAgents agentIds hagent).retainAgents _).mono fun id hid => ?_
    apply hperm.mem_iff.mpr
    refine List.mem_filter.mpr ⟨hid.1, ?_⟩
    have hout : agentIds.contains id = false := by
      rw [List.contains_eq_mem, decide_eq_false_iff_not]
      exact hid.2
    rw [hout, List.contains_eq_mem, decide_eq_true ((mem_closeAppPaneIds hseated).mpr hid.1)]
    rfl

/-- the app closed without the panes that are not kept, and not saved -/
lemma keepPanes_tidy {s t : AppState F} (hseated : s.Seated) (hs : s.Tidy) {kept : List PaneId}
    (hleft : ∀ id ∈ s.paneIds, id ∉ kept → s.side.leftBehind id = false) (h : s.keepPanes kept = some t) : t.Tidy := by
  let doomed := s.closeAppPaneIds.filter (!kept.contains ·)
  have hcut : Seated { s with side := doomed.foldl .stopTerminal s.side } :=
    ⟨hseated.workspace, hseated.tab, hseated.bare⟩
  obtain ⟨-, hperm, hside⟩ := pruneCloseLayoutToKeptPanes_perm hcut h
  refine ⟨hperm.nodup_iff.mpr (hs.nodup.filter _), ?_⟩
  rw [hside]
  refine (hs.side.keepPanes doomed (fun id hid => ?_) fun id hid hout => ?_).mono fun id hid => ?_
  · rw [List.mem_filter, Bool.not_eq_true', and_iff_right ((mem_closeAppPaneIds hseated).mpr hid)]
  · rw [List.contains_eq_mem, decide_eq_false_iff_not] at hout
    exact hleft id hid hout
  · exact hperm.mem_iff.mpr (List.mem_filter.mpr hid)

/-- a step that cleans up after itself leaves no table of a pane that is gone -/
lemma Tidy.step {s t : AppState F} (hseated : s.Seated) (hs : s.Tidy) {op : Op} (hkeeps : s.KeepsTidy op)
    (h : step s op = some t) : t.Tidy := by
  obtain ⟨hnew, hkeeps⟩ := hkeeps
  cases step_outcome hseated h with
  | moved hturns hside => exact hs.moved hturns hside
  | opened hminted hturns hside =>
    have hfresh := hnew s.nextId (hminted ▸ List.mem_cons_self)
    exact hs.brings hturns hfresh (hside.tidy hs hfresh)
  | closed hcloses => exact hs.closes hcloses
  | reordered h => exact hs.moved (mutateTabReorder_turns hseated hkeeps h).1 ⟨_, (mutateTabReorder_seated hseated h).2⟩
  | dropped h => exact mutatePaneDropSplit_tidy hseated hs hkeeps h
  | workspaceKilled n =>
    apply hs.loses (mutateKillWorkspaceTerminals_turns hseated n)
    rw [mutateKillWorkspaceTerminals_side]
    exact hs.side.killPanes _
  | agentsKilled h => exact mutateKillWorkspaceAgents_tidy hseated hs h
  | allKilled => exact mutateKillAllTerminals_tidy hs hkeeps
  | sessionKilled sessionId => exact mutateKillSessionId_tidy hs sessionId
  | unsaved h =>
    obtain ⟨u, ⟨toggles, rfl⟩, ⟨-, rfl⟩ | ⟨kept, remember, rfl, hprune⟩ | ⟨⟨remember, rfl⟩, rfl⟩⟩ :=
      finalizeCloseChoice_cases h
    · exact ⟨hs.nodup, hs.side⟩
    · exact keepPanes_tidy (s := { s with confirmDialog := none, toggles })
        ⟨hseated.workspace, hseated.tab, hseated.bare⟩ ⟨hs.nodup, hs.side⟩ hkeeps hprune
    · exact mutateKillAllTerminals_tidy (s := { s with confirmDialog := none, toggles }) ⟨hs.nodup, hs.side⟩ hkeeps

omit [F32 F] in
/-- a state without tables is tidy when its panes are distinct -/
lemma tidy_of_new {s : AppState F} (hnodup : s.paneIds.Nodup) (hside : s.side = .new) : s.Tidy := by
  refine ⟨hnodup, ?_⟩
  rw [hside]
  exact .new _

end
end AppState

section
variable {F : Type} [F32 F]

/-- **Main result.**  In a run from a tidy state whose steps all clean up after themselves, no state has a
table of a pane that is in no tab, or in two, or of two kinds. -/
theorem no_orphans {s : AppState F} (hseated : s.Seated) (hs : s.Tidy) {ops : List Op}
    (hops : Along step AppState.KeepsTidy s ops) : Throughout step AppState.NoOrphans s ops :=
  throughout_of_along (I := fun s => s.Seated ∧ s.Tidy)
    (fun _ _ _ hs hkeeps h => ⟨hs.1.step h, hs.2.step hs.1 hkeeps h⟩) (fun _ hs => hs.2.noOrphans) ⟨hseated, hs⟩ hops

end

/-- a flow tab, and everything killed -/
def killedFlow : List Op := [.addFlowTab ⟨"flow"⟩, .killAll]

/-- the flow stays, and no pane is left -/
theorem killedFlow_orphan :
    (∃ t, exec (@step ℚ Ui.exactF32) firstRun killedFlow = some t ∧ t.paneIds = [] ∧ t.side.flows.contains 2 = true) ∧
      ¬ Throughout (@step ℚ Ui.exactF32) AppState.NoOrphans firstRun killedFlow := by
  refine ⟨⟨_, rfl, by decide, by decide⟩, fun h => ?_⟩
  have hflow := ((h.2.2 _ rfl).1 _ rfl).flows 2 (by decide)
  revert hflow
  decide

theorem no_orphans_flow :
    Throughout (@step ℚ Ui.exactF32) AppState.NoOrphans firstRun [.addFlowTab ⟨"flow"⟩, .closeTab 1, .killAll] := by
  let _ := Ui.exactF32
  refine no_orphans (AppState.seedState_seated _ _ _) (AppState.tidy_of_new (by decide) rfl) ⟨⟨by decide, trivial⟩, ?_⟩
  intro t ht
  obtain rfl := Option.some.inj ht
  refine ⟨⟨by decide, trivial⟩, fun t ht => ?_⟩
  obtain rfl := Option.some.inj ht
  exact ⟨⟨by decide, by decide⟩, fun _ _ => trivial⟩

end TerminalManager.App
