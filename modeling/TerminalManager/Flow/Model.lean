import TerminalManager.Keybinds.Combo
import TerminalManager.Lib.Utf8

/-!
# The flow documents

A flow is a document that an agent wrote: nodes with the process they run in, and edges in the order of the calls.
What the views show is derived from its entries and its edges.  A document is checked as a whole when it is read, and
every problem of it is reported.

* `Flow`            nodes, edges, processes and entries;
* `Flow.validate`   the problems of a document;
* `Flow.Valid`      a document without problems;
* `validate_ok`     what is accepted is valid.
-/

namespace TerminalManager.FlowExplorer
open Editor (Line)
open Keybinds (trim)

def FLOW_SCHEMA_VERSION : Nat := 1

inductive NodeKind
  | function | event | state
deriving DecidableEq, Repr

def NodeKind.asStr : NodeKind → Line
  | .function => "function".toList
  | .event => "event".toList
  | .state => "state".toList

/-- how an event travels -/
inductive Carrier
  | ui | ipc | rpc | http | fs | process | network | inMemory
deriving DecidableEq, Repr

def Carrier.label : Carrier → Line
  | .ui => "UI".toList
  | .ipc => "IPC".toList
  | .rpc => "RPC".toList
  | .http => "HTTP".toList
  | .fs => "FS".toList
  | .process => "process".toList
  | .network => "network".toList
  | .inMemory => "in-memory".toList

inductive EdgeKind
  /-- a function to a function, or to an event it emits -/
  | calls
  /-- an event to the function that handles it -/
  | handledBy
  /-- a function to the reply -/
  | resolves
deriving DecidableEq, Repr

/-- a lane: where code runs -/
structure Process where
  id : Line
  label : Line
deriving DecidableEq, Repr

structure Location where
  file : Line
deriving DecidableEq, Repr

structure Node where
  id : Line
  name : Line
  kind : NodeKind
  process : Option Line
  /-- events only -/
  carrier : Option Carrier
  location : Option Location
deriving DecidableEq, Repr

/-- the ends are called `from` and `to` in the document -/
structure Edge where
  source : Line
  target : Line
  kind : EdgeKind
deriving DecidableEq, Repr

structure Flow where
  schemaVersion : Nat
  processes : List Process
  nodes : List Node
  /-- in the order of the calls -/
  edges : List Edge
  entries : List Line
deriving DecidableEq, Repr

inductive FlowValidationError
  | unsupportedSchemaVersion (found : Nat)
  | invalidId (kind : String) (id : Line)
  | duplicateNodeId (id : Line)
  | duplicateProcessId (id : Line)
  | unknownProcessRef (node process : Line)
  | unknownNodeRef (context : String) (id : Line)
  | emptyEntries
  | unsafeLocationPath (node file : Line)
deriving DecidableEq, Repr

def validId (id : Line) : Bool := trim id ≠ [] ∧ ∀ c ∈ id, c ≠ ';' ∧ c ≠ '\n' ∧ c ≠ '\r'

/-- relative, without a drive, and never upwards -/
def isSafeRelativePath (file : Line) : Bool :=
  if file = [] ∨ '\x00' ∈ file ∨ file.head? = some '/' then false
  else if (asBytes file)[1]? = some 0x3A then false
  else ¬ (file.splitOn '/').any (· = "..".toList)

namespace Flow

/-- the ids so far, and the problems -/
def checkProcess (s : List Line × List FlowValidationError) (process : Process) :
    List Line × List FlowValidationError :=
  if validId process.id = false then (s.1, s.2 ++ [.invalidId "process" process.id])
  else if process.id ∈ s.1 then (s.1, s.2 ++ [.duplicateProcessId process.id])
  else (process.id :: s.1, s.2)

def processErrors (processIds : List Line) (node : Node) : List FlowValidationError :=
  match node.process with
  | some process => if process ∈ processIds then [] else [.unknownProcessRef node.id process]
  | none => []

def locationErrors (node : Node) : List FlowValidationError :=
  match node.location with
  | some location => if isSafeRelativePath location.file then [] else [.unsafeLocationPath node.id location.file]
  | none => []

def checkNode (processIds : List Line) (s : List Line × List FlowValidationError) (node : Node) :
    List Line × List FlowValidationError :=
  -- nothing else is said of a node whose id is invalid
  if validId node.id = false then (s.1, s.2 ++ [.invalidId "node" node.id])
  else
    let s := if node.id ∈ s.1 then (s.1, s.2 ++ [.duplicateNodeId node.id]) else (node.id :: s.1, s.2)
    (s.1, s.2 ++ processErrors processIds node ++ locationErrors node)

def checkRef (context : String) (nodeIds : List Line) (errors : List FlowValidationError) (id : Line) :
    List FlowValidationError :=
  if id ∈ nodeIds then errors else errors ++ [.unknownNodeRef context id]

/-- every problem, not only the first -/
def validate (flow : Flow) : Except (List FlowValidationError) Unit :=
  let errors := if flow.schemaVersion ≠ FLOW_SCHEMA_VERSION then [.unsupportedSchemaVersion flow.schemaVersion] else []
  let processes := flow.processes.foldl checkProcess ([], errors)
  let nodes := flow.nodes.foldl (checkNode processes.1) ([], processes.2)
  let errors := flow.edges.foldl (fun errors e => [e.source, e.target].foldl (checkRef "edge" nodes.1) errors) nodes.2
  let errors := if flow.entries = [] then errors ++ [.emptyEntries] else errors
  let errors := flow.entries.foldl (checkRef "entries" nodes.1) errors
  if errors = [] then .ok () else .error errors

def node (flow : Flow) (id : Line) : Option Node := flow.nodes.find? fun n => n.id = id

def process (flow : Flow) (id : Line) : Option Process := flow.processes.find? fun p => p.id = id

/-- the edges that leave a node, with their places in the list -/
def outgoing (flow : Flow) (id : Line) : List (Edge × Nat) := flow.edges.zipIdx.filter fun e => e.1.source = id

/-- a document without problems -/
structure Valid (flow : Flow) : Prop where
  version : flow.schemaVersion = FLOW_SCHEMA_VERSION
  processIds : (flow.processes.map Process.id).Nodup
  nodeIds : (flow.nodes.map Node.id).Nodup
  ids : (∀ p ∈ flow.processes, validId p.id = true) ∧ ∀ n ∈ flow.nodes, validId n.id = true
  declared : ∀ n ∈ flow.nodes, ∀ p, n.process = some p → p ∈ flow.processes.map Process.id
  safe : ∀ n ∈ flow.nodes, ∀ l, n.location = some l → isSafeRelativePath l.file = true
  edges : ∀ e ∈ flow.edges, e.source ∈ flow.nodes.map Node.id ∧ e.target ∈ flow.nodes.map Node.id
  entries : flow.entries ≠ [] ∧ ∀ id ∈ flow.entries, id ∈ flow.nodes.map Node.id

/-! ## what a check without problems has found -/

variable {flow : Flow} {s : List Line × List FlowValidationError} {processIds nodeIds : List Line}
  {errors : List FlowValidationError} {context : String}

lemma checkProcess_ok {p : Process} (h : (checkProcess s p).2 = []) :
    s.2 = [] ∧ validId p.id = true ∧ p.id ∉ s.1 ∧ (checkProcess s p).1 = p.id :: s.1 := by
  unfold checkProcess at h ⊢
  by_cases hid : validId p.id = false
  · rw [if_pos hid] at h
    simp at h
  by_cases hmem : p.id ∈ s.1
  · rw [if_neg hid, if_pos hmem] at h
    simp at h
  rw [if_neg hid, if_neg hmem] at h ⊢
  exact ⟨h, (Bool.not_eq_false _).mp hid, hmem, rfl⟩

lemma checkProcesses_ok {ps : List Process} (h : (ps.foldl checkProcess s).2 = []) :
    s.2 = [] ∧ (∀ p ∈ ps, validId p.id = true ∧ p.id ∉ s.1) ∧ (ps.map Process.id).Nodup ∧
      ∀ id, id ∈ (ps.foldl checkProcess s).1 ↔ id ∈ s.1 ∨ id ∈ ps.map Process.id := by
  induction ps generalizing s with
  | nil => exact ⟨h, (fun _ h => nomatch h), List.nodup_nil, fun _ => by simp⟩
  | cons p ps ih =>
    obtain ⟨herrors, hps, hnodup, hids⟩ := ih h
    obtain ⟨hs, hvalid, hnew, hone⟩ := checkProcess_ok herrors
    rw [hone] at hps hids
    refine ⟨hs, ?_, ?_, ?_⟩
    · intro q hq
      rcases List.mem_cons.mp hq with rfl | hq
      · exact ⟨hvalid, hnew⟩
      · exact ⟨(hps q hq).1, fun hmem => (hps q hq).2 (List.mem_cons_of_mem _ hmem)⟩
    · refine List.nodup_cons.mpr ⟨?_, hnodup⟩
      intro hmem
      obtain ⟨q, hq, heq⟩ := List.mem_map.mp hmem
      exact (hps q hq).2 (heq ▸ List.mem_cons_self)
    · intro id
      rw [List.foldl_cons, hids, List.map_cons, List.mem_cons, List.mem_cons]
      tauto

lemma checkNode_ok {n : Node} (h : (checkNode processIds s n).2 = []) :
    s.2 = [] ∧ validId n.id = true ∧ n.id ∉ s.1 ∧ (checkNode processIds s n).1 = n.id :: s.1 ∧
      processErrors processIds n = [] ∧ locationErrors n = [] := by
  unfold checkNode at h ⊢
  by_cases hid : validId n.id = false
  · rw [if_pos hid] at h
    simp at h
  by_cases hmem : n.id ∈ s.1
  · rw [if_neg hid, if_pos hmem] at h
    simp at h
  rw [if_neg hid, if_neg hmem] at h ⊢
  obtain ⟨hfirst, hlocation⟩ := List.append_eq_nil_iff.mp h
  obtain ⟨hs, hprocess⟩ := List.append_eq_nil_iff.mp hfirst
  exact ⟨hs, (Bool.not_eq_false _).mp hid, hmem, rfl, hprocess, hlocation⟩

lemma checkNodes_ok {ns : List Node} (h : (ns.foldl (checkNode processIds) s).2 = []) :
    s.2 = [] ∧ (∀ n ∈ ns, (validId n.id = true ∧ n.id ∉ s.1) ∧ processErrors processIds n = [] ∧
      locationErrors n = []) ∧ (ns.map Node.id).Nodup ∧
      ∀ id, id ∈ (ns.foldl (checkNode processIds) s).1 ↔ id ∈ s.1 ∨ id ∈ ns.map Node.id := by
  induction ns generalizing s with
  | nil => exact ⟨h, (fun _ h => nomatch h), List.nodup_nil, fun _ => by simp⟩
  | cons n ns ih =>
    obtain ⟨herrors, hns, hnodup, hids⟩ := ih h
    obtain ⟨hs, hvalid, hnew, hone, hrest⟩ := checkNode_ok herrors
    rw [hone] at hns hids
    refine ⟨hs, ?_, ?_, ?_⟩
    · intro m hm
      rcases List.mem_cons.mp hm with rfl | hm
      · exact ⟨⟨hvalid, hnew⟩, hrest⟩
      · exact ⟨⟨(hns m hm).1.1, fun hmem => (hns m hm).1.2 (List.mem_cons_of_mem _ hmem)⟩, (hns m hm).2⟩
    · refine List.nodup_cons.mpr ⟨?_, hnodup⟩
      intro hmem
      obtain ⟨m, hm, heq⟩ := List.mem_map.mp hmem
      exact (hns m hm).1.2 (heq ▸ List.mem_cons_self)
    · intro id
      rw [List.foldl_cons, hids, List.map_cons, List.mem_cons, List.mem_cons]
      tauto

lemma checkRefs_ok {ids : List Line} (h : ids.foldl (checkRef context nodeIds) errors = []) :
    errors = [] ∧ ∀ id ∈ ids, id ∈ nodeIds := by
  induction ids generalizing errors with
  | nil => exact ⟨h, (fun _ h => nomatch h)⟩
  | cons id ids ih =>
    obtain ⟨hone, hids⟩ := ih h
    unfold checkRef at hone
    by_cases hmem : id ∈ nodeIds
    · rw [if_pos hmem] at hone
      exact ⟨hone, List.forall_mem_cons.mpr ⟨hmem, hids⟩⟩
    · rw [if_neg hmem] at hone
      simp at hone

lemma checkEdges_ok {es : List Edge}
    (h : es.foldl (fun errors e => [e.source, e.target].foldl (checkRef context nodeIds) errors) errors = []) :
    errors = [] ∧ ∀ e ∈ es, e.source ∈ nodeIds ∧ e.target ∈ nodeIds := by
  induction es generalizing errors with
  | nil => exact ⟨h, (fun _ h => nomatch h)⟩
  | cons e es ih =>
    obtain ⟨hone, hes⟩ := ih h
    obtain ⟨herrors, hends⟩ := checkRefs_ok hone
    exact ⟨herrors, List.forall_mem_cons.mpr ⟨⟨hends _ (by simp), hends _ (by simp)⟩, hes⟩⟩

lemma of_processErrors {n : Node} (h : processErrors processIds n = []) {p : Line} (hp : n.process = some p) :
    p ∈ processIds := by
  simp only [processErrors, hp] at h
  by_contra hmem
  rw [if_neg hmem] at h
  cases h

lemma of_locationErrors {n : Node} (h : locationErrors n = []) {l : Location} (hl : n.location = some l) :
    isSafeRelativePath l.file = true := by
  simp only [locationErrors, hl] at h
  by_contra hsafe
  rw [if_neg hsafe] at h
  cases h

lemma errors_of_ok
    (h : (if errors = [] then .ok () else .error errors : Except (List FlowValidationError) Unit) = .ok ()) :
    errors = [] := by
  by_contra hne
  rw [if_neg hne] at h
  cases h

/-- a document that is accepted has no problem -/
theorem validate_ok (h : flow.validate = .ok ()) : flow.Valid := by
  have herrors := errors_of_ok h
  obtain ⟨hrest, hentries⟩ := checkRefs_ok herrors
  have hsome : flow.entries ≠ [] := by
    intro hnil
    rw [if_pos hnil] at hrest
    simp at hrest
  rw [if_neg hsome] at hrest
  obtain ⟨hnodes, hedges⟩ := checkEdges_ok hrest
  obtain ⟨hprocesses, hnode, hnodeIds, hnodeMem⟩ := checkNodes_ok hnodes
  obtain ⟨hversion, hprocess, hprocessIds, hprocessMem⟩ := checkProcesses_ok hprocesses
  simp only [hnodeMem, List.not_mem_nil, false_or] at hentries hedges hnode
  refine ⟨?_, hprocessIds, hnodeIds, ⟨fun p hp => (hprocess p hp).1, fun n hn => (hnode n hn).1.1⟩, ?_, ?_, hedges,
    hsome, hentries⟩
  · by_contra hne
    rw [if_pos hne] at hversion
    cases hversion
  · intro n hn p hp
    have hmem := of_processErrors (hnode n hn).2.1 hp
    rwa [hprocessMem, or_iff_right List.not_mem_nil] at hmem
  · intro n hn l hl
    exact of_locationErrors (hnode n hn).2.2 hl

/-! ## nodes and edges by id -/

lemma node_isSome {id : Line} : (flow.node id).isSome = true ↔ id ∈ flow.nodes.map Node.id := by
  simp [node, List.find?_isSome]

lemma node_id {id : Line} {n : Node} (h : flow.node id = some n) : n.id = id := by
  have := List.find?_some h
  exact of_decide_eq_true this

lemma mem_outgoing {id : Line} {e : Edge} : (∃ i, (e, i) ∈ flow.outgoing id) ↔ e ∈ flow.edges ∧ e.source = id := by
  simp only [outgoing, List.mem_filter, decide_eq_true_eq]
  constructor
  · rintro ⟨i, hmem, hid⟩
    exact ⟨(List.mem_zipIdx' hmem).2 ▸ List.getElem_mem _, hid⟩
  · rintro ⟨hmem, hid⟩
    obtain ⟨i, hi⟩ := List.mem_iff_getElem?.mp hmem
    exact ⟨i, List.mem_zipIdx_iff_getElem?.mpr hi, hid⟩

end Flow
end TerminalManager.FlowExplorer
