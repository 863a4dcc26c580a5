import Mathlib.Algebra.Order.Field.Rat
import TerminalManager.Flow.Model
import TerminalManager.Lib.Table
import TerminalManager.Lib.Worklist

/-!
# The graph of a flow

Functions are boxes in the lane of their process, one row for each distance from the roots, and boxes that share a lane
and a row are stacked.  An event folds into the edge between its emitter and its handler.  The numbers are exact; what is
left out of an edge is the text of its path, which is drawn from the curve.

* `layout`             the lanes, the boxes and the edges;
* `walk`               the boxes in the order in which they are found, and the links between them;
* `linksOf`            the links from a box, one for each plain edge and one for each handler of a folded event;
* `walk_spec`          the walk ends, its boxes are a worklist, and with no depth filter its links are those of its boxes.
-/

namespace TerminalManager.FlowExplorer
open Editor (Line)

def LANE_WIDTH : ℚ := 260
def LANE_GAP : ℚ := 32
def LANE_HEADER : ℚ := 48
def NODE_WIDTH : ℚ := 220
def NODE_HEIGHT : ℚ := 56
def NODE_STACK_GAP : ℚ := 10
def ROW_GAP : ℚ := 44
def PADDING : ℚ := 16

/-- how many hops from the root stay visible -/
inductive DepthFilter
  | one | two | three | all
deriving DecidableEq, Repr

def DepthFilter.limit : DepthFilter → Option Nat
  | .one => some 1
  | .two => some 2
  | .three => some 3
  | .all => none

abbrev Point := ℚ × ℚ

structure Rect where
  x : ℚ
  y : ℚ
  w : ℚ
  h : ℚ
deriving DecidableEq, Repr

namespace Rect

def topCenter (r : Rect) : Point := (r.x + r.w / 2, r.y)

def bottomCenter (r : Rect) : Point := (r.x + r.w / 2, r.y + r.h)

def intersects (r other : Rect) : Bool :=
  r.x < other.x + other.w ∧ other.x < r.x + r.w ∧ r.y < other.y + other.h ∧ other.y < r.y + r.h

end Rect

structure LaneGeom where
  processId : Line
  label : Line
  /-- the place of the process; the one after the last for the lane of the undeclared -/
  palette : Nat
  rect : Rect
deriving DecidableEq, Repr

structure NodeGeom where
  nodeId : Line
  depth : Nat
  lane : Nat
  rect : Rect
deriving DecidableEq, Repr

/-- the curve of an edge -/
structure Curve where
  p0 : Point
  p1 : Point
  p2 : Point
  p3 : Point
deriving DecidableEq, Repr

structure EdgeGeom where
  source : Line
  target : Line
  /-- the event that is folded into the edge -/
  eventId : Option Line
  number : Option Nat
  label : Option Line
  dotted : Bool
  curve : Curve
  badge : Point
deriving DecidableEq, Repr

structure GraphLayout where
  lanes : List LaneGeom
  nodes : List NodeGeom
  edges : List EdgeGeom
  width : ℚ
  height : ℚ
deriving DecidableEq, Repr

structure Link where
  source : Line
  target : Line
  eventId : Option Line
  dotted : Bool
deriving DecidableEq, Repr

/-! ## the walk -/

/-- the boxes that are found with their depths, those that wait, and the links -/
structure Walk where
  depthOf : Table Line Nat
  order : List Line
  queue : List Line
  links : List Link
deriving Repr

namespace Walk

def visit (flow : Flow) (id : Line) (depth : Nat) (w : Walk) : Walk :=
  match flow.node id with
  | none => w
  | some node =>
    if w.depthOf.contains node.id then w
    else
      { w with
        depthOf := w.depthOf.insert node.id depth
        order := w.order ++ [node.id]
        queue := w.queue ++ [node.id] }

def link (l : Link) (w : Walk) : Walk := { w with links := w.links ++ [l] }

end Walk

/-- who handles an event, unless another event leads to it -/
def handlers (flow : Flow) (source target : Node) : List Line :=
  if target.kind = .event ∧ source.kind ≠ .event then
    ((flow.outgoing target.id).filter fun e => e.1.kind = .handledBy ∧ (flow.node e.1.target).isSome).map
      fun e => e.1.target
  else []

/-- an edge from a box -/
def followEdge (flow : Flow) (source : Node) (next : Nat) (w : Walk) (e : Edge) : Walk :=
  match flow.node e.target with
  | none => w
  | some target =>
    let dotted := decide (e.kind = .resolves)
    match handlers flow source target with
    | [] =>
      -- a plain call, an event without a handler, or what follows an event
      let eventId := if source.kind = .event then some source.id else none
      (w.link ⟨source.id, target.id, eventId, dotted⟩).visit flow target.id next
    | handlers => handlers.foldl (fun w handler =>
        (w.link ⟨source.id, handler, some target.id, dotted⟩).visit flow handler next) w

/-- the first box that waits is looked at -/
def Walk.pop (flow : Flow) (limit : Option Nat) (w : Walk) : Option Walk :=
  match w.queue with
  | [] => some w
  | id :: queue => do
    let d ← w.depthOf.get id
    let w := { w with queue }
    let next := d + 1
    if limit.any (· < next) then some w
    else
      match flow.node id with
      | none => some w
      | some source => some ((flow.outgoing id).foldl (fun w e => followEdge flow source next w e.1) w)

def Walk.run (flow : Flow) (limit : Option Nat) : Nat → Walk → Option Walk
  | 0, w => some w
  | fuel + 1, w => (w.pop flow limit).bind (run flow limit fuel)

def walkRoots (flow : Flow) (roots : List Line) : Walk :=
  roots.foldl (fun w root => w.visit flow root 0) ⟨∅, [], [], []⟩

/-- the loop; every node has one turn at most -/
def walk (flow : Flow) (roots : List Line) (limit : Option Nat) : Option Walk :=
  (walkRoots flow roots).run flow limit flow.nodes.length

/-! ## lanes and rows -/

def laneOfNode (flow : Flow) (id : Line) : Line :=
  (((flow.node id).bind Node.process).filter fun p => (flow.process p).isSome).getD "outside".toList

/-- the lanes that hold a box, and one for the boxes without a process; they are placed later -/
def lanesOf (flow : Flow) (order : List Line) : List LaneGeom :=
  ((flow.processes.zipIdx.filter fun p => order.any fun id => laneOfNode flow id = p.1.id).map fun p =>
    ⟨p.1.id, p.1.label, p.2, ⟨0, 0, 0, 0⟩⟩) ++
  if order.any fun id => (flow.process (laneOfNode flow id)).isNone then
    [⟨"outside".toList, "outside".toList, flow.processes.length, ⟨0, 0, 0, 0⟩⟩]
  else []

def laneIndex (flow : Flow) (lanes : List LaneGeom) (id : Line) : Nat :=
  (lanes.findIdx? fun l => l.processId = laneOfNode flow id).getD 0

structure Placement where
  id : Line
  lane : Nat
  depth : Nat
  /-- how many boxes are above in the stack -/
  slot : Nat
deriving DecidableEq, Repr

/-- how many boxes there are in a lane and a row, and the placements -/
structure Stacks where
  counts : Table (Nat × Nat) Nat
  placements : List Placement
deriving Repr

def Stacks.put (flow : Flow) (lanes : List LaneGeom) (depthOf : Table Line Nat) (s : Stacks) (id : Line) :
    Option Stacks := do
  let lane := laneIndex flow lanes id
  let d ← depthOf.get id
  let slot := (s.counts.get (lane, d)).getD 0
  some ⟨s.counts.insert (lane, d) (slot + 1), s.placements ++ [⟨id, lane, d, slot⟩]⟩

def stackHeight (count : Nat) : ℚ := count * NODE_HEIGHT + (count - 1 : Nat) * NODE_STACK_GAP

/-- a row grows to its tallest stack, in whatever order the stacks come -/
def growRow (heights : List ℚ) (e : (Nat × Nat) × Nat) : Option (List ℚ) := do
  let height ← heights[e.1.2]?
  some (heights.set e.1.2 (max height (stackHeight e.2)))

/-- where the rows are, and where the next one would be -/
def rowTops (heights : List ℚ) : List ℚ × ℚ :=
  heights.foldl (fun s height => (s.1 ++ [s.2], s.2 + (height + ROW_GAP))) ([], PADDING + LANE_HEADER)

def laneRect (height : ℚ) (i : Nat) : Rect :=
  ⟨PADDING + i * (LANE_WIDTH + LANE_GAP), PADDING, LANE_WIDTH, height - PADDING * 2⟩

def nodeRect (top : ℚ) (lane slot : Nat) : Rect :=
  ⟨PADDING + lane * (LANE_WIDTH + LANE_GAP) + (LANE_WIDTH - NODE_WIDTH) / 2,
    top + slot * (NODE_HEIGHT + NODE_STACK_GAP), NODE_WIDTH, NODE_HEIGHT⟩

def placeNode (tops : List ℚ) (p : Placement) : Option NodeGeom := do
  let top ← tops[p.depth]?
  some ⟨p.id, p.depth, p.lane, nodeRect top p.lane p.slot⟩

/-! ## edges -/

/-- the point of a curve at `t` -/
def cubicPoint (c : Curve) (t : ℚ) : Point :=
  let u := 1 - t
  let a := u * u * u
  let b := 3 * u * u * t
  let e := 3 * u * t * t
  let d := t * t * t
  (a * c.p0.1 + b * c.p1.1 + e * c.p2.1 + d * c.p3.1, a * c.p0.2 + b * c.p1.2 + e * c.p2.2 + d * c.p3.2)

def curveOf (source target : Rect) : Curve :=
  let s := source.bottomCenter
  let t := target.topCenter
  let reach := max |t.2 - s.2| 48 * (2 / 5)
  ⟨s, (s.1, s.2 + reach), (t.1, t.2 - reach), t⟩

def rectOf (nodes : List NodeGeom) (id : Line) : Option Rect := (nodes.find? fun n => n.nodeId = id).map NodeGeom.rect

def eventLabel (event : Node) : Line :=
  ((event.carrier.map Carrier.label).getD event.kind.asStr) ++ " · ".toList ++ event.name

/-- the number so far, and the edges -/
def drawLink (flow : Flow) (nodes : List NodeGeom) (s : Nat × List EdgeGeom) (l : Link) : Nat × List EdgeGeom :=
  match rectOf nodes l.source, rectOf nodes l.target with
  | some source, some target =>
    let curve := curveOf source target
    match l.eventId.bind flow.node with
    | some event =>
      -- the number has 32 bits
      let number := (s.1 + 1) % 4294967296
      (number, s.2 ++ [⟨l.source, l.target, l.eventId, some number, some (eventLabel event), l.dotted, curve,
        cubicPoint curve (1 / 2)⟩])
    | none => (s.1, s.2 ++ [⟨l.source, l.target, l.eventId, none, none, l.dotted, curve, cubicPoint curve (1 / 2)⟩])
  | _, _ => s

/-- the part of the graph that is reached from the roots -/
def layout (flow : Flow) (roots : List Line) (depth : DepthFilter) : Option GraphLayout := do
  let w ← walk flow roots depth.limit
  let lanes := lanesOf flow w.order
  let depths ← w.order.mapM w.depthOf.get
  let maxDepth := depths.max?.getD 0
  let stacked ← w.order.foldlM (Stacks.put flow lanes w.depthOf) ⟨∅, []⟩
  let rowHeights ← stacked.counts.entries.foldlM growRow (List.replicate (maxDepth + 1) 0)
  let tops := rowTops rowHeights
  let height := if w.order = [] then PADDING * 2 + LANE_HEADER else tops.2 - ROW_GAP + PADDING
  let laneCount := max lanes.length 1
  let width := PADDING * 2 + laneCount * LANE_WIDTH + (laneCount - 1 : Nat) * LANE_GAP
  let lanes := lanes.mapIdx fun i lane => { lane with rect := laneRect height i }
  let nodes ← stacked.placements.mapM (placeNode tops.1)
  let edges := (w.links.foldl (drawLink flow nodes) (0, [])).2
  some ⟨lanes, nodes, edges, width, height⟩

/-! ## what the walk finds -/

/-- the links of an edge from a box -/
def edgeLinks (flow : Flow) (source : Node) (e : Edge) : List Link :=
  match flow.node e.target with
  | none => []
  | some target =>
    match handlers flow source target with
    | [] => [⟨source.id, target.id, if source.kind = .event then some source.id else none, e.kind = .resolves⟩]
    | handlers => handlers.map fun handler => ⟨source.id, handler, some target.id, e.kind = .resolves⟩

/-- the links from a box -/
def linksOf (flow : Flow) (id : Line) : List Link :=
  match flow.node id with
  | none => []
  | some source => (flow.outgoing id).flatMap fun e => edgeLinks flow source e.1

/-- the boxes that the links from a box lead to -/
def targetsOf (flow : Flow) (id : Line) : List Line := (linksOf flow id).map Link.target

def knownRoots (flow : Flow) (roots : List Line) : List Line := roots.filter fun r => (flow.node r).isSome

/-- a link is drawn, and its target is a box -/
def Walk.record (flow : Flow) (next : Nat) (w : Walk) (l : Link) : Walk := (w.link l).visit flow l.target next

def Walk.list (w : Walk) : Worklist Line := ⟨w.order, w.queue⟩

section
variable {flow : Flow} {w : Walk} {source target : Node} {id : Line} {next : Nat} {done : List Line}

lemma mem_handlers {h : Line} : h ∈ handlers flow source target ↔ target.kind = .event ∧ source.kind ≠ .event ∧
    (∃ e ∈ flow.edges, e.source = target.id ∧ e.target = h ∧ e.kind = .handledBy) ∧ (flow.node h).isSome := by
  unfold handlers
  by_cases hfold : target.kind = .event ∧ source.kind ≠ .event
  · rw [if_pos hfold, List.mem_map]
    simp only [List.mem_filter, decide_eq_true_eq]
    constructor
    · rintro ⟨e, ⟨hmem, hkind, hsome⟩, rfl⟩
      obtain ⟨hedge, hsource⟩ := Flow.mem_outgoing.mp ⟨e.2, hmem⟩
      exact ⟨hfold.1, hfold.2, ⟨e.1, hedge, hsource, rfl, hkind⟩, hsome⟩
    · rintro ⟨-, -, ⟨e, hedge, hsource, rfl, hkind⟩, hsome⟩
      obtain ⟨i, hi⟩ := Flow.mem_outgoing.mpr ⟨hedge, hsource⟩
      exact ⟨(e, i), ⟨hi, hkind, hsome⟩, rfl⟩
  · rw [if_neg hfold]
    refine ⟨fun h => (nomatch h), fun h => (hfold ⟨h.1, h.2.1⟩).elim⟩

lemma followEdge_eq (flow : Flow) (source : Node) (next : Nat) (w : Walk) (e : Edge) :
    followEdge flow source next w e = (edgeLinks flow source e).foldl (Walk.record flow next) w := by
  unfold followEdge edgeLinks
  cases hnode : flow.node e.target with
  | none => rfl
  | some target =>
    cases hhandlers : handlers flow source target with
    | nil =>
      simp only [hhandlers]
      rfl
    | cons h hs =>
      simp only [hhandlers, List.foldl_map]
      rfl

lemma edgeLinks_known {e : Edge} {l : Link} (h : l ∈ edgeLinks flow source e) : (flow.node l.target).isSome := by
  unfold edgeLinks at h
  cases hnode : flow.node e.target with
  | none =>
    rw [hnode] at h
    nomatch h
  | some target =>
    simp only [hnode] at h
    cases hhandlers : handlers flow source target with
    | nil =>
      rw [hhandlers] at h
      cases List.mem_singleton.mp h
      exact Flow.node_id hnode ▸ hnode ▸ rfl
    | cons h' hs =>
      simp only [hhandlers] at h
      obtain ⟨handler, hmem, rfl⟩ := List.mem_map.mp h
      exact (mem_handlers.mp (hhandlers ▸ hmem)).2.2.2

/-- the boxes have depths, and nothing else has -/
def Walk.Keys (w : Walk) : Prop := ∀ id, w.depthOf.contains id = true ↔ id ∈ w.order

/-- **Step lemma**: a visit adds a known node, once. -/
lemma visit_spec (hkeys : w.Keys) (hknown : (flow.node id).isSome) : (w.visit flow id next).Keys ∧
    (w.visit flow id next).list = w.list.add id ∧ (w.visit flow id next).links = w.links := by
  obtain ⟨node, hnode⟩ := Option.isSome_iff_exists.mp hknown
  have hid := Flow.node_id hnode
  simp only [Walk.visit, hnode, hid]
  by_cases hmem : id ∈ w.order
  · rw [if_pos ((hkeys id).mpr hmem)]
    exact ⟨hkeys, (if_pos hmem).symm, rfl⟩
  · rw [if_neg (mt (hkeys id).mp hmem)]
    refine ⟨?_, (if_neg hmem).symm, rfl⟩
    intro x
    rw [Table.contains_insert, Bool.or_eq_true, hkeys x]
    simp [or_comm]

lemma record_all (ls : List Link) (hkeys : w.Keys) (hknown : ∀ l ∈ ls, (flow.node l.target).isSome) :
    (ls.foldl (Walk.record flow next) w).Keys ∧
    (ls.foldl (Walk.record flow next) w).list = (ls.map Link.target).foldl Worklist.add w.list ∧
    (ls.foldl (Walk.record flow next) w).links = w.links ++ ls := by
  induction ls generalizing w with
  | nil => exact ⟨hkeys, rfl, (List.append_nil _).symm⟩
  | cons l ls ih =>
    have hlinked : (w.link l).Keys := hkeys
    obtain ⟨hkeys', hlist, hlinks⟩ := @visit_spec flow _ _ next hlinked (hknown l List.mem_cons_self)
    obtain ⟨hkeys'', hlist', hlinks'⟩ := ih hkeys' fun l' hl' => hknown l' (List.mem_cons_of_mem l hl')
    refine ⟨hkeys'', hlist'.trans ?_, hlinks'.trans ?_⟩
    · rw [hlist]
      rfl
    · rw [hlinks, Walk.link, List.append_assoc]
      rfl

lemma linksOf_known {l : Link} (h : l ∈ linksOf flow id) : (flow.node l.target).isSome := by
  unfold linksOf at h
  cases hnode : flow.node id with
  | none =>
    rw [hnode] at h
    nomatch h
  | some source =>
    rw [hnode] at h
    obtain ⟨e, -, hl⟩ := List.mem_flatMap.mp h
    exact edgeLinks_known hl

/-- the loop over the edges of a box records its links -/
lemma follow_all (hnode : flow.node id = some source) (w : Walk) :
    (flow.outgoing id).foldl (fun w e => followEdge flow source next w e.1) w =
      (linksOf flow id).foldl (Walk.record flow next) w := by
  simp only [linksOf, hnode, followEdge_eq, List.foldl_flatMap]

/-- the walk so far: what is done, what waits, and the links -/
structure Walks (flow : Flow) (roots : List Line) (limit : Option Nat) (w : Walk) (done : List Line) : Prop where
  keys : w.Keys
  known : w.order ⊆ flow.nodes.map Node.id
  ok : w.list.Ok done
  /-- with no limit nothing is left out -/
  closed : limit = none → w.list.Closed (targetsOf flow) (knownRoots flow roots) done ∧
    w.links = done.flatMap (linksOf flow)

variable {roots rest : List Line} {limit : Option Nat}

lemma known_of_isSome (h : (flow.node id).isSome) : id ∈ flow.nodes.map Node.id := Flow.node_isSome.mp h

/-- the links of a box that has its turn, and nothing else -/
lemma Walks.turn (h : Walks flow roots limit w done) (hqueue : w.queue = id :: rest) (next : Nat) (ls : List Link)
    (hls : ∀ l ∈ ls, (flow.node l.target).isSome) (hlimit : limit = none → ls = linksOf flow id) :
    Walks flow roots limit (ls.foldl (Walk.record flow next) { w with queue := rest }) (done ++ [id]) := by
  have hkeys : Walk.Keys { w with queue := rest } := h.keys
  obtain ⟨hkeys', hlist, hlinks⟩ := @record_all flow _ next ls hkeys hls
  have hturn : (ls.foldl (Walk.record flow next) { w with queue := rest }).list =
      w.list.turn (ls.map Link.target) := by
    rw [hlist, Worklist.turn]
    simp only [Walk.list, hqueue, List.tail_cons]
  refine ⟨hkeys', ?_, ?_, ?_⟩
  · intro x hx
    have hfound : x ∈ (w.list.turn (ls.map Link.target)).found := hturn ▸ hx
    rcases (Worklist.found_turn _ _).mp hfound with hx | hx
    · exact h.known hx
    · obtain ⟨l, hl, rfl⟩ := List.mem_map.mp hx
      exact known_of_isSome (hls l hl)
  · rw [hturn]
    exact h.ok.turn hqueue _
  · intro hnone
    obtain ⟨hclosed, hlinks'⟩ := h.closed hnone
    refine ⟨?_, ?_⟩
    · rw [hturn, hlimit hnone]
      exact hclosed.turn hqueue
    · rw [hlinks, hlimit hnone, List.flatMap_append, List.flatMap_singleton]
      exact congrArg (· ++ linksOf flow id) hlinks'

/-- **Step lemma**: the first box that waits has its turn. -/
lemma pop_spec (h : Walks flow roots limit w done) (hqueue : w.queue = id :: rest) :
    ∃ w', w.pop flow limit = some w' ∧ Walks flow roots limit w' (done ++ [id]) := by
  have hmem : id ∈ w.order := by
    have hfound : w.order = done ++ w.queue := h.ok.found
    rw [hfound, hqueue]
    exact List.mem_append_right _ List.mem_cons_self
  obtain ⟨d, hd⟩ := Option.isSome_iff_exists.mp ((h.keys id).mpr hmem)
  simp only [Walk.pop, hqueue, hd, Option.bind_eq_bind, Option.bind_some]
  by_cases hcut : limit.any (· < d + 1) = true
  · rw [if_pos hcut]
    refine ⟨_, rfl, h.turn hqueue (d + 1) [] (fun _ h => absurd h List.not_mem_nil) ?_⟩
    rintro rfl
    cases hcut
  · rw [if_neg hcut]
    cases hnode : flow.node id with
    | none =>
      have hnil : linksOf flow id = [] := by simp only [linksOf, hnode]
      exact ⟨_, rfl, h.turn hqueue (d + 1) [] (fun _ h => absurd h List.not_mem_nil) fun _ => hnil.symm⟩
    | some source =>
      refine ⟨_, rfl, ?_⟩
      rw [follow_all hnode]
      exact h.turn hqueue (d + 1) (linksOf flow id) (fun l hl => linksOf_known hl) fun _ => rfl

lemma run_of_nil (hqueue : w.queue = []) (fuel : Nat) : w.run flow limit fuel = some w := by
  induction fuel with
  | zero => rfl
  | succ fuel ih =>
    have hpop : w.pop flow limit = some w := by simp only [Walk.pop, hqueue]
    rw [Walk.run, hpop]
    exact ih

/-- **Run lemma**: the loop stops when nothing waits, or when the fuel is used up. -/
lemma run_spec (fuel : Nat) (h : Walks flow roots limit w done) : ∃ w' done', w.run flow limit fuel = some w' ∧
    Walks flow roots limit w' done' ∧ (w'.queue = [] ∨ done'.length = done.length + fuel) := by
  induction fuel generalizing w done with
  | zero => exact ⟨w, done, rfl, h, .inr rfl⟩
  | succ fuel ih =>
    cases hqueue : w.queue with
    | nil =>
      exact ⟨w, done, run_of_nil hqueue (fuel + 1), h, .inl hqueue⟩
    | cons id rest =>
      obtain ⟨w₁, hpop, h₁⟩ := pop_spec h hqueue
      obtain ⟨w', done', hrun, hw', hend⟩ := ih h₁
      refine ⟨w', done', ?_, hw', hend.imp_right fun hlength => ?_⟩
      · rw [Walk.run, hpop]
        exact hrun
      · rw [hlength, List.length_append, List.length_singleton]
        omega

lemma walkRoots_spec (flow : Flow) (roots : List Line) (limit : Option Nat) :
    Walks flow roots limit (walkRoots flow roots) [] := by
  have hvisits : ∀ (roots : List Line) (w : Walk), w.Keys →
      (roots.foldl (fun w root => w.visit flow root 0) w).Keys ∧
      (roots.foldl (fun w root => w.visit flow root 0) w).list =
        (knownRoots flow roots).foldl Worklist.add w.list ∧
      (roots.foldl (fun w root => w.visit flow root 0) w).links = w.links := by
    intro roots
    induction roots with
    | nil => exact fun w hkeys => ⟨hkeys, rfl, rfl⟩
    | cons r roots ih =>
      intro w hkeys
      cases hnode : flow.node r with
      | none =>
        have hvisit : w.visit flow r 0 = w := by simp only [Walk.visit, hnode]
        have hroots : knownRoots flow (r :: roots) = knownRoots flow roots := by simp [knownRoots, hnode]
        rw [List.foldl_cons, hvisit, hroots]
        exact ih w hkeys
      | some node =>
        have hsome : (flow.node r).isSome := Option.isSome_iff_exists.mpr ⟨node, hnode⟩
        obtain ⟨hkeys', hlist, hlinks⟩ := @visit_spec flow w r 0 hkeys hsome
        obtain ⟨hkeys'', hlist', hlinks'⟩ := ih _ hkeys'
        have hroots : knownRoots flow (r :: roots) = r :: knownRoots flow roots := by simp [knownRoots, hnode]
        rw [hroots]
        exact ⟨hkeys'', hlist'.trans (by rw [hlist]; rfl), hlinks'.trans hlinks⟩
  obtain ⟨hkeys, hlist, hlinks⟩ := hvisits roots ⟨∅, [], [], []⟩ fun id => by simp
  have hclosed := Worklist.closed_roots (targetsOf flow) (knownRoots flow roots)
  refine ⟨hkeys, ?_, ?_, fun _ => ⟨?_, hlinks⟩⟩
  · intro x hx
    have hfound : x ∈ (walkRoots flow roots).list.found := hx
    rw [walkRoots, hlist, Worklist.found_foldl_add] at hfound
    exact known_of_isSome (List.mem_filter.mp (hfound.resolve_left List.not_mem_nil)).2
  · rw [walkRoots, hlist]
    exact hclosed.ok
  · rw [walkRoots, hlist]
    exact hclosed

/-- **The walk ends**, with nothing waiting. -/
theorem walk_spec (flow : Flow) (roots : List Line) (limit : Option Nat) : ∃ w, walk flow roots limit = some w ∧
    w.queue = [] ∧ Walks flow roots limit w w.order := by
  obtain ⟨w, done, hrun, hw, hend⟩ := run_spec flow.nodes.length (walkRoots_spec flow roots limit)
  have hqueue : w.queue = [] := by
    rcases hend with hqueue | hlength
    · exact hqueue
    · refine Worklist.length_le_of_ok hw.ok hw.known ?_
      rw [hlength, List.length_map, List.length_nil, Nat.zero_add]
  have hdone : done = w.order := by
    have hfound : w.order = done ++ w.queue := hw.ok.found
    rw [hfound, hqueue, List.append_nil]
  exact ⟨w, hrun, hqueue, hdone ▸ hw⟩

end
end TerminalManager.FlowExplorer
