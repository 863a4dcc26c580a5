import TerminalManager.Flow.Boxes

/-!
# What the graph shows of a flow

An event that a function emits is folded into the edges to its handlers.  Only the handlers of a folded event are looked
at, so what else the event leads to is shown only when it is reached another way, and an event that is a box and folded
as well loses the edges that lead to its box.

* `folds`, `drawnAs`        the edges that fold, and the links of an edge;
* `Reachable`               what is reached from the known roots along the edges;
* `HidesNothing`            every node and every edge is represented in the layout;
* `HandledOnly`             every event that folds leads to its handlers only, and nothing but functions leads to it;
* `layout_hidesNothing`     the layout hides nothing when, and only when, it is so.
-/

namespace TerminalManager.FlowExplorer
open Editor (Line)

def isEvent (flow : Flow) (id : Line) : Bool := (flow.node id).any fun n => n.kind = .event

/-- the handlers of an event, in the order of its edges -/
def handlersOf (flow : Flow) (id : Line) : List Line :=
  (flow.edges.filter fun h => h.source = id ∧ h.kind = .handledBy).map Edge.target

/-- an edge to an event that has handlers, and not from an event -/
def folds (flow : Flow) (e : Edge) : Bool :=
  isEvent flow e.source = false ∧ isEvent flow e.target = true ∧ handlersOf flow e.target ≠ []

/-- the links of an edge: one for each handler when the edge folds -/
def drawnAs (flow : Flow) (e : Edge) : List Link :=
  if folds flow e then
    (handlersOf flow e.target).map fun h => ⟨e.source, h, some e.target, e.kind = .resolves⟩
  else [⟨e.source, e.target, if isEvent flow e.source then some e.source else none, e.kind = .resolves⟩]

/-- what is reached from the known roots along the edges -/
def Reachable (flow : Flow) (roots : List Line) (id : Line) : Prop :=
  ∃ r ∈ knownRoots flow roots, Relation.ReflTransGen (fun a b => ∃ e ∈ flow.edges, e.source = a ∧ e.target = b) r id

/-- a node is drawn as a box -/
def Box (g : GraphLayout) (id : Line) : Prop := ∃ n ∈ g.nodes, n.nodeId = id

/-- an event is folded into an edge that another node is the source of -/
def Folded (g : GraphLayout) (id : Line) : Prop := ∃ d ∈ g.edges, d.eventId = some id ∧ d.source ≠ id

/-- every node and every edge is represented -/
structure HidesNothing (flow : Flow) (roots : List Line) (g : GraphLayout) : Prop where
  nodes : ∀ id, Reachable flow roots id →
    Box g id ∨ isEvent flow id = true ∧ ∃ d ∈ g.edges, d.eventId = some id
  /-- an edge between boxes is drawn -/
  boxes : ∀ e ∈ flow.edges, Box g e.source → Box g e.target → ∃ d ∈ g.edges, d.source = e.source ∧
    d.target = e.target ∧ d.eventId = (if isEvent flow e.source then some e.source else none) ∧
    d.dotted = decide (e.kind = .resolves)
  /-- the edges from a box to a folded event are drawn once for each handler -/
  folded : ∀ u v, Box g u → Folded g v → (∃ e ∈ flow.edges, e.source = u ∧ e.target = v) →
    (g.edges.filter fun d => d.source = u ∧ d.eventId = some v).map (fun d => (d.target, d.dotted)) =
      (flow.edges.filter fun e => e.source = u ∧ e.target = v).flatMap fun e =>
        (handlersOf flow v).map fun h => (h, decide (e.kind = .resolves))
  /-- an edge from a folded event is drawn with the event -/
  events : ∀ e ∈ flow.edges, Folded g e.source → ∃ d ∈ g.edges, d.eventId = some e.source ∧ d.target = e.target

/-- whatever folds leads to its handlers only, is no root, and no event leads to it -/
def HandledOnly (flow : Flow) (roots : List Line) : Prop :=
  ∀ e ∈ flow.edges, Reachable flow roots e.source → folds flow e = true →
    (∀ o ∈ flow.edges, o.source = e.target → o.target ∈ handlersOf flow e.target) ∧
    e.target ∉ knownRoots flow roots ∧
    ∀ i ∈ flow.edges, i.target = e.target → Reachable flow roots i.source → isEvent flow i.source = false

section
variable {flow : Flow} {roots : List Line} {w : Walk} {e : Edge} {l : Link} {u v : Line}

/-! ## the links of a valid flow -/

lemma known_ends (hvalid : flow.Valid) (he : e ∈ flow.edges) :
    (∃ n, flow.node e.source = some n) ∧ ∃ n, flow.node e.target = some n := by
  obtain ⟨hsource, htarget⟩ := hvalid.edges e he
  exact ⟨Option.isSome_iff_exists.mp (Flow.node_isSome.mpr hsource),
    Option.isSome_iff_exists.mp (Flow.node_isSome.mpr htarget)⟩

lemma map_outgoing (flow : Flow) (id : Line) :
    (flow.outgoing id).map Prod.fst = flow.edges.filter fun e => e.source = id := by
  have h : (flow.edges.zipIdx.map Prod.fst).filter (fun e => e.source = id) =
      (flow.edges.zipIdx.filter ((fun e => decide (e.source = id)) ∘ Prod.fst)).map Prod.fst := List.filter_map
  rw [List.zipIdx_map_fst] at h
  exact h.symm

lemma isEvent_eq {n : Node} (hn : flow.node u = some n) : isEvent flow u = decide (n.kind = .event) := by
  rw [isEvent, hn, Option.any_some]

/-- the handlers that are looked at -/
lemma handlers_eq (hvalid : flow.Valid) {source target : Node} : handlers flow source target =
    if target.kind = .event ∧ source.kind ≠ .event then handlersOf flow target.id else [] := by
  unfold handlers
  refine if_congr Iff.rfl ?_ rfl
  have hknown : (flow.outgoing target.id).filter (fun e => e.1.kind = .handledBy ∧ (flow.node e.1.target).isSome) =
      (flow.outgoing target.id).filter fun e => e.1.kind = .handledBy := by
    refine List.filter_congr fun e he => ?_
    have hmem : e.1 ∈ flow.edges := (Flow.mem_outgoing.mp ⟨e.2, he⟩).1
    obtain ⟨-, n, hn⟩ := known_ends hvalid hmem
    simp [hn]
  have hfilter : ((flow.outgoing target.id).map Prod.fst).filter (fun e => e.kind = .handledBy) =
      ((flow.outgoing target.id).filter ((fun e => decide (e.kind = .handledBy)) ∘ Prod.fst)).map Prod.fst :=
    List.filter_map
  have hmap : ((flow.outgoing target.id).filter fun e => e.1.kind = .handledBy).map Prod.fst =
      ((flow.outgoing target.id).map Prod.fst).filter fun e => e.kind = .handledBy := hfilter.symm
  rw [hknown, show (fun e : Edge × Nat => e.1.target) = Edge.target ∘ Prod.fst from rfl, ← List.map_map, hmap,
    map_outgoing, List.filter_filter, handlersOf]
  simp only [and_comm, Bool.decide_and]

/-- the links of an edge -/
lemma edgeLinks_eq (hvalid : flow.Valid) (he : e ∈ flow.edges) {source : Node} (hsource : flow.node e.source = some source) :
    edgeLinks flow source e = drawnAs flow e := by
  obtain ⟨-, target, htarget⟩ := known_ends hvalid he
  have hid := Flow.node_id hsource
  have hid' := Flow.node_id htarget
  simp only [edgeLinks, htarget, handlers_eq hvalid, hid, hid', drawnAs, folds, isEvent_eq hsource, isEvent_eq htarget]
  by_cases hevent : source.kind = .event
  · simp [hevent]
  by_cases htarget' : target.kind = .event
  · cases hhandlers : handlersOf flow e.target with
    | nil => simp [hevent, htarget']
    | cons h hs => simp [hevent, htarget']
  · simp [hevent, htarget']

/-- the links from a node are those of its edges, in order -/
lemma linksOf_eq (hvalid : flow.Valid) (u : Line) :
    linksOf flow u = (flow.edges.filter fun e => e.source = u).flatMap (drawnAs flow) := by
  have hedge : ∀ {e}, e ∈ flow.edges.filter (fun e => e.source = u) → e ∈ flow.edges ∧ e.source = u := by
    intro e he
    exact ⟨(List.mem_filter.mp he).1, of_decide_eq_true (List.mem_filter.mp he).2⟩
  unfold linksOf
  cases hnode : flow.node u with
  | none =>
    have hnil : flow.edges.filter (fun e => e.source = u) = [] := by
      refine List.eq_nil_iff_forall_not_mem.mpr fun e he => ?_
      obtain ⟨hmem, rfl⟩ := hedge he
      obtain ⟨⟨n, hn⟩, -⟩ := known_ends hvalid hmem
      cases hnode.symm.trans hn
    rw [hnil]
    rfl
  | some source =>
    dsimp only
    rw [← map_outgoing, List.flatMap_map]
    refine List.flatMap_congr fun e he => ?_
    obtain ⟨hmem, hid⟩ := Flow.mem_outgoing.mp ⟨e.2, he⟩
    exact edgeLinks_eq hvalid hmem (hid ▸ hnode)

/-! ## what is drawn -/

/-- an edge without its place -/
def EdgeGeom.link (d : EdgeGeom) : Link := ⟨d.source, d.target, d.eventId, d.dotted⟩

lemma rectOf_isSome {nodes : List NodeGeom} {id : Line} :
    (rectOf nodes id).isSome = true ↔ id ∈ nodes.map NodeGeom.nodeId := by
  simp [rectOf, List.find?_isSome]

lemma drawLink_link {nodes : List NodeGeom} (s : Nat × List EdgeGeom) (hsource : l.source ∈ nodes.map NodeGeom.nodeId)
    (htarget : l.target ∈ nodes.map NodeGeom.nodeId) :
    (drawLink flow nodes s l).2.map EdgeGeom.link = s.2.map EdgeGeom.link ++ [l] := by
  obtain ⟨source, hs⟩ := Option.isSome_iff_exists.mp (rectOf_isSome.mpr hsource)
  obtain ⟨target, ht⟩ := Option.isSome_iff_exists.mp (rectOf_isSome.mpr htarget)
  simp only [drawLink, hs, ht]
  cases l.eventId.bind flow.node with
  | none => exact List.map_append
  | some event => exact List.map_append

/-- every link between boxes is drawn, in order -/
lemma draw_all {nodes : List NodeGeom} (links : List Link) (s : Nat × List EdgeGeom)
    (h : ∀ l ∈ links, l.source ∈ nodes.map NodeGeom.nodeId ∧ l.target ∈ nodes.map NodeGeom.nodeId) :
    (links.foldl (drawLink flow nodes) s).2.map EdgeGeom.link = s.2.map EdgeGeom.link ++ links := by
  induction links generalizing s with
  | nil => exact (List.append_nil _).symm
  | cons l links ih =>
    obtain ⟨hsource, htarget⟩ := h l List.mem_cons_self
    rw [List.foldl_cons, ih _ fun l' hl' => h l' (List.mem_cons_of_mem l hl'), drawLink_link s hsource htarget,
      List.append_assoc]
    rfl

/-- what the layout shows, in terms of its boxes -/
structure Shows (flow : Flow) (roots : List Line) (g : GraphLayout) (boxes : List Line) : Prop where
  box : ∀ id, Box g id ↔ id ∈ boxes
  nodup : boxes.Nodup
  reached : ∀ id, id ∈ boxes ↔ Worklist.Reached (targetsOf flow) (knownRoots flow roots) id
  edges : g.edges.map EdgeGeom.link = boxes.flatMap (linksOf flow)

lemma linksOf_source (hl : l ∈ linksOf flow u) : l.source = u := by
  unfold linksOf at hl
  cases hnode : flow.node u with
  | none =>
    rw [hnode] at hl
    nomatch hl
  | some source =>
    rw [hnode] at hl
    obtain ⟨e, -, hl⟩ := List.mem_flatMap.mp hl
    rw [← Flow.node_id hnode]
    unfold edgeLinks at hl
    cases htarget : flow.node e.1.target with
    | none =>
      rw [htarget] at hl
      nomatch hl
    | some target =>
      simp only [htarget] at hl
      cases hhandlers : handlers flow source target with
      | nil =>
        rw [hhandlers] at hl
        rw [List.mem_singleton.mp hl]
      | cons h hs =>
        simp only [hhandlers] at hl
        obtain ⟨h', -, rfl⟩ := List.mem_map.mp hl
        rfl

/-- **The graph without a depth filter**: the boxes are what the links reach, and all their links are drawn. -/
theorem layout_shows (flow : Flow) (roots : List Line) :
    ∃ g boxes, layout flow roots .all = some g ∧ Shows flow roots g boxes := by
  obtain ⟨w, ps, heights, g, -, hw, hlayout, hlaid⟩ := layout_laid flow roots .all
  obtain ⟨hclosed, hlinks⟩ := hw.closed rfl
  obtain rfl := hlaid.layout
  have hnodes : (layoutOf flow w ps heights).nodes.map NodeGeom.nodeId = w.order := by
    rw [← hlaid.ids, layoutOf, List.map_map]
    rfl
  have hreached : ∀ id, id ∈ w.order ↔ Worklist.Reached (targetsOf flow) (knownRoots flow roots) id := by
    intro id
    refine hclosed.mem_iff ?_
    have hfound : w.order = w.order ++ w.queue := hclosed.ok.found
    exact (List.append_right_eq_self.mp hfound.symm)
  refine ⟨_, w.order, hlayout, ?_, hclosed.ok.nodup, hreached, ?_⟩
  · intro id
    rw [← hnodes, List.mem_map]
    rfl
  · refine (draw_all w.links (0, []) ?_).trans hlinks
    intro l hl
    rw [hlinks] at hl
    obtain ⟨u, hu, hl⟩ := List.mem_flatMap.mp hl
    have hmap : (ps.map (boxOf heights)).map NodeGeom.nodeId = w.order := hnodes
    rw [hmap, linksOf_source hl]
    exact ⟨hu, hclosed.next u hu (List.mem_map_of_mem hl)⟩

/-! ## boxes and folded events -/

lemma mem_drawnAs : l ∈ drawnAs flow e ↔
    (folds flow e = true ∧ ∃ h ∈ handlersOf flow e.target, l = ⟨e.source, h, some e.target, e.kind = .resolves⟩) ∨
    (folds flow e = false ∧
      l = ⟨e.source, e.target, if isEvent flow e.source then some e.source else none, e.kind = .resolves⟩) := by
  unfold drawnAs
  by_cases hfolds : folds flow e = true
  · rw [if_pos hfolds, List.mem_map, hfolds]
    constructor
    · rintro ⟨h, hh, rfl⟩
      exact .inl ⟨rfl, h, hh, rfl⟩
    · rintro (⟨-, h, hh, rfl⟩ | ⟨h, -⟩)
      · exact ⟨h, hh, rfl⟩
      · cases h
  · rw [if_neg hfolds, List.mem_singleton, (Bool.not_eq_true _).mp hfolds]
    simp

lemma folds_iff : folds flow e = true ↔
    isEvent flow e.source = false ∧ isEvent flow e.target = true ∧ handlersOf flow e.target ≠ [] := decide_eq_true_iff

lemma mem_handlersOf {h : Line} :
    h ∈ handlersOf flow v ↔ ∃ e ∈ flow.edges, e.source = v ∧ e.kind = .handledBy ∧ e.target = h := by
  simp [handlersOf, and_assoc]

variable {g : GraphLayout} {boxes : List Line}

/-- the drawn edges are the links of the edges of the boxes -/
lemma Shows.mem_edges (hs : Shows flow roots g boxes) (hvalid : flow.Valid) :
    (∃ d ∈ g.edges, d.link = l) ↔ ∃ e ∈ flow.edges, e.source ∈ boxes ∧ l ∈ drawnAs flow e := by
  have hmem : (∃ d ∈ g.edges, d.link = l) ↔ l ∈ boxes.flatMap (linksOf flow) := by
    rw [← hs.edges, List.mem_map]
  rw [hmem, List.mem_flatMap]
  constructor
  · rintro ⟨u, hu, hl⟩
    rw [linksOf_eq hvalid] at hl
    obtain ⟨e, he, hl⟩ := List.mem_flatMap.mp hl
    obtain ⟨hedge, hsource⟩ := List.mem_filter.mp he
    exact ⟨e, hedge, (of_decide_eq_true hsource).symm ▸ hu, hl⟩
  · rintro ⟨e, he, hu, hl⟩
    refine ⟨e.source, hu, ?_⟩
    rw [linksOf_eq hvalid]
    exact List.mem_flatMap.mpr ⟨e, List.mem_filter.mpr ⟨he, decide_eq_true rfl⟩, hl⟩

/-- what the links of an edge lead to is drawn as a box -/
lemma Shows.target_mem (hs : Shows flow roots g boxes) (hvalid : flow.Valid) (he : e ∈ flow.edges)
    (hsource : e.source ∈ boxes) (hl : l ∈ drawnAs flow e) : l.target ∈ boxes := by
  obtain ⟨r, hr, hreach⟩ := (hs.reached _).mp hsource
  refine (hs.reached _).mpr ⟨r, hr, hreach.tail ?_⟩
  refine List.mem_map_of_mem ?_
  rw [linksOf_eq hvalid]
  exact List.mem_flatMap.mpr ⟨e, List.mem_filter.mpr ⟨he, decide_eq_true rfl⟩, hl⟩

lemma Shows.box_of_plain (hs : Shows flow roots g boxes) (hvalid : flow.Valid) (he : e ∈ flow.edges)
    (hsource : e.source ∈ boxes) (hplain : folds flow e = false) : e.target ∈ boxes :=
  hs.target_mem hvalid he hsource (mem_drawnAs.mpr (.inr ⟨hplain, rfl⟩))

lemma Shows.box_of_handler (hs : Shows flow roots g boxes) (hvalid : flow.Valid) (he : e ∈ flow.edges)
    (hsource : e.source ∈ boxes) (hfolds : folds flow e = true) {h : Line} (hh : h ∈ handlersOf flow e.target) :
    h ∈ boxes :=
  hs.target_mem hvalid he hsource (mem_drawnAs.mpr (.inl ⟨hfolds, h, hh, rfl⟩))

lemma Shows.root_mem (hs : Shows flow roots g boxes) {r : Line} (hr : r ∈ knownRoots flow roots) : r ∈ boxes :=
  (hs.reached r).mpr ⟨r, hr, .refl⟩

/-- the folded events are what the edges that fold lead to -/
lemma Shows.folded_iff (hs : Shows flow roots g boxes) (hvalid : flow.Valid) :
    Folded g v ↔ ∃ e ∈ flow.edges, e.source ∈ boxes ∧ folds flow e = true ∧ e.target = v := by
  constructor
  · rintro ⟨d, hd, hevent, hne⟩
    obtain ⟨e, he, hsource, hl⟩ := (hs.mem_edges hvalid).mp ⟨d, hd, rfl⟩
    rcases mem_drawnAs.mp hl with ⟨hfolds, h, -, hlink⟩ | ⟨-, hlink⟩
    · have hid : d.eventId = some e.target := congrArg Link.eventId hlink
      exact ⟨e, he, hsource, hfolds, Option.some_inj.mp (hid.symm.trans hevent)⟩
    · have hid : d.eventId = if isEvent flow e.source then some e.source else none := congrArg Link.eventId hlink
      have hsource' : d.source = e.source := congrArg Link.source hlink
      rw [hevent] at hid
      split at hid
      · exact (hne (hsource'.trans (Option.some_inj.mp hid).symm)).elim
      · cases hid
  · rintro ⟨e, he, hsource, hfolds, rfl⟩
    obtain ⟨hplain, hevent, hsome⟩ := folds_iff.mp hfolds
    obtain ⟨h, hh⟩ := List.exists_mem_of_ne_nil _ hsome
    obtain ⟨d, hd, hlink⟩ := (hs.mem_edges hvalid).mpr ⟨e, he, hsource, mem_drawnAs.mpr (.inl ⟨hfolds, h, hh, rfl⟩)⟩
    refine ⟨d, hd, congrArg Link.eventId hlink, ?_⟩
    have hsource' : d.source = e.source := congrArg Link.source hlink
    rw [hsource']
    intro heq
    rw [heq, hevent] at hplain
    cases hplain

/-- a box is reached along the edges, through the events that are folded -/
lemma Shows.reachable (hs : Shows flow roots g boxes) (hvalid : flow.Valid) {id : Line} (hid : id ∈ boxes) :
    Reachable flow roots id := by
  obtain ⟨r, hr, hreach⟩ := (hs.reached id).mp hid
  refine ⟨r, hr, ?_⟩
  clear hid
  induction hreach with
  | refl => exact .refl
  | @tail b c _ hstep ih =>
    obtain ⟨l, hl, rfl⟩ := List.mem_map.mp hstep
    rw [linksOf_eq hvalid] at hl
    obtain ⟨e, he, hl⟩ := List.mem_flatMap.mp hl
    obtain ⟨hedge, hsource⟩ := List.mem_filter.mp he
    have hsource := of_decide_eq_true hsource
    have hevent := ih.tail ⟨e, hedge, hsource, rfl⟩
    rcases mem_drawnAs.mp hl with ⟨-, h, hh, rfl⟩ | ⟨-, rfl⟩
    · obtain ⟨e', he', hsource', -, htarget'⟩ := mem_handlersOf.mp hh
      exact hevent.tail ⟨e', he', hsource', htarget'⟩
    · exact hevent

/-! ## when nothing is lost -/

/-- no event that folds is a box, and such an event leads to its handlers only -/
structure Kept (flow : Flow) (boxes : List Line) : Prop where
  apart : ∀ e ∈ flow.edges, e.source ∈ boxes → folds flow e = true → e.target ∉ boxes
  handled : ∀ e ∈ flow.edges, e.source ∈ boxes → folds flow e = true → ∀ o ∈ flow.edges, o.source = e.target →
    o.target ∈ handlersOf flow e.target

lemma folds_congr {e' : Edge} (hsource : e'.source = e.source) (htarget : e'.target = e.target) :
    folds flow e' = folds flow e := by
  rw [folds, folds, hsource, htarget]

/-- a layout that hides nothing loses nothing at an event -/
lemma Shows.kept (hs : Shows flow roots g boxes) (hvalid : flow.Valid) (h : HidesNothing flow roots g) :
    Kept flow boxes := by
  have hapart : ∀ e ∈ flow.edges, e.source ∈ boxes → folds flow e = true → e.target ∉ boxes := by
    intro e he hsource hfolds htarget
    obtain ⟨d, hd, hdsource, hdtarget, hevent, -⟩ := h.boxes e he ((hs.box _).mpr hsource) ((hs.box _).mpr htarget)
    rw [(folds_iff.mp hfolds).1, if_neg Bool.false_ne_true] at hevent
    obtain ⟨e', he', -, hl⟩ := (hs.mem_edges hvalid).mp ⟨d, hd, rfl⟩
    rcases mem_drawnAs.mp hl with ⟨-, h', -, hlink⟩ | ⟨hplain, hlink⟩
    · have hid : d.eventId = some e'.target := congrArg Link.eventId hlink
      cases hevent.symm.trans hid
    · -- the edge that is drawn has the same ends, and so it folds as well
      have hsource' : d.source = e'.source := congrArg Link.source hlink
      have htarget' : d.target = e'.target := congrArg Link.target hlink
      rw [folds_congr (hsource'.symm.trans hdsource) (htarget'.symm.trans hdtarget), hfolds] at hplain
      cases hplain
  refine ⟨hapart, ?_⟩
  intro e he hsource hfolds o ho hosource
  obtain ⟨d, hd, hevent, htarget⟩ := h.events o ho ((hs.folded_iff hvalid).mpr ⟨e, he, hsource, hfolds, hosource.symm⟩)
  rw [hosource] at hevent
  obtain ⟨e', he', hsource', hl⟩ := (hs.mem_edges hvalid).mp ⟨d, hd, rfl⟩
  rcases mem_drawnAs.mp hl with ⟨-, h', hh', hlink⟩ | ⟨-, hlink⟩
  · have hid : d.eventId = some e'.target := congrArg Link.eventId hlink
    have heq : e.target = e'.target := Option.some_inj.mp (hevent.symm.trans hid)
    have htarget' : d.target = h' := congrArg Link.target hlink
    rw [← htarget, htarget', heq]
    exact hh'
  · have hid : d.eventId = if isEvent flow e'.source then some e'.source else none := congrArg Link.eventId hlink
    rw [hevent] at hid
    split at hid
    · exact (hapart e he hsource hfolds (Option.some_inj.mp hid ▸ hsource')).elim
    · cases hid

/-- **Step lemma**: along an edge from a box or a folded event to a box or a folded event. -/
lemma Shows.covered_next (hs : Shows flow roots g boxes) (hvalid : flow.Valid) (hkept : Kept flow boxes)
    (he : e ∈ flow.edges)
    (h : e.source ∈ boxes ∨ ∃ e' ∈ flow.edges, e'.source ∈ boxes ∧ folds flow e' = true ∧ e'.target = e.source) :
    e.target ∈ boxes ∨ ∃ e' ∈ flow.edges, e'.source ∈ boxes ∧ folds flow e' = true ∧ e'.target = e.target := by
  rcases h with hsource | ⟨e', he', hsource', hfolds', hevent⟩
  · by_cases hfolds : folds flow e = true
    · exact .inr ⟨e, he, hsource, hfolds, rfl⟩
    · exact .inl (hs.box_of_plain hvalid he hsource ((Bool.not_eq_true _).mp hfolds))
  · have hhandler := hkept.handled e' he' hsource' hfolds' e he hevent.symm
    exact .inl (hs.box_of_handler hvalid he' hsource' hfolds' hhandler)

/-- what is reached is a box or a folded event -/
lemma Shows.covered (hs : Shows flow roots g boxes) (hvalid : flow.Valid) (hkept : Kept flow boxes) {id : Line}
    (h : Reachable flow roots id) :
    id ∈ boxes ∨ ∃ e ∈ flow.edges, e.source ∈ boxes ∧ folds flow e = true ∧ e.target = id := by
  obtain ⟨r, hr, hreach⟩ := h
  induction hreach with
  | refl => exact .inl (hs.root_mem hr)
  | tail _ hstep ih =>
    obtain ⟨e, he, rfl, rfl⟩ := hstep
    exact hs.covered_next hvalid hkept he ih

/-- a list put together from one of its members -/
lemma flatMap_eq_of_unique {α β : Type} {xs : List α} {x : α} {f : α → List β} (hnodup : xs.Nodup) (hx : x ∈ xs)
    (hf : ∀ y, y ≠ x → f y = []) : xs.flatMap f = f x := by
  obtain ⟨before, after, rfl⟩ := List.append_of_mem hx
  obtain ⟨-, hafter, hbefore⟩ := List.nodup_append.mp hnodup
  have hleft : before.flatMap f = [] :=
    List.flatMap_eq_nil_iff.mpr fun y hy => hf y fun heq => hbefore y hy x List.mem_cons_self heq
  have hright : after.flatMap f = [] :=
    List.flatMap_eq_nil_iff.mpr fun y hy => hf y fun heq => (List.nodup_cons.mp hafter).1 (heq ▸ hy)
  rw [List.flatMap_append, List.flatMap_cons, hleft, hright, List.nil_append, List.append_nil]

/-- the links that carry an event, from a node whose edges to it fold -/
lemma filter_drawnAs (edges : List Edge)
    (hfolds : ∀ e ∈ edges, e.source = u → (isEvent flow e.source = false ∧ (e.target = v → folds flow e = true))) :
    ((((edges.filter fun e => e.source = u).flatMap (drawnAs flow)).filter fun l => l.eventId = some v).map
        fun l => (l.target, l.dotted)) =
      (edges.filter fun e => e.source = u ∧ e.target = v).flatMap fun e =>
        (handlersOf flow v).map fun h => (h, decide (e.kind = .resolves)) := by
  induction edges with
  | nil => rfl
  | cons e edges ih =>
    have hrest := ih fun e' he' => hfolds e' (List.mem_cons_of_mem e he')
    by_cases hsource : e.source = u
    · obtain ⟨hplain, hfold⟩ := hfolds e List.mem_cons_self hsource
      have hfirst : (e :: edges).filter (fun e => e.source = u) = e :: edges.filter fun e => e.source = u := by
        simp [hsource]
      rw [hfirst, List.flatMap_cons, List.filter_append, List.map_append, hrest]
      by_cases htarget : e.target = v
      · have hboth : (e :: edges).filter (fun e => e.source = u ∧ e.target = v) =
            e :: edges.filter fun e => e.source = u ∧ e.target = v := by simp [hsource, htarget]
        rw [hboth, List.flatMap_cons, drawnAs, if_pos (hfold htarget), htarget]
        simp [List.filter_map, Function.comp_def]
      · have hboth : (e :: edges).filter (fun e => e.source = u ∧ e.target = v) =
            edges.filter fun e => e.source = u ∧ e.target = v := by simp [htarget]
        have hnone : (drawnAs flow e).filter (fun l => l.eventId = some v) = [] := by
          refine List.filter_eq_nil_iff.mpr fun l hl heq => ?_
          have heq := of_decide_eq_true heq
          rcases mem_drawnAs.mp hl with ⟨-, h, -, rfl⟩ | ⟨-, rfl⟩
          · exact htarget (Option.some_inj.mp heq)
          · rw [hplain] at heq
            cases heq
        rw [hboth, hnone]
        rfl
    · have hfirst : (e :: edges).filter (fun e => e.source = u) = edges.filter fun e => e.source = u := by
        simp [hsource]
      have hboth : (e :: edges).filter (fun e => e.source = u ∧ e.target = v) =
          edges.filter fun e => e.source = u ∧ e.target = v := by simp [hsource]
      rw [hfirst, hboth, hrest]

/-- the edges from a box to an event that they fold are drawn once for each handler -/
lemma Shows.once (hs : Shows flow roots g boxes) (hvalid : flow.Valid) (hu : u ∈ boxes)
    (hfolds : ∀ e ∈ flow.edges, e.source = u → (isEvent flow e.source = false ∧ (e.target = v → folds flow e = true))) :
    (g.edges.filter fun d => d.source = u ∧ d.eventId = some v).map (fun d => (d.target, d.dotted)) =
      (flow.edges.filter fun e => e.source = u ∧ e.target = v).flatMap fun e =>
        (handlersOf flow v).map fun h => (h, decide (e.kind = .resolves)) := by
  have hlinks : (g.edges.filter fun d => d.source = u ∧ d.eventId = some v).map (fun d => (d.target, d.dotted)) =
      (((g.edges.map EdgeGeom.link).filter fun l => l.source = u ∧ l.eventId = some v).map
        fun l => (l.target, l.dotted)) := by
    rw [List.filter_map, List.map_map]
    rfl
  have hsplit : (boxes.flatMap (linksOf flow)).filter (fun l => l.source = u ∧ l.eventId = some v) =
      (linksOf flow u).filter fun l => l.eventId = some v := by
    rw [List.filter_flatMap, flatMap_eq_of_unique hs.nodup hu]
    · refine List.filter_congr fun l hl => ?_
      simp [linksOf_source hl]
    · intro x hx
      refine List.filter_eq_nil_iff.mpr fun l hl heq => hx ?_
      rw [← linksOf_source hl]
      exact (of_decide_eq_true heq).1
  rw [hlinks, hs.edges, hsplit, linksOf_eq hvalid]
  exact filter_drawnAs flow.edges hfolds

/-- a layout that loses nothing at an event hides nothing -/
lemma Shows.hidesNothing (hs : Shows flow roots g boxes) (hvalid : flow.Valid) (hkept : Kept flow boxes) :
    HidesNothing flow roots g := by
  constructor
  case nodes =>
    intro id hid
    rcases hs.covered hvalid hkept hid with hbox | ⟨e, he, hsource, hfolds, rfl⟩
    · exact .inl ((hs.box id).mpr hbox)
    · obtain ⟨d, hd, hevent, -⟩ := (hs.folded_iff hvalid).mpr ⟨e, he, hsource, hfolds, rfl⟩
      exact .inr ⟨(folds_iff.mp hfolds).2.1, d, hd, hevent⟩
  case boxes =>
    intro e he hsource htarget
    have hsource := (hs.box _).mp hsource
    have hplain : folds flow e = false := by
      by_contra hfolds
      exact hkept.apart e he hsource ((Bool.not_eq_false _).mp hfolds) ((hs.box _).mp htarget)
    obtain ⟨d, hd, hlink⟩ := (hs.mem_edges hvalid).mpr ⟨e, he, hsource, mem_drawnAs.mpr (.inr ⟨hplain, rfl⟩)⟩
    exact ⟨d, hd, congrArg Link.source hlink, congrArg Link.target hlink, congrArg Link.eventId hlink,
      congrArg Link.dotted hlink⟩
  case folded =>
    rintro _ v hu hfolded ⟨e, he, rfl, rfl⟩
    have hu := (hs.box _).mp hu
    obtain ⟨e₀, he₀, hsource₀, hfolds₀, htarget₀⟩ := (hs.folded_iff hvalid).mp hfolded
    have hfolds : folds flow e = true := by
      by_contra hplain
      have hbox := hs.box_of_plain hvalid he hu ((Bool.not_eq_true _).mp hplain)
      exact hkept.apart e₀ he₀ hsource₀ hfolds₀ (htarget₀ ▸ hbox)
    refine hs.once hvalid hu fun e' _ hsource' => ⟨?_, fun htarget' => ?_⟩
    · rw [hsource']
      exact (folds_iff.mp hfolds).1
    · rwa [folds_congr hsource' htarget']
  case events =>
    intro e he hfolded
    obtain ⟨e', he', hsource', hfolds', htarget'⟩ := (hs.folded_iff hvalid).mp hfolded
    have hhandler := hkept.handled e' he' hsource' hfolds' e he htarget'.symm
    obtain ⟨d, hd, hlink⟩ :=
      (hs.mem_edges hvalid).mpr ⟨e', he', hsource', mem_drawnAs.mpr (.inl ⟨hfolds', e.target, hhandler, rfl⟩)⟩
    have hevent : d.eventId = some e'.target := congrArg Link.eventId hlink
    exact ⟨d, hd, htarget' ▸ hevent, congrArg Link.target hlink⟩

/-- nothing is lost when the events that fold lead to their handlers only, and are reached from functions only -/
lemma Shows.kept_of_handledOnly (hs : Shows flow roots g boxes) (hvalid : flow.Valid) (h : HandledOnly flow roots) :
    Kept flow boxes := by
  refine ⟨?_, fun e he hsource hfolds => (h e he (hs.reachable hvalid hsource) hfolds).1⟩
  intro e he hsource hfolds htarget
  obtain ⟨-, hroot, honly⟩ := h e he (hs.reachable hvalid hsource) hfolds
  obtain ⟨-, hevent, hhandlers⟩ := folds_iff.mp hfolds
  obtain ⟨r, hr, hreach⟩ := (hs.reached _).mp htarget
  rcases Relation.ReflTransGen.cases_tail hreach with heq | ⟨c, hrc, hstep⟩
  · exact hroot (heq ▸ hr)
  -- a box whose links lead to the event
  have hc : c ∈ boxes := (hs.reached c).mpr ⟨r, hr, hrc⟩
  obtain ⟨l, hl, hltarget⟩ := List.mem_map.mp hstep
  rw [linksOf_eq hvalid] at hl
  obtain ⟨e', he', hl⟩ := List.mem_flatMap.mp hl
  obtain ⟨hedge', hsource'⟩ := List.mem_filter.mp he'
  have hsource' : e'.source ∈ boxes := (of_decide_eq_true hsource').symm ▸ hc
  have hreach' := hs.reachable hvalid hsource'
  rcases mem_drawnAs.mp hl with ⟨hfolds', h', hh', rfl⟩ | ⟨hplain', rfl⟩
  · -- the event is a handler of another one
    obtain ⟨i, hi, hisource, -, hitarget⟩ := mem_handlersOf.mp hh'
    obtain ⟨r', hr', hreach''⟩ := hreach'
    have hfalse := honly i hi (hitarget.trans hltarget)
      (hisource ▸ ⟨r', hr', hreach''.tail ⟨e', hedge', rfl, rfl⟩⟩)
    rw [hisource, (folds_iff.mp hfolds').2.1] at hfalse
    cases hfalse
  · -- a plain link leads to it, so it comes from an event
    have hltarget : e'.target = e.target := hltarget
    have hfalse := honly e' hedge' hltarget hreach'
    have hfolds' : folds flow e' = true := folds_iff.mpr ⟨hfalse, hltarget ▸ hevent, hltarget ▸ hhandlers⟩
    rw [hfolds'] at hplain'
    cases hplain'

lemma Shows.handledOnly_of_kept (hs : Shows flow roots g boxes) (hvalid : flow.Valid) (hkept : Kept flow boxes) :
    HandledOnly flow roots := by
  intro e he hreach hfolds
  have hsource : e.source ∈ boxes := by
    rcases hs.covered hvalid hkept hreach with hbox | ⟨e', -, -, hfolds', htarget'⟩
    · exact hbox
    · have hevent := (folds_iff.mp hfolds').2.1
      rw [htarget', (folds_iff.mp hfolds).1] at hevent
      cases hevent
  have hapart := hkept.apart e he hsource hfolds
  refine ⟨hkept.handled e he hsource hfolds, fun hroot => hapart (hs.root_mem hroot), ?_⟩
  intro i hi htarget hireach
  by_contra hevent
  have hevent := (Bool.not_eq_false _).mp hevent
  refine hapart (htarget ▸ ?_)
  rcases hs.covered hvalid hkept hireach with hbox | ⟨e', he', hsource', hfolds', htarget'⟩
  · refine hs.box_of_plain hvalid hi hbox ?_
    by_contra hfolds'
    rw [(folds_iff.mp ((Bool.not_eq_false _).mp hfolds')).1] at hevent
    cases hevent
  · exact hs.box_of_handler hvalid he' hsource' hfolds' (hkept.handled e' he' hsource' hfolds' i hi htarget'.symm)

end

/-- **Main result.**  The graph of a valid flow without a depth filter hides nothing when, and only when, every event
that folds leads to its handlers only, is no root, and is reached from functions only. -/
theorem layout_hidesNothing (flow : Flow) (hvalid : flow.validate = .ok ()) (roots : List Line) :
    ∃ g, layout flow roots .all = some g ∧ (HidesNothing flow roots g ↔ HandledOnly flow roots) := by
  have hvalid := Flow.validate_ok hvalid
  obtain ⟨g, boxes, hlayout, hs⟩ := layout_shows flow roots
  refine ⟨g, hlayout, ?_, ?_⟩
  · intro h
    exact hs.handledOnly_of_kept hvalid (hs.kept hvalid h)
  · intro h
    exact hs.hidesNothing hvalid (hs.kept_of_handledOnly hvalid h)

/-- a function emits an event that has a handler -/
def emitFlow : Flow where
  schemaVersion := FLOW_SCHEMA_VERSION
  processes := [⟨['m'], ['m']⟩]
  nodes := [⟨['f'], ['f'], .function, some ['m'], none, none⟩, ⟨['e'], ['e'], .event, none, some .ipc, none⟩,
    ⟨['h'], ['h'], .function, some ['m'], none, none⟩, ⟨['g'], ['g'], .function, some ['m'], none, none⟩]
  edges := [⟨['f'], ['e'], .calls⟩, ⟨['e'], ['h'], .handledBy⟩]
  entries := [['f']]

theorem layout_hidesNothing_emit : ∃ g, layout emitFlow [['f']] .all = some g ∧ HidesNothing emitFlow [['f']] g := by
  obtain ⟨g, hg, hiff⟩ := layout_hidesNothing emitFlow (by decide) [['f']]
  have hedges : ∀ e ∈ emitFlow.edges, folds emitFlow e = true →
      (∀ o ∈ emitFlow.edges, o.source = e.target → o.target ∈ handlersOf emitFlow e.target) ∧
      e.target ∉ knownRoots emitFlow [['f']] ∧
      ∀ i ∈ emitFlow.edges, i.target = e.target → isEvent emitFlow i.source = false := by
    decide
  refine ⟨g, hg, hiff.mpr fun e he _ hfolds => ?_⟩
  obtain ⟨hhandled, hroot, honly⟩ := hedges e he hfolds
  exact ⟨hhandled, hroot, fun i hi htarget _ => honly i hi htarget⟩

/-- the event calls a function as well -/
def eventCallFlow : Flow := { emitFlow with edges := emitFlow.edges ++ [⟨['e'], ['g'], .calls⟩] }

/-- the function that the event calls is reached, and not in the graph -/
theorem layout_hides : eventCallFlow.validate = .ok () ∧ Reachable eventCallFlow [['f']] ['g'] ∧
    ¬ ∃ g, layout eventCallFlow [['f']] .all = some g ∧ HidesNothing eventCallFlow [['f']] g := by
  have hreach : Reachable eventCallFlow [['f']] ['g'] :=
    ⟨['f'], by decide, Relation.ReflTransGen.tail (.single ⟨⟨['f'], ['e'], .calls⟩, by decide, rfl, rfl⟩)
      ⟨⟨['e'], ['g'], .calls⟩, by decide, rfl, rfl⟩⟩
  refine ⟨by decide, hreach, ?_⟩
  rintro ⟨g, hg, h⟩
  have hboxes : (layout eventCallFlow [['f']] .all).map (fun g => g.nodes.map NodeGeom.nodeId) = some [['f'], ['h']] := by
    decide
  rw [hg, Option.map_some, Option.some_inj] at hboxes
  rcases h.nodes ['g'] hreach with ⟨n, hn, hid⟩ | ⟨hevent, -⟩
  · have hmem := List.mem_map_of_mem (f := NodeGeom.nodeId) hn
    rw [hboxes, hid] at hmem
    exact absurd hmem (by decide)
  · exact absurd hevent (by decide)

end TerminalManager.FlowExplorer
