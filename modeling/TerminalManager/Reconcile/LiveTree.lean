import TerminalManager.Reconcile.Children
import TerminalManager.Lib.Transition

/-!
# The live tree

* `NodeArena.tree`, `tree_eq`   the tree below an id, read off the arena;
* `IsTree`                   the arena is one tree: the links of children and siblings fit, each node is reached once,
                             and nothing else is live;
* `built_isTree`, `reconcile_sound`   it is after a build, and a clean pass keeps it;
* `tree_kept`                so does a run of clean passes.

A pass is not clean when two definitions of children carry one key that an old child has.  The keyed match does not ask
whether the child is used, as the unkeyed one does.
-/

namespace TerminalManager.Reconcile
open LinkedTree Ownership Transition

/-! ## reading -/

/-- the tree below an id, to a depth -/
def readTree (a : NodeArena) : Nat → NodeId → ElementTree
  | 0, id => .node id (newData .div) []
  | fuel + 1, id =>
    .node id (((a.get id).map Element.toElementData).getD (newData .div)) ((a.children id).map (readTree a fuel))

def NodeArena.tree (a : NodeArena) (id : NodeId) : ElementTree := readTree a a.nodes.length id

/-- the nodes on the way through child chains, a parent before its children -/
def walk (a : NodeArena) : Nat → NodeId → List NodeId
  | 0, _ => []
  | fuel + 1, id => id :: (a.children id).flatMap (walk a fuel)

section
variable {a : NodeArena} {t : ElementTree} {parent prev next : Option NodeId}
  {rest : NodeId → Option (Links NodeId × ElementData)}

/-- a child of a stored tree is stored -/
lemma owns_of_mem (h : Owns a.heap (t.cells parent prev next) rest) {c : ElementTree} (hc : c ∈ t.children) :
    ∃ prev' next' rest', Owns a.heap (c.cells (some t.id) prev' next') rest' := by
  obtain ⟨id, data, children⟩ := t
  obtain ⟨us, vs, hsplit⟩ := List.append_of_mem (show c ∈ children from hc)
  subst hsplit
  rw [← List.append_nil (Rose.cells _ _ _ _)] at h
  exact ⟨_, _, _, (owns_child h).1⟩

lemma length_ids_children {id : NodeId} {data : ElementData} {children : List ElementTree} {fuel : Nat}
    (h : (Rose.node id data children).ids.length ≤ fuel + 1) {c : ElementTree} (hc : c ∈ children) : c.ids.length ≤ fuel := by
  rw [ids_eq, List.length_cons] at h
  obtain ⟨us, vs, rfl⟩ := List.append_of_mem hc
  rw [show Rose.children (Rose.node id data (us ++ c :: vs)) = us ++ c :: vs from rfl, forestIds_append, forestIds_cons,
    List.length_append, List.length_append] at h
  omega

theorem readTree_eq (t : ElementTree) {fuel : Nat} (hfuel : t.ids.length ≤ fuel)
    (h : Owns a.heap (t.cells parent prev next) rest) : readTree a fuel t.id = t := by
  induction t using Rose.induct generalizing fuel parent prev next rest with
  | h id data children ih =>
    cases fuel with
    | zero =>
      rw [ids_eq] at hfuel
      cases hfuel
    | succ fuel =>
      obtain ⟨e, he, -, hdata⟩ := NodeArena.get_root h
      have hkids := NodeArena.children_eq h
      show readTree a (fuel + 1) id = _
      have hread : (roots children).map (readTree a fuel) = children := by
        rw [roots, List.map_map]
        refine (List.map_congr_left fun c hc => ?_).trans (List.map_id _)
        obtain ⟨prev', next', rest', hown⟩ := owns_of_mem h (show c ∈ Rose.children (Rose.node id data children) from hc)
        exact ih c hc (length_ids_children hfuel hc) hown
      rw [readTree, show a.get id = some e from he, show a.children id = roots children from hkids, hread]
      show Rose.node id e.toElementData children = _
      rw [show e.toElementData = data from hdata]

/-- a stored tree is what is read -/
theorem tree_eq (h : Owns a.heap (t.cells parent prev next) rest) : a.tree t.id = t :=
  readTree_eq t (NodeArena.length_ids_le h) h

lemma forestIds_eq_flatMap (ts : List ElementTree) : forestIds ts = ts.flatMap Rose.ids := by
  induction ts with
  | nil => rw [forestIds_nil, List.flatMap_nil]
  | cons t ts ih => rw [forestIds_cons, List.flatMap_cons, ih]

theorem walk_eq (t : ElementTree) {fuel : Nat} (hfuel : t.ids.length ≤ fuel)
    (h : Owns a.heap (t.cells parent prev next) rest) : walk a fuel t.id = t.ids := by
  induction t using Rose.induct generalizing fuel parent prev next rest with
  | h id data children ih =>
    cases fuel with
    | zero =>
      rw [ids_eq] at hfuel
      cases hfuel
    | succ fuel =>
      have hkids := NodeArena.children_eq h
      show walk a (fuel + 1) id = _
      rw [walk, show a.children id = roots children from hkids, ids_eq, roots, List.flatMap_map, forestIds_eq_flatMap]
      refine congrArg (id :: ·) (List.flatMap_congr fun c hc => ?_)
      obtain ⟨prev', next', rest', hown⟩ := owns_of_mem h (show c ∈ Rose.children (Rose.node id data children) from hc)
      exact ih c hc (length_ids_children hfuel hc) hown

/-- each node of a stored tree is the root of a stored tree -/
theorem owns_of_mem_ids (t : ElementTree) (h : Owns a.heap (t.cells parent prev next) rest) {i : NodeId} (hi : i ∈ t.ids) :
    ∃ (s : ElementTree) (parent' prev' next' : Option NodeId) (rest' : NodeId → Option (Links NodeId × ElementData)),
      s.id = i ∧ Owns a.heap (s.cells parent' prev' next') rest' := by
  induction t using Rose.induct generalizing parent prev next rest with
  | h id data children ih =>
    rw [ids_eq] at hi
    rcases List.mem_cons.mp hi with rfl | hi
    · exact ⟨_, _, _, _, _, rfl, h⟩
    · obtain ⟨c, hc, hin⟩ := mem_forestIds.mp hi
      obtain ⟨prev', next', rest', hown⟩ := owns_of_mem h hc
      exact ih c hc hown hin

end

/-! ## the arena is a tree -/

/-- `cs` are the children of the element: the chain from its first child to its last one, linked in both directions -/
structure ChildChain (a : NodeArena) (id : NodeId) (e : Element) (cs : List NodeId) : Prop where
  nodup : cs.Nodup
  first : e.firstChild = cs.head?
  last : e.lastChild = cs.getLast?
  linked : ∀ k c, cs[k]? = some c → ∃ x, a.get c = some x ∧ x.parent = some id ∧ x.nextSibling = cs[k + 1]? ∧
    x.prevSibling = if k = 0 then none else cs[k - 1]?

/-- the live elements are one tree -/
structure IsTree (a : NodeArena) (root : NodeId) : Prop where
  top : ∃ e, a.get root = some e ∧ e.parent = none ∧ e.prevSibling = none ∧ e.nextSibling = none
  chain : ∀ id e, a.get id = some e → ChildChain a id e (a.children id)
  once : (walk a (a.nodes.length + 1) root).Nodup
  live : ∀ id, id ∈ walk a (a.nodes.length + 1) root ↔ (a.get id).isSome

/-- the arena stores the tree and nothing else -/
def Holds (a : NodeArena) (t : ElementTree) : Prop := Owns a.heap (t.cells none none none) fun _ => none

section
variable {a : NodeArena} {t : ElementTree}

lemma childChain_of_owns {parent prev next : Option NodeId} {rest : NodeId → Option (Links NodeId × ElementData)}
    (h : Owns a.heap (t.cells parent prev next) rest) {e : Element} (he : a.get t.id = some e) :
    ChildChain a t.id e (a.children t.id) := by
  obtain ⟨e', he', hlinks, -⟩ := NodeArena.get_root h
  rw [he] at he'
  cases he'
  rw [NodeArena.children_eq h]
  refine ⟨nodup_children h, ?_, ?_, ?_⟩
  · rw [show e.firstChild = headId t.children from congrArg Links.firstChild hlinks, headId, roots, List.head?_map]
  · rw [show e.lastChild = lastId t.children from congrArg Links.lastChild hlinks, lastId, roots, List.getLast?_map]
  · intro k c hk
    unfold roots at hk
    rw [List.getElem?_map] at hk
    obtain ⟨s, hs, rfl⟩ := Option.map_eq_some_iff.mp hk
    have hmem := getElem_mem_chain hs t.id none none
    obtain ⟨x, hx, hxl, -⟩ := NodeArena.get_of_heap (h.stored _ (by
      rw [cells_eq]
      exact List.mem_cons_of_mem _ hmem))
    refine ⟨x, hx, congrArg Links.parent hxl, ?_, congrArg Links.prevSibling hxl⟩
    refine (congrArg Links.nextSibling hxl).trans ?_
    show ((roots t.children)[k + 1]? <|> none) = _
    cases (roots t.children)[k + 1]? <;> rfl

/-- **The arena is a tree** when it stores one. -/
theorem isTree_of_holds (h : Holds a t) : IsTree a t.id := by
  have hwalk : walk a (a.nodes.length + 1) t.id = t.ids :=
    walk_eq t ((NodeArena.length_ids_le h).trans (Nat.le_succ _)) h
  have hlive : ∀ id, id ∈ t.ids ↔ (a.get id).isSome := by
    intro id
    have hheap : (a.get id).isSome ↔ a.heap id ≠ none := by
      unfold NodeArena.heap
      cases a.get id <;> simp
    rw [hheap, ← map_cells t none none none]
    refine ⟨fun hi hnone => ?_, fun hi => ?_⟩
    · obtain ⟨c, hc, rfl⟩ := List.mem_map.mp hi
      rw [h.stored c hc] at hnone
      cases hnone
    · by_contra hnot
      exact hi (h.outside id hnot)
  refine ⟨?_, ?_, ?_, ?_⟩
  · obtain ⟨e, he, hlinks, -⟩ := NodeArena.get_root h
    exact ⟨e, he, congrArg Links.parent hlinks, congrArg Links.prevSibling hlinks, congrArg Links.nextSibling hlinks⟩
  · intro id e he
    obtain ⟨s, parent, prev, next, rest, rfl, hown⟩ := owns_of_mem_ids t h ((hlive id).mpr (by rw [he]; rfl))
    exact childChain_of_owns hown he
  · rw [hwalk, ← map_cells t none none none]
    exact h.nodup
  · intro id
    rw [hwalk]
    exact hlive id

end

/-! ## passes -/

/-- no element is live -/
def Vacant (a : NodeArena) : Prop := ∀ id, a.get id = none

lemma heap_of_vacant {a : NodeArena} (h : Vacant a) : a.heap = fun _ => none := by
  funext id
  unfold NodeArena.heap
  rw [h id]
  rfl

/-- a definition that is built in an arena without elements -/
lemma build_holds {w : World} (h : Vacant w.arena) (d : ElementDef) : ∃ t, Built d t ∧
    (buildSubtree w none d).2 = t.id ∧ Holds (buildSubtree w none d).1.arena t ∧
      (buildSubtree w none d).1.refs = setRefs w.refs (refCells t) := by
  obtain ⟨t, hbuilt, hid, hown, -, hrefs⟩ := buildSubtree_spec d w none
  rw [heap_of_vacant h] at hown
  exact ⟨t, hbuilt, hid, hown, hrefs⟩

lemma Built.tag_eq {d : ElementDef} {t : ElementTree} (h : Built d t) : t.data.tag = d.tag := by
  cases h
  rfl

/-- **A clean pass.** The tree that is stored becomes another one with the same root, as `Rec` says. -/
theorem reconcile_holds {w : World} {t : ElementTree} (h : Holds w.arena t) {d : ElementDef} (htag : t.data.tag = d.tag)
    (hclean : Clean t d) : ∃ new ws, Rec t d new ws ∧ new.id = t.id ∧ Holds (reconcile w t.id d).arena new ∧
      (reconcile w t.id d).refs = applyWrites w.refs ws ∧ ∀ i ∈ new.ids, i ∈ t.ids ∨ ¬ w.arena.Seen i := by
  have hstart : Owns ({ w with pendingMounts := [] } : World).arena.heap (t.cells none none none) fun _ => none := h
  have hnone : ∀ i, Neighbour (none : Option NodeId) none none i →
      (fun _ => none : NodeId → Option (Links NodeId × ElementData)) i ≠ none := by
    intro i hi
    rcases hi with hi | hi | hi
    all_goals cases hi
  obtain ⟨new, ws, hout⟩ := reconcileInner_spec d hstart hnone hclean
  have hown := hout.owns
  rw [if_pos htag] at hown
  exact ⟨new, ws, hout.related, hout.related.id_eq htag, hown, hout.refs, hout.ids⟩

lemma Rec.tag_eq {t : ElementTree} {d : ElementDef} {new : ElementTree} {ws : List RefWrite} (h : Rec t d new ws) :
    new.data.tag = d.tag := by
  cases h with
  | replaced _ hbuilt => exact hbuilt.tag_eq
  | memo htag => exact htag
  | select htag => exact htag
  | entered hentered => exact hentered.1

/-- a pass over the tree of `root` -/
def pass (root : NodeId) (w : World) (d : ElementDef) : Option World := some (reconcile w root d)

/-- no old child of an element that is kept is met by two definitions -/
def CleanPass (root : NodeId) (w : World) (d : ElementDef) : Prop := Clean (w.arena.tree root) d

instance (root : NodeId) (w : World) (d : ElementDef) : Decidable (CleanPass root w d) := by
  unfold CleanPass
  infer_instance

/-- **Main result.** From a tree that was built, every state of a run of clean passes, with definitions of one root tag,
is a tree. -/
theorem tree_kept (w : World) (hw : Vacant w.arena) (d : ElementDef) (ds : List ElementDef)
    (htag : ∀ d' ∈ ds, d'.tag = d.tag)
    (hclean : Along (pass (buildSubtree w none d).2) (CleanPass (buildSubtree w none d).2) (buildSubtree w none d).1 ds) :
    Throughout (pass (buildSubtree w none d).2) (fun w' => IsTree w'.arena (buildSubtree w none d).2)
      (buildSubtree w none d).1 ds := by
  obtain ⟨t, hbuilt, hid, hholds, -⟩ := build_holds hw d
  rw [hid] at hclean ⊢
  let I : World → Prop := fun w' => ∃ s, s.id = t.id ∧ s.data.tag = d.tag ∧ Holds w'.arena s
  have hkeep : ∀ w' d' w'', I w' → (d'.tag = d.tag ∧ CleanPass t.id w' d') → pass t.id w' d' = some w'' → I w'' := by
    intro w' d' w'' ⟨s, hs, htag', hown⟩ ⟨hd', hc⟩ hrun
    cases hrun
    rw [← hs] at hc ⊢
    unfold CleanPass at hc
    rw [tree_eq hown] at hc
    obtain ⟨new, ws, hrec, hnew, hown', -⟩ := reconcile_holds hown (htag'.trans hd'.symm) hc
    exact ⟨new, hnew.trans hs, hrec.tag_eq.trans hd', hown'⟩
  refine throughout_of_along hkeep ?_ ⟨t, rfl, hbuilt.tag_eq, hholds⟩ (hclean.and_forall htag)
  intro w' ⟨s, hs, _, hown⟩
  rw [← hs]
  exact isTree_of_holds hown

/-! ## a row of spans -/

def keyedSpan (key : String) : ElementDef := .mk { DefProps.new .span with key := some key } []

/-- a div with a span for each key -/
def keyedRow (keys : List String) : ElementDef := .mk (DefProps.new .div) (keys.map keyedSpan)

def builtRow (keys : List String) : World := (buildSubtree .empty none (keyedRow keys)).1

lemma vacant_empty : Vacant NodeArena.empty := fun _ => rfl

theorem tree_kept_reordered :
    Throughout (pass ⟨0, 0⟩) (fun w => IsTree w.arena ⟨0, 0⟩) (builtRow ["a", "b"])
      [keyedRow ["b", "c", "a"], keyedRow ["c"]] :=
  tree_kept .empty vacant_empty (keyedRow ["a", "b"]) [keyedRow ["b", "c", "a"], keyedRow ["c"]] (by decide)
    (by decide)

/-- two definitions with the key of one old child: the child `b` is live, and no chain leads to it -/
theorem repeated_key_unlinks : ¬ IsTree (reconcile (builtRow ["a", "b"]) ⟨0, 0⟩ (keyedRow ["a", "b", "a"])).arena ⟨0, 0⟩ := by
  intro h
  have hmem := (h.live ⟨2, 0⟩).mpr (by decide)
  revert hmem
  decide

end TerminalManager.Reconcile
