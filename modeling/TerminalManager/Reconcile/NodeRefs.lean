import TerminalManager.Reconcile.Rebuild
import TerminalManager.Lib.Registers

/-!
# What the node references hold

A reference is set when its definition meets an element or builds one, and cleared when an element that holds it is
freed.  Both happen in the course of one pass, in the order in which the pass goes through the tree.

* `bound`                    the references of a definition, each with the element that stands for the node carrying it;
* `refEvents`                the references that a pass takes and releases, in order;
* `Rec.tracks`               what a pass writes is what is bound afterwards, in the order of the events;
* `RefsTrue`                 every reference holds the element that it is bound to, and the others hold nothing;
* `Settled`, `refs_true_iff` in a run, the references are true after every pass exactly when in every pass none is
                             released after it was taken, and each that is held is taken anew or released.

An element that is kept keeps a reference that its definition does not carry any more, and one that is freed clears its
reference even when a new element has taken it.
-/

namespace TerminalManager.Reconcile
open LinkedTree Registers Transition

/-! ## the references of a definition -/

mutual
/-- the references that a definition and the ones below it carry -/
def allRefs : ElementDef → List RefId
  | .mk p ds => p.nodeRef.toList ++ allRefsOf ds
def allRefsOf : List ElementDef → List RefId
  | [] => []
  | d :: ds => allRefs d ++ allRefsOf ds
end

mutual
/-- the references of the nodes that a build makes: a select has no children, and options are left out -/
def builtRefs : ElementDef → List RefId
  | .mk p ds => p.nodeRef.toList ++ if p.tag = .select then [] else builtRefsOf ds
def builtRefsOf : List ElementDef → List RefId
  | [] => []
  | d :: ds => if d.tag = .option then builtRefsOf ds else builtRefs d ++ builtRefsOf ds
end

mutual
/-- the references of a definition with the elements that stand for its nodes: the children are those of the
definition, one by one, or those that are no options -/
def bound (t : ElementTree) : ElementDef → List (RefId × NodeId)
  | .mk p ds =>
    ownRef p t.id ++ if p.tag = .select then [] else boundDefs (ds.length = t.children.length) t.children ds
def boundDefs (all : Bool) (ts : List ElementTree) : List ElementDef → List (RefId × NodeId)
  | [] => []
  | d :: ds =>
    if !all && d.tag = .option then
      boundDefs all ts ds
    else
      (match ts.head? with
        | some t => bound t d
        | none => []) ++ boundDefs all ts.tail ds
end

/-! ## what a pass takes and releases -/

/-- the references are taken -/
def takes (refs : List RefId) : List (RefId × Bool) := refs.map fun ref => (ref, true)

/-- the references of some elements are released -/
def releases (cells : List (RefId × NodeId)) : List (RefId × Bool) := cells.map fun c => (c.1, false)

mutual
/-- the references that a pass takes and releases: an element whose tag is another one is freed before the new one is
built, and the children that no definition meets are freed after the others -/
def refEvents (t : ElementTree) : ElementDef → List (RefId × Bool)
  | .mk p ds =>
    if t.data.tag ≠ p.tag then
      releases (refCells t) ++ takes (builtRefs (.mk p ds))
    else
      takes p.nodeRef.toList ++ if Entered t.data p then
        refEventsOf (users t) (partners (users t) ds) ds ++ releases (forestRefCells (unmatched (users t) ds))
      else []
def refEventsOf (users : List ElementTree) (partners : List (Option NodeId)) : List ElementDef → List (RefId × Bool)
  | [] => []
  | d :: ds =>
    (match partners.head?.join.bind fun i => users.find? fun c => c.id = i with
      | some c => refEvents c d
      | none => takes (builtRefs d)) ++ refEventsOf users partners.tail ds
end

lemma refEvents_entered {t : ElementTree} {p : DefProps} {ds : List ElementDef} (h : Entered t.data p) :
    refEvents t (.mk p ds) = takes p.nodeRef.toList ++ (refEventsOf (users t) (partners (users t) ds) ds ++
      releases (forestRefCells (unmatched (users t) ds))) := by
  rw [refEvents, if_neg (not_not.mpr h.1), if_pos h]

lemma refEventsOf_none (us : List ElementTree) (ps : List (Option NodeId)) (d : ElementDef) (ds : List ElementDef) :
    refEventsOf us (none :: ps) (d :: ds) = takes (builtRefs d) ++ refEventsOf us ps ds := by
  rw [refEventsOf]
  rfl

lemma refEventsOf_some {us : List ElementTree} (hnd : (roots us).Nodup) {c : ElementTree} (hc : c ∈ us)
    (ps : List (Option NodeId)) (d : ElementDef) (ds : List ElementDef) :
    refEventsOf us (some c.id :: ps) (d :: ds) = refEvents c d ++ refEventsOf us ps ds := by
  rw [refEventsOf]
  show (match us.find? fun u => u.id = c.id with | some c => refEvents c d | none => takes (builtRefs d)) ++ _ = _
  rw [find_root hnd hc]
  rfl

section
variable (cells : List (RefId × NodeId))

lemma mark_sets : (sets cells).map mark = takes (cells.map Prod.fst) := by
  simp [sets, takes, mark]

lemma mark_clears : (clears cells).map mark = releases cells := by
  simp [clears, releases, mark]

lemma taken_sets : taken (sets cells) = cells := by
  simp [taken, sets, List.filterMap_map]

lemma taken_clears : taken (clears cells) = [] := by
  simp [taken, clears, List.filterMap_map]

lemma ownRef_refs (p : DefProps) (id : NodeId) : (ownRef p id).map Prod.fst = p.nodeRef.toList := by
  unfold ownRef
  cases p.nodeRef <;> rfl

end

/-! ## what is bound -/

lemma boundDefs_all (ts : List ElementTree) (t : ElementTree) (d : ElementDef) (ds : List ElementDef) :
    boundDefs true (t :: ts) (d :: ds) = bound t d ++ boundDefs true ts ds := by
  rw [boundDefs]
  rfl

mutual
/-- what is bound is carried -/
lemma bound_sublist (t : ElementTree) : ∀ d : ElementDef, ((bound t d).map Prod.fst).Sublist (allRefs d)
  | .mk p ds => by
    rw [bound, allRefs, List.map_append, ownRef_refs]
    refine (List.Sublist.refl _).append ?_
    split_ifs
    · exact List.nil_sublist _
    · exact boundDefs_sublist _ _ ds
lemma boundDefs_sublist (all : Bool) (ts : List ElementTree) :
    ∀ ds : List ElementDef, ((boundDefs all ts ds).map Prod.fst).Sublist (allRefsOf ds)
  | [] => by
    rw [boundDefs]
    exact List.nil_sublist _
  | d :: ds => by
    rw [boundDefs, allRefsOf]
    split_ifs
    · exact (boundDefs_sublist all ts ds).trans (List.sublist_append_right _ _)
    · rw [List.map_append]
      refine List.Sublist.append ?_ (boundDefs_sublist all ts.tail ds)
      split
      · exact bound_sublist _ d
      · exact List.nil_sublist _
end

/-- the element of a new node holds what the node carries -/
def BuiltRefs (d : ElementDef) : Prop :=
  ∀ t, Built d t → refCells t = bound t d ∧ (bound t d).map Prod.fst = builtRefs d

lemma boundDefs_built {ds : List ElementDef} {cs : List ElementTree} (ih : ∀ d ∈ ds, BuiltRefs d)
    (h : List.Forall₂ Built (ds.filter fun d => d.tag ≠ .option) cs) {all : Bool}
    (hall : all = true → ∀ d ∈ ds, d.tag ≠ .option) :
    forestRefCells cs = boundDefs all cs ds ∧ (boundDefs all cs ds).map Prod.fst = builtRefsOf ds := by
  induction ds generalizing cs with
  | nil =>
    cases h
    rw [boundDefs, builtRefsOf, forestRefCells_nil]
    exact ⟨rfl, rfl⟩
  | cons d ds ihds =>
    have hrest := fun cs => @ihds cs fun d hd => ih d (List.mem_cons_of_mem _ hd)
    have hall' : all = true → ∀ d ∈ ds, d.tag ≠ .option := fun ha d hd => hall ha d (List.mem_cons_of_mem _ hd)
    rw [boundDefs, builtRefsOf]
    by_cases hoption : d.tag = .option
    · rw [List.filter_cons_of_neg (by simpa using hoption)] at h
      have hnot : all = false := Bool.eq_false_iff.mpr fun ha => hall ha d List.mem_cons_self hoption
      rw [if_pos (by simp [hnot, hoption]), if_pos hoption]
      exact hrest cs h hall'
    · rw [List.filter_cons_of_pos (by simpa using hoption)] at h
      rw [if_neg (by simp [hoption]), if_neg hoption]
      cases h with
      | cons hd h =>
        obtain ⟨hcells, hrefs⟩ := ih d List.mem_cons_self _ hd
        obtain ⟨hcells', hrefs'⟩ := hrest _ h hall'
        rw [forestRefCells_cons, hcells, hcells']
        refine ⟨rfl, ?_⟩
        rw [List.map_append]
        exact congrArg₂ (· ++ ·) hrefs hrefs'

theorem builtRefs_of_built (d : ElementDef) : BuiltRefs d := by
  induction d using ElementDef.induct with
  | h p ds ih =>
    intro t h
    cases h with
    | @mk _ _ id cs h =>
      rw [refCells_eq, bound, builtRefs]
      have hown : (((Rose.node id (buildData p) cs).data.nodeRef).map fun ref => (ref, id)).toList = ownRef p id := rfl
      have hkids : forestRefCells cs = (if p.tag = .select then [] else boundDefs (ds.length = cs.length) cs ds) ∧
          (if p.tag = .select then [] else boundDefs (ds.length = cs.length) cs ds).map Prod.fst =
            if p.tag = .select then [] else builtRefsOf ds := by
        unfold shownChildren at h
        split_ifs at h ⊢ with hselect
        · cases h
          exact ⟨forestRefCells_nil, rfl⟩
        · refine boundDefs_built ih h fun hall d hd => ?_
          -- as many children as definitions: none is an option
          have hlen : (ds.filter fun d => d.tag ≠ .option).length = ds.length :=
            h.length_eq.trans (of_decide_eq_true hall).symm
          have hsame := List.filter_sublist.eq_of_length hlen
          rw [← hsame] at hd
          exact of_decide_eq_true (List.mem_filter.mp hd).2
      refine ⟨congrArg₂ (· ++ ·) hown hkids.1, ?_⟩
      rw [List.map_append, ownRef_refs]
      exact congrArg (p.nodeRef.toList ++ ·) hkids.2

/-! ## what a pass writes -/

/-- no element was made for a pseudo element -/
def Ordinary (t : ElementTree) : Prop := ∀ c ∈ t.nodes, c.2.synthetic = false

section
variable {t c : ElementTree}

lemma Ordinary.root (h : Ordinary t) : t.data.synthetic = false :=
  h (t.id, t.data) (by rw [nodes_eq]; exact List.mem_cons_self)

lemma Ordinary.child (h : Ordinary t) (hc : c ∈ t.children) : Ordinary c := by
  intro x hx
  refine h x ?_
  rw [nodes_eq, forestNodes_eq_flatMap]
  exact List.mem_cons_of_mem _ (List.mem_flatMap.mpr ⟨c, hc, hx⟩)

lemma ordinary_node {id : NodeId} {data : ElementData} {children : List ElementTree} (h : data.synthetic = false)
    (hc : ∀ c ∈ children, Ordinary c) : Ordinary (.node id data children) := by
  intro x hx
  rw [nodes_eq, forestNodes_eq_flatMap] at hx
  rcases List.mem_cons.mp hx with rfl | hx
  · exact h
  · obtain ⟨c, hmem, hin⟩ := List.mem_flatMap.mp hx
    exact hc c hmem x hin

lemma Ordinary.parts (h : Ordinary t) : lead t = [] ∧ users t = t.children ∧ trail t = [] := by
  have hsplit := splitTrees_plain (fun c hc => (h.child hc).root) false
  unfold lead users trail
  rw [hsplit]
  exact ⟨rfl, rfl, rfl⟩

lemma Built.ordinary {d : ElementDef} (h : Built d t) : Ordinary t := by
  induction d using ElementDef.induct generalizing t with
  | h p ds ih =>
    cases h with
    | mk h =>
      refine ordinary_node rfl fun c hc => ?_
      obtain ⟨d, hd, hbuilt⟩ := mem_of_forall₂ h hc
      exact ih d (shownChildren_sub hd) hbuilt

end

/-- what a pass wrote to the references, and the trees it left -/
structure Tracked (ws : List RefWrite) (events : List (RefId × Bool)) (cells stored : List (RefId × NodeId))
    (carried : List RefId) : Prop where
  /-- what is set is what is bound -/
  taken : Registers.taken ws = cells
  /-- in the order of the events -/
  marks : ws.map mark = events
  /-- the elements know what they hold -/
  known : cells ⊆ stored
  /-- each node that was built or met is bound -/
  carried : carried ⊆ cells.map Prod.fst

lemma Tracked.append {ws ws' : List RefWrite} {es es' : List (RefId × Bool)} {xs xs' ys ys' : List (RefId × NodeId)}
    {rs rs' : List RefId} (h : Tracked ws es xs ys rs) (h' : Tracked ws' es' xs' ys' rs') :
    Tracked (ws ++ ws') (es ++ es') (xs ++ xs') (ys ++ ys') (rs ++ rs') where
  taken := by rw [taken_append, h.taken, h'.taken]
  marks := by rw [List.map_append, h.marks, h'.marks]
  known := List.append_subset.mpr
    ⟨List.subset_append_of_subset_left _ h.known, List.subset_append_of_subset_right _ h'.known⟩
  carried := by
    rw [List.map_append]
    exact List.append_subset.mpr
      ⟨List.subset_append_of_subset_left _ h.carried, List.subset_append_of_subset_right _ h'.carried⟩

lemma tracked_nil : Tracked [] [] [] [] [] :=
  ⟨rfl, rfl, List.Subset.refl _, List.Subset.refl _⟩

/-- elements that are freed -/
lemma tracked_clears (cells : List (RefId × NodeId)) : Tracked (clears cells) (releases cells) [] [] [] :=
  ⟨taken_clears cells, mark_clears cells, List.nil_subset _, List.nil_subset _⟩

/-- an element that is kept -/
lemma tracked_own (p : DefProps) (t : ElementTree) : Tracked (sets (ownRef p t.id)) (takes p.nodeRef.toList)
    (ownRef p t.id) (((updateData t.data p).nodeRef.map fun ref => (ref, t.id)).toList) p.nodeRef.toList where
  taken := taken_sets _
  marks := by rw [mark_sets, ownRef_refs]
  known := by
    unfold ownRef updateData
    cases p.nodeRef <;> simp
  carried := by
    rw [ownRef_refs]
    exact List.Subset.refl _

/-- elements that are built -/
lemma Built.tracked {d : ElementDef} {t : ElementTree} (h : Built d t) :
    Tracked (sets (refCells t)) (takes (builtRefs d)) (bound t d) (refCells t) (builtRefs d) := by
  obtain ⟨hcells, hrefs⟩ := builtRefs_of_built d t h
  rw [hcells]
  exact ⟨taken_sets _, by rw [mark_sets, hrefs], List.Subset.refl _, by rw [hrefs]; exact List.Subset.refl _⟩

/-- a pass with the definition is tracked, when no memo key is found again -/
def Tracks (d : ElementDef) : Prop := ∀ {t new : ElementTree} {ws : List RefWrite}, Rec t d new ws → t.ids.Nodup →
  Ordinary t → NoMemo (visited t d) →
    Tracked ws (refEvents t d) (bound new d) (refCells new) (builtRefs d) ∧ Ordinary new

lemma RecDefs.tracks {us : List ElementTree} {ps : List (Option NodeId)} {ds : List ElementDef}
    {matched : List ElementTree} {ws : List RefWrite} (ih : ∀ d ∈ ds, Tracks d) (h : RecDefs us ps ds matched ws)
    (hnd : (forestIds us).Nodup) (hord : ∀ c ∈ us, Ordinary c) (hmemo : NoMemo (visitedDefs us ps ds)) :
    Tracked ws (refEventsOf us ps ds) (boundDefs true matched ds) (forestRefCells matched) (builtRefsOf ds) ∧
      ∀ c ∈ matched, Ordinary c := by
  induction ds generalizing ps matched ws with
  | nil =>
    cases h
    rw [refEventsOf, boundDefs, forestRefCells_nil, builtRefsOf]
    exact ⟨tracked_nil, fun c hc => by (cases hc)⟩
  | cons d ds ihds =>
    have hrest := fun {ps matched ws} => @ihds ps matched ws fun d hd => ih d (List.mem_cons_of_mem _ hd)
    -- an option may have an element here, which a build would not have made
    have hcarried : ∀ {ws es xs ys}, Tracked ws es xs ys (builtRefs d ++ builtRefsOf ds) →
        Tracked ws es xs ys (builtRefsOf (d :: ds)) := by
      intro ws es xs ys htr
      refine { htr with carried := fun ref href => htr.carried ?_ }
      rw [builtRefsOf] at href
      split_ifs at href
      · exact List.mem_append_right _ href
      · exact href
    cases h with
    | keep hc hrec hdefs =>
      rw [visitedDefs_some (hnd.sublist (roots_sublist us)) hc] at hmemo
      obtain ⟨hfirst, hordinary⟩ := ih d List.mem_cons_self hrec (hnd.sublist (ids_sublist hc)) (hord _ hc)
        fun v hv => hmemo v (List.mem_append_left _ hv)
      obtain ⟨hothers, hall⟩ := hrest hdefs fun v hv => hmemo v (List.mem_append_right _ hv)
      rw [refEventsOf_some (hnd.sublist (roots_sublist us)) hc, boundDefs_all, forestRefCells_cons]
      exact ⟨hcarried (hfirst.append hothers), List.forall_mem_cons.mpr ⟨hordinary, hall⟩⟩
    | insert hbuilt hdefs =>
      rw [visitedDefs_none] at hmemo
      obtain ⟨hothers, hall⟩ := hrest hdefs hmemo
      rw [refEventsOf_none, boundDefs_all, forestRefCells_cons]
      exact ⟨hcarried (hbuilt.tracked.append hothers), List.forall_mem_cons.mpr ⟨hbuilt.ordinary, hall⟩⟩

/-- **What a pass writes is what is bound**, in the order of the events. -/
theorem Rec.tracks (d : ElementDef) : Tracks d := by
  induction d using ElementDef.induct with
  | h p ds ih =>
    intro t new ws hrec hnd hord hmemo
    cases hrec with
    | replaced htag hbuilt =>
      refine ⟨?_, hbuilt.ordinary⟩
      rw [refEvents, if_pos (show t.data.tag ≠ p.tag from htag)]
      exact (tracked_clears _).append hbuilt.tracked
    | memo htag hhit =>
      have hmiss := hmemo (t, .mk p ds) (by rw [visited]; exact List.mem_cons_self)
      exact absurd (hhit.symm.trans hmiss) Bool.true_eq_false.mp
    | select htag _ hselect =>
      have hselect : p.tag = .select := hselect
      refine ⟨?_, ordinary_node hord.root fun c hc => hord.child hc⟩
      rw [refEvents, if_neg (not_not.mpr (show t.data.tag = p.tag from htag)), if_neg fun h => h.2.2 hselect, bound, if_pos hselect, builtRefs,
        if_pos hselect, refCells_eq]
      have hown := tracked_own p t
      refine { taken := ?_, marks := ?_, known := ?_, carried := ?_ }
      · rw [List.append_nil]
        exact hown.taken
      · rw [List.append_nil]
        exact hown.marks
      · rw [List.append_nil]
        exact List.subset_append_of_subset_left _ hown.known
      · rw [List.append_nil, List.append_nil]
        exact hown.carried
    | @entered _ _ matched _ hentered hdefs =>
      have hentered : Entered t.data p := hentered
      obtain ⟨hlead, husers, htrail⟩ := hord.parts
      rw [ids_eq, List.nodup_cons] at hnd
      rw [visited_entered hentered] at hmemo
      have hlen : matched.length = ds.length := hdefs.length_eq
      rw [husers] at hdefs hmemo
      obtain ⟨hkids, hall⟩ := hdefs.tracks ih hnd.2 (fun c hc => hord.child hc)
        fun v hv => hmemo v (List.mem_cons_of_mem _ hv)
      rw [hlead, htrail, List.append_nil, List.nil_append]
      refine ⟨?_, ordinary_node hord.root hall⟩
      rw [refEvents_entered hentered, husers, bound, if_neg hentered.2.2, builtRefs, if_neg hentered.2.2, refCells_eq]
      show Tracked _ _ (ownRef p t.id ++ boundDefs (ds.length = matched.length) matched ds) _ _
      rw [decide_eq_true hlen.symm]
      have hwhole := (tracked_own p t).append (hkids.append (tracked_clears (forestRefCells (unmatched t.children ds))))
      rw [List.append_nil, List.append_nil, List.append_nil, ← List.append_assoc] at hwhole
      exact hwhole

/-! ## passes -/

/-- every node of the definition that got an element is bound, every reference holds the live element that it is bound
to, and the others hold nothing -/
structure RefsTrue (w : World) (root : NodeId) (d : ElementDef) : Prop where
  carried : ∀ ref ∈ builtRefs d, ∃ id, (ref, id) ∈ bound (w.arena.tree root) d
  held : ∀ c ∈ bound (w.arena.tree root) d, w.refs c.1 = some c.2 ∧ (w.arena.get c.2).isSome
  empty : ∀ ref, ref ∉ (bound (w.arena.tree root) d).map Prod.fst → w.refs ref = none

/-- no reference is released after it was taken, and each that an element holds is taken anew or released -/
structure Settled (refs : RefId → Option NodeId) (t : ElementTree) (d : ElementDef) : Prop where
  ordered : Ordered (refEvents t d)
  reached : ∀ c ∈ refCells t, refs c.1 = some c.2 → ∃ e ∈ refEvents t d, e.1 = c.1

instance (refs : RefId → Option NodeId) (t : ElementTree) (d : ElementDef) : Decidable (Settled refs t d) :=
  decidable_of_iff (Ordered (refEvents t d) ∧ ∀ c ∈ refCells t, refs c.1 = some c.2 → ∃ e ∈ refEvents t d, e.1 = c.1)
    ⟨fun h => ⟨h.1, h.2⟩, fun h => ⟨h.ordered, h.reached⟩⟩

/-- what a reference holds has it -/
def Known (refs : RefId → Option NodeId) (t : ElementTree) : Prop :=
  ∀ ref id, refs ref = some id → (ref, id) ∈ refCells t

section
variable {w : World} {t : ElementTree} {d : ElementDef}

lemma refCells_live {a : NodeArena} (h : Holds a t) {c : RefId × NodeId} (hc : c ∈ refCells t) :
    (a.get c.2).isSome := by
  obtain ⟨x, hx, href⟩ := List.mem_filterMap.mp hc
  obtain ⟨ref, -, rfl⟩ := Option.map_eq_some_iff.mp href
  have hid : x.1 ∈ t.ids := by
    rw [← map_nodes]
    exact List.mem_map_of_mem hx
  obtain ⟨s, parent, prev, next, rest, heq, hown⟩ := owns_of_mem_ids t h hid
  obtain ⟨e, he, -⟩ := NodeArena.get_root hown
  show (a.get x.1).isSome
  rw [← heq, he]
  rfl

/-- the references are those that are bound, and no others -/
lemma refsTrue_iff {root : NodeId} (hnd : ((bound (w.arena.tree root) d).map Prod.fst).Nodup)
    (hcarried : ∀ ref ∈ builtRefs d, ∃ id, (ref, id) ∈ bound (w.arena.tree root) d)
    (hlive : ∀ c ∈ bound (w.arena.tree root) d, (w.arena.get c.2).isSome) :
    RefsTrue w root d ↔ ∀ ref, w.refs ref = (bound (w.arena.tree root) d).lookup ref := by
  constructor
  · intro h ref
    cases hlook : (bound (w.arena.tree root) d).lookup ref with
    | none =>
      refine h.empty ref fun hmem => ?_
      obtain ⟨c, hc, rfl⟩ := List.mem_map.mp hmem
      simpa using List.lookup_eq_none_iff.mp hlook c hc
    | some id => exact (h.held (ref, id) (mem_of_lookup hlook)).1
  · intro h
    refine ⟨hcarried, fun c hc => ⟨?_, hlive c hc⟩, fun ref href => ?_⟩
    · rw [h]
      exact lookup_of_mem hnd hc
    · rw [h, List.lookup_eq_none_iff]
      intro c hc
      have hne : ref ≠ c.1 := fun heq => href (heq ▸ List.mem_map_of_mem hc)
      simpa using hne

/-- **One pass.** The references are true afterwards exactly when it is settled, and then every element that a
reference holds has it. -/
theorem refs_pass (h : Holds w.arena t) (hord : Ordinary t) (hknown : Known w.refs t) (htag : t.data.tag = d.tag)
    (hunique : (allRefs d).Nodup) (hclean : Clean t d) (hmemo : NoMemo (visited t d)) :
    (RefsTrue (reconcile w t.id d) t.id d ↔ Settled w.refs t d) ∧
      ∃ new, new.id = t.id ∧ new.data.tag = d.tag ∧ Holds (reconcile w t.id d).arena new ∧ Ordinary new ∧
        (RefsTrue (reconcile w t.id d) t.id d → Known (reconcile w t.id d).refs new) := by
  obtain ⟨new, ws, hrec, hid, hholds, hrefs, -⟩ := reconcile_holds h htag hclean
  have hnd : t.ids.Nodup := by
    rw [← map_cells t none none none]
    exact h.nodup
  obtain ⟨htracked, hordinary⟩ := Rec.tracks d hrec hnd hord hmemo
  have hread : (reconcile w t.id d).arena.tree t.id = new := by
    have hholds' := tree_eq hholds
    rw [hid] at hholds'
    exact hholds'
  have hkeys : ((bound new d).map Prod.fst).Nodup := hunique.sublist (bound_sublist new d)
  have hiff := @refsTrue_iff (reconcile w t.id d) d t.id
  rw [hread, hrefs] at hiff
  have hiff := hiff hkeys
    (fun ref href => by
      obtain ⟨c, hc, rfl⟩ := List.mem_map.mp (htracked.carried href)
      exact ⟨c.2, hc⟩)
    fun c hc => refCells_live hholds (htracked.known hc)
  refine ⟨hiff.trans ?_, new, hid, hrec.tag_eq, hholds, hordinary, fun htrue ref id heq => ?_⟩
  · rw [← htracked.taken] at hkeys ⊢
    refine (run_eq_lookup_iff hkeys).trans ?_
    rw [htracked.marks]
    constructor
    · rintro ⟨hordered, hreached⟩
      refine ⟨hordered, fun c _ heq => hreached c.1 ?_⟩
      rw [heq]
      exact Option.some_ne_none _
    · rintro ⟨hordered, hreached⟩
      refine ⟨hordered, fun ref hne => ?_⟩
      obtain ⟨id, heq⟩ := Option.ne_none_iff_exists'.mp hne
      exact hreached (ref, id) (hknown ref id heq) heq
  · refine htracked.known (mem_of_lookup ?_)
    rw [← hiff.mp htrue, ← hrefs]
    exact heq

end

/-- no memo key is found again -/
def NoMemoPass (root : NodeId) (w : World) (d : ElementDef) : Prop := NoMemo (visited (w.arena.tree root) d)

instance (root : NodeId) (w : World) (d : ElementDef) : Decidable (NoMemoPass root w d) := by
  unfold NoMemoPass
  infer_instance

/-- the pass is settled, over the tree of `root` -/
def SettledPass (root : NodeId) (w : World) (d : ElementDef) : Prop := Settled w.refs (w.arena.tree root) d

instance (root : NodeId) (w : World) (d : ElementDef) : Decidable (SettledPass root w d) := by
  unfold SettledPass
  infer_instance

/-- **Main result.** From a tree that was built, in a run of clean passes without memo hits, with definitions of one root
tag that carry no reference twice: the references are true after every pass exactly when every pass is settled. -/
theorem refs_true_iff (w : World) (hw : Vacant w.arena) (hrefs : ∀ ref, w.refs ref = none) (d : ElementDef)
    (ds : List ElementDef) (hdefs : ∀ d' ∈ ds, d'.tag = d.tag ∧ (allRefs d').Nodup)
    (hclean : Along (pass (buildSubtree w none d).2) (CleanPass (buildSubtree w none d).2) (buildSubtree w none d).1 ds)
    (hmemo : Along (pass (buildSubtree w none d).2) (NoMemoPass (buildSubtree w none d).2) (buildSubtree w none d).1 ds) :
    Along (pass (buildSubtree w none d).2)
        (fun w' d' => RefsTrue (reconcile w' (buildSubtree w none d).2 d') (buildSubtree w none d).2 d')
        (buildSubtree w none d).1 ds ↔
      Along (pass (buildSubtree w none d).2) (SettledPass (buildSubtree w none d).2) (buildSubtree w none d).1 ds := by
  obtain ⟨t, hbuilt, hid, hholds, hset⟩ := build_holds hw d
  rw [hid] at hclean hmemo ⊢
  let I : World → Prop := fun w' =>
    ∃ s, s.id = t.id ∧ s.data.tag = d.tag ∧ Holds w'.arena s ∧ Ordinary s ∧ Known w'.refs s
  let G : World → ElementDef → Prop := fun w' d' =>
    (d'.tag = d.tag ∧ (allRefs d').Nodup) ∧ CleanPass t.id w' d' ∧ NoMemoPass t.id w' d'
  have hpass : ∀ w' d', I w' → G w' d' →
      (RefsTrue (reconcile w' t.id d') t.id d' ↔ SettledPass t.id w' d') ∧
        (RefsTrue (reconcile w' t.id d') t.id d' → I (reconcile w' t.id d')) := by
    rintro w' d' ⟨s, hs, htag, hown, hord, hknown⟩ ⟨⟨htag', hunique⟩, hc, hm⟩
    unfold CleanPass NoMemoPass SettledPass at *
    rw [← hs] at hc hm ⊢
    rw [tree_eq hown] at hc hm ⊢
    obtain ⟨hiff, new, hnew, hnewTag, hown', hord', hknown'⟩ :=
      refs_pass hown hord hknown (htag.trans htag'.symm) hunique hc hm
    exact ⟨hiff, fun htrue => ⟨new, hnew.trans hs, hnewTag.trans htag', hown', hord', hknown' htrue⟩⟩
  have hstart : I (buildSubtree w none d).1 := by
    refine ⟨t, rfl, hbuilt.tag_eq, hholds, hbuilt.ordinary, fun ref id heq => ?_⟩
    rw [hset, ← applyWrites_sets] at heq
    rcases run_some heq with hmem | hheld
    · rw [← taken_sets (refCells t)]
      exact mem_taken.mpr hmem
    · rw [hrefs] at hheld
      cases hheld
  refine along_iff_along (G := G) (I := I) ?_ (fun w' d' hi hg => (hpass w' d' hi hg).1) hstart ?_
  · intro w' d' w'' hi hg htrue hrun
    cases hrun
    exact (hpass w' d' hi hg).2 htrue
  · exact ((hclean.and hmemo).and_forall hdefs)

/-! ## a row of spans with references -/

/-- a div with a span for each key, and the reference that it carries -/
def refRow (cs : List (String × Option RefId)) : ElementDef :=
  .mk (DefProps.new .div) (cs.map fun c => .mk { DefProps.new .span with key := some c.1, nodeRef := c.2 } [])

/-- a span is moved, and goes -/
theorem refs_true_moved :
    Along (pass ⟨0, 0⟩) (fun w d => RefsTrue (reconcile w ⟨0, 0⟩ d) ⟨0, 0⟩ d)
        (buildSubtree .empty none (refRow [("a", some 1)])).1
        [refRow [("b", some 2), ("a", some 1)], refRow [("b", some 2)]] ↔
      Along (pass ⟨0, 0⟩) (SettledPass ⟨0, 0⟩) (buildSubtree .empty none (refRow [("a", some 1)])).1
        [refRow [("b", some 2), ("a", some 1)], refRow [("b", some 2)]] :=
  refs_true_iff .empty vacant_empty (fun _ => rfl) (refRow [("a", some 1)])
    [refRow [("b", some 2), ("a", some 1)], refRow [("b", some 2)]] (by decide) (by decide) (by decide +kernel)

/-- a span gets another key: the reference is set to the new element, and cleared with the old one -/
theorem rekeyed_clears :
    ¬ RefsTrue (reconcile (buildSubtree .empty none (refRow [("a", some 1)])).1 ⟨0, 0⟩ (refRow [("b", some 1)])) ⟨0, 0⟩
      (refRow [("b", some 1)]) := by
  intro h
  have hheld := (h.held (1, ⟨2, 0⟩) (by decide)).1
  revert hheld
  decide

end TerminalManager.Reconcile
