import TerminalManager.Reconcile.Engine

/-!
# Subtrees of the arena

A tree of elements is stored in the arena as linked cells.  Each function of the reconciler works on the cells of one
tree:

* `children_eq`              the children of an element are those of its tree;
* `SameTree`                 the arena is the same but for its flags; marking keeps it so;
* `deallocBelow_spec`        a tree is freed, with the references that its elements hold;
* `Built`, `buildSubtree_spec`   a definition is built at new ids.
-/

namespace TerminalManager.Reconcile
open LinkedTree Ownership

abbrev ElementTree := LinkedTree.Rose NodeId ElementData

abbrev Cell := NodeId × Links NodeId × ElementData

namespace NodeArena
variable {a a' : NodeArena} {t : ElementTree} {ts : List ElementTree}
  {rest : NodeId → Option (Links NodeId × ElementData)} {parent prev next : Option NodeId}

/-! ## walking -/

lemma siblings_eq {id : NodeId} {fuel : Nat} (hfuel : ts.length ≤ fuel)
    (h : ∀ c ∈ chain id prev none ts, a.heap c.1 = some c.2) : a.siblings (fuel + 1) (headId ts) = roots ts := by
  induction ts generalizing fuel prev with
  | nil => rfl
  | cons t ts ih =>
    rw [chain_cons] at h
    have hroot := h (t.cell (some id) prev (headId ts <|> none)) (by
      rw [cells_eq]
      exact List.mem_append_left _ List.mem_cons_self)
    obtain ⟨e, he, hlinks, -⟩ := get_of_heap hroot
    have hnext : e.nextSibling = headId ts := by
      have := congrArg Links.nextSibling hlinks
      dsimp only [Rose.cell] at this
      rw [this]
      cases headId ts <;> rfl
    obtain ⟨fuel, rfl⟩ := Nat.exists_eq_add_of_le' (Nat.lt_of_lt_of_le (Nat.succ_pos ts.length) hfuel)
    show t.id :: a.siblings (fuel + 1) ((a.get t.id).bind fun e => e.nextSibling) = t.id :: roots ts
    rw [show a.get t.id = some e from he]
    congr 1
    show a.siblings (fuel + 1) e.nextSibling = _
    rw [hnext]
    exact ih (Nat.le_of_succ_le_succ hfuel) fun c hc => h c (List.mem_append_right _ hc)

/-- there are no more elements in a tree than slots -/
lemma length_ids_le (h : Owns a.heap (t.cells parent prev next) rest) : t.ids.length ≤ a.nodes.length := by
  rw [← map_cells t parent prev next]
  refine live_length a h.nodup fun i hi => ?_
  obtain ⟨c, hc, rfl⟩ := List.mem_map.mp hi
  obtain ⟨e, he, -⟩ := get_of_heap (h.stored c hc)
  rw [he]
  rfl

lemma length_forestIds {ts : List ElementTree} : ts.length ≤ (forestIds ts).length := by
  have := (roots_sublist ts).length_le
  rwa [roots, List.length_map] at this

/-- the children of an element are those of its tree -/
theorem children_eq (h : Owns a.heap (t.cells parent prev next) rest) : a.children t.id = roots t.children := by
  have hroot := h.stored (t.cell parent prev next) (by
    rw [cells_eq]
    exact List.mem_cons_self)
  obtain ⟨e, he, hlinks, -⟩ := get_of_heap hroot
  unfold children
  rw [show a.get t.id = some e from he]
  show a.siblings (a.nodes.length + 1) e.firstChild = _
  rw [show e.firstChild = headId t.children from congrArg Links.firstChild hlinks]
  refine @siblings_eq a t.children none t.id a.nodes.length ?_ fun c hc => ?_
  · have hlen := length_ids_le h
    rw [ids_eq, List.length_cons] at hlen
    exact (length_forestIds.trans (Nat.le_succ _)).trans hlen
  · refine h.stored c ?_
    rw [cells_eq]
    exact List.mem_cons_of_mem _ hc

/-- the data of an element of a tree -/
lemma get_root (h : Owns a.heap (t.cells parent prev next) rest) :
    ∃ e, a.get t.id = some e ∧ e.toLinks = ⟨parent, headId t.children, lastId t.children, next, prev⟩ ∧
      e.toElementData = t.data := by
  refine get_of_heap (h.stored (t.cell parent prev next) ?_)
  rw [cells_eq]
  exact List.mem_cons_self

/-! ## links that are written -/

lemma heap_setPrev (a : NodeArena) (i : NodeId) (prev : Option NodeId) :
    (a.modify i fun e => { e with prevSibling := prev }).heap = Ownership.modify a.heap i (setPrev prev) :=
  heap_modify a i _ _ fun _ => rfl

lemma heap_setNext (a : NodeArena) (i : NodeId) (next : Option NodeId) :
    (a.modify i fun e => { e with nextSibling := next }).heap = Ownership.modify a.heap i (setNext next) :=
  heap_modify a i _ _ fun _ => rfl

lemma heap_setFirst (a : NodeArena) (i : NodeId) (first : Option NodeId) :
    (a.modify i fun e => { e with firstChild := first }).heap = Ownership.modify a.heap i (setFirst first) :=
  heap_modify a i _ _ fun _ => rfl

lemma heap_setLast (a : NodeArena) (i : NodeId) (last : Option NodeId) :
    (a.modify i fun e => { e with lastChild := last }).heap = Ownership.modify a.heap i (setLast last) :=
  heap_modify a i _ _ fun _ => rfl

/-! ## marking -/

/-- the arenas differ in the flags at most -/
structure SameTree (a a' : NodeArena) : Prop where
  heap_eq : a'.heap = a.heap
  seen_iff : ∀ i, a'.Seen i ↔ a.Seen i

lemma SameTree.refl (a : NodeArena) : SameTree a a := ⟨rfl, fun _ => Iff.rfl⟩

lemma SameTree.trans {a'' : NodeArena} (h : SameTree a a') (h' : SameTree a' a'') : SameTree a a'' :=
  ⟨h'.heap_eq.trans h.heap_eq, fun i => (h'.seen_iff i).trans (h.seen_iff i)⟩

lemma SameTree.foldl {β : Type} {f : NodeArena → β → NodeArena} (hf : ∀ a b, SameTree a (f a b)) (bs : List β) (a : NodeArena) :
    SameTree a (bs.foldl f a) := by
  induction bs generalizing a with
  | nil => exact .refl a
  | cons b bs ih => exact (hf a b).trans (ih (f a b))

lemma addDirty_same (a : NodeArena) (id : NodeId) (flags : DirtyFlags) : SameTree a (a.addDirty id flags) :=
  ⟨heap_modify_dirty a id _, fun _ => seen_modify _⟩

lemma markFrom_same (flags : DirtyFlags) (fuel : Nat) (a : NodeArena) (current : Option NodeId) :
    SameTree a (markFrom flags fuel a current) := by
  induction fuel generalizing a current with
  | zero => exact .refl a
  | succ fuel ih =>
    cases current with
    | none => exact .refl a
    | some id =>
      unfold markFrom
      dsimp only
      split_ifs
      · exact addDirty_same a id flags
      · exact (addDirty_same a id flags).trans (ih _ _)

lemma markAncestorsDirty_same (a : NodeArena) (start : NodeId) (flags : DirtyFlags) :
    SameTree a (markAncestorsDirty a start flags) := markFrom_same flags _ a _

lemma markSubtreeDirty_same (flags : DirtyFlags) (fuel : Nat) (a : NodeArena) (id : NodeId) :
    SameTree a (markSubtreeDirty flags fuel a id) := by
  induction fuel generalizing a id with
  | zero => exact .refl a
  | succ fuel ih => exact (addDirty_same a id _).trans (SameTree.foldl (fun a id => ih a id) _ _)

lemma markDescendantsDirty_same (a : NodeArena) (id : NodeId) (flags : DirtyFlags) :
    SameTree a (markDescendantsDirty a id flags) :=
  SameTree.foldl (fun a id => markSubtreeDirty_same flags _ a id) _ a

end NodeArena

/-! ## references -/

/-- the reference that an element holds -/
def refOf (c : NodeId × ElementData) : Option (RefId × NodeId) := c.2.nodeRef.map fun ref => (ref, c.1)

/-- the references that the elements of a tree hold, a parent before its children -/
def refCells (t : ElementTree) : List (RefId × NodeId) := t.nodes.filterMap refOf

def forestRefCells (ts : List ElementTree) : List (RefId × NodeId) := (forestNodes ts).filterMap refOf

lemma refCells_eq (t : ElementTree) :
    refCells t = (t.data.nodeRef.map fun ref => (ref, t.id)).toList ++ forestRefCells t.children := by
  unfold refCells forestRefCells
  rw [nodes_eq, List.filterMap_cons]
  have hroot : refOf (t.id, t.data) = t.data.nodeRef.map fun ref => (ref, t.id) := rfl
  rw [hroot]
  cases t.data.nodeRef <;> rfl

@[simp] lemma forestRefCells_nil : forestRefCells [] = [] := by
  simp [forestRefCells]

lemma forestRefCells_cons (t : ElementTree) (ts : List ElementTree) :
    forestRefCells (t :: ts) = refCells t ++ forestRefCells ts := by
  unfold forestRefCells refCells
  rw [forestNodes_cons, List.filterMap_append]

/-- the references of some elements are set, one after the other -/
def setRefs (refs : RefId → Option NodeId) (cells : List (RefId × NodeId)) : RefId → Option NodeId :=
  cells.foldl (fun refs c => Function.update refs c.1 (some c.2)) refs

lemma setRefs_append (refs : RefId → Option NodeId) (xs ys : List (RefId × NodeId)) :
    setRefs refs (xs ++ ys) = setRefs (setRefs refs xs) ys := List.foldl_append

/-- some references are cleared -/
def clearRefs (refs : RefId → Option NodeId) (cells : List (RefId × NodeId)) : RefId → Option NodeId :=
  fun ref => if ref ∈ cells.map Prod.fst then none else refs ref

lemma clearRefs_append (refs : RefId → Option NodeId) (xs ys : List (RefId × NodeId)) :
    clearRefs refs (xs ++ ys) = clearRefs (clearRefs refs xs) ys := by
  funext ref
  unfold clearRefs
  rw [List.map_append]
  by_cases hx : ref ∈ xs.map Prod.fst
  · rw [if_pos (List.mem_append_left _ hx), if_pos hx]
    split_ifs <;> rfl
  · rw [if_neg hx]
    simp only [List.mem_append, hx, false_or]

lemma clearRefs_perm (refs : RefId → Option NodeId) {xs ys : List (RefId × NodeId)} (h : xs.Perm ys) :
    clearRefs refs xs = clearRefs refs ys := by
  funext ref
  unfold clearRefs
  simp only [(h.map Prod.fst).mem_iff]

/-! ## the end of a tree -/

section
variable {w : World} {t : ElementTree} {rest : NodeId → Option (Links NodeId × ElementData)}
  {parent prev next : Option NodeId}

/-- an element without children goes -/
lemma release_spec {cells : List Cell} {c : Cell} (h : Owns w.arena.heap (c :: cells) rest) :
    Owns (w.release c.1).arena.heap cells rest ∧ (∀ i, (w.release c.1).arena.Seen i ↔ w.arena.Seen i) ∧
      (w.release c.1).refs = clearRefs w.refs (refOf (c.1, c.2.2)).toList := by
  obtain ⟨e, he, -, hdata⟩ := NodeArena.get_of_heap (h.stored c List.mem_cons_self)
  refine ⟨?_, fun _ => NodeArena.seen_dealloc, ?_⟩
  · show Owns (w.arena.dealloc c.1).heap _ _
    rw [NodeArena.heap_dealloc]
    exact h.free
  · unfold World.release
    have href : ((some e).bind fun e => e.nodeRef) = c.2.2.nodeRef := congrArg ElementData.nodeRef hdata
    rw [he, href]
    unfold refOf
    cases c.2.2.nodeRef with
    | none =>
      funext ref
      simp [clearRefs]
    | some ref =>
      funext k
      simp [clearRefs, Function.update_apply]

theorem deallocBelow_spec (t : ElementTree) {fuel : Nat} (hfuel : t.ids.length ≤ fuel)
    (h : Owns w.arena.heap (t.cells parent prev next) rest) :
    (deallocBelow fuel w t.id).arena.heap = rest ∧ (∀ i, (deallocBelow fuel w t.id).arena.Seen i ↔ w.arena.Seen i) ∧
      (deallocBelow fuel w t.id).refs = clearRefs w.refs (refCells t) := by
  induction t using Rose.induct generalizing fuel w parent prev next rest with
  | h id data children ih =>
    rw [ids_eq, List.length_cons] at hfuel
    obtain ⟨fuel, rfl⟩ := Nat.exists_eq_add_of_le' (Nat.lt_of_lt_of_le (Nat.succ_pos _) hfuel)
    -- the children go one after the other; the element still links to them
    have hchildren : ∀ (ts : List ElementTree), (∀ t ∈ ts, t ∈ children) → ∀ (w : World) (prev : Option NodeId) (cell : Cell),
        (forestIds ts).length ≤ fuel → Owns w.arena.heap (cell :: chain id prev none ts) rest →
        Owns ((roots ts).foldl (deallocBelow fuel) w).arena.heap [cell] rest ∧
          (∀ i, ((roots ts).foldl (deallocBelow fuel) w).arena.Seen i ↔ w.arena.Seen i) ∧
          ((roots ts).foldl (deallocBelow fuel) w).refs = clearRefs w.refs (forestRefCells ts) := by
      intro ts
      induction ts with
      | nil =>
        intro _ w prev cell _ h
        refine ⟨by simpa [roots] using h, fun _ => Iff.rfl, ?_⟩
        funext ref
        simp [roots, clearRefs]
      | cons t ts ihts =>
        intro hmem w prev cell hlen h
        rw [forestIds_cons, List.length_append] at hlen
        rw [chain_cons] at h
        have hperm : Owns w.arena.heap (t.cells (some id) prev (headId ts <|> none) ++ cell :: chain id (some t.id) none ts)
            rest := h.perm List.perm_middle.symm
        have hfit : t.ids.length ≤ fuel := by omega
        obtain ⟨hheap, hseen, hrefs⟩ := ih t (hmem t List.mem_cons_self) hfit hperm.focus
        have hnext : Owns (deallocBelow fuel w t.id).arena.heap (cell :: chain id (some t.id) none ts) rest :=
          hperm.drop hheap
        obtain ⟨hown, hseen', hrefs'⟩ :=
          ihts (fun u hu => hmem u (List.mem_cons_of_mem _ hu)) _ (some t.id) cell (by omega) hnext
        refine ⟨hown, fun i => (hseen' i).trans (hseen i), ?_⟩
        show ((roots ts).foldl (deallocBelow fuel) (deallocBelow fuel w t.id)).refs = _
        rw [hrefs', hrefs, forestRefCells_cons, clearRefs_append]
    have hown := h
    rw [cells_eq] at hown
    have hkids : w.arena.children id = roots children := NodeArena.children_eq h
    obtain ⟨hroot, hseen, hrefs⟩ := hchildren children (fun _ h => h) w none _ (by
      have : (forestIds children).length + 1 ≤ fuel + 1 := hfuel
      omega) hown
    obtain ⟨hnil, hseen', hrefs'⟩ := release_spec hroot
    have hrun : deallocBelow (fuel + 1) w id = ((roots children).foldl (deallocBelow fuel) w).release id := by
      rw [deallocBelow, hkids]
    show (deallocBelow (fuel + 1) w id).arena.heap = rest ∧ (∀ i, (deallocBelow (fuel + 1) w id).arena.Seen i ↔ _) ∧
      (deallocBelow (fuel + 1) w id).refs = _
    rw [hrun]
    refine ⟨?_, fun i => (hseen' i).trans (hseen i), ?_⟩
    · funext i
      exact hnil.outside i (by simp)
    · rw [refCells_eq]
      refine hrefs'.trans ?_
      rw [hrefs, ← clearRefs_append]
      exact clearRefs_perm _ List.perm_append_comm

/-- a tree of the arena is freed -/
theorem deallocSubtree_spec (h : Owns w.arena.heap (t.cells parent prev next) rest) :
    (deallocSubtree w t.id).arena.heap = rest ∧ (∀ i, (deallocSubtree w t.id).arena.Seen i ↔ w.arena.Seen i) ∧
      (deallocSubtree w t.id).refs = clearRefs w.refs (refCells t) :=
  deallocBelow_spec t (NodeArena.length_ids_le h) h

end

/-! ## a tree that is built -/

/-- the definitions of the children that are elements of their own -/
def shownChildren (p : DefProps) (ds : List ElementDef) : List ElementDef :=
  if p.tag = .select then [] else ds.filter fun d => d.tag ≠ .option

/-- a tree is as its definition says -/
inductive Built : ElementDef → ElementTree → Prop
  | mk {p : DefProps} {ds : List ElementDef} {id : NodeId} {children : List ElementTree}
    (h : List.Forall₂ Built (shownChildren p ds) children) : Built (.mk p ds) (.node id (buildData p) children)

/-- ids that were handed out since -/
structure Fresh (a a' : NodeArena) (ids : List NodeId) : Prop where
  older : ∀ i, a.Seen i → a'.Seen i
  new : ∀ i ∈ ids, ¬ a.Seen i ∧ a'.Seen i

namespace Fresh
variable {a a' a'' : NodeArena} {ids ids' : List NodeId}

lemma nil (h : ∀ i, a.Seen i → a'.Seen i) : Fresh a a' [] := ⟨h, fun _ hi => by (cases hi)⟩

lemma append (h : Fresh a a' ids) (h' : Fresh a' a'' ids') : Fresh a a'' (ids ++ ids') where
  older := fun i hi => h'.older i (h.older i hi)
  new := by
    intro i hi
    rcases List.mem_append.mp hi with hi | hi
    · exact ⟨(h.new i hi).1, h'.older i (h.new i hi).2⟩
    · exact ⟨fun hseen => (h'.new i hi).1 (h.older i hseen), (h'.new i hi).2⟩

/-- what follows hands out no id -/
lemma same (h : Fresh a a' ids) (hs : ∀ i, a''.Seen i ↔ a'.Seen i) : Fresh a a'' ids :=
  ⟨fun i hi => (hs i).mpr (h.older i hi), fun i hi => ⟨(h.new i hi).1, (hs i).mpr (h.new i hi).2⟩⟩

/-- what came before handed out no id -/
lemma after (h : Fresh a' a'' ids) (hs : ∀ i, a'.Seen i ↔ a.Seen i) : Fresh a a'' ids :=
  ⟨fun i hi => h.older i ((hs i).mpr hi), fun i hi => ⟨fun hseen => (h.new i hi).1 ((hs i).mpr hseen), (h.new i hi).2⟩⟩

end Fresh

section
variable {w : World} {parent : Option NodeId} {rest : NodeId → Option (Links NodeId × ElementData)}

lemma mount_spec (w : World) (parent : Option NodeId) (p : DefProps) :
    Owns (w.mount parent p).arena.heap ((Rose.node w.arena.nextId (buildData p) []).cells parent none none) w.arena.heap ∧
      Fresh w.arena (w.mount parent p).arena [w.arena.nextId] ∧
      (w.mount parent p).refs = setRefs w.refs (p.nodeRef.map fun ref => (ref, w.arena.nextId)).toList := by
  have harena : (w.mount parent p).arena.heap = (w.arena.alloc (newElement parent (buildData p))).heap ∧
      ∀ i, (w.mount parent p).arena.Seen i ↔ (w.arena.alloc (newElement parent (buildData p))).Seen i := by
    unfold World.mount
    dsimp only
    split_ifs
    · exact ⟨rfl, fun _ => Iff.rfl⟩
    · exact ⟨rfl, fun _ => Iff.rfl⟩
  refine ⟨?_, ⟨?_, ?_⟩, ?_⟩
  · rw [harena.1, NodeArena.heap_alloc, cells_eq, show Rose.children (Rose.node _ _ _) = [] from rfl, chain_nil]
    exact (owns_nil _).alloc w.arena.heap_nextId _
  · intro i hi
    rw [harena.2, NodeArena.seen_alloc]
    exact .inr hi
  · intro i hi
    rw [List.mem_singleton] at hi
    rw [harena.2, NodeArena.seen_alloc, hi]
    exact ⟨w.arena.not_seen_nextId, .inl rfl⟩
  · unfold World.mount
    cases p.nodeRef <;> rfl

/-- a child is linked at the end -/
lemma linkBuilt_spec {a : NodeArena} {id : NodeId} {data : ElementData} {children : List ElementTree} {child : ElementTree}
    (h : Owns a.heap (child.cells (some id) none none ++ (Rose.node id data children).cells parent none none) rest) :
    Owns (a.linkBuilt id (lastId children) child.id).heap
      ((Rose.node id data (children ++ [child])).cells parent none none) rest := by
  unfold NodeArena.linkBuilt
  dsimp only
  rw [NodeArena.heap_setLast]
  have hchild : Owns (modify a.heap child.id (setPrev (lastId children)))
      (child.cells (some id) (lastId children) none ++ (Rose.node id data children).cells parent none none) rest :=
    owns_relink_root h (setPrev (lastId children)) rfl
  rw [← NodeArena.heap_setPrev, cells_eq (Rose.node id data children)] at hchild
  rcases children.eq_nil_or_concat' with rfl | ⟨ts, t, rfl⟩
  · -- the first child
    rw [lastId_nil] at hchild ⊢
    dsimp only
    rw [NodeArena.heap_setFirst]
    have hroot := ((hchild.perm List.perm_append_comm).modify (setFirst (some child.id))).modify (setLast (some child.id))
    rw [cells_eq, show Rose.children (Rose.node id data ([] ++ [child])) = [child] from rfl, chain_cons, chain_nil,
      List.append_nil]
    exact hroot
  · -- after the last one
    rw [lastId_concat] at hchild ⊢
    dsimp only
    rw [NodeArena.heap_setNext]
    have hfront : Owns _ (chain id none none (ts ++ [t]) ++
        (Rose.node id data (ts ++ [t])).cell parent none none :: child.cells (some id) (some t.id) none) rest :=
      (hchild.perm List.perm_append_comm).perm List.perm_middle.symm
    have hnext := owns_setNext hfront (lastId_concat ts t) (some child.id)
    have hroot := (hnext.perm List.perm_middle).modify (setLast (some child.id))
    rw [cells_eq, show Rose.children (Rose.node id data (ts ++ [t] ++ [child])) = ts ++ [t] ++ [child] from rfl,
      chain_concat, lastId_concat]
    have hhead : headId (ts ++ [t] ++ [child]) = headId (ts ++ [t]) := by
      cases ts <;> rfl
    unfold Rose.cell
    rw [show Rose.children (Rose.node id data (ts ++ [t] ++ [child])) = ts ++ [t] ++ [child] from rfl, hhead, lastId_concat]
    exact hroot

lemma seen_linkBuilt (a : NodeArena) (id : NodeId) (prev : Option NodeId) (child i : NodeId) :
    (a.linkBuilt id prev child).Seen i ↔ a.Seen i := by
  cases prev <;> simp only [NodeArena.linkBuilt, NodeArena.seen_modify]

theorem buildSubtree_spec (d : ElementDef) (w : World) (parent : Option NodeId) : ∃ t, Built d t ∧
    (buildSubtree w parent d).2 = t.id ∧
      Owns (buildSubtree w parent d).1.arena.heap (t.cells parent none none) w.arena.heap ∧
        Fresh w.arena (buildSubtree w parent d).1.arena t.ids ∧
          (buildSubtree w parent d).1.refs = setRefs w.refs (refCells t) := by
  induction d using ElementDef.induct generalizing w parent with
  | h p ds ih =>
    -- the children, one after the other, under the element with those before
    have hchildren : ∀ (ds' : List ElementDef), (∀ d ∈ ds', d ∈ ds) → ∀ (w : World) (id : NodeId) (before : List ElementTree)
        (rest : NodeId → Option (Links NodeId × ElementData)),
        Owns w.arena.heap ((Rose.node id (buildData p) before).cells parent none none) rest →
        ∃ after, List.Forall₂ Built (ds'.filter fun d => d.tag ≠ .option) after ∧
          Owns (buildChildren w id (lastId before) ds').arena.heap
            ((Rose.node id (buildData p) (before ++ after)).cells parent none none) rest ∧
          Fresh w.arena (buildChildren w id (lastId before) ds').arena (forestIds after) ∧
          (buildChildren w id (lastId before) ds').refs = setRefs w.refs (forestRefCells after) := by
      intro ds'
      induction ds' with
      | nil =>
        intro _ w id before rest h
        refine ⟨[], .nil, by rwa [List.append_nil], ?_, ?_⟩
        · rw [forestIds_nil]
          exact .nil fun _ hi => hi
        · rw [forestRefCells_nil]
          rfl
      | cons d ds' ihds =>
        intro hmem w id before rest h
        have hrest := ihds fun d hd => hmem d (List.mem_cons_of_mem _ hd)
        rw [buildChildren]
        by_cases hoption : d.tag = .option
        · rw [if_pos hoption, List.filter_cons_of_neg (by simpa using hoption)]
          exact hrest w id before rest h
        · rw [if_neg hoption, List.filter_cons_of_pos (by simpa using hoption)]
          obtain ⟨child, hbuilt, hid, hown, hfresh, hrefs⟩ := ih d (hmem d List.mem_cons_self) w (some id)
          -- the new child beside the cells of the element, then linked to them
          have hbeside := hown.beside h
          have hlinked := linkBuilt_spec hbeside
          obtain ⟨after, hafter, hown', hfresh', hrefs'⟩ := hrest
            { (buildSubtree w (some id) d).1 with
              arena := (buildSubtree w (some id) d).1.arena.linkBuilt id (lastId before) child.id }
            id (before ++ [child]) rest hlinked
          rw [lastId_concat, List.append_assoc] at hown'
          rw [lastId_concat] at hfresh' hrefs'
          dsimp only
          rw [hid]
          refine ⟨child :: after, .cons hbuilt hafter, hown', ?_, ?_⟩
          · rw [forestIds_cons]
            exact hfresh.append (hfresh'.after fun i => seen_linkBuilt _ _ _ _ i)
          · rw [hrefs', hrefs, forestRefCells_cons, setRefs_append]
    obtain ⟨hmount, hfresh, hrefs⟩ := mount_spec w parent p
    rw [buildSubtree]
    by_cases hselect : p.tag = .select
    · rw [if_pos hselect]
      refine ⟨_, @Built.mk p ds _ [] (by rw [shownChildren, if_pos hselect]; exact .nil), rfl, hmount, ?_, ?_⟩
      · rw [ids_eq]
        exact hfresh
      · rw [hrefs, refCells_eq, show Rose.children (Rose.node _ _ _) = [] from rfl, forestRefCells_nil, List.append_nil]
        rfl
    · rw [if_neg hselect]
      obtain ⟨after, hafter, hown, hfresh', hrefs'⟩ := hchildren ds (fun _ h => h) _ _ [] _ hmount
      refine ⟨_, @Built.mk p ds _ after (by rw [shownChildren, if_neg hselect]; exact hafter), rfl, hown, ?_, ?_⟩
      · rw [ids_eq]
        exact hfresh.append hfresh'
      · rw [show lastId ([] : List ElementTree) = none from rfl] at hrefs'
        rw [hrefs', hrefs, refCells_eq, ← setRefs_append]
        rfl

end

end TerminalManager.Reconcile
