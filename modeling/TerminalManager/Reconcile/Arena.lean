import TerminalManager.Reconcile.Element

/-!
# The arena

Elements live in slots.  A slot that is freed is used again under the next generation, so that an id that was handed out
once is never handed out again.

* `NodeArena`                      the slots and the free list, which lists vacant slots only;
* `alloc`, `dealloc`, `get`, `modify`, `children`   the operations;
* `NodeArena.heap`                 the links and the data of the live elements;
* `Seen`                           the ids handed out so far;
* `live_length`                    there are no more live elements than slots.

Indices and generations are numbers without bound: an index wraps after `2^32` slots, a generation after as many uses of
one slot.
-/

namespace TerminalManager.Reconcile
open LinkedTree (Links)
open Ownership

inductive Slot
  | occupied (generation : Nat) (node : Element)
  | vacant (generation : Nat)

/-- the slot has an element of this generation -/
def Slot.get (generation : Nat) : Slot → Option Element
  | .occupied g e => if g = generation then some e else none
  | .vacant _ => none

def Slot.modify (generation : Nat) (f : Element → Element) : Slot → Slot
  | .occupied g e => .occupied g (if g = generation then f e else e)
  | .vacant g => .vacant g

/-- the generation of the next element of the slot -/
def Slot.next : Slot → Nat
  | .occupied g _ => g + 1
  | .vacant g => g

structure NodeArena where
  nodes : List Slot
  /-- the slot to be used next comes first -/
  freeList : List Nat
  pendingAutofocus : Option NodeId
  nodup : freeList.Nodup
  vacant : ∀ i ∈ freeList, ∃ g, nodes[i]? = some (.vacant g)

namespace NodeArena

def empty : NodeArena := ⟨[], [], none, List.nodup_nil, fun _ h => by (cases h)⟩

/-- the generation of the next element of the slot `i` -/
def nextGeneration (a : NodeArena) (i : Nat) : Nat := (a.nodes[i]?.map Slot.next).getD 0

def get (a : NodeArena) (id : NodeId) : Option Element := a.nodes[id.index]?.bind (Slot.get id.generation)

/-- `get_mut`, and what is done with it -/
def modify (a : NodeArena) (id : NodeId) (f : Element → Element) : NodeArena where
  nodes := a.nodes.modify id.index (Slot.modify id.generation f)
  freeList := a.freeList
  pendingAutofocus := a.pendingAutofocus
  nodup := a.nodup
  vacant := by
    intro i hi
    obtain ⟨g, hg⟩ := a.vacant i hi
    refine ⟨g, ?_⟩
    rw [List.getElem?_modify, hg]
    split_ifs <;> rfl

/-- the id of the next element -/
def nextId (a : NodeArena) : NodeId :=
  match a.freeList with
  | i :: _ => ⟨i, a.nextGeneration i⟩
  | [] => ⟨a.nodes.length, 0⟩

def alloc (a : NodeArena) (e : Element) : NodeArena where
  nodes :=
    match a.freeList with
    | i :: _ => a.nodes.set i (.occupied (a.nextGeneration i) e)
    | [] => a.nodes ++ [.occupied 0 e]
  freeList := a.freeList.tail
  pendingAutofocus := a.pendingAutofocus
  nodup := a.nodup.tail
  vacant := by
    intro i hi
    cases hfree : a.freeList with
    | nil =>
      rw [hfree] at hi
      cases hi
    | cons j rest =>
      have hnd := a.nodup
      rw [hfree] at hi hnd
      obtain ⟨g, hg⟩ := a.vacant i (by rw [hfree]; exact List.mem_cons_of_mem _ hi)
      refine ⟨g, ?_⟩
      have hne : j ≠ i := fun heq => (List.nodup_cons.mp hnd).1 (heq ▸ hi)
      dsimp only
      rw [List.getElem?_set_ne hne]
      exact hg

def dealloc (a : NodeArena) (id : NodeId) : NodeArena :=
  if h : (a.get id).isSome then
    { nodes := a.nodes.set id.index (.vacant (id.generation + 1))
      freeList := id.index :: a.freeList
      pendingAutofocus := a.pendingAutofocus
      nodup := by
        refine List.nodup_cons.mpr ⟨fun hmem => ?_, a.nodup⟩
        obtain ⟨g, hg⟩ := a.vacant _ hmem
        unfold get at h
        rw [hg] at h
        cases h
      vacant := by
        intro i hi
        by_cases heq : i = id.index
        · refine ⟨id.generation + 1, ?_⟩
          have hlt : id.index < a.nodes.length := by
            by_contra hge
            unfold get at h
            rw [List.getElem?_eq_none (Nat.le_of_not_lt hge)] at h
            cases h
          rw [heq, List.getElem?_set_self hlt]
        · obtain ⟨g, hg⟩ := a.vacant i ((List.mem_cons.mp hi).resolve_left heq)
          refine ⟨g, ?_⟩
          rw [List.getElem?_set_ne (Ne.symm heq)]
          exact hg }
  else
    a

/-- the chain of siblings from a link on; `fuel` bounds its length -/
def siblings (a : NodeArena) : Nat → Option NodeId → List NodeId
  | 0, _ => []
  | _, none => []
  | fuel + 1, some id => id :: siblings a fuel ((a.get id).bind fun e => e.nextSibling)

def children (a : NodeArena) (id : NodeId) : List NodeId :=
  match a.get id with
  | some e => a.siblings (a.nodes.length + 1) e.firstChild
  | none => []

/-! ## what the operations do -/

/-- the id was handed out -/
def Seen (a : NodeArena) (id : NodeId) : Prop := id.generation < a.nextGeneration id.index

variable {a : NodeArena} {id i : NodeId} {e : Element}

lemma seen_of_get (h : a.get id = some e) : a.Seen id := by
  unfold get at h
  obtain ⟨slot, hslot, hget⟩ := Option.bind_eq_some_iff.mp h
  unfold Seen nextGeneration
  rw [hslot]
  cases slot with
  | vacant g => cases hget
  | occupied g node =>
    simp only [Slot.get] at hget
    split_ifs at hget with hg
    rw [← hg]
    exact Nat.lt_succ_self g

lemma not_seen_nextId (a : NodeArena) : ¬ a.Seen a.nextId := by
  unfold Seen nextId
  split
  · exact Nat.lt_irrefl _
  · unfold nextGeneration
    rw [List.getElem?_eq_none (Nat.le_refl _)]
    exact Nat.not_lt_zero _

@[simp] lemma get_modify (a : NodeArena) (id i : NodeId) (f : Element → Element) :
    (a.modify id f).get i = if i = id then (a.get id).map f else a.get i := by
  unfold get modify
  dsimp only
  rw [List.getElem?_modify]
  by_cases hindex : i.index = id.index
  · simp only [hindex, if_true]
    cases a.nodes[id.index]? with
    | none => split_ifs <;> rfl
    | some slot =>
      cases slot with
      | vacant g => split_ifs <;> rfl
      | occupied g node =>
        show (if g = i.generation then some (if g = id.generation then f node else node) else none) =
          if i = id then Option.map f (if g = id.generation then some node else none)
          else if g = i.generation then some node else none
        by_cases hgen : i.generation = id.generation
        · rw [if_pos (NodeId.ext hindex hgen), hgen]
          split_ifs <;> rfl
        · have hid : i ≠ id := fun h => hgen (congrArg NodeId.generation h)
          rw [if_neg hid]
          split_ifs with h1 h2
          · exact absurd (h1.symm.trans h2) hgen
          · rfl
          · rfl
  · have hne : i ≠ id := fun h => hindex (congrArg NodeId.index h)
    rw [if_neg hne]
    simp [Ne.symm hindex]

/-- the slot that the next element takes -/
lemma alloc_slot (a : NodeArena) (e : Element) (i : Nat) :
    (a.alloc e).nodes[i]? = if i = a.nextId.index then some (.occupied a.nextId.generation e) else a.nodes[i]? := by
  unfold alloc nextId
  dsimp only
  cases hfree : a.freeList with
  | nil =>
    dsimp only
    rw [List.getElem?_append]
    split_ifs with hlt heq heq
    · omega
    · rfl
    · rw [heq, Nat.sub_self]
      rfl
    · rw [@List.getElem?_eq_none _ a.nodes _ (by omega), List.getElem?_eq_none]
      simp only [List.length_cons, List.length_nil]
      omega
  | cons j rest =>
    dsimp only
    obtain ⟨g, hg⟩ := a.vacant j (by rw [hfree]; exact List.mem_cons_self)
    rw [List.getElem?_set]
    have hlt := (List.getElem?_eq_some_iff.mp hg).1
    split_ifs with h1 h2 h2
    · rfl
    · exact absurd h1.symm h2
    · exact absurd h2.symm h1
    · rfl

/-- no live element is at the next id -/
lemma get_nextId (a : NodeArena) : a.get a.nextId = none := by
  cases h : a.get a.nextId with
  | none => rfl
  | some e => exact absurd (seen_of_get h) (not_seen_nextId a)

/-- the slot of the next element has no element of another generation -/
lemma get_next_slot (a : NodeArena) (i : NodeId) (h : i.index = a.nextId.index) : a.get i = none := by
  unfold get nextId at *
  cases hfree : a.freeList with
  | nil =>
    simp only [hfree] at h
    rw [List.getElem?_eq_none (Nat.le_of_eq h.symm)]
    rfl
  | cons j rest =>
    simp only [hfree] at h
    obtain ⟨g, hg⟩ := a.vacant j (by rw [hfree]; exact List.mem_cons_self)
    rw [h, hg]
    rfl

@[simp] lemma get_alloc (a : NodeArena) (e : Element) (i : NodeId) :
    (a.alloc e).get i = if i = a.nextId then some e else a.get i := by
  by_cases hindex : i.index = a.nextId.index
  · have hget : (a.alloc e).get i = if a.nextId.generation = i.generation then some e else none := by
      show (a.alloc e).nodes[i.index]?.bind _ = _
      rw [alloc_slot, if_pos hindex]
      rfl
    rw [hget, get_next_slot a i hindex]
    by_cases hgen : a.nextId.generation = i.generation
    · rw [if_pos hgen, if_pos (NodeId.ext hindex hgen.symm)]
    · rw [if_neg hgen, if_neg fun h => hgen (congrArg NodeId.generation h.symm)]
  · rw [if_neg fun h => hindex (congrArg NodeId.index h)]
    unfold get
    rw [alloc_slot, if_neg hindex]

@[simp] lemma get_dealloc (a : NodeArena) (id i : NodeId) :
    (a.dealloc id).get i = if i = id then none else a.get i := by
  unfold dealloc
  split_ifs with hsome heq heq
  · subst heq
    unfold get
    dsimp only
    rw [List.getElem?_set, if_pos rfl]
    split_ifs <;> rfl
  · unfold get
    dsimp only
    by_cases hindex : id.index = i.index
    · rw [List.getElem?_set, if_pos hindex]
      -- another generation of the slot is not live
      have hnone : a.get i = none := by
        unfold get at hsome ⊢
        rw [← hindex]
        cases hslot : a.nodes[id.index]? with
        | none => rfl
        | some slot =>
          rw [hslot] at hsome
          cases slot with
          | vacant g => rfl
          | occupied g node =>
            show (if g = i.generation then some node else none) = none
            rw [if_neg]
            rintro rfl
            have hgen : ¬ i.generation = id.generation := fun h => heq (NodeId.ext hindex.symm h)
            have : ((if i.generation = id.generation then some node else none : Option Element)).isSome := hsome
            rw [if_neg hgen] at this
            cases this
      have := hnone
      unfold get at this
      rw [this]
      split_ifs <;> rfl
    · rw [List.getElem?_set_ne hindex]
  · subst heq
    exact Option.not_isSome_iff_eq_none.mp hsome
  · rfl

/-! ## ids are not used twice -/

lemma nextGeneration_modify (a : NodeArena) (id : NodeId) (f : Element → Element) (i : Nat) :
    (a.modify id f).nextGeneration i = a.nextGeneration i := by
  unfold nextGeneration modify
  dsimp only
  rw [List.getElem?_modify]
  cases a.nodes[i]? with
  | none => rfl
  | some slot =>
    split_ifs
    · cases slot <;> rfl
    · rfl

lemma nextGeneration_alloc (a : NodeArena) (e : Element) (i : Nat) :
    (a.alloc e).nextGeneration i = if i = a.nextId.index then a.nextId.generation + 1 else a.nextGeneration i := by
  unfold nextGeneration
  rw [alloc_slot]
  split_ifs <;> rfl

lemma nextGeneration_nextId (a : NodeArena) : a.nextGeneration a.nextId.index = a.nextId.generation := by
  unfold nextId
  cases a.freeList with
  | nil =>
    unfold nextGeneration
    rw [List.getElem?_eq_none (Nat.le_refl _)]
    rfl
  | cons j rest => rfl

lemma nextGeneration_dealloc (a : NodeArena) (id : NodeId) (i : Nat) :
    (a.dealloc id).nextGeneration i = a.nextGeneration i := by
  unfold dealloc
  split_ifs with h
  · unfold nextGeneration
    dsimp only
    by_cases hi : id.index = i
    · subst hi
      obtain ⟨e, he⟩ := Option.isSome_iff_exists.mp h
      unfold get at he
      obtain ⟨slot, hslot, hget⟩ := Option.bind_eq_some_iff.mp he
      rw [List.getElem?_set_self (List.getElem?_eq_some_iff.mp hslot).1, hslot]
      cases slot with
      | vacant g => cases hget
      | occupied g node =>
        simp only [Slot.get] at hget
        split_ifs at hget with hg
        rw [hg]
        rfl
    · rw [List.getElem?_set_ne hi]
  · rfl

@[simp] lemma seen_modify (f : Element → Element) : (a.modify id f).Seen i ↔ a.Seen i := by
  unfold Seen
  rw [nextGeneration_modify]

@[simp] lemma seen_dealloc : (a.dealloc id).Seen i ↔ a.Seen i := by
  unfold Seen
  rw [nextGeneration_dealloc]

@[simp] lemma seen_alloc : (a.alloc e).Seen i ↔ i = a.nextId ∨ a.Seen i := by
  unfold Seen
  rw [nextGeneration_alloc]
  by_cases hindex : i.index = a.nextId.index
  · rw [if_pos hindex, hindex, nextGeneration_nextId, Nat.lt_succ_iff_lt_or_eq, or_comm]
    refine or_congr_left ⟨fun h => NodeId.ext hindex h, fun h => congrArg _ h⟩
  · rw [if_neg hindex]
    exact ⟨.inr, fun h => h.resolve_left fun heq => hindex (congrArg _ heq)⟩

/-! ## the heap -/

/-- the links and the data of the live elements -/
def heap (a : NodeArena) (i : NodeId) : Option (Links NodeId × ElementData) :=
  (a.get i).map fun e => (e.toLinks, e.toElementData)

lemma get_of_heap {c : Links NodeId × ElementData} (h : a.heap id = some c) :
    ∃ e, a.get id = some e ∧ e.toLinks = c.1 ∧ e.toElementData = c.2 := by
  obtain ⟨e, he, rfl⟩ := Option.map_eq_some_iff.mp h
  exact ⟨e, he, rfl, rfl⟩

lemma heap_nextId (a : NodeArena) : a.heap a.nextId = none := by
  unfold heap
  rw [get_nextId]
  rfl

lemma heap_alloc (a : NodeArena) (e : Element) :
    (a.alloc e).heap = Function.update a.heap a.nextId (some (e.toLinks, e.toElementData)) := by
  funext i
  unfold heap
  rw [get_alloc, Function.update_apply]
  split_ifs <;> rfl

lemma heap_dealloc (a : NodeArena) (id : NodeId) : (a.dealloc id).heap = Function.update a.heap id none := by
  funext i
  unfold heap
  rw [get_dealloc, Function.update_apply]
  split_ifs <;> rfl

/-- an element whose links and data are written -/
lemma heap_modify (a : NodeArena) (id : NodeId) (f : Element → Element)
    (g : Links NodeId × ElementData → Links NodeId × ElementData)
    (h : ∀ e, ((f e).toLinks, (f e).toElementData) = g (e.toLinks, e.toElementData)) :
    (a.modify id f).heap = Ownership.modify a.heap id g := by
  funext i
  unfold heap Ownership.modify
  rw [get_modify, Function.update_apply]
  split_ifs with hi
  · dsimp only
    cases a.get id with
    | none => rfl
    | some e => exact congrArg some (h e)
  · rfl

/-- an element whose flags are written -/
lemma heap_modify_dirty (a : NodeArena) (id : NodeId) (f : Element → DirtyFlags) :
    (a.modify id fun e => { e with dirty := f e }).heap = a.heap := by
  rw [heap_modify a id (fun e => { e with dirty := f e }) (fun c => c) fun _ => rfl]
  unfold Ownership.modify
  rw [show Option.map (fun c => c) (a.heap id) = a.heap id from Option.map_id']
  exact Function.update_eq_self id a.heap

/-! ## the size of the arena -/

/-- there are no more live elements than slots -/
theorem live_length (a : NodeArena) {ids : List NodeId} (hnd : ids.Nodup) (hlive : ∀ i ∈ ids, (a.get i).isSome) :
    ids.length ≤ a.nodes.length := by
  have hinj : (ids.map NodeId.index).Nodup := by
    refine hnd.map_on fun i hi j hj heq => NodeId.ext heq ?_
    have hi' := hlive i hi
    have hj' := hlive j hj
    unfold get at hi' hj'
    rw [← heq] at hj'
    cases hslot : a.nodes[i.index]? with
    | none =>
      rw [hslot] at hi'
      cases hi'
    | some slot =>
      rw [hslot] at hi' hj'
      cases slot with
      | vacant g => cases hi'
      | occupied g node =>
        have h1 : ((if g = i.generation then some node else none : Option Element)).isSome := hi'
        have h2 : ((if g = j.generation then some node else none : Option Element)).isSome := hj'
        split_ifs at h1 h2 with h3 h4
        · exact h3.symm.trans h4
        all_goals simp at h1 h2
  have hsub : ids.map NodeId.index ⊆ List.range a.nodes.length := by
    intro n hn
    obtain ⟨i, hi, rfl⟩ := List.mem_map.mp hn
    rw [List.mem_range]
    have hi' := hlive i hi
    unfold get at hi'
    by_contra hge
    rw [List.getElem?_eq_none (Nat.le_of_not_lt hge)] at hi'
    cases hi'
  have := (hinj.subperm hsub).length_le
  rwa [List.length_map, List.length_range] at this

end NodeArena

end TerminalManager.Reconcile
