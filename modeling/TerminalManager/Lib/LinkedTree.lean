import TerminalManager.Lib.Ownership
import Mathlib.Data.List.Forall2
import Mathlib.Data.List.Infix

/-!
# Trees with sibling links

A tree is stored node by node: each cell holds the node's data and the links to its parent, its first and last child and
its siblings.

* `Rose ι δ`                 a tree whose nodes have an id in `ι` and data in `δ`;
* `Rose.cells`, `chain`      its cells, and those of a list of children one after the other;
* `level`                    the cells of trees whose roots have some other links to their siblings;
* `chain_eq_level`           the chain is a level;
* `Rose.induct`              induction over a tree and its children.

A level is what a list of children is while its links are being rewritten.
-/

namespace LinkedTree
open Ownership

/-- the links of a node; `none` is the dangling id -/
structure Links (ι : Type*) where
  parent : Option ι
  firstChild : Option ι
  lastChild : Option ι
  nextSibling : Option ι
  prevSibling : Option ι
deriving DecidableEq, Repr

inductive Rose (ι δ : Type*)
  | node (id : ι) (data : δ) (children : List (Rose ι δ))

section
variable {ι δ : Type*}

namespace Rose

def id : Rose ι δ → ι
  | node id _ _ => id

def data : Rose ι δ → δ
  | node _ data _ => data

def children : Rose ι δ → List (Rose ι δ)
  | node _ _ children => children

theorem induct {P : Rose ι δ → Prop} (h : ∀ id data children, (∀ t ∈ children, P t) → P (node id data children)) :
    ∀ t, P t
  | node id data children => h id data children fun t _ => induct h t

end Rose

/-! ## cells -/

/-- the id of the first tree -/
def headId (ts : List (Rose ι δ)) : Option ι := ts.head?.map Rose.id

/-- the id of the last tree -/
def lastId (ts : List (Rose ι δ)) : Option ι := ts.getLast?.map Rose.id

mutual
/-- the cells of a tree between two siblings -/
def Rose.cells (parent prev next : Option ι) : Rose ι δ → List (ι × Links ι × δ)
  | .node id data children =>
    (id, ⟨parent, headId children, lastId children, next, prev⟩, data) :: chain id none none children
/-- the cells of children of `parent` one after the other, between `prev` and `next` -/
def chain (parent : ι) (prev next : Option ι) : List (Rose ι δ) → List (ι × Links ι × δ)
  | [] => []
  | t :: ts => t.cells (some parent) prev (headId ts <|> next) ++ chain parent (some t.id) next ts
end

/-- the cell of the root -/
def Rose.cell (t : Rose ι δ) (parent prev next : Option ι) : ι × Links ι × δ :=
  (t.id, ⟨parent, headId t.children, lastId t.children, next, prev⟩, t.data)

lemma cells_eq (t : Rose ι δ) (parent prev next : Option ι) :
    t.cells parent prev next = t.cell parent prev next :: chain t.id none none t.children := by
  cases t
  rw [Rose.cells]
  rfl

@[simp] lemma chain_nil (parent : ι) (prev next : Option ι) : chain parent prev next ([] : List (Rose ι δ)) = [] := by
  rw [chain]

lemma chain_cons (parent : ι) (prev next : Option ι) (t : Rose ι δ) (ts : List (Rose ι δ)) :
    chain parent prev next (t :: ts) =
      t.cells (some parent) prev (headId ts <|> next) ++ chain parent (some t.id) next ts := by
  rw [chain]

@[simp] lemma headId_cons (t : Rose ι δ) (ts : List (Rose ι δ)) : headId (t :: ts) = some t.id := rfl

@[simp] lemma headId_nil : headId ([] : List (Rose ι δ)) = none := rfl

@[simp] lemma lastId_nil : lastId ([] : List (Rose ι δ)) = none := rfl

lemma headId_append (ts us : List (Rose ι δ)) : headId (ts ++ us) = (headId ts <|> headId us) := by
  cases ts with
  | nil => rfl
  | cons t ts => rfl

@[simp] lemma lastId_concat (ts : List (Rose ι δ)) (t : Rose ι δ) : lastId (ts ++ [t]) = some t.id := by
  unfold lastId
  rw [List.getLast?_concat]
  rfl

lemma lastId_cons (t : Rose ι δ) (ts : List (Rose ι δ)) : lastId (t :: ts) = (lastId ts <|> some t.id) := by
  unfold lastId
  rw [List.getLast?_cons]
  cases ts.getLast? <;> rfl

/-- two chains, one after the other -/
theorem chain_append (parent : ι) (prev next : Option ι) (ts us : List (Rose ι δ)) :
    chain parent prev next (ts ++ us) =
      chain parent prev (headId us <|> next) ts ++ chain parent (lastId ts <|> prev) next us := by
  induction ts generalizing prev with
  | nil => simp
  | cons t ts ih =>
    rw [List.cons_append, chain_cons, chain_cons, ih, List.append_assoc, headId_append, lastId_cons]
    congr 2
    · cases headId ts <;> rfl
    · cases lastId ts <;> rfl

mutual
/-- the ids of a tree, in the order of its cells -/
def Rose.ids : Rose ι δ → List ι
  | .node id _ children => id :: forestIds children
/-- the ids of some trees -/
def forestIds : List (Rose ι δ) → List ι
  | [] => []
  | t :: ts => t.ids ++ forestIds ts
end

lemma ids_eq (t : Rose ι δ) : t.ids = t.id :: forestIds t.children := by
  cases t
  rw [Rose.ids]
  rfl

@[simp] lemma forestIds_nil : forestIds ([] : List (Rose ι δ)) = [] := by
  rw [forestIds]

lemma forestIds_cons (t : Rose ι δ) (ts : List (Rose ι δ)) : forestIds (t :: ts) = t.ids ++ forestIds ts := by
  rw [forestIds]

lemma forestIds_append (ts us : List (Rose ι δ)) : forestIds (ts ++ us) = forestIds ts ++ forestIds us := by
  induction ts with
  | nil => simp
  | cons t ts ih => rw [List.cons_append, forestIds_cons, forestIds_cons, ih, List.append_assoc]

lemma id_mem_ids (t : Rose ι δ) : t.id ∈ t.ids := by
  rw [ids_eq]
  exact List.mem_cons_self

lemma mem_forestIds {ts : List (Rose ι δ)} {i : ι} : i ∈ forestIds ts ↔ ∃ t ∈ ts, i ∈ t.ids := by
  induction ts with
  | nil => simp
  | cons t ts ih => simp [forestIds_cons, ih]

lemma ids_subset_forestIds {t : Rose ι δ} {ts : List (Rose ι δ)} (h : t ∈ ts) : t.ids ⊆ forestIds ts :=
  fun _ hi => mem_forestIds.mpr ⟨t, h, hi⟩

lemma ids_sublist {t : Rose ι δ} {ts : List (Rose ι δ)} (h : t ∈ ts) : t.ids.Sublist (forestIds ts) := by
  obtain ⟨us, vs, rfl⟩ := List.append_of_mem h
  rw [forestIds_append, forestIds_cons]
  exact (List.sublist_append_left _ _).trans (List.sublist_append_right _ _)

mutual
/-- the ids of a tree with their data -/
def Rose.nodes : Rose ι δ → List (ι × δ)
  | .node id data children => (id, data) :: forestNodes children
/-- the ids of some trees with their data -/
def forestNodes : List (Rose ι δ) → List (ι × δ)
  | [] => []
  | t :: ts => t.nodes ++ forestNodes ts
end

lemma nodes_eq (t : Rose ι δ) : t.nodes = (t.id, t.data) :: forestNodes t.children := by
  cases t
  rw [Rose.nodes]
  rfl

@[simp] lemma forestNodes_nil : forestNodes ([] : List (Rose ι δ)) = [] := by
  rw [forestNodes]

lemma forestNodes_cons (t : Rose ι δ) (ts : List (Rose ι δ)) : forestNodes (t :: ts) = t.nodes ++ forestNodes ts := by
  rw [forestNodes]

lemma forestNodes_eq_flatMap (ts : List (Rose ι δ)) : forestNodes ts = ts.flatMap Rose.nodes := by
  induction ts with
  | nil => simp
  | cons t ts ih => rw [forestNodes_cons, ih, List.flatMap_cons]

mutual
lemma map_nodes : ∀ t : Rose ι δ, t.nodes.map Prod.fst = t.ids
  | .node id data children => by
    rw [Rose.nodes, Rose.ids, List.map_cons, map_forestNodes children]
lemma map_forestNodes : ∀ ts : List (Rose ι δ), (forestNodes ts).map Prod.fst = forestIds ts
  | [] => by
    rw [forestNodes, forestIds]
    rfl
  | t :: ts => by
    rw [forestNodes, forestIds, List.map_append, map_nodes t, map_forestNodes ts]
end

/-- the roots of some trees -/
def roots (ts : List (Rose ι δ)) : List ι := ts.map Rose.id

lemma roots_sublist (ts : List (Rose ι δ)) : (roots ts).Sublist (forestIds ts) := by
  induction ts with
  | nil => simp [roots]
  | cons t ts ih =>
    show (t.id :: roots ts).Sublist _
    rw [forestIds_cons, ids_eq, List.cons_append]
    exact (ih.trans (List.sublist_append_right _ _)).cons_cons _

lemma roots_mem {ts : List (Rose ι δ)} {i : ι} (h : i ∈ roots ts) : i ∈ forestIds ts := (roots_sublist ts).subset h

theorem cells_ids (t : Rose ι δ) :
    (∀ parent prev next, (t.cells parent prev next).map Prod.fst = t.ids) ∧
      ∀ parent prev next, (chain parent prev next t.children).map Prod.fst = forestIds t.children := by
  induction t using Rose.induct with
  | h id data children ih =>
    have hchain : ∀ ts : List (Rose ι δ), (∀ t ∈ ts, t ∈ children) → ∀ parent prev next,
        (chain parent prev next ts).map Prod.fst = forestIds ts := by
      intro ts
      induction ts with
      | nil => simp
      | cons t ts ihts =>
        intro hmem parent prev next
        rw [chain_cons, forestIds_cons, List.map_append, (ih t (hmem t List.mem_cons_self)).1,
          ihts fun u hu => hmem u (List.mem_cons_of_mem _ hu)]
    refine ⟨?_, fun parent prev next => hchain children (fun _ h => h) parent prev next⟩
    intro parent prev next
    rw [cells_eq, ids_eq, List.map_cons]
    congr 1
    exact hchain children (fun _ h => h) id none none

lemma map_cells (t : Rose ι δ) (parent prev next : Option ι) : (t.cells parent prev next).map Prod.fst = t.ids :=
  (cells_ids t).1 parent prev next

lemma map_chain (ts : List (Rose ι δ)) (parent : ι) (prev next : Option ι) :
    (chain parent prev next ts).map Prod.fst = forestIds ts := by
  induction ts generalizing prev with
  | nil => simp
  | cons t ts ih => rw [chain_cons, forestIds_cons, List.map_append, map_cells, ih]

lemma root_mem_cells (t : Rose ι δ) (parent prev next : Option ι) : t.cell parent prev next ∈ t.cells parent prev next := by
  rw [cells_eq]
  exact List.mem_cons_self

/-- the root of a tree of a chain -/
lemma root_mem_chain {ts : List (Rose ι δ)} {t : Rose ι δ} (h : t ∈ ts) (parent : ι) (prev next : Option ι) :
    ∃ prev' next', t.cell (some parent) prev' next' ∈ chain parent prev next ts := by
  induction ts generalizing prev with
  | nil => cases h
  | cons u ts ih =>
    rw [chain_cons]
    rcases List.mem_cons.mp h with rfl | h
    · exact ⟨_, _, List.mem_append_left _ (root_mem_cells _ _ _ _)⟩
    · obtain ⟨prev', next', hmem⟩ := ih h (some u.id)
      exact ⟨prev', next', List.mem_append_right _ hmem⟩

/-- the cell of the `k`th tree of a chain -/
lemma getElem_mem_chain {ts : List (Rose ι δ)} {t : Rose ι δ} {k : Nat} (h : ts[k]? = some t) (parent : ι)
    (prev next : Option ι) :
    t.cell (some parent) (if k = 0 then prev else (roots ts)[k - 1]?) ((roots ts)[k + 1]? <|> next) ∈
      chain parent prev next ts := by
  induction ts generalizing prev k with
  | nil => cases h
  | cons u ts ih =>
    rw [chain_cons]
    cases k with
    | zero =>
      cases h
      have hnext : (roots (t :: ts))[0 + 1]? = headId ts := by
        cases ts <;> rfl
      rw [if_pos rfl, hnext]
      exact List.mem_append_left _ (root_mem_cells _ _ _ _)
    | succ k =>
      have hmem := ih h (some u.id)
      have hprev : (if k = 0 then some u.id else (roots ts)[k - 1]?) =
          if k + 1 = 0 then prev else (roots (u :: ts))[k + 1 - 1]? := by
        cases k <;> rfl
      rw [hprev] at hmem
      exact List.mem_append_right _ hmem

/-! ## levels -/

/-- the cells of trees that have the parent in common, and links to siblings of any kind -/
def level (parent : ι) (links : ι → Option ι × Option ι) (ts : List (Rose ι δ)) : List (ι × Links ι × δ) :=
  ts.flatMap fun t => t.cells (some parent) (links t.id).1 (links t.id).2

lemma level_cons (parent : ι) (links : ι → Option ι × Option ι) (t : Rose ι δ) (ts : List (Rose ι δ)) :
    level parent links (t :: ts) = t.cells (some parent) (links t.id).1 (links t.id).2 ++ level parent links ts :=
  List.flatMap_cons

lemma level_append (parent : ι) (links : ι → Option ι × Option ι) (ts us : List (Rose ι δ)) :
    level parent links (ts ++ us) = level parent links ts ++ level parent links us :=
  List.flatMap_append

lemma level_perm (parent : ι) (links : ι → Option ι × Option ι) {ts us : List (Rose ι δ)} (h : ts.Perm us) :
    (level parent links ts).Perm (level parent links us) :=
  h.flatMap_right _

lemma map_level (ts : List (Rose ι δ)) (parent : ι) (links : ι → Option ι × Option ι) :
    (level parent links ts).map Prod.fst = forestIds ts := by
  induction ts with
  | nil => simp [level]
  | cons t ts ih => rw [level_cons, forestIds_cons, List.map_append, map_cells, ih]

/-- the links matter at the roots alone -/
lemma level_congr {parent : ι} {links links' : ι → Option ι × Option ι} {ts : List (Rose ι δ)}
    (h : ∀ t ∈ ts, links t.id = links' t.id) : level parent links ts = level parent links' ts := by
  unfold level
  refine List.flatMap_congr fun t ht => ?_
  rw [h t ht]

section
variable [DecidableEq ι]

/-- the links of a chain -/
def chainLinks (prev : Option ι) : List (Rose ι δ) → ι → Option ι × Option ι
  | [], _ => (none, none)
  | t :: ts, i => if i = t.id then (prev, headId ts) else chainLinks (some t.id) ts i

theorem chain_eq_level (parent : ι) {ts : List (Rose ι δ)} (prev : Option ι) (h : (roots ts).Nodup) :
    chain parent prev none ts = level parent (chainLinks prev ts) ts := by
  induction ts generalizing prev with
  | nil => simp [level]
  | cons t ts ih =>
    obtain ⟨hnot, hnd⟩ := List.nodup_cons.mp h
    rw [chain_cons, level_cons, ih (some t.id) hnd]
    congr 1
    · rw [chainLinks, if_pos rfl]
      cases headId ts <;> rfl
    · refine level_congr fun u hu => ?_
      have hne : u.id ≠ t.id := fun heq => hnot (heq ▸ List.mem_map_of_mem hu)
      rw [chainLinks, if_neg hne]

/-! ## roots that are written -/

variable {heap rest : ι → Option (Links ι × δ)} {ys : List (ι × Links ι × δ)} {t : Rose ι δ}

/-- the links of a root to its parent and its siblings, and its data -/
theorem owns_modify_root {parent prev next parent' prev' next' : Option ι} {data : δ}
    (h : Owns heap (t.cells parent prev next ++ ys) rest) (f : Links ι × δ → Links ι × δ)
    (hf : f (t.cell parent prev next).2 = ((t.cell parent' prev' next').2.1, data)) :
    Owns (modify heap t.id f) ((Rose.node t.id data t.children).cells parent' prev' next' ++ ys) rest := by
  rw [cells_eq] at h ⊢
  have hwrite := h.modify f
  rw [show f (⟨parent, headId t.children, lastId t.children, next, prev⟩, t.data) = _ from hf] at hwrite
  exact hwrite

/-- the links of a root alone -/
theorem owns_relink_root {parent prev next parent' prev' next' : Option ι}
    (h : Owns heap (t.cells parent prev next ++ ys) rest) (f : Links ι × δ → Links ι × δ)
    (hf : f (t.cell parent prev next).2 = (t.cell parent' prev' next').2) :
    Owns (modify heap t.id f) (t.cells parent' prev' next' ++ ys) rest := by
  have hdata := owns_modify_root h f (show _ = ((t.cell parent' prev' next').2.1, t.data) from hf)
  cases t
  exact hdata

/-! ## the ends of a chain -/

def setPrev (prev : Option ι) (c : Links ι × δ) : Links ι × δ := ({ c.1 with prevSibling := prev }, c.2)

def setNext (next : Option ι) (c : Links ι × δ) : Links ι × δ := ({ c.1 with nextSibling := next }, c.2)

def setFirst (first : Option ι) (c : Links ι × δ) : Links ι × δ := ({ c.1 with firstChild := first }, c.2)

def setLast (last : Option ι) (c : Links ι × δ) : Links ι × δ := ({ c.1 with lastChild := last }, c.2)

section
variable {parent i : ι} {prev next : Option ι} {ts : List (Rose ι δ)}

lemma exists_concat (h : lastId ts = some i) : ∃ us t, ts = us ++ [t] ∧ t.id = i := by
  obtain ⟨t, ht, rfl⟩ := Option.map_eq_some_iff.mp h
  obtain ⟨us, rfl⟩ := List.getLast?_eq_some_iff.mp ht
  exact ⟨us, t, rfl, rfl⟩

lemma exists_cons (h : headId ts = some i) : ∃ t us, ts = t :: us ∧ t.id = i := by
  obtain ⟨t, ht, rfl⟩ := Option.map_eq_some_iff.mp h
  obtain ⟨us, rfl⟩ := List.head?_eq_some_iff.mp ht
  exact ⟨t, us, rfl, rfl⟩

lemma chain_concat (t : Rose ι δ) (us : List (Rose ι δ)) :
    chain parent prev next (us ++ [t]) =
      chain parent prev (some t.id) us ++ t.cells (some parent) (lastId us <|> prev) next := by
  rw [chain_append, chain_cons, chain_nil, List.append_nil]
  rfl

/-- the last of a chain is linked to something else -/
theorem owns_setNext (h : Owns heap (chain parent prev next ts ++ ys) rest) (hlast : lastId ts = some i)
    (next' : Option ι) : Owns (modify heap i (setNext next')) (chain parent prev next' ts ++ ys) rest := by
  obtain ⟨us, t, rfl, rfl⟩ := exists_concat hlast
  rw [chain_concat, List.append_assoc] at h ⊢
  have hfront := h.perm List.perm_append_comm
  rw [List.append_assoc] at hfront
  have hwrite := owns_relink_root hfront (setNext next') rfl
  rw [← List.append_assoc] at hwrite
  exact hwrite.perm List.perm_append_comm

/-- the first of a chain is linked to something else -/
theorem owns_setPrev (h : Owns heap (chain parent prev next ts ++ ys) rest) (hhead : headId ts = some i)
    (prev' : Option ι) : Owns (modify heap i (setPrev prev')) (chain parent prev' next ts ++ ys) rest := by
  obtain ⟨t, us, rfl, rfl⟩ := exists_cons hhead
  rw [chain_cons, List.append_assoc] at h ⊢
  exact owns_relink_root h (setPrev prev') rfl

end

/-! ## a child whose place is taken by another tree -/

/-- the cells of a node and its children, but for the child `i` between `us` and `vs` -/
def around (id : ι) (data : δ) (parent prev next : Option ι) (us : List (Rose ι δ)) (i : ι) (vs : List (Rose ι δ)) :
    List (ι × Links ι × δ) :=
  (id, ⟨parent, headId us <|> some i, lastId vs <|> some i, next, prev⟩, data) ::
    (chain id none (some i) us ++ chain id (some i) none vs)

/-- the cells of a child apart from those around it -/
theorem cells_around (id : ι) (data : δ) (parent prev next : Option ι) (us : List (Rose ι δ)) (t : Rose ι δ)
    (vs : List (Rose ι δ)) :
    ((Rose.node id data (us ++ t :: vs)).cells parent prev next).Perm
      (t.cells (some id) (lastId us) (headId vs) ++ around id data parent prev next us t.id vs) := by
  have hcell : (Rose.node id data (us ++ t :: vs)).cell parent prev next =
      (id, ⟨parent, headId us <|> some t.id, lastId vs <|> some t.id, next, prev⟩, data) := by
    unfold Rose.cell
    rw [show Rose.children (Rose.node id data (us ++ t :: vs)) = us ++ t :: vs from rfl, headId_append]
    have hlast : lastId (us ++ t :: vs) = (lastId vs <|> some t.id) := by
      rw [← lastId_cons]
      unfold lastId
      rw [List.getLast?_append_of_ne_nil _ (List.cons_ne_nil t vs)]
    rw [hlast]
    rfl
  rw [cells_eq, hcell, show Rose.children (Rose.node id data (us ++ t :: vs)) = us ++ t :: vs from rfl, chain_append,
    chain_cons]
  have hprev : (lastId us <|> none) = lastId us := by
    cases lastId us <;> rfl
  have hnext : (headId vs <|> none) = headId vs := by
    cases headId vs <;> rfl
  rw [hprev, hnext]
  show (_ :: (chain id none (some t.id) us ++ (t.cells (some id) (lastId us) (headId vs) ++ chain id (some t.id) none vs))).Perm
    _
  unfold around
  refine (List.Perm.cons _ ?_).trans List.perm_middle.symm
  rw [← List.append_assoc, ← List.append_assoc]
  exact List.perm_append_comm.append_right _

/-- the neighbours of a place link to `new` -/
def relinked (parent prev next : Option ι) (new : ι) (heap : ι → Option (Links ι × δ)) : ι → Option (Links ι × δ) :=
  let heap := match prev, parent with
    | some prev, _ => modify heap prev (setNext (some new))
    | none, some parent => modify heap parent (setFirst (some new))
    | none, none => heap
  match next, parent with
  | some next, _ => modify heap next (setPrev (some new))
  | none, some parent => modify heap parent (setLast (some new))
  | none, none => heap

lemma relinked_without (parent prev next : Option ι) (new : ι) (heap : ι → Option (Links ι × δ)) (ids : List ι) :
    relinked parent prev next new (without heap ids) = without (relinked parent prev next new heap) ids := by
  unfold relinked
  rcases prev with - | prev <;> rcases parent with - | parent <;> rcases next with - | next
  all_goals simp only [modify_without]

/-- a neighbour is there -/
def Neighbour (parent prev next : Option ι) (i : ι) : Prop := parent = some i ∨ prev = some i ∨ next = some i

/-- the neighbours of some cells are linked otherwise -/
theorem owns_relinked {cells : List (ι × Links ι × δ)} {parent prev next : Option ι} (h : Owns heap cells rest)
    (hrest : ∀ i, Neighbour parent prev next i → rest i ≠ none) (new : ι) :
    Owns (relinked parent prev next new heap) cells (relinked parent prev next new rest) := by
  have hmodify : ∀ {g : ι → Option (Links ι × δ)} (i j : ι) (f : Links ι × δ → Links ι × δ), g i ≠ none → modify g j f i ≠ none := by
    intro g i j f hi
    unfold Ownership.modify
    rw [Function.update_apply]
    split_ifs with hij
    · rw [← hij]
      intro hnone
      exact hi (Option.map_eq_none_iff.mp hnone)
    · exact hi
  unfold LinkedTree.relinked
  rcases prev with - | prev <;> rcases parent with - | parent <;> rcases next with - | next
  · exact h
  · exact h.modify_rest (hrest _ (.inr (.inr rfl))) _
  · exact (h.modify_rest (hrest _ (.inl rfl)) _).modify_rest (hmodify _ _ _ (hrest _ (.inl rfl))) _
  · exact (h.modify_rest (hrest _ (.inl rfl)) _).modify_rest (hmodify _ _ _ (hrest _ (.inr (.inr rfl)))) _
  · exact h.modify_rest (hrest _ (.inr (.inl rfl))) _
  · exact (h.modify_rest (hrest _ (.inr (.inl rfl))) _).modify_rest (hmodify _ _ _ (hrest _ (.inr (.inr rfl)))) _
  · exact (h.modify_rest (hrest _ (.inr (.inl rfl))) _).modify_rest (hmodify _ _ _ (hrest _ (.inl rfl))) _
  · exact (h.modify_rest (hrest _ (.inr (.inl rfl))) _).modify_rest (hmodify _ _ _ (hrest _ (.inr (.inr rfl)))) _

section
variable {id i j : ι} {data : δ} {parent prev next : Option ι} {us vs : List (Rose ι δ)}

/-- what is around a child links to another one -/
theorem owns_around (h : Owns heap (around id data parent prev next us i vs ++ ys) rest) (j : ι) :
    Owns (relinked (some id) (lastId us) (headId vs) j heap) (around id data parent prev next us j vs ++ ys) rest := by
  -- the side of `us`, then the side of `vs`
  have hfront : ∀ {heap : ι → Option (Links ι × δ)} {last : Option ι} {zs : List (ι × Links ι × δ)},
      Owns heap ((id, ⟨parent, headId us <|> some i, last, next, prev⟩, data) :: (chain id none (some i) us ++ zs)) rest →
      Owns (match lastId us with
          | some prev => modify heap prev (setNext (some j))
          | none => modify heap id (setFirst (some j)))
        ((id, ⟨parent, headId us <|> some j, last, next, prev⟩, data) :: (chain id none (some j) us ++ zs)) rest := by
    intro heap last zs h
    rcases us.eq_nil_or_concat' with rfl | ⟨ts, t, rfl⟩
    · exact h.modify (setFirst (some j))
    · rw [lastId_concat]
      have hhead : ∀ k : ι, (headId (ts ++ [t]) <|> some k) = headId (ts ++ [t]) := fun k => by
        cases ts <;> rfl
      rw [hhead] at h ⊢
      have hlinked := owns_setNext (h.perm List.perm_middle.symm) (lastId_concat ts t) (some j)
      exact hlinked.perm List.perm_middle
  have hback : ∀ {heap : ι → Option (Links ι × δ)} {first : Option ι} {zs : List (ι × Links ι × δ)},
      Owns heap ((id, ⟨parent, first, lastId vs <|> some i, next, prev⟩, data) :: (chain id (some i) none vs ++ zs)) rest →
      Owns (match headId vs with
          | some next => modify heap next (setPrev (some j))
          | none => modify heap id (setLast (some j)))
        ((id, ⟨parent, first, lastId vs <|> some j, next, prev⟩, data) :: (chain id (some j) none vs ++ zs)) rest := by
    intro heap first zs h
    cases vs with
    | nil => exact h.modify (setLast (some j))
    | cons t ts =>
      have hlast : ∀ k : ι, (lastId (t :: ts) <|> some k) = lastId (t :: ts) := fun k => by
        rw [lastId_cons]
        cases lastId ts <;> rfl
      rw [hlast] at h ⊢
      have hlinked := owns_setPrev (h.perm List.perm_middle.symm) (headId_cons t ts) (some j)
      exact hlinked.perm List.perm_middle
  unfold around at h ⊢
  rw [List.cons_append, List.append_assoc] at h ⊢
  have hleft := hfront h
  have hswap := hleft.perm (List.Perm.cons _ List.perm_append_comm)
  rw [List.append_assoc] at hswap
  have hright := (hback hswap).perm (List.Perm.cons _ List.perm_append_comm)
  rw [List.append_assoc] at hright
  have hrun : relinked (some id) (lastId us) (headId vs) j heap =
      match headId vs with
      | some next => modify (match lastId us with
          | some prev => modify heap prev (setNext (some j))
          | none => modify heap id (setFirst (some j))) next (setPrev (some j))
      | none => modify (match lastId us with
          | some prev => modify heap prev (setNext (some j))
          | none => modify heap id (setFirst (some j))) id (setLast (some j)) := by
    unfold relinked
    cases lastId us <;> cases headId vs <;> rfl
  rw [hrun]
  refine hright.perm (List.Perm.cons _ ?_)
  rw [← List.append_assoc (chain id none (some j) us)]
  exact List.perm_append_comm

variable {new : Rose ι δ} {heap' : ι → Option (Links ι × δ)}

lemma neighbour_around {k : ι} (h : Neighbour (some id) (lastId us) (headId vs) k) :
    k ∈ (around id data parent prev next us i vs).map Prod.fst := by
  unfold around
  rw [List.map_cons, List.map_append, map_chain, map_chain]
  rcases h with h | h | h
  · cases h
    exact List.mem_cons_self
  · obtain ⟨ts, t, rfl, rfl⟩ := exists_concat h
    refine List.mem_cons_of_mem _ (List.mem_append_left _ (roots_mem ?_))
    exact List.mem_map_of_mem (List.mem_append_right _ List.mem_cons_self)
  · obtain ⟨t, ts, rfl, rfl⟩ := exists_cons h
    exact List.mem_cons_of_mem _ (List.mem_append_right _ (roots_mem List.mem_cons_self))

/-- a child by itself, and its neighbours beside it -/
theorem owns_child (h : Owns heap ((Rose.node id data (us ++ t :: vs)).cells parent prev next ++ ys) rest) :
    Owns heap (t.cells (some id) (lastId us) (headId vs)) (without heap t.ids) ∧
      ∀ i, Neighbour (some id) (lastId us) (headId vs) i → without heap t.ids i ≠ none := by
  have hown := h.perm ((cells_around id data parent prev next us t vs).append_right ys)
  rw [List.append_assoc] at hown
  have hfocus := hown.focus
  rw [map_cells] at hfocus
  refine ⟨hfocus, fun i hi hnone => ?_⟩
  have hmem : i ∈ (around id data parent prev next us t.id vs).map Prod.fst := neighbour_around hi
  have hnd := hown.nodup
  rw [List.map_append, map_cells] at hnd
  have hnot : i ∉ t.ids := fun hin =>
    (List.nodup_append.mp hnd).2.2 i hin i (by rw [List.map_append]; exact List.mem_append_left _ hmem) rfl
  obtain ⟨c, hc, rfl⟩ := List.mem_map.mp hmem
  have hstored := hown.stored c (List.mem_append_right _ (List.mem_append_left _ hc))
  rw [show without heap t.ids c.1 = heap c.1 from if_neg hnot, hstored] at hnone
  cases hnone

/-- the child became another tree with the same root -/
theorem owns_child_same (h : Owns heap ((Rose.node id data (us ++ t :: vs)).cells parent prev next ++ ys) rest)
    (hnew : Owns heap' (new.cells (some id) (lastId us) (headId vs)) (without heap t.ids)) (hid : new.id = t.id) :
    Owns heap' ((Rose.node id data (us ++ new :: vs)).cells parent prev next ++ ys) rest := by
  have hown := h.perm ((cells_around id data parent prev next us t vs).append_right ys)
  rw [List.append_assoc] at hown
  rw [← map_cells t (some id) (lastId us) (headId vs)] at hnew
  have hframe := hown.frame hnew
  rw [← hid, ← List.append_assoc] at hframe
  exact hframe.perm ((cells_around id data parent prev next us new vs).symm.append_right ys)

/-- another tree took the place of the child -/
theorem owns_child_relinked (h : Owns heap ((Rose.node id data (us ++ t :: vs)).cells parent prev next ++ ys) rest)
    (hnew : Owns heap' (new.cells (some id) (lastId us) (headId vs))
      (relinked (some id) (lastId us) (headId vs) new.id (without heap t.ids))) :
    Owns heap' ((Rose.node id data (us ++ new :: vs)).cells parent prev next ++ ys) rest := by
  have hown := h.perm ((cells_around id data parent prev next us t vs).append_right ys)
  rw [List.append_assoc] at hown
  have hback := hown.perm List.perm_append_comm
  rw [List.append_assoc] at hback
  have hrotate : (around id data parent prev next us new.id vs ++ (ys ++ t.cells (some id) (lastId us) (headId vs))).Perm
      (t.cells (some id) (lastId us) (headId vs) ++ (around id data parent prev next us new.id vs ++ ys)) := by
    rw [← List.append_assoc]
    exact List.perm_append_comm
  have hlinked := (owns_around hback new.id).perm hrotate
  rw [relinked_without, ← map_cells t (some id) (lastId us) (headId vs)] at hnew
  have hframe := hlinked.frame hnew
  rw [← List.append_assoc] at hframe
  exact hframe.perm ((cells_around id data parent prev next us new vs).symm.append_right ys)

end

end

end

end LinkedTree
