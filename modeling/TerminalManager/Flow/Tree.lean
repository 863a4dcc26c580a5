import Mathlib.Data.Finset.Dedup
import TerminalManager.Flow.Model
import TerminalManager.Lib.Loops
import TerminalManager.Lib.Preorder
import TerminalManager.Lib.Table

/-!
# The call-stack tree

The rows of the tree, by a walk from the entries along the edges in their order.  A node that is on the path already is
a leaf that points at its earlier row, and both the depth and the number of rows are bounded.

* `deriveTree`, `visit`     the rows;
* `unfolding`               the flow unfolded from its entries, down to the depth of the walk;
* `visit_items`             the walk writes the unfolding down in preorder, when it fits;
* `Unfolds`                 what the rows say, in terms of their parents;
* `visibleRows`             the rows that are drawn while some are collapsed;
* `deriveTree_unfolds`      all of it.
-/

namespace TerminalManager.FlowExplorer
open Editor (Line)

def MAX_TREE_DEPTH : Nat := 64

def MAX_TREE_ROWS : Nat := 10000

inductive RowMarker
  | none
  /-- the node is on the path, at a row -/
  | repeatOf (row : Nat)
  /-- what is under it is not shown -/
  | truncated
deriving DecidableEq, Repr

structure TreeRow where
  nodeId : Line
  depth : Nat
  /-- none for entries -/
  edgeKind : Option EdgeKind
  parent : Option Nat
  isLastSibling : Bool
  childCount : Nat
  marker : RowMarker
deriving DecidableEq, Repr

structure Builder where
  rows : List TreeRow
  /-- the ancestors of the node that is visited, with their rows -/
  path : List (Line × Nat)
  truncated : Bool
deriving DecidableEq, Repr

namespace Flow

def known (flow : Flow) : List Line := flow.nodes.map Node.id

def addChild (flow : Flow) (children : Table Line (List (Line × EdgeKind))) (e : Edge) :
    Table Line (List (Line × EdgeKind)) :=
  if e.source ∈ flow.known ∧ e.target ∈ flow.known then
    children.insert e.source ((children.get e.source).getD [] ++ [(e.target, e.kind)])
  else children

/-- the edges between known nodes, by where they start -/
def children (flow : Flow) : Table Line (List (Line × EdgeKind)) := flow.edges.foldl flow.addChild ∅

def knownEntries (flow : Flow) : List Line := flow.entries.filter (· ∈ flow.known)

end Flow

namespace Builder

/-- a node and what is under it; the walk is never deeper than the fuel -/
def visit (children : Table Line (List (Line × EdgeKind))) :
    Nat → Line → Nat → Option EdgeKind → Option Nat → Bool → Builder → Builder
  | 0, _, _, _, _, _, b => b
  | fuel + 1, id, depth, edgeKind, parent, isLastSibling, b =>
    if MAX_TREE_ROWS ≤ b.rows.length then
      if b.truncated then b
      else { b with truncated := true, rows := b.rows ++ [⟨id, depth, edgeKind, parent, true, 0, .truncated⟩] }
    else
      let row := b.rows.length
      match b.path.find? fun x => x.1 = id with
      | some (_, earlier) =>
        { b with rows := b.rows ++ [⟨id, depth, edgeKind, parent, isLastSibling, 0, .repeatOf earlier⟩] }
      | none =>
        let kids := (children.get id).getD []
        if MAX_TREE_DEPTH ≤ depth ∧ kids ≠ [] then
          { b with rows := b.rows ++ [⟨id, depth, edgeKind, parent, isLastSibling, 0, .truncated⟩] }
        else
          let entered : Builder :=
            { b with
              rows := b.rows ++ [⟨id, depth, edgeKind, parent, isLastSibling, kids.length, .none⟩]
              path := b.path ++ [(id, row)] }
          let last := kids.length - 1
          let visited := kids.zipIdx.foldl (fun b x =>
            visit children fuel x.1.1 (depth + 1) (some x.1.2) (some row) (x.2 = last) b) entered
          { visited with path := visited.path.dropLast }

end Builder

def deriveTree (flow : Flow) : List TreeRow :=
  let last := flow.knownEntries.length - 1
  (flow.knownEntries.zipIdx.foldl (fun (b : Builder) x =>
    b.visit flow.children (MAX_TREE_DEPTH + 1) x.1 0 none none (x.2 = last)) ⟨[], [], false⟩).rows

/-- the fuel is never used up: more of it makes no difference -/
lemma visit_fuel (children : Table Line (List (Line × EdgeKind))) {fuel depth : Nat}
    (h : MAX_TREE_DEPTH ≤ depth + fuel) (id : Line) (edgeKind : Option EdgeKind) (parent : Option Nat) (last : Bool)
    (b : Builder) : b.visit children (fuel + 2) id depth edgeKind parent last =
      b.visit children (fuel + 1) id depth edgeKind parent last := by
  induction fuel generalizing id depth edgeKind parent last b with
  | zero =>
    -- nothing is under a node at the depth cap
    rw [Builder.visit, Builder.visit]
    by_cases hkids : (children.get id).getD [] = []
    · simp only [hkids, List.zipIdx_nil, List.foldl_nil]
    · have hdeep : MAX_TREE_DEPTH ≤ depth ∧ (children.get id).getD [] ≠ [] := ⟨h, hkids⟩
      simp only [if_pos hdeep]
  | succ fuel ih =>
    rw [Builder.visit, Builder.visit]
    simp only [ih (show MAX_TREE_DEPTH ≤ depth + 1 + fuel by omega)]

/-! ## the flow unfolded -/

/-- a node with the kind of the edge that leads to it -/
abbrev Step := Line × Option EdgeKind

namespace Flow

/-- the known edges that leave a node -/
def knownOut (flow : Flow) (id : Line) : List Step :=
  (flow.edges.filter fun e => e.source = id ∧ e.source ∈ flow.known ∧ e.target ∈ flow.known).map
    fun e => (e.target, some e.kind)

/-- what is under some nodes, a number of levels deep; a node that is on the path has nothing under it -/
def unfold (flow : Flow) : Nat → List Line → List Step → Forest Step
  | 0, _, steps => steps.foldr (fun x rest => .cons x .nil rest) .nil
  | levels + 1, path, steps => steps.foldr (fun x rest =>
      .cons x (if x.1 ∈ path then .nil else flow.unfold levels (path ++ [x.1]) (flow.knownOut x.1)) rest) .nil

/-- the flow unfolded from the known entries -/
def unfolding (flow : Flow) : Forest Step :=
  flow.unfold MAX_TREE_DEPTH [] (flow.knownEntries.map fun id => (id, none))

end Flow

/-- what a row says of a node that is written down -/
def toRow (flow : Flow) (p : Forest.Placed Step) : TreeRow where
  nodeId := p.label.1
  depth := p.ancestors.length
  edgeKind := p.label.2
  parent := p.parent
  isLastSibling := p.isLast
  childCount := p.kids.length
  marker :=
    match p.ancestors.find? fun x => x.2.1 = p.label.1 with
    | some x => .repeatOf x.1
    | none => if MAX_TREE_DEPTH ≤ p.ancestors.length ∧ flow.knownOut p.label.1 ≠ [] then .truncated else .none

variable {flow : Flow}

lemma unfold_cons (flow : Flow) (levels : Nat) (path : List Line) (x : Step) (steps : List Step) :
    ∃ kids, flow.unfold levels path (x :: steps) = .cons x kids (flow.unfold levels path steps) ∧
      (x.1 ∈ path → kids = .nil) ∧ (levels = 0 → kids = .nil) ∧ ∀ l, levels = l + 1 → x.1 ∉ path →
        kids = flow.unfold l (path ++ [x.1]) (flow.knownOut x.1) := by
  cases levels with
  | zero => exact ⟨.nil, rfl, fun _ => rfl, fun _ => rfl, (fun _ h => nomatch h)⟩
  | succ levels =>
    refine ⟨_, rfl, fun h => if_pos h, (fun h => nomatch h), ?_⟩
    intro l hl hpath
    cases hl
    exact if_neg hpath

@[simp] lemma tops_unfold (levels : Nat) (path : List Line) (steps : List Step) :
    (flow.unfold levels path steps).tops = steps := by
  induction steps with
  | nil => cases levels <;> rfl
  | cons x steps ih =>
    obtain ⟨kids, hcons, -⟩ := unfold_cons flow levels path x steps
    rw [hcons, Forest.tops, ih]

/-! ## the walk writes the unfolding down -/

lemma get_addChild (children : Table Line (List (Line × EdgeKind))) (e : Edge) (id : Line) :
    ((flow.addChild children e).get id).getD [] = (children.get id).getD [] ++
      if e.source = id ∧ e.source ∈ flow.known ∧ e.target ∈ flow.known then [(e.target, e.kind)] else [] := by
  unfold Flow.addChild
  by_cases hknown : e.source ∈ flow.known ∧ e.target ∈ flow.known
  · rw [if_pos hknown, Table.get_insert]
    by_cases hid : e.source = id
    · rw [if_pos hid.symm, if_pos ⟨hid, hknown⟩, ← hid, Option.getD_some]
    · rw [if_neg (Ne.symm hid), if_neg (fun h => hid h.1), List.append_nil]
  · rw [if_neg hknown, if_neg (fun h => hknown h.2), List.append_nil]

/-- the edges of a node are collected one by one -/
lemma get_children (flow : Flow) (id : Line) :
    ((flow.children.get id).getD []).map (fun x => (x.1, some x.2)) = flow.knownOut id := by
  have hloop : ∀ (edges : List Edge) (children : Table Line (List (Line × EdgeKind))),
      ((edges.foldl flow.addChild children).get id).getD [] = (children.get id).getD [] ++
        (edges.filter fun e => e.source = id ∧ e.source ∈ flow.known ∧ e.target ∈ flow.known).map
          fun e => (e.target, e.kind) := by
    intro edges
    induction edges with
    | nil => exact fun children => (List.append_nil _).symm
    | cons e edges ih =>
      intro children
      rw [List.foldl_cons, ih, get_addChild, List.append_assoc, List.filter_cons]
      by_cases h : e.source = id ∧ e.source ∈ flow.known ∧ e.target ∈ flow.known
      · rw [if_pos h, if_pos (decide_eq_true h)]
        rfl
      · rw [if_neg h, if_neg (mt of_decide_eq_true h), List.nil_append]
  unfold Flow.children Flow.knownOut
  rw [hloop, Table.get_empty, Option.getD_none, List.nil_append, List.map_map]
  rfl

/-- the path of the walk -/
def pathOf (above : List (Nat × Step)) : List (Line × Nat) := above.map fun x => (x.2.1, x.1)

lemma find?_pathOf (above : List (Nat × Step)) (id : Line) :
    (pathOf above).find? (fun x => x.1 = id) = (above.find? fun x => x.2.1 = id).map fun x => (x.2.1, x.1) :=
  List.find?_map

/-- the walk along some steps, that many levels over the last one, writes down what is under them -/
def Writes (flow : Flow) (levels : Nat) : Prop :=
  ∀ (above : List (Nat × Step)) (steps : List Step) (b : Builder), above.length + levels = MAX_TREE_DEPTH →
    b.path = pathOf above →
    b.rows.length + (flow.unfold levels (above.map (·.2.1)) steps).size ≤ MAX_TREE_ROWS →
    Loops.foldLast (fun b x last =>
        b.visit flow.children (levels + 1) x.1 above.length x.2 (above.getLast?.map Prod.fst) last) b steps =
      { b with rows := b.rows ++
          (Forest.place above b.rows.length (flow.unfold levels (above.map (·.2.1)) steps)).map (toRow flow) }

section
variable {levels : Nat} {above : List (Nat × Step)} {x : Step} {b : Builder} {kids : Forest Step}

/-- **Step lemma**: one node, with what is under it. -/
lemma visit_node (hunder : ∀ l, levels = l + 1 → Writes flow l) (hdepth : above.length + levels = MAX_TREE_DEPTH)
    (hpath : b.path = pathOf above) (hroom : b.rows.length + (1 + kids.size) ≤ MAX_TREE_ROWS)
    (hrepeat : x.1 ∈ above.map (·.2.1) → kids = .nil) (hdeep : levels = 0 → kids = .nil)
    (hkids : ∀ l, levels = l + 1 → x.1 ∉ above.map (·.2.1) →
      kids = flow.unfold l (above.map (·.2.1) ++ [x.1]) (flow.knownOut x.1)) (last : Bool) :
    b.visit flow.children (levels + 1) x.1 above.length x.2 (above.getLast?.map Prod.fst) last =
      { b with rows := b.rows ++ (toRow flow ⟨b.rows.length, x, kids.tops, above, last⟩ ::
          (Forest.place (above ++ [(b.rows.length, x)]) (b.rows.length + 1) kids).map (toRow flow)) } := by
  have hrows : ¬ MAX_TREE_ROWS ≤ b.rows.length := by omega
  rw [Builder.visit, if_neg hrows, hpath, find?_pathOf]
  cases hfind : above.find? fun y => y.2.1 = x.1 with
  | some y =>
    -- the node is on the path
    have hmem : x.1 ∈ above.map (·.2.1) := by
      refine List.mem_map.mpr ⟨y, List.mem_of_find?_eq_some hfind, ?_⟩
      have := List.find?_some hfind
      exact of_decide_eq_true this
    rw [hrepeat hmem]
    simp only [Option.map_some, Forest.place, Forest.tops, toRow, hfind, List.map_nil, List.length_nil]
    rfl
  | none =>
    have hmem : x.1 ∉ above.map (·.2.1) := by
      intro h
      obtain ⟨y, hy, heq⟩ := List.mem_map.mp h
      exact List.find?_eq_none.mp hfind y hy (decide_eq_true heq)
    have hout := get_children flow x.1
    have hlength : ((flow.children.get x.1).getD []).length = (flow.knownOut x.1).length := by
      rw [← hout, List.length_map]
    have hnil : (flow.children.get x.1).getD [] ≠ [] ↔ flow.knownOut x.1 ≠ [] := by
      rw [← hout, Ne, Ne, List.map_eq_nil_iff]
    simp only [Option.map_none]
    cases levels with
    | zero =>
      rw [hdeep rfl]
      by_cases hsome : flow.knownOut x.1 ≠ []
      · have hdeepest : MAX_TREE_DEPTH ≤ above.length ∧ flow.knownOut x.1 ≠ [] := ⟨by omega, hsome⟩
        rw [if_pos ⟨hdeepest.1, hnil.mpr hsome⟩]
        simp only [Forest.place, Forest.tops, toRow, hfind, if_pos hdeepest, List.map_nil, List.length_nil]
        rfl
      · have hempty : (flow.children.get x.1).getD [] = [] := by
          rw [not_not] at hsome
          rwa [hsome, List.map_eq_nil_iff] at hout
        rw [if_neg (fun h => hsome (hnil.mp h.2)), hempty]
        simp only [Forest.place, Forest.tops, toRow, hfind, if_neg (fun h => hsome (And.right h)), List.map_nil,
          List.length_nil, List.zipIdx_nil, List.foldl_nil, List.dropLast_concat]
        rw [← hpath]
        rfl
    | succ l =>
      have hshallow : ¬ MAX_TREE_DEPTH ≤ above.length := by omega
      rw [if_neg (fun h => hshallow h.1)]
      have hinner := hkids l rfl hmem
      generalize hentered : Builder.mk (b.rows ++ [⟨x.1, above.length, x.2, above.getLast?.map Prod.fst, last,
        ((flow.children.get x.1).getD []).length, .none⟩]) (pathOf above ++ [(x.1, b.rows.length)]) b.truncated = entered
      have hloop : ((flow.children.get x.1).getD []).zipIdx.foldl (fun (b' : Builder) y =>
            b'.visit flow.children (l + 1) y.1.1 (above.length + 1) (some y.1.2) (some b.rows.length)
              (y.2 = ((flow.children.get x.1).getD []).length - 1)) entered =
          { entered with rows := entered.rows ++
              (Forest.place (above ++ [(b.rows.length, x)]) entered.rows.length kids).map (toRow flow) } := by
        rw [Loops.foldl_zipIdx_last (fun (b' : Builder) (y : Line × EdgeKind) last =>
          b'.visit flow.children (l + 1) y.1 (above.length + 1) (some y.2) (some b.rows.length) last) entered _ (by omega)]
        have h := hunder l rfl (above ++ [(b.rows.length, x)]) (flow.knownOut x.1) entered
        simp only [List.length_append, List.length_singleton, List.getLast?_concat, List.map_append, List.map_cons,
          List.map_nil, ← hinner] at h
        rw [← hout, Loops.foldLast_map] at h
        refine h (by omega) ?_ ?_
        · rw [← hentered]
          simp [pathOf]
        · rw [← hentered]
          simp only [List.length_append, List.length_singleton]
          omega
      have hrow : toRow flow ⟨b.rows.length, x, kids.tops, above, last⟩ = ⟨x.1, above.length, x.2,
          above.getLast?.map Prod.fst, last, ((flow.children.get x.1).getD []).length, .none⟩ := by
        have htops : kids.tops = flow.knownOut x.1 := by rw [hinner, tops_unfold]
        simp only [toRow, hfind, htops, hlength, if_neg (fun h => hshallow (And.left h))]
        rfl
      rw [hloop, ← hentered, hrow]
      simp only [List.length_append, List.length_singleton, List.dropLast_concat, List.append_assoc,
        List.singleton_append]

end

/-- **Run lemma**: the walk writes the unfolding down in preorder, when there is room for it. -/
theorem visit_items (flow : Flow) (levels : Nat) : Writes flow levels := by
  induction levels using Nat.strong_induction_on with
  | _ levels hunder =>
    intro above steps
    induction steps with
    | nil =>
      intro b _ _ _
      have hnil : flow.unfold levels (above.map (·.2.1)) [] = .nil := by cases levels <;> rfl
      rw [hnil, Forest.place, List.map_nil, List.append_nil]
      rfl
    | cons x steps ih =>
      intro b hdepth hpath hroom
      obtain ⟨kids, hcons, hrepeat, hdeep, hkids⟩ := unfold_cons flow levels (above.map (·.2.1)) x steps
      rw [hcons, Forest.size] at hroom
      have hlast : (flow.unfold levels (above.map (·.2.1)) steps).isNil = steps.isEmpty := by
        rw [Bool.eq_iff_iff, Forest.isNil_eq_true, List.isEmpty_iff, ← Forest.tops_eq_nil, tops_unfold]
      rw [Loops.foldLast, visit_node (fun l hl => hunder l (by omega)) hdepth hpath (by omega) hrepeat hdeep hkids]
      refine (ih _ hdepth ?_ ?_).trans ?_
      · exact hpath
      · simp only [List.length_append, List.length_cons, List.length_map, Forest.length_place]
        omega
      · rw [hcons, Forest.place, hlast, List.map_cons, List.map_append]
        simp only [List.length_append, List.length_cons, List.length_map, Forest.length_place, List.append_assoc,
          List.cons_append]
        rw [show b.rows.length + (kids.size + 1) = b.rows.length + 1 + kids.size by omega]

/-- the rows are the unfolding, written down in preorder -/
theorem deriveTree_eq (hroom : flow.unfolding.size ≤ MAX_TREE_ROWS) :
    deriveTree flow = (Forest.place [] 0 flow.unfolding).map (toRow flow) := by
  have h := visit_items flow MAX_TREE_DEPTH [] (flow.knownEntries.map fun id => (id, none)) ⟨[], [], false⟩
    rfl rfl (by rwa [List.length_nil, Nat.zero_add])
  rw [Loops.foldLast_map] at h
  have hcount := Loops.foldl_zipIdx_last (fun (b : Builder) (id : Line) last =>
    b.visit flow.children (MAX_TREE_DEPTH + 1) id 0 none none last) ⟨[], [], false⟩ flow.knownEntries
    (show flow.knownEntries.length - 1 = 0 + flow.knownEntries.length - 1 by omega)
  exact (congrArg Builder.rows (hcount.trans h)).trans (List.nil_append _)

/-! ## what the rows say -/

/-- the node of a row with the edge that leads to it -/
def TreeRow.step (r : TreeRow) : Step := (r.nodeId, r.edgeKind)

/-- a row is right under another one -/
def Parent (rows : List TreeRow) (a i : Nat) : Prop := ∃ r, rows[i]? = some r ∧ r.parent = some a

/-- a row is under another one -/
def Ancestor (rows : List TreeRow) : Nat → Nat → Prop := Relation.TransGen (Parent rows)

/-- the node of a row is the one of a row it is under -/
def Repeats (rows : List TreeRow) (i : Nat) (r : TreeRow) : Prop :=
  ∃ e a, Ancestor rows e i ∧ rows[e]? = some a ∧ a.nodeId = r.nodeId

/-- the rows are those of the flow unfolded, in preorder -/
structure Unfolds (flow : Flow) (rows : List TreeRow) : Prop where
  /-- the known entries are the rows that are under nothing -/
  roots : (rows.filter (·.parent = none)).map TreeRow.step = flow.knownEntries.map fun id => (id, none)
  /-- what is under an unmarked row, in order -/
  children : ∀ i r, rows[i]? = some r → r.marker = .none →
    (rows.filter (·.parent = some i)).map TreeRow.step = flow.knownOut r.nodeId
  /-- nothing is under a marked row -/
  leaves : ∀ i r, rows[i]? = some r → r.marker ≠ .none → rows.filter (·.parent = some i) = []
  /-- everything under a row follows it, before anything else -/
  preorder : ∀ a i, Ancestor rows a i → a < i ∧ ∀ k, a < k → k ≤ i → Ancestor rows a k
  depth : ∀ (i : Nat) r, rows[i]? = some r →
    (r.parent = none → r.depth = 0) ∧ ∀ a, r.parent = some a → ∃ q, rows[a]? = some q ∧ r.depth = q.depth + 1
  childCount : ∀ i r, rows[i]? = some r → r.childCount = (rows.filter (·.parent = some i)).length
  lastSibling : ∀ i r, rows[i]? = some r →
    (r.isLastSibling = true ↔ ∀ (j : Nat) q, i < j → rows[j]? = some q → q.parent ≠ r.parent)
  repeated : ∀ i r, rows[i]? = some r → ∀ e, r.marker = .repeatOf e →
    Ancestor rows e i ∧ ∃ a, rows[e]? = some a ∧ a.nodeId = r.nodeId
  fresh : ∀ i r, rows[i]? = some r → r.marker = .none → ¬ Repeats rows i r
  truncated : ∀ i r, rows[i]? = some r →
    (r.marker = .truncated ↔ r.depth = MAX_TREE_DEPTH ∧ ¬ Repeats rows i r ∧ flow.knownOut r.nodeId ≠ [])

/-- what is under a node of the unfolding, given the path to it -/
def Unfolded (flow : Flow) (above : List Step) (x : Step) (kids : List Step) : Prop :=
  above.length ≤ MAX_TREE_DEPTH ∧
    kids = if x.1 ∈ above.map Prod.fst ∨ above.length = MAX_TREE_DEPTH then [] else flow.knownOut x.1

lemma unfold_each (levels : Nat) (above : List Step) (steps : List Step) (h : above.length + levels = MAX_TREE_DEPTH) :
    Forest.Each (Unfolded flow) above (flow.unfold levels (above.map Prod.fst) steps) := by
  induction levels using Nat.strong_induction_on generalizing above steps with
  | _ levels hunder =>
    induction steps with
    | nil => cases levels <;> trivial
    | cons x steps ih =>
      obtain ⟨kids, hcons, hrepeat, hdeep, hkids⟩ := unfold_cons flow levels (above.map Prod.fst) x steps
      rw [hcons]
      refine ⟨⟨by omega, ?_⟩, ?_, ih⟩
      · by_cases hmem : x.1 ∈ above.map Prod.fst
        · rw [hrepeat hmem, if_pos (.inl hmem), Forest.tops]
        cases levels with
        | zero => rw [hdeep rfl, if_pos (.inr (by omega)), Forest.tops]
        | succ l => rw [hkids l rfl hmem, tops_unfold, if_neg (by rintro (h' | h'); exacts [hmem h', by omega])]
      · by_cases hmem : x.1 ∈ above.map Prod.fst
        · rw [hrepeat hmem]
          trivial
        cases levels with
        | zero =>
          rw [hdeep rfl]
          trivial
        | succ l =>
          rw [hkids l rfl hmem]
          have hrest := hunder l (Nat.lt_succ_self l) (above ++ [x]) (flow.knownOut x.1) (by simp; omega)
          rwa [List.map_append] at hrest

section
variable {f : Forest Step} {p : Forest.Placed Step}

lemma getElem?_rows {i : Nat} {r : TreeRow} : ((Forest.place [] 0 f).map (toRow flow))[i]? = some r ↔
    ∃ p ∈ Forest.place [] 0 f, p.index = i ∧ toRow flow p = r := by
  rw [List.getElem?_map, Option.map_eq_some_iff]
  simp only [Forest.getElem?_place, and_assoc]

lemma filter_rows (x : Option Nat) :
    (((Forest.place [] 0 f).map (toRow flow)).filter (·.parent = x)).map TreeRow.step =
      ((Forest.place [] 0 f).filter (·.parent = x)).map Forest.Placed.label := by
  rw [List.filter_map, List.map_map]
  rfl

lemma ancestor_iff (hp : p ∈ Forest.place [] 0 f) {a : Nat} :
    Ancestor ((Forest.place [] 0 f).map (toRow flow)) a p.index ↔ a ∈ p.ancestors.map Prod.fst := by
  have hparent : Parent ((Forest.place [] 0 f).map (toRow flow)) = f.Under := by
    funext a i
    refine propext ⟨?_, ?_⟩
    · rintro ⟨r, hr, ha⟩
      obtain ⟨q, hq, hi, rfl⟩ := getElem?_rows.mp hr
      exact ⟨q, hq, hi, ha⟩
    · rintro ⟨q, hq, hi, ha⟩
      exact ⟨_, getElem?_rows.mpr ⟨q, hq, hi, rfl⟩, ha⟩
  rw [Forest.mem_ancestors_iff hp, Ancestor, hparent]

lemma repeats_iff (hp : p ∈ Forest.place [] 0 f) :
    Repeats ((Forest.place [] 0 f).map (toRow flow)) p.index (toRow flow p) ↔
      p.label.1 ∈ p.ancestors.map (·.2.1) := by
  constructor
  · rintro ⟨e, a, he, ha, heq⟩
    obtain ⟨x, hx, rfl⟩ := List.mem_map.mp ((ancestor_iff hp).mp he)
    obtain ⟨q, hq, rfl, -⟩ := Forest.ancestors_entries hp hx
    obtain ⟨q', hq', hindex, rfl⟩ := getElem?_rows.mp ha
    cases Forest.index_inj hq' hq hindex
    exact List.mem_map.mpr ⟨q.at, hx, heq⟩
  · intro hmem
    obtain ⟨x, hx, heq⟩ := List.mem_map.mp hmem
    obtain ⟨q, hq, rfl, -⟩ := Forest.ancestors_entries hp hx
    exact ⟨q.index, toRow flow q, (ancestor_iff hp).mpr (List.mem_map_of_mem hx), getElem?_rows.mpr ⟨q, hq, rfl, rfl⟩,
      heq⟩

/-- the mark of a row -/
lemma marker_cases (flow : Flow) (p : Forest.Placed Step) :
    (∃ x ∈ p.ancestors, x.2.1 = p.label.1 ∧ (toRow flow p).marker = .repeatOf x.1) ∨
    (p.label.1 ∉ p.ancestors.map (·.2.1) ∧ (toRow flow p).marker =
      if MAX_TREE_DEPTH ≤ p.ancestors.length ∧ flow.knownOut p.label.1 ≠ [] then .truncated else .none) := by
  cases hfind : p.ancestors.find? fun x => x.2.1 = p.label.1 with
  | some x =>
    have heq := List.find?_some hfind
    exact .inl ⟨x, List.mem_of_find?_eq_some hfind, of_decide_eq_true heq, by simp only [toRow, hfind]⟩
  | none =>
    refine .inr ⟨?_, by simp only [toRow, hfind]⟩
    intro h
    obtain ⟨x, hx, heq⟩ := List.mem_map.mp h
    exact List.find?_eq_none.mp hfind x hx (decide_eq_true heq)

lemma Unfolded.kids_of_plain (h : Unfolded flow (p.ancestors.map Prod.snd) p.label p.kids)
    (hmark : (toRow flow p).marker = .none) : p.kids = flow.knownOut p.label.1 := by
  obtain ⟨-, hkids⟩ := h
  rw [List.map_map, List.length_map] at hkids
  rcases marker_cases flow p with ⟨x, -, -, hmark'⟩ | ⟨hmem, hmark'⟩
  · cases hmark'.symm.trans hmark
  by_cases hdeep : p.ancestors.length = MAX_TREE_DEPTH
  · rw [hkids, if_pos (.inr hdeep)]
    by_contra hne
    rw [hmark', if_pos ⟨hdeep.ge, fun h => hne h.symm⟩] at hmark
    cases hmark
  · rw [hkids, if_neg (fun h => h.elim hmem hdeep)]

lemma Unfolded.kids_of_marked (h : Unfolded flow (p.ancestors.map Prod.snd) p.label p.kids)
    (hmark : (toRow flow p).marker ≠ .none) : p.kids = [] := by
  obtain ⟨hle, hkids⟩ := h
  rw [List.map_map, List.length_map] at hkids
  rw [List.length_map] at hle
  rcases marker_cases flow p with ⟨x, hx, heq, -⟩ | ⟨-, hmark'⟩
  · rw [hkids, if_pos (.inl (List.mem_map.mpr ⟨x, hx, heq⟩))]
  · by_cases hcut : MAX_TREE_DEPTH ≤ p.ancestors.length ∧ flow.knownOut p.label.1 ≠ []
    · rw [hkids, if_pos (.inr (hle.antisymm hcut.1))]
    · rw [hmark', if_neg hcut] at hmark
      exact absurd rfl hmark

/-- **The rows of the unfolding.** -/
theorem unfolds_place (flow : Flow) : Unfolds flow ((Forest.place [] 0 flow.unfolding).map (toRow flow)) := by
  have htop : ∀ x ∈ ([] : List (Nat × Step)), x.1 < 0 := fun _ h => absurd h List.not_mem_nil
  have heach : Forest.Each (Unfolded flow) [] flow.unfolding :=
    unfold_each MAX_TREE_DEPTH [] (flow.knownEntries.map fun id => (id, none)) (by simp)
  have hunfolded : ∀ {p}, p ∈ Forest.place [] 0 flow.unfolding →
      Unfolded flow (p.ancestors.map Prod.snd) p.label p.kids := fun hp => @Forest.Each.of_mem _ [] _ _ _ _ heach hp
  have hchildren : ∀ {p : Forest.Placed Step}, p ∈ Forest.place [] 0 flow.unfolding →
      (((Forest.place [] 0 flow.unfolding).map (toRow flow)).filter (·.parent = some p.index)).map TreeRow.step =
        p.kids := by
    intro p hp
    rw [filter_rows]
    exact Forest.filter_parent htop hp
  constructor
  case roots =>
    rw [filter_rows]
    exact (@Forest.filter_top _ [] _ _ htop).trans (tops_unfold _ _ _)
  case children =>
    intro i r hr hmark
    obtain ⟨p, hp, rfl, rfl⟩ := getElem?_rows.mp hr
    rw [hchildren hp]
    exact (hunfolded hp).kids_of_plain hmark
  case leaves =>
    intro i r hr hmark
    obtain ⟨p, hp, rfl, rfl⟩ := getElem?_rows.mp hr
    have h := hchildren hp
    rwa [(hunfolded hp).kids_of_marked hmark, List.map_eq_nil_iff] at h
  case preorder =>
    intro a i ha
    obtain ⟨b, -, r, hr, -⟩ := Relation.TransGen.tail'_iff.mp ha
    obtain ⟨p, hp, rfl, -⟩ := getElem?_rows.mp hr
    obtain ⟨x, hx, rfl⟩ := List.mem_map.mp ((ancestor_iff hp).mp ha)
    obtain ⟨q, -, rfl, hlt⟩ := Forest.ancestors_entries hp hx
    refine ⟨hlt, fun k hk hle => ?_⟩
    have hlength := (Forest.index_range hp).2
    rw [Nat.zero_add, ← Forest.length_place [] 0] at hlength
    obtain ⟨p', hp', hk'⟩ : ∃ p' ∈ Forest.place [] 0 flow.unfolding, p'.index = k :=
      ⟨_, Forest.getElem?_place.mp (List.getElem?_eq_getElem (show k < _ by omega))⟩
    subst hk'
    exact (ancestor_iff hp').mpr (List.mem_map_of_mem
      (Forest.mem_ancestors_between htop hp hp' hx hk hle))
  case depth =>
    intro i r hr
    obtain ⟨p, hp, rfl, rfl⟩ := getElem?_rows.mp hr
    rcases Forest.ancestors_eq hp with hnil | ⟨q, hq, -, hlast⟩
    · refine ⟨fun _ => ?_, fun a ha => ?_⟩
      · simp only [toRow, hnil, List.length_nil]
      · simp [toRow, Forest.Placed.parent, hnil] at ha
    · have hparent : p.parent = some q.index := by
        rw [Forest.Placed.parent, hlast, List.getLast?_concat]
        rfl
      refine ⟨fun hnone => absurd (hparent.symm.trans hnone) (Option.some_ne_none _), fun a ha => ?_⟩
      cases hparent.symm.trans ha
      refine ⟨toRow flow q, getElem?_rows.mpr ⟨q, hq, rfl, rfl⟩, ?_⟩
      simp only [toRow, hlast, List.length_append, List.length_singleton]
  case childCount =>
    intro i r hr
    obtain ⟨p, hp, rfl, rfl⟩ := getElem?_rows.mp hr
    have hlength := congrArg List.length (hchildren hp)
    rw [List.length_map] at hlength
    exact hlength.symm
  case lastSibling =>
    intro i r hr
    obtain ⟨p, hp, rfl, rfl⟩ := getElem?_rows.mp hr
    refine (Forest.isLast_iff htop hp).trans ?_
    constructor
    · intro hnone j q hlt hq
      obtain ⟨q', hq', rfl, rfl⟩ := getElem?_rows.mp hq
      exact hnone q' hq' hlt
    · intro hnone q hq hlt
      exact hnone q.index (toRow flow q) hlt (getElem?_rows.mpr ⟨q, hq, rfl, rfl⟩)
  case repeated =>
    intro i r hr e hmark
    obtain ⟨p, hp, rfl, rfl⟩ := getElem?_rows.mp hr
    rcases marker_cases flow p with ⟨x, hx, heq, hmark'⟩ | ⟨-, hmark'⟩
    · obtain ⟨q, hq, rfl, -⟩ := Forest.ancestors_entries hp hx
      cases hmark'.symm.trans hmark
      exact ⟨(ancestor_iff hp).mpr (List.mem_map_of_mem hx), toRow flow q, getElem?_rows.mpr ⟨q, hq, rfl, rfl⟩, heq⟩
    · rw [hmark'] at hmark
      split at hmark <;> cases hmark
  case fresh =>
    intro i r hr hmark
    obtain ⟨p, hp, rfl, rfl⟩ := getElem?_rows.mp hr
    rw [repeats_iff hp]
    rcases marker_cases flow p with ⟨x, -, -, hmark'⟩ | ⟨hmem, -⟩
    · cases hmark'.symm.trans hmark
    · exact hmem
  case truncated =>
    intro i r hr
    obtain ⟨p, hp, rfl, rfl⟩ := getElem?_rows.mp hr
    rw [repeats_iff hp]
    rcases marker_cases flow p with ⟨x, hx, heq, hmark⟩ | ⟨hmem, hmark⟩
    · have hmem : p.label.1 ∈ p.ancestors.map (·.2.1) := List.mem_map.mpr ⟨x, hx, heq⟩
      rw [hmark]
      exact ⟨(fun h => by cases h), fun h => (h.2.1 hmem).elim⟩
    · have hdeep : p.ancestors.length ≤ MAX_TREE_DEPTH := by
        have h := (hunfolded hp).1
        rwa [List.length_map] at h
      rw [hmark]
      by_cases hcut : MAX_TREE_DEPTH ≤ p.ancestors.length ∧ flow.knownOut p.label.1 ≠ []
      · rw [if_pos hcut]
        exact iff_of_true rfl ⟨hdeep.antisymm hcut.1, hmem, hcut.2⟩
      · rw [if_neg hcut]
        exact iff_of_false (fun h => by cases h) fun h => hcut ⟨h.1.ge, h.2.2⟩

end

/-! ## the caps, whatever the flow -/

/-- at most one row over the cap, and parents in front of what is under them -/
structure Bounded (b : Builder) : Prop where
  length_le : b.rows.length ≤ MAX_TREE_ROWS + 1
  room : b.truncated = false → b.rows.length ≤ MAX_TREE_ROWS
  parents : ∀ (i : Nat) r, b.rows[i]? = some r → ∀ a, r.parent = some a → a < i

section
variable {b : Builder} {r : TreeRow}

lemma parents_concat (hb : Bounded b) (hr : ∀ a, r.parent = some a → a < b.rows.length) :
    ∀ (i : Nat) q, (b.rows ++ [r])[i]? = some q → ∀ a, q.parent = some a → a < i := by
  intro i q hq a ha
  rcases Nat.lt_trichotomy i b.rows.length with hi | rfl | hi
  · rw [List.getElem?_append_left hi] at hq
    exact hb.parents i q hq a ha
  · rw [List.getElem?_concat_length] at hq
    cases hq
    exact hr a ha
  · rw [List.getElem?_eq_none (by rw [List.length_append, List.length_singleton]; omega)] at hq
    cases hq

lemma Bounded.push (hb : Bounded b) (hroom : b.rows.length < MAX_TREE_ROWS)
    (hr : ∀ a, r.parent = some a → a < b.rows.length) (path : List (Line × Nat)) :
    Bounded ⟨b.rows ++ [r], path, b.truncated⟩ := by
  refine ⟨?_, fun _ => ?_, parents_concat hb hr⟩
  · rw [List.length_append, List.length_singleton]
    omega
  · rw [List.length_append, List.length_singleton]
    omega

/-- **Step lemma**: a visit adds rows, and stays within the caps. -/
lemma visit_bounded (children : Table Line (List (Line × EdgeKind))) (fuel : Nat) (id : Line) (depth : Nat)
    (edgeKind : Option EdgeKind) (parent : Option Nat) (last : Bool) (hb : Bounded b)
    (hparent : ∀ a, parent = some a → a < b.rows.length) :
    Bounded (b.visit children fuel id depth edgeKind parent last) ∧
      b.rows.length ≤ (b.visit children fuel id depth edgeKind parent last).rows.length := by
  induction fuel generalizing id depth edgeKind parent last b with
  | zero => exact ⟨hb, Nat.le_refl _⟩
  | succ fuel ih =>
    have hlength : ∀ r : TreeRow, b.rows.length ≤ (b.rows ++ [r]).length := by simp
    rw [Builder.visit]
    by_cases hfull : MAX_TREE_ROWS ≤ b.rows.length
    · rw [if_pos hfull]
      by_cases htruncated : b.truncated
      · rw [if_pos htruncated]
        exact ⟨hb, Nat.le_refl _⟩
      · -- the one row over the cap
        rw [if_neg htruncated]
        have hle := hb.room (Bool.eq_false_of_not_eq_true htruncated)
        refine ⟨⟨?_, (fun h => nomatch h), parents_concat hb hparent⟩, hlength _⟩
        rw [List.length_append, List.length_singleton]
        omega
    rw [if_neg hfull]
    have hroom : b.rows.length < MAX_TREE_ROWS := by omega
    cases b.path.find? fun x => x.1 = id with
    | some x => exact ⟨hb.push hroom hparent b.path, hlength _⟩
    | none =>
      dsimp only
      by_cases hdeep : MAX_TREE_DEPTH ≤ depth ∧ (children.get id).getD [] ≠ []
      · rw [if_pos hdeep]
        exact ⟨hb.push hroom hparent b.path, hlength _⟩
      rw [if_neg hdeep]
      set row : TreeRow := ⟨id, depth, edgeKind, parent, last, ((children.get id).getD []).length, .none⟩
      have hloop := List.foldlRecOn (motive := fun b' => Bounded b' ∧ b.rows.length < b'.rows.length)
        ((children.get id).getD []).zipIdx
        (fun (b' : Builder) x => b'.visit children fuel x.1.1 (depth + 1) (some x.1.2) (some b.rows.length)
          (x.2 = ((children.get id).getD []).length - 1))
        ⟨hb.push (r := row) hroom hparent (b.path ++ [(id, b.rows.length)]), by simp⟩
        (fun b' hb' x _ => by
          obtain ⟨hkept, hmore⟩ := ih x.1.1 (depth + 1) (some x.1.2) (some b.rows.length)
            (x.2 = ((children.get id).getD []).length - 1) hb'.1 (fun a ha => Option.some_inj.mp ha ▸ hb'.2)
          exact ⟨hkept, hb'.2.trans_le hmore⟩)
      exact ⟨⟨hloop.1.length_le, hloop.1.room, hloop.1.parents⟩, hloop.2.le⟩

/-- at most one row over the cap -/
theorem deriveTree_bounded (flow : Flow) : (deriveTree flow).length ≤ MAX_TREE_ROWS + 1 ∧
    ∀ (i : Nat) r, (deriveTree flow)[i]? = some r → ∀ a, r.parent = some a → a < i := by
  have hstart : Bounded ⟨[], [], false⟩ :=
    ⟨Nat.zero_le _, fun _ => Nat.zero_le _, fun i r hr => by rw [List.getElem?_nil] at hr; cases hr⟩
  have hloop := List.foldlRecOn (motive := Bounded) flow.knownEntries.zipIdx
    (fun (b : Builder) x => b.visit flow.children (MAX_TREE_DEPTH + 1) x.1 0 none none
      (x.2 = flow.knownEntries.length - 1)) hstart
    (fun b hb x _ => (visit_bounded _ _ _ _ _ none _ hb (fun _ h => nomatch h)).1)
  exact ⟨hloop.length_le, hloop.parents⟩

end

/-! ## collapsed rows -/

/-- one row: what is hidden so far, and the rows to draw -/
def drawRow (rows : List TreeRow) (collapsed : Finset Nat) (s : List Bool × List Nat) (i : Nat) :
    Option (List Bool × List Nat) := do
  let row ← rows[i]?
  let underCollapsed ←
    match row.parent with
    | none => some false
    | some p => do
      let hidden ← s.1[p]?
      some (hidden || p ∈ collapsed)
  some (s.1.set i underCollapsed, if underCollapsed then s.2 else s.2 ++ [i])

/-- the rows to draw when some rows hide what is under them -/
def visibleRows (rows : List TreeRow) (collapsed : Finset Nat) : Option (List Nat) :=
  (Loops.forRange 0 rows.length (drawRow rows collapsed) (List.replicate rows.length false, [])).map Prod.snd

/-- the rows that have children -/
def collapsibleRows (rows : List TreeRow) : Finset Nat :=
  ((rows.zipIdx.filter fun x => 0 < x.1.childCount).map Prod.snd).toFinset

section
variable {rows : List TreeRow} {collapsed : Finset Nat}

/-- some row above is collapsed -/
def Hidden (rows : List TreeRow) (collapsed : Finset Nat) (i : Nat) : Prop :=
  ∃ a ∈ collapsed, Ancestor rows a i

lemma hidden_iff {i : Nat} {r : TreeRow} (hr : rows[i]? = some r) :
    Hidden rows collapsed i ↔ ∃ p, r.parent = some p ∧ (Hidden rows collapsed p ∨ p ∈ collapsed) := by
  have hparent : ∀ b, Parent rows b i ↔ r.parent = some b := by
    intro b
    constructor
    · rintro ⟨r', hr', hb⟩
      cases hr.symm.trans hr'
      exact hb
    · intro hb
      exact ⟨r, hr, hb⟩
  constructor
  · rintro ⟨a, ha, hanc⟩
    obtain ⟨p, hap, hp⟩ := Relation.TransGen.tail'_iff.mp hanc
    refine ⟨p, (hparent p).mp hp, ?_⟩
    rcases Relation.reflTransGen_iff_eq_or_transGen.mp hap with rfl | hap
    · exact .inr ha
    · exact .inl ⟨a, ha, hap⟩
  · rintro ⟨p, hp, ⟨a, ha, hanc⟩ | hp'⟩
    · exact ⟨a, ha, hanc.tail ((hparent p).mpr hp)⟩
    · exact ⟨p, hp', .single ((hparent p).mpr hp)⟩

/-- what the loop has found of the rows in front of one -/
structure Drawn (rows : List TreeRow) (collapsed : Finset Nat) (i : Nat) (s : List Bool × List Nat) : Prop where
  length : s.1.length = rows.length
  hidden : ∀ j < i, ∃ h, s.1[j]? = some h ∧ (h = true ↔ Hidden rows collapsed j)
  sorted : s.2.Pairwise (· < ·)
  out : ∀ j, j ∈ s.2 ↔ j < i ∧ ¬ Hidden rows collapsed j

/-- **Step lemma**: one more row. -/
lemma Drawn.next {i : Nat} {s : List Bool × List Nat} (hs : Drawn rows collapsed i s) (hi : i < rows.length)
    {under : Bool} (hunder : under = true ↔ Hidden rows collapsed i) :
    Drawn rows collapsed (i + 1) (s.1.set i under, if under then s.2 else s.2 ++ [i]) := by
  have hlength : i < s.1.length := hs.length ▸ hi
  refine ⟨by rw [List.length_set, hs.length], ?_, ?_, ?_⟩
  · intro j hj
    rcases Nat.lt_succ_iff_lt_or_eq.mp hj with hj | rfl
    · obtain ⟨h, hget, hiff⟩ := hs.hidden j hj
      exact ⟨h, by rw [List.getElem?_set_ne (by omega), hget], hiff⟩
    · exact ⟨under, List.getElem?_set_self hlength, hunder⟩
  · cases under with
    | true => exact hs.sorted
    | false =>
      refine List.pairwise_append.mpr ⟨hs.sorted, List.pairwise_singleton _ _, ?_⟩
      intro j hj k hk
      cases List.mem_singleton.mp hk
      exact ((hs.out j).mp hj).1
  · intro j
    cases under with
    | true =>
      rw [if_pos rfl, hs.out]
      refine and_congr_left fun hnot => ⟨fun hj => hj.trans (Nat.lt_succ_self i), fun hj => ?_⟩
      refine (Nat.lt_succ_iff_lt_or_eq.mp hj).resolve_right ?_
      rintro rfl
      exact hnot (hunder.mp rfl)
    | false =>
      rw [if_neg Bool.false_ne_true, List.mem_append, List.mem_singleton, hs.out, Nat.lt_succ_iff_lt_or_eq, or_and_right]
      refine or_congr_right ⟨?_, And.left⟩
      rintro rfl
      exact ⟨rfl, fun h => Bool.false_ne_true (hunder.mpr h)⟩

lemma drawRow_spec (hparents : ∀ (i : Nat) r, rows[i]? = some r → ∀ a, r.parent = some a → a < i) {i : Nat}
    {s : List Bool × List Nat} (hs : Drawn rows collapsed i s) (hi : i < rows.length) :
    ∃ t, drawRow rows collapsed s i = some t ∧ Drawn rows collapsed (i + 1) t := by
  obtain ⟨r, hr⟩ : ∃ r, rows[i]? = some r := ⟨_, List.getElem?_eq_getElem hi⟩
  have hhidden := @hidden_iff rows collapsed i r hr
  simp only [drawRow, hr, Option.bind_eq_bind, Option.bind_some]
  cases hp : r.parent with
  | none =>
    refine ⟨_, rfl, hs.next hi (iff_of_false Bool.false_ne_true ?_)⟩
    rw [hhidden, hp]
    rintro ⟨p, h, -⟩
    cases h
  | some p =>
    obtain ⟨h, hget, hiff⟩ := hs.hidden p (hparents i r hr p hp)
    simp only [hget, Option.bind_some]
    refine ⟨_, rfl, hs.next hi ?_⟩
    rw [hhidden, hp, Bool.or_eq_true, hiff, decide_eq_true_iff]
    constructor
    · exact fun h => ⟨p, rfl, h⟩
    · rintro ⟨p', hp', h⟩
      cases hp'
      exact h

/-- **The rows that are drawn**, in order, are those that are under no collapsed row. -/
theorem visibleRows_spec (hparents : ∀ (i : Nat) r, rows[i]? = some r → ∀ a, r.parent = some a → a < i)
    (collapsed : Finset Nat) : ∃ out, visibleRows rows collapsed = some out ∧ out.Pairwise (· < ·) ∧
      ∀ i, i ∈ out ↔ i < rows.length ∧ ∀ a, Ancestor rows a i → a ∉ collapsed := by
  have hstart : Drawn rows collapsed 0 (List.replicate rows.length false, []) :=
    ⟨List.length_replicate, fun j hj => absurd hj (Nat.not_lt_zero j), List.Pairwise.nil, fun j => by simp⟩
  obtain ⟨s, hloop, hs⟩ := Loops.forRange_rule (b := rows.length) hstart
    fun i s _ hi hs => drawRow_spec hparents hs hi
  rw [Nat.zero_max] at hs
  refine ⟨s.2, congrArg (Option.map Prod.snd) hloop, hs.sorted, fun i => ?_⟩
  rw [hs.out]
  refine and_congr_right fun _ => ⟨?_, ?_⟩
  · intro hnot a hanc ha
    exact hnot ⟨a, ha, hanc⟩
  · rintro hnone ⟨a, ha, hanc⟩
    exact hnone a hanc ha

/-- what can be collapsed is what something is under -/
lemma mem_collapsibleRows {flow : Flow} (h : Unfolds flow rows) {i : Nat} :
    i ∈ collapsibleRows rows ↔ ∃ j, Parent rows i j := by
  have hmem : i ∈ collapsibleRows rows ↔ ∃ r, rows[i]? = some r ∧ 0 < r.childCount := by
    simp [collapsibleRows, List.mem_zipIdx_iff_getElem?]
  rw [hmem]
  constructor
  · rintro ⟨r, hr, hpos⟩
    rw [h.childCount i r hr] at hpos
    obtain ⟨q, hq⟩ := List.exists_mem_of_length_pos hpos
    obtain ⟨hq, hparent⟩ := List.mem_filter.mp hq
    obtain ⟨j, hj⟩ := List.mem_iff_getElem?.mp hq
    exact ⟨j, q, hj, of_decide_eq_true hparent⟩
  · rintro ⟨j, q, hj, hparent⟩
    have hlt : j < rows.length := (List.getElem?_eq_some_iff.mp hj).1
    have hi : i < j := (h.preorder i j (.single ⟨q, hj, hparent⟩)).1
    obtain ⟨r, hr⟩ : ∃ r, rows[i]? = some r := ⟨_, List.getElem?_eq_getElem (hi.trans hlt)⟩
    refine ⟨r, hr, ?_⟩
    rw [h.childCount i r hr]
    exact List.length_pos_of_mem (List.mem_filter.mpr ⟨List.mem_of_getElem? hj, decide_eq_true hparent⟩)

end

/-- **Main result.**  When the unfolding of the flow fits, the rows are the unfolding in preorder, with all that the
rows say of their parents; and whatever the flow, at most one row over the cap comes out, and the rows that are drawn
are those that are under no collapsed row. -/
theorem deriveTree_unfolds (flow : Flow) :
    (flow.unfolding.size ≤ MAX_TREE_ROWS →
      deriveTree flow = (Forest.place [] 0 flow.unfolding).map (toRow flow) ∧ Unfolds flow (deriveTree flow)) ∧
    (deriveTree flow).length ≤ MAX_TREE_ROWS + 1 ∧
    ∀ collapsed : Finset Nat, ∃ out, visibleRows (deriveTree flow) collapsed = some out ∧ out.Pairwise (· < ·) ∧
      ∀ i, i ∈ out ↔ i < (deriveTree flow).length ∧ ∀ a, Ancestor (deriveTree flow) a i → a ∉ collapsed := by
  obtain ⟨hlength, hparents⟩ := deriveTree_bounded flow
  refine ⟨fun hroom => ⟨deriveTree_eq hroom, ?_⟩, hlength, fun collapsed => visibleRows_spec hparents collapsed⟩
  rw [deriveTree_eq hroom]
  exact unfolds_place flow

/-- two functions that call each other -/
def loopFlow : Flow where
  schemaVersion := FLOW_SCHEMA_VERSION
  processes := [⟨['m'], ['m']⟩]
  nodes := [⟨['a'], ['a'], .function, some ['m'], none, none⟩, ⟨['b'], ['b'], .function, some ['m'], none, none⟩]
  edges := [⟨['a'], ['b'], .calls⟩, ⟨['b'], ['a'], .calls⟩]
  entries := [['a']]

theorem deriveTree_unfolds_loop : (deriveTree loopFlow).map (fun r => (r.nodeId, r.marker)) =
    [(['a'], .none), (['b'], .none), (['a'], .repeatOf 0)] ∧ Unfolds loopFlow (deriveTree loopFlow) :=
  ⟨by decide, ((deriveTree_unfolds loopFlow).1 (by decide +kernel)).2⟩

end TerminalManager.FlowExplorer
