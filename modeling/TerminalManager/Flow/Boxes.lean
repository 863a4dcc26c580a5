import Mathlib.Tactic.Positivity
import TerminalManager.Flow.Graph
import TerminalManager.Lib.Loops
import TerminalManager.Lib.Rows

/-!
# The boxes of the graph do not overlap

Every box has a cell, which is its lane and its row, and a slot in the stack of its cell.  Boxes of one cell have
different slots, a row is as high as its tallest stack, and the rows stand under each other, as the lanes stand side by
side.

* `Stacked`              what the placements are: one for each box, with the slots of a cell in order;
* `grow_spec`            the rows are as high as their stacks;
* `Laid`                 the layout in terms of the placements and the rows;
* `layout_laid`          the layout succeeds, and is laid so;
* `Arranged`             what is to be seen of it;
* `layout_arranged`      the boxes and the lanes of every layout.
-/

namespace TerminalManager.FlowExplorer
open Editor (Line)

/-! ## lanes -/

section
variable {flow : Flow} {order : List Line} {id : Line}

lemma exists_lane (h : id ∈ order) : ∃ l ∈ lanesOf flow order, l.processId = laneOfNode flow id := by
  cases hprocess : flow.process (laneOfNode flow id) with
  | some p =>
    have hid : p.id = laneOfNode flow id := by
      have := List.find?_some hprocess
      exact of_decide_eq_true this
    obtain ⟨i, hi⟩ := List.mem_iff_getElem?.mp (List.mem_of_find?_eq_some hprocess)
    refine ⟨⟨p.id, p.label, i, ⟨0, 0, 0, 0⟩⟩, List.mem_append_left _ (List.mem_map.mpr ⟨(p, i), ?_, rfl⟩), hid⟩
    refine List.mem_filter.mpr ⟨List.mem_zipIdx_iff_getElem?.mpr hi, ?_⟩
    exact List.any_eq_true.mpr ⟨id, h, decide_eq_true hid.symm⟩
  | none =>
    have houtside : laneOfNode flow id = "outside".toList := by
      unfold laneOfNode at hprocess ⊢
      cases hfilter : ((flow.node id).bind Node.process).filter fun p => (flow.process p).isSome with
      | none => rfl
      | some p =>
        rw [hfilter, Option.getD_some] at hprocess
        have := (Option.filter_eq_some_iff.mp hfilter).2
        rw [hprocess] at this
        cases this
    have hany : order.any (fun id => (flow.process (laneOfNode flow id)).isNone) = true :=
      List.any_eq_true.mpr ⟨id, h, by rw [hprocess]; rfl⟩
    refine ⟨⟨"outside".toList, "outside".toList, flow.processes.length, ⟨0, 0, 0, 0⟩⟩, ?_, houtside.symm⟩
    refine List.mem_append_right _ ?_
    rw [if_pos hany]
    exact List.mem_singleton_self _

/-- the lane of a box is there -/
lemma laneIndex_spec (h : id ∈ order) : ∃ l, (lanesOf flow order)[laneIndex flow (lanesOf flow order) id]? = some l ∧
    l.processId = laneOfNode flow id := by
  obtain ⟨l, hl, hid⟩ := @exists_lane flow order id h
  have hsome : ((lanesOf flow order).findIdx? fun l => l.processId = laneOfNode flow id).isSome := by
    rw [List.findIdx?_isSome]
    exact List.any_eq_true.mpr ⟨l, hl, decide_eq_true hid⟩
  obtain ⟨i, hi⟩ := Option.isSome_iff_exists.mp hsome
  obtain ⟨hlt, hp, -⟩ := List.findIdx?_eq_some_iff_getElem.mp hi
  refine ⟨(lanesOf flow order)[i], ?_, of_decide_eq_true hp⟩
  rw [laneIndex, hi, Option.getD_some, List.getElem?_eq_getElem hlt]

/-- the lanes are in the order of the processes -/
lemma lanesOf_sorted (flow : Flow) (order : List Line) :
    (lanesOf flow order).Pairwise (fun a b => a.palette < b.palette) ∧ ∀ l ∈ lanesOf flow order,
      (∃ p, flow.processes[l.palette]? = some p ∧ p.id = l.processId) ∨
      (l.palette = flow.processes.length ∧ l.processId = "outside".toList) := by
  have hdeclared : ∀ l ∈ (flow.processes.zipIdx.filter fun p => order.any fun id => laneOfNode flow id = p.1.id).map
      (fun p => (⟨p.1.id, p.1.label, p.2, ⟨0, 0, 0, 0⟩⟩ : LaneGeom)),
      ∃ p, flow.processes[l.palette]? = some p ∧ p.id = l.processId := by
    intro l hl
    obtain ⟨p, hp, rfl⟩ := List.mem_map.mp hl
    exact ⟨p.1, List.mem_zipIdx_iff_getElem?.mp (List.mem_filter.mp hp).1, rfl⟩
  have hsorted : (flow.processes.zipIdx.filter fun p => order.any fun id => laneOfNode flow id = p.1.id).map
      (fun p => (⟨p.1.id, p.1.label, p.2, ⟨0, 0, 0, 0⟩⟩ : LaneGeom)) |>.Pairwise fun a b => a.palette < b.palette := by
    rw [List.pairwise_map]
    refine List.Pairwise.filter _ ?_
    have h : (flow.processes.zipIdx.map Prod.snd).Pairwise (· < ·) := by
      rw [List.zipIdx_map_snd]
      exact List.pairwise_lt_range'
    exact List.pairwise_map.mp h
  unfold lanesOf
  split
  · refine ⟨List.pairwise_append.mpr ⟨hsorted, List.pairwise_singleton _ _, ?_⟩, ?_⟩
    · intro a ha b hb
      cases List.mem_singleton.mp hb
      obtain ⟨p, hp, -⟩ := hdeclared a ha
      exact (List.getElem?_eq_some_iff.mp hp).1
    · intro l hl
      rcases List.mem_append.mp hl with hl | hl
      · exact .inl (hdeclared l hl)
      · cases List.mem_singleton.mp hl
        exact .inr ⟨rfl, rfl⟩
  · rw [List.append_nil]
    exact ⟨hsorted, fun l hl => .inl (hdeclared l hl)⟩

end

/-! ## placements -/

/-- a lane and a row -/
def Placement.cell (p : Placement) : Nat × Nat := (p.lane, p.depth)

/-- the placements of some boxes: the slots of a cell come in order, and the cells are counted -/
structure Stacked (flow : Flow) (lanes : List LaneGeom) (depthOf : Table Line Nat) (ids : List Line) (s : Stacks) :
    Prop where
  ids : s.placements.map Placement.id = ids
  placed : ∀ p ∈ s.placements, p.lane = laneIndex flow lanes p.id ∧ depthOf.get p.id = some p.depth
  slots : ∀ p ∈ s.placements, p.slot < (s.counts.get p.cell).getD 0
  sorted : s.placements.Pairwise fun p q => p.cell = q.cell → p.slot < q.slot
  entries : ∀ e ∈ s.counts.entries, ∃ p ∈ s.placements, p.depth = e.1.2

section
variable {flow : Flow} {lanes : List LaneGeom} {depthOf : Table Line Nat} {ids : List Line} {s : Stacks} {id : Line}

/-- **Step lemma**: one more box on the stack of its cell. -/
lemma Stacked.put (h : Stacked flow lanes depthOf ids s) (hid : depthOf.contains id = true) :
    ∃ t, s.put flow lanes depthOf id = some t ∧ Stacked flow lanes depthOf (ids ++ [id]) t := by
  obtain ⟨d, hd⟩ := Option.isSome_iff_exists.mp hid
  simp only [Stacks.put, hd, Option.bind_eq_bind, Option.bind_some]
  set cell : Nat × Nat := (laneIndex flow lanes id, d) with hcell
  set slot := (s.counts.get cell).getD 0 with hslot
  refine ⟨_, rfl, ?_, ?_, ?_, ?_, ?_⟩
  · rw [List.map_append, h.ids]
    rfl
  · intro p hp
    rcases List.mem_append.mp hp with hp | hp
    · exact h.placed p hp
    · cases List.mem_singleton.mp hp
      exact ⟨rfl, hd⟩
  · intro p hp
    rw [Table.get_insert]
    rcases List.mem_append.mp hp with hp | hp
    · have hlt := h.slots p hp
      by_cases heq : p.cell = cell
      · rw [if_pos heq, Option.getD_some]
        rw [heq] at hlt
        omega
      · rwa [if_neg heq]
    · cases List.mem_singleton.mp hp
      have heq : Placement.cell ⟨id, laneIndex flow lanes id, d, slot⟩ = cell := rfl
      rw [if_pos heq, Option.getD_some]
      exact Nat.lt_succ_self slot
  · refine List.pairwise_append.mpr ⟨h.sorted, List.pairwise_singleton _ _, ?_⟩
    intro p hp q hq heq
    cases List.mem_singleton.mp hq
    have hlt := h.slots p hp
    rwa [heq] at hlt
  · intro e he
    rcases List.mem_cons.mp he with rfl | he
    · exact ⟨_, List.mem_append_right _ (List.mem_singleton_self _), rfl⟩
    · obtain ⟨p, hp, hdepth⟩ := h.entries e (List.mem_filter.mp he).1
      exact ⟨p, List.mem_append_left _ hp, hdepth⟩

/-- **Run lemma**: all the boxes. -/
lemma stacked_all (more : List Line) (h : Stacked flow lanes depthOf ids s)
    (hmore : ∀ id ∈ more, depthOf.contains id = true) :
    ∃ t, more.foldlM (Stacks.put flow lanes depthOf) s = some t ∧ Stacked flow lanes depthOf (ids ++ more) t := by
  induction more generalizing s ids with
  | nil => exact ⟨s, rfl, by rwa [List.append_nil]⟩
  | cons id more ih =>
    obtain ⟨s₁, hput, h₁⟩ := h.put (hmore id List.mem_cons_self)
    obtain ⟨t, hrest, ht⟩ := ih h₁ fun id' hid' => hmore id' (List.mem_cons_of_mem id hid')
    refine ⟨t, ?_, ?_⟩
    · rw [List.foldlM_cons, hput]
      exact hrest
    · rwa [List.append_assoc] at ht

lemma stacked_nil : Stacked flow lanes depthOf [] ⟨∅, []⟩ :=
  ⟨rfl, (fun _ h => nomatch h), (fun _ h => nomatch h), List.Pairwise.nil, (fun _ h => nomatch h)⟩

end

/-! ## the heights of the rows -/

lemma stackHeight_nonneg (count : Nat) : 0 ≤ stackHeight count := by
  unfold stackHeight NODE_HEIGHT NODE_STACK_GAP
  positivity

/-- a slot that is counted is within the stack -/
lemma slot_le_stackHeight {slot count : Nat} (h : slot < count) :
    slot * (NODE_HEIGHT + NODE_STACK_GAP) + NODE_HEIGHT ≤ stackHeight count := by
  obtain ⟨more, rfl⟩ : ∃ more, count = slot + 1 + more := ⟨count - (slot + 1), by omega⟩
  have hmore : (0 : ℚ) ≤ more := Nat.cast_nonneg more
  unfold stackHeight NODE_HEIGHT NODE_STACK_GAP
  rw [show slot + 1 + more - 1 = slot + more by omega]
  push_cast
  linarith

/-- rows that have grown over some others -/
structure Grown (heights grown : List ℚ) : Prop where
  length : grown.length = heights.length
  le : ∀ (d : Nat) a b, heights[d]? = some a → grown[d]? = some b → a ≤ b

lemma Grown.refl (heights : List ℚ) : Grown heights heights :=
  ⟨rfl, fun _ _ _ ha hb => (Option.some_inj.mp (ha.symm.trans hb)).le⟩

/-- **The rows grow** to the height of every stack. -/
lemma grow_spec (entries : List ((Nat × Nat) × Nat)) (heights : List ℚ)
    (h : ∀ e ∈ entries, e.1.2 < heights.length) : ∃ grown, entries.foldlM growRow heights = some grown ∧
      Grown heights grown ∧ ∀ e ∈ entries, ∀ b, grown[e.1.2]? = some b → stackHeight e.2 ≤ b := by
  induction entries generalizing heights with
  | nil => exact ⟨heights, rfl, Grown.refl heights, fun _ h => nomatch h⟩
  | cons e entries ih =>
    have hlt := h e List.mem_cons_self
    obtain ⟨a, ha⟩ : ∃ a, heights[e.1.2]? = some a := ⟨_, List.getElem?_eq_getElem hlt⟩
    have hgrow : growRow heights e = some (heights.set e.1.2 (max a (stackHeight e.2))) := by
      simp only [growRow, ha, Option.bind_eq_bind, Option.bind_some]
    obtain ⟨grown, hrest, hgrown, hstacks⟩ := ih (heights.set e.1.2 (max a (stackHeight e.2))) (by
      intro e' he'
      rw [List.length_set]
      exact h e' (List.mem_cons_of_mem e he'))
    have hset : (heights.set e.1.2 (max a (stackHeight e.2)))[e.1.2]? = some (max a (stackHeight e.2)) :=
      List.getElem?_set_self hlt
    refine ⟨grown, ?_, ⟨?_, ?_⟩, ?_⟩
    · rw [List.foldlM_cons, hgrow]
      exact hrest
    · rw [hgrown.length, List.length_set]
    · intro d b c hb hc
      by_cases hd : d = e.1.2
      · subst hd
        cases ha.symm.trans hb
        exact (le_max_left _ _).trans (hgrown.le _ _ _ hset hc)
      · refine hgrown.le d b c ?_ hc
        rwa [List.getElem?_set_ne (Ne.symm hd)]
    · intro e' he' b hb
      rcases List.mem_cons.mp he' with rfl | he'
      · exact (le_max_right _ _).trans (hgrown.le _ _ _ hset hb)
      · exact hstacks e' he' b hb

/-- every depth has its row -/
lemma le_max_depth {depths : List Nat} {d : Nat} (h : d ∈ depths) : d < depths.max?.getD 0 + 1 := by
  cases hmax : depths.max? with
  | none =>
    rw [List.max?_eq_none_iff.mp hmax] at h
    nomatch h
  | some m => exact Nat.lt_succ_of_le ((List.max?_eq_some_iff.mp hmax).2 d h)

/-! ## the layout in terms of the placements -/

def topsOf (heights : List ℚ) : List ℚ := Rows.tops ROW_GAP (PADDING + LANE_HEADER) heights

def boxOf (heights : List ℚ) (p : Placement) : NodeGeom :=
  ⟨p.id, p.depth, p.lane, nodeRect ((topsOf heights)[p.depth]?.getD 0) p.lane p.slot⟩

/-- where the boxes end -/
def heightOf (w : Walk) (heights : List ℚ) : ℚ :=
  if w.order = [] then PADDING * 2 + LANE_HEADER
  else Rows.bottom ROW_GAP (PADDING + LANE_HEADER) heights - ROW_GAP + PADDING

def placeLane (height : ℚ) (i : Nat) (lane : LaneGeom) : LaneGeom := { lane with rect := laneRect height i }

/-- the layout of some placements in rows of some heights -/
def layoutOf (flow : Flow) (w : Walk) (ps : List Placement) (heights : List ℚ) : GraphLayout where
  lanes := (lanesOf flow w.order).mapIdx (placeLane (heightOf w heights))
  nodes := ps.map (boxOf heights)
  edges := (w.links.foldl (drawLink flow (ps.map (boxOf heights))) (0, [])).2
  width := PADDING * 2 + (max (lanesOf flow w.order).length 1 : Nat) * LANE_WIDTH +
    (max (lanesOf flow w.order).length 1 - 1 : Nat) * LANE_GAP
  height := heightOf w heights

/-- what the layout is made of -/
structure Laid (flow : Flow) (w : Walk) (ps : List Placement) (heights : List ℚ) (g : GraphLayout) : Prop where
  ids : ps.map Placement.id = w.order
  lane : ∀ p ∈ ps, p.lane = laneIndex flow (lanesOf flow w.order) p.id
  sorted : ps.Pairwise fun p q => p.cell = q.cell → p.slot < q.slot
  nonneg : ∀ h ∈ heights, 0 ≤ h
  /-- a box is within its row -/
  within : ∀ p ∈ ps, ∃ height, heights[p.depth]? = some height ∧
    p.slot * (NODE_HEIGHT + NODE_STACK_GAP) + NODE_HEIGHT ≤ height
  layout : g = layoutOf flow w ps heights

lemma rowTops_eq (heights : List ℚ) :
    rowTops heights = (topsOf heights, Rows.bottom ROW_GAP (PADDING + LANE_HEADER) heights) :=
  (Rows.foldl_tops ROW_GAP (PADDING + LANE_HEADER) [] heights).trans (by rw [List.nil_append, topsOf])

/-- the rows of the stacked boxes -/
lemma rows_spec {flow : Flow} {lanes : List LaneGeom} {depthOf : Table Line Nat} {ids : List Line} {s : Stacks}
    (hs : Stacked flow lanes depthOf ids s) {rows : Nat} (hdepth : ∀ p ∈ s.placements, p.depth < rows) :
    ∃ heights, s.counts.entries.foldlM growRow (List.replicate rows 0) = some heights ∧ heights.length = rows ∧
      (∀ h ∈ heights, 0 ≤ h) ∧ ∀ p ∈ s.placements, ∃ height, heights[p.depth]? = some height ∧
        p.slot * (NODE_HEIGHT + NODE_STACK_GAP) + NODE_HEIGHT ≤ height := by
  obtain ⟨heights, hgrow, hgrown, hstacks⟩ := grow_spec s.counts.entries (List.replicate rows 0) (by
    intro e he
    obtain ⟨p, hp, heq⟩ := hs.entries e he
    rw [List.length_replicate, ← heq]
    exact hdepth p hp)
  have hlength : heights.length = rows := by rw [hgrown.length, List.length_replicate]
  refine ⟨heights, hgrow, hlength, ?_, ?_⟩
  · intro h hh
    obtain ⟨d, hd⟩ := List.mem_iff_getElem?.mp hh
    have hlt : d < rows := hlength ▸ (List.getElem?_eq_some_iff.mp hd).1
    refine hgrown.le d 0 h ?_ hd
    rw [List.getElem?_replicate, if_pos hlt]
  · intro p hp
    obtain ⟨height, hheight⟩ : ∃ height, heights[p.depth]? = some height :=
      ⟨_, List.getElem?_eq_getElem (hlength ▸ hdepth p hp)⟩
    refine ⟨height, hheight, ?_⟩
    have hslot := hs.slots p hp
    cases hcount : s.counts.get p.cell with
    | none =>
      rw [hcount] at hslot
      exact absurd hslot (Nat.not_lt_zero _)
    | some count =>
      rw [hcount, Option.getD_some] at hslot
      exact (slot_le_stackHeight hslot).trans (hstacks _ (Table.mem_of_get hcount) height hheight)

/-- **The layout succeeds.** -/
theorem layout_laid (flow : Flow) (roots : List Line) (depth : DepthFilter) : ∃ w ps heights g,
    walk flow roots depth.limit = some w ∧ Walks flow roots depth.limit w w.order ∧
    layout flow roots depth = some g ∧ Laid flow w ps heights g := by
  obtain ⟨w, hwalk, -, hw⟩ := walk_spec flow roots depth.limit
  have hkeys : ∀ id ∈ w.order, w.depthOf.contains id = true := fun id hid => (hw.keys id).mpr hid
  have hdepths : w.order.mapM w.depthOf.get = some (w.order.map fun id => (w.depthOf.get id).getD 0) := by
    refine Loops.mapM_eq_map fun id hid => ?_
    obtain ⟨d, hd⟩ := Option.isSome_iff_exists.mp (hkeys id hid)
    rw [hd, Option.getD_some]
  obtain ⟨s, hput, hs⟩ := @stacked_all flow (lanesOf flow w.order) w.depthOf [] ⟨∅, []⟩ w.order stacked_nil hkeys
  rw [List.nil_append] at hs
  have hdepth : ∀ p ∈ s.placements, p.depth < (w.order.map fun id => (w.depthOf.get id).getD 0).max?.getD 0 + 1 := by
    intro p hp
    have hid : p.id ∈ w.order := hs.ids ▸ List.mem_map_of_mem hp
    refine le_max_depth (List.mem_map.mpr ⟨p.id, hid, ?_⟩)
    rw [(hs.placed p hp).2, Option.getD_some]
  obtain ⟨heights, hgrow, hlength, hnonneg, hwithin⟩ := rows_spec hs hdepth
  have hnodes : s.placements.mapM (placeNode (topsOf heights)) = some (s.placements.map (boxOf heights)) := by
    refine Loops.mapM_eq_map fun p hp => ?_
    have hlt : p.depth < (topsOf heights).length := by
      rw [topsOf, Rows.length_tops, hlength]
      exact hdepth p hp
    simp only [placeNode, boxOf, List.getElem?_eq_getElem hlt, Option.bind_eq_bind, Option.bind_some, Option.getD_some]
  have hlayout : layout flow roots depth = some (layoutOf flow w s.placements heights) := by
    simp only [layout, hwalk, hdepths, hput, hgrow, rowTops_eq, hnodes, Option.bind_eq_bind, Option.bind_some]
    rfl
  exact ⟨w, s.placements, heights, _, hwalk, hw, hlayout, hs.ids, fun p hp => (hs.placed p hp).1, hs.sorted, hnonneg,
    hwithin, rfl⟩

/-! ## what is to be seen -/

namespace Rect

def Contains (r s : Rect) : Prop := r.x ≤ s.x ∧ s.x + s.w ≤ r.x + r.w ∧ r.y ≤ s.y ∧ s.y + s.h ≤ r.y + r.h

lemma Contains.trans {r s t : Rect} (h : r.Contains s) (h' : s.Contains t) : r.Contains t :=
  ⟨h.1.trans h'.1, h'.2.1.trans h.2.1, h.2.2.1.trans h'.2.2.1, h'.2.2.2.trans h.2.2.2⟩

/-- one is left of the other, or above it -/
lemma apart {r s : Rect} (h : r.x + r.w ≤ s.x ∨ s.x + s.w ≤ r.x ∨ r.y + r.h ≤ s.y ∨ s.y + s.h ≤ r.y) :
    r.intersects s = false := by
  refine decide_eq_false ?_
  rintro ⟨h₁, h₂, h₃, h₄⟩
  rcases h with h | h | h | h <;> linarith

end Rect

/-- the boxes and the lanes of a layout -/
structure Arranged (flow : Flow) (g : GraphLayout) : Prop where
  boxes : g.nodes.Pairwise fun a b => a.rect.intersects b.rect = false
  /-- a box is in the lane of its process -/
  inLane : ∀ n ∈ g.nodes, ∃ node lane, flow.node n.nodeId = some node ∧ g.lanes[n.lane]? = some lane ∧
    lane.processId = node.process.getD "outside".toList ∧ lane.rect.Contains n.rect
  lanes : g.lanes.Pairwise fun a b => a.rect.intersects b.rect = false
  /-- the lanes are in the order of the processes -/
  laneOrder : g.lanes.Pairwise (fun a b => a.palette < b.palette ∧ a.rect.x + a.rect.w < b.rect.x) ∧
    ∀ l ∈ g.lanes, (∃ p, flow.processes[l.palette]? = some p ∧ p.id = l.processId) ∨
      (l.palette = flow.processes.length ∧ l.processId = "outside".toList)
  rows : ∀ a ∈ g.nodes, ∀ b ∈ g.nodes, a.depth < b.depth → a.rect.y + a.rect.h < b.rect.y
  within : ∀ r ∈ g.lanes.map LaneGeom.rect ++ g.nodes.map NodeGeom.rect,
    (⟨0, 0, g.width, g.height⟩ : Rect).Contains r

section
variable {flow : Flow} {w : Walk} {ps : List Placement} {heights : List ℚ} {g : GraphLayout} {p q : Placement}

/-- where a box is: under the top of its row, and over its end -/
lemma Laid.box (h : Laid flow w ps heights g) (hp : p ∈ ps) : ∃ top height,
    (topsOf heights)[p.depth]? = some top ∧ heights[p.depth]? = some height ∧
    (boxOf heights p).rect = nodeRect top p.lane p.slot ∧
    PADDING + LANE_HEADER ≤ top ∧ top + height + ROW_GAP ≤ Rows.bottom ROW_GAP (PADDING + LANE_HEADER) heights ∧
    (p.slot : ℚ) * (NODE_HEIGHT + NODE_STACK_GAP) + NODE_HEIGHT ≤ height := by
  obtain ⟨height, hheight, hle⟩ := h.within p hp
  have hlt : p.depth < (topsOf heights).length := by
    rw [topsOf, Rows.length_tops]
    exact (List.getElem?_eq_some_iff.mp hheight).1
  obtain ⟨top, htop⟩ : ∃ top, (topsOf heights)[p.depth]? = some top := ⟨_, List.getElem?_eq_getElem hlt⟩
  have hgap : 0 ≤ ROW_GAP := by unfold ROW_GAP; norm_num
  obtain ⟨hfirst, hbottom⟩ := Rows.top_spec hgap h.nonneg htop hheight
  refine ⟨top, height, htop, hheight, ?_, hfirst, hbottom, hle⟩
  simp only [boxOf, htop, Option.getD_some]

/-- **Rows**: a box of a later row is below. -/
lemma Laid.below (h : Laid flow w ps heights g) (hp : p ∈ ps) (hq : q ∈ ps) (hdepth : p.depth < q.depth) :
    (boxOf heights p).rect.y + (boxOf heights p).rect.h < (boxOf heights q).rect.y := by
  obtain ⟨top, height, htop, hheight, hrect, -, -, hle⟩ := h.box hp
  obtain ⟨top', height', htop', hheight', hrect', -, -, hle'⟩ := h.box hq
  have hgap : 0 ≤ ROW_GAP := by unfold ROW_GAP; norm_num
  have hrows := Rows.top_add_le hgap h.nonneg hdepth htop hheight htop'
  have hslot : (0 : ℚ) ≤ q.slot := Nat.cast_nonneg _
  rw [hrect, hrect']
  simp only [nodeRect, NODE_HEIGHT, NODE_STACK_GAP, ROW_GAP] at *
  linarith

/-- **Stacks**: a box of the same cell with a later slot is below. -/
lemma Laid.stacked (h : Laid flow w ps heights g) (hp : p ∈ ps) (hq : q ∈ ps) (hcell : p.cell = q.cell)
    (hslot : p.slot < q.slot) : (boxOf heights p).rect.y + (boxOf heights p).rect.h ≤ (boxOf heights q).rect.y := by
  obtain ⟨top, height, htop, -, hrect, -⟩ := h.box hp
  obtain ⟨top', height', htop', -, hrect', -⟩ := h.box hq
  have hdepth : p.depth = q.depth := congrArg Prod.snd hcell
  rw [← hdepth, htop] at htop'
  cases htop'
  have hle : (p.slot : ℚ) + 1 ≤ q.slot := by exact_mod_cast hslot
  rw [hrect, hrect']
  simp only [nodeRect, NODE_HEIGHT, NODE_STACK_GAP]
  linarith

/-- **Lanes**: a box of a later lane is to the right. -/
lemma box_right (hlane : p.lane < q.lane) :
    (boxOf heights p).rect.x + (boxOf heights p).rect.w ≤ (boxOf heights q).rect.x := by
  have hle : (p.lane : ℚ) + 1 ≤ q.lane := by exact_mod_cast hlane
  simp only [boxOf, nodeRect, PADDING, LANE_WIDTH, LANE_GAP, NODE_WIDTH]
  linarith

/-- two boxes do not overlap -/
lemma Laid.apart (h : Laid flow w ps heights g) (hp : p ∈ ps) (hq : q ∈ ps)
    (hslot : p.cell = q.cell → p.slot < q.slot) :
    (boxOf heights p).rect.intersects (boxOf heights q).rect = false := by
  refine Rect.apart ?_
  rcases Nat.lt_trichotomy p.lane q.lane with hlane | hlane | hlane
  · exact .inl (box_right hlane)
  · rcases Nat.lt_trichotomy p.depth q.depth with hdepth | hdepth | hdepth
    · exact .inr (.inr (.inl (h.below hp hq hdepth).le))
    · have hcell : p.cell = q.cell := Prod.ext hlane hdepth
      exact .inr (.inr (.inl (h.stacked hp hq hcell (hslot hcell))))
    · exact .inr (.inr (.inr (h.below hq hp hdepth).le))
  · exact .inr (.inl (box_right hlane))

/-- the lane of a node is the one of its process -/
lemma laneOfNode_eq (hvalid : flow.Valid) {id : Line} {node : Node} (hnode : flow.node id = some node) :
    laneOfNode flow id = node.process.getD "outside".toList := by
  unfold laneOfNode
  rw [hnode, Option.bind_some]
  cases hprocess : node.process with
  | none => rfl
  | some p =>
    obtain ⟨process, hmem, hid⟩ :=
      List.mem_map.mp (hvalid.declared node (List.mem_of_find?_eq_some hnode) p hprocess)
    have hsome : (flow.process p).isSome = true :=
      List.find?_isSome.mpr ⟨process, hmem, decide_eq_true hid⟩
    rw [Option.filter_some, if_pos hsome]

lemma getElem?_lanes {i : Nat} {lane : LaneGeom} : (layoutOf flow w ps heights).lanes[i]? = some lane ↔
    ∃ l, (lanesOf flow w.order)[i]? = some l ∧ placeLane (heightOf w heights) i l = lane := by
  rw [layoutOf, List.getElem?_mapIdx, Option.map_eq_some_iff]

/-- two lanes in their order -/
lemma lanes_pairwise {R : LaneGeom → LaneGeom → Prop}
    (hR : ∀ i j a b, i < j → (lanesOf flow w.order)[i]? = some a → (lanesOf flow w.order)[j]? = some b →
      R (placeLane (heightOf w heights) i a) (placeLane (heightOf w heights) j b)) :
    (layoutOf flow w ps heights).lanes.Pairwise R := by
  rw [List.pairwise_iff_getElem]
  intro i j hi hj hij
  obtain ⟨a, ha, haeq⟩ := getElem?_lanes.mp (List.getElem?_eq_getElem hi)
  obtain ⟨b, hb, hbeq⟩ := getElem?_lanes.mp (List.getElem?_eq_getElem hj)
  rw [← haeq, ← hbeq]
  exact hR i j a b hij ha hb

lemma laneRect_right {height height' : ℚ} {i j : Nat} (hij : i < j) :
    (laneRect height i).x + (laneRect height i).w < (laneRect height' j).x := by
  have hle : (i : ℚ) + 1 ≤ j := by exact_mod_cast hij
  simp only [laneRect, PADDING, LANE_WIDTH, LANE_GAP]
  linarith

/-- a box is in its lane -/
lemma Laid.contains_box (h : Laid flow w ps heights g) (hp : p ∈ ps) :
    (laneRect (heightOf w heights) p.lane).Contains (boxOf heights p).rect := by
  obtain ⟨top, height, -, -, hrect, hfirst, hbottom, hle⟩ := h.box hp
  have horder : w.order ≠ [] := by
    intro hnil
    have hids := h.ids
    rw [hnil, List.map_eq_nil_iff] at hids
    rw [hids] at hp
    nomatch hp
  have hslot : (0 : ℚ) ≤ p.slot := Nat.cast_nonneg _
  rw [hrect, heightOf, if_neg horder]
  generalize Rows.bottom ROW_GAP (PADDING + LANE_HEADER) heights = bottom at hbottom ⊢
  simp only [Rect.Contains, laneRect, nodeRect, PADDING, LANE_WIDTH, LANE_GAP, LANE_HEADER, NODE_WIDTH, NODE_HEIGHT,
    NODE_STACK_GAP, ROW_GAP] at *
  refine ⟨?_, ?_, ?_, ?_⟩ <;> linarith

/-- the lanes are on the canvas -/
lemma contains_lane {i : Nat} (hi : i < (lanesOf flow w.order).length) :
    (⟨0, 0, (layoutOf flow w ps heights).width, (layoutOf flow w ps heights).height⟩ : Rect).Contains
      (laneRect (heightOf w heights) i) := by
  obtain ⟨more, hmore⟩ : ∃ more, max (lanesOf flow w.order).length 1 = i + 1 + more :=
    ⟨max (lanesOf flow w.order).length 1 - (i + 1), by omega⟩
  have hpos : (0 : ℚ) ≤ more := Nat.cast_nonneg _
  have hi' : (0 : ℚ) ≤ i := Nat.cast_nonneg _
  simp only [layoutOf, hmore, Rect.Contains, laneRect, PADDING, LANE_WIDTH, LANE_GAP]
  rw [show i + 1 + more - 1 = i + more by omega]
  push_cast
  refine ⟨?_, ?_, ?_, ?_⟩ <;> linarith

/-- **Main result.**  Whatever valid flow, roots and depth, the boxes of the layout do not overlap, each is in the lane of
its process and below the rows in front of it, and the lanes stand side by side in the order of the processes. -/
theorem layout_arranged (flow : Flow) (hvalid : flow.validate = .ok ()) (roots : List Line) (depth : DepthFilter) :
    ∃ g, layout flow roots depth = some g ∧ Arranged flow g := by
  have hvalid := Flow.validate_ok hvalid
  obtain ⟨w, ps, heights, g, -, hw, hlayout, hlaid⟩ := layout_laid flow roots depth
  refine ⟨g, hlayout, ?_⟩
  obtain rfl := hlaid.layout
  have hboxes : ∀ {n}, n ∈ (layoutOf flow w ps heights).nodes → ∃ p ∈ ps, boxOf heights p = n :=
    fun hn => List.mem_map.mp hn
  have hlane : ∀ {p}, p ∈ ps → ∃ node l, flow.node p.id = some node ∧
      (lanesOf flow w.order)[p.lane]? = some l ∧ l.processId = node.process.getD "outside".toList := by
    intro p hp
    have hid : p.id ∈ w.order := hlaid.ids ▸ List.mem_map_of_mem hp
    obtain ⟨node, hnode⟩ := Option.isSome_iff_exists.mp (Flow.node_isSome.mpr (hw.known hid))
    obtain ⟨l, hl, hprocess⟩ := @laneIndex_spec flow w.order p.id hid
    rw [← hlaid.lane p hp] at hl
    exact ⟨node, l, hnode, hl, hprocess.trans (laneOfNode_eq hvalid hnode)⟩
  obtain ⟨hsorted, hnamed⟩ := lanesOf_sorted flow w.order
  constructor
  case boxes =>
    refine List.pairwise_map.mpr (hlaid.sorted.imp_of_mem ?_)
    intro p q hp hq hslot
    exact hlaid.apart hp hq hslot
  case inLane =>
    intro n hn
    obtain ⟨p, hp, rfl⟩ := hboxes hn
    obtain ⟨node, l, hnode, hl, hprocess⟩ := hlane hp
    exact ⟨node, _, hnode, getElem?_lanes.mpr ⟨l, hl, rfl⟩, hprocess, hlaid.contains_box hp⟩
  case lanes =>
    exact lanes_pairwise fun i j a b hij _ _ => Rect.apart (.inl (laneRect_right hij).le)
  case laneOrder =>
    constructor
    · refine lanes_pairwise fun i j a b hij ha hb => ⟨?_, laneRect_right hij⟩
      obtain ⟨hi, rfl⟩ := List.getElem?_eq_some_iff.mp ha
      obtain ⟨hj, rfl⟩ := List.getElem?_eq_some_iff.mp hb
      exact List.pairwise_iff_getElem.mp hsorted i j hi hj hij
    · intro l hl
      obtain ⟨i, hi⟩ := List.mem_iff_getElem?.mp hl
      obtain ⟨l', hl', rfl⟩ := getElem?_lanes.mp hi
      exact hnamed l' (List.mem_of_getElem? hl')
  case rows =>
    intro a ha b hb hdepth
    obtain ⟨p, hp, rfl⟩ := hboxes ha
    obtain ⟨q, hq, rfl⟩ := hboxes hb
    exact hlaid.below hp hq hdepth
  case within =>
    intro r hr
    rcases List.mem_append.mp hr with hr | hr
    · obtain ⟨l, hl, rfl⟩ := List.mem_map.mp hr
      obtain ⟨i, hi⟩ := List.mem_iff_getElem?.mp hl
      obtain ⟨l', hl', rfl⟩ := getElem?_lanes.mp hi
      exact contains_lane (List.getElem?_eq_some_iff.mp hl').1
    · obtain ⟨n, hn, rfl⟩ := List.mem_map.mp hr
      obtain ⟨p, hp, rfl⟩ := hboxes hn
      obtain ⟨node, l, -, hl, -⟩ := hlane hp
      exact (contains_lane (List.getElem?_eq_some_iff.mp hl).1).trans (hlaid.contains_box hp)

end

/-- one function calls two others of another process, which are stacked -/
def stackFlow : Flow where
  schemaVersion := FLOW_SCHEMA_VERSION
  processes := [⟨['m'], ['m']⟩, ⟨['r'], ['r']⟩]
  nodes := [⟨['a'], ['a'], .function, some ['r'], none, none⟩, ⟨['b'], ['b'], .function, some ['m'], none, none⟩,
    ⟨['c'], ['c'], .function, some ['m'], none, none⟩]
  edges := [⟨['a'], ['b'], .calls⟩, ⟨['a'], ['c'], .calls⟩]
  entries := [['a']]

theorem layout_arranged_stack : (layout stackFlow [['a']] .all).map (fun g => g.nodes.map fun n => (n.lane, n.rect.y)) =
    some [(1, 64), (0, 164), (0, 230)] ∧ ∃ g, layout stackFlow [['a']] .all = some g ∧ Arranged stackFlow g :=
  ⟨by decide +kernel, layout_arranged stackFlow (by decide) [['a']] .all⟩

end TerminalManager.FlowExplorer
