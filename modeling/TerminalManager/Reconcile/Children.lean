import TerminalManager.Reconcile.Matching

/-!
# What a pass does to a tree

A pass goes down the tree.  At each element it works on a chain of old children, whose places are taken one by one by
what becomes of them, and on new children beside it; at the end the chain is cut up and linked anew.

* `updateElementProperties_spec`, `replaceSubtree_spec`   an element that is kept, and one that is not;
* `removeUnmatched_spec`, `stitch_spec`   the two loops at the end;
* `Loop`                     the state of the loop over the definitions;
* `reconcileInner_spec`      the tree afterwards is related to the one before by `Rec`.
-/

namespace TerminalManager.Reconcile
open LinkedTree Ownership

section
variable {w : World} {t : ElementTree} {parent prev next : Option NodeId}
  {rest : NodeId → Option (Links NodeId × ElementData)}

/-! ## single steps -/

lemma NodeArena.SameTree.ite {a a' : NodeArena} {c : Prop} [Decidable c] (h : SameTree a a') :
    SameTree a (if c then a' else a) := by
  split_ifs
  · exact h
  · exact .refl a

/-- an element that is kept -/
theorem updateElementProperties_spec (h : Owns w.arena.heap (t.cells parent prev next) rest) (p : DefProps) :
    Owns (updateElementProperties w t.id p).arena.heap
        ((Rose.node t.id (updateData t.data p) t.children).cells parent prev next) rest ∧
      (∀ i, (updateElementProperties w t.id p).arena.Seen i ↔ w.arena.Seen i) ∧
        (updateElementProperties w t.id p).refs = applyWrites w.refs (sets (ownRef p t.id)) := by
  obtain ⟨e, he, -, -⟩ := NodeArena.get_root h
  let f : Element → Element := fun x =>
    { x with toElementData := updateData x.toElementData p, dirty := x.dirty ∪ (changes e.toElementData p).flags }
  have hsame : NodeArena.SameTree (w.arena.modify t.id f) (updateElementProperties w t.id p).arena := by
    let c := changes e.toElementData p
    let a := w.arena.modify t.id f
    let styled := if c.style then
        markAncestorsDirty (markDescendantsDirty a t.id {.style, .layout, .paint}) t.id {.subtreeStyle, .subtreeLayout}
      else a
    let laidOut := if c.layout then markAncestorsDirty styled t.id {.subtreeLayout} else styled
    have hstyled : NodeArena.SameTree a styled :=
      .ite ((NodeArena.markDescendantsDirty_same _ _ _).trans (NodeArena.markAncestorsDirty_same _ _ _))
    have hlaidOut : NodeArena.SameTree styled laidOut := .ite (NodeArena.markAncestorsDirty_same _ _ _)
    have hpainted : NodeArena.SameTree laidOut
        (if .paint ∈ laidOut.dirtyOf t.id then markAncestorsDirty laidOut t.id {.subtreePaint} else laidOut) :=
      .ite (NodeArena.markAncestorsDirty_same _ _ _)
    unfold updateElementProperties
    rw [he]
    exact (hstyled.trans hlaidOut).trans hpainted
  refine ⟨?_, fun i => (hsame.seen_iff i).trans (NodeArena.seen_modify _), ?_⟩
  · rw [hsame.heap_eq, NodeArena.heap_modify w.arena t.id f (fun c => (c.1, updateData c.2 p)) fun _ => rfl]
    rw [← List.append_nil (Rose.cells _ _ _ _)] at h ⊢
    exact owns_modify_root h _ rfl
  · unfold updateElementProperties ownRef
    rw [he]
    cases p.nodeRef <;> rfl

lemma heap_relink (a : NodeArena) (parent prev next : Option NodeId) (new : NodeId) :
    (a.relink parent prev next new).heap = relinked parent prev next new
      (modify a.heap new fun c => setPrev prev (setNext next c)) := by
  have hnew : (a.modify new fun e => { e with prevSibling := prev, nextSibling := next }).heap =
      modify a.heap new fun c => setPrev prev (setNext next c) := NodeArena.heap_modify a new _ _ fun _ => rfl
  unfold NodeArena.relink relinked
  rw [← hnew]
  rcases prev with - | prev <;> rcases parent with - | parent <;> rcases next with - | next
  all_goals
    simp only [NodeArena.heap_setPrev, NodeArena.heap_setNext, NodeArena.heap_setFirst, NodeArena.heap_setLast]

lemma seen_relink (a : NodeArena) (parent prev next : Option NodeId) (new i : NodeId) :
    (a.relink parent prev next new).Seen i ↔ a.Seen i := by
  unfold NodeArena.relink
  rcases prev with - | prev <;> rcases parent with - | parent <;> rcases next with - | next
  all_goals simp only [NodeArena.seen_modify]

/-- an element whose tag changed: it is freed with what is below it, and the new one takes its place -/
theorem replaceSubtree_spec {e : Element} (h : Owns w.arena.heap (t.cells parent prev next) rest)
    (he : w.arena.get t.id = some e) (hrest : ∀ i, Neighbour parent prev next i → rest i ≠ none) (d : ElementDef) :
    ∃ new, Built d new ∧ (replaceSubtree w t.id e d).2 = new.id ∧
      Owns (replaceSubtree w t.id e d).1.arena.heap (new.cells parent prev next) (relinked parent prev next new.id rest) ∧
        Fresh w.arena (replaceSubtree w t.id e d).1.arena new.ids ∧
          (replaceSubtree w t.id e d).1.refs = applyWrites w.refs (clears (refCells t) ++ sets (refCells new)) := by
  obtain ⟨e', he', hlinks, -⟩ := NodeArena.get_root h
  rw [he] at he'
  cases he'
  have hparent : e.parent = parent := congrArg Links.parent hlinks
  have hprev : e.prevSibling = prev := congrArg Links.prevSibling hlinks
  have hnext : e.nextSibling = next := congrArg Links.nextSibling hlinks
  obtain ⟨hheap, hseen, hrefs⟩ := deallocSubtree_spec h
  obtain ⟨new, hbuilt, hid, hown, hfresh, hrefs'⟩ := buildSubtree_spec d (deallocSubtree w t.id) parent
  unfold replaceSubtree
  rw [hparent, hprev, hnext]
  refine ⟨new, hbuilt, hid, ?_, ?_, ?_⟩
  · dsimp only
    rw [heap_relink, hid]
    rw [hheap, ← List.append_nil (Rose.cells _ _ _ _)] at hown
    have hplaced := owns_relink_root hown (fun c => setPrev prev (setNext next c)) rfl
    rw [List.append_nil] at hplaced
    exact owns_relinked hplaced hrest new.id
  · exact (hfresh.after hseen).same fun i => seen_relink _ _ _ _ _ i
  · dsimp only
    rw [hrefs', hrefs, applyWrites_append, applyWrites_clears, applyWrites_sets]

/-- the siblings are linked one after the other -/
theorem stitch_spec {a : NodeArena} {p : NodeId} {links : NodeId → Option NodeId × Option NodeId} {ts : List ElementTree}
    {ys : List Cell} (h : Owns a.heap (level p links ts ++ ys) rest) (prev : Option NodeId) :
    Owns (stitch p prev (roots ts) a).heap (chain p prev none ts ++ ys) rest ∧
      ∀ i, (stitch p prev (roots ts) a).Seen i ↔ a.Seen i := by
  induction ts generalizing a prev ys with
  | nil => exact ⟨h, fun _ => Iff.rfl⟩
  | cons t ts ih =>
    rw [level_cons, List.append_assoc] at h
    let f : Element → Element := fun e =>
      { e with parent := some p, prevSibling := prev, nextSibling := (roots ts).head? }
    have hhead : (roots ts).head? = headId ts := by
      cases ts <;> rfl
    have hheap : (a.modify t.id f).heap =
        modify a.heap t.id fun c => ({ c.1 with parent := some p, prevSibling := prev, nextSibling := headId ts }, c.2) := by
      refine NodeArena.heap_modify a t.id f _ fun e => ?_
      rw [← hhead]
    have hroot : Owns (a.modify t.id f).heap (t.cells (some p) prev (headId ts) ++ (level p links ts ++ ys)) rest := by
      rw [hheap]
      exact owns_relink_root h _ rfl
    have hswap := hroot.perm List.perm_append_comm
    rw [List.append_assoc] at hswap
    obtain ⟨hown, hseen⟩ := ih hswap (some t.id)
    refine ⟨?_, fun i => (hseen i).trans (NodeArena.seen_modify _)⟩
    rw [chain_cons, List.append_assoc, show (headId ts <|> none) = headId ts by cases headId ts <;> rfl]
    refine hown.perm ?_
    rw [← List.append_assoc, ← List.append_assoc]
    exact List.perm_append_comm.trans (by rw [List.append_assoc])

/-- the old children that are not used are freed -/
theorem removeUnmatched_spec {p : NodeId} {links : NodeId → Option NodeId × Option NodeId} (used : List NodeId)
    {us : List ElementTree} {ys : List Cell}
    (h : Owns w.arena.heap (level p links (us.filter fun c => c.id ∉ used) ++ ys) rest) :
    Owns (removeUnmatched used (roots us) w).arena.heap ys rest ∧
      (∀ i, (removeUnmatched used (roots us) w).arena.Seen i ↔ w.arena.Seen i) ∧
        (removeUnmatched used (roots us) w).refs =
          clearRefs w.refs (forestRefCells (us.filter fun c => c.id ∉ used)) := by
  induction us generalizing w with
  | nil =>
    refine ⟨h, fun _ => Iff.rfl, ?_⟩
    funext ref
    simp [removeUnmatched, roots, clearRefs]
  | cons c us ih =>
    show Owns (removeUnmatched used (c.id :: roots us) w).arena.heap ys rest ∧ _
    by_cases hused : c.id ∈ used
    · rw [List.filter_cons_of_neg (by simpa using hused)] at h ⊢
      have hrun : removeUnmatched used (c.id :: roots us) w = removeUnmatched used (roots us) w := by
        rw [removeUnmatched, if_pos hused]
      rw [show roots (c :: us) = c.id :: roots us from rfl, hrun]
      exact ih h
    · rw [List.filter_cons_of_pos (by simpa using hused)] at h ⊢
      rw [level_cons, List.append_assoc] at h
      let marked : World := { w with arena := markAncestorsDirty w.arena c.id structuralFlags }
      have hsame : NodeArena.SameTree w.arena marked.arena := NodeArena.markAncestorsDirty_same _ _ _
      have hmarked : Owns marked.arena.heap (c.cells (some p) (links c.id).1 (links c.id).2 ++ (level p links
          (us.filter fun c => c.id ∉ used) ++ ys)) rest := by
        rw [hsame.heap_eq]
        exact h
      obtain ⟨hheap, hseen, hrefs⟩ := deallocSubtree_spec hmarked.focus
      have hrun : removeUnmatched used (c.id :: roots us) w = removeUnmatched used (roots us) (deallocSubtree marked c.id) := by
        rw [removeUnmatched, if_neg hused]
      rw [show roots (c :: us) = c.id :: roots us from rfl, hrun]
      obtain ⟨hown, hseen', hrefs'⟩ := ih (hmarked.drop hheap)
      refine ⟨hown, fun i => (hseen' i).trans ((hseen i).trans (hsame.seen_iff i)), ?_⟩
      rw [hrefs', hrefs, forestRefCells_cons, clearRefs_append]

end

/-! ## the loop over the definitions -/

/-- what is around the children of an element while they are matched: `ts` are the old ones, `us` the users of them -/
structure Frame where
  arena : NodeArena
  id : NodeId
  data : ElementData
  parent : Option NodeId
  prev : Option NodeId
  next : Option NodeId
  rest : NodeId → Option (Links NodeId × ElementData)
  ts : List ElementTree
  us : List ElementTree
  lead : List ElementTree
  trail : List ElementTree
  nodup : (roots ts).Nodup
  perm : ts.Perm (us ++ (lead ++ trail))
  seen : ∀ t ∈ ts, arena.Seen t.id

lemma Frame.sub (f : Frame) {t : ElementTree} (h : t ∈ f.us) : t ∈ f.ts := f.perm.mem_iff.mpr (List.mem_append_left _ h)

lemma Frame.nodup_parts (f : Frame) : (roots f.us ++ roots (f.lead ++ f.trail)).Nodup := by
  have hnd := (f.perm.map Rose.id).nodup_iff.mp f.nodup
  rwa [List.map_append] at hnd

lemma Frame.nodup_users (f : Frame) : (roots f.us).Nodup := f.nodup_parts.of_append_left

/-- The loop: the old child `i` became `now i`, in the same place of the chain; the children `built` are beside it;
`done` are the children of the definitions so far. -/
structure Loop (f : Frame) (m : Matching) (now : NodeId → ElementTree) (built done : List ElementTree) : Prop where
  owns : Owns m.world.arena.heap ((Rose.node f.id f.data (f.ts.map fun t => now t.id)).cells f.parent f.prev f.next ++
    level f.id (fun _ => (none, none)) built) f.rest
  same : ∀ t ∈ f.ts, t.id ∉ m.used → now t.id = t
  root : ∀ t ∈ f.ts, (now t.id).id = t.id ∨ ¬ f.arena.Seen (now t.id).id
  ids : ∀ t ∈ f.ts, ∀ i ∈ (now t.id).ids, i ∈ t.ids ∨ ¬ f.arena.Seen i
  fresh : ∀ i ∈ forestIds built, ¬ f.arena.Seen i
  perm : done.Perm (m.used.map now ++ built)
  matched : m.matched = roots done
  used : ∀ i ∈ m.used, i ∈ roots f.us
  nodup : m.used.Nodup
  seen : ∀ i, f.arena.Seen i → m.world.arena.Seen i

/-- what a pass did to a tree -/
structure Outcome (w : World) (t : ElementTree) (d : ElementDef) (parent prev next : Option NodeId)
    (rest : NodeId → Option (Links NodeId × ElementData)) (r : World × NodeId) (new : ElementTree) (ws : List RefWrite) :
    Prop where
  related : Rec t d new ws
  id_eq : r.2 = new.id
  owns : Owns r.1.arena.heap (new.cells parent prev next)
    (if t.data.tag = d.tag then rest else relinked parent prev next new.id rest)
  seen : ∀ i, w.arena.Seen i → r.1.arena.Seen i
  ids : ∀ i ∈ new.ids, i ∈ t.ids ∨ ¬ w.arena.Seen i
  root : new.id = t.id ∨ ¬ w.arena.Seen new.id
  refs : r.1.refs = applyWrites w.refs ws

/-- a pass with the definition does what `Rec` says -/
def Sound (d : ElementDef) : Prop :=
  ∀ {w : World} {t : ElementTree} {parent prev next : Option NodeId}
    {rest : NodeId → Option (Links NodeId × ElementData)}, Owns w.arena.heap (t.cells parent prev next) rest →
    (∀ i, Neighbour parent prev next i → rest i ≠ none) → Clean t d →
    ∃ new ws, Outcome w t d parent prev next rest (reconcileInner w t.id d) new ws

namespace Loop
variable {f : Frame} {m : Matching} {now : NodeId → ElementTree} {built done : List ElementTree}

/-- one old child has its definition -/
theorem keep (h : Loop f m now built done) {t : ElementTree} (hmem : t ∈ f.us) (hused : t.id ∉ m.used) {d : ElementDef}
    (hsound : Sound d) (hclean : Clean t d) (unkeyed : List NodeId) :
    ∃ new ws, Rec t d new ws ∧
      Loop f (m.keep t.id (reconcileInner m.world t.id d) unkeyed) (Function.update now t.id new) built (done ++ [new]) ∧
        (reconcileInner m.world t.id d).1.refs = applyWrites m.world.refs ws := by
  have hts := f.sub hmem
  obtain ⟨xs, ys, hsplit⟩ := List.append_of_mem hts
  have hnd := f.nodup
  rw [hsplit, roots, List.map_append, List.map_cons] at hnd
  have hnow : now t.id = t := h.same t hts hused
  have hother : ∀ {new : ElementTree} {u : ElementTree}, u ∈ xs ∨ u ∈ ys → Function.update now t.id new u.id = now u.id := by
    intro new u hu
    refine Function.update_of_ne (fun heq => ?_) _ _
    obtain ⟨-, hnd2, hdisj⟩ := List.nodup_append.mp hnd
    rcases hu with hu | hu
    · exact hdisj _ (List.mem_map_of_mem hu) _ List.mem_cons_self heq
    · exact (List.nodup_cons.mp hnd2).1 (heq ▸ List.mem_map_of_mem hu)
  have hmap : ∀ new : ElementTree, (f.ts.map fun u => Function.update now t.id new u.id) =
      (xs.map fun u => now u.id) ++ new :: ys.map fun u => now u.id := by
    intro new
    rw [hsplit, List.map_append, List.map_cons, Function.update_self]
    rw [List.map_congr_left fun u hu => hother (.inl hu), List.map_congr_left fun u hu => hother (.inr hu)]
  have hown := h.owns
  rw [hsplit, List.map_append, List.map_cons, hnow] at hown
  obtain ⟨hchild, hneighbours⟩ := owns_child hown
  obtain ⟨new, ws, hout⟩ := hsound hchild hneighbours hclean
  refine ⟨new, ws, hout.related, ?_, hout.refs⟩
  have hfresh : ∀ i, ¬ m.world.arena.Seen i → ¬ f.arena.Seen i := fun i hi hseen => hi (h.seen i hseen)
  have hcase : ∀ u ∈ f.ts, u = t ∨ Function.update now t.id new u.id = now u.id := by
    intro u hu
    rw [hsplit] at hu
    rcases List.mem_append.mp hu with hu | hu
    · exact .inr (hother (.inl hu))
    · rcases List.mem_cons.mp hu with rfl | hu
      · exact .inl rfl
      · exact .inr (hother (.inr hu))
  refine
    { owns := ?_, same := ?_, root := ?_, ids := ?_, fresh := h.fresh, perm := ?_, matched := ?_, used := ?_,
      nodup := List.nodup_cons.mpr ⟨hused, h.nodup⟩, seen := fun i hi => hout.seen i (h.seen i hi) }
  · show Owns (reconcileInner m.world t.id d).1.arena.heap _ _
    rw [hmap new]
    have hnew := hout.owns
    split_ifs at hnew with htag
    · exact owns_child_same hown hnew (hout.related.id_eq htag)
    · exact owns_child_relinked hown hnew
  · intro u hu hnot
    have hne : u.id ∉ m.used := fun hin => hnot (List.mem_cons_of_mem _ hin)
    rcases hcase u hu with rfl | heq
    · exact absurd List.mem_cons_self hnot
    · rw [heq]
      exact h.same u hu hne
  · intro u hu
    rcases hcase u hu with rfl | heq
    · rw [Function.update_self]
      exact hout.root.imp_right (hfresh _)
    · rw [heq]
      exact h.root u hu
  · intro u hu i hi
    rcases hcase u hu with rfl | heq
    · rw [Function.update_self] at hi
      exact (hout.ids i hi).imp_right (hfresh i)
    · rw [heq] at hi
      exact h.ids u hu i hi
  · show (done ++ [new]).Perm ((t.id :: m.used).map (Function.update now t.id new) ++ built)
    rw [List.map_cons, Function.update_self]
    have hold : m.used.map (Function.update now t.id new) = m.used.map now := by
      refine List.map_congr_left fun i hi => Function.update_of_ne (fun heq => hused ?_) _ _
      rwa [← heq]
    rw [hold]
    exact List.perm_append_comm.trans (h.perm.cons new)
  · show m.matched ++ [(reconcileInner m.world t.id d).2] = roots (done ++ [new])
    rw [h.matched, hout.id_eq, roots, roots, List.map_append]
    rfl
  · intro i hi
    rcases List.mem_cons.mp hi with rfl | hi
    · exact List.mem_map_of_mem hmem
    · exact h.used i hi

/-- a definition without an old child has a new one -/
theorem insert (h : Loop f m now built done) (d : ElementDef) (unkeyed : List NodeId) :
    ∃ new, Built d new ∧ Loop f (m.insert f.id d unkeyed) now (new :: built) (done ++ [new]) ∧
      (m.insert f.id d unkeyed).world.refs = applyWrites m.world.refs (sets (refCells new)) := by
  obtain ⟨new, hbuilt, hid, hown, hfresh, hrefs⟩ := buildSubtree_spec d m.world (some f.id)
  have hsame : NodeArena.SameTree (buildSubtree m.world (some f.id) d).1.arena (m.insert f.id d unkeyed).world.arena :=
    NodeArena.markAncestorsDirty_same _ _ _
  refine ⟨new, hbuilt, ?_, ?_⟩
  · refine
      { owns := ?_, same := h.same, root := h.root, ids := h.ids, fresh := ?_, perm := ?_, matched := ?_, used := h.used,
        nodup := h.nodup, seen := fun i hi => (hsame.seen_iff i).mpr (hfresh.older i (h.seen i hi)) }
    · rw [hsame.heap_eq, level_cons]
      refine (hown.beside h.owns).perm ?_
      rw [← List.append_assoc, ← List.append_assoc]
      exact List.perm_append_comm.append_right _
    · intro i hi
      rw [forestIds_cons] at hi
      rcases List.mem_append.mp hi with hi | hi
      · exact fun hseen => (hfresh.new i hi).1 (h.seen i hseen)
      · exact h.fresh i hi
    · refine (h.perm.append_right [new]).trans ?_
      rw [List.append_assoc]
      exact List.perm_append_comm.append_left _
    · show m.matched ++ [(buildSubtree m.world (some f.id) d).2] = _
      rw [h.matched, hid, roots, roots, List.map_append]
      rfl
  · rw [applyWrites_sets]
    exact hrefs

end Loop

theorem reconcileDefs_spec (f : Frame) (keyed : List (String × NodeId)) {ds : List ElementDef} (ih : ∀ d ∈ ds, Sound d)
    {m : Matching} {now : NodeId → ElementTree} {built done : List ElementTree} (h : Loop f m now built done)
    (hnd : (m.used ++ (partnersFrom keyed m.used m.unkeyed ds).reduceOption).Nodup)
    (hmem : ∀ i, some i ∈ partnersFrom keyed m.used m.unkeyed ds → ∃ c ∈ f.us, c.id = i)
    (hclean : ∀ v ∈ visitedDefs f.us (partnersFrom keyed m.used m.unkeyed ds) ds, CleanAt v.1 v.2) :
    ∃ now built' new ws, Loop f (reconcileDefs f.id keyed m ds) now built' (done ++ new) ∧
      RecDefs f.us (partnersFrom keyed m.used m.unkeyed ds) ds new ws ∧
      (reconcileDefs f.id keyed m ds).world.refs = applyWrites m.world.refs ws ∧
      (reconcileDefs f.id keyed m ds).used.Perm ((partnersFrom keyed m.used m.unkeyed ds).reduceOption ++ m.used) := by
  induction ds generalizing m now built done with
  | nil =>
    refine ⟨now, built, [], [], by rwa [List.append_nil], .nil, rfl, .refl _⟩
  | cons d ds ihds =>
    have hrest := fun {m : Matching} {now built done} => @ihds (fun d hd => ih d (List.mem_cons_of_mem _ hd)) m now built done
    rw [partnersFrom] at hnd hmem hclean ⊢
    rw [reconcileDefs]
    unfold Matching.find
    generalize candidate keyed m.used m.unkeyed d.props = found at *
    obtain ⟨found, unkeyed⟩ := found
    cases found with
    | some i =>
      obtain ⟨c, hc, rfl⟩ := hmem i List.mem_cons_self
      rw [List.reduceOption_cons_of_some] at hnd ⊢
      rw [visitedDefs_some (f.nodup_users) hc] at hclean
      have hused : c.id ∉ m.used := fun hin => (List.nodup_append.mp hnd).2.2 _ hin _ List.mem_cons_self rfl
      obtain ⟨new, ws, hrec, hloop, hrefs⟩ := h.keep hc hused (ih d List.mem_cons_self)
        (fun v hv => hclean v (List.mem_append_left _ hv)) unkeyed
      obtain ⟨now', built', news, ws', hloop', hdefs, hrefs', hperm⟩ := hrest hloop
        (List.perm_middle.nodup_iff.mp hnd) (fun i hi => hmem i (List.mem_cons_of_mem _ hi))
        (fun v hv => hclean v (List.mem_append_right _ hv))
      refine ⟨now', built', new :: news, ws ++ ws', ?_, .keep hc hrec hdefs, ?_, ?_⟩
      · rw [List.append_assoc] at hloop'
        exact hloop'
      · rw [applyWrites_append, ← hrefs]
        exact hrefs'
      · exact hperm.trans List.perm_middle
    | none =>
      rw [List.reduceOption_cons_of_none] at hnd ⊢
      rw [visitedDefs_none] at hclean
      obtain ⟨new, hbuilt, hloop, hrefs⟩ := h.insert d unkeyed
      obtain ⟨now', built', news, ws, hloop', hdefs, hrefs', hperm⟩ := hrest hloop hnd
        (fun i hi => hmem i (List.mem_cons_of_mem _ hi)) hclean
      refine ⟨now', built', new :: news, sets (refCells new) ++ ws, ?_, .insert hbuilt hdefs, ?_, hperm⟩
      · rw [List.append_assoc] at hloop'
        exact hloop'
      · rw [applyWrites_append, ← hrefs]
        exact hrefs'

/-! ## the end of the loop -/

lemma roots_append (ts us : List ElementTree) : roots (ts ++ us) = roots ts ++ roots us := List.map_append

/-- two lists of the same trees, with the roots in the same order -/
lemma eq_of_roots {ts us : List ElementTree} (hp : ts.Perm us) (hnd : (roots us).Nodup) (h : roots ts = roots us) :
    ts = us := by
  refine List.ext_getElem hp.length_eq fun i hi hi' => ?_
  refine List.inj_on_of_nodup_map hnd (hp.mem_iff.mp (List.getElem_mem hi)) (List.getElem_mem hi') ?_
  have hget : (roots ts)[i]? = (roots us)[i]? := by rw [h]
  unfold roots at hget
  rw [List.getElem?_map, List.getElem?_map, List.getElem?_eq_getElem hi, List.getElem?_eq_getElem hi'] at hget
  exact Option.some.inj hget

namespace Loop
variable {f : Frame} {m : Matching} {now : NodeId → ElementTree} {built done : List ElementTree}

/-- the old children that are not used -/
def left (f : Frame) (m : Matching) : List ElementTree := f.us.filter fun c => c.id ∉ m.used

/-- the children to be -/
def final (f : Frame) (done : List ElementTree) : List ElementTree := f.lead ++ done ++ f.trail

/-- what is in the chain or beside it is left over or one of the children to be -/
theorem perm_final (h : Loop f m now built done) :
    ((f.ts.map fun t => now t.id) ++ built).Perm (left f m ++ final f done) := by
  have hsides : ((f.lead ++ f.trail).map fun t => now t.id) = f.lead ++ f.trail := by
    refine (List.map_congr_left fun t ht => ?_).trans (List.map_id _)
    refine h.same t (f.perm.mem_iff.mpr (List.mem_append_right _ ht)) fun hin => ?_
    exact (List.nodup_append.mp f.nodup_parts).2.2 _ (h.used _ hin) _ (List.mem_map_of_mem ht) rfl
  have hleft : ((left f m).map fun t => now t.id) = left f m := by
    refine (List.map_congr_left fun t ht => ?_).trans (List.map_id _)
    obtain ⟨hmem, hnot⟩ := List.mem_filter.mp ht
    exact h.same t (f.sub hmem) (of_decide_eq_true hnot)
  have hused : ((f.us.filter fun c => c.id ∈ m.used).map fun t => now t.id).Perm (m.used.map now) := by
    have hids : (roots (f.us.filter fun c => c.id ∈ m.used)).Perm m.used := by
      refine (List.perm_ext_iff_of_nodup (f.nodup_users.sublist (List.filter_sublist.map _)) h.nodup).mpr fun i => ?_
      refine ⟨fun hi => ?_, fun hi => ?_⟩
      · obtain ⟨c, hc, rfl⟩ := List.mem_map.mp hi
        exact of_decide_eq_true (List.mem_filter.mp hc).2
      · obtain ⟨c, hc, rfl⟩ := List.mem_map.mp (h.used i hi)
        exact List.mem_map_of_mem (List.mem_filter.mpr ⟨hc, decide_eq_true hi⟩)
    have := hids.map now
    rw [roots, List.map_map] at this
    exact this
  have husers : (f.us.map fun t => now t.id).Perm (left f m ++ m.used.map now) := by
    have hsplit := (List.filter_append_perm (fun c : ElementTree => decide (c.id ∈ m.used)) f.us).symm.map fun t => now t.id
    rw [List.map_append] at hsplit
    have hnot : (f.us.filter fun c => !decide (c.id ∈ m.used)) = left f m :=
      List.filter_congr fun c _ => by simp
    rw [hnot, hleft] at hsplit
    exact hsplit.trans ((hused.append_right _).trans List.perm_append_comm)
  have hall := f.perm.map fun t => now t.id
  rw [List.map_append, hsides] at hall
  refine ((hall.append_right built).trans ((husers.append_right _).append_right _)).trans ?_
  unfold final
  -- `done` is what was used and what is built
  have hdone : (f.lead ++ done ++ f.trail).Perm ((m.used.map now ++ built) ++ (f.lead ++ f.trail)) := by
    rw [List.append_assoc f.lead]
    refine (List.perm_append_comm_assoc _ _ _).trans ?_
    exact h.perm.append_right _
  refine List.Perm.trans ?_ (hdone.symm.append_left _)
  simp only [List.append_assoc]
  refine List.Perm.append_left _ (List.Perm.append_left _ ?_)
  rw [← List.append_assoc]
  exact List.perm_append_comm

/-- when the children are those before, the chain is as it was -/
theorem unchanged (h : Loop f m now built done) (hsame : roots (final f done) = roots f.ts) :
    left f m = [] ∧ built = [] ∧ (f.ts.map fun t => now t.id) = final f done := by
  have hold : ∀ t ∈ final f done, f.arena.Seen t.id := by
    intro t ht
    have hmem : t.id ∈ roots f.ts := hsame ▸ List.mem_map_of_mem ht
    obtain ⟨u, hu, heq⟩ := List.mem_map.mp hmem
    rw [← heq]
    exact f.seen u hu
  have hdone : ∀ t ∈ m.used.map now ++ built, t ∈ final f done := fun t ht =>
    List.mem_append_left _ (List.mem_append_right _ (h.perm.mem_iff.mpr ht))
  have hbuilt : built = [] := by
    refine List.eq_nil_iff_forall_not_mem.mpr fun t ht => ?_
    exact h.fresh t.id (roots_mem (List.mem_map_of_mem ht)) (hold t (hdone t (List.mem_append_right _ ht)))
  -- a child that was replaced has a new id
  have hroot : ∀ t ∈ f.ts, (now t.id).id = t.id := by
    intro t ht
    by_cases hused : t.id ∈ m.used
    · refine (h.root t ht).resolve_right fun hnot => hnot (hold _ (hdone _ (List.mem_append_left _ ?_)))
      exact List.mem_map_of_mem hused
    · rw [h.same t ht hused]
  have hroots : roots (f.ts.map fun t => now t.id) = roots f.ts := by
    rw [roots, List.map_map]
    exact List.map_congr_left hroot
  have hperm := h.perm_final
  rw [hbuilt, List.append_nil] at hperm
  have hlen := hperm.length_eq
  have hlen' := congrArg List.length hsame
  rw [roots, roots, List.length_map, List.length_map] at hlen'
  rw [List.length_map, List.length_append] at hlen
  have hleft : left f m = [] := List.eq_nil_of_length_eq_zero (by omega)
  refine ⟨hleft, hbuilt, ?_⟩
  rw [hleft, List.nil_append] at hperm
  exact eq_of_roots hperm (hsame ▸ f.nodup) (hroots.trans hsame.symm)

/-- the chain and what is beside it, as one level -/
theorem level_cells (h : Loop f m now built done) : ∃ links,
    Owns m.world.arena.heap (level f.id links (left f m) ++
      (Rose.node f.id f.data (f.ts.map fun t => now t.id)).cell f.parent f.prev f.next ::
        level f.id links (final f done)) f.rest := by
  have hown := h.owns
  rw [cells_eq, show Rose.children (Rose.node f.id f.data (f.ts.map fun t => now t.id)) = f.ts.map fun t => now t.id from rfl,
    show Rose.id (Rose.node f.id f.data (f.ts.map fun t => now t.id)) = f.id from rfl] at hown
  have hnd := hown.nodup
  rw [List.cons_append, List.map_cons, List.map_append, map_chain, map_level, List.nodup_cons] at hnd
  obtain ⟨hchain, -, hdisj⟩ := List.nodup_append.mp hnd.2
  generalize hcur : (f.ts.map fun t => now t.id) = cur at hown hchain hdisj
  have hperm := h.perm_final
  rw [hcur] at hperm
  let links : NodeId → Option NodeId × Option NodeId := fun i =>
    if i ∈ roots built then (none, none) else chainLinks none cur i
  refine ⟨links, ?_⟩
  rw [chain_eq_level f.id none (hchain.sublist (roots_sublist cur))] at hown
  have hcurrent : level f.id (chainLinks none cur) cur = level f.id links cur := by
    refine level_congr fun t ht => ?_
    have hnot : t.id ∉ roots built := fun hin =>
      hdisj _ (roots_mem (List.mem_map_of_mem ht)) _ (roots_mem hin) rfl
    exact (if_neg hnot).symm
  have hbuilt : level f.id (fun _ => (none, none)) built = level f.id links built :=
    level_congr fun t ht => (if_pos (List.mem_map_of_mem ht)).symm
  rw [hcurrent, hbuilt, List.cons_append, ← level_append] at hown
  have hall := hown.perm ((level_perm f.id links hperm).cons _)
  rw [level_append] at hall
  exact hall.perm List.perm_middle.symm

/-- **The end of the loop.** What is left over is freed, and the rest is linked in order. -/
theorem finish (h : Loop f m now built done) :
    Owns (m.finish f.id (roots f.ts) (roots f.lead, roots f.us, roots f.trail)).arena.heap
        ((Rose.node f.id f.data (final f done)).cells f.parent f.prev f.next) f.rest ∧
      (∀ i, (m.finish f.id (roots f.ts) (roots f.lead, roots f.us, roots f.trail)).arena.Seen i ↔
        m.world.arena.Seen i) ∧
      (m.finish f.id (roots f.ts) (roots f.lead, roots f.us, roots f.trail)).refs =
        clearRefs m.world.refs (forestRefCells (left f m)) := by
  have hrun : m.finish f.id (roots f.ts) (roots f.lead, roots f.us, roots f.trail) =
      { removeUnmatched m.used (roots f.us) m.world with
        arena := relinkChildren (removeUnmatched m.used (roots f.us) m.world).arena f.id (roots f.ts)
          (roots (final f done)) } := by
    unfold Matching.finish final
    dsimp only
    rw [h.matched, ← roots_append, ← roots_append]
  rw [hrun]
  dsimp only
  unfold relinkChildren
  split_ifs with hsame
  · obtain ⟨hleft, hbuilt, hcur⟩ := h.unchanged hsame
    have hown := h.owns
    rw [hcur, hbuilt, show level f.id (fun _ => (none, none)) ([] : List ElementTree) = [] from rfl, List.append_nil] at hown
    have hnone : Owns m.world.arena.heap (level f.id (fun _ => (none, none)) (left f m) ++
        (Rose.node f.id f.data (final f done)).cells f.parent f.prev f.next) f.rest := by
      rw [hleft]
      exact hown
    exact removeUnmatched_spec m.used hnone
  · obtain ⟨links, hown⟩ := h.level_cells
    obtain ⟨hown, hseen, hrefs⟩ := removeUnmatched_spec m.used hown
    let g : Element → Element := fun e =>
      { e with
        firstChild := (roots (final f done)).head?
        lastChild := (roots (final f done)).getLast?
        dirty := e.dirty ∪ {.children} }
    have hparent : Owns ((removeUnmatched m.used (roots f.us) m.world).arena.modify f.id g).heap
        ((Rose.node f.id f.data (final f done)).cell f.parent f.prev f.next :: level f.id links (final f done)) f.rest := by
      rw [NodeArena.heap_modify _ f.id g (fun c =>
        ({ c.1 with firstChild := headId (final f done), lastChild := lastId (final f done) }, c.2)) fun e => ?_]
      · exact hown.modify _
      · unfold headId lastId
        rw [← List.head?_map, ← List.getLast?_map]
        rfl
    obtain ⟨hstitched, hseen'⟩ := stitch_spec (hparent.perm (List.perm_append_singleton _ _).symm) none
    refine ⟨?_, fun i => (hseen' i).trans ((NodeArena.seen_modify _).trans (hseen i)), hrefs⟩
    rw [cells_eq]
    exact hstitched.perm (List.perm_append_singleton _ _)

end Loop

/-! ## the whole -/

/-- the arena shows the children of a tree that it stores -/
lemma shows_children {a : NodeArena} {t : ElementTree} {parent prev next : Option NodeId}
    {rest : NodeId → Option (Links NodeId × ElementData)} (h : Owns a.heap (t.cells parent prev next) rest) :
    Shows a t.children := by
  intro c hc
  obtain ⟨prev', next', hmem⟩ := root_mem_chain hc t.id none none
  obtain ⟨e, he, -, hdata⟩ := NodeArena.get_of_heap (h.stored _ (by
    rw [cells_eq]
    exact List.mem_cons_of_mem _ hmem))
  exact ⟨e, he, hdata⟩

lemma nodup_children {a : NodeArena} {t : ElementTree} {parent prev next : Option NodeId}
    {rest : NodeId → Option (Links NodeId × ElementData)} (h : Owns a.heap (t.cells parent prev next) rest) :
    (roots t.children).Nodup := by
  have hnd := h.nodup
  rw [map_cells, ids_eq, List.nodup_cons] at hnd
  exact hnd.2.sublist (roots_sublist _)

/-- the children of an element that is kept -/
def Frame.of {w : World} {t : ElementTree} {parent prev next : Option NodeId}
    {rest : NodeId → Option (Links NodeId × ElementData)} (h : Owns w.arena.heap (t.cells parent prev next) rest) : Frame where
  arena := w.arena
  id := t.id
  data := t.data
  parent := parent
  prev := prev
  next := next
  rest := rest
  ts := t.children
  us := users t
  lead := Reconcile.lead t
  trail := Reconcile.trail t
  nodup := nodup_children h
  perm := splitTrees_perm false t.children
  seen := by
    intro c hc
    obtain ⟨e, he, -⟩ := shows_children h c hc
    exact NodeArena.seen_of_get he

section
variable {w : World} {t : ElementTree} {parent prev next : Option NodeId}
  {rest : NodeId → Option (Links NodeId × ElementData)}

/-- the start of the loop -/
lemma Loop.start (h : Owns w.arena.heap (t.cells parent prev next) rest) (unkeyed : List NodeId) :
    Loop (Frame.of h) ⟨w, [], unkeyed, []⟩ (fun i => (t.children.find? fun c => c.id = i).getD t) [] [] := by
  have hnow : ∀ c ∈ t.children, (t.children.find? fun u => u.id = c.id).getD t = c := by
    intro c hc
    rw [find_root (nodup_children h) hc]
    rfl
  refine
    { owns := ?_, same := fun c hc _ => hnow c hc, root := fun c hc => .inl (by rw [hnow c hc]),
      ids := fun c hc i hi => .inl (by rwa [hnow c hc] at hi), fresh := fun i hi => by (cases hi), perm := .refl _,
      matched := rfl, used := fun i hi => by (cases hi), nodup := List.nodup_nil, seen := fun _ hi => hi }
  have hmap : ((Frame.of h).ts.map fun c => (t.children.find? fun u => u.id = c.id).getD t) = t.children :=
    (List.map_congr_left hnow).trans (List.map_id _)
  rw [hmap]
  show Owns w.arena.heap ((Rose.node t.id t.data t.children).cells parent prev next ++ []) rest
  rw [List.append_nil]
  cases t
  exact h

/-- the children of an element that is gone through -/
theorem children_spec (h : Owns w.arena.heap (t.cells parent prev next) rest) {ds : List ElementDef}
    (ih : ∀ d ∈ ds, Sound d) (hshared : (sharedKeys (users t) ds).Nodup)
    (hclean : ∀ v ∈ visitedDefs (users t) (partners (users t) ds) ds, CleanAt v.1 v.2) {w' : World}
    (hw' : w' = (reconcileDefs t.id (keyedOld w.arena (roots (users t))) (.start w (roots (users t))) ds).finish t.id
      (roots t.children) (roots (lead t), roots (users t), roots (trail t))) :
    ∃ matched ws, RecDefs (users t) (partners (users t) ds) ds matched ws ∧
      Owns w'.arena.heap ((Rose.node t.id t.data (lead t ++ matched ++ trail t)).cells parent prev next) rest ∧
      (∀ i, w.arena.Seen i → w'.arena.Seen i) ∧
      (∀ i ∈ forestIds (lead t ++ matched ++ trail t), i ∈ forestIds t.children ∨ ¬ w.arena.Seen i) ∧
      w'.refs = applyWrites w.refs (ws ++ clears (forestRefCells (unmatched (users t) ds))) := by
  have hshows : Shows w.arena (users t) := fun c hc => shows_children h c ((Frame.of h).sub hc)
  have hstart : Matching.start w (roots (users t)) = ⟨w, [], unkeyedBy (users t), []⟩ := by
    unfold Matching.start
    rw [unkeyedOld_roots hshows]
  rw [hstart, keyedOld_roots hshows] at hw'
  have hnodup := nodup_partners (Frame.of h).nodup_users hshared
  obtain ⟨now, built, matched, ws, hloop, hdefs, hrefs, hused⟩ := reconcileDefs_spec (Frame.of h) (keyedBy (users t)) ih
    (Loop.start h (unkeyedBy (users t))) hnodup (fun i hi => partner_mem hi) hclean
  rw [List.nil_append] at hloop
  obtain ⟨hown, hseen, hrefs'⟩ := hloop.finish
  have hrun : w' = (reconcileDefs (Frame.of h).id (keyedBy (users t)) ⟨w, [], unkeyedBy (users t), []⟩ ds).finish
      (Frame.of h).id (roots (Frame.of h).ts) (roots (Frame.of h).lead, roots (Frame.of h).us, roots (Frame.of h).trail) := hw'
  rw [← hrun] at hown hseen hrefs'
  refine ⟨matched, ws, hdefs, hown, fun i hi => (hseen i).mpr (hloop.seen i hi), ?_, ?_⟩
  · intro i hi
    obtain ⟨c, hc, hin⟩ := mem_forestIds.mp hi
    rcases List.mem_append.mp (hloop.perm_final.mem_iff.mpr (List.mem_append_right _ hc)) with hc | hc
    · obtain ⟨u, hu, rfl⟩ := List.mem_map.mp hc
      exact (hloop.ids u hu i hin).imp_left fun h => ids_subset_forestIds hu h
    · exact .inr (hloop.fresh i (ids_subset_forestIds hc hin))
  · have hleft : Loop.left (Frame.of h) (reconcileDefs (Frame.of h).id (keyedBy (users t)) ⟨w, [], unkeyedBy (users t), []⟩ ds) =
        unmatched (users t) ds := by
      refine List.filter_congr fun c _ => ?_
      have hiff := hused.mem_iff (a := c.id)
      rw [List.append_nil] at hiff
      exact decide_eq_decide.mpr (not_congr hiff)
    rw [hrefs', hleft, hrefs, applyWrites_append, applyWrites_clears]

end

/-- **A pass makes of a stored tree what `Rec` says**, in its place, and changes nothing beside it but the links to it. -/
theorem reconcileInner_spec (d : ElementDef) : Sound d := by
  induction d using ElementDef.induct with
  | h p ds ih =>
    intro w t parent prev next rest h hrest hclean
    obtain ⟨e, he, hlinks, hdata⟩ := NodeArena.get_root h
    have htag : e.tag = t.data.tag := congrArg ElementData.tag hdata
    rw [reconcileInner]
    simp only [he]
    by_cases hreplaced : e.tag ≠ p.tag
    · rw [if_pos hreplaced]
      have hne : t.data.tag ≠ p.tag := htag ▸ hreplaced
      obtain ⟨new, hbuilt, hid, hown, hfresh, hrefs⟩ := replaceSubtree_spec h he hrest (.mk p ds)
      refine ⟨new, _, .replaced hne hbuilt, hid, ?_, hfresh.older, fun i hi => .inr (hfresh.new i hi).1,
        .inr (hfresh.new _ (id_mem_ids new)).1, hrefs⟩
      rw [if_neg (show ¬ t.data.tag = ElementDef.tag (.mk p ds) from hne)]
      exact hown
    rw [if_neg hreplaced]
    have hsame : t.data.tag = p.tag := htag ▸ not_not.mp hreplaced
    rw [hdata]
    by_cases hmemo : memoHit t.data p = true
    · rw [if_pos hmemo]
      refine ⟨t, [], .memo hsame hmemo, rfl, ?_, fun _ hi => hi, fun i hi => .inl hi, .inl rfl, rfl⟩
      rw [if_pos (show t.data.tag = ElementDef.tag (.mk p ds) from hsame)]
      exact h
    rw [if_neg hmemo]
    obtain ⟨hown, hseen, hrefs⟩ := updateElementProperties_spec h p
    by_cases hselect : p.tag = .select
    · rw [if_pos hselect]
      refine ⟨_, _, .select hsame (Bool.not_eq_true _ ▸ hmemo) hselect, rfl, ?_, fun i hi => (hseen i).mpr hi, ?_, .inl rfl,
        hrefs⟩
      · rw [if_pos (show t.data.tag = ElementDef.tag (.mk p ds) from hsame)]
        exact hown
      · intro i hi
        rw [ids_eq] at hi ⊢
        exact .inl hi
    rw [if_neg hselect]
    have hentered : Entered t.data p := ⟨hsame, by simpa using hmemo, hselect⟩
    have hvisited := @visited_entered _ _ ds hentered
    have hshared : (sharedKeys (users t) ds).Nodup := hclean (t, .mk p ds) (by rw [hvisited]; exact List.mem_cons_self) hentered
    let kept : ElementTree := .node t.id (updateData t.data p) t.children
    have hkids : (updateElementProperties w t.id p).arena.children t.id = roots t.children := @NodeArena.children_eq _ kept _ _ _ _ hown
    have hparts : splitChildren (updateElementProperties w t.id p).arena false (roots t.children) =
        (roots (lead t), roots (users t), roots (trail t)) := splitChildren_shown (@shows_children _ kept _ _ _ _ hown) false
    rw [hkids, hparts]
    obtain ⟨matched, ws, hdefs, hown', hseen', hids, hrefs'⟩ := @children_spec _ kept _ _ _ _ hown ds ih hshared
      (fun v hv => hclean v (by rw [hvisited]; exact List.mem_cons_of_mem _ hv)) _ rfl
    refine ⟨_, _, .entered hentered hdefs, rfl, ?_, fun i hi => hseen' i ((hseen i).mpr hi), ?_, .inl rfl, ?_⟩
    · rw [if_pos (show t.data.tag = ElementDef.tag (.mk p ds) from hsame)]
      exact hown'
    · intro i hi
      rw [ids_eq] at hi ⊢
      rcases List.mem_cons.mp hi with rfl | hi
      · exact .inl List.mem_cons_self
      · exact (hids i hi).imp (List.mem_cons_of_mem _) fun hnot hin => hnot ((hseen i).mpr hin)
    · rw [List.append_assoc, applyWrites_append]
      show _ = applyWrites (applyWrites w.refs (sets (ownRef p t.id))) _
      rw [← hrefs]
      exact hrefs'

end TerminalManager.Reconcile
