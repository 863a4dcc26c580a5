import TerminalManager.Reconcile.Subtree
import TerminalManager.Lib.Registers
import Mathlib.Data.List.ReduceOption

/-!
# Which element meets which definition

The matching of old children and new definitions depends on keys and order alone, so that it is said of trees here.

* `lead`, `users`, `trail`   the children of an element: synthetic ones at either side of the user children;
* `partners`                 the old child that each definition meets;
* `visited`                  all the pairs that a pass goes through;
* `Clean`                    no old child is met twice; `nodup_partners` says why;
* `Rec`                      what becomes of a tree, and what is written to the references on the way.
-/

namespace TerminalManager.Reconcile
open LinkedTree
open Registers (mem_of_lookup)

/-! ## the parts of the children -/

/-- `splitChildren`, of trees -/
def splitTrees : Bool → List ElementTree → List ElementTree × List ElementTree × List ElementTree
  | _, [] => ([], [], [])
  | seenUser, t :: ts =>
    if t.data.synthetic then
      let parts := splitTrees seenUser ts
      if seenUser then (parts.1, parts.2.1, t :: parts.2.2) else (t :: parts.1, parts.2.1, parts.2.2)
    else
      let parts := splitTrees true ts
      (parts.1, t :: parts.2.1, parts.2.2)

section
variable {ts : List ElementTree} {t : ElementTree} {b : Bool}

/-- each child is in one part -/
lemma splitTrees_perm (b : Bool) (ts : List ElementTree) :
    ts.Perm ((splitTrees b ts).2.1 ++ ((splitTrees b ts).1 ++ (splitTrees b ts).2.2)) := by
  induction ts generalizing b with
  | nil => exact .refl _
  | cons t ts ih =>
    unfold splitTrees
    split_ifs
    · refine ((ih b).cons t).trans ?_
      rw [← List.append_assoc, ← List.append_assoc]
      exact List.perm_middle.symm
    · refine ((ih b).cons t).trans ?_
      exact List.perm_middle.symm
    · exact (ih true).cons t

/-- the parts of what is stored -/
lemma splitChildren_roots {a : NodeArena} (h : ∀ t ∈ ts, (a.get t.id).any (·.synthetic) = t.data.synthetic) (b : Bool) :
    splitChildren a b (roots ts) =
      (roots (splitTrees b ts).1, roots (splitTrees b ts).2.1, roots (splitTrees b ts).2.2) := by
  induction ts generalizing b with
  | nil => rfl
  | cons t ts ih =>
    have hrest := ih fun u hu => h u (List.mem_cons_of_mem _ hu)
    show splitChildren a b (t.id :: roots ts) = _
    unfold splitChildren splitTrees
    rw [h t List.mem_cons_self, hrest, hrest]
    split_ifs <;> rfl

end

/-- the synthetic children before the first user child -/
def lead (t : ElementTree) : List ElementTree := (splitTrees false t.children).1

/-- the user children -/
def users (t : ElementTree) : List ElementTree := (splitTrees false t.children).2.1

/-- the other synthetic children -/
def trail (t : ElementTree) : List ElementTree := (splitTrees false t.children).2.2

/-! ## the partners of the definitions -/

def keyOf (t : ElementTree) : Option String := t.data.reconciliationKey

/-- `keyedOld`, of trees -/
def keyedBy (users : List ElementTree) : List (String × NodeId) :=
  (users.filterMap fun c => (keyOf c).map fun key => (key, c.id)).reverse

/-- `unkeyedOld`, of trees -/
def unkeyedBy (users : List ElementTree) : List NodeId := roots (users.filter fun c => (keyOf c).isNone)

/-- the old child of each definition, as the loop finds them -/
def partnersFrom (keyed : List (String × NodeId)) : List NodeId → List NodeId → List ElementDef → List (Option NodeId)
  | _, _, [] => []
  | used, unkeyed, d :: ds =>
    let found := candidate keyed used unkeyed d.props
    found.1 :: partnersFrom keyed (found.1.toList ++ used) found.2 ds

def partners (users : List ElementTree) (ds : List ElementDef) : List (Option NodeId) :=
  partnersFrom (keyedBy users) [] (unkeyedBy users) ds

/-- the children of the element are gone through -/
def Entered (e : ElementData) (p : DefProps) : Prop := e.tag = p.tag ∧ memoHit e p = false ∧ p.tag ≠ .select

instance (e : ElementData) (p : DefProps) : Decidable (Entered e p) := by
  unfold Entered
  infer_instance

mutual
/-- the pairs of an old element and a definition that meet -/
def visited (t : ElementTree) : ElementDef → List (ElementTree × ElementDef)
  | .mk p ds =>
    (t, .mk p ds) :: if Entered t.data p then visitedDefs (users t) (partners (users t) ds) ds else []
def visitedDefs (users : List ElementTree) (partners : List (Option NodeId)) :
    List ElementDef → List (ElementTree × ElementDef)
  | [] => []
  | d :: ds =>
    (match partners.head?.join.bind fun i => users.find? fun c => c.id = i with
      | some c => visited c d
      | none => []) ++ visitedDefs users partners.tail ds
end

lemma visited_entered {t : ElementTree} {p : DefProps} {ds : List ElementDef} (h : Entered t.data p) :
    visited t (.mk p ds) = (t, .mk p ds) :: visitedDefs (users t) (partners (users t) ds) ds := by
  rw [visited, if_pos h]

lemma visitedDefs_none (us : List ElementTree) (ps : List (Option NodeId)) (d : ElementDef) (ds : List ElementDef) :
    visitedDefs us (none :: ps) (d :: ds) = visitedDefs us ps ds := by
  rw [visitedDefs]
  rfl

/-- a tree is found by its root -/
lemma find_root {us : List ElementTree} (hnd : (roots us).Nodup) {c : ElementTree} (hc : c ∈ us) :
    (us.find? fun u => u.id = c.id) = some c := by
  cases hres : us.find? fun u => u.id = c.id with
  | none => simpa using List.find?_eq_none.mp hres c hc
  | some u =>
    have hid : u.id = c.id := by simpa using List.find?_some hres
    rw [List.inj_on_of_nodup_map hnd (List.mem_of_find?_eq_some hres) hc hid]

lemma visitedDefs_some {us : List ElementTree} (hnd : (roots us).Nodup) {c : ElementTree} (hc : c ∈ us)
    (ps : List (Option NodeId)) (d : ElementDef) (ds : List ElementDef) :
    visitedDefs us (some c.id :: ps) (d :: ds) = visited c d ++ visitedDefs us ps ds := by
  rw [visitedDefs]
  show (match us.find? fun u => u.id = c.id with | some c => visited c d | none => []) ++ _ = _
  rw [find_root hnd hc]
  rfl

def defKeys (ds : List ElementDef) : List String := ds.filterMap fun d => d.props.reconciliationKey

lemma defKeys_some {d : ElementDef} {key : String} (h : d.props.reconciliationKey = some key) (ds : List ElementDef) :
    defKeys (d :: ds) = key :: defKeys ds := List.filterMap_cons_some h

lemma defKeys_none {d : ElementDef} (h : d.props.reconciliationKey = none) (ds : List ElementDef) :
    defKeys (d :: ds) = defKeys ds := List.filterMap_cons_none h

/-- the keys of definitions that old children have -/
def sharedKeys (users : List ElementTree) (ds : List ElementDef) : List String :=
  (defKeys ds).filter fun key => key ∈ users.filterMap keyOf

/-- no two definitions of children have one key that an old child has too -/
def CleanAt (t : ElementTree) (d : ElementDef) : Prop := Entered t.data d.props → (sharedKeys (users t) d.children).Nodup

instance (t : ElementTree) (d : ElementDef) : Decidable (CleanAt t d) := by
  unfold CleanAt
  infer_instance

/-- no old child is met by two definitions -/
def Clean (t : ElementTree) (d : ElementDef) : Prop := ∀ v ∈ visited t d, CleanAt v.1 v.2

instance (t : ElementTree) (d : ElementDef) : Decidable (Clean t d) := by
  unfold Clean
  infer_instance

/-! ## no old child is met twice -/

section
variable {us : List ElementTree} {ds : List ElementDef}

lemma mem_keyedBy {key : String} {i : NodeId} (h : (key, i) ∈ keyedBy us) : ∃ c ∈ us, c.id = i ∧ keyOf c = some key := by
  unfold keyedBy at h
  rw [List.mem_reverse, List.mem_filterMap] at h
  obtain ⟨c, hc, hmap⟩ := h
  obtain ⟨k, hk, heq⟩ := Option.map_eq_some_iff.mp hmap
  cases heq
  exact ⟨c, hc, rfl, hk⟩

lemma mem_unkeyedBy {i : NodeId} (h : i ∈ unkeyedBy us) : ∃ c ∈ us, c.id = i ∧ keyOf c = none := by
  obtain ⟨c, hc, rfl⟩ := List.mem_map.mp h
  obtain ⟨hmem, hkey⟩ := List.mem_filter.mp hc
  exact ⟨c, hmem, rfl, Option.isNone_iff_eq_none.mp hkey⟩

/-- a candidate that is found was ahead, and those before it are past -/
lemma nextUnkeyed_split (used unkeyed : List NodeId) :
    ∃ past, unkeyed = past ++ ((nextUnkeyed used unkeyed).1.toList ++ (nextUnkeyed used unkeyed).2) := by
  induction unkeyed with
  | nil => exact ⟨[], rfl⟩
  | cons c cs ih =>
    unfold nextUnkeyed
    split_ifs
    · obtain ⟨past, hpast⟩ := ih
      refine ⟨c :: past, ?_⟩
      rw [List.cons_append, ← hpast]
    · exact ⟨[], rfl⟩

/-- a child is met by its key, or it is one of the unkeyed ones that are left -/
lemma mem_partnersFrom {keyed : List (String × NodeId)} {used unkeyed : List NodeId} {i : NodeId}
    (h : some i ∈ partnersFrom keyed used unkeyed ds) :
    (∃ key ∈ defKeys ds, (key, i) ∈ keyed) ∨ i ∈ unkeyed := by
  induction ds generalizing used unkeyed with
  | nil => cases h
  | cons d ds ih =>
    rw [partnersFrom] at h
    cases hkey : d.props.reconciliationKey with
    | some key =>
      rw [show candidate keyed used unkeyed d.props = (keyed.lookup key, unkeyed) by rw [candidate, hkey]] at h
      rw [defKeys_some hkey]
      rcases List.mem_cons.mp h with heq | hmem
      · exact .inl ⟨key, List.mem_cons_self, mem_of_lookup heq.symm⟩
      · rcases ih hmem with ⟨key', hkey', hlook⟩ | hleft
        · exact .inl ⟨key', List.mem_cons_of_mem _ hkey', hlook⟩
        · exact .inr hleft
    | none =>
      rw [show candidate keyed used unkeyed d.props = nextUnkeyed used unkeyed by rw [candidate, hkey]] at h
      rw [defKeys_none hkey]
      obtain ⟨past, hpast⟩ := nextUnkeyed_split used unkeyed
      rcases List.mem_cons.mp h with heq | hmem
      · refine .inr ?_
        rw [hpast, ← heq]
        exact List.mem_append_right _ List.mem_cons_self
      · rcases ih hmem with hlook | hleft
        · exact .inl hlook
        · refine .inr ?_
          rw [hpast]
          exact List.mem_append_right _ (List.mem_append_right _ hleft)

/-- a partner is a user child -/
lemma partner_mem {i : NodeId} (h : some i ∈ partners us ds) : ∃ c ∈ us, c.id = i := by
  rcases mem_partnersFrom h with ⟨key, -, hmem⟩ | hmem
  · obtain ⟨c, hc, hid, -⟩ := mem_keyedBy hmem
    exact ⟨c, hc, hid⟩
  · obtain ⟨c, hc, hid, -⟩ := mem_unkeyedBy hmem
    exact ⟨c, hc, hid⟩

lemma eq_of_id {c c' : ElementTree} (hnd : (roots us).Nodup) (hc : c ∈ us) (hc' : c' ∈ us) (h : c.id = c'.id) : c = c' :=
  List.inj_on_of_nodup_map hnd hc hc' h

/-- **The partners are different** when no key of an old child is carried twice: a key finds a child that has it, and
an unkeyed child is passed once. -/
theorem nodup_partners (hnd : (roots us).Nodup) (h : (sharedKeys us ds).Nodup) :
    (partners us ds).reduceOption.Nodup := by
  have hstep : ∀ (ds : List ElementDef) (used unkeyed : List NodeId), (sharedKeys us ds).Nodup → unkeyed.Nodup →
      (∀ i ∈ unkeyed, i ∈ unkeyedBy us) → (partnersFrom (keyedBy us) used unkeyed ds).reduceOption.Nodup := by
    intro ds
    induction ds with
    | nil => exact fun _ _ _ _ _ => List.nodup_nil
    | cons d ds ih =>
      intro used unkeyed hshared hun hsub
      rw [partnersFrom]
      cases hkey : d.props.reconciliationKey with
      | some key =>
        rw [show candidate (keyedBy us) used unkeyed d.props = ((keyedBy us).lookup key, unkeyed) by rw [candidate, hkey]]
        unfold sharedKeys at hshared
        rw [defKeys_some hkey] at hshared
        have htail : (sharedKeys us ds).Nodup := hshared.sublist ((List.sublist_cons_self _ _).filter _)
        dsimp only
        cases hlook : (keyedBy us).lookup key with
        | none =>
          rw [List.reduceOption_cons_of_none]
          exact ih _ _ htail hun hsub
        | some i =>
          rw [List.reduceOption_cons_of_some, List.nodup_cons]
          refine ⟨fun hmem => ?_, ih _ _ htail hun hsub⟩
          obtain ⟨c, hc, rfl, hck⟩ := mem_keyedBy (mem_of_lookup hlook)
          rcases mem_partnersFrom (List.reduceOption_mem_iff.mp hmem) with ⟨key', hkey', hmem'⟩ | hmem'
          · -- met by another definition: it carries the key of the child as well
            obtain ⟨c', hc', hid, hck'⟩ := mem_keyedBy hmem'
            rw [eq_of_id hnd hc' hc hid, hck] at hck'
            cases hck'
            have hin : key ∈ us.filterMap keyOf := List.mem_filterMap.mpr ⟨c, hc, hck⟩
            rw [List.filter_cons_of_pos (by simpa using hin)] at hshared
            exact (List.nodup_cons.mp hshared).1 (List.mem_filter.mpr ⟨hkey', by simpa using hin⟩)
          · obtain ⟨c', hc', hid, hck'⟩ := mem_unkeyedBy (hsub _ hmem')
            rw [eq_of_id hnd hc' hc hid, hck] at hck'
            cases hck'
      | none =>
        rw [show candidate (keyedBy us) used unkeyed d.props = nextUnkeyed used unkeyed by rw [candidate, hkey]]
        unfold sharedKeys at hshared
        rw [defKeys_none hkey] at hshared
        obtain ⟨past, hpast⟩ := nextUnkeyed_split used unkeyed
        rw [hpast] at hun hsub
        have hrest := (List.nodup_append.mp hun).2.1
        have hnext := ih ((nextUnkeyed used unkeyed).1.toList ++ used) (nextUnkeyed used unkeyed).2 hshared
          (List.nodup_append.mp hrest).2.1 fun i hi => hsub i (List.mem_append_right _ (List.mem_append_right _ hi))
        cases hfound : (nextUnkeyed used unkeyed).1 with
        | none =>
          rw [hfound] at hnext
          rw [List.reduceOption_cons_of_none]
          exact hnext
        | some i =>
          rw [hfound] at hnext hrest hsub
          rw [List.reduceOption_cons_of_some, List.nodup_cons]
          refine ⟨fun hmem => ?_, hnext⟩
          rcases mem_partnersFrom (List.reduceOption_mem_iff.mp hmem) with ⟨key', -, hmem'⟩ | hmem'
          · obtain ⟨c, hc, hid, hck⟩ := mem_unkeyedBy (hsub i (List.mem_append_right _ List.mem_cons_self))
            obtain ⟨c', hc', hid', hck'⟩ := mem_keyedBy hmem'
            rw [eq_of_id hnd hc' hc (hid'.trans hid.symm), hck] at hck'
            cases hck'
          · exact (List.nodup_cons.mp hrest).1 hmem'
  refine hstep ds [] (unkeyedBy us) h ?_ fun _ hi => hi
  exact hnd.sublist (List.filter_sublist.map _)

end

/-! ## what the arena shows of the keys -/

section
variable {a : NodeArena} {us : List ElementTree}

/-- the data of the trees is what the arena has -/
def Shows (a : NodeArena) (ts : List ElementTree) : Prop :=
  ∀ t ∈ ts, ∃ e, a.get t.id = some e ∧ e.toElementData = t.data

lemma keyedOld_roots (h : Shows a us) : keyedOld a (roots us) = keyedBy us := by
  unfold keyedOld keyedBy roots
  rw [List.filterMap_map]
  congr 1
  refine List.filterMap_congr fun c hc => ?_
  obtain ⟨e, he, hdata⟩ := h c hc
  show (a.get c.id).bind _ = _
  rw [he]
  show e.reconciliationKey.map _ = _
  rw [show e.reconciliationKey = keyOf c by rw [keyOf, ← hdata]]

lemma unkeyedOld_roots (h : Shows a us) : unkeyedOld a (roots us) = unkeyedBy us := by
  unfold unkeyedOld unkeyedBy roots
  rw [List.filter_map]
  congr 1
  refine List.filter_congr fun c hc => ?_
  obtain ⟨e, he, hdata⟩ := h c hc
  show (a.get c.id).any _ = _
  rw [he]
  show e.reconciliationKey.isNone = _
  rw [show e.reconciliationKey = keyOf c by rw [keyOf, ← hdata]]

lemma splitChildren_shown {ts : List ElementTree} (h : Shows a ts) (b : Bool) :
    splitChildren a b (roots ts) =
      (roots (splitTrees b ts).1, roots (splitTrees b ts).2.1, roots (splitTrees b ts).2.2) := by
  refine splitChildren_roots (fun t ht => ?_) b
  obtain ⟨e, he, hdata⟩ := h t ht
  rw [he, ← hdata]
  rfl

end

/-! ## what becomes of a tree -/

/-- a reference is set or cleared -/
abbrev RefWrite := RefId × Option NodeId

def applyWrites (refs : RefId → Option NodeId) (ws : List RefWrite) : RefId → Option NodeId :=
  ws.foldl (fun refs w => Function.update refs w.1 w.2) refs

/-- the references are set to their elements -/
def sets (cells : List (RefId × NodeId)) : List RefWrite := cells.map fun c => (c.1, some c.2)

def clears (cells : List (RefId × NodeId)) : List RefWrite := cells.map fun c => (c.1, none)

lemma applyWrites_append (refs : RefId → Option NodeId) (ws ws' : List RefWrite) :
    applyWrites refs (ws ++ ws') = applyWrites (applyWrites refs ws) ws' := List.foldl_append

lemma applyWrites_sets (refs : RefId → Option NodeId) (cells : List (RefId × NodeId)) :
    applyWrites refs (sets cells) = setRefs refs cells := List.foldl_map

lemma applyWrites_clears (refs : RefId → Option NodeId) (cells : List (RefId × NodeId)) :
    applyWrites refs (clears cells) = clearRefs refs cells := by
  induction cells generalizing refs with
  | nil => exact (funext fun _ => if_neg List.not_mem_nil).symm
  | cons c cells ih =>
    show applyWrites (Function.update refs c.1 none) (clears cells) = _
    rw [ih]
    funext ref
    unfold clearRefs
    simp only [List.map_cons, List.mem_cons, Function.update_apply]
    by_cases href : ref = c.1
    · simp [href]
    · rw [if_neg href]
      exact if_congr (or_iff_right href).symm rfl rfl

/-- the reference that a definition carries -/
def ownRef (p : DefProps) (id : NodeId) : List (RefId × NodeId) := (p.nodeRef.map fun ref => (ref, id)).toList

/-- the user children that no definition meets -/
def unmatched (us : List ElementTree) (ds : List ElementDef) : List ElementTree :=
  us.filter fun c => c.id ∉ (partners us ds).reduceOption

mutual
/-- what a pass makes of a tree, and what it writes to the references -/
inductive Rec : ElementTree → ElementDef → ElementTree → List RefWrite → Prop
  | replaced {t : ElementTree} {d : ElementDef} {new : ElementTree} (htag : t.data.tag ≠ d.tag) (hbuilt : Built d new) :
    Rec t d new (clears (refCells t) ++ sets (refCells new))
  | memo {t : ElementTree} {d : ElementDef} (htag : t.data.tag = d.tag) (hmemo : memoHit t.data d.props = true) :
    Rec t d t []
  | select {t : ElementTree} {d : ElementDef} (htag : t.data.tag = d.tag) (hmemo : memoHit t.data d.props = false)
    (hselect : d.tag = .select) :
    Rec t d (.node t.id (updateData t.data d.props) t.children) (sets (ownRef d.props t.id))
  | entered {t : ElementTree} {d : ElementDef} {matched : List ElementTree} {ws : List RefWrite}
    (h : Entered t.data d.props)
    (hdefs : RecDefs (users t) (partners (users t) d.children) d.children matched ws) :
    Rec t d (.node t.id (updateData t.data d.props) (lead t ++ matched ++ trail t))
      (sets (ownRef d.props t.id) ++ ws ++ clears (forestRefCells (unmatched (users t) d.children)))
/-- what it makes of the children, definition by definition -/
inductive RecDefs : List ElementTree → List (Option NodeId) → List ElementDef → List ElementTree → List RefWrite → Prop
  | nil {us : List ElementTree} : RecDefs us [] [] [] []
  | keep {us : List ElementTree} {ps : List (Option NodeId)} {d : ElementDef} {ds : List ElementDef}
    {t new : ElementTree} {ts : List ElementTree} {ws ws' : List RefWrite} (hmem : t ∈ us) (h : Rec t d new ws)
    (hrest : RecDefs us ps ds ts ws') : RecDefs us (some t.id :: ps) (d :: ds) (new :: ts) (ws ++ ws')
  | insert {us : List ElementTree} {ps : List (Option NodeId)} {d : ElementDef} {ds : List ElementDef}
    {new : ElementTree} {ts : List ElementTree} {ws : List RefWrite} (hbuilt : Built d new)
    (hrest : RecDefs us ps ds ts ws) : RecDefs us (none :: ps) (d :: ds) (new :: ts) (sets (refCells new) ++ ws)
end

/-- an element whose tag stays keeps its id -/
lemma Rec.id_eq {t : ElementTree} {d : ElementDef} {new : ElementTree} {ws : List RefWrite} (h : Rec t d new ws)
    (htag : t.data.tag = d.tag) : new.id = t.id := by
  cases h with
  | replaced hne => exact absurd htag hne
  | memo => rfl
  | select => rfl
  | entered => rfl

end TerminalManager.Reconcile
