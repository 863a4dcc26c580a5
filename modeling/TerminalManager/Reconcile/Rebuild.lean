import TerminalManager.Reconcile.LiveTree

/-!
# A pass against a build

* `Look`, `Alike`            what two trees are compared by: their shape, and what an element takes from its definition;
* `KeysDistinct`             sibling definitions have different keys, so that a pass is clean;
* `rebuilt_iff`              a pass over what was built leaves what a build of the new definition gives, exactly when no
                             element that is gone through gets an option as a child.

A build leaves options out; a pass makes elements of them.
-/

namespace TerminalManager.Reconcile
open LinkedTree

/-- what an element takes from its definition and is compared by -/
structure Look where
  tag : Tag
  id : Option String
  classes : List String
  content : ElementContent
  name : Option String
  placeholder : Option String
  styleOverrides : List StyleDeclaration
  tabIndex : Option Int
  inputType : Framework.InputType
  memoKey : Option Nat
deriving DecidableEq, Repr

def look (e : ElementData) : Look :=
  ⟨e.tag, e.id, e.classes, e.content, e.name, e.placeholder, e.styleOverrides, e.tabIndex, e.input.inputType, e.memoKey⟩

/-- the trees have one shape and look the same at every position -/
inductive Alike : ElementTree → ElementTree → Prop
  | mk {t u : ElementTree} (hlook : look t.data = look u.data) (h : List.Forall₂ Alike t.children u.children) : Alike t u

/-- what is kept looks like what is built -/
lemma look_updateData {e : ElementData} {p : DefProps} (h : e.tag = p.tag) : look (updateData e p) = look (buildData p) := by
  unfold look updateData buildData
  simp [newData, h]

lemma forall₂_alike {ds : List ElementDef} {ts us : List ElementTree} (ht : List.Forall₂ Built ds ts)
    (hu : List.Forall₂ Built ds us) (h : ∀ d ∈ ds, ∀ t u, Built d t → Built d u → Alike t u) :
    List.Forall₂ Alike ts us := by
  induction ht generalizing us with
  | nil =>
    cases hu
    exact .nil
  | cons hd _ ih =>
    cases hu with
    | cons hd' hu =>
      exact .cons (h _ List.mem_cons_self _ _ hd hd') (ih hu fun d hd => h d (List.mem_cons_of_mem _ hd))

lemma shownChildren_sub {p : DefProps} {ds : List ElementDef} {d : ElementDef} (h : d ∈ shownChildren p ds) : d ∈ ds := by
  unfold shownChildren at h
  split_ifs at h
  · cases h
  · exact (List.mem_filter.mp h).1

/-- two builds of one definition -/
theorem Built.alike {d : ElementDef} {t u : ElementTree} (ht : Built d t) (hu : Built d u) : Alike t u := by
  induction d using ElementDef.induct generalizing t u with
  | h p ds ih =>
    cases ht with
    | mk ht =>
      cases hu with
      | mk hu => exact .mk rfl (forall₂_alike ht hu fun d hd t u => ih d (shownChildren_sub hd))

/-! ## keys -/

/-- siblings have different keys -/
inductive KeysDistinct : ElementDef → Prop
  | mk {p : DefProps} {ds : List ElementDef} (h : (defKeys ds).Nodup) (hc : ∀ d ∈ ds, KeysDistinct d) :
    KeysDistinct (.mk p ds)

mutual
/-- the definitions that a pass goes through are below the one it starts with -/
lemma visited_of_below {P : ElementDef → Prop} (hP : ∀ p ds, P (.mk p ds) → ∀ d ∈ ds, P d) (t : ElementTree) :
    ∀ d : ElementDef, P d → ∀ v ∈ visited t d, P v.2
  | .mk p ds, h, v, hv => by
    rw [visited] at hv
    rcases List.mem_cons.mp hv with rfl | hv
    · exact h
    · split_ifs at hv
      · exact visitedDefs_of_below hP _ _ ds (hP p ds h) v hv
      · cases hv
lemma visitedDefs_of_below {P : ElementDef → Prop} (hP : ∀ p ds, P (.mk p ds) → ∀ d ∈ ds, P d) (us : List ElementTree)
    (ps : List (Option NodeId)) : ∀ ds : List ElementDef, (∀ d ∈ ds, P d) → ∀ v ∈ visitedDefs us ps ds, P v.2
  | [], _, v, hv => by
    rw [visitedDefs] at hv
    cases hv
  | d :: ds, h, v, hv => by
    rw [visitedDefs] at hv
    rcases List.mem_append.mp hv with hv | hv
    · split at hv
      · exact visited_of_below hP _ d (h d List.mem_cons_self) v hv
      · cases hv
    · exact visitedDefs_of_below hP us _ ds (fun d hd => h d (List.mem_cons_of_mem _ hd)) v hv
end

/-- with different keys a pass is clean -/
theorem KeysDistinct.clean {d : ElementDef} (h : KeysDistinct d) (t : ElementTree) : Clean t d := by
  intro v hv _
  have hkeys : KeysDistinct v.2 := visited_of_below (fun p ds h => by (cases h; assumption)) t d h v hv
  generalize v.2 = e at hkeys
  cases hkeys with
  | mk hnd _ => exact hnd.filter _

/-! ## what a pass leaves -/

/-- no element that is gone through gets an option -/
def NoOptions (vs : List (ElementTree × ElementDef)) : Prop :=
  ∀ v ∈ vs, Entered v.1.data v.2.props → ∀ d ∈ v.2.children, d.tag ≠ .option

/-- no memo key is found again -/
def NoMemo (vs : List (ElementTree × ElementDef)) : Prop := ∀ v ∈ vs, memoHit v.1.data v.2.props = false

instance (vs : List (ElementTree × ElementDef)) : Decidable (NoOptions vs) := by
  unfold NoOptions
  infer_instance

instance (vs : List (ElementTree × ElementDef)) : Decidable (NoMemo vs) := by
  unfold NoMemo
  infer_instance

lemma noOptions_append {vs vs' : List (ElementTree × ElementDef)} :
    NoOptions (vs ++ vs') ↔ NoOptions vs ∧ NoOptions vs' := List.forall_mem_append

lemma splitTrees_plain {ts : List ElementTree} (h : ∀ t ∈ ts, t.data.synthetic = false) (b : Bool) :
    splitTrees b ts = ([], ts, []) := by
  induction ts generalizing b with
  | nil => rfl
  | cons t ts ih =>
    rw [splitTrees, if_neg (by simp [h t List.mem_cons_self]), ih fun u hu => h u (List.mem_cons_of_mem _ hu)]

lemma mem_of_forall₂ {α β : Type} {R : α → β → Prop} {xs : List α} {ys : List β} (h : List.Forall₂ R xs ys) {y : β}
    (hy : y ∈ ys) : ∃ x ∈ xs, R x y := by
  induction h with
  | nil => cases hy
  | cons hr _ ih =>
    rcases List.mem_cons.mp hy with rfl | hy
    · exact ⟨_, List.mem_cons_self, hr⟩
    · obtain ⟨x, hx, hr⟩ := ih hy
      exact ⟨x, List.mem_cons_of_mem _ hx, hr⟩

/-- a tree is as some definition says -/
def Plain (t : ElementTree) : Prop := ∃ d, Built d t

section
variable {t c : ElementTree}

lemma Plain.child (h : Plain t) (hc : c ∈ t.children) : Plain c := by
  obtain ⟨d, h⟩ := h
  cases h with
  | mk h =>
    obtain ⟨d', -, hd'⟩ := mem_of_forall₂ h hc
    exact ⟨d', hd'⟩

lemma Plain.not_synthetic (h : Plain t) : t.data.synthetic = false := by
  obtain ⟨d, h⟩ := h
  cases h
  rfl

lemma Plain.select (h : Plain t) (hs : t.data.tag = .select) : t.children = [] := by
  obtain ⟨d, h⟩ := h
  cases h with
  | @mk p ds id children h =>
    rw [shownChildren, if_pos (show p.tag = .select from hs)] at h
    cases h
    rfl

lemma Plain.parts (h : Plain t) : lead t = [] ∧ users t = t.children ∧ trail t = [] := by
  have hsplit := splitTrees_plain (fun c hc => (h.child hc).not_synthetic) false
  unfold lead users trail
  rw [hsplit]
  exact ⟨rfl, rfl, rfl⟩

end

lemma RecDefs.length_eq {us : List ElementTree} {ps : List (Option NodeId)} {ds : List ElementDef} {ts : List ElementTree}
    {ws : List RefWrite} (h : RecDefs us ps ds ts ws) : ts.length = ds.length := by
  induction ds generalizing ps ts ws with
  | nil =>
    cases h
    rfl
  | cons d ds ih =>
    cases h with
    | keep _ _ hrest => rw [List.length_cons, List.length_cons, ih hrest]
    | insert _ hrest => rw [List.length_cons, List.length_cons, ih hrest]

/-- a pass with the definition leaves what a build gives when no option is in the way -/
def Rebuilds (d : ElementDef) : Prop :=
  ∀ {t new u : ElementTree} {ws : List RefWrite}, Rec t d new ws → t.ids.Nodup → Plain t → Built d u →
    NoMemo (visited t d) → (Alike new u ↔ NoOptions (visited t d))

lemma RecDefs.alike_iff {us : List ElementTree} {ps : List (Option NodeId)} {ds : List ElementDef}
    {matched cs : List ElementTree} {ws : List RefWrite} (ih : ∀ d ∈ ds, Rebuilds d) (h : RecDefs us ps ds matched ws)
    (hnd : (forestIds us).Nodup) (hplain : ∀ c ∈ us, Plain c) (hu : List.Forall₂ Built ds cs)
    (hmemo : NoMemo (visitedDefs us ps ds)) : List.Forall₂ Alike matched cs ↔ NoOptions (visitedDefs us ps ds) := by
  induction ds generalizing ps matched ws cs with
  | nil =>
    cases h
    cases hu
    rw [visitedDefs]
    exact ⟨fun _ v hv => (by (cases hv)), fun _ => .nil⟩
  | cons d ds ihds =>
    have hrest := fun {ps matched cs ws} => @ihds ps matched cs ws fun d hd => ih d (List.mem_cons_of_mem _ hd)
    cases hu with
    | cons hd hu =>
      cases h with
      | keep hc hrec hdefs =>
        rw [visitedDefs_some (hnd.sublist (roots_sublist us)) hc] at hmemo ⊢
        rw [List.forall₂_cons, noOptions_append, hrest hdefs hu fun v hv => hmemo v (List.mem_append_right _ hv)]
        rw [ih d List.mem_cons_self hrec (hnd.sublist (ids_sublist hc)) (hplain _ hc) hd
          fun v hv => hmemo v (List.mem_append_left _ hv)]
      | insert hb hdefs =>
        rw [visitedDefs_none] at hmemo ⊢
        rw [List.forall₂_cons, hrest hdefs hu hmemo]
        exact and_iff_right (hb.alike hd)

lemma filter_options {p : DefProps} {ds : List ElementDef} (hs : p.tag ≠ .select) :
    shownChildren p ds = ds.filter fun d => d.tag ≠ .option := if_neg hs

/-- **A pass against a build**, of one definition. -/
theorem rebuilds (d : ElementDef) : Rebuilds d := by
  induction d using ElementDef.induct with
  | h p ds ih =>
    intro t new u ws hrec hnd hplain hu hmemo
    have halone : ¬ Entered t.data p → visited t (.mk p ds) = [(t, .mk p ds)] := fun hnot => by
      rw [visited, if_neg hnot]
    have hnone : ¬ Entered t.data p → NoOptions (visited t (.mk p ds)) := fun hnot v hv hentered => by
      rw [halone hnot, List.mem_singleton] at hv
      subst hv
      exact absurd hentered hnot
    cases hrec with
    | replaced htag hbuilt => exact iff_of_true (hbuilt.alike hu) (hnone fun h => htag h.1)
    | memo htag hhit =>
      have hmiss := hmemo (t, .mk p ds) (by rw [visited]; exact List.mem_cons_self)
      exact absurd (hhit.symm.trans hmiss) Bool.true_eq_false.mp
    | select htag _ hselect =>
      refine iff_of_true ?_ (hnone fun h => h.2.2 hselect)
      cases hu with
      | mk hu =>
        rw [shownChildren, if_pos (show p.tag = .select from hselect)] at hu
        refine .mk (look_updateData htag) ?_
        rw [show Rose.children (Rose.node t.id _ t.children) = t.children from rfl, hplain.select (htag.trans hselect)]
        cases hu
        exact .nil
    | @entered _ _ matched _ hentered hdefs =>
      have hentered : Entered t.data p := hentered
      obtain ⟨hlead, husers, htrail⟩ := hplain.parts
      rw [ids_eq, List.nodup_cons] at hnd
      rw [visited_entered hentered] at hmemo ⊢
      rw [hlead, htrail, husers, List.append_nil, List.nil_append]
      rw [husers] at hdefs hmemo
      have hchildren := fun cs (hu : List.Forall₂ Built ds cs) => hdefs.alike_iff ih hnd.2 (fun c hc => hplain.child hc) hu
        fun v hv => hmemo v (List.mem_cons_of_mem _ hv)
      cases hu with
      | @mk _ _ id cs hu =>
        rw [filter_options hentered.2.2] at hu
        constructor
        · intro halike
          cases halike with
          | mk _ hkids =>
            have hkids : List.Forall₂ Alike matched cs := hkids
            -- as many children as definitions: none was left out
            have hlen := hu.length_eq
            rw [← hkids.length_eq, show matched.length = ds.length from hdefs.length_eq] at hlen
            have hall : ds.filter (fun d => d.tag ≠ .option) = ds :=
              List.filter_sublist.eq_of_length hlen
            rw [hall] at hu
            intro v hv
            rcases List.mem_cons.mp hv with rfl | hv
            · intro _ d hd
              rw [← hall] at hd
              exact of_decide_eq_true (List.mem_filter.mp hd).2
            · exact (hchildren cs hu).mp hkids v hv
        · intro hopt
          have hall : ds.filter (fun d => d.tag ≠ .option) = ds := by
            refine List.filter_eq_self.mpr fun d hd => decide_eq_true ?_
            exact hopt _ List.mem_cons_self hentered d hd
          rw [hall] at hu
          refine .mk (look_updateData hentered.1) ?_
          exact (hchildren cs hu).mpr fun v hv => hopt v (List.mem_cons_of_mem _ hv)

/-- **Main result.** A definition is built, and a pass made over it with another one of the same root tag, whose
siblings have different keys, so that no memo key is found again.  The tree is what a build of the other definition
gives exactly when no element that is gone through gets an option. -/
theorem rebuilt_iff (w w' : World) (hw : Vacant w.arena) (hw' : Vacant w'.arena) (old new : ElementDef)
    (htag : old.tag = new.tag) (hkeys : KeysDistinct new)
    (hmemo : NoMemo (visited ((buildSubtree w none old).1.arena.tree (buildSubtree w none old).2) new)) :
    Alike ((reconcile (buildSubtree w none old).1 (buildSubtree w none old).2 new).arena.tree (buildSubtree w none old).2)
        ((buildSubtree w' none new).1.arena.tree (buildSubtree w' none new).2) ↔
      NoOptions (visited ((buildSubtree w none old).1.arena.tree (buildSubtree w none old).2) new) := by
  obtain ⟨t, hbuilt, hid, hholds, -⟩ := build_holds hw old
  obtain ⟨u, hu, hidu, hholdsu, -⟩ := build_holds hw' new
  rw [hid, tree_eq hholds] at hmemo
  rw [hid, hidu, tree_eq hholds, tree_eq hholdsu]
  obtain ⟨t', ws, hrec, hid', hholds', -⟩ := reconcile_holds hholds (hbuilt.tag_eq.trans htag) (hkeys.clean t)
  have hread := tree_eq hholds'
  rw [hid'] at hread
  rw [hread]
  have hnd : t.ids.Nodup := by
    rw [← map_cells t none none none]
    exact hholds.nodup
  exact rebuilds new hrec hnd ⟨old, hbuilt⟩ hu hmemo

lemma keysDistinct_leaf (p : DefProps) : KeysDistinct (.mk p []) := .mk List.nodup_nil fun _ h => by (cases h)

lemma keysDistinct_row {keys : List String} (h : keys.Nodup) : KeysDistinct (keyedRow keys) := by
  have hkeys : defKeys (keys.map keyedSpan) = keys := by
    unfold defKeys
    rw [List.filterMap_map]
    exact List.filterMap_some
  refine .mk (hkeys.symm ▸ h) fun d hd => ?_
  obtain ⟨key, -, rfl⟩ := List.mem_map.mp hd
  exact keysDistinct_leaf _

theorem rebuilt_iff_reordered :
    Alike ((reconcile (builtRow ["a", "b"]) ⟨0, 0⟩ (keyedRow ["b", "c"])).arena.tree ⟨0, 0⟩)
        ((builtRow ["b", "c"]).arena.tree ⟨0, 0⟩) ↔
      NoOptions (visited ((builtRow ["a", "b"]).arena.tree ⟨0, 0⟩) (keyedRow ["b", "c"])) :=
  rebuilt_iff .empty .empty vacant_empty vacant_empty (keyedRow ["a", "b"]) (keyedRow ["b", "c"]) rfl
    (keysDistinct_row (by decide)) (by decide)

/-- a div with an option -/
def optionRow : ElementDef := .mk (DefProps.new .div) [.mk (DefProps.new .option) []]

/-- a div without children gets an option: the pass makes an element of it, a build does not -/
theorem option_shown : ¬ Alike ((reconcile (builtRow []) ⟨0, 0⟩ optionRow).arena.tree ⟨0, 0⟩)
    ((buildSubtree .empty none optionRow).1.arena.tree ⟨0, 0⟩) := by
  intro h
  obtain ⟨-, hkids⟩ := h
  have hlen := hkids.length_eq
  revert hlen
  decide

end TerminalManager.Reconcile
