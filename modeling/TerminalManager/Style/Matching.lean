import TerminalManager.Style.Selector
import Mathlib.Logic.Relation

/-!
# What a selector means

* `Parent`, `Ancestor`      the relations of the combinators;
* `Placed`, `Matches`       places for the compounds, each related to the one on its right;
* `placed_iff`              they are places on the way to the root;
* `selectorMatches_iff`     what the matcher finds: the nearest places, held together by the combinator one compound
                            further to the right;
* `selectorMatches_iff_matches`   when that is the meaning.

A combinator is stored with the compound before it, and read as if it were stored with the one after it.
-/

namespace TerminalManager.Style
open Reconcile Ownership LinkedTree Climb

section
variable (a : NodeArena) (on : Interaction)

def Parent (left right : NodeId) : Prop := ∃ e, a.get right = some e ∧ e.parent = some left ∧ (a.get left).isSome

def Ancestor : NodeId → NodeId → Prop := Relation.TransGen (Parent a)

/-- the relation of a combinator -/
def Joins : SelectorCombinator → NodeId → NodeId → Prop
  | .child => Parent a
  | .descendant => Ancestor a

/-- places for compounds left of a node, the nearest compound first -/
def Placed (right : NodeId) : List (Compound × SelectorCombinator) → Prop
  | [] => True
  | (parts, combinator) :: ks => ∃ left, Joins a combinator left right ∧ fits a on parts left = true ∧ Placed left ks

/-- the chain of compounds, each with the combinator after it, and of a last one -/
def SelectorChain.of (links : List (Compound × SelectorCombinator)) (last : Compound) : SelectorChain :=
  ⟨links.map stored ++ [(last, none)]⟩

/-- places for the compounds, the last one on the node itself -/
def Matches (links : List (Compound × SelectorCombinator)) (last : Compound) (id : NodeId) : Prop :=
  fits a on last id = true ∧ Placed a on id links.reverse

/-! ## places on the way to the root -/

variable {a on} {id left : NodeId} {e : Element} {path : List NodeId} {ks links : List (Compound × SelectorCombinator)}
  {last : Compound}

lemma parent_iff (he : a.get id = some e) (h : Climbs a e.parent path) :
    Parent a left id ↔ ∃ rest, path = left :: rest := by
  constructor
  · rintro ⟨e', he', hparent, -⟩
    obtain rfl := Option.some.inj (he.symm.trans he')
    rw [hparent] at h
    cases h with
    | up _ _ => exact ⟨_, rfl⟩
  · rintro ⟨rest, rfl⟩
    have hlive := h.live List.mem_cons_self
    generalize hlink : e.parent = link at h
    cases h with
    | up _ _ => exact ⟨e, he, hlink, hlive⟩

lemma climbs_head {link : Option NodeId} {rest : List NodeId} (h : Climbs a link (left :: rest)) :
    ∃ e, a.get left = some e ∧ Climbs a e.parent rest := by
  cases h with
  | up he h => exact ⟨_, he, h⟩

/-- the way from a node on the way -/
lemma climbs_tail {link : Option NodeId} {passed rest : List NodeId} (h : Climbs a link (passed ++ left :: rest)) :
    ∃ e, a.get left = some e ∧ Climbs a e.parent rest := by
  induction passed generalizing link with
  | nil => exact climbs_head h
  | cons v passed ih =>
    cases h with
    | up _ h => exact ih h

lemma ancestor_iff (he : a.get id = some e) (h : Climbs a e.parent path) :
    Ancestor a left id ↔ ∃ passed rest, path = passed ++ left :: rest := by
  constructor
  · intro hanc
    induction hanc using Relation.TransGen.head_induction_on with
    | single hp =>
      obtain ⟨rest, hrest⟩ := (parent_iff he h).mp hp
      exact ⟨[], rest, hrest⟩
    | head hp _ ih =>
      obtain ⟨passed, rest, rfl⟩ := ih
      obtain ⟨e', he', h'⟩ := climbs_tail h
      obtain ⟨rest', rfl⟩ := (parent_iff he' h').mp hp
      exact ⟨passed ++ [_], rest', by rw [List.append_assoc]; rfl⟩
  · rintro ⟨passed, rest, rfl⟩
    induction passed generalizing id e with
    | nil => exact .single ((parent_iff he h).mpr ⟨rest, rfl⟩)
    | cons v passed ih =>
      have hparent := (parent_iff he h).mpr ⟨passed ++ left :: rest, rfl⟩
      obtain ⟨e', he', h'⟩ := climbs_head h
      exact (ih he' h').tail hparent

/-- **The places are on the way to the root.** -/
theorem placed_iff (he : a.get id = some e) (h : Climbs a e.parent path) :
    Placed a on id ks ↔ Assigned (fits a on) ks path := by
  induction ks generalizing id e path with
  | nil => exact Iff.rfl
  | cons k ks ih =>
    obtain ⟨parts, combinator⟩ := k
    cases combinator with
    | child =>
      constructor
      · rintro ⟨left, hjoin, hfit, hplaced⟩
        obtain ⟨rest, rfl⟩ := (parent_iff he h).mp hjoin
        obtain ⟨e', he', h'⟩ := climbs_head h
        exact ⟨left, rest, rfl, hfit, (ih he' h').mp hplaced⟩
      · rintro ⟨left, rest, rfl, hfit, hrest⟩
        obtain ⟨e', he', h'⟩ := climbs_head h
        exact ⟨left, (parent_iff he h).mpr ⟨rest, rfl⟩, hfit, (ih he' h').mpr hrest⟩
    | descendant =>
      constructor
      · rintro ⟨left, hjoin, hfit, hplaced⟩
        obtain ⟨passed, rest, rfl⟩ := (ancestor_iff he h).mp hjoin
        obtain ⟨e', he', h'⟩ := climbs_tail h
        exact ⟨passed, left, rest, rfl, hfit, (ih he' h').mp hplaced⟩
      · rintro ⟨passed, left, rest, rfl, hfit, hrest⟩
        obtain ⟨e', he', h'⟩ := climbs_tail h
        exact ⟨left, (ancestor_iff he h).mpr ⟨passed, rest, rfl⟩, hfit, (ih he' h').mpr hrest⟩

/-! ## the matcher -/

/-- how many ancestors are passed over to the nearest one of each compound, from the right -/
def nearest (a : NodeArena) (on : Interaction) (links : List (Compound × SelectorCombinator)) (path : List NodeId) :
    Option (List Nat) :=
  gaps (fits a on) 0 (links.reverse.map Prod.fst) path

/-- no ancestor is passed over left of a compound with `>` after it: what the code asks for in place of none between
the compound and the one on its right -/
def HeldLeft (links : List (Compound × SelectorCombinator)) (gs : List Nat) : Prop :=
  Tight .descendant (links.reverse.map Prod.snd) gs

lemma selectorMatches_eq (he : a.get id = some e) (h : Climbs a e.parent path) :
    selectorMatches a on (.of links last) id e =
      (fits a on last id && Climb.walk (fits a on) .descendant links.reverse path) := by
  have hrun : selectorMatches a on (.of links last) id e =
      (partsMatch a on last id e && climb a on (a.nodes.length + 1) none (links.reverse.map stored) e.parent) := by
    unfold selectorMatches SelectorChain.of
    simp only [List.reverse_append, List.reverse_cons, List.reverse_nil, List.nil_append, List.cons_append,
      ← List.map_reverse]
  rw [hrun, climb_eq h (h.length_le.trans (Nat.le_succ _)), fits_eq he]
  rfl

/-- **What the matcher finds.** -/
theorem selectorMatches_iff (he : a.get id = some e) (h : Climbs a e.parent path) :
    selectorMatches a on (.of links last) id e = true ↔
      fits a on last id = true ∧ ∃ gs, nearest a on links path = some gs ∧ HeldLeft links gs := by
  rw [selectorMatches_eq he h, Bool.and_eq_true]
  exact and_congr_right fun _ => walk_iff

/-- the ancestors of an element -/
theorem matches_iff (he : a.get id = some e) (h : Climbs a e.parent path) :
    Matches a on links last id ↔ fits a on last id = true ∧ Assigned (fits a on) links.reverse path :=
  and_congr_right fun _ => placed_iff he h

/-- without `>` the matcher finds what the selector means -/
theorem selectorMatches_descendant (ha : Rooted a) (he : a.get id = some e) (hlinks : .child ∉ links.map Prod.snd) :
    selectorMatches a on (.of links last) id e = true ↔ Matches a on links last id := by
  obtain ⟨path, h⟩ := ha id e he
  have hsteps : ∀ k ∈ links.reverse, k.2 = .descendant := by
    intro k hk
    cases hc : k.2 with
    | descendant => rfl
    | child => exact absurd (List.mem_map.mpr ⟨k, List.mem_reverse.mp hk, hc⟩) hlinks
  rw [selectorMatches_iff he h, matches_iff he h]
  refine and_congr_right fun _ => ⟨?_, fun hplaced => ?_⟩
  · rintro ⟨gs, hgs, -⟩
    exact assigned_of_gaps hsteps 0 (Option.isSome_iff_exists.mpr ⟨gs, hgs⟩)
  · obtain ⟨gs, hgs⟩ := Option.isSome_iff_exists.mp (gaps_isSome_of_assigned hplaced)
    refine ⟨gs, hgs, tight_descendant (fun s hs => ?_) gs⟩
    obtain ⟨k, hk, rfl⟩ := List.mem_map.mp hs
    exact hsteps k hk

/-- when the matcher is right about one element -/
theorem selectorMatches_iff_matches (he : a.get id = some e) (h : Climbs a e.parent path) :
    (selectorMatches a on (.of links last) id e = true ↔ Matches a on links last id) ↔
      (fits a on last id = true → ∀ gs, nearest a on links path = some gs →
        (HeldLeft links gs ↔ Placed a on id links.reverse)) := by
  rw [selectorMatches_iff he h]
  constructor
  · intro hagree hlast gs hgs
    refine ⟨fun hheld => (hagree.mp ⟨hlast, gs, hgs, hheld⟩).2, fun hplaced => ?_⟩
    obtain ⟨-, gs', hgs', hheld⟩ := hagree.mpr ⟨hlast, hplaced⟩
    obtain rfl := Option.some.inj (hgs.symm.trans hgs')
    exact hheld
  · intro hcond
    refine and_congr_right fun hlast => ⟨?_, fun hplaced => ?_⟩
    · rintro ⟨gs, hgs, hheld⟩
      exact (hcond hlast gs hgs).mp hheld
    · -- places that exist are found, if not held
      obtain ⟨gs, hgs⟩ := Option.isSome_iff_exists.mp (gaps_isSome_of_assigned ((placed_iff he h).mp hplaced))
      exact ⟨gs, hgs, (hcond hlast gs hgs).mpr hplaced⟩

end

/-! ## an element with a stray ancestor -/

/-- a class for each number -/
def className (k : Nat) : String := String.ofList (List.replicate k 'x')

lemma className_inj {j k : Nat} : className j = className k ↔ j = k := by
  refine ⟨fun h => ?_, congrArg className⟩
  have hlen := congrArg List.length (String.ofList_injective h)
  rwa [List.length_replicate, List.length_replicate] at hlen

def marked (v : Option Nat) : DefProps := { DefProps.new .div with classes := (v.map className).toList }

/-- a definition inside of others, the innermost first -/
def nest : List (Option Nat) → ElementDef → ElementDef
  | [], d => d
  | v :: vs, d => nest vs (.mk (marked v) [d])

/-- the compound that asks for a number -/
def asks (k : Nat) : Compound := [.cls (className k)]

section
variable {a : NodeArena} {on : Interaction}

/-- an element with the class of a number -/
def Carries (a : NodeArena) (id : NodeId) (v : Option Nat) : Prop :=
  ∃ e, a.get id = some e ∧ e.classes = (v.map className).toList

lemma fits_asks {id : NodeId} {v : Option Nat} (h : Carries a id v) (k : Nat) : fits a on (asks k) id = isAt k v := by
  obtain ⟨e, he, hclasses⟩ := h
  rw [fits_eq he]
  have hone : partsMatch a on (asks k) id e = e.classes.any (· = className k) := Bool.and_true _
  rw [hone, hclasses, isAt]
  cases v with
  | none => rfl
  | some j =>
    have hany : (Option.map className (some j)).toList.any (· = className k) = decide (className j = className k) :=
      Bool.or_false _
    rw [hany]
    exact decide_eq_decide.mpr (className_inj.trans (Option.some_inj).symm)

/-- the ancestors of the innermost element -/
lemma nest_path {vs : List (Option Nat)} {d : ElementDef} (hd : d.tag = .div) {t : ElementTree} (hbuilt : Built (nest vs d) t)
    (h : Holds a t) : ∃ (s : ElementTree) (parent prev next : Option NodeId)
      (rest : NodeId → Option (Links NodeId × ElementData)) (path : List NodeId), Built d s ∧
      Owns a.heap (s.cells parent prev next) rest ∧ Climbs a parent path ∧ List.Forall₂ (Carries a) path vs := by
  induction vs generalizing d with
  | nil => exact ⟨t, none, none, none, _, [], hbuilt, h, .root, .nil⟩
  | cons v vs ih =>
    obtain ⟨s, parent, prev, next, rest, path, hs, hown, hpath, hcarry⟩ := ih (d := .mk (marked v) [d]) rfl hbuilt
    generalize hdef : ElementDef.mk (marked v) [d] = outer at hs
    cases hs with
    | @mk p ds id children hkids =>
      obtain ⟨rfl, rfl⟩ := ElementDef.mk.inj hdef
      have hshown : shownChildren (marked v) [d] = [d] := by
        rw [shownChildren, if_neg (show ¬(marked v).tag = .select from fun h => by cases h), List.filter_cons_of_pos (by rw [hd]; rfl)]
        rfl
      rw [hshown] at hkids
      obtain ⟨s', kids, hs', hnil, rfl⟩ := List.forall₂_cons_left_iff.mp hkids
      cases hnil
      obtain ⟨e, he, hlinks, hdata⟩ := NodeArena.get_root hown
      obtain ⟨prev', next', rest', hown'⟩ := owns_of_mem hown (show s' ∈ Rose.children (Rose.node id _ [s']) from
        List.mem_singleton_self s')
      have hparent : e.parent = parent := congrArg Links.parent hlinks
      refine ⟨s', some id, prev', next', rest', id :: path, hs', hown', .up he (hparent ▸ hpath), .cons ⟨e, he, ?_⟩ hcarry⟩
      exact congrArg ElementData.classes hdata

/-- **A selector with `>` in it that the matcher gets wrong.** -/
theorem exists_wrong {combinators : List SelectorCombinator} (h : .child ∈ combinators) :
    ∃ a t id e links last, Holds a t ∧ a.get id = some e ∧ links.map Prod.snd = combinators ∧
      selectorMatches a on (.of links last) id e = true ∧ ¬Matches a on links last id := by
  let steps := combinators.reverse
  let ks := (numbered 0 steps).map (Prod.map asks fun c => c)
  obtain ⟨t, hbuilt, -, hholds, -⟩ := build_holds (w := .empty) vacant_empty (nest (strays 0 steps) (.mk (DefProps.new .div) []))
  obtain ⟨s, parent, prev, next, rest, path, -, hown, hpath, hcarry⟩ := nest_path rfl hbuilt hholds
  obtain ⟨e, he, hlinks, -⟩ := NodeArena.get_root hown
  have hparent : e.parent = parent := congrArg Links.parent hlinks
  rw [← hparent] at hpath
  have hfits := hcarry.imp fun _ _ hv k => @fits_asks _ on _ _ hv k
  have hks : ks.reverse.reverse = (numbered 0 steps).map (Prod.map asks fun c => c) := List.reverse_reverse ks
  refine ⟨_, t, s.id, e, ks.reverse, [], hholds, he, ?_, ?_, ?_⟩
  · rw [List.map_reverse, List.map_map]
    show ((numbered 0 steps).map Prod.snd).reverse = combinators
    rw [map_numbered, List.reverse_reverse]
  · rw [selectorMatches_eq he hpath, fits_eq he, hks, walk_map hfits, walk_strays]
    rfl
  · rw [matches_iff he hpath, hks, assigned_map hfits]
    exact fun hboth => not_assigned_strays 0 (List.mem_reverse.mpr h) hboth.2

end

def atRest : Interaction := ⟨none, none, none, false⟩

/-- **Main result.** In a tree, the matcher is right about an element of the tree when the nearest ancestors are held
together as the code reads the combinators just in case some ancestors are as the combinators are meant; and it is right
about every element of every tree when the selector has no `>`. -/
theorem selectorMatches_exact (combinators : List SelectorCombinator) :
    (∀ {a : NodeArena} {t : ElementTree} {on : Interaction} {id : NodeId} {e : Element} {path : List NodeId} {links last},
      links.map Prod.snd = combinators → Holds a t → a.get id = some e → Climbs a e.parent path →
      ((selectorMatches a on (.of links last) id e = true ↔ Matches a on links last id) ↔
        (fits a on last id = true → ∀ gs, nearest a on links path = some gs →
          (HeldLeft links gs ↔ Placed a on id links.reverse)))) ∧
    ((∀ a t on id e links last, Holds a t → a.get id = some e → links.map Prod.snd = combinators →
        (selectorMatches a on (.of links last) id e = true ↔ Matches a on links last id)) ↔
      .child ∉ combinators) := by
  refine ⟨fun _ _ he h => selectorMatches_iff_matches he h, fun hall hmem => ?_, ?_⟩
  · obtain ⟨a, t, id, e, links, last, ht, he, hlinks, hfound, hnot⟩ := @exists_wrong atRest _ hmem
    exact hnot ((hall a t _ id e links last ht he hlinks).mp hfound)
  · rintro hmem a t on id e links last ht he rfl
    exact selectorMatches_descendant (rooted_of_holds ht) he hmem

/-! ## three elements -/

def labelInRow : ElementDef :=
  .mk { DefProps.new .div with classes := ["panel"] } [
    .mk { DefProps.new .div with classes := ["row"] } [.mk { DefProps.new .span with classes := ["label"] } []]]

def nested : NodeArena := (buildSubtree .empty none labelInRow).1.arena

/-- `.panel > .label` -/
def labelOfPanel : SelectorChain := .of [([.cls "panel"], .child)] [.cls "label"]

lemma nested_holds : ∃ t, Holds nested t := by
  obtain ⟨t, -, -, hholds, -⟩ := build_holds (w := .empty) vacant_empty labelInRow
  exact ⟨t, hholds⟩

/-- `.panel > .label` is found on a label in a row of the panel -/
theorem label_of_row_found : ∃ t e, Holds nested t ∧ nested.get ⟨2, 0⟩ = some e ∧
    selectorMatches nested atRest labelOfPanel ⟨2, 0⟩ e = true ∧
      ¬Matches nested atRest [([.cls "panel"], .child)] [.cls "label"] ⟨2, 0⟩ := by
  obtain ⟨t, ht⟩ := nested_holds
  have hrow : ∃ e, nested.get ⟨2, 0⟩ = some e ∧ e.parent = some ⟨1, 0⟩ ∧
      selectorMatches nested atRest labelOfPanel ⟨2, 0⟩ e = true := ⟨_, rfl, rfl, by decide⟩
  obtain ⟨e, he, hparent, hfound⟩ := hrow
  refine ⟨t, e, ht, he, hfound, ?_⟩
  rintro ⟨-, left, ⟨e', he', hleft, -⟩, hfit, -⟩
  obtain rfl := Option.some.inj (he.symm.trans he')
  obtain rfl := Option.some.inj (hparent.symm.trans hleft)
  revert hfit
  decide

/-- the row is passed over, and `>` forbids it -/
theorem selectorMatches_exact_nested : ∃ e, nested.get ⟨2, 0⟩ = some e ∧
    ((selectorMatches nested atRest labelOfPanel ⟨2, 0⟩ e = true ↔
        Matches nested atRest [([.cls "panel"], .child)] [.cls "label"] ⟨2, 0⟩) ↔
      (fits nested atRest [.cls "label"] ⟨2, 0⟩ = true →
        ∀ gs, nearest nested atRest [([.cls "panel"], .child)] [⟨1, 0⟩, ⟨0, 0⟩] = some gs →
          (HeldLeft [([.cls "panel"], .child)] gs ↔ Placed nested atRest ⟨2, 0⟩ [([.cls "panel"], .child)]))) := by
  obtain ⟨t, ht⟩ := nested_holds
  obtain ⟨e, he, hpath⟩ : ∃ e, nested.get ⟨2, 0⟩ = some e ∧ Climbs nested e.parent [⟨1, 0⟩, ⟨0, 0⟩] :=
    ⟨_, rfl, .up rfl (.up rfl .root)⟩
  exact ⟨e, he, (selectorMatches_exact [.child]).1 rfl ht he hpath⟩

end TerminalManager.Style
