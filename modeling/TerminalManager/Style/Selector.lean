import TerminalManager.Reconcile.LiveTree
import TerminalManager.Lib.Climb

/-!
# Selectors

A selector is a chain of compounds.  Each compound is stored with the combinator that stands after it.

* `SelectorPart`, `SelectorChain`   the data;
* `Interaction`                     what the pointer and the keyboard are on;
* `partsMatch`                      an element meets the parts of a compound;
* `climb`, `selectorMatches`        the compounds are looked for from the last one on, up the tree;
* `Rooted`, `rooted_of_holds`       the way to the root is finite from every element of a tree;
* `climb_eq`                        the loop walks along the ancestors.
-/

namespace TerminalManager.Style
open Reconcile Ownership LinkedTree

/-- `Tag::name` -/
def tagName : Tag → String
  | .div => "div"
  | .span => "span"
  | .text => "text"
  | .button => "button"
  | .input => "input"
  | .canvas => "canvas"
  | .svg => "svg"
  | .svgPath => "path"
  | .svgCircle => "circle"
  | .svgRect => "rect"
  | .svgLine => "line"
  | .svgPolyline => "polyline"
  | .svgPolygon => "polygon"
  | .svgGroup => "g"
  | .select => "select"
  | .option => "option"

mutual
inductive SelectorPart
  | universal
  | tag (name : String)
  | cls (name : String)
  | id (name : String)
  | pseudoClass (pseudo : PseudoClass)
  | pseudoElement (pseudo : PseudoElement)
deriving DecidableEq

inductive PseudoClass
  | hover | active | focus | focusVisible | focusWithin
  | firstChild | lastChild | firstOfType | lastOfType
  | nthChild (n : Int)
  | not (inner : SelectorPart)
deriving DecidableEq
end

abbrev SelectorCombinator := Climb.Step

/-- the parts of one element -/
abbrev Compound := List SelectorPart

structure SelectorChain where
  parts : List (Compound × Option SelectorCombinator)
deriving DecidableEq

/-- what the pointer and the keyboard are on -/
structure Interaction where
  hovered : Option NodeId
  active : Option NodeId
  focused : Option NodeId
  focusViaKeyboard : Bool

/-! ## one element -/

section
variable (a : NodeArena)

/-- an id is met on the way from a node to the root; `fuel` bounds the way -/
def isOrAncestorFrom (ancestor : NodeId) : Nat → Option NodeId → Bool
  | 0, _ => false
  | _, none => false
  | fuel + 1, some id =>
    if id = ancestor then true
    else
      match a.get id with
      | some e => isOrAncestorFrom ancestor fuel e.parent
      | none => false

def isOrAncestorOf (ancestor : NodeId) (descendant : Option NodeId) : Bool :=
  isOrAncestorFrom a ancestor (a.nodes.length + 1) descendant

/-- no sibling on one side has the tag -/
def noneOfType (tag : Tag) (next : Element → Option NodeId) : Nat → Option NodeId → Bool
  | _, none => true
  | 0, some _ => false
  | fuel + 1, some id =>
    match a.get id with
    | some sibling => if sibling.tag = tag then false else noneOfType tag next fuel (next sibling)
    | none => false

/-- the place of a child among its siblings -/
def childPosition (id : NodeId) : Nat → Int → Option NodeId → Option Int
  | _, _, none => none
  | 0, _, some _ => none
  | fuel + 1, position, some current =>
    if current = id then some position
    else
      match a.get current with
      | some sibling => childPosition id fuel (position + 1) sibling.nextSibling
      | none => none

/-- what `:not` negates; pseudo classes and elements and `*` never hold there -/
def innerMatches (element : Element) : SelectorPart → Bool
  | .tag tag => tagName element.tag = tag
  | .cls cls => element.classes.any (· = cls)
  | .id id => element.id = some id
  | .pseudoElement _ | .pseudoClass _ | .universal => false

variable (on : Interaction)

def pseudoClassMatches (nodeId : NodeId) (element : Element) : PseudoClass → Bool
  | .hover => isOrAncestorOf a nodeId on.hovered
  | .active => isOrAncestorOf a nodeId on.active
  | .focus => on.focused = some nodeId
  | .focusVisible => on.focused = some nodeId && on.focusViaKeyboard
  | .focusWithin => isOrAncestorOf a nodeId on.focused
  | .firstChild => element.prevSibling = none
  | .lastChild => element.nextSibling = none
  | .firstOfType => noneOfType a element.tag (fun e => e.prevSibling) a.nodes.length element.prevSibling
  | .lastOfType => noneOfType a element.tag (fun e => e.nextSibling) a.nodes.length element.nextSibling
  | .nthChild n =>
    match element.parent.bind a.get with
    | some parent => childPosition a nodeId (a.nodes.length + 1) 1 parent.firstChild = some n
    | none => false
  | .not inner => !innerMatches element inner

def partMatches (nodeId : NodeId) (element : Element) : SelectorPart → Bool
  | .universal => true
  | .tag tag => tagName element.tag = tag
  | .cls cls => element.classes.any (· = cls)
  | .id id => element.id = some id
  -- the resolver has looked at the pseudo element before
  | .pseudoElement _ => true
  | .pseudoClass pseudo => pseudoClassMatches a on nodeId element pseudo

def partsMatch (parts : Compound) (nodeId : NodeId) (element : Element) : Bool :=
  parts.all (partMatches a on nodeId element)

/-! ## the chain -/

/-- the loop: `rest` are the compounds that are left, the last one first, and `prev` is the combinator that is stored
with the compound found last -/
def climb : Nat → Option SelectorCombinator → List (Compound × Option SelectorCombinator) → Option NodeId → Bool
  | _, _, [], _ => true
  | _, _, _ :: _, none => false
  | 0, _, _ :: _, some _ => false
  | fuel + 1, prev, (parts, combinator) :: rest, some current =>
    match a.get current with
    | none => false
    | some ancestor =>
      if partsMatch a on parts current ancestor then climb fuel combinator rest ancestor.parent
      else if prev = some .child then false
      else climb fuel prev ((parts, combinator) :: rest) ancestor.parent

def selectorMatches (chain : SelectorChain) (nodeId : NodeId) (element : Element) : Bool :=
  match chain.parts.reverse with
  | [] => false
  | (parts, combinator) :: rest =>
    partsMatch a on parts nodeId element && climb a on (a.nodes.length + 1) combinator rest element.parent

end

/-- an element that a selector matches meets its last compound -/
lemma last_of_matches {a : NodeArena} {on : Interaction} {chain : SelectorChain} {nodeId : NodeId} {element : Element}
    (h : selectorMatches a on chain nodeId element = true) :
    ∃ last, chain.parts.getLast? = some last ∧ ∀ part ∈ last.1, partMatches a on nodeId element part = true := by
  unfold selectorMatches at h
  cases hparts : chain.parts.reverse with
  | nil =>
    rw [hparts] at h
    cases h
  | cons last rest =>
    rw [hparts] at h
    refine ⟨last, ?_, List.all_eq_true.mp (Bool.and_eq_true_iff.mp h).1⟩
    rw [List.getLast?_eq_head?_reverse, hparts]
    rfl

/-! ## the way to the root -/

/-- the nodes from a link to the root -/
inductive Climbs (a : NodeArena) : Option NodeId → List NodeId → Prop
  | root : Climbs a none []
  | up {id : NodeId} {e : Element} {path : List NodeId} (he : a.get id = some e) (h : Climbs a e.parent path) :
    Climbs a (some id) (id :: path)

/-- from every element there is a way to the root -/
def Rooted (a : NodeArena) : Prop := ∀ id e, a.get id = some e → ∃ path, Climbs a e.parent path

namespace Climbs
variable {a : NodeArena} {link : Option NodeId} {path path' : List NodeId} {id : NodeId}

lemma unique (h : Climbs a link path) (h' : Climbs a link path') : path = path' := by
  induction h generalizing path' with
  | root =>
    cases h'
    rfl
  | up he _ ih =>
    cases h' with
    | up he' h' =>
      obtain rfl := Option.some.inj (he.symm.trans he')
      rw [ih h']

lemma live (h : Climbs a link path) (hmem : id ∈ path) : (a.get id).isSome := by
  induction h with
  | root => cases hmem
  | up he _ ih =>
    rcases List.mem_cons.mp hmem with rfl | hmem
    · rw [he]
      rfl
    · exact ih hmem

/-- the way from a node on the way -/
lemma suffix (h : Climbs a link path) (hmem : id ∈ path) : ∃ us vs, path = us ++ id :: vs ∧ Climbs a (some id) (id :: vs) := by
  induction h with
  | root => cases hmem
  | up he h ih =>
    rcases List.mem_cons.mp hmem with rfl | hmem
    · exact ⟨[], _, rfl, .up he h⟩
    · obtain ⟨us, vs, rfl, hvs⟩ := ih hmem
      exact ⟨_ :: us, vs, rfl, hvs⟩

lemma nodup (h : Climbs a link path) : path.Nodup := by
  induction h with
  | root => exact List.nodup_nil
  | up he h ih =>
    refine List.nodup_cons.mpr ⟨fun hmem => ?_, ih⟩
    obtain ⟨us, vs, hpath, hvs⟩ := h.suffix hmem
    have hlen := congrArg List.length (unique (.up he h) hvs)
    rw [hpath] at hlen
    simp only [List.length_cons, List.length_append] at hlen
    omega

/-- the way is not longer than the arena -/
lemma length_le (h : Climbs a link path) : path.length ≤ a.nodes.length :=
  NodeArena.live_length a h.nodup fun _ hmem => h.live hmem

end Climbs

lemma climbs_of_owns {a : NodeArena} (t : ElementTree) {parent prev next : Option NodeId}
    {rest : NodeId → Option (Links NodeId × ElementData)} (h : Owns a.heap (t.cells parent prev next) rest)
    {path : List NodeId} (hpath : Climbs a parent path) {i : NodeId} (hi : i ∈ t.ids) {e : Element} (he : a.get i = some e) :
    ∃ path', Climbs a e.parent path' := by
  induction t using Rose.induct generalizing parent prev next rest path with
  | h id data children ih =>
    obtain ⟨root, hroot, hlinks, -⟩ := NodeArena.get_root h
    have hparent : root.parent = parent := congrArg Links.parent hlinks
    rw [ids_eq] at hi
    rcases List.mem_cons.mp hi with rfl | hi
    · obtain rfl := Option.some.inj (hroot.symm.trans he)
      exact ⟨path, hparent ▸ hpath⟩
    · obtain ⟨c, hc, hin⟩ := mem_forestIds.mp hi
      obtain ⟨prev', next', rest', hown⟩ := owns_of_mem h hc
      exact ih c hc hown (.up hroot (hparent ▸ hpath)) hin

/-- **In a tree every element has a way to the root.** -/
theorem rooted_of_holds {a : NodeArena} {t : ElementTree} (h : Holds a t) : Rooted a := by
  intro id e he
  refine climbs_of_owns t h .root ?_ he
  rw [← map_cells t none none none]
  by_contra hout
  have hnone := h.outside id hout
  unfold NodeArena.heap at hnone
  rw [he] at hnone
  cases hnone

/-! ## the loop is a walk -/

section
variable (a : NodeArena) (on : Interaction)

/-- a node meets the parts of a compound -/
def fits (parts : Compound) (id : NodeId) : Bool := (a.get id).any (partsMatch a on parts id)

/-- a compound as it is stored -/
def stored (k : Compound × SelectorCombinator) : Compound × Option SelectorCombinator := (k.1, some k.2)

variable {a on}

lemma fits_eq {id : NodeId} {e : Element} (he : a.get id = some e) (parts : Compound) :
    fits a on parts id = partsMatch a on parts id e := by
  unfold fits
  rw [he]
  rfl

/-- **The loop walks along the ancestors**, and has fuel enough for all of them. -/
theorem climb_eq {link : Option NodeId} {path : List NodeId} (hpath : Climbs a link path) {fuel : Nat}
    (hfuel : path.length ≤ fuel) (prev : Option SelectorCombinator) (ks : List (Compound × SelectorCombinator)) :
    climb a on fuel prev (ks.map stored) link = Climb.walk (fits a on) (prev.getD .descendant) ks path := by
  induction hpath generalizing fuel prev ks with
  | root =>
    cases ks with
    | nil => rw [List.map_nil, climb, Climb.walk]
    | cons k ks => rw [List.map_cons, climb, Climb.walk]
  | @up id e path he hpath ih =>
    cases ks with
    | nil => rw [List.map_nil, climb, Climb.walk]
    | cons k ks =>
      obtain ⟨fuel, rfl⟩ := Nat.exists_eq_add_of_le' (Nat.lt_of_lt_of_le (Nat.succ_pos path.length) hfuel)
      have hfuel' := Nat.le_of_succ_le_succ hfuel
      obtain ⟨parts, combinator⟩ := k
      have hprev : prev = some .child ↔ prev.getD .descendant = .child := by
        cases prev with
        | none => exact ⟨fun h => (by cases h), fun h => (by cases h)⟩
        | some c => exact ⟨fun h => Option.some.inj h, fun h => congrArg some h⟩
      show climb a on (fuel + 1) prev ((parts, some combinator) :: ks.map stored) (some id) = _
      rw [climb, Climb.walk, fits_eq he]
      simp only [he]
      split_ifs with hfit hchild hchild' hchild'
      · exact ih hfuel' (some combinator) ks
      · rfl
      · exact absurd (hprev.mp hchild) hchild'
      · exact absurd (hprev.mpr hchild') hchild
      · exact ih hfuel' prev ((parts, combinator) :: ks)

end

end TerminalManager.Style
