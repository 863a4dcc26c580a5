import TerminalManager.Style.Selector
import TerminalManager.Lib.Bits

/-!
# The index of the rules

The rules of a stylesheet are indexed by what the last compound of their selector asks of an element.

* `RuleCandidates.build`, `matchingMask`   the index, and the rules that it gives for an element, as words of 64 bits;
* `applyCandidates`, `applyRule`           the cascade over these rules;
* `covers_build`, `universal_build`        what the index holds;
* `mem_matchingMask`                       what it gives;
* `candidates_exact`                       the rules that match are among them, in their order, and the style is that of
                                           all the rules.

How a declaration changes a style is a parameter.
-/

namespace TerminalManager.Style
open Reconcile BitSets

structure CompiledRule (δ : Type*) where
  selector : SelectorChain
  declarations : List δ

/-- the pseudo element that the last compound is about -/
def SelectorChain.pseudoElement (chain : SelectorChain) : Option PseudoElement :=
  chain.parts.getLast?.bind fun last => last.1.findSome? fun part =>
    match part with
    | .pseudoElement pe => some pe
    | _ => none

abbrev Words := List (BitVec 64)

structure RuleCandidates where
  words : Nat
  universal : Words
  byTag : String → Option Words
  byClass : String → Option Words
  byId : String → Option Words

namespace RuleCandidates

def setBit (map : String → Option Words) (key : String) (ruleIdx words : Nat) : String → Option Words :=
  Function.update map key (some (insert ((map key).getD (List.replicate words 0#64)) ruleIdx))

/-- a rule is put under one part of its last compound; the flag says that it is under some part -/
def indexPart (ruleIdx : Nat) (s : RuleCandidates × Bool) : SelectorPart → RuleCandidates × Bool
  | .tag tag => ({ s.1 with byTag := setBit s.1.byTag tag ruleIdx s.1.words }, true)
  | .cls cls => ({ s.1 with byClass := setBit s.1.byClass cls ruleIdx s.1.words }, true)
  | .id id => ({ s.1 with byId := setBit s.1.byId id ruleIdx s.1.words }, true)
  -- these do not ask for a tag, a class or an id
  | .universal | .pseudoClass _ | .pseudoElement _ => s

def addRule {δ : Type*} (c : RuleCandidates) (rule : CompiledRule δ) (ruleIdx : Nat) : RuleCandidates :=
  match rule.selector.parts.getLast? with
  | none => c
  | some terminal =>
    let s := terminal.1.foldl (indexPart ruleIdx) (c, false)
    if s.2 then s.1 else { s.1 with universal := insert s.1.universal ruleIdx }

def empty (words : Nat) : RuleCandidates :=
  ⟨words, List.replicate words 0#64, fun _ => none, fun _ => none, fun _ => none⟩

def build {δ : Type*} (rules : List (CompiledRule δ)) : RuleCandidates :=
  rules.zipIdx.foldl (fun c x => c.addRule x.1 x.2) (empty ((rules.length + 63) / 64))

def merge (mask : Words) (bits : Option Words) : Words :=
  match bits with
  | some bits => union mask bits
  | none => mask

def matchingMask (c : RuleCandidates) (tag : String) (id : Option String) (classes : List String) : Words :=
  let mask := merge c.universal (c.byTag tag)
  let mask :=
    match id with
    | some id => merge mask (c.byId id)
    | none => mask
  classes.foldl (fun mask cls => merge mask (c.byClass cls)) mask

end RuleCandidates

/-! ## the cascade -/

section
variable {σ δ : Type*} (apply : σ → δ → σ) (a : NodeArena) (on : Interaction) (nodeId : NodeId) (element : Element)
  (target : Option PseudoElement)

def applyRule (style : σ) (rule : CompiledRule δ) : σ :=
  if rule.selector.pseudoElement ≠ target then style
  else if selectorMatches a on rule.selector nodeId element then rule.declarations.foldl apply style
  else style

/-- the rule at a place -/
def applyAt (rules : List (CompiledRule δ)) (style : σ) (i : Nat) : σ :=
  match rules[i]? with
  | some rule => applyRule apply a on nodeId element target style rule
  | none => style

/-- the rules of one word, from its lowest bit on -/
def applyWord (rules : List (CompiledRule δ)) (style : σ) (wordIndex : Nat) (word : BitVec 64) : σ :=
  (ones word).foldl (fun style bit => applyAt apply a on nodeId element target rules style (wordIndex * 64 + bit)) style

def candidateMask (rules : List (CompiledRule δ)) : Words :=
  (RuleCandidates.build rules).matchingMask (tagName element.tag) element.id element.classes

def applyCandidates (rules : List (CompiledRule δ)) (style : σ) : σ :=
  (candidateMask element rules).zipIdx.foldl
    (fun style x => applyWord apply a on nodeId element target rules style x.2 x.1) style

end

/-! ## what a part asks for -/

inductive Key
  | tag (name : String) | cls (name : String) | id (name : String)
deriving DecidableEq

def SelectorPart.key : SelectorPart → Option Key
  | .tag name => some (.tag name)
  | .cls name => some (.cls name)
  | .id name => some (.id name)
  | .universal | .pseudoClass _ | .pseudoElement _ => none

/-- the element has what is asked for -/
def Has (element : Element) : Key → Prop
  | .tag tag => tagName element.tag = tag
  | .cls cls => cls ∈ element.classes
  | .id id => element.id = some id

lemma has_of_matches {a : NodeArena} {on : Interaction} {nodeId : NodeId} {element : Element} {part : SelectorPart}
    (h : partMatches a on nodeId element part = true) {key : Key} (hkey : part.key = some key) : Has element key := by
  cases part with
  | tag tag =>
    cases hkey
    have htag : tagName element.tag = tag := of_decide_eq_true h
    exact htag
  | cls cls =>
    cases hkey
    obtain ⟨c, hc, heq⟩ := List.any_eq_true.mp h
    obtain rfl := of_decide_eq_true heq
    exact hc
  | id id =>
    cases hkey
    have hid : element.id = some id := of_decide_eq_true h
    exact hid
  | universal => cases hkey
  | pseudoClass pseudo => cases hkey
  | pseudoElement pe => cases hkey

/-- the parts of the last compound -/
def terminal {δ : Type*} (rule : CompiledRule δ) : Compound := (rule.selector.parts.getLast?.map Prod.fst).getD []

namespace RuleCandidates
variable {δ : Type*} {c : RuleCandidates} {key key' : Key} {i j n : Nat}

def lookup (c : RuleCandidates) : Key → Option Words
  | .tag tag => c.byTag tag
  | .cls cls => c.byClass cls
  | .id id => c.byId id

/-- the rule is under the key -/
def Covers (c : RuleCandidates) (key : Key) (i : Nat) : Prop := ∃ bits, c.lookup key = some bits ∧ mem bits i = true

/-- all sets have as many words -/
structure Sized (c : RuleCandidates) : Prop where
  universal : c.universal.length = c.words
  lookup : ∀ key bits, c.lookup key = some bits → bits.length = c.words

/-- a rule is put under a key -/
def put (c : RuleCandidates) (i : Nat) : Key → RuleCandidates
  | .tag tag => { c with byTag := setBit c.byTag tag i c.words }
  | .cls cls => { c with byClass := setBit c.byClass cls i c.words }
  | .id id => { c with byId := setBit c.byId id i c.words }

lemma indexPart_eq (i : Nat) (s : RuleCandidates × Bool) (part : SelectorPart) :
    indexPart i s part = (part.key.elim s fun key => (s.1.put i key, true)) := by
  cases part <;> rfl

lemma lookup_put (c : RuleCandidates) (i : Nat) (key key' : Key) : (c.put i key).lookup key' =
    if key' = key then some (insert ((c.lookup key).getD (List.replicate c.words 0#64)) i) else c.lookup key' := by
  cases key <;> cases key' <;>
    simp only [put, lookup, setBit, Function.update_apply, Key.tag.injEq, Key.cls.injEq, Key.id.injEq, reduceCtorEq, if_false]

@[simp] lemma words_put : (c.put i key).words = c.words := by
  cases key <;> rfl

@[simp] lemma universal_put : (c.put i key).universal = c.universal := by
  cases key <;> rfl

lemma length_row (hc : c.Sized) (key : Key) : ((c.lookup key).getD (List.replicate c.words 0#64)).length = c.words := by
  cases hl : c.lookup key with
  | none => exact List.length_replicate
  | some bits => exact hc.lookup key bits hl

lemma Sized.put (hc : c.Sized) : (c.put i key).Sized where
  universal := by
    rw [universal_put, words_put]
    exact hc.universal
  lookup := by
    intro key' bits h
    rw [words_put]
    rw [lookup_put] at h
    split_ifs at h
    · obtain rfl := Option.some.inj h
      rw [length_insert]
      exact length_row hc key
    · exact hc.lookup key' bits h

lemma covers_put (hc : c.Sized) (hi : i < c.words * 64) :
    (c.put i key).Covers key' j ↔ c.Covers key' j ∨ (j = i ∧ key = key') := by
  unfold Covers
  rw [lookup_put, @eq_comm _ key key']
  by_cases hkey : key' = key
  · subst hkey
    have hrow : mem ((c.lookup key').getD (List.replicate c.words 0#64)) j = true ↔
        ∃ bits, c.lookup key' = some bits ∧ mem bits j = true := by
      cases c.lookup key' with
      | none => simp
      | some bits => simp
    simp only [if_true, Option.some.injEq, exists_eq_left', and_true]
    rw [mem_insert (by rw [length_row hc]; exact hi), Bool.or_eq_true, hrow, decide_eq_true_eq]
  · simp only [hkey, if_false, and_false, or_false]

/-! ## the index -/

/-- the parts of one compound -/
lemma indexParts_spec (parts : Compound) (s : RuleCandidates × Bool) (hs : s.1.Sized) (hi : i < s.1.words * 64) :
    (parts.foldl (indexPart i) s).1.Sized ∧ (parts.foldl (indexPart i) s).1.words = s.1.words ∧
      (parts.foldl (indexPart i) s).1.universal = s.1.universal ∧
      ((parts.foldl (indexPart i) s).2 = true ↔ s.2 = true ∨ ∃ part ∈ parts, part.key ≠ none) ∧
      ∀ key j, (parts.foldl (indexPart i) s).1.Covers key j ↔
        s.1.Covers key j ∨ (j = i ∧ ∃ part ∈ parts, part.key = some key) := by
  induction parts generalizing s with
  | nil => exact ⟨hs, rfl, rfl, by simp, by simp⟩
  | cons part parts ih =>
    rw [List.foldl_cons, indexPart_eq]
    cases hkey : part.key with
    | none =>
      obtain ⟨hsize, hwords, huniv, hflag, hcovers⟩ := ih s hs hi
      exact ⟨hsize, hwords, huniv, by simpa [hkey] using hflag, by simpa [hkey] using hcovers⟩
    | some k =>
      obtain ⟨hsize, hwords, huniv, hflag, hcovers⟩ := ih (s.1.put i k, true) hs.put (by simpa using hi)
      refine ⟨hsize, hwords.trans words_put, huniv.trans universal_put, by simpa [hkey] using hflag, fun key j => ?_⟩
      refine (hcovers key j).trans ?_
      rw [covers_put hs hi]
      rw [List.exists_mem_cons_iff, hkey, Option.some.injEq, and_or_left, or_assoc]

/-- the rule is under no key -/
def Unkeyed (rule : CompiledRule δ) : Prop := rule.selector.parts ≠ [] ∧ ∀ part ∈ terminal rule, part.key = none

lemma addRule_spec (hc : c.Sized) (rule : CompiledRule δ) (hi : i < c.words * 64) :
    (c.addRule rule i).Sized ∧ (c.addRule rule i).words = c.words ∧
      (∀ j, mem (c.addRule rule i).universal j = true ↔ mem c.universal j = true ∨ (j = i ∧ Unkeyed rule)) ∧
      ∀ key j, (c.addRule rule i).Covers key j ↔ c.Covers key j ∨ (j = i ∧ ∃ part ∈ terminal rule, part.key = some key) := by
  unfold addRule Unkeyed terminal
  cases hlast : rule.selector.parts.getLast? with
  | none =>
    have hnil : rule.selector.parts = [] := List.getLast?_eq_none_iff.mp hlast
    exact ⟨hc, rfl, by simp [hnil], by simp⟩
  | some last =>
    have hne : rule.selector.parts ≠ [] := fun h => by
      rw [h] at hlast
      cases hlast
    obtain ⟨hsize, hwords, huniv, hflag, hcovers⟩ := indexParts_spec last.1 (c, false) hc hi
    simp only [Option.map_some, Option.getD_some, ne_eq, hne, not_false_eq_true, true_and]
    dsimp only at huniv hwords
    split_ifs with hs
    · obtain ⟨part, hpart, hkey⟩ := (hflag.mp hs).resolve_left Bool.false_ne_true
      refine ⟨hsize, hwords, fun j => ?_, hcovers⟩
      rw [huniv, iff_self_or]
      exact fun h => absurd (h.2 part hpart) hkey
    · have hnone : ∀ part ∈ last.1, part.key = none := by
        intro part hpart
        by_contra hkey
        exact hs (hflag.mpr (.inr ⟨part, hpart, hkey⟩))
      refine ⟨⟨?_, hsize.lookup⟩, hwords, fun j => ?_, hcovers⟩
      · show (insert _ i).length = _
        rw [length_insert]
        exact hsize.universal
      · rw [huniv, mem_insert (by rw [hc.universal]; exact hi), Bool.or_eq_true, decide_eq_true_eq]
        exact or_congr_right (and_iff_left hnone).symm

lemma addRules_spec (xs : List (CompiledRule δ × Nat)) (hc : c.Sized) (hxs : ∀ x ∈ xs, x.2 < c.words * 64) :
    (xs.foldl (fun c x => c.addRule x.1 x.2) c).Sized ∧ (xs.foldl (fun c x => c.addRule x.1 x.2) c).words = c.words ∧
      (∀ j, mem (xs.foldl (fun c x => c.addRule x.1 x.2) c).universal j = true ↔
        mem c.universal j = true ∨ ∃ x ∈ xs, j = x.2 ∧ Unkeyed x.1) ∧
      ∀ key j, (xs.foldl (fun c x => c.addRule x.1 x.2) c).Covers key j ↔
        c.Covers key j ∨ ∃ x ∈ xs, j = x.2 ∧ ∃ part ∈ terminal x.1, part.key = some key := by
  induction xs generalizing c with
  | nil => exact ⟨hc, rfl, by simp, by simp⟩
  | cons x xs ih =>
    obtain ⟨hsize, hwords, huniv, hcovers⟩ := addRule_spec hc x.1 (hxs x List.mem_cons_self)
    obtain ⟨hsize', hwords', huniv', hcovers'⟩ := ih hsize fun y hy => by
      rw [hwords]
      exact hxs y (List.mem_cons_of_mem _ hy)
    refine ⟨hsize', hwords'.trans hwords, fun j => ?_, fun key j => ?_⟩
    · refine (huniv' j).trans ?_
      rw [huniv, List.exists_mem_cons_iff, or_assoc]
    · refine (hcovers' key j).trans ?_
      rw [hcovers, List.exists_mem_cons_iff, or_assoc]

lemma empty_sized (n : Nat) : (empty n).Sized where
  universal := List.length_replicate
  lookup := by
    intro key bits h
    cases key <;> cases h

lemma words_bound (n : Nat) : n ≤ (n + 63) / 64 * 64 := by
  omega

lemma build_spec (rules : List (CompiledRule δ)) :
    (build rules).Sized ∧ (build rules).words = (rules.length + 63) / 64 ∧
      (∀ j, mem (build rules).universal j = true ↔ ∃ rule, rules[j]? = some rule ∧ Unkeyed rule) ∧
      ∀ key j, (build rules).Covers key j ↔ ∃ rule, rules[j]? = some rule ∧ ∃ part ∈ terminal rule, part.key = some key := by
  have hxs : ∀ x ∈ rules.zipIdx, x.2 < (empty ((rules.length + 63) / 64)).words * 64 := by
    intro x hx
    exact Nat.lt_of_lt_of_le (List.getElem?_eq_some_iff.mp (List.mem_zipIdx_iff_getElem?.mp hx)).1 (words_bound _)
  obtain ⟨hsize, hwords, huniv, hcovers⟩ := addRules_spec rules.zipIdx (empty_sized _) hxs
  have hex : ∀ (P : CompiledRule δ → Prop) j, (∃ x ∈ rules.zipIdx, j = x.2 ∧ P x.1) ↔ ∃ rule, rules[j]? = some rule ∧ P rule := by
    intro P j
    constructor
    · rintro ⟨x, hx, rfl, hP⟩
      exact ⟨x.1, List.mem_zipIdx_iff_getElem?.mp hx, hP⟩
    · rintro ⟨rule, hrule, hP⟩
      exact ⟨(rule, j), List.mem_zipIdx_iff_getElem?.mpr hrule, rfl, hP⟩
  refine ⟨hsize, hwords, fun j => (huniv j).trans ?_, fun key j => (hcovers key j).trans ?_⟩
  · rw [hex]
    simp [empty]
  · refine (or_iff_right ?_).trans (hex (fun rule => ∃ part ∈ terminal rule, part.key = some key) j)
    rintro ⟨bits, hbits, -⟩
    cases key <;> cases hbits

/-! ## the mask -/

lemma length_merge (mask : Words) (bits : Option Words) : (merge mask bits).length = mask.length := by
  cases bits with
  | none => rfl
  | some bits => exact length_union

lemma mem_merge (hc : c.Sized) {mask : Words} (hmask : mask.length = c.words) :
    mem (merge mask (c.lookup key)) j = true ↔ mem mask j = true ∨ c.Covers key j := by
  unfold Covers
  cases hl : c.lookup key with
  | none => simp [merge]
  | some bits =>
    rw [merge, mem_union (by rw [hmask, hc.lookup key bits hl]), Bool.or_eq_true]
    simp

lemma mem_mergeAll (hc : c.Sized) (keys : List Key) {mask : Words} (hmask : mask.length = c.words) :
    (keys.foldl (fun mask key => merge mask (c.lookup key)) mask).length = c.words ∧
      (mem (keys.foldl (fun mask key => merge mask (c.lookup key)) mask) j = true ↔
        mem mask j = true ∨ ∃ key ∈ keys, c.Covers key j) := by
  induction keys generalizing mask with
  | nil => exact ⟨hmask, by simp⟩
  | cons key keys ih =>
    obtain ⟨hlen, hmem⟩ := ih ((length_merge mask (c.lookup key)).trans hmask)
    refine ⟨hlen, hmem.trans ?_⟩
    rw [mem_merge hc hmask, List.exists_mem_cons_iff, or_assoc]

/-- what an element can be asked for, in the order of the lookups -/
def elementKeys (element : Element) : List Key :=
  .tag (tagName element.tag) :: (element.id.map Key.id).toList ++ element.classes.map Key.cls

lemma mem_elementKeys {element : Element} : key ∈ elementKeys element ↔ Has element key := by
  cases key with
  | tag tag => simp [elementKeys, Has, eq_comm]
  | cls cls => simp [elementKeys, Has]
  | id id => simp [elementKeys, Has]

lemma matchingMask_eq (c : RuleCandidates) (element : Element) :
    c.matchingMask (tagName element.tag) element.id element.classes =
      (elementKeys element).foldl (fun mask key => merge mask (c.lookup key)) c.universal := by
  unfold matchingMask elementKeys
  rw [List.foldl_append, List.foldl_map]
  cases element.id <;> rfl

/-- **What the index gives for an element**: the rules under no key, and those under a key that the element has. -/
theorem mem_matchingMask (rules : List (CompiledRule δ)) (element : Element) :
    (candidateMask element rules).length = (rules.length + 63) / 64 ∧
      ∀ j, mem (candidateMask element rules) j = true ↔ ∃ rule, rules[j]? = some rule ∧
        (Unkeyed rule ∨ ∃ part ∈ terminal rule, ∃ key, part.key = some key ∧ Has element key) := by
  obtain ⟨hsize, hwords, huniv, hcovers⟩ := build_spec rules
  unfold candidateMask
  rw [matchingMask_eq]
  refine ⟨(@mem_mergeAll _ 0 hsize (elementKeys element) _ hsize.universal).1.trans hwords, fun j => ?_⟩
  refine (mem_mergeAll hsize (elementKeys element) hsize.universal).2.trans ?_
  simp only [huniv, hcovers, mem_elementKeys]
  constructor
  · rintro (⟨rule, hrule, hun⟩ | ⟨key, hhas, rule, hrule, part, hpart, hkey⟩)
    · exact ⟨rule, hrule, .inl hun⟩
    · exact ⟨rule, hrule, .inr ⟨part, hpart, key, hkey, hhas⟩⟩
  · rintro ⟨rule, hrule, hun | ⟨part, hpart, key, hkey, hhas⟩⟩
    · exact .inl ⟨rule, hrule, hun⟩
    · exact .inr ⟨key, hhas, rule, hrule, part, hpart, hkey⟩

end RuleCandidates

/-! ## the rules that are given -/

section
variable {δ : Type*} {rules : List (CompiledRule δ)} {a : NodeArena} {on : Interaction} {nodeId : NodeId} {element : Element}

/-- a rule that matches is given -/
lemma mem_of_matches {i : Nat} {rule : CompiledRule δ} (hrule : rules[i]? = some rule)
    (h : selectorMatches a on rule.selector nodeId element = true) : mem (candidateMask element rules) i = true := by
  obtain ⟨-, hmem⟩ := RuleCandidates.mem_matchingMask rules element
  refine (hmem i).mpr ⟨rule, hrule, ?_⟩
  obtain ⟨last, hlast, hfit⟩ := last_of_matches h
  have hterminal : terminal rule = last.1 := by
    rw [terminal, hlast]
    rfl
  by_cases hkeyed : ∀ part ∈ last.1, part.key = none
  · refine .inl ⟨fun hnil => ?_, by rwa [hterminal]⟩
    rw [hnil] at hlast
    cases hlast
  · push Not at hkeyed
    obtain ⟨part, hpart, hkey⟩ := hkeyed
    obtain ⟨key, hkey⟩ := Option.ne_none_iff_exists'.mp hkey
    exact .inr ⟨part, hterminal ▸ hpart, key, hkey, has_of_matches (hfit part hpart) hkey⟩

/-- the rules that are given, as places in the list -/
def candidates (element : Element) (rules : List (CompiledRule δ)) : List Nat := members (candidateMask element rules)

lemma candidates_eq : candidates element rules =
    (List.range ((rules.length + 63) / 64 * 64)).filter fun i => mem (candidateMask element rules) i := by
  unfold candidates
  rw [members_eq (by decide), (RuleCandidates.mem_matchingMask rules element).1]

lemma range_filterMap (rules : List (CompiledRule δ)) {n : Nat} (h : rules.length ≤ n) :
    (List.range n).filterMap (fun i => rules[i]?) = rules := by
  induction rules generalizing n with
  | nil => simp
  | cons rule rules ih =>
    obtain ⟨n, rfl⟩ := Nat.exists_eq_add_of_le' (Nat.lt_of_lt_of_le (Nat.succ_pos _) h)
    rw [List.range_succ_eq_map, @List.filterMap_cons_some _ _ (fun i => (rule :: rules)[i]?) _ _ _ rfl, List.filterMap_map]
    exact congrArg (rule :: ·) (ih (Nat.le_of_succ_le_succ h))

variable {σ : Type*} (apply : σ → δ → σ) (target : Option PseudoElement)

/-- the cascade over the words is the one over the places -/
lemma applyCandidates_eq (style : σ) : applyCandidates apply a on nodeId element target rules style =
    (candidates element rules).foldl (applyAt apply a on nodeId element target rules) style := by
  unfold applyCandidates candidates members
  rw [List.foldl_flatMap]
  refine congrArg (fun f => List.foldl f style _) (funext fun style => funext fun x => ?_)
  rw [List.foldl_map]
  rfl

/-- a place that is not given changes nothing -/
lemma applyAt_skipped {i : Nat} (h : ¬mem (candidateMask element rules) i = true) (style : σ) :
    applyAt apply a on nodeId element target rules style i = style := by
  unfold applyAt
  cases hrule : rules[i]? with
  | none => rfl
  | some rule =>
    have hno : ¬selectorMatches a on rule.selector nodeId element = true := fun hmatch => h (mem_of_matches hrule hmatch)
    show applyRule apply a on nodeId element target style rule = style
    unfold applyRule
    rw [if_neg hno, ite_self]

/-- the cascade over all places is the one over the rules -/
lemma foldl_applyAt {n : Nat} (h : rules.length ≤ n) (style : σ) :
    (List.range n).foldl (applyAt apply a on nodeId element target rules) style =
      rules.foldl (applyRule apply a on nodeId element target) style := by
  conv_rhs => rw [← range_filterMap rules h, List.foldl_filterMap]
  refine congrArg (fun f => List.foldl f style _) (funext fun style => funext fun i => ?_)
  unfold applyAt
  cases rules[i]? <;> rfl

/-- **The index changes no style.** -/
theorem applyCandidates_all (style : σ) : applyCandidates apply a on nodeId element target rules style =
    rules.foldl (applyRule apply a on nodeId element target) style := by
  rw [applyCandidates_eq, candidates_eq, List.foldl_filter,
    ← foldl_applyAt apply target (RuleCandidates.words_bound rules.length)]
  refine congrArg (fun f => List.foldl f style _) (funext fun style => funext fun i => ?_)
  split_ifs with h
  · rfl
  · exact (applyAt_skipped apply target h style).symm

end

/-- **Main result.** The places that the index gives are some of the list, in its order and each once; those of the rules
that match are among them; and whatever a declaration does, the style is that of all the rules one after the other. -/
theorem candidates_exact {δ : Type*} (rules : List (CompiledRule δ)) (a : NodeArena) (on : Interaction) (nodeId : NodeId)
    (element : Element) :
    (candidates element rules).Pairwise (· < ·) ∧ (∀ i ∈ candidates element rules, i < rules.length) ∧
      ((candidates element rules).filterMap fun i => rules[i]?).Sublist rules ∧
      (∀ i rule, rules[i]? = some rule → selectorMatches a on rule.selector nodeId element = true →
        i ∈ candidates element rules) ∧
      ∀ {σ : Type*} (apply : σ → δ → σ) (target : Option PseudoElement) (style : σ),
        applyCandidates apply a on nodeId element target rules style =
          rules.foldl (applyRule apply a on nodeId element target) style := by
  have hbound := RuleCandidates.words_bound rules.length
  rw [candidates_eq]
  refine ⟨List.pairwise_lt_range.filter _, fun i hi => ?_, ?_, fun i rule hrule hmatch => ?_, fun apply target style =>
    applyCandidates_all apply target style⟩
  · obtain ⟨rule, hrule, -⟩ := ((RuleCandidates.mem_matchingMask rules element).2 i).mp (List.mem_filter.mp hi).2
    exact (List.getElem?_eq_some_iff.mp hrule).1
  · conv_rhs => rw [← range_filterMap rules hbound]
    exact List.filter_sublist.filterMap _
  · refine List.mem_filter.mpr ⟨List.mem_range.mpr ?_, mem_of_matches hrule hmatch⟩
    exact Nat.lt_of_lt_of_le (List.getElem?_eq_some_iff.mp hrule).1 hbound

end TerminalManager.Style
