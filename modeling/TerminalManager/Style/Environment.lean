import TerminalManager.Style.TokenScopes
import TerminalManager.Style.Matching
import Mathlib.Data.Prod.Lex

/-!
# The custom properties of an element

* `activeRootScopeFor`, `selfScopeVarsFor`   the theme of the document, and the scope of the element itself;
* `tokenEnv`, `ScopeEnv.get`                 the environment of an element;
* `documentRoot_eq`                          the root that is found is that of the tree;
* `foldl_best`                               the scope that is kept has the highest rank;
* `Block.IsBase`, `Block.IsActive`, `Block.IsSelf`   the blocks of a stylesheet that an element sees;
* `tokenEnv_exact`                           its environment is what these blocks declare.

The environment has one place for the element itself: of the scopes that match it, the one of highest specificity has it.
-/

namespace TerminalManager.Style
open Reconcile Ownership LinkedTree Grouping
open Keybinds (trim)

section
variable (a : NodeArena) (on : Interaction)

/-- the way up to the node without a parent; `fuel` bounds it -/
def documentRootFrom : Nat → NodeId → NodeId
  | 0, id => id
  | fuel + 1, id =>
    match (a.get id).bind fun e => e.parent with
    | some parent => documentRootFrom fuel parent
    | none => id

def documentRoot (id : NodeId) : NodeId := documentRootFrom a (a.nodes.length + 1) id

def TokenScope.matchesAt (nodeId : NodeId) (element : Element) (scope : TokenScope) : Bool :=
  match scope.selector with
  | some chain => selectorMatches a on chain nodeId element
  | none => false

/-- the first scope that matches the root of the document -/
def activeRootScopeFor (scopes : TokenScopes) (nodeId : NodeId) : Option Nat :=
  if scopes.nonBase.isEmpty then none
  else
    match a.get (documentRoot a nodeId) with
    | some root => (scopes.nonBase.find? (·.matchesAt a atRest (documentRoot a nodeId) root)).map TokenScope.key
    | none => none

abbrev Rank := ℕ ×ₗ ℕ ×ₗ ℕ ×ₗ ℕ

def Specificity.rank (s : Specificity) (order : Nat) : Rank :=
  toLex (s.ids.toNat, toLex (s.classes.toNat, toLex (s.tags.toNat, order)))

def TokenScope.rank (scope : TokenScope) : Rank := scope.specificity.rank scope.sourceOrder

/-- a later scope wins over one of its rank -/
def keepBest {α : Type} (rank : α → Rank) (best : Option α) (x : α) : Option α :=
  match best with
  | none => some x
  | some b => if rank b ≤ rank x then some x else some b

def selfScopeVarsFor (scopes : TokenScopes) (nodeId : NodeId) (element : Element) (active : Option Nat) : Option Vars :=
  if scopes.nonBase.isEmpty then none
  else if !scopes.elementMayHaveSelfScope element.classes then none
  else
    (scopes.nonBase.foldl (fun best scope =>
      if some scope.key ≠ active ∧ scope.matchesAt a on nodeId element = true then keepBest TokenScope.rank best scope
      else best) none).map TokenScope.vars

/-- the maps that a name is looked up in, one after the other -/
structure ScopeEnv where
  maps : List (Option Vars)

def ScopeEnv.get (env : ScopeEnv) (name : List Char) : Option (List Char) :=
  env.maps.findSome? fun vars => vars.bind (·.get name)

def tokenEnv (css : List Char) (nodeId : NodeId) (element : Element) : ScopeEnv :=
  let scopes := collectTokenScopes css
  let active := activeRootScopeFor a scopes nodeId
  ⟨[selfScopeVarsFor a on scopes nodeId element active, active.bind scopes.varsFor, scopes.baseVars]⟩

end

/-! ## the root -/

section
variable {a : NodeArena} {t : ElementTree}

lemma parent_of_chain (ts : List ElementTree) {id : NodeId} {prev next : Option NodeId} {c : Cell}
    (h : c ∈ chain id prev next ts) : c.2.1.parent ≠ none := by
  have htree : ∀ (t : ElementTree) (parent : NodeId) (prev next : Option NodeId),
      ∀ c ∈ t.cells (some parent) prev next, c.2.1.parent ≠ none := by
    intro t
    induction t using Rose.induct with
    | h i data children ih =>
      have hkids : ∀ (us : List ElementTree), (∀ u ∈ us, u ∈ children) → ∀ (p : NodeId) (prev next : Option NodeId),
          ∀ c ∈ chain p prev next us, c.2.1.parent ≠ none := by
        intro us
        induction us with
        | nil =>
          intro _ p prev next c hc
          rw [chain_nil] at hc
          cases hc
        | cons u us ihus =>
          intro hus p prev next c hc
          rw [chain_cons] at hc
          rcases List.mem_append.mp hc with hc | hc
          · exact ih u (hus u List.mem_cons_self) _ _ _ c hc
          · exact ihus (fun v hv => hus v (List.mem_cons_of_mem _ hv)) _ _ _ c hc
      intro parent prev next c hc
      rw [cells_eq] at hc
      rcases List.mem_cons.mp hc with rfl | hc
      · exact Option.some_ne_none _
      · exact hkids children (fun _ h => h) _ _ _ c hc
  induction ts generalizing prev with
  | nil =>
    rw [chain_nil] at h
    cases h
  | cons t ts ih =>
    rw [chain_cons] at h
    rcases List.mem_append.mp h with h | h
    · exact htree t _ _ _ c h
    · exact ih h

/-- the root of a tree is its only node without a parent -/
lemma root_of_parent (h : Holds a t) {id : NodeId} {e : Element} (he : a.get id = some e) (hparent : e.parent = none) :
    id = t.id := by
  have hmem : id ∈ (t.cells none none none).map Prod.fst := by
    by_contra hout
    have hnone := h.outside id hout
    unfold NodeArena.heap at hnone
    rw [he] at hnone
    cases hnone
  obtain ⟨c, hc, rfl⟩ := List.mem_map.mp hmem
  obtain ⟨e', he', hlinks, -⟩ := NodeArena.get_of_heap (h.stored c hc)
  obtain rfl := Option.some.inj (he.symm.trans he')
  rw [cells_eq] at hc
  rcases List.mem_cons.mp hc with rfl | hc
  · rfl
  · exact absurd ((congrArg Links.parent hlinks).symm.trans hparent) (parent_of_chain _ hc)

/-- **The root that is found is that of the tree.** -/
theorem documentRoot_eq (h : Holds a t) {id : NodeId} {e : Element} (he : a.get id = some e) : documentRoot a id = t.id := by
  have hrun : ∀ (path : List NodeId) (id : NodeId) (e : Element) (fuel : Nat), a.get id = some e → Climbs a e.parent path →
      path.length < fuel → documentRootFrom a fuel id = t.id := by
    intro path
    induction path with
    | nil =>
      intro id e fuel he hpath hfuel
      obtain ⟨fuel, rfl⟩ := Nat.exists_eq_add_of_le' (Nat.lt_of_le_of_lt (Nat.zero_le _) hfuel)
      have hparent : e.parent = none := by
        generalize hlink : e.parent = link at hpath
        cases hpath
        rfl
      rw [documentRootFrom, he, Option.bind_some, hparent]
      exact root_of_parent h he hparent
    | cons v path ih =>
      intro id e fuel he hpath hfuel
      obtain ⟨fuel, rfl⟩ := Nat.exists_eq_add_of_le' (Nat.lt_of_le_of_lt (Nat.zero_le _) hfuel)
      obtain ⟨e', he', hpath'⟩ := climbs_head hpath
      have hparent : e.parent = some v := by
        generalize hlink : e.parent = link at hpath
        cases hpath
        rfl
      rw [documentRootFrom, he, Option.bind_some, hparent]
      exact ih v e' fuel he' hpath' (Nat.lt_of_succ_lt_succ hfuel)
  obtain ⟨path, hpath⟩ := rooted_of_holds h id e he
  exact hrun path id e _ he hpath (Nat.lt_succ_of_le hpath.length_le)

end

/-! ## the best scope -/

/-- what is kept of a list: nothing, or an element of it that may be kept and has the highest rank -/
def IsBest {α : Type} (may : α → Prop) (rank : α → Rank) (xs : List α) : Option α → Prop
  | none => ∀ x ∈ xs, ¬may x
  | some m => m ∈ xs ∧ may m ∧ ∀ x ∈ xs, may x → rank x ≤ rank m

lemma foldl_best {α : Type} (may : α → Prop) [DecidablePred may] (rank : α → Rank) (xs : List α) :
    IsBest may rank xs (xs.foldl (fun best x => if may x then keepBest rank best x else best) none) := by
  induction xs using List.reverseRecOn with
  | nil => exact fun x hx => by cases hx
  | append_singleton xs x ih =>
    rw [List.foldl_append, List.foldl_cons, List.foldl_nil]
    generalize xs.foldl _ none = best at ih
    by_cases hx : may x
    · rw [if_pos hx]
      cases best with
      | none =>
        refine ⟨List.mem_append_right _ (List.mem_singleton_self x), hx, fun y hy hmay => ?_⟩
        rcases List.mem_append.mp hy with hy | hy
        · exact absurd hmay (ih y hy)
        · rw [List.mem_singleton.mp hy]
      | some b =>
        obtain ⟨hb, hmay, hmax⟩ := ih
        unfold keepBest
        dsimp only
        split_ifs with hle
        · refine ⟨List.mem_append_right _ (List.mem_singleton_self x), hx, fun y hy hmay' => ?_⟩
          rcases List.mem_append.mp hy with hy | hy
          · exact (hmax y hy hmay').trans hle
          · rw [List.mem_singleton.mp hy]
        · refine ⟨List.mem_append_left _ hb, hmay, fun y hy hmay' => ?_⟩
          rcases List.mem_append.mp hy with hy | hy
          · exact hmax y hy hmay'
          · rw [List.mem_singleton.mp hy]
            exact (lt_of_not_ge hle).le
    · rw [if_neg hx]
      cases best with
      | none =>
        intro y hy
        rcases List.mem_append.mp hy with hy | hy
        · exact ih y hy
        · rwa [List.mem_singleton.mp hy]
      | some b =>
        obtain ⟨hb, hmay, hmax⟩ := ih
        refine ⟨List.mem_append_left _ hb, hmay, fun y hy hmay' => ?_⟩
        rcases List.mem_append.mp hy with hy | hy
        · exact hmax y hy hmay'
        · exact absurd (List.mem_singleton.mp hy ▸ hmay') hx

/-! ## what a stylesheet means -/

namespace Block

def branches (b : Block) : List (List Char) := (splitTopLevelCommas b.selector).map trim

def IsBase (b : Block) : Prop := ∃ branch ∈ b.branches, branch = rootText ∨ branch = ['*']

/-- a branch of the selector matches the element -/
def Hits (a : NodeArena) (on : Interaction) (id : NodeId) (e : Element) (b : Block) : Prop :=
  ∃ branch ∈ b.branches, ∃ chain, parseSelectorString branch = some chain ∧ selectorMatches a on chain id e = true

/-- the block declares something and is not for every element -/
def IsTheme (b : Block) : Prop := b.vars ≠ [] ∧ ¬b.IsBase

/-- the block has the selector of the first theme that matches the root -/
def IsActive (a : NodeArena) (rootId : NodeId) (root : Element) (blocks : List Block) (b : Block) : Prop :=
  ∃ us first vs, blocks = us ++ first :: vs ∧ (first.IsTheme ∧ first.Hits a atRest rootId root) ∧
    (∀ c ∈ us, ¬(c.IsTheme ∧ c.Hits a atRest rootId root)) ∧ b.IsTheme ∧ b.text = first.text

/-- the place of the first block that declares something for the selector -/
def place (blocks : List Block) (text : List Char) : Nat :=
  (blocks.findIdx? fun c => decide (c.vars ≠ []) && decide (c.text = text)).getD 0

def rank (blocks : List Block) (b : Block) : Rank := (selectorSpecificity b.text).rank (place blocks b.text)

/-- the block may be for the element itself -/
def MayBeSelf (a : NodeArena) (on : Interaction) (id : NodeId) (e : Element) (rootId : NodeId) (root : Element)
    (blocks : List Block) (b : Block) : Prop :=
  b.IsTheme ∧ b.Hits a on id e ∧ ¬b.IsActive a rootId root blocks

/-- of these blocks, it has the highest rank -/
def IsSelf (a : NodeArena) (on : Interaction) (id : NodeId) (e : Element) (rootId : NodeId) (root : Element)
    (blocks : List Block) (b : Block) : Prop :=
  b.MayBeSelf a on id e rootId root blocks ∧
    ∀ c ∈ blocks, c.MayBeSelf a on id e rootId root blocks → rank blocks c ≤ rank blocks b

end Block

open Classical in
/-- what the blocks of a kind declare, one after the other -/
noncomputable def declaredBy (P : Block → Prop) (blocks : List Block) : Vars := (blocks.filter fun b => P b).flatMap Block.vars

section
variable {blocks : List Block} {P Q : Block → Prop}

open Classical in
lemma declaredBy_cons (b : Block) (blocks : List Block) :
    declaredBy P (b :: blocks) = (if P b then b.vars else []) ++ declaredBy P blocks := by
  unfold declaredBy
  rw [List.filter_cons]
  by_cases h : P b
  · simp [h]
  · simp [h]

lemma declaredBy_congr (h : ∀ b ∈ blocks, b.vars ≠ [] → (P b ↔ Q b)) : declaredBy P blocks = declaredBy Q blocks := by
  induction blocks with
  | nil => rfl
  | cons b blocks ih =>
    rw [declaredBy_cons, declaredBy_cons, ih fun c hc => h c (List.mem_cons_of_mem _ hc)]
    by_cases hvars : b.vars = []
    · rw [hvars, ite_self, ite_self]
    · have hb := h b List.mem_cons_self hvars
      by_cases hP : P b
      · rw [if_pos hP, if_pos (hb.mp hP)]
      · rw [if_neg hP, if_neg (mt hb.mpr hP)]

lemma declaredBy_nil (h : ∀ b ∈ blocks, b.vars ≠ [] → ¬P b) : declaredBy P blocks = [] := by
  rw [declaredBy_congr fun b hb hvars => iff_false_intro (h b hb hvars)]
  unfold declaredBy
  rw [List.filter_eq_nil_iff.mpr fun b _ => by simp, List.flatMap_nil]

lemma mem_declaredBy {x : List Char × List Char} : x ∈ declaredBy P blocks ↔ ∃ b ∈ blocks, P b ∧ x ∈ b.vars := by
  unfold declaredBy
  simp only [List.mem_flatMap, List.mem_filter, decide_eq_true_eq, and_assoc]

lemma get_isSome {vars : Vars} {name : List Char} : (vars.get name).isSome = true ↔ ∃ value, (name, value) ∈ vars := by
  unfold Vars.get
  rw [Option.isSome_map, List.find?_isSome]
  constructor
  · rintro ⟨x, hx, hname⟩
    obtain rfl := of_decide_eq_true hname
    exact ⟨x.2, List.mem_reverse.mp hx⟩
  · rintro ⟨value, hmem⟩
    exact ⟨(name, value), List.mem_reverse.mpr hmem, decide_eq_true rfl⟩

/-! ## the entries of blocks -/

def blockEntries (n : Nat) (blocks : List Block) : List (Option (List Char) × (Nat × Vars)) :=
  (blocks.zipIdx n).filterMap fun x => if x.1.vars.isEmpty then none else some (slotOf x.1.text, (x.2, x.1.vars))

lemma entries_blocks (blocks : List Block) : entries (blocks.map fun b => (b.text, b.body)) = blockEntries 0 blocks := by
  unfold entries blockEntries
  rw [List.zipIdx_map, List.filterMap_map]
  rfl

lemma blockEntries_cons (n : Nat) (b : Block) (blocks : List Block) : blockEntries n (b :: blocks) =
    (if b.vars = [] then [] else [(slotOf b.text, (n, b.vars))]) ++ blockEntries (n + 1) blocks := by
  unfold blockEntries
  rw [List.zipIdx_cons, List.filterMap_cons]
  simp only [List.isEmpty_iff]
  split_ifs <;> rfl

lemma mem_blockKeys {n : Nat} {slot : Option (List Char)} :
    slot ∈ keys (blockEntries n blocks) ↔ ∃ b ∈ blocks, b.vars ≠ [] ∧ slotOf b.text = slot := by
  rw [mem_keys]
  induction blocks generalizing n with
  | nil => simp [blockEntries]
  | cons b blocks ih =>
    rw [blockEntries_cons, List.exists_mem_cons_iff, ← @ih (n + 1)]
    split_ifs with h
    · simp [h]
    · simp [h]

lemma slotVars_blocks (n : Nat) (blocks : List Block) (slot : Option (List Char)) :
    slotVars (blockEntries n blocks) slot = declaredBy (fun b => slotOf b.text = slot) blocks := by
  unfold slotVars group
  induction blocks generalizing n with
  | nil => rfl
  | cons b blocks ih =>
    rw [blockEntries_cons, List.filter_append, List.map_append, List.flatMap_append, ih (n + 1), declaredBy_cons]
    congr 1
    by_cases hvars : b.vars = []
    · rw [hvars, ite_self]
      rfl
    · by_cases hslot : slotOf b.text = slot
      · simp [hvars, hslot]
      · simp [hvars, hslot]

lemma slotOrder_blocks (n : Nat) (blocks : List Block) (slot : Option (List Char)) :
    (group (blockEntries n blocks) slot).head?.map Prod.fst =
      (blocks.findIdx? fun b => decide (b.vars ≠ []) && decide (slotOf b.text = slot)).map (n + ·) := by
  unfold group
  induction blocks generalizing n with
  | nil => rfl
  | cons b blocks ih =>
    rw [blockEntries_cons, List.filter_append, List.map_append, List.findIdx?_cons]
    by_cases hvars : b.vars = []
    · rw [if_pos hvars, List.filter_nil, List.map_nil, List.nil_append, ih (n + 1)]
      simp [hvars, Function.comp_def, Nat.add_assoc, Nat.add_comm 1]
    · by_cases hslot : slotOf b.text = slot
      · simp [hvars, hslot]
      · rw [if_neg hvars, List.filter_cons_of_neg (by simpa using hslot), List.filter_nil, List.map_nil, List.nil_append,
          ih (n + 1)]
        simp [hslot, Function.comp_def, Nat.add_assoc, Nat.add_comm 1]

lemma slotOf_eq {text : List Char} {slot : List Char} : slotOf text = some slot ↔ isBaseText text = false ∧ text = slot := by
  unfold slotOf
  split_ifs with h
  · exact iff_of_false (fun h' => by cases h') fun h' => Bool.false_ne_true (h'.1.symm.trans h)
  · rw [Option.some.injEq, and_iff_right (Bool.eq_false_iff.mpr h)]

lemma themes_find (n : Nat) (blocks : List Block) (p : List Char → Bool) : (themes (blockEntries n blocks)).find? p =
    (blocks.find? fun b => decide (b.vars ≠ []) && (slotOf b.text).any p).map Block.text := by
  have hfind : (themes (blockEntries n blocks)).find? p =
      (((blockEntries n blocks).find? fun x => x.1.any p).map Prod.fst).bind fun slot => slot := by
    unfold themes
    rw [List.find?_filterMap, find_keys]
  rw [hfind]
  clear hfind
  induction blocks generalizing n with
  | nil => rfl
  | cons b blocks ih =>
    rw [blockEntries_cons, List.find?_append, List.find?_cons]
    by_cases hvars : b.vars = []
    · rw [if_pos hvars, List.find?_nil, Option.none_or, ih (n + 1)]
      simp [hvars]
    · rw [if_neg hvars, List.find?_singleton]
      dsimp only
      cases hany : (slotOf b.text).any p with
      | false =>
        rw [if_neg Bool.false_ne_true, Option.none_or, ih (n + 1), Bool.and_false]
      | true =>
        have hslot : slotOf b.text = some b.text := by
          cases hs : slotOf b.text with
          | none =>
            rw [hs] at hany
            cases hany
          | some text => rw [(slotOf_eq.mp hs).2]
        rw [if_pos rfl, decide_eq_true hvars, hslot]
        rfl

end

/-! ## blocks without commas -/

section
variable {b : Block} {a : NodeArena} {on : Interaction} {id : NodeId} {e : Element}

/-- a selector text matches the element -/
def textHits (a : NodeArena) (on : Interaction) (id : NodeId) (e : Element) (text : List Char) : Bool :=
  (parseSelectorString text).any fun chain => selectorMatches a on chain id e

lemma isBase_iff (h : ',' ∉ b.selector) : b.IsBase ↔ isBaseText b.text = true := by
  unfold Block.IsBase Block.branches isBaseText
  rw [splitTopLevelCommas_eq h, Bool.or_eq_true, decide_eq_true_eq, decide_eq_true_eq]
  simp [Block.text]

lemma hits_iff (h : ',' ∉ b.selector) : b.Hits a on id e ↔ textHits a on id e b.text = true := by
  unfold Block.Hits Block.branches textHits
  rw [splitTopLevelCommas_eq h, Option.any_eq_true]
  simp [Block.text]

lemma isTheme_iff (h : ',' ∉ b.selector) (hvars : b.vars ≠ []) : b.IsTheme ↔ slotOf b.text = some b.text := by
  unfold Block.IsTheme
  rw [isBase_iff h, slotOf_eq, Bool.not_eq_true]
  simp [hvars]

lemma matchesAt_eq (xs : List (Option (List Char) × (Nat × Vars))) (i : Nat) (text : List Char) :
    (themeScope xs i text).matchesAt a on id e = textHits a on id e text := by
  unfold TokenScope.matchesAt textHits themeScope
  dsimp only
  cases parseSelectorString text <;> rfl

end

/-! ## the environment -/

/-- a theme is found by its text and by its key -/
lemma find_zipIdx {ts : List (List Char)} (hnd : ts.Nodup) (n : Nat) (p : List Char → Bool) :
    ((ts.zipIdx n).find? fun x => p x.1).map Prod.fst = ts.find? p ∧
      ∀ y ∈ ts.zipIdx n, some y.2 = ((ts.zipIdx n).find? fun x => p x.1).map Prod.snd ↔ some y.1 = ts.find? p := by
  have hfst : ((ts.zipIdx n).find? fun x => p x.1).map Prod.fst = ts.find? p := by
    conv_rhs => rw [← List.zipIdx_map_fst n ts, List.find?_map]
    rfl
  refine ⟨hfst, fun y hy => ?_⟩
  rw [← hfst]
  cases hfind : (ts.zipIdx n).find? fun x => p x.1 with
  | none => exact iff_of_false (fun h => by cases h) fun h => by cases h
  | some z =>
    have hz := List.mem_of_find?_eq_some hfind
    rw [Option.map_some, Option.map_some, Option.some.injEq, Option.some.injEq]
    have hy' := List.mk_mem_zipIdx_iff_le_and_getElem?_sub.mp hy
    have hz' := List.mk_mem_zipIdx_iff_le_and_getElem?_sub.mp hz
    constructor
    · intro heq
      rw [heq] at hy'
      exact Option.some.inj (hy'.2.symm.trans hz'.2)
    · intro heq
      have hidx := (List.getElem?_inj (List.getElem?_eq_some_iff.mp hy'.2).1 hnd).mp
        (hy'.2.trans ((congrArg some heq).trans hz'.2.symm))
      omega

/-- the text is that of plain rules; the selectors of blocks with custom properties are not grouped, and one of them is
`:root` or `*` -/
structure Writes (css : List Char) (blocks : List Block) : Prop where
  text : ∃ tail, '{' ∉ tail ∧ stripCssComments css = blocks.flatMap Block.render ++ tail
  single : ∀ b ∈ blocks, b.vars ≠ [] → ',' ∉ b.selector
  base : (∃ b ∈ blocks, b.vars ≠ [] ∧ b.IsBase) ∨ ∀ b ∈ blocks, b.vars = []

/-- the themes of a stylesheet with their keys -/
def themeKeys (blocks : List Block) : List (List Char × Nat) := (themes (blockEntries 0 blocks)).zipIdx 1

lemma themes_nodup (blocks : List Block) : (themes (blockEntries 0 blocks)).Nodup :=
  (nodup_keys (blockEntries 0 blocks)).filterMap fun _ _ _ h h' => by
    rw [Option.mem_def] at h h'
    rw [h, h']

def themeScopes (blocks : List Block) : List TokenScope :=
  (themeKeys blocks).map fun x => themeScope (blockEntries 0 blocks) x.2 x.1

/-- the scopes are that of `:root` and `*`, and those of the themes -/
def HasScopes (css : List Char) (blocks : List Block) : Prop :=
  (collectTokenScopes css).scopes = baseScope (blockEntries 0 blocks) :: themeScopes blocks

lemma HasScopes.nonBase {css : List Char} {blocks : List Block} (h : HasScopes css blocks) :
    (collectTokenScopes css).nonBase = themeScopes blocks := by
  unfold TokenScopes.nonBase TokenScopes.base
  rw [h]
  rfl

section
variable {css : List Char} {blocks : List Block} (hcss : Writes css blocks)
include hcss

lemma entries_css : entries (scanBlocks (stripCssComments css)) = blockEntries 0 blocks := by
  obtain ⟨tail, htail, htext⟩ := hcss.text
  rw [htext, scanBlocks_render blocks htail, entries_blocks]

/-- the scopes with their keys: `:root` and `*` first -/
lemma scopes_css : (none ∈ keys (blockEntries 0 blocks) ∧ HasScopes css blocks) ∨
    ((∀ b ∈ blocks, b.vars = []) ∧ (collectTokenScopes css).scopes = []) := by
  have hentries := entries_css hcss
  rcases hcss.base with ⟨b, hb, hvars, hbase⟩ | hnone
  · refine .inl ?_
    have hslot : slotOf b.text = none := by
      unfold slotOf
      rw [if_pos ((isBase_iff (hcss.single b hb hvars)).mp hbase)]
    have hmem : none ∈ keys (blockEntries 0 blocks) := mem_blockKeys.mpr ⟨b, hb, hvars, hslot⟩
    refine ⟨hmem, ?_⟩
    unfold HasScopes themeScopes themeKeys
    rw [← hentries] at hmem ⊢
    exact scopes_of_base hmem
  · refine .inr ⟨hnone, scopes_of_nil ?_⟩
    rw [hentries, blockEntries, List.filterMap_eq_nil_iff]
    intro x hx
    rw [if_pos]
    rw [List.isEmpty_iff]
    exact hnone x.1 (List.fst_mem_of_mem_zipIdx hx)

/-- a theme that matches an element -/
lemma theme_hits_iff {b : Block} (hb : b ∈ blocks) {a : NodeArena} {on : Interaction} {id : NodeId} {e : Element} :
    (b.IsTheme ∧ b.Hits a on id e) ↔ (decide (b.vars ≠ []) && (slotOf b.text).any (textHits a on id e)) = true := by
  by_cases hvars : b.vars = []
  · refine iff_of_false (fun h => h.1.1 hvars) fun h => ?_
    rw [hvars] at h
    cases h
  · have hcomma := hcss.single b hb hvars
    rw [isTheme_iff hcomma hvars, hits_iff hcomma, decide_eq_true hvars, Bool.true_and]
    constructor
    · rintro ⟨hslot, hhit⟩
      rw [hslot]
      exact hhit
    · intro hany
      obtain ⟨text, hslot, hhit⟩ := (Option.any_eq_true _ _).mp hany
      obtain ⟨-, rfl⟩ := slotOf_eq.mp hslot
      exact ⟨hslot, hhit⟩

variable {a : NodeArena} {t : ElementTree} {root : Element} {on : Interaction} {id : NodeId} {e : Element}

/-- the blocks of the active theme -/
lemma isActive_iff {b : Block} (hb : b ∈ blocks) (hvars : b.vars ≠ []) : b.IsActive a t.id root blocks ↔
    slotOf b.text = some b.text ∧ some b.text = (themes (blockEntries 0 blocks)).find? (textHits a atRest t.id root) := by
  have htheme := isTheme_iff (hcss.single b hb hvars) hvars
  rw [themes_find]
  constructor
  · rintro ⟨us, first, vs, hsplit, hfirst, hbefore, hb', htext⟩
    have hfind : (blocks.find? fun b => decide (b.vars ≠ []) && (slotOf b.text).any (textHits a atRest t.id root)) =
        some first := by
      refine List.find?_eq_some_iff_append.mpr ⟨(theme_hits_iff hcss (by simp [hsplit])).mp hfirst, us, vs, hsplit, ?_⟩
      intro c hc
      rw [Bool.not_eq_true']
      exact Bool.eq_false_iff.mpr fun h => hbefore c hc ((theme_hits_iff hcss (by simp [hsplit, hc])).mpr h)
    rw [hfind, htext]
    exact ⟨htext ▸ htheme.mp hb', rfl⟩
  · rintro ⟨hslot, hfind⟩
    obtain ⟨first, hfirst, htext⟩ := Option.map_eq_some_iff.mp hfind.symm
    obtain ⟨hhit, us, vs, hsplit, hbefore⟩ := List.find?_eq_some_iff_append.mp hfirst
    refine ⟨us, first, vs, hsplit, (theme_hits_iff hcss (by simp [hsplit])).mpr hhit, fun c hc h => ?_, htheme.mpr hslot,
      htext.symm⟩
    have hno := hbefore c hc
    rw [(theme_hits_iff hcss (by simp [hsplit, hc])).mp h] at hno
    cases hno

omit hcss in
/-- the key of the active theme -/
lemma active_css (hscopes : HasScopes css blocks) (ht : Holds a t) (hroot : a.get t.id = some root)
    (he : a.get id = some e) : activeRootScopeFor a (collectTokenScopes css) id =
      ((themeKeys blocks).find? fun x => textHits a atRest t.id root x.1).map Prod.snd := by
  unfold activeRootScopeFor
  rw [documentRoot_eq ht he, hroot, hscopes.nonBase, themeScopes]
  dsimp only
  rw [List.find?_map, Option.map_map]
  simp only [Function.comp_def, matchesAt_eq]
  split_ifs with hempty
  · rw [List.isEmpty_iff, List.map_eq_nil_iff] at hempty
    rw [hempty]
    rfl
  · rfl

/-- the scope of the element itself: the gate shuts out no scope that matches -/
lemma self_css (hscopes : HasScopes css blocks) (hbase : none ∈ keys (blockEntries 0 blocks)) (active : Option Nat) :
    ∃ best, selfScopeVarsFor a on (collectTokenScopes css) id e active = best.map TokenScope.vars ∧
      IsBest (fun scope => some scope.key ≠ active ∧ scope.matchesAt a on id e = true) TokenScope.rank
        (themeScopes blocks) best := by
  have hindex : (collectBlocks (scanBlocks (stripCssComments css))).baseIndex.isSome = true := by
    rw [← entries_css hcss] at hbase
    obtain ⟨i, hi⟩ := List.mem_iff_getElem?.mp hbase
    rw [show (collectBlocks _).baseIndex = some i from ((rawScopes_spec _).index none i).mpr hi]
    rfl
  have hbest := foldl_best (fun scope => some scope.key ≠ active ∧ scope.matchesAt a on id e = true) TokenScope.rank
    (themeScopes blocks)
  unfold selfScopeVarsFor
  rw [hscopes.nonBase]
  split_ifs with hempty hgate
  · refine ⟨none, rfl, fun scope hmem => ?_⟩
    rw [List.isEmpty_iff.mp hempty] at hmem
    cases hmem
  · refine ⟨none, rfl, fun scope hmem hmay => ?_⟩
    have hmatch := hmay.2
    unfold TokenScope.matchesAt at hmatch
    cases hchain : scope.selector with
    | none =>
      rw [hchain] at hmatch
      cases hmatch
    | some chain =>
      rw [hchain] at hmatch
      have hin : scope ∈ (if (collectBlocks (scanBlocks (stripCssComments css))).baseIndex.isSome then
          (collectTokenScopes css).scopes.tail else (collectTokenScopes css).scopes) := by
        rw [if_pos hindex, hscopes]
        exact hmem
      rw [gate_open hin hchain hmatch] at hgate
      cases hgate
  · exact ⟨_, rfl, hbest⟩

/-- the blocks whose scope may be that of the element itself -/
lemma mayBeSelf_iff {b : Block} (hb : b ∈ blocks) (hvars : b.vars ≠ []) : b.MayBeSelf a on id e t.id root blocks ↔
    ∃ y ∈ themeKeys blocks, slotOf b.text = some y.1 ∧
      some y.2 ≠ ((themeKeys blocks).find? fun x => textHits a atRest t.id root x.1).map Prod.snd ∧
      textHits a on id e y.1 = true := by
  have hcomma := hcss.single b hb hvars
  obtain ⟨-, hkey⟩ := find_zipIdx (themes_nodup blocks) 1 (textHits a atRest t.id root)
  unfold Block.MayBeSelf
  rw [isTheme_iff hcomma hvars, hits_iff hcomma, isActive_iff hcss hb hvars]
  constructor
  · rintro ⟨hslot, hhit, hactive⟩
    have hmem : b.text ∈ themes (blockEntries 0 blocks) :=
      List.mem_filterMap.mpr ⟨some b.text, mem_blockKeys.mpr ⟨b, hb, hvars, hslot⟩, rfl⟩
    obtain ⟨i, hi⟩ := List.mem_iff_getElem?.mp hmem
    have hy : (b.text, i + 1) ∈ themeKeys blocks := by
      refine List.mk_mem_zipIdx_iff_le_and_getElem?_sub.mpr ⟨Nat.le_add_left 1 i, ?_⟩
      rw [Nat.add_sub_cancel]
      exact hi
    exact ⟨_, hy, hslot, fun h => hactive ⟨hslot, (hkey _ hy).mp h⟩, hhit⟩
  · rintro ⟨y, hy, hslot, hactive, hhit⟩
    obtain ⟨hbase, htext⟩ := slotOf_eq.mp hslot
    rw [htext]
    rw [htext] at hslot
    exact ⟨hslot, hhit, fun h => hactive ((hkey y hy).mpr h.2)⟩

omit hcss in
/-- the rank of a block is that of its scope -/
lemma rank_themeScope {b : Block} {y : List Char × Nat} (hslot : slotOf b.text = some y.1) :
    (themeScope (blockEntries 0 blocks) y.2 y.1).rank = b.rank blocks := by
  obtain ⟨hbase, htext⟩ := slotOf_eq.mp hslot
  have horder : slotOrder (blockEntries 0 blocks) (some y.1) = Block.place blocks b.text := by
    unfold slotOrder Block.place
    rw [slotOrder_blocks]
    have hpred : (fun c : Block => decide (c.vars ≠ []) && decide (slotOf c.text = some y.1)) =
        fun c => decide (c.vars ≠ []) && decide (c.text = b.text) := by
      funext c
      refine congrArg _ (decide_eq_decide.mpr ?_)
      rw [slotOf_eq, ← htext]
      exact ⟨fun h => h.2, fun h => ⟨by rw [h]; exact hbase, h⟩⟩
    rw [hpred]
    cases blocks.findIdx? fun c => decide (c.vars ≠ []) && decide (c.text = b.text) with
    | none => rfl
    | some i => exact Nat.zero_add i
  unfold TokenScope.rank Block.rank themeScope
  dsimp only
  rw [horder, ← htext]

omit hcss in
/-- two blocks of one rank have one selector -/
lemma text_of_rank {b c : Block} (hb : b ∈ blocks) (hbvars : b.vars ≠ []) (hc : c ∈ blocks) (hcvars : c.vars ≠ [])
    (h : b.rank blocks = c.rank blocks) : b.text = c.text := by
  have hplace : Block.place blocks b.text = Block.place blocks c.text :=
    congrArg (fun r : Rank => (ofLex (ofLex (ofLex r).2).2).2) h
  have hfind : ∀ d ∈ blocks, d.vars ≠ [] → ∃ x, blocks[Block.place blocks d.text]? = some x ∧ x.text = d.text := by
    intro d hd hvars
    unfold Block.place
    cases hidx : blocks.findIdx? fun c => decide (c.vars ≠ []) && decide (c.text = d.text) with
    | none =>
      have hno := List.findIdx?_eq_none_iff.mp hidx d hd
      rw [decide_eq_true hvars, decide_eq_true rfl] at hno
      cases hno
    | some i =>
      obtain ⟨hlt, hp, -⟩ := List.findIdx?_eq_some_iff_getElem.mp hidx
      rw [Bool.and_eq_true, decide_eq_true_eq, decide_eq_true_eq] at hp
      exact ⟨blocks[i], List.getElem?_eq_getElem hlt, hp.2⟩
  obtain ⟨x, hx, hxb⟩ := hfind b hb hbvars
  obtain ⟨y, hy, hyc⟩ := hfind c hc hcvars
  rw [hplace] at hx
  obtain rfl := Option.some.inj (hx.symm.trans hy)
  exact hxb.symm.trans hyc

/-- the scope that is kept for the element holds what the blocks of the element itself declare -/
lemma declaredBy_self {best : Option TokenScope}
    (hbest : IsBest (fun scope => some scope.key ≠ ((themeKeys blocks).find? fun x => textHits a atRest t.id root x.1).map Prod.snd ∧
      scope.matchesAt a on id e = true) TokenScope.rank (themeScopes blocks) best) :
    declaredBy (Block.IsSelf a on id e t.id root blocks) blocks = (best.map TokenScope.vars).getD [] := by
  have hmay := fun (b : Block) hb hvars => @mayBeSelf_iff _ _ hcss a t root on id e b hb hvars
  cases best with
  | none =>
    refine declaredBy_nil fun b hb hvars hself => ?_
    obtain ⟨y, hy, hslot, hactive, hhit⟩ := (hmay b hb hvars).mp hself.1
    exact hbest _ (List.mem_map_of_mem hy) ⟨hactive, by rw [matchesAt_eq]; exact hhit⟩
  | some m =>
    obtain ⟨hmem, ⟨hactive, hhit⟩, hmax⟩ := hbest
    obtain ⟨y, hy, rfl⟩ := List.mem_map.mp hmem
    rw [matchesAt_eq] at hhit
    -- a block of the scope that is kept
    have hkey : some y.1 ∈ keys (blockEntries 0 blocks) := by
      obtain ⟨slot, hslot, heq⟩ := List.mem_filterMap.mp (List.fst_mem_of_mem_zipIdx hy)
      exact heq ▸ hslot
    obtain ⟨c, hc, hcvars, hcslot⟩ := mem_blockKeys.mp hkey
    have hcmay := (hmay c hc hcvars).mpr ⟨y, hy, hcslot, hactive, hhit⟩
    have htop : ∀ b ∈ blocks, b.vars ≠ [] → b.MayBeSelf a on id e t.id root blocks → b.rank blocks ≤ c.rank blocks := by
      intro b hb hvars hb'
      obtain ⟨z, hz, hslot, hactive', hhit'⟩ := (hmay b hb hvars).mp hb'
      rw [← rank_themeScope hslot, ← rank_themeScope hcslot]
      exact hmax _ (List.mem_map_of_mem hz) ⟨hactive', by rw [matchesAt_eq]; exact hhit'⟩
    show _ = slotVars (blockEntries 0 blocks) (some y.1)
    rw [slotVars_blocks]
    refine declaredBy_congr fun b hb hvars => ⟨fun hself => ?_, fun hslot => ⟨?_, fun d hd hdmay => ?_⟩⟩
    · obtain ⟨z, hz, hslot, -, -⟩ := (hmay b hb hvars).mp hself.1
      have hrank := le_antisymm (htop b hb hvars hself.1) (hself.2 c hc hcmay)
      have htext := text_of_rank hb hvars hc hcvars hrank
      rw [htext]
      exact hcslot
    · exact (hmay b hb hvars).mpr ⟨y, hy, hslot, hactive, hhit⟩
    · rw [← @rank_themeScope blocks b y hslot, rank_themeScope hcslot]
      exact htop d hd hdmay.1.1 hdmay

/-- the first theme that matches the root holds what the blocks of the active theme declare -/
lemma declaredBy_active : declaredBy (Block.IsActive a t.id root blocks) blocks =
    (((themes (blockEntries 0 blocks)).find? (textHits a atRest t.id root)).map
      fun text => slotVars (blockEntries 0 blocks) (some text)).getD [] := by
  cases hfind : (themes (blockEntries 0 blocks)).find? (textHits a atRest t.id root) with
  | none =>
    refine declaredBy_nil fun b hb hvars h => ?_
    have h' := ((isActive_iff hcss hb hvars).mp h).2
    rw [hfind] at h'
    cases h'
  | some text =>
    show _ = slotVars (blockEntries 0 blocks) (some text)
    rw [slotVars_blocks]
    refine declaredBy_congr fun b hb hvars => ?_
    rw [isActive_iff hcss hb hvars, hfind, Option.some.injEq]
    constructor
    · rintro ⟨hslot, rfl⟩
      exact hslot
    · intro hslot
      obtain ⟨hbase, rfl⟩ := slotOf_eq.mp hslot
      exact ⟨hslot, rfl⟩

lemma declaredBy_base : declaredBy Block.IsBase blocks = slotVars (blockEntries 0 blocks) none := by
  rw [slotVars_blocks]
  refine declaredBy_congr fun b hb hvars => ?_
  rw [isBase_iff (hcss.single b hb hvars)]
  unfold slotOf
  split_ifs with h
  · exact iff_of_true h rfl
  · exact iff_of_false h fun h' => by cases h'

omit hcss in
/-- the variables of the active theme, by its key -/
lemma varsFor_active (hscopes : HasScopes css blocks) :
    ((((themeKeys blocks).find? fun x => textHits a atRest t.id root x.1).map Prod.snd).bind
      (collectTokenScopes css).varsFor) =
      ((themes (blockEntries 0 blocks)).find? (textHits a atRest t.id root)).map
        fun text => slotVars (blockEntries 0 blocks) (some text) := by
  rw [← (find_zipIdx (themes_nodup blocks) 1 _).1]
  show _ = Option.map _ (Option.map Prod.fst ((themeKeys blocks).find? _))
  cases hfind : (themeKeys blocks).find? fun x => textHits a atRest t.id root x.1 with
  | none => rfl
  | some y =>
    obtain ⟨hle, hget⟩ := List.mk_mem_zipIdx_iff_le_and_getElem?_sub.mp (List.mem_of_find?_eq_some hfind)
    obtain ⟨i, hi⟩ : ∃ i, y.2 = i + 1 := ⟨y.2 - 1, by omega⟩
    rw [hi, Nat.add_sub_cancel] at hget
    have hscope : (themeScopes blocks)[i]? = some (themeScope (blockEntries 0 blocks) (i + 1) y.1) := by
      unfold themeScopes themeKeys
      rw [List.getElem?_map, List.getElem?_zipIdx, hget]
      simp [Nat.add_comm]
    unfold TokenScopes.varsFor
    rw [Option.map_some, Option.map_some, Option.map_some, Option.bind_some, hscopes, hi, List.getElem?_cons_succ, hscope]
    rfl

end

/-- a lookup in three maps -/
lemma get_three (x y z : Option Vars) (name : List Char) :
    (⟨[x, y, z]⟩ : ScopeEnv).get name = ((x.getD []).get name <|> (y.getD []).get name <|> (z.getD []).get name) := by
  have hbind : ∀ v : Option Vars, (v.bind fun vars => vars.get name) = (v.getD []).get name := by
    intro v
    cases v <;> rfl
  unfold ScopeEnv.get
  simp only [List.findSome?_cons, List.findSome?_nil, hbind]
  cases (x.getD []).get name <;> cases (y.getD []).get name <;> cases (z.getD []).get name <;> rfl

/-- **Main result.** An element sees what the blocks of its own scope declare, then what those of the active theme do, then
what those of `:root` and `*` do, and nothing else. -/
theorem tokenEnv_exact {css : List Char} {blocks : List Block} (hcss : Writes css blocks) {a : NodeArena} {t : ElementTree}
    (ht : Holds a t) {root : Element} (hroot : a.get t.id = some root) {id : NodeId} {e : Element} (he : a.get id = some e)
    (on : Interaction) (name : List Char) :
    (tokenEnv a on css id e).get name = ((declaredBy (Block.IsSelf a on id e t.id root blocks) blocks).get name <|>
        (declaredBy (Block.IsActive a t.id root blocks) blocks).get name <|> (declaredBy Block.IsBase blocks).get name) ∧
      (((tokenEnv a on css id e).get name).isSome = true ↔ ∃ b ∈ blocks, (∃ value, (name, value) ∈ b.vars) ∧
        (b.IsBase ∨ b.IsActive a t.id root blocks ∨ b.IsSelf a on id e t.id root blocks)) := by
  have hget : (tokenEnv a on css id e).get name = ((declaredBy (Block.IsSelf a on id e t.id root blocks) blocks).get name <|>
      (declaredBy (Block.IsActive a t.id root blocks) blocks).get name <|> (declaredBy Block.IsBase blocks).get name) := by
    unfold tokenEnv
    rw [get_three]
    rcases scopes_css hcss with ⟨hbase, hscopes⟩ | ⟨hvars, hscopes⟩
    · have hactive := active_css hscopes ht hroot he
      obtain ⟨best, hself, hbest⟩ := @self_css css blocks hcss a on id e hscopes hbase
        (activeRootScopeFor a (collectTokenScopes css) id)
      rw [hself]
      rw [hactive] at hbest ⊢
      rw [declaredBy_self hcss hbest, declaredBy_active hcss, declaredBy_base hcss, varsFor_active hscopes]
      unfold TokenScopes.baseVars TokenScopes.base
      rw [hscopes]
      rfl
    · -- nothing is declared
      have hnil : ∀ P : Block → Prop, declaredBy P blocks = [] := fun P => declaredBy_nil fun b hb h => absurd (hvars b hb) h
      rw [hnil, hnil, hnil]
      unfold selfScopeVarsFor activeRootScopeFor TokenScopes.nonBase TokenScopes.baseVars TokenScopes.base
      rw [hscopes]
      rfl
  refine ⟨hget, ?_⟩
  rw [hget]
  have hor : ∀ x y z : Option (List Char), (x <|> y <|> z).isSome = true ↔
      z.isSome = true ∨ y.isSome = true ∨ x.isSome = true := by
    intro x y z
    cases x <;> cases y <;> cases z <;> simp
  rw [hor, get_isSome, get_isSome, get_isSome]
  simp only [mem_declaredBy]
  constructor
  · rintro (⟨value, b, hb, hP, hmem⟩ | ⟨value, b, hb, hP, hmem⟩ | ⟨value, b, hb, hP, hmem⟩)
    · exact ⟨b, hb, ⟨value, hmem⟩, .inl hP⟩
    · exact ⟨b, hb, ⟨value, hmem⟩, .inr (.inl hP)⟩
    · exact ⟨b, hb, ⟨value, hmem⟩, .inr (.inr hP)⟩
  · rintro ⟨b, hb, ⟨value, hmem⟩, hP | hP | hP⟩
    · exact .inl ⟨value, b, hb, hP, hmem⟩
    · exact .inr (.inl ⟨value, b, hb, hP, hmem⟩)
    · exact .inr (.inr ⟨value, b, hb, hP, hmem⟩)

/-! ## two scopes of one element -/

def chipBlocks : List Block :=
  [⟨":root".toList, "--gap: 1px".toList, by decide, by decide⟩, ⟨".chip".toList, "--size: 2px".toList, by decide, by decide⟩,
    ⟨".dark".toList, "--ink: red".toList, by decide, by decide⟩]

def chipSheet : List Char := chipBlocks.flatMap Block.render

def chipArena : NodeArena :=
  (buildSubtree .empty none (.mk (DefProps.new .div) [.mk { DefProps.new .div with classes := ["chip", "dark"] } []])).1.arena

lemma chip_writes : Writes chipSheet chipBlocks where
  text := ⟨[], List.not_mem_nil, by decide +kernel⟩
  single := by decide
  base := .inl ⟨_, List.mem_cons_self, by decide, ":root".toList, by decide, .inl rfl⟩

/-- both scopes match the element, and it does not see the properties of the first -/
theorem chip_size_unseen : ∃ e, chipArena.get ⟨1, 0⟩ = some e ∧ ∃ b ∈ chipBlocks,
    ("--size".toList, "2px".toList) ∈ b.vars ∧ b.Hits chipArena atRest ⟨1, 0⟩ e ∧
      (tokenEnv chipArena atRest chipSheet ⟨1, 0⟩ e).get "--size".toList = none := by
  refine ⟨_, rfl, ⟨".chip".toList, "--size: 2px".toList, by decide, by decide⟩, by simp [chipBlocks], by decide,
    ⟨".chip".toList, by decide, ⟨[([.cls "chip"], none)]⟩, by decide +kernel, by decide⟩, by decide +kernel⟩

/-- the properties of `.dark` are seen, and those of `:root` -/
theorem tokenEnv_exact_chip : ∃ (t : ElementTree) (root e : Element), Holds chipArena t ∧
    chipArena.get ⟨1, 0⟩ = some e ∧ ∀ name : List Char,
      (tokenEnv chipArena atRest chipSheet ⟨1, 0⟩ e).get name =
        ((declaredBy (Block.IsSelf chipArena atRest ⟨1, 0⟩ e t.id root chipBlocks) chipBlocks).get name <|>
          (declaredBy (Block.IsActive chipArena t.id root chipBlocks) chipBlocks).get name <|>
            (declaredBy Block.IsBase chipBlocks).get name) := by
  obtain ⟨t, -, -, ht, -⟩ := build_holds (w := .empty) vacant_empty
    (.mk (DefProps.new .div) [.mk { DefProps.new .div with classes := ["chip", "dark"] } []])
  obtain ⟨root, hroot, -, -⟩ := NodeArena.get_root ht
  obtain ⟨e, he⟩ : ∃ e, chipArena.get ⟨1, 0⟩ = some e := ⟨_, rfl⟩
  exact ⟨t, root, e, ht, he, fun name => (tokenEnv_exact chip_writes ht hroot he atRest name).1⟩

end TerminalManager.Style
