import TerminalManager.Style.SelectorText
import TerminalManager.Style.Candidates
import TerminalManager.Lib.Grouping
import Mathlib.Data.List.TakeWhile

/-!
# Token scopes

The custom properties of a stylesheet are collected from its text, block by block.

* `stripCssComments`, `scanBlocks`   the blocks of a text;
* `parseBlockCustomProps`            the custom properties of a block;
* `collectBlock`, `collectTokenScopes`   one scope for each selector text, and one for `:root` and `*`;
* `scanBlocks_render`                the blocks of a text that was written from blocks;
* `rawScopes_spec`                   the scopes hold what their blocks declare;
* `scopes_of_base`                   the scopes, when a block of `:root` or `*` is there.
-/

namespace TerminalManager.Style
open Reconcile Grouping
open Keybinds (trim)

/-! ## the text -/

/-- what is left after a comment -/
def afterComment : List Char → Option (List Char)
  | '*' :: '/' :: rest => some rest
  | _ :: rest => afterComment rest
  | [] => none

lemma length_afterComment {s rest : List Char} (h : afterComment s = some rest) : rest.length ≤ s.length := by
  induction s using afterComment.induct with
  | case1 rest' =>
    obtain rfl := Option.some.inj h
    exact Nat.le_add_right _ 2
  | case2 c s hne ih =>
    rw [afterComment] at h
    · exact (ih h).trans (Nat.le_succ _)
    · exact hne
  | case3 => cases h

def stripCssComments (s : List Char) : List Char :=
  match s with
  | '/' :: '*' :: rest =>
    match h : afterComment rest with
    | some rest' => stripCssComments rest'
    -- a comment without an end
    | none => []
  | c :: rest => c :: stripCssComments rest
  | [] => []
termination_by s.length
decreasing_by
  · exact Nat.lt_succ_of_le ((length_afterComment h).trans (Nat.le_succ _))
  · exact Nat.lt_succ_self _

/-- the text before the brace that closes, and what is left; `depth` braces are open -/
def findMatchingBrace (depth : Nat) : List Char → Option (List Char × List Char)
  | [] => none
  | c :: rest =>
    if c = '{' then (findMatchingBrace (depth + 1) rest).map fun x => (c :: x.1, x.2)
    else if c = '}' then
      if depth = 1 then some ([], rest) else (findMatchingBrace (depth - 1) rest).map fun x => (c :: x.1, x.2)
    else (findMatchingBrace depth rest).map fun x => (c :: x.1, x.2)

lemma length_findMatchingBrace {depth : Nat} {s : List Char} {x : List Char × List Char}
    (h : findMatchingBrace depth s = some x) : x.2.length ≤ s.length := by
  induction s generalizing depth x with
  | nil => cases h
  | cons c s ih =>
    have hmap : ∀ {d}, (findMatchingBrace d s).map (fun x => (c :: x.1, x.2)) = some x → x.2.length ≤ (c :: s).length := by
      intro d hd
      obtain ⟨y, hy, rfl⟩ := Option.map_eq_some_iff.mp hd
      exact (ih hy).trans (Nat.le_succ _)
    unfold findMatchingBrace at h
    split_ifs at h
    · exact hmap h
    · obtain rfl := Option.some.inj h
      exact Nat.le_succ _
    · exact hmap h
    · exact hmap h

/-- the blocks of a text: the trimmed selector and what is between the braces -/
def scanBlocks (css : List Char) : List (List Char × List Char) :=
  match hopen : css.dropWhile (· ≠ '{') with
  | [] => []
  | _ :: rest =>
    match hclose : findMatchingBrace 1 rest with
    | none => []
    | some x => (trim (css.takeWhile (· ≠ '{')), x.1) :: scanBlocks x.2
termination_by css.length
decreasing_by
  have hdrop := length_dropWhile (· ≠ '{') css
  rw [hopen, List.length_cons] at hdrop
  exact Nat.lt_of_lt_of_le (Nat.lt_succ_of_le (length_findMatchingBrace hclose)) hdrop

/-! ## custom properties -/

/-- names and values, in the order in which they are put into the map -/
abbrev Vars := List (List Char × List Char)

/-- the value that was put last -/
def Vars.get (vars : Vars) (name : List Char) : Option (List Char) := (vars.reverse.find? (·.1 = name)).map Prod.snd

/-- a custom property, if the declaration is one -/
def customProp (decl : List Char) : Option (List Char × List Char) :=
  let decl := trim decl
  match decl.dropWhile (· ≠ ':') with
  | [] => none
  | _ :: value =>
    let name := trim (decl.takeWhile (· ≠ ':'))
    if "--".toList.isPrefixOf name then some (name, trim value) else none

def parseBlockCustomProps (block : List Char) : Vars := (block.splitOn ';').filterMap customProp

/-! ## the scopes -/

structure RawScope where
  selectorText : List Char
  specificity : Specificity
  sourceOrder : Nat
  vars : Vars
deriving DecidableEq

def RawScope.extend (scope : RawScope) (props : Vars) : RawScope := { scope with vars := scope.vars ++ props }

structure Collecting where
  rawScopes : List RawScope
  bySelector : List Char → Option Nat
  baseIndex : Option Nat

def rootText : List Char := ":root".toList

def isBaseText (selector : List Char) : Bool := selector = rootText || selector = ['*']

/-- one block; `order` counts the blocks -/
def collectBlock (s : Collecting) (order : Nat) (selector block : List Char) : Collecting :=
  let props := parseBlockCustomProps block
  if props.isEmpty then s
  else if isBaseText selector then
    match s.baseIndex with
    | some idx => { s with rawScopes := s.rawScopes.modify idx (·.extend props) }
    | none => { s with
        rawScopes := s.rawScopes ++ [⟨rootText, selectorSpecificity rootText, order, props⟩]
        baseIndex := some s.rawScopes.length }
  else
    match s.bySelector selector with
    | some idx => { s with rawScopes := s.rawScopes.modify idx (·.extend props) }
    | none => { s with
        rawScopes := s.rawScopes ++ [⟨selector, selectorSpecificity selector, order, props⟩]
        bySelector := Function.update s.bySelector selector (some s.rawScopes.length) }

def collectBlocks (blocks : List (List Char × List Char)) : Collecting :=
  blocks.zipIdx.foldl (fun s x => collectBlock s x.2 x.1.1 x.1.2) ⟨[], fun _ => none, none⟩

/-- the scope of `:root` and `*` goes to the front -/
def Collecting.baseFirst (s : Collecting) : List RawScope :=
  match s.baseIndex with
  | some (i + 1) => s.rawScopes[i + 1]?.toList ++ s.rawScopes.eraseIdx (i + 1)
  | _ => s.rawScopes

structure TokenScope where
  key : Nat
  selectorText : List Char
  specificity : Specificity
  sourceOrder : Nat
  selector : Option SelectorChain
  vars : Vars
deriving DecidableEq

structure TokenScopes where
  scopes : List TokenScope
  widgetScopeClasses : List String
  widgetScopeGateUnsafe : Bool

/-- a raw scope at its place; `hasBase` says that the first one is that of `:root` and `*` -/
def RawScope.finish (hasBase : Bool) (raw : RawScope) (i : Nat) : TokenScope where
  key := i
  selectorText := raw.selectorText
  specificity := raw.specificity
  sourceOrder := raw.sourceOrder
  selector := if i = 0 && hasBase then none else parseSelectorString raw.selectorText
  vars := raw.vars

/-- the classes of the last compound -/
def collectTerminalClasses (chain : SelectorChain) : List String :=
  ((chain.parts.getLast?.map Prod.fst).getD []).filterMap fun part =>
    match part with
    | .cls name => some name
    | _ => none

/-- the classes that a scope asks for; none when it may match an element without a class of them -/
def TokenScope.gateClasses (scope : TokenScope) : Option (List String) :=
  match scope.selector with
  | some chain => if collectTerminalClasses chain = [] then none else some (collectTerminalClasses chain)
  | none => none

def collectTokenScopes (css : List Char) : TokenScopes :=
  let s := collectBlocks (scanBlocks (stripCssComments css))
  let scopes := s.baseFirst.zipIdx.map fun x => x.1.finish s.baseIndex.isSome x.2
  let widget := if s.baseIndex.isSome then scopes.tail else scopes
  { scopes := scopes
    widgetScopeClasses := widget.flatMap fun scope => (scope.gateClasses).getD []
    widgetScopeGateUnsafe := widget.any fun scope => scope.gateClasses.isNone }

namespace TokenScopes

def base (s : TokenScopes) : Option TokenScope := s.scopes.head?

def nonBase (s : TokenScopes) : List TokenScope := if s.base.isSome then s.scopes.tail else s.scopes

def baseVars (s : TokenScopes) : Option Vars := s.base.map TokenScope.vars

def varsFor (s : TokenScopes) (key : Nat) : Option Vars := s.scopes[key]?.map TokenScope.vars

def elementMayHaveSelfScope (s : TokenScopes) (elementClasses : List String) : Bool :=
  if s.widgetScopeClasses.isEmpty && !s.widgetScopeGateUnsafe then false
  else if s.widgetScopeGateUnsafe then true
  else elementClasses.any (s.widgetScopeClasses.contains ·)

end TokenScopes

/-! ## blocks that are written -/

/-- a plain rule as text: no braces but those around the declarations -/
structure Block where
  selector : List Char
  body : List Char
  selector_plain : '{' ∉ selector
  body_plain : '{' ∉ body ∧ '}' ∉ body

def Block.render (b : Block) : List Char := b.selector ++ '{' :: (b.body ++ ['}'])

def Block.text (b : Block) : List Char := trim b.selector

/-- what the block declares -/
def Block.vars (b : Block) : Vars := parseBlockCustomProps b.body

lemma findMatchingBrace_body {body : List Char} (h : '{' ∉ body ∧ '}' ∉ body) (rest : List Char) :
    findMatchingBrace 1 (body ++ '}' :: rest) = some (body, rest) := by
  induction body with
  | nil => rfl
  | cons c body ih =>
    rw [List.mem_cons, not_or, List.mem_cons, not_or] at h
    rw [List.cons_append, findMatchingBrace, if_neg (Ne.symm h.1.1), if_neg (Ne.symm h.2.1), ih ⟨h.1.2, h.2.2⟩]
    rfl

lemma ne_brace {s : List Char} (h : '{' ∉ s) : ∀ c ∈ s, decide (c ≠ '{') = true := by
  intro c hc
  exact decide_eq_true fun heq => h (heq ▸ hc)

lemma takeWhile_plain {s : List Char} (h : '{' ∉ s) (rest : List Char) :
    (s ++ '{' :: rest).takeWhile (· ≠ '{') = s ∧ (s ++ '{' :: rest).dropWhile (· ≠ '{') = '{' :: rest := by
  rw [List.takeWhile_append_of_pos (ne_brace h), List.dropWhile_append_of_pos (ne_brace h)]
  exact ⟨List.append_nil s, rfl⟩

/-- **The blocks of a text are those it was written from.** -/
theorem scanBlocks_render (blocks : List Block) {tail : List Char} (htail : '{' ∉ tail) :
    scanBlocks (blocks.flatMap Block.render ++ tail) = blocks.map fun b => (b.text, b.body) := by
  induction blocks with
  | nil =>
    have hdrop : ([].flatMap Block.render ++ tail).dropWhile (· ≠ '{') = [] := by
      rw [List.dropWhile_eq_nil_iff]
      exact ne_brace htail
    unfold scanBlocks
    split
    · rfl
    · rename_i hopen
      rw [hdrop] at hopen
      cases hopen
  | cons b blocks ih =>
    have htext : (b :: blocks).flatMap Block.render ++ tail =
        b.selector ++ '{' :: (b.body ++ '}' :: (blocks.flatMap Block.render ++ tail)) := by
      simp [Block.render]
    obtain ⟨htake, hdrop⟩ := takeWhile_plain b.selector_plain (b.body ++ '}' :: (blocks.flatMap Block.render ++ tail))
    have hbrace := findMatchingBrace_body b.body_plain (blocks.flatMap Block.render ++ tail)
    rw [htext]
    unfold scanBlocks
    split
    · rename_i hopen
      rw [hdrop] at hopen
      cases hopen
    · rename_i c rest hopen
      rw [hdrop] at hopen
      obtain ⟨-, rfl⟩ := List.cons.inj hopen
      split
      · rename_i hclose
        rw [hbrace] at hclose
        cases hclose
      · rename_i x hclose
        rw [hbrace] at hclose
        obtain rfl := Option.some.inj hclose
        rw [htake, ih]
        rfl

/-! ## what the scopes hold -/

/-- the slot of a selector text; `:root` and `*` share one -/
def slotOf (text : List Char) : Option (List Char) := if isBaseText text then none else some text

def slotText (slot : Option (List Char)) : List Char := slot.getD rootText

/-- the scope that the first block of a slot makes -/
def newScope (slot : Option (List Char)) (block : Nat × Vars) : RawScope :=
  ⟨slotText slot, selectorSpecificity (slotText slot), block.1, block.2⟩

/-- the blocks with custom properties, each with its slot and its place -/
def entries (blocks : List (List Char × List Char)) : List (Option (List Char) × (Nat × Vars)) :=
  blocks.zipIdx.filterMap fun x =>
    if (parseBlockCustomProps x.1.2).isEmpty then none else some (slotOf x.1.1, (x.2, parseBlockCustomProps x.1.2))

def Collecting.table (s : Collecting) : Grouping.Table (Option (List Char)) RawScope :=
  ⟨s.rawScopes, fun slot => slot.elim s.baseIndex s.bySelector⟩

lemma table_collectBlock (s : Collecting) (order : Nat) (selector block : List Char) :
    (collectBlock s order selector block).table =
      if (parseBlockCustomProps block).isEmpty then s.table
      else s.table.put newScope (fun scope b => scope.extend b.2) (slotOf selector, (order, parseBlockCustomProps block)) := by
  unfold collectBlock slotOf
  dsimp only
  split_ifs with hempty hbase
  · rfl
  · unfold Grouping.Table.put Collecting.table
    dsimp only [Option.elim_none]
    cases s.baseIndex with
    | some idx => rfl
    | none =>
      refine congrArg (Grouping.Table.mk _) (funext fun slot => ?_)
      cases slot <;> rfl
  · unfold Grouping.Table.put Collecting.table
    dsimp only [Option.elim_some]
    cases s.bySelector selector with
    | some idx => rfl
    | none =>
      refine congrArg (Grouping.Table.mk _) (funext fun slot => ?_)
      cases slot with
      | none => rfl
      | some text =>
        simp only [Option.elim_some, Function.update_apply, Option.some.injEq]

/-- **The scopes hold what their blocks declare.** -/
theorem rawScopes_spec (blocks : List (List Char × List Char)) :
    Tallies newScope (fun scope b => scope.extend b.2) (collectBlocks blocks).table (entries blocks) := by
  have hrun : ∀ (xs : List ((List Char × List Char) × Nat)) (s : Collecting),
      (xs.foldl (fun s x => collectBlock s x.2 x.1.1 x.1.2) s).table =
        (xs.filterMap fun x => if (parseBlockCustomProps x.1.2).isEmpty then none
          else some (slotOf x.1.1, (x.2, parseBlockCustomProps x.1.2))).foldl
            (Grouping.Table.put newScope fun scope b => scope.extend b.2) s.table := by
    intro xs
    induction xs with
    | nil => exact fun s => rfl
    | cons x xs ih =>
      intro s
      rw [List.foldl_cons, ih, table_collectBlock, List.filterMap_cons]
      split_ifs <;> rfl
  unfold collectBlocks
  rw [hrun]
  have hempty : (⟨[], fun _ => none, none⟩ : Collecting).table = Grouping.Table.empty := by
    refine congrArg (Grouping.Table.mk _) (funext fun slot => ?_)
    cases slot <;> rfl
  rw [hempty]
  exact put_all newScope (fun scope b => scope.extend b.2) (entries blocks)

section
variable (xs : List (Option (List Char) × (Nat × Vars)))

/-- what the blocks of a slot declare -/
def slotVars (slot : Option (List Char)) : Vars := (group xs slot).flatMap Prod.snd

/-- the place of the first block of a slot -/
def slotOrder (slot : Option (List Char)) : Nat := ((group xs slot).head?.map Prod.fst).getD 0

/-- the selector texts of the scopes other than that of `:root` and `*`, in order -/
def themes : List (List Char) := (keys xs).filterMap fun slot => slot

variable {xs}

lemma total_eq {slot : Option (List Char)} (h : slot ∈ keys xs) :
    total newScope (fun scope b => scope.extend b.2) xs slot =
      some ⟨slotText slot, selectorSpecificity (slotText slot), slotOrder xs slot, slotVars xs slot⟩ := by
  have hadd : ∀ (bs : List (Nat × Vars)) (scope : RawScope), bs.foldl (fun scope b => scope.extend b.2) scope =
      { scope with vars := scope.vars ++ bs.flatMap Prod.snd } := by
    intro bs
    induction bs with
    | nil =>
      intro scope
      rw [List.foldl_nil, List.flatMap_nil, List.append_nil]
    | cons b bs ih =>
      intro scope
      rw [List.foldl_cons, ih, List.flatMap_cons, ← List.append_assoc]
      rfl
  unfold total slotOrder slotVars
  cases hgroup : group xs slot with
  | nil => exact absurd hgroup (group_ne_nil.mpr h)
  | cons b bs =>
    show some (bs.foldl _ (newScope slot b)) = _
    rw [hadd, List.flatMap_cons]
    rfl

lemma slots_split {ks : List (Option (List Char))} (hnd : ks.Nodup) {i : Nat} (hi : ks[i]? = some none) :
    ks.eraseIdx i = (ks.filterMap fun slot => slot).map some := by
  obtain ⟨us, vs, rfl, hlen⟩ : ∃ us vs, ks = us ++ none :: vs ∧ us.length = i := by
    obtain ⟨hlt, hget⟩ := List.getElem?_eq_some_iff.mp hi
    refine ⟨ks.take i, ks.drop (i + 1), ?_, List.length_take_of_le hlt.le⟩
    rw [← hget, ← List.drop_eq_getElem_cons hlt, List.take_append_drop]
  have hall : ∀ ws : List (Option (List Char)), none ∉ ws → (ws.filterMap fun slot => slot).map some = ws := by
    intro ws hws
    induction ws with
    | nil => rfl
    | cons w ws ih =>
      rw [List.mem_cons, not_or] at hws
      cases w with
      | none => exact absurd rfl hws.1
      | some text => exact congrArg (some text :: ·) (ih hws.2)
  rw [← hlen, List.eraseIdx_append_of_length_le (Nat.le_refl _), Nat.sub_self, List.eraseIdx_cons_zero,
    List.filterMap_append, List.filterMap_cons_none rfl, List.map_append]
  obtain ⟨-, hnd', hdisj⟩ := List.nodup_append.mp hnd
  rw [hall us fun hmem => hdisj none hmem none List.mem_cons_self rfl, hall vs (List.nodup_cons.mp hnd').1]

/-- the scope of a theme at its place -/
def themeScope (xs : List (Option (List Char) × (Nat × Vars))) (i : Nat) (text : List Char) : TokenScope where
  key := i
  selectorText := text
  specificity := selectorSpecificity text
  sourceOrder := slotOrder xs (some text)
  selector := parseSelectorString text
  vars := slotVars xs (some text)

/-- the scope of `:root` and `*` -/
def baseScope (xs : List (Option (List Char) × (Nat × Vars))) : TokenScope where
  key := 0
  selectorText := rootText
  specificity := selectorSpecificity rootText
  sourceOrder := slotOrder xs none
  selector := none
  vars := slotVars xs none

/-- the raw scopes, when a block of `:root` or `*` is there -/
lemma baseFirst_eq {blocks : List (List Char × List Char)} (h : none ∈ keys (entries blocks)) :
    (collectBlocks blocks).baseFirst.map some =
      (none :: (themes (entries blocks)).map some).map
        (total newScope (fun scope b => scope.extend b.2) (entries blocks)) := by
  obtain ⟨hslots, hindex⟩ := rawScopes_spec blocks
  obtain ⟨i, hi⟩ := List.mem_iff_getElem?.mp h
  have hbase : (collectBlocks blocks).baseIndex = some i := (hindex none i).mpr hi
  have hslots' : (collectBlocks blocks).rawScopes.map some = _ := hslots
  have hfirst : ((collectBlocks blocks).rawScopes[i]?).toList.map some =
      [total newScope (fun scope b => scope.extend b.2) (entries blocks) none] := by
    have hget := congrArg (fun l => l[i]?) hslots'
    simp only [List.getElem?_map, hi, Option.map_some] at hget
    obtain ⟨scope, hscope, htotal⟩ := Option.map_eq_some_iff.mp hget
    rw [hscope, ← htotal]
    rfl
  have hrest : ((collectBlocks blocks).rawScopes.eraseIdx i).map some =
      ((themes (entries blocks)).map some).map (total newScope (fun scope b => scope.extend b.2) (entries blocks)) := by
    rw [← List.eraseIdx_map, hslots', List.eraseIdx_map, slots_split (nodup_keys _) hi]
    rfl
  have hmoved : (collectBlocks blocks).baseFirst =
      ((collectBlocks blocks).rawScopes[i]?).toList ++ (collectBlocks blocks).rawScopes.eraseIdx i := by
    unfold Collecting.baseFirst
    rw [hbase]
    cases i with
    | zero =>
      cases (collectBlocks blocks).rawScopes <;> rfl
    | succ i => rfl
  rw [hmoved, List.map_append, hfirst, hrest]
  rfl

/-- **The scopes**, when a block of `:root` or `*` is there: first that of these blocks, then those of the themes. -/
theorem scopes_of_base {css : List Char} (h : none ∈ keys (entries (scanBlocks (stripCssComments css)))) :
    (collectTokenScopes css).scopes = baseScope (entries (scanBlocks (stripCssComments css))) ::
      ((themes (entries (scanBlocks (stripCssComments css)))).zipIdx 1).map fun x =>
        themeScope (entries (scanBlocks (stripCssComments css))) x.2 x.1 := by
  generalize hblocks : scanBlocks (stripCssComments css) = blocks at h ⊢
  have hsome : (collectBlocks blocks).baseIndex.isSome = true := by
    obtain ⟨i, hi⟩ := List.mem_iff_getElem?.mp h
    rw [show (collectBlocks blocks).baseIndex = some i from ((rawScopes_spec blocks).index none i).mpr hi]
    rfl
  let rawOf (slot : Option (List Char)) : RawScope :=
    ⟨slotText slot, selectorSpecificity (slotText slot), slotOrder (entries blocks) slot, slotVars (entries blocks) slot⟩
  have hraw : (collectBlocks blocks).baseFirst = (none :: (themes (entries blocks)).map some).map rawOf := by
    refine List.map_injective_iff.mpr (Option.some_injective _) ((baseFirst_eq h).trans ?_)
    rw [List.map_map]
    refine List.map_congr_left fun slot hslot => total_eq ?_
    rcases List.mem_cons.mp hslot with rfl | hslot
    · exact h
    · obtain ⟨text, htext, rfl⟩ := List.mem_map.mp hslot
      obtain ⟨slot, hmem, rfl⟩ := List.mem_filterMap.mp htext
      exact hmem
  unfold collectTokenScopes
  rw [hblocks]
  dsimp only
  rw [hsome, hraw, List.map_cons, List.zipIdx_cons, List.map_cons, List.map_map, List.zipIdx_map, List.map_map]
  refine congrArg (_ :: ·) (List.map_congr_left fun x hx => ?_)
  have hpos : ¬x.2 = 0 := by
    have hle := List.le_snd_of_mem_zipIdx hx
    omega
  show RawScope.finish true (rawOf (some x.1)) x.2 = themeScope (entries blocks) x.2 x.1
  unfold RawScope.finish themeScope
  rw [decide_eq_false hpos]
  rfl

/-- without custom properties there are no scopes -/
lemma scopes_of_nil {css : List Char} (h : entries (scanBlocks (stripCssComments css)) = []) :
    (collectTokenScopes css).scopes = [] := by
  obtain ⟨hslots, hindex⟩ := rawScopes_spec (scanBlocks (stripCssComments css))
  rw [h] at hslots hindex
  have hraw : (collectBlocks (scanBlocks (stripCssComments css))).rawScopes = [] := List.map_eq_nil_iff.mp hslots
  have hbase : (collectBlocks (scanBlocks (stripCssComments css))).baseIndex = none := by
    cases hidx : (collectBlocks (scanBlocks (stripCssComments css))).baseIndex with
    | none => rfl
    | some i => cases (hindex none i).mp hidx
  unfold collectTokenScopes Collecting.baseFirst
  dsimp only
  rw [hbase, hraw]
  rfl

/-! ## the gate -/

/-- an element that a scope matches passes the gate -/
theorem gate_open {css : List Char} {scope : TokenScope}
    (hmem : scope ∈ (if (collectBlocks (scanBlocks (stripCssComments css))).baseIndex.isSome then
      (collectTokenScopes css).scopes.tail else (collectTokenScopes css).scopes)) {chain : SelectorChain}
    (hchain : scope.selector = some chain) {a : NodeArena} {on : Interaction} {nodeId : NodeId} {element : Element}
    (h : selectorMatches a on chain nodeId element = true) :
    (collectTokenScopes css).elementMayHaveSelfScope element.classes = true := by
  obtain ⟨last, hlast, hfit⟩ := last_of_matches h
  have hgate : scope.gateClasses = if collectTerminalClasses chain = [] then none else some (collectTerminalClasses chain) := by
    unfold TokenScope.gateClasses
    rw [hchain]
  unfold TokenScopes.elementMayHaveSelfScope
  by_cases hclasses : collectTerminalClasses chain = []
  · -- the scope may match an element without a class of it
    rw [if_pos hclasses] at hgate
    have hskip : (collectTokenScopes css).widgetScopeGateUnsafe = true :=
      List.any_eq_true.mpr ⟨scope, hmem, by rw [hgate]; rfl⟩
    rw [hskip]
    simp
  · obtain ⟨name, hname⟩ := List.exists_mem_of_ne_nil _ hclasses
    rw [if_neg hclasses] at hgate
    have hin : name ∈ (collectTokenScopes css).widgetScopeClasses :=
      List.mem_flatMap.mpr ⟨scope, hmem, by rw [hgate]; exact hname⟩
    have hhas : name ∈ element.classes := by
      unfold collectTerminalClasses at hname
      rw [hlast] at hname
      obtain ⟨part, hpart, hcls⟩ := List.mem_filterMap.mp hname
      cases part with
      | cls cls =>
        obtain rfl := Option.some.inj hcls
        exact has_of_matches (hfit _ hpart) rfl
      | _ => cases hcls
    have hne : (collectTokenScopes css).widgetScopeClasses.isEmpty = false := by
      rw [List.isEmpty_eq_false_iff]
      exact List.ne_nil_of_mem hin
    rw [hne, Bool.false_and, if_neg Bool.false_ne_true]
    split_ifs
    · rfl
    · exact List.any_eq_true.mpr ⟨name, hhas, List.contains_iff_mem.mpr hin⟩

end

end TerminalManager.Style
