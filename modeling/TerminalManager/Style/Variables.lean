import TerminalManager.Style.Environment
import TerminalManager.Lib.Parens

/-!
# References to custom properties

* `resolveVarOnceEnv`         one pass over a value, which puts a text in the place of each reference;
* `flattenTokenValueEnv`      one pass after the other;
* `containsVarFunction`       the value still has a `var(` that is a function;
* `resolveDeferredToDecls`    the declaration with its value resolved, read again;
* `scan`                      the characters and the references of a value;
* `resolveVarOnceEnv_eq`      a pass puts a text in the place of each reference of the scan, and nothing else.
-/

namespace TerminalManager.Style
open Keybinds (trim trim_trim)
open Find Parens

/-! ## the passes -/

/-- `var(` -/
abbrev varPrefix : List Char := ['v', 'a', 'r', '(']

/-- what comes before the parenthesis that closes the first of `depth` open ones, and what comes after it -/
def extractFrom (depth : Int) : List Char → Option (List Char × List Char)
  | [] => none
  | c :: s =>
    let depth := depth + step c
    if c = ')' ∧ depth = 0 then some ([], s) else (extractFrom depth s).map fun p => (c :: p.1, p.2)

def extractBalancedParens (s : List Char) : Option (List Char × List Char) := extractFrom 1 s

def findCommaFrom (depth : Int) : List Char → Option Nat
  | [] => none
  | c :: s => if c = ',' ∧ depth = 0 then some 0 else (findCommaFrom (depth + step c) s).map (· + 1)

/-- the first comma outside of parentheses -/
def findTopLevelComma (s : List Char) : Option Nat := findCommaFrom 0 s

/-- the name of a reference, and its fallback -/
def reference (content : List Char) : List Char × Option (List Char) :=
  let content := trim content
  match findTopLevelComma content with
  | some comma => (trim (content.take comma), some (trim (content.drop (comma + 1))))
  | none => (content, none)

section
variable (env : ScopeEnv)

/-- the text that takes the place of a reference: the first definition of the name, or else the fallback -/
def lookup (content : List Char) : Option (List Char) := (env.get (reference content).1).or (reference content).2

/-- the rest of a pass: `result` is written, `remaining` is not read yet; `fuel` bounds it -/
def resolveFrom : Nat → (result remaining : List Char) → (changed : Bool) → List Char × Bool
  | 0, result, remaining, changed => (result ++ remaining, changed)
  | fuel + 1, result, remaining, changed =>
    match before varPrefix remaining with
    | none => (result ++ remaining, changed)
    | some start =>
      let result := result ++ start
      let afterVar := remaining.drop (start.length + varPrefix.length)
      match extractBalancedParens afterVar with
      | some (content, rest) =>
        match lookup env content with
        | some value => resolveFrom fuel (result ++ value) rest true
        | none => resolveFrom fuel (result ++ (varPrefix ++ trim content ++ [')'])) rest changed
      | none => resolveFrom fuel (result ++ varPrefix) afterVar changed

/-- one pass; none when nothing changes -/
def resolveVarOnceEnv (css : List Char) : Option (List Char) :=
  if before varPrefix css = none then none
  else
    let pass := resolveFrom env css.length [] css false
    if pass.2 = true then some pass.1 else none

/-- at most so many passes, until nothing changes or a text comes back -/
def flattenFrom : Nat → (value : List Char) → (visited : List (List Char)) → List Char
  | 0, value, _ => value
  | passes + 1, value, visited =>
    if before varPrefix value = none then value
    else if value ∈ visited then value
    else
      match resolveVarOnceEnv env value with
      | some next => flattenFrom passes next (value :: visited)
      | none => value

def flattenTokenValueEnv (raw : List Char) : List Char := flattenFrom env 32 raw []

end

/-- a character that a function may come after -/
def isBoundary (c : Char) : Bool := c = ' ' || c = '\t' || c = '\n' || c = '\r' || c = '(' || c = ','

/-- a function among what comes after `last` -/
def containsVarFrom : Nat → (last : Option Char) → List Char → Bool
  | 0, _, _ => false
  | fuel + 1, last, value =>
    match before varPrefix value with
    | none => false
    | some start =>
      if (start.getLast?.or last).all isBoundary = true then true
      else containsVarFrom fuel (some '(') (value.drop (start.length + varPrefix.length))

def containsVarFunction (value : List Char) : Bool := containsVarFrom value.length none value

/-- a declaration with a value, or with one that is resolved for each element -/
inductive StyleDeclaration (Decl : Type)
  | typed (decl : Decl)
  | deferred (property rawValue : List Char) (scopeHint : Nat)
deriving DecidableEq

/-- the tokens of CSS: the name of a declaration with the text of its value, and the value for that name -/
structure DeclarationParser (Decl : Type) where
  head : List Char → Option (List Char × List Char)
  value : (property valueText : List Char) → Option (List Decl)

section
variable {Decl : Type} (parser : DeclarationParser Decl)

def parseDeclaration (text : List Char) (scopeHint : Nat) : Option (List (StyleDeclaration Decl)) :=
  match parser.head text with
  | none => none
  | some (property, valueText) =>
    if "--".toList <+: property then some []
    else if containsVarFunction valueText = true then
      some [.deferred property (trim ((trim valueText).rdropWhile (· = ';'))) scopeHint]
    else (parser.value property valueText).map (·.map .typed)

/-- the declarations, or the text that is none -/
def resolveDeferredToDecls (property rawValue : List Char) (env : ScopeEnv) :
    Except (List Char) (List (StyleDeclaration Decl)) :=
  let resolved := flattenTokenValueEnv env rawValue
  match parseDeclaration parser (property ++ ": ".toList ++ resolved) 0 with
  | none => .error resolved
  | some decls =>
    if decls.any fun | .deferred .. => true | .typed _ => false then .error resolved else .ok decls

end

/-! ## parentheses -/

section
variable {s x y rest content : List Char} {depth : Int}

lemma extractFrom_eq (hheight : depth - 1 + height x = 0) (hsafe : Safe (depth - 1) x) :
    extractFrom depth (x ++ ')' :: rest) = some (x, rest) := by
  induction x generalizing depth with
  | nil =>
    rw [height_nil] at hheight
    exact if_pos ⟨rfl, by rw [step_close]; omega⟩
  | cons c x ih =>
    rw [height_cons] at hheight
    obtain ⟨hd, hsafe⟩ := safe_cons.mp hsafe
    have hgo : ¬ (c = ')' ∧ depth + step c = 0) := by
      rintro ⟨rfl, h⟩
      have := hsafe.pos
      rw [step_close] at h this
      omega
    rw [List.cons_append, extractFrom, if_neg hgo, ih (by omega) (hsafe.mono (by omega))]
    rfl

/-- what a parenthesis closes is extracted -/
lemma extract_eq (h : Balanced content) : extractBalancedParens (content ++ ')' :: rest) = some (content, rest) := by
  apply extractFrom_eq
  · rw [h.1]
    rfl
  · exact h.2

lemma extract_some (h : extractBalancedParens s = some (content, rest)) : s = content ++ ')' :: rest ∧ Balanced content := by
  by_cases hsafe : Safe 0 s
  · exfalso
    have hnone : ∀ (s : List Char) (depth : Int), Safe (depth - 1) s → extractFrom depth s = none := by
      intro s
      induction s with
      | nil => exact fun _ _ => rfl
      | cons c s ih =>
        intro depth hsafe
        obtain ⟨-, hs⟩ := safe_cons.mp hsafe
        have hpos := hs.pos
        have hgo : ¬ (c = ')' ∧ depth + step c = 0) := by
          rintro ⟨-, h⟩
          omega
        rw [extractFrom, if_neg hgo, ih _ (hs.mono (by omega))]
        rfl
    rw [extractBalancedParens, hnone s 1 hsafe] at h
    cases h
  · obtain ⟨x, r, rfl, hx⟩ := exists_close hsafe
    rw [extract_eq hx] at h
    cases h
    exact ⟨rfl, hx⟩

end

/-! ## the references of a value -/

inductive Piece
  | chr (c : Char)
  | ref (content : List Char)
deriving DecidableEq

/-- the reference at the beginning -/
def refAt (s : List Char) : Option (List Char × List Char) :=
  if varPrefix <+: s then extractBalancedParens (s.drop varPrefix.length) else none

lemma refAt_some {s content rest : List Char} (h : refAt s = some (content, rest)) :
    s = varPrefix ++ (content ++ ')' :: rest) ∧ Balanced content := by
  unfold refAt at h
  split_ifs at h with hp
  obtain ⟨y, rfl⟩ := hp
  rw [List.drop_left] at h
  obtain ⟨rfl, hbalanced⟩ := extract_some h
  exact ⟨rfl, hbalanced⟩

/-- the characters and the references, from the left -/
def scan : List Char → List Piece
  | [] => []
  | c :: s =>
    match _h : refAt (c :: s) with
    | some (content, rest) => .ref content :: scan rest
    | none => .chr c :: scan s
termination_by s => s.length
decreasing_by
  · rw [(refAt_some _h).1]
    simp
    omega
  · simp

section
variable {s rest content start : List Char} {c : Char}

@[simp] lemma scan_nil : scan [] = [] := by rw [scan]

lemma refAt_eq (h : Balanced content) : refAt (varPrefix ++ (content ++ ')' :: rest)) = some (content, rest) := by
  rw [refAt, if_pos (List.prefix_append _ _), List.drop_left, extract_eq h]

lemma scan_ref (h : Balanced content) : scan (varPrefix ++ (content ++ ')' :: rest)) = .ref content :: scan rest := by
  have hat : refAt ('v' :: (['a', 'r', '('] ++ (content ++ ')' :: rest))) = some (content, rest) := refAt_eq h
  change scan ('v' :: (['a', 'r', '('] ++ (content ++ ')' :: rest))) = _
  rw [scan]
  split
  · rename_i heq
    cases hat.symm.trans heq
    rfl
  · rename_i heq
    cases hat.symm.trans heq

lemma scan_chr_of_refAt (h : refAt (c :: s) = none) : scan (c :: s) = .chr c :: scan s := by
  rw [scan]
  split
  · rename_i heq
    cases h.symm.trans heq
  · rfl

lemma scan_chr (h : ¬ varPrefix <+: c :: s) : scan (c :: s) = .chr c :: scan s :=
  scan_chr_of_refAt (if_neg h)

/-- where no function begins, a text is its characters -/
lemma scan_plain (h : before varPrefix s = none) : scan s = s.map .chr := by
  induction s with
  | nil => exact scan_nil
  | cons c s ih =>
    rw [before] at h
    split_ifs at h with hp
    rw [scan_chr hp, ih (Option.map_eq_none_iff.mp h)]
    rfl

lemma scan_before (h : before varPrefix s = some start) :
    scan s = start.map .chr ++ scan (s.drop start.length) := by
  induction s generalizing start with
  | nil => cases h
  | cons c s ih =>
    rw [before] at h
    split_ifs at h with hp
    · cases h
      rfl
    · obtain ⟨start, hstart, rfl⟩ := Option.map_eq_some_iff.mp h
      rw [scan_chr hp, ih hstart]
      rfl

/-- a parenthesis that is not closed -/
lemma scan_open (h : extractBalancedParens s = none) : scan (varPrefix ++ s) = varPrefix.map .chr ++ scan s := by
  have hat : refAt (varPrefix ++ s) = none := by
    rw [refAt, if_pos (List.prefix_append _ _), List.drop_left, h]
  have hv : scan ('v' :: 'a' :: 'r' :: '(' :: s) = .chr 'v' :: scan ('a' :: 'r' :: '(' :: s) := scan_chr_of_refAt hat
  change scan ('v' :: 'a' :: 'r' :: '(' :: s) = _
  rw [hv, scan_chr (by simp), scan_chr (by simp), scan_chr (by simp)]
  rfl

end

/-! ## a pass -/

section
variable (env : ScopeEnv)

/-- a reference that stays -/
def kept (content : List Char) : List Char := varPrefix ++ (trim content ++ [')'])

/-- what a pass writes for a reference -/
def image (content : List Char) : List Char := (lookup env content).getD (kept content)

def Piece.image : Piece → List Char
  | .chr c => [c]
  | .ref content => Style.image env content

/-- the reference has a definition or a fallback -/
def Piece.resolves : Piece → Bool
  | .chr _ => false
  | .ref content => (lookup env content).isSome

/-- a text in the place of each reference -/
def replaced (s : List Char) : List Char := (scan s).flatMap (Piece.image env)

variable {env} {s start : List Char}

lemma flatMap_chr (s : List Char) : (s.map Piece.chr).flatMap (Piece.image env) = s := by
  induction s with
  | nil => rfl
  | cons c s ih =>
    rw [List.map_cons, List.flatMap_cons, ih]
    rfl

lemma any_chr (s : List Char) : (s.map Piece.chr).any (Piece.resolves env) = false := by
  rw [List.any_map]
  exact List.any_eq_false.mpr fun _ _ => Bool.false_ne_true

lemma replaced_plain (h : before varPrefix s = none) : replaced env s = s := by
  rw [replaced, scan_plain h, flatMap_chr]

/-- **The rest of a pass** replaces the references of what is not read yet. -/
lemma resolveFrom_eq {fuel : Nat} (hfuel : s.length ≤ fuel) (result : List Char) (changed : Bool) :
    resolveFrom env fuel result s changed = (result ++ replaced env s, changed || (scan s).any (Piece.resolves env)) := by
  induction fuel generalizing s result changed with
  | zero =>
    rw [List.eq_nil_of_length_eq_zero (Nat.le_zero.mp hfuel)]
    simp [resolveFrom, replaced]
  | succ fuel ih =>
    rw [resolveFrom]
    cases hb : before varPrefix s with
    | none => rw [replaced_plain hb, scan_plain hb, any_chr, Bool.or_false]
    | some start =>
      obtain ⟨y, rfl⟩ := before_split hb
      have hscan := scan_before hb
      have hstart : (start ++ varPrefix ++ y).drop start.length = varPrefix ++ y := by
        rw [List.append_assoc, List.drop_left]
      rw [hstart] at hscan
      have hdrop : (start ++ varPrefix ++ y).drop (start.length + varPrefix.length) = y := by
        rw [← List.length_append, List.drop_left]
      have hlength : y.length + 4 ≤ fuel + 1 := by
        refine Nat.le_trans ?_ hfuel
        simp
      simp only [hdrop]
      cases hy : extractBalancedParens y with
      | none =>
        rw [scan_open hy] at hscan
        have hpieces : replaced env (start ++ varPrefix ++ y) = start ++ (varPrefix ++ replaced env y) := by
          rw [replaced, hscan, List.flatMap_append, List.flatMap_append, flatMap_chr, flatMap_chr]
          rfl
        have hany : (scan (start ++ varPrefix ++ y)).any (Piece.resolves env) = (scan y).any (Piece.resolves env) := by
          rw [hscan, List.any_append, List.any_append, any_chr, any_chr, Bool.false_or, Bool.false_or]
        rw [hpieces, hany]
        simp [ih (show y.length ≤ fuel by omega)]
      | some p =>
        obtain ⟨content, rest⟩ := p
        obtain ⟨rfl, hbalanced⟩ := extract_some hy
        rw [scan_ref hbalanced] at hscan
        have hrest : rest.length ≤ fuel := by
          rw [List.length_append, List.length_cons] at hlength
          omega
        have hpieces : replaced env (start ++ varPrefix ++ (content ++ ')' :: rest)) =
            start ++ (image env content ++ replaced env rest) := by
          rw [replaced, hscan, List.flatMap_append, flatMap_chr, List.flatMap_cons]
          rfl
        have hany : (scan (start ++ varPrefix ++ (content ++ ')' :: rest))).any (Piece.resolves env) =
            ((lookup env content).isSome || (scan rest).any (Piece.resolves env)) := by
          rw [hscan, List.any_append, any_chr, Bool.false_or, List.any_cons]
          rfl
        rw [hpieces, hany]
        cases hl : lookup env content with
        | some value => simp [ih hrest, image, hl]
        | none => simp [ih hrest, image, hl, kept]

/-- **One pass** puts a text in the place of each reference; it says whether one of them has a definition or a fallback. -/
theorem resolveVarOnceEnv_eq (s : List Char) :
    resolveVarOnceEnv env s = if (scan s).any (Piece.resolves env) = true then some (replaced env s) else none := by
  unfold resolveVarOnceEnv
  split_ifs with hb hany hany
  · rw [scan_plain hb, any_chr] at hany
    cases hany
  · rfl
  · simp [resolveFrom_eq (Nat.le_refl s.length), hany]
  · simp [resolveFrom_eq (Nat.le_refl s.length), hany]

end

end TerminalManager.Style
