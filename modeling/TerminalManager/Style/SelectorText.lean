import Mathlib.Algebra.Group.Nat.Defs
import TerminalManager.Style.Selector
import TerminalManager.Keybinds.Combo

/-!
# Selectors as text

* `parseSimpleSelector`    one compound, read from left to right;
* `parseSelectorString`    the compounds and the combinators between them;
* `computeSpecificity`     how many ids, classes and tags a selector has;
* `splitTopLevelCommas`    the branches of a grouped selector.
-/

namespace TerminalManager.Style
open Reconcile
open Keybinds (trim)
open Editor (isWhitespace)

/-- the end of a name -/
def isDelimiter (c : Char) : Bool := c = '.' || c = '#' || c = ':'

/-- the decimal digits of a number without a sign -/
def parseDigits (s : List Char) : Option Nat :=
  if s = [] then none else s.foldlM (fun n c => if c.isDigit then some (10 * n + (c.toNat - 48)) else none) 0

/-- `str::parse::<i32>` -/
def parseI32 : List Char → Option Int
  | '-' :: digits => (parseDigits digits).bind fun n => if n ≤ 2 ^ 31 then some (-n) else none
  | '+' :: digits => (parseDigits digits).bind fun n => if n < 2 ^ 31 then some n else none
  | digits => (parseDigits digits).bind fun n => if n < 2 ^ 31 then some n else none

/-- the argument of `:not` -/
def parseNot (arg : List Char) : Option SelectorPart :=
  match trim arg with
  | '.' :: cls => some (.pseudoClass (.not (.cls (String.ofList cls))))
  | '#' :: id => some (.pseudoClass (.not (.id (String.ofList id))))
  | [] => none
  | tag => some (.pseudoClass (.not (.tag (String.ofList tag))))

/-- what a name after one or two colons stands for, and whether its argument is read with it -/
def pseudoPart (name : String) (doubleColon : Bool) (arg : Option (List Char)) : Option (SelectorPart × Bool) :=
  if name = "before" then some (.pseudoElement .before, false)
  else if name = "after" then some (.pseudoElement .after, false)
  else if name = "selection" ∨ name = "-moz-selection" then some (.pseudoElement .selection, false)
  else if doubleColon then
    if name = "placeholder" ∨ name = "-webkit-input-placeholder" ∨ name = "-moz-placeholder" then
      some (.pseudoElement .placeholder, false)
    else none
  else
    match name with
    | "hover" => some (.pseudoClass .hover, false)
    | "active" => some (.pseudoClass .active, false)
    | "focus" => some (.pseudoClass .focus, false)
    | "focus-visible" => some (.pseudoClass .focusVisible, false)
    | "focus-within" => some (.pseudoClass .focusWithin, false)
    | "first-child" => some (.pseudoClass .firstChild, false)
    | "last-child" => some (.pseudoClass .lastChild, false)
    | "first-of-type" => some (.pseudoClass .firstOfType, false)
    | "last-of-type" => some (.pseudoClass .lastOfType, false)
    -- every element, not the root alone
    | "root" => some (.universal, false)
    | "nth-child" => arg.bind fun arg => (parseI32 (trim arg)).map fun n => (.pseudoClass (.nthChild n), true)
    | "not" => arg.bind fun arg => (parseNot arg).map fun part => (part, true)
    | _ => none

/-- the second of two colons is read -/
def skipColon (rest : List Char) : List Char := if rest.head? = some ':' then rest.tail else rest

/-- what follows a colon, and what is left after it -/
def readPseudo (rest : List Char) : Option (SelectorPart × List Char) :=
  let name := (skipColon rest).takeWhile fun c => !(isDelimiter c || c = '(')
  let after := (skipColon rest).dropWhile fun c => !(isDelimiter c || c = '(')
  let arg := if after.head? = some '(' then some (after.tail.takeWhile (· ≠ ')')) else none
  (pseudoPart (String.ofList name) (rest.head? = some ':') arg).map fun found =>
    (found.1, if found.2 then (after.tail.dropWhile (· ≠ ')')).tail else after)

lemma length_dropWhile (p : Char → Bool) (l : List Char) : (l.dropWhile p).length ≤ l.length :=
  (List.dropWhile_sublist p).length_le

lemma length_readPseudo {rest rest' : List Char} {part : SelectorPart} (h : readPseudo rest = some (part, rest')) :
    rest'.length ≤ rest.length := by
  obtain ⟨found, -, heq⟩ := Option.map_eq_some_iff.mp h
  obtain ⟨-, rfl⟩ := Prod.mk.inj heq
  have htail := fun l : List Char => (List.tail_sublist l).length_le
  have hskip : (skipColon rest).length ≤ rest.length := by
    unfold skipColon
    split_ifs
    · exact htail rest
    · exact Nat.le_refl _
  split_ifs with harg
  · exact (htail _).trans ((length_dropWhile _ _).trans ((htail _).trans ((length_dropWhile _ _).trans hskip)))
  · exact (length_dropWhile _ _).trans hskip

/-- what was read without a sign before it is a tag -/
def flushTag (buf : List Char) (parts : Compound) : Compound :=
  if buf = [] then parts else parts ++ [.tag (String.ofList buf)]

/-- a class or an id, if it has a name -/
def pushNamed (part : String → SelectorPart) (name : List Char) (parts : Compound) : Compound :=
  if name = [] then parts else parts ++ [part (String.ofList name)]

def parseSimpleFrom (s buf : List Char) (parts : Compound) : Option Compound :=
  match s with
  | [] => if (flushTag buf parts).isEmpty then none else some (flushTag buf parts)
  | '.' :: rest =>
    parseSimpleFrom (rest.dropWhile (!isDelimiter ·)) []
      (pushNamed .cls (rest.takeWhile (!isDelimiter ·)) (flushTag buf parts))
  | '#' :: rest =>
    parseSimpleFrom (rest.dropWhile (!isDelimiter ·)) []
      (pushNamed .id (rest.takeWhile (!isDelimiter ·)) (flushTag buf parts))
  | ':' :: rest =>
    match h : readPseudo rest with
    | none => none
    | some (part, rest') => parseSimpleFrom rest' [] (flushTag buf parts ++ [part])
  | '*' :: rest => parseSimpleFrom rest buf (parts ++ [.universal])
  | c :: rest => parseSimpleFrom rest (buf ++ [c]) parts
termination_by s.length
decreasing_by
  · exact Nat.lt_succ_of_le (length_dropWhile _ rest)
  · exact Nat.lt_succ_of_le (length_dropWhile _ rest)
  · exact Nat.lt_succ_of_le (length_readPseudo h)
  · exact Nat.lt_succ_self _
  · exact Nat.lt_succ_self _

def parseSimpleSelector (s : List Char) : Option Compound := parseSimpleFrom s [] []

/-- `str::split_whitespace` -/
def splitWhitespace (s : List Char) : List (List Char) := (s.splitOnP isWhitespace).filter (· ≠ [])

def parseTokens : List (List Char) → Compound → List (Compound × Option SelectorCombinator) → Option SelectorChain
  | [], current, parts => some ⟨if current.isEmpty then parts else parts ++ [(current, none)]⟩
  | token :: tokens, current, parts =>
    if token = ['>'] then
      if current.isEmpty then parseTokens tokens current parts
      else parseTokens tokens [] (parts ++ [(current, some .child)])
    else
      match parseSimpleSelector token with
      | none => none
      | some sub =>
        if tokens ≠ [] ∧ tokens.head? ≠ some ['>'] then
          parseTokens tokens [] (parts ++ [(current ++ sub, some .descendant)])
        else parseTokens tokens (current ++ sub) parts

/-- a combinator is stored with the compound before it -/
def parseSelectorString (s : List Char) : Option SelectorChain := parseTokens (splitWhitespace s) [] []

/-! ## specificity -/

structure Specificity where
  ids : UInt16
  classes : UInt16
  tags : UInt16
deriving DecidableEq, Repr

def Specificity.add (s : Specificity) : SelectorPart → Specificity
  | .id _ => { s with ids := s.ids + 1 }
  | .cls _ | .pseudoClass _ => { s with classes := s.classes + 1 }
  | .tag _ | .pseudoElement _ => { s with tags := s.tags + 1 }
  | .universal => s

def computeSpecificity (chain : SelectorChain) : Specificity :=
  chain.parts.foldl (fun s part => part.1.foldl Specificity.add s) ⟨0, 0, 0⟩

/-- of a selector that cannot be read, the least one -/
def selectorSpecificity (selector : List Char) : Specificity :=
  ((parseSelectorString selector).map computeSpecificity).getD ⟨0, 0, 0⟩

/-! ## groups -/

/-- the branches from a place on; `depth` counts the brackets that are open, and `branch` is what was read of one -/
def splitCommasFrom (depth : Int) (branch : List Char) : List Char → List (List Char)
  | [] => [branch]
  | c :: rest =>
    if c = '(' ∨ c = '[' then splitCommasFrom (depth + 1) (branch ++ [c]) rest
    else if c = ')' ∨ c = ']' then splitCommasFrom (depth - 1) (branch ++ [c]) rest
    else if c = ',' ∧ depth = 0 then branch :: splitCommasFrom depth [] rest
    else splitCommasFrom depth (branch ++ [c]) rest

def splitTopLevelCommas (s : List Char) : List (List Char) := splitCommasFrom 0 [] s

lemma splitCommasFrom_eq (depth : Int) (branch s : List Char) (h : ',' ∉ s) : splitCommasFrom depth branch s = [branch ++ s] := by
  induction s generalizing depth branch with
  | nil => rw [splitCommasFrom, List.append_nil]
  | cons c s ih =>
    rw [List.mem_cons, not_or] at h
    obtain ⟨hc, hs⟩ := h
    have hno : ¬(c = ',' ∧ depth = 0) := fun hcomma => hc hcomma.1.symm
    rw [splitCommasFrom]
    split_ifs
    all_goals rw [ih _ _ hs, List.append_assoc, List.singleton_append]

/-- a selector without a comma is not a group -/
lemma splitTopLevelCommas_eq {s : List Char} (h : ',' ∉ s) : splitTopLevelCommas s = [s] := splitCommasFrom_eq 0 [] s h

/-! ## an example -/

example : parseSelectorString ".panel > span.label:not(.dim)".toList = some
    ⟨[([.cls "panel"], some .child), ([.tag "span", .cls "label", .pseudoClass (.not (.cls "dim"))], none)]⟩ := by
  decide +kernel

end TerminalManager.Style
