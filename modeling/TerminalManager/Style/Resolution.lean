import TerminalManager.Style.Expansion
import Mathlib.Logic.Relation

/-!
# What the references of a value come to

* `Means`                     a value with every reference replaced, in what takes its place too;
* `Chain n`                   `n` replacements, each of a reference in what took the place of the one before;
* `Cyclic`                    a reference that must be replaced leads back to itself;
* `flattenTokenValueEnv_expand`   the passes end at a depth: the last one, or one where nothing changes any more;
* `flattenTokenValueEnv_resolves`  without a chain of more than 32, the result is what the value means; with one, or with
  a cycle, it still has a function, and the declaration is dropped.
-/

namespace TerminalManager.Style
open Keybinds (trim trim_trim)
open Find Parens Relation

section
variable (env : ScopeEnv)

/-- every reference replaced by what its definition or fallback means; one that has neither stays, up to the whitespace
around what is between its parentheses -/
inductive Means : List Piece → List Char → Prop
  | nil : Means [] []
  | chr {c : Char} {ps : List Piece} {rest : List Char} (hrest : Means ps rest) : Means (.chr c :: ps) (c :: rest)
  | kept {content w : List Char} {ps : List Piece} {rest : List Char} (hl : lookup env content = none)
      (hw : trim w = trim content) (hrest : Means ps rest) :
      Means (.ref content :: ps) (varPrefix ++ (w ++ ')' :: rest))
  | replaced {content t value : List Char} {ps : List Piece} {rest : List Char} (hl : lookup env content = some t)
      (hvalue : Means (scan t) value) (hrest : Means ps rest) : Means (.ref content :: ps) (value ++ rest)

/-- so many replacements, each of a reference in what took the place of the one before -/
def Chain : Nat → List Char → Prop
  | 0, _ => True
  | n + 1, s => ∃ content t, Piece.ref content ∈ scan s ∧ lookup env content = some t ∧ Chain n t

/-- what takes the place of a reference has the other one -/
def Leads (content content' : List Char) : Prop := ∃ t, lookup env content = some t ∧ Piece.ref content' ∈ scan t

/-- a reference that must be replaced leads back to itself -/
def Cyclic (s : List Char) : Prop :=
  ∃ first content, Piece.ref first ∈ scan s ∧ ReflTransGen (Leads env) first content ∧ TransGen (Leads env) content content

variable {env} {s t raw content content' : List Char} {last : Option Char} {n : Nat}

/-! ## chains -/

lemma Chain.of_succ (h : Chain env (n + 1) s) : Chain env n s := by
  induction n generalizing s with
  | zero => trivial
  | succ n ih =>
    obtain ⟨content, t, hmem, hl, ht⟩ := h
    exact ⟨content, t, hmem, hl, ih ht⟩

lemma Chain.mono {m : Nat} (h : Chain env n s) (hle : m ≤ n) : Chain env m s := by
  induction hle with
  | refl => exact h
  | step _ ih => exact ih h.of_succ

lemma chain_one : Chain env 1 s ↔ (scan s).any (Piece.resolves env) = true := by
  rw [List.any_eq_true]
  constructor
  · rintro ⟨content, t, hmem, hl, -⟩
    exact ⟨.ref content, hmem, by rw [Piece.resolves, hl]; rfl⟩
  · rintro ⟨p, hmem, hp⟩
    cases p with
    | chr c => cases hp
    | ref content =>
      obtain ⟨t, hl⟩ := Option.isSome_iff_exists.mp hp
      exact ⟨content, t, hmem, hl, trivial⟩

/-- what takes the place of a piece -/
def Piece.target (env : ScopeEnv) : Piece → Option (List Char)
  | .chr _ => none
  | .ref content => lookup env content

lemma chain_succ : Chain env (n + 1) s ↔ ∃ p ∈ scan s, ∃ t ∈ p.target env, Chain env n t := by
  constructor
  · rintro ⟨content, t, hmem, hl, ht⟩
    exact ⟨.ref content, hmem, t, hl, ht⟩
  · rintro ⟨p, hmem, t, hl, ht⟩
    cases p with
    | chr c => cases hl
    | ref content => exact ⟨content, t, hmem, hl, ht⟩

instance decidableChain : ∀ (n : Nat) (s : List Char), Decidable (Chain env n s)
  | 0, _ => isTrue trivial
  | n + 1, _ =>
    have := decidableChain n
    decidable_of_iff _ chain_succ.symm

/-- what can be replaced in the value at a depth is at the end of a chain -/
lemma chain_expand (henv : TidyEnv env) (h : Tidy t) : Chain env 1 (expand env n t) ↔ Chain env (n + 1) t := by
  induction n generalizing t with
  | zero => exact Iff.rfl
  | succ n ih =>
    rw [chain_one, scan_expand henv h.tail, List.any_flatMap, List.any_eq_true]
    constructor
    · rintro ⟨p, hp, hany⟩
      cases p with
      | chr c => cases hany
      | ref content =>
        cases hl : lookup env content with
        | none =>
          rw [Piece.brought, hl, Option.elim_none, List.any_cons, Piece.resolves, lookup_trim, hl] at hany
          cases hany
        | some u =>
          rw [Piece.brought, hl, Option.elim_some, ← chain_one] at hany
          exact ⟨content, u, hp, hl, (ih ((h.tail.tidy_of_ref hp).looked_up henv hl)).mp hany⟩
    · rintro ⟨content, u, hp, hl, hu⟩
      refine ⟨.ref content, hp, ?_⟩
      rw [Piece.brought, hl, Option.elim_some, ← chain_one]
      exact (ih ((h.tail.tidy_of_ref hp).looked_up henv hl)).mpr hu

/-! ## cycles -/

/-- the reference begins a chain -/
def Deep (env : ScopeEnv) (n : Nat) (content : List Char) : Prop := ∃ t, lookup env content = some t ∧ Chain env n t

lemma Leads.deep (h : Leads env content content') (hdeep : Deep env n content') : Deep env (n + 1) content := by
  obtain ⟨t, hl, hmem⟩ := h
  obtain ⟨u, hl', hu⟩ := hdeep
  exact ⟨t, hl, content', u, hmem, hl', hu⟩

lemma Deep.of_succ (h : Deep env (n + 1) content) : Deep env n content := by
  obtain ⟨t, hl, ht⟩ := h
  exact ⟨t, hl, ht.of_succ⟩

lemma deep_of_transGen (h : TransGen (Leads env) content content') (hdeep : Deep env n content') :
    Deep env (n + 1) content := by
  induction h using TransGen.head_induction_on with
  | single h => exact h.deep hdeep
  | head h _ ih => exact h.deep ih.of_succ

/-- a reference on a cycle begins chains of every length -/
lemma deep_of_cycle (h : TransGen (Leads env) content content) (n : Nat) : Deep env n content := by
  induction n with
  | zero =>
    obtain ⟨_, ⟨t, hl, -⟩, -⟩ := TransGen.head'_iff.mp h
    exact ⟨t, hl, trivial⟩
  | succ n ih => exact deep_of_transGen h ih

/-- **Chains of every length** begin where there is a cycle. -/
theorem Cyclic.chain (h : Cyclic env s) (n : Nat) : Chain env n s := by
  obtain ⟨first, content, hmem, hreach, hcycle⟩ := h
  have hfirst : Deep env n first := by
    rcases reflTransGen_iff_eq_or_transGen.mp hreach with rfl | hreach
    · exact deep_of_cycle hcycle n
    · exact (deep_of_transGen hreach (deep_of_cycle hcycle n)).of_succ
  obtain ⟨t, hl, ht⟩ := hfirst
  exact Chain.of_succ ⟨first, t, hmem, hl, ht⟩

/-! ## the passes -/

lemma resolveVarOnceEnv_expand (henv : TidyEnv env) (h : Tidy raw) (hc : Chain env (n + 1) raw) :
    resolveVarOnceEnv env (expand env n raw) = some (expand env (n + 1) raw) := by
  rw [resolveVarOnceEnv_eq, if_pos (chain_one.mp ((chain_expand henv h).mpr hc)), replaced_expand henv n h]

lemma resolveVarOnceEnv_none (henv : TidyEnv env) (h : Tidy raw) (hc : ¬ Chain env (n + 1) raw) :
    resolveVarOnceEnv env (expand env n raw) = none := by
  rw [resolveVarOnceEnv_eq, if_neg fun hany => hc ((chain_expand henv h).mp (chain_one.mpr hany))]

/-- the depth where the passes end: nothing changes there, or its text is that of a smaller one, or it is the last one -/
def Ends (env : ScopeEnv) (raw : List Char) (final depth : Nat) : Prop :=
  ¬ Chain env (depth + 1) raw ∨ (∃ earlier < depth, expand env earlier raw = expand env depth raw) ∨ depth = final

/-- **Run lemma**: from the depth where they are, the passes go to one where they end. -/
lemma flattenFrom_expand (henv : TidyEnv env) (h : Tidy raw) (passes : Nat) {visited : List (List Char)}
    (hvisited : ∀ value ∈ visited, ∃ earlier < n, expand env earlier raw = value) :
    ∃ depth ≤ n + passes, flattenFrom env passes (expand env n raw) visited = expand env depth raw ∧
      Ends env raw (n + passes) depth := by
  induction passes generalizing n visited with
  | zero => exact ⟨n, Nat.le_refl _, rfl, .inr (.inr rfl)⟩
  | succ passes ih =>
    rw [flattenFrom]
    split_ifs with hb hv
    · refine ⟨n, Nat.le_add_right _ _, rfl, .inl fun hc => ?_⟩
      have hany := chain_one.mp ((chain_expand henv h).mpr hc)
      rw [scan_plain hb, any_chr] at hany
      cases hany
    · exact ⟨n, Nat.le_add_right _ _, rfl, .inr (.inl (hvisited _ hv))⟩
    · by_cases hc : Chain env (n + 1) raw
      · rw [resolveVarOnceEnv_expand henv h hc, ← Nat.add_assoc, Nat.add_right_comm]
        refine ih fun value hvalue => ?_
        rcases List.mem_cons.mp hvalue with rfl | hvalue
        · exact ⟨n, Nat.lt_succ_self n, rfl⟩
        · obtain ⟨earlier, hlt, heq⟩ := hvisited value hvalue
          exact ⟨earlier, Nat.lt_succ_of_lt hlt, heq⟩
      · rw [resolveVarOnceEnv_none henv h hc]
        exact ⟨n, Nat.le_add_right _ _, rfl, .inl hc⟩

/-- texts that come back do so forever -/
lemma expand_periodic (henv : TidyEnv env) (h : Tidy raw) {j k : Nat} (heq : expand env j raw = expand env k raw) (i : Nat) :
    expand env (j + i) raw = expand env (k + i) raw := by
  induction i with
  | zero => exact heq
  | succ i ih => rw [← Nat.add_assoc, ← Nat.add_assoc, ← replaced_expand henv _ h, ← replaced_expand henv _ h, ih]

/-- **A text that comes back** has chains of every length, when it has one that reaches to where it does. -/
lemma chain_of_periodic (henv : TidyEnv env) (h : Tidy raw) {j k : Nat} (hlt : j < k)
    (heq : expand env j raw = expand env k raw) (hc : Chain env (k + 1) raw) (n : Nat) : Chain env n raw := by
  induction n using Nat.strong_induction_on with
  | h n ih =>
    by_cases hle : n ≤ k + 1
    · exact hc.mono hle
    · obtain ⟨i, rfl⟩ := Nat.exists_eq_add_of_lt (Nat.lt_of_not_le hle)
      have hback : Chain env (j + (i + 1) + 1) raw := ih _ (by omega)
      have hsame := (chain_expand henv h).mpr hback
      rw [expand_periodic henv h heq] at hsame
      have hchain := (chain_expand henv h).mp hsame
      rwa [show k + 1 + i + 1 = k + (i + 1) + 1 by omega]

/-- **The passes end at a depth** that is at most 32; where no chain is longer than 32, nothing changes there any more. -/
theorem flattenTokenValueEnv_expand (henv : TidyEnv env) (h : Tidy raw) :
    ∃ depth ≤ 32, flattenTokenValueEnv env raw = expand env depth raw ∧
      (¬ Chain env 33 raw → ¬ Chain env (depth + 1) raw) := by
  obtain ⟨depth, hle, heq, hends⟩ := @flattenFrom_expand env raw 0 henv h 32 [] (fun _ hvalue => nomatch hvalue)
  refine ⟨depth, by omega, heq, fun hno hc => ?_⟩
  rcases hends with hends | ⟨earlier, hlt, hsame⟩ | rfl
  · exact hends hc
  · exact hno (chain_of_periodic henv h hlt hsame hc 33)
  · exact hno hc

/-! ## the meaning -/

/-- where no reference has a definition or a fallback, a value means itself -/
lemma Tail.means (h : Tail last s) (hno : ∀ content, Piece.ref content ∈ scan s → lookup env content = none) :
    Means env (scan s) s := by
  induction h with
  | nil =>
    rw [scan_nil]
    exact Means.nil
  | chr hc _ ih =>
    rw [scan_chr hc] at hno ⊢
    exact Means.chr (ih fun content hmem => hno content (List.mem_cons_of_mem _ hmem))
  | ref _ hcontent _ _ ih =>
    rw [scan_ref hcontent.balanced] at hno ⊢
    exact Means.kept (hno _ List.mem_cons_self) rfl (ih fun content hmem => hno content (List.mem_cons_of_mem _ hmem))

/-- **Step lemma**: with what takes the place of its references replaced, a value is what it means. -/
lemma Tail.means_expand (h : Tail last s)
    (ih : ∀ content t, Piece.ref content ∈ scan s → lookup env content = some t → Means env (scan t) (expand env n t)) :
    Means env (scan s) (expand env (n + 1) s) := by
  induction h with
  | nil =>
    rw [scan_nil, expand_nil]
    exact Means.nil
  | chr hc _ ihs =>
    rw [scan_chr hc] at ih ⊢
    rw [expand_chr hc]
    exact Means.chr (ihs fun content t hmem => ih content t (List.mem_cons_of_mem _ hmem))
  | @ref last content rest _ hcontent _ _ ihs =>
    rw [scan_ref hcontent.balanced] at ih ⊢
    rw [expand_ref hcontent.balanced, put]
    have hrest := ihs fun content t hmem => ih content t (List.mem_cons_of_mem _ hmem)
    cases hl : lookup env content with
    | none =>
      rw [Option.elim_none, kept, List.append_assoc, List.append_assoc]
      exact Means.kept hl (trim_trim content) hrest
    | some t => exact Means.replaced hl (ih content t List.mem_cons_self hl) hrest

/-- **Run lemma**: where no chain is longer than the depth, the value is what it means. -/
lemma means_expand (henv : TidyEnv env) (h : Tidy t) (hno : ¬ Chain env (n + 1) t) : Means env (scan t) (expand env n t) := by
  induction n generalizing t with
  | zero =>
    refine h.tail.means fun content hmem => ?_
    by_contra hl
    obtain ⟨u, hu⟩ := Option.ne_none_iff_exists'.mp hl
    exact hno ⟨content, u, hmem, hu, trivial⟩
  | succ n ih =>
    refine h.tail.means_expand fun content u hmem hl => ?_
    exact ih ((h.tail.tidy_of_ref hmem).looked_up henv hl) fun hu => hno ⟨content, u, hmem, hl, hu⟩

/-! ## what is left over -/

lemma Tail.call (h : Tail last s) (hmem : Piece.ref content ∈ scan s) :
    ∃ x y, s = x ++ (varPrefix ++ y) ∧ (x.getLast?.or last).all isBoundary = true := by
  induction h with
  | nil =>
    rw [scan_nil] at hmem
    cases hmem
  | @chr last c s hc _ ih =>
    rw [scan_chr hc] at hmem
    obtain ⟨x, y, rfl, hx⟩ := ih ((List.mem_cons.mp hmem).resolve_left (nomatch ·))
    refine ⟨c :: x, y, rfl, ?_⟩
    rw [List.getLast?_cons]
    cases hx' : x.getLast? <;> simpa [hx'] using hx
  | @ref last content rest hlast hcontent hrest _ ih =>
    exact ⟨[], _, rfl, hlast⟩

/-- the function does not overlap itself -/
lemma varPrefix_apart {z y y' : List Char} (h : z ++ (varPrefix ++ y) = varPrefix ++ y') (hz : z ≠ []) :
    ∃ z', z = varPrefix ++ z' ∧ y' = z' ++ (varPrefix ++ y) := by
  match z with
  | [] => exact absurd rfl hz
  | [_] => simp at h
  | [_, _] => simp at h
  | [_, _, _] => simp at h
  | a :: b :: c :: d :: z =>
    simp only [List.cons_append, List.nil_append, List.cons.injEq] at h
    obtain ⟨rfl, rfl, rfl, rfl, rfl⟩ := h
    exact ⟨z, rfl, rfl⟩

/-- **A function is found** wherever it is. -/
lemma containsVarFrom_of_call {fuel : Nat} {x y value : List Char} (hvalue : value = x ++ (varPrefix ++ y))
    (hfuel : value.length ≤ fuel) (hx : (x.getLast?.or last).all isBoundary = true) :
    containsVarFrom fuel last value = true := by
  induction fuel generalizing last x value with
  | zero =>
    rw [hvalue] at hfuel
    simp at hfuel
  | succ fuel ih =>
    rw [containsVarFrom]
    cases hb : before varPrefix value with
    | none => exact absurd ⟨x, y, by rw [hvalue, List.append_assoc]⟩ (before_eq_none.mp hb)
    | some start =>
      dsimp only
      split_ifs with hboundary
      · rfl
      obtain ⟨y', hy'⟩ := before_split hb
      have hle := before_first hb (hvalue.trans (List.append_assoc ..).symm)
      have hstart : start <+: value := ⟨varPrefix ++ y', by rw [hy', List.append_assoc]⟩
      obtain ⟨z, rfl⟩ := List.prefix_of_prefix_length_le hstart ⟨varPrefix ++ y, hvalue.symm⟩ hle
      have hz : z ≠ [] := by
        rintro rfl
        rw [List.append_nil] at hx
        exact hboundary hx
      have htail : z ++ (varPrefix ++ y) = varPrefix ++ y' := by
        have := hvalue.symm.trans hy'
        rw [List.append_assoc, List.append_assoc] at this
        exact List.append_cancel_left this
      obtain ⟨z', rfl, rfl⟩ := varPrefix_apart htail hz
      have hdrop : value.drop (start.length + varPrefix.length) = z' ++ (varPrefix ++ y) := by
        rw [hy', ← List.length_append, List.drop_left]
      rw [hdrop]
      refine ih rfl ?_ ?_
      · rw [hvalue] at hfuel
        simp at hfuel ⊢
        omega
      · rw [List.getLast?_append, List.getLast?_append] at hx
        cases hz' : z'.getLast? with
        | none => rfl
        | some c => simpa [hz'] using hx

lemma Tail.containsVarFunction (h : Tail none s) (hmem : Piece.ref content ∈ scan s) :
    Style.containsVarFunction s = true ∧ Style.containsVarFunction (' ' :: s) = true := by
  obtain ⟨x, y, hs, hx⟩ := h.call hmem
  refine ⟨containsVarFrom_of_call hs (Nat.le_refl _) hx, ?_⟩
  refine containsVarFrom_of_call (x := ' ' :: x) (y := y) (by rw [hs]; rfl) (Nat.le_refl _) ?_
  rw [List.getLast?_cons]
  cases hx' : x.getLast? with
  | none => rfl
  | some c => simpa [hx'] using hx

/-- where a chain is longer than the passes go, the result still has a function -/
lemma containsVarFunction_flatten (henv : TidyEnv env) (h : Tidy raw) (hc : Chain env 33 raw) :
    containsVarFunction (flattenTokenValueEnv env raw) = true ∧
      containsVarFunction (' ' :: flattenTokenValueEnv env raw) = true := by
  obtain ⟨depth, hle, heq, -⟩ := flattenTokenValueEnv_expand henv h
  obtain ⟨content, _, hmem, -⟩ := (chain_expand henv h).mpr (hc.mono (show depth + 1 ≤ 33 by omega))
  rw [heq]
  exact (tail_expand henv depth h).containsVarFunction hmem

end

/-! ## the declaration -/

/-- the tokens of a declaration with that value are its name and the value -/
def DeclarationParser.ReadsBack {Decl : Type} (parser : DeclarationParser Decl) (property value : List Char) : Prop :=
  parser.head (property ++ ": ".toList ++ value) = some (property, ' ' :: value)

section
variable {Decl : Type} {parser : DeclarationParser Decl} {property rawValue : List Char} {env : ScopeEnv}

/-- a declaration is dropped when its value still has a function -/
lemma resolveDeferredToDecls_error (hname : ¬ "--".toList <+: property)
    (hread : parser.ReadsBack property (flattenTokenValueEnv env rawValue))
    (h : containsVarFunction (' ' :: flattenTokenValueEnv env rawValue) = true) :
    resolveDeferredToDecls parser property rawValue env = .error (flattenTokenValueEnv env rawValue) := by
  simp only [resolveDeferredToDecls, parseDeclaration]
  rw [hread]
  dsimp only
  rw [if_neg hname, if_pos h]
  rfl

/-- **Main result.** The scopes are looked up in their order, and the fallback takes the place of a name that none of
them has. Where no chain of replacements is longer than 32, so that no reference leads back to itself, the result is the
value with every reference replaced, and those that stay have neither a definition nor a fallback. Where one is longer,
and where a reference that must be replaced leads back to itself, the result still has a function, and the declaration is
dropped. -/
theorem flattenTokenValueEnv_resolves {Decl : Type} (parser : DeclarationParser Decl)
    (selfScope rootScope base : Option Vars) (raw : List Char) (henv : TidyEnv ⟨[selfScope, rootScope, base]⟩)
    (hraw : Tidy raw) :
    let env : ScopeEnv := ⟨[selfScope, rootScope, base]⟩
    let resolved := flattenTokenValueEnv env raw
    (∀ content, let name := (reference content).1
      lookup env content = (selfScope.bind (·.get name)).or ((rootScope.bind (·.get name)).or
        ((base.bind (·.get name)).or (reference content).2))) ∧
    (¬ Chain env 33 raw → ¬ Cyclic env raw ∧ Means env (scan raw) resolved) ∧
    (Chain env 33 raw ∨ Cyclic env raw → containsVarFunction resolved = true ∧
      ∀ property, ¬ "--".toList <+: property → parser.ReadsBack property resolved →
        resolveDeferredToDecls parser property raw env = .error resolved) := by
  intro env resolved
  refine ⟨fun content => ?_, fun hno => ⟨fun hcyclic => hno (hcyclic.chain 33), ?_⟩, fun hlong => ?_⟩
  · simp only [lookup, ScopeEnv.get, env, List.findSome?]
    cases selfScope.bind fun vars => vars.get (reference content).1 with
    | some value => rfl
    | none =>
      cases rootScope.bind fun vars => vars.get (reference content).1 with
      | some value => rfl
      | none => cases base.bind fun vars => vars.get (reference content).1 <;> rfl
  · obtain ⟨depth, -, heq, hends⟩ := flattenTokenValueEnv_expand henv hraw
    change Means env (scan raw) (flattenTokenValueEnv env raw)
    rw [heq]
    exact means_expand henv hraw (hends hno)
  · have hchain : Chain env 33 raw := hlong.elim id fun hcyclic => hcyclic.chain 33
    obtain ⟨hcall, hvalue⟩ := containsVarFunction_flatten henv hraw hchain
    exact ⟨hcall, fun property hname hread => resolveDeferredToDecls_error hname hread hvalue⟩

/-- a theme, and a base with a definition that leads back to itself -/
def sampleScopes : ScopeEnv :=
  ⟨[none, some [("--gap".toList, "2px".toList)],
    some [("--gap".toList, "1px".toList), ("--loop".toList, "0 var(--loop)".toList)]]⟩

/-- the name up to the colon, and the value after it -/
def sampleParser : DeclarationParser (List Char) where
  head text := some (text.takeWhile (· ≠ ':'), (text.dropWhile (· ≠ ':')).tail)
  value _ valueText := some [valueText]

theorem flattenTokenValueEnv_resolves_sample :
    flattenTokenValueEnv sampleScopes "var(--gap) var(--none, 3px)".toList = "2px 3px".toList ∧
    Means sampleScopes (scan "var(--gap) var(--none, 3px)".toList) "2px 3px".toList ∧
    resolveDeferredToDecls sampleParser "gap".toList "var(--loop)".toList sampleScopes =
      .error (flattenTokenValueEnv sampleScopes "var(--loop)".toList) := by
  have henv : TidyEnv sampleScopes := tidyEnv_of_forall (by decide)
  have hflat : flattenTokenValueEnv sampleScopes "var(--gap) var(--none, 3px)".toList = "2px 3px".toList := by
    decide
  have hmeans := flattenTokenValueEnv_resolves sampleParser _ _ _ "var(--gap) var(--none, 3px)".toList henv (by decide)
  have hloop := flattenTokenValueEnv_resolves sampleParser _ _ _ "var(--loop)".toList henv (by decide)
  have hread (value : List Char) : sampleParser.ReadsBack "gap".toList value := rfl
  refine ⟨hflat, ?_, ?_⟩
  · rw [← hflat]
    exact (hmeans.2.1 (by decide +kernel)).2
  · exact (hloop.2.2 (.inl (by decide +kernel))).2 "gap".toList (by decide) (hread _)

/-- a name that is defined by the next one -/
def aliasName (n : Nat) : List Char := "--x".toList ++ List.replicate n 'x'

def aliasValue (n : Nat) : List Char := varPrefix ++ (aliasName n ++ [')'])

/-- so many names, each defined by the next one, and the last one by a number -/
def aliases (n : Nat) : ScopeEnv :=
  ⟨[none, none, some ((aliasName n, ['1']) :: (List.range n).map fun i => (aliasName i, aliasValue (i + 1)))]⟩

lemma scan_aliasValue (n : Nat) : scan (aliasValue n) = [.ref (aliasName n)] := by
  have hplain : Balanced (aliasName n) := by
    apply balanced_plain
    unfold aliasName
    refine List.forall_mem_append.mpr ⟨by decide, fun c hc => ?_⟩
    obtain rfl : c = 'x' := List.eq_of_mem_replicate hc
    rfl
  rw [aliasValue, scan_ref hplain, scan_nil]

lemma lookup_aliases : (∀ i < 32, lookup (aliases 32) (aliasName i) = some (aliasValue (i + 1))) ∧
    lookup (aliases 32) (aliasName 32) = some ['1'] := by
  decide

lemma scan_number : scan ['1'] = [.chr '1'] := by
  rw [scan_chr (by decide), scan_nil]

/-- from each name the chain goes on up to the number -/
lemma chain_aliases {n i : Nat} (hi : i ≤ 32) : Chain (aliases 32) n (aliasValue i) ↔ n + i ≤ 33 := by
  induction n generalizing i with
  | zero => exact iff_of_true trivial (by omega)
  | succ n ih =>
    have hsucc : Chain (aliases 32) (n + 1) (aliasValue i) ↔
        ∃ t ∈ lookup (aliases 32) (aliasName i), Chain (aliases 32) n t := by
      rw [chain_succ, scan_aliasValue]
      simp [Piece.target]
    rw [hsucc]
    rcases Nat.lt_or_eq_of_le hi with hlt | rfl
    · rw [lookup_aliases.1 i hlt]
      simp only [Option.mem_some_iff, exists_eq_left']
      rw [ih hlt]
      omega
    · rw [lookup_aliases.2]
      simp only [Option.mem_some_iff, exists_eq_left']
      cases n with
      | zero => exact iff_of_true trivial (by omega)
      | succ n =>
        rw [chain_succ, scan_number]
        simp [Piece.target]

lemma means_alias (k : Nat) {i : Nat} {value : List Char} (hi : i + k = 32)
    (h : Means (aliases 32) [.ref (aliasName i)] value) : value = ['1'] := by
  induction k generalizing i value with
  | zero =>
    obtain rfl : i = 32 := hi
    cases h with
    | kept hl => cases lookup_aliases.2.symm.trans hl
    | replaced hl hvalue hrest =>
      cases lookup_aliases.2.symm.trans hl
      rw [scan_number] at hvalue
      cases hrest
      cases hvalue with
      | chr hrest =>
        cases hrest
        rfl
  | succ k ih =>
    have hname := lookup_aliases.1 i (by omega)
    cases h with
    | kept hl => cases hname.symm.trans hl
    | replaced hl hvalue hrest =>
      cases hname.symm.trans hl
      rw [scan_aliasValue] at hvalue
      cases hrest
      rw [List.append_nil]
      exact ih (by omega) hvalue

/-- the environment with these definitions -/
def baseEnv (vars : List (String × String)) : ScopeEnv := ⟨[none, none, some (vars.map fun p => (p.1.toList, p.2.toList))]⟩

/-- a chain of 33 names without a cycle is not replaced to its end; with a definition, a text before a parenthesis becomes
a function; a name that ends in that of the function is read as one; and a reference that stays loses its whitespace -/
theorem flattenTokenValueEnv_stops :
    (TidyEnv (aliases 32) ∧ Tidy (aliasValue 0) ∧ ¬ Cyclic (aliases 32) (aliasValue 0) ∧
      ¬ Means (aliases 32) (scan (aliasValue 0)) (flattenTokenValueEnv (aliases 32) (aliasValue 0))) ∧
    flattenTokenValueEnv (baseEnv [("--a", "var"), ("--b", "2")]) "var(--a)(--b)".toList = "2".toList ∧
    flattenTokenValueEnv (baseEnv [("--a", "myvar(--b)"), ("--b", "1")]) "var(--a)".toList = "my1".toList ∧
    flattenTokenValueEnv (baseEnv [("--a", "1")]) "var( --x ) var(--a)".toList = "var(--x) 1".toList := by
  have henv : TidyEnv (aliases 32) := tidyEnv_of_forall (by decide +kernel)
  have htidy : Tidy (aliasValue 0) := by decide
  refine ⟨⟨henv, htidy, ?_, ?_⟩, by decide, by decide, by decide⟩
  · intro hcyclic
    exact absurd ((chain_aliases (by decide)).mp (hcyclic.chain 34)) (by decide)
  · intro h
    rw [scan_aliasValue] at h
    have hcall := (containsVarFunction_flatten henv htidy ((chain_aliases (by decide)).mpr (by decide : 33 + 0 ≤ 33))).1
    rw [means_alias 32 rfl h] at hcall
    exact absurd hcall (by decide)

end

end TerminalManager.Style
