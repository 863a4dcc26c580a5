import TerminalManager.Style.Variables

/-!
# References replaced to a depth

* `Tidy`                  a value whose references can be told from its other text, and stay so;
* `Tail`                  what is left of a tidy value when it is read from the left;
* `expand n`              its references replaced, those in what takes their place too, to the depth `n`;
* `scan_expand`           what is replaced brings its own references, and no others come to be;
* `replaced_expand`       one more pass is one more level.
-/

namespace TerminalManager.Style
open Keybinds (trim trim_trim trim_split)
open Editor (isWhitespace)
open Find Parens

/-! ## tidy values -/

/-- a text that can make a function of what is before it -/
def Completes (s : List Char) : Prop := ['('] <+: s ∨ ['r', '('] <+: s ∨ ['a', 'r', '('] <+: s

instance (s : List Char) : Decidable (Completes s) := inferInstanceAs (Decidable (_ ∨ _ ∨ _))

/-- parentheses are balanced, every `var(` is a function, and nothing directly after a reference makes one of its end -/
structure Tidy (s : List Char) : Prop where
  balanced : Balanced s
  calls : ∀ x y, s = x ++ (varPrefix ++ y) → x.getLast?.all isBoundary = true
  apart : ∀ x content rest, s = x ++ (varPrefix ++ (content ++ ')' :: rest)) → Balanced content → ¬ Completes rest

lemma tidy_iff {s : List Char} : Tidy s ↔ Balanced s ∧ ∀ x ∈ s.inits, varPrefix <+: s.drop x.length →
    x.getLast?.all isBoundary = true ∧
      ∀ p ∈ extractBalancedParens (s.drop (x.length + varPrefix.length)), ¬ Completes p.2 := by
  have hsplit : ∀ x y, s = x ++ (varPrefix ++ y) → s.drop (x.length + varPrefix.length) = y := by
    rintro x y rfl
    rw [← List.append_assoc, ← List.length_append, List.drop_left]
  constructor
  · intro h
    refine ⟨h.balanced, fun x hx hp => ?_⟩
    obtain ⟨rest, rfl⟩ := (List.mem_inits x s).mp hx
    rw [List.drop_left] at hp
    obtain ⟨y, rfl⟩ := hp
    refine ⟨h.calls x y rfl, fun p hp => ?_⟩
    rw [hsplit x y rfl] at hp
    obtain ⟨rfl, hcontent⟩ := extract_some hp
    exact h.apart x p.1 p.2 rfl hcontent
  · rintro ⟨hbalanced, h⟩
    have hat : ∀ x y, s = x ++ (varPrefix ++ y) → x.getLast?.all isBoundary = true ∧
        ∀ p ∈ extractBalancedParens y, ¬ Completes p.2 := by
      intro x y hs
      have hx := h x ((List.mem_inits x s).mpr ⟨_, hs.symm⟩)
      rw [hsplit x y hs] at hx
      refine hx ?_
      rw [hs, List.drop_left]
      exact List.prefix_append _ _
    exact ⟨hbalanced, fun x y hs => (hat x y hs).1, fun x content rest hs hcontent => (hat x _ hs).2 _ (extract_eq hcontent)⟩

instance (s : List Char) : Decidable (Tidy s) := decidable_of_iff _ tidy_iff.symm

/-- what is left of a tidy value after the character `last` -/
inductive Tail : (last : Option Char) → List Char → Prop
  | nil {last : Option Char} : Tail last []
  | chr {last : Option Char} {c : Char} {s : List Char} (hc : ¬ varPrefix <+: c :: s) (hs : Tail (some c) s) :
      Tail last (c :: s)
  | ref {last : Option Char} {content rest : List Char} (hlast : last.all isBoundary = true) (hcontent : Tidy content)
      (hrest : ¬ Completes rest) (hs : Tail (some ')') rest) : Tail last (varPrefix ++ (content ++ ')' :: rest))

section
variable {s x y t u content rest : List Char} {c : Char}

lemma Completes.append (h : Completes s) (y : List Char) : Completes (s ++ y) :=
  h.imp (·.trans (List.prefix_append s y)) (·.imp (·.trans (List.prefix_append s y)) (·.trans (List.prefix_append s y)))

lemma all_getLast? (h : (x ++ y).getLast?.all isBoundary = true) : y.getLast?.all isBoundary = true := by
  cases hy : y.getLast? with
  | none => rfl
  | some c =>
    rw [List.getLast?_append, hy] at h
    exact h

/-- a balanced part of a tidy value -/
lemma Tidy.middle (h : Tidy (x ++ s ++ y)) (hs : Balanced s) : Tidy s where
  balanced := hs
  calls := by
    rintro u v rfl
    exact all_getLast? (h.calls (x ++ u) (v ++ y) (by simp))
  apart := by
    rintro u content rest rfl hcontent hrest
    exact h.apart (x ++ u) content (rest ++ y) (by simp) hcontent (hrest.append y)

/-- a balanced text closes its functions -/
lemma not_safe_of_balanced (h : Balanced (x ++ (varPrefix ++ y))) : ¬ Safe 0 y := by
  intro hsafe
  have hend := hsafe y (List.prefix_refl y)
  have hstart := h.2 x (List.prefix_append _ _)
  have htotal := h.1
  rw [height_append, height_append, show height varPrefix = 1 from rfl] at htotal
  omega

/-- a tidy value, from the left -/
lemma Tidy.tail (h : Tidy t) : Tail none t := by
  have hrun : ∀ (n : Nat) (u s : List Char), t = u ++ s → s.length ≤ n → Tail u.getLast? s := by
    intro n
    induction n with
    | zero =>
      intro u s _ hn
      rw [List.eq_nil_of_length_eq_zero (Nat.le_zero.mp hn)]
      exact Tail.nil
    | succ n ih =>
      intro u s ht hn
      cases s with
      | nil => exact Tail.nil
      | cons c s =>
        by_cases hp : varPrefix <+: c :: s
        · obtain ⟨y, hy⟩ := hp
          rw [← hy] at ht hn ⊢
          obtain ⟨content, rest, rfl, hcontent⟩ := exists_close (not_safe_of_balanced (ht ▸ h.balanced))
          have hafter : t = (u ++ varPrefix ++ content ++ [')']) ++ rest := by simp [ht]
          have haround : t = (u ++ varPrefix) ++ content ++ (')' :: rest) := by simp [ht]
          have hs := ih _ rest hafter (by simp at hn; omega)
          rw [List.getLast?_concat] at hs
          exact Tail.ref (h.calls u _ ht) ((haround ▸ h).middle hcontent) (h.apart u content rest ht hcontent) hs
        · have hs := ih (u ++ [c]) s (by simp [ht]) (Nat.le_of_succ_le_succ hn)
          rw [List.getLast?_concat] at hs
          exact Tail.chr hp hs
  exact hrun t.length [] t rfl (Nat.le_refl _)

lemma step_whitespace (h : isWhitespace c = true) : step c = 0 := by
  unfold step
  split_ifs with hopen hclose
  · rw [hopen] at h
    cases h
  · rw [hclose] at h
    cases h
  · rfl

lemma Tidy.trimmed (h : Tidy s) : Tidy (trim s) := by
  obtain ⟨l, r, hs, hl, hr⟩ := trim_split s
  have hsplit : Tidy (l ++ trim s ++ r) := hs ▸ h
  have hleft := height_plain fun c hc => step_whitespace (hl c hc)
  have hright := height_plain fun c hc => step_whitespace (hr c hc)
  exact hsplit.middle (hsplit.balanced.middle hleft hright)

/-- **The comma** that is found is outside of parentheses. -/
lemma findCommaFrom_some {depth : Int} {comma : Nat} (h : findCommaFrom depth s = some comma) :
    s = s.take comma ++ [','] ++ s.drop (comma + 1) ∧ depth + height (s.take comma) = 0 := by
  induction s generalizing depth comma with
  | nil => cases h
  | cons c s ih =>
    rw [findCommaFrom] at h
    split_ifs at h with hc
    · obtain ⟨rfl, rfl⟩ := hc
      cases h
      exact ⟨rfl, rfl⟩
    · obtain ⟨comma, hcomma, rfl⟩ := Option.map_eq_some_iff.mp h
      obtain ⟨hs, hheight⟩ := ih hcomma
      refine ⟨congrArg (c :: ·) hs, ?_⟩
      rw [List.take_succ_cons, height_cons]
      omega

lemma Tidy.fallback (h : Tidy content) (hf : (reference content).2 = some t) : Tidy t := by
  cases hcomma : findTopLevelComma (trim content) with
  | none =>
    simp only [reference, hcomma] at hf
    cases hf
  | some comma =>
    simp only [reference, hcomma] at hf
    cases hf
    obtain ⟨hs, hheight⟩ := findCommaFrom_some hcomma
    have hname : height ((trim content).take comma ++ [',']) = 0 := by
      rw [height_append, show height [','] = 0 from rfl]
      omega
    have hsplit : Tidy (((trim content).take comma ++ [',']) ++ (trim content).drop (comma + 1) ++ []) := by
      rw [List.append_nil, ← hs]
      exact h.trimmed
    exact (hsplit.middle (hsplit.balanced.middle hname rfl)).trimmed

end

/-! ## replaced to a depth -/

section
variable (env : ScopeEnv)

/-- the references replaced, those in what takes their place too, to a depth -/
def expand : Nat → List Char → List Char
  | 0, s => s
  | n + 1, s =>
    (scan s).flatMap fun
      | .chr c => [c]
      | .ref content => (lookup env content).elim (kept content) (expand n)

/-- what takes the place of a reference -/
def put (n : Nat) (content : List Char) : List Char := (lookup env content).elim (kept content) (expand env n)

/-- every definition is tidy -/
def TidyEnv : Prop := ∀ name value, env.get name = some value → Tidy value

variable {env} {s t x y w content rest : List Char} {c : Char} {last : Option Char} {n : Nat}

lemma lookup_trim (content : List Char) : lookup env (trim content) = lookup env content := by
  unfold lookup reference
  rw [trim_trim]

lemma kept_trim (content : List Char) : kept (trim content) = kept content := by
  unfold kept
  rw [trim_trim]

/-- maps with tidy values -/
lemma tidyEnv_of_forall (h : ∀ m ∈ env.maps, ∀ vars ∈ m, ∀ p ∈ vars, Tidy p.2) : TidyEnv env := by
  intro name value hget
  obtain ⟨m, hm, hbind⟩ := List.exists_of_findSome?_eq_some hget
  obtain ⟨vars, hvars, hname⟩ := Option.bind_eq_some_iff.mp hbind
  obtain ⟨p, hp, rfl⟩ := Option.map_eq_some_iff.mp hname
  exact h m hm vars hvars p (List.mem_reverse.mp (List.mem_of_find?_eq_some hp))

lemma Tidy.looked_up (henv : TidyEnv env) (h : Tidy content) (hl : lookup env content = some t) : Tidy t := by
  rcases Option.or_eq_some_iff.mp hl with hname | ⟨-, hfallback⟩
  · exact henv _ t hname
  · exact h.fallback hfallback

/-- what a reference of a tidy value has between its parentheses -/
lemma Tail.tidy_of_ref (h : Tail last s) (hmem : Piece.ref content ∈ scan s) : Tidy content := by
  induction h with
  | nil =>
    rw [scan_nil] at hmem
    cases hmem
  | chr hc _ ih =>
    rw [scan_chr hc] at hmem
    exact ih ((List.mem_cons.mp hmem).resolve_left (nomatch ·))
  | ref _ hcontent _ _ ih =>
    rw [scan_ref hcontent.balanced] at hmem
    rcases List.mem_cons.mp hmem with heq | hmem
    · cases heq
      exact hcontent
    · exact ih hmem

@[simp] lemma expand_nil (n : Nat) : expand env n [] = [] := by
  cases n with
  | zero => rfl
  | succ n => rw [expand, scan_nil, List.flatMap_nil]

lemma expand_chr (h : ¬ varPrefix <+: c :: s) : expand env (n + 1) (c :: s) = c :: expand env (n + 1) s := by
  rw [expand, scan_chr h, List.flatMap_cons]
  rfl

lemma expand_ref (h : Balanced content) :
    expand env (n + 1) (varPrefix ++ (content ++ ')' :: rest)) = put env n content ++ expand env (n + 1) rest := by
  rw [expand, scan_ref h, List.flatMap_cons]
  rfl

/-! beginnings -/

/-- a beginning that no reference comes in is that of the value -/
lemma Tail.starts (h : Tail last s) (hlast : last.all isBoundary = false) (hw : ∀ c ∈ w.dropLast, isBoundary c = false)
    (hstart : w <+: expand env (n + 1) s) : w <+: s := by
  induction h generalizing w with
  | nil =>
    rw [expand_nil] at hstart
    exact hstart
  | @chr last c s hc _ ih =>
    rw [expand_chr hc] at hstart
    cases w with
    | nil => exact List.nil_prefix
    | cons d w =>
      obtain ⟨rfl, hstart'⟩ := List.cons_prefix_cons.mp hstart
      refine List.cons_prefix_cons.mpr ⟨rfl, ?_⟩
      cases w with
      | nil => exact List.nil_prefix
      | cons e w =>
        rw [List.dropLast_cons_cons] at hw
        exact ih (hw d List.mem_cons_self) (fun c hc => hw c (List.mem_cons_of_mem d hc)) hstart'
  | ref hbefore =>
    rw [hbefore] at hlast
    cases hlast

lemma Tail.completes (h : Tail last s) (hlast : last.all isBoundary = false) (hc : Completes (expand env (n + 1) s)) :
    Completes s := by
  rcases hc with hc | hc | hc
  · exact .inl (h.starts hlast (by decide) hc)
  · exact .inr (.inl (h.starts hlast (by decide) hc))
  · exact .inr (.inr (h.starts hlast (by decide) hc))

lemma Tail.not_call (h : Tail (some c) s) (hc : ¬ varPrefix <+: c :: s) : ¬ varPrefix <+: c :: expand env (n + 1) s := by
  intro hstart
  obtain ⟨rfl, htail⟩ := List.cons_prefix_cons.mp hstart
  exact hc (List.cons_prefix_cons.mpr ⟨rfl, h.starts rfl (by decide) htail⟩)

/-! what is put together -/

lemma completes_of_append (h : varPrefix <+: c :: (x ++ y)) : varPrefix <+: c :: x ∨ Completes y := by
  match x with
  | [] => exact .inr (.inr (.inr (List.cons_prefix_cons.mp h).2))
  | [a] => exact .inr (.inr (.inl (List.cons_prefix_cons.mp (List.cons_prefix_cons.mp h).2).2))
  | [a, b] =>
    have hab := (List.cons_prefix_cons.mp (List.cons_prefix_cons.mp h).2).2
    exact .inr (.inl (List.cons_prefix_cons.mp hab).2)
  | a :: b :: d :: x =>
    left
    simpa using h

lemma Completes.of_append (h : Completes (x ++ y)) : Completes x ∨ Completes y := by
  -- a text of three characters has the whole of what completes
  match x with
  | [] => exact .inr h
  | [a] =>
    rcases h with h | h | h
    · exact .inl (.inl (by simpa using h))
    · exact .inr (.inl (List.cons_prefix_cons.mp h).2)
    · exact .inr (.inr (.inl (List.cons_prefix_cons.mp h).2))
  | [a, b] =>
    rcases h with h | h | h
    · exact .inl (.inl (by simpa using h))
    · exact .inl (.inr (.inl (by simpa using h)))
    · exact .inr (.inl (List.cons_prefix_cons.mp (List.cons_prefix_cons.mp h).2).2)
  | a :: b :: d :: x =>
    left
    simpa [Completes] using h

lemma call_append (content rest y : List Char) :
    varPrefix ++ (content ++ ')' :: rest) ++ y = varPrefix ++ (content ++ ')' :: (rest ++ y)) := by simp

/-- a reference may come after more than where none does -/
lemma Tail.relax {last' : Option Char} (h : Tail last s) (hlast : last.all isBoundary = true → last'.all isBoundary = true) :
    Tail last' s := by
  cases h with
  | nil => exact Tail.nil
  | chr hc hs => exact Tail.chr hc hs
  | ref hbefore hcontent hrest hs => exact Tail.ref (hlast hbefore) hcontent hrest hs

lemma Tail.append (hx : Tail last x) (hy : ¬ Completes y) (h : Tail (some ')') y) : Tail last (x ++ y) := by
  induction hx with
  | nil => exact h.relax (nomatch ·)
  | chr hc _ ih => exact Tail.chr (fun hstart => (completes_of_append hstart).elim hc hy) ih
  | @ref last content rest hbefore hcontent hrest _ ih =>
    rw [call_append]
    exact Tail.ref hbefore hcontent (fun hc => hc.of_append.elim hrest hy) ih

/-- a text that makes no function of the end of another one leaves its references as they are -/
lemma Tail.scan_append (hx : Tail last x) (hy : ¬ Completes y) : scan (x ++ y) = scan x ++ scan y := by
  induction hx with
  | nil => rw [scan_nil, List.nil_append, List.nil_append]
  | chr hc _ ih =>
    rw [List.cons_append, scan_chr hc, scan_chr fun hstart => (completes_of_append hstart).elim hc hy, ih, List.cons_append]
  | ref _ hcontent _ _ ih =>
    rw [call_append, scan_ref hcontent.balanced, scan_ref hcontent.balanced, ih, List.cons_append]

lemma tail_kept (h : Tidy content) : Tail none (kept content) :=
  Tail.ref rfl h.trimmed (by decide) Tail.nil

lemma tail_put (henv : TidyEnv env) (ih : ∀ t, Tidy t → Tail none (expand env n t)) (h : Tidy content) :
    Tail none (put env n content) := by
  unfold put
  cases hl : lookup env content with
  | none => exact tail_kept h
  | some t => exact ih t (h.looked_up henv hl)

/-- **Step lemma**: at one more depth, the references can be told from the other text. -/
lemma Tail.expand_succ (henv : TidyEnv env) (ih : ∀ t, Tidy t → Tail none (expand env n t)) (h : Tail last s) :
    Tail last (expand env (n + 1) s) := by
  induction h with
  | nil =>
    rw [expand_nil]
    exact Tail.nil
  | chr hc hs ihs =>
    rw [expand_chr hc]
    exact Tail.chr (hs.not_call hc) ihs
  | ref hbefore hcontent hrest hs ihs =>
    rw [expand_ref hcontent.balanced]
    exact ((tail_put henv ih hcontent).relax fun _ => hbefore).append (fun hc => hrest (hs.completes rfl hc)) ihs

/-- **Run lemma**: so they can at every depth. -/
lemma tail_expand (henv : TidyEnv env) (n : Nat) (h : Tidy t) : Tail none (expand env n t) := by
  induction n generalizing t with
  | zero => exact h.tail
  | succ n ih => exact h.tail.expand_succ henv fun t ht => ih ht

lemma scan_kept (h : Tidy content) : scan (kept content) = [.ref (trim content)] := by
  rw [kept, scan_ref h.trimmed.balanced, scan_nil]

variable (env n) in
/-- the references that a piece has brought, `n` levels down -/
def Piece.brought : Piece → List Piece
  | .chr c => [.chr c]
  | .ref content => (lookup env content).elim [.ref (trim content)] fun t => scan (expand env n t)

lemma scan_put (h : Tidy content) : scan (put env n content) = (Piece.ref content).brought env n := by
  rw [put, Piece.brought]
  cases lookup env content with
  | none => exact scan_kept h
  | some t => rfl

/-- **Step lemma**: what is replaced brings its own references, and no others come to be. -/
theorem scan_expand (henv : TidyEnv env) (h : Tail last s) :
    scan (expand env (n + 1) s) = (scan s).flatMap (Piece.brought env n) := by
  induction h with
  | nil => rw [expand_nil, scan_nil, List.flatMap_nil]
  | chr hc hs ih =>
    rw [expand_chr hc, scan_chr (hs.not_call hc), scan_chr hc, ih]
    rfl
  | @ref last content rest _ hcontent hrest hs ih =>
    have hput : Tail none (put env n content) := tail_put henv (fun t ht => tail_expand henv n ht) hcontent
    rw [expand_ref hcontent.balanced, hput.scan_append fun hc => hrest (hs.completes rfl hc), scan_put hcontent,
      scan_ref hcontent.balanced, List.flatMap_cons, ih]

lemma image_eq (content : List Char) : image env content = put env 0 content := by
  rw [image, put]
  cases lookup env content with
  | none => rfl
  | some t => rfl

/-- what a pass makes of what a reference has brought is what it brings one level down -/
lemma flatMap_brought (henv : TidyEnv env) (ih : ∀ t, Tidy t → replaced env (expand env n t) = expand env (n + 1) t)
    (h : Tidy content) : ((Piece.ref content).brought env n).flatMap (Piece.image env) = put env (n + 1) content := by
  rw [Piece.brought, put]
  cases hl : lookup env content with
  | none =>
    rw [Option.elim_none, Option.elim_none, List.flatMap_singleton, Piece.image, image_eq, put, lookup_trim, hl]
    exact kept_trim content
  | some t => exact ih t (h.looked_up henv hl)

/-- **Run lemma**: a pass more is a level more. -/
theorem replaced_expand (henv : TidyEnv env) (n : Nat) (h : Tidy t) : replaced env (expand env n t) = expand env (n + 1) t := by
  induction n generalizing t with
  | zero =>
    refine List.flatMap_congr fun p _ => ?_
    cases p with
    | chr c => rfl
    | ref content => exact image_eq content
  | succ n ih =>
    rw [replaced, scan_expand henv h.tail, List.flatMap_assoc]
    refine List.flatMap_congr fun p hp => ?_
    cases p with
    | chr c => rfl
    | ref content => exact flatMap_brought henv (fun t ht => ih ht) (h.tail.tidy_of_ref hp)

end

end TerminalManager.Style
