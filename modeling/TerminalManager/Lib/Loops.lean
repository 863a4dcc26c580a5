import Mathlib.Tactic.Common

/-!
# Counted loops

A loop `for i in a..b` as a fold over its indices, in either direction, with a body that always
succeeds (`iter`, `iterRev`) or may fail (`forRange`, `forRangeRev`).  Each has one rule: an
invariant `P i s` indexed by the position the loop has reached.

* `forRange_rule`, `forRangeRev_rule`   when every turn succeeds and moves the invariant on, the
  loop succeeds and ends with it;
* `iter_rule`, `iterRev_rule`           the same for bodies that cannot fail;
* `mapM_eq_map`                         a list mapped by a body that may fail;
* `toOption_foldlM`, `foldlM_isSome`    a loop over a list whose body may fail;
* `foldLast`                            a loop that knows which turn is the last, with its turns numbered
  in `foldl_zipIdx_last`;
* `forRange_rel`, `forRangeRev_rel`     a preorder that every turn respects relates the two ends.
-/

namespace Loops

section
variable {σ : Type*}

/-- `for i in a..b`, the body may fail -/
def forRange (a b : Nat) (f : σ → Nat → Option σ) (s : σ) : Option σ :=
  (List.range' a (b - a)).foldlM f s

/-- `for i in (a..b).rev()`, the body may fail -/
def forRangeRev (a b : Nat) (f : σ → Nat → Option σ) (s : σ) : Option σ :=
  (List.range' a (b - a)).reverse.foldlM f s

/-- `for i in a..b` -/
def iter (a b : Nat) (f : σ → Nat → σ) (s : σ) : σ :=
  (List.range' a (b - a)).foldl f s

/-- `for i in (a..b).rev()` -/
def iterRev (a b : Nat) (f : σ → Nat → σ) (s : σ) : σ :=
  (List.range' a (b - a)).reverse.foldl f s

variable {a b : Nat} {f : σ → Nat → Option σ} {g : σ → Nat → σ} {s : σ} {P : Nat → σ → Prop}

private lemma range'_rule (n : Nat) (h : P a s)
    (hstep : ∀ i s, a ≤ i → i < a + n → P i s → ∃ t, f s i = some t ∧ P (i + 1) t) :
    ∃ t, (List.range' a n).foldlM f s = some t ∧ P (a + n) t := by
  induction n generalizing a s with
  | zero => exact ⟨s, rfl, h⟩
  | succ n ih =>
    obtain ⟨t, ht, hP⟩ := hstep a s (Nat.le_refl a) (by omega) h
    obtain ⟨u, hu, hPu⟩ := ih hP fun i s hi hin => hstep i s (by omega) (by omega)
    refine ⟨u, ?_, ?_⟩
    · rw [List.range'_succ, List.foldlM_cons, ht]
      exact hu
    · rwa [show a + (n + 1) = a + 1 + n by omega]

/-- **Loop rule**: turn `i` finds `P i` and leaves `P (i + 1)`. -/
theorem forRange_rule (h : P a s)
    (hstep : ∀ i s, a ≤ i → i < b → P i s → ∃ t, f s i = some t ∧ P (i + 1) t) :
    ∃ t, forRange a b f s = some t ∧ P (max a b) t := by
  obtain ⟨t, ht, hP⟩ := range'_rule (b - a) h fun i s hi hin => hstep i s hi (by omega)
  refine ⟨t, ht, ?_⟩
  rwa [show max a b = a + (b - a) by omega]

private lemma range'_reverse_rule (n : Nat) (h : P (a + n) s)
    (hstep : ∀ i s, a ≤ i → i < a + n → P (i + 1) s → ∃ t, f s i = some t ∧ P i t) :
    ∃ t, (List.range' a n).reverse.foldlM f s = some t ∧ P a t := by
  induction n generalizing s with
  | zero => exact ⟨s, rfl, h⟩
  | succ n ih =>
    obtain ⟨t, ht, hP⟩ := hstep (a + n) s (by omega) (by omega) h
    obtain ⟨u, hu, hPu⟩ := ih hP fun i s hi hin => hstep i s hi (by omega)
    refine ⟨u, ?_, hPu⟩
    rw [List.range'_concat, List.reverse_append, Nat.one_mul]
    show (f s (a + n)).bind _ = some u
    rw [ht]
    exact hu

/-- **Loop rule**, downwards: turn `i` finds `P (i + 1)` and leaves `P i`. -/
theorem forRangeRev_rule (h : P (max a b) s)
    (hstep : ∀ i s, a ≤ i → i < b → P (i + 1) s → ∃ t, f s i = some t ∧ P i t) :
    ∃ t, forRangeRev a b f s = some t ∧ P a t := by
  refine range'_reverse_rule (b - a) ?_ fun i s hi hin => hstep i s hi (by omega)
  rwa [show a + (b - a) = max a b by omega]

private lemma foldlM_rel {R : σ → σ → Prop} (hrefl : ∀ s, R s s) (htrans : ∀ s t u, R s t → R t u → R s u)
    (hstep : ∀ s i t, f s i = some t → R s t) {is : List Nat} {t : σ} (h : is.foldlM f s = some t) : R s t := by
  induction is generalizing s with
  | nil =>
    cases h
    exact hrefl _
  | cons i is ih =>
    rw [List.foldlM_cons] at h
    obtain ⟨u, hu, hut⟩ := Option.bind_eq_some_iff.mp h
    exact htrans s u t (hstep s i u hu) (ih hut)

/-- a preorder that every turn respects, whatever the invariant -/
theorem forRange_rel {R : σ → σ → Prop} (hrefl : ∀ s, R s s) (htrans : ∀ s t u, R s t → R t u → R s u)
    (hstep : ∀ s i t, f s i = some t → R s t) {t : σ} (h : forRange a b f s = some t) : R s t :=
  foldlM_rel hrefl htrans hstep h

theorem forRangeRev_rel {R : σ → σ → Prop} (hrefl : ∀ s, R s s) (htrans : ∀ s t u, R s t → R t u → R s u)
    (hstep : ∀ s i t, f s i = some t → R s t) {t : σ} (h : forRangeRev a b f s = some t) : R s t :=
  foldlM_rel hrefl htrans hstep h

lemma forRange_some : forRange a b (fun s i => some (g s i)) s = some (iter a b g s) :=
  List.foldlM_pure

lemma forRangeRev_some : forRangeRev a b (fun s i => some (g s i)) s = some (iterRev a b g s) :=
  List.foldlM_pure

/-- **Loop rule** for a body that cannot fail. -/
theorem iter_rule (h : P a s) (hstep : ∀ i s, a ≤ i → i < b → P i s → P (i + 1) (g s i)) :
    P (max a b) (iter a b g s) := by
  obtain ⟨t, ht, hP⟩ := forRange_rule (b := b) (f := fun s i => some (g s i)) h
    fun i s ha hb hi => ⟨_, rfl, hstep i s ha hb hi⟩
  rw [forRange_some, Option.some_inj] at ht
  rwa [ht]

/-- **Loop rule**, downwards, for a body that cannot fail. -/
theorem iterRev_rule (h : P (max a b) s)
    (hstep : ∀ i s, a ≤ i → i < b → P (i + 1) s → P i (g s i)) : P a (iterRev a b g s) := by
  obtain ⟨t, ht, hP⟩ := forRangeRev_rule (f := fun s i => some (g s i)) h
    fun i s ha hb hi => ⟨_, rfl, hstep i s ha hb hi⟩
  rw [forRangeRev_some, Option.some_inj] at ht
  rwa [ht]

end

/-- a list mapped by a body that may fail and does not -/
lemma mapM_eq_map {α β : Type*} {f : α → Option β} {g : α → β} {xs : List α} (h : ∀ x ∈ xs, f x = some (g x)) :
    xs.mapM f = some (xs.map g) := by
  induction xs with
  | nil => rfl
  | cons x xs ih =>
    rw [List.mapM_cons, h x List.mem_cons_self, ih fun y hy => h y (List.mem_cons_of_mem x hy)]
    rfl

/-- a loop that may fail, without its error -/
lemma toOption_foldlM {ε α β : Type*} {f : β → α → Except ε β} {g : β → α → Option β}
    (h : ∀ b a, (f b a).toOption = g b a) (b : β) (xs : List α) : (xs.foldlM f b).toOption = xs.foldlM g b := by
  induction xs generalizing b with
  | nil => rfl
  | cons x xs ih =>
    rw [List.foldlM_cons, List.foldlM_cons, ← h b x]
    cases f b x with
    | error e => rfl
    | ok b' => exact ih b'

/-- no turn fails when its element is one that no turn fails on -/
lemma foldlM_isSome {α β : Type*} {f : β → α → Option β} {ok : α → Prop} (h : ∀ b a, (f b a).isSome ↔ ok a) (b : β)
    (xs : List α) : (xs.foldlM f b).isSome ↔ ∀ a ∈ xs, ok a := by
  induction xs generalizing b with
  | nil => exact iff_of_true rfl (List.forall_mem_nil ok)
  | cons x xs ih =>
    rw [List.foldlM_cons, List.forall_mem_cons, ← h b x]
    cases hx : f b x with
    | none => exact iff_of_false Bool.false_ne_true fun hok => Bool.false_ne_true hok.1
    | some b' => exact (ih b').trans (and_iff_right rfl).symm

/-! ## the last turn -/

section
variable {σ α : Type*} (f : σ → α → Bool → σ)

/-- the body is told whether its turn is the last one -/
def foldLast (s : σ) : List α → σ
  | [] => s
  | x :: xs => foldLast (f s x xs.isEmpty) xs

lemma foldLast_map {β : Type*} (g : β → α) (s : σ) (xs : List β) :
    foldLast f s (xs.map g) = foldLast (fun s x => f s (g x)) s xs := by
  induction xs generalizing s with
  | nil => rfl
  | cons x xs ih => rw [List.map_cons, foldLast, foldLast, ih, List.isEmpty_map]

/-- the turns are counted, and the last number is known -/
theorem foldl_zipIdx_last (s : σ) (xs : List α) {k last : Nat} (h : last = k + xs.length - 1) :
    (xs.zipIdx k).foldl (fun s x => f s x.1 (x.2 = last)) s = foldLast f s xs := by
  induction xs generalizing s k with
  | nil => rfl
  | cons x xs ih =>
    rw [List.length_cons] at h
    have hlast : decide (k = last) = xs.isEmpty := by
      rw [Bool.eq_iff_iff, decide_eq_true_iff, List.isEmpty_iff_length_eq_zero]
      omega
    rw [List.zipIdx_cons, List.foldl_cons, foldLast, hlast]
    exact ih _ (by omega)

end
end Loops
