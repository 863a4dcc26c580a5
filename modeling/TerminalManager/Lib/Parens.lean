import Mathlib.Data.List.Infix
import Mathlib.Tactic.Common

/-!
# Balanced parentheses

* `height`            how many more parentheses a text opens than it closes;
* `Safe d`            nothing is closed that is not open, where `d` are open at the beginning;
* `Balanced`          what is opened is closed, and nothing else is;
* `Balanced.middle`   a part of a balanced text between parts that leave nothing open;
* `exists_close`      where something is closed that is not open, there is a first parenthesis that does it;
* `close_unique`      and only one.
-/

namespace Parens

def step (c : Char) : Int := if c = '(' then 1 else if c = ')' then -1 else 0

/-- how many more parentheses a text opens than it closes -/
def height : List Char → Int
  | [] => 0
  | c :: s => step c + height s

/-- nothing is closed that is not open, where `d` are open at the beginning -/
def Safe (d : Int) (s : List Char) : Prop := ∀ x, x <+: s → 0 ≤ d + height x

/-- what is opened is closed, and nothing else is -/
def Balanced (s : List Char) : Prop := height s = 0 ∧ Safe 0 s

variable {x y s rest rest' : List Char} {c : Char} {d : Int}

@[simp] lemma step_open : step '(' = 1 := rfl

@[simp] lemma step_close : step ')' = -1 := rfl

@[simp] lemma height_nil : height [] = 0 := rfl

@[simp] lemma height_cons (c : Char) (s : List Char) : height (c :: s) = step c + height s := rfl

@[simp] lemma height_append (x y : List Char) : height (x ++ y) = height x + height y := by
  induction x with
  | nil => simp
  | cons c x ih => simp [ih, Int.add_assoc]

/-- a text without parentheses -/
lemma height_plain (h : ∀ c ∈ s, step c = 0) : height s = 0 := by
  induction s with
  | nil => rfl
  | cons c s ih =>
    rw [height_cons, h c List.mem_cons_self, ih fun e he => h e (List.mem_cons_of_mem c he)]
    rfl

instance (d : Int) (s : List Char) : Decidable (Safe d s) :=
  decidable_of_iff (∀ x ∈ s.inits, 0 ≤ d + height x) (by simp only [List.mem_inits, Safe])

instance (s : List Char) : Decidable (Balanced s) := inferInstanceAs (Decidable (_ ∧ _))

@[simp] lemma safe_nil : Safe d [] ↔ 0 ≤ d := by simp [Safe]

@[simp] lemma safe_cons : Safe d (c :: s) ↔ 0 ≤ d ∧ Safe (d + step c) s := by
  constructor
  · intro h
    refine ⟨by simpa using h [] List.nil_prefix, fun x hx => ?_⟩
    have := h (c :: x) (List.cons_prefix_cons.mpr ⟨rfl, hx⟩)
    rw [height_cons] at this
    omega
  · rintro ⟨hd, hs⟩ x hx
    cases x with
    | nil => simpa using hd
    | cons e x =>
      obtain ⟨rfl, hx'⟩ := List.cons_prefix_cons.mp hx
      have := hs x hx'
      rw [height_cons]
      omega

lemma Safe.pos (h : Safe d s) : 0 ≤ d := by simpa using h [] List.nil_prefix

@[simp] lemma safe_append : Safe d (x ++ y) ↔ Safe d x ∧ Safe (d + height x) y := by
  induction x generalizing d with
  | nil =>
    simp only [List.nil_append, safe_nil, height_nil, Int.add_zero]
    exact ⟨fun h => ⟨h.pos, h⟩, And.right⟩
  | cons c x ih => simp [ih, and_assoc, Int.add_assoc]

lemma Safe.mono {e : Int} (h : Safe d s) (hle : d ≤ e) : Safe e s := by
  intro x hx
  have := h x hx
  omega

/-- a text without parentheses -/
lemma balanced_plain (h : ∀ c ∈ s, step c = 0) : Balanced s := by
  refine ⟨height_plain h, fun x hx => ?_⟩
  rw [height_plain fun c hc => h c (hx.subset hc)]
  decide

/-- a part of a balanced text between parts that leave nothing open -/
lemma Balanced.middle (h : Balanced (x ++ s ++ y)) (hx : height x = 0) (hy : height y = 0) : Balanced s := by
  obtain ⟨hheight, hsafe⟩ := h
  rw [height_append, height_append] at hheight
  rw [safe_append, safe_append, hx] at hsafe
  exact ⟨by omega, hsafe.1.2⟩

/-- the first parenthesis that closes what is not open, with `d` open at the beginning -/
lemma exists_close_from (hd : 0 ≤ d) (h : ¬ Safe d s) :
    ∃ x rest, s = x ++ ')' :: rest ∧ d + height x = 0 ∧ Safe d x := by
  induction s generalizing d with
  | nil => exact absurd (safe_nil.mpr hd) h
  | cons c s ih =>
    have hs : ¬ Safe (d + step c) s := fun hs => h (safe_cons.mpr ⟨hd, hs⟩)
    by_cases hclose : c = ')' ∧ d = 0
    · obtain ⟨rfl, rfl⟩ := hclose
      exact ⟨[], s, rfl, rfl, safe_nil.mpr (Int.le_refl 0)⟩
    have hstep : 0 ≤ d + step c := by
      unfold step
      split_ifs with hopen hc
      · omega
      · have : d ≠ 0 := fun h0 => hclose ⟨hc, h0⟩
        omega
      · omega
    obtain ⟨x, rest, rfl, hx, hsafe⟩ := ih hstep hs
    exact ⟨c :: x, rest, rfl, by rw [height_cons]; omega, safe_cons.mpr ⟨hd, hsafe⟩⟩

/-- **The first parenthesis** that closes what is not open. -/
theorem exists_close (h : ¬ Safe 0 s) : ∃ x rest, s = x ++ ')' :: rest ∧ Balanced x := by
  obtain ⟨x, rest, rfl, hx, hsafe⟩ := exists_close_from (Int.le_refl 0) h
  exact ⟨x, rest, rfl, by omega, hsafe⟩

/-- nothing balanced goes on after it -/
lemma Balanced.not_close (h : Balanced (x ++ ')' :: y)) (hx : height x = 0) : False := by
  have hsafe := (safe_append.mp h.2).2
  rw [hx] at hsafe
  exact absurd (safe_cons.mp hsafe).2.pos (by decide)

/-- **Only one parenthesis** closes what is open. -/
theorem close_unique (h : x ++ ')' :: rest = y ++ ')' :: rest') (hx : Balanced x) (hy : Balanced y) :
    x = y ∧ rest = rest' := by
  rcases List.append_eq_append_iff.mp h with ⟨z, rfl, hz⟩ | ⟨z, rfl, hz⟩
  · cases z with
    | nil =>
      rw [List.nil_append] at hz
      exact ⟨(List.append_nil x).symm, (List.cons_inj_right _).mp hz⟩
    | cons c z =>
      cases (List.cons.inj hz).1
      exact (hy.not_close hx.1).elim
  · cases z with
    | nil =>
      rw [List.nil_append] at hz
      exact ⟨List.append_nil y, ((List.cons_inj_right _).mp hz).symm⟩
    | cons c z =>
      cases (List.cons.inj hz).1
      exact (hx.not_close hy.1).elim

end Parens
