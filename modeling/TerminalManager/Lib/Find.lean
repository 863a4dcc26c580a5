import TerminalManager.Lib.Lines
import Mathlib.Data.List.Infix

/-!
# Occurrences of a pattern

* `before p l`                what `l` has before the first occurrence of `p`;
* `before_split`, `before_first`   it is followed by the pattern, and nothing shorter is;
* `before_eq_none`            there is none;
* `before_pair`               a pattern of two, whose second element is not met before;
* `Cuts p l bs r`             `l` cut at one occurrence after the other;
* `starts size p base bs`     where these begin, counted in sizes;
* `starts_sound`, `starts_sorted`, `starts_complete`   they are occurrences, none overlaps another, and every
  occurrence overlaps one of them when nothing is left.
-/

namespace Find
open Lines

section
variable {α : Type*} {size : α → Nat}

lemma width_pos (hsize : ∀ a, 0 < size a) {l : List α} (h : l ≠ []) : 0 < width size l := by
  obtain ⟨a, m, rfl⟩ := List.exists_cons_of_ne_nil h
  have := hsize a
  rw [width_cons]
  omega

/-- the wider of two beginnings goes on after the other one -/
lemma append_of_width_le (hsize : ∀ a, 0 < size a) {x y u v : List α} (h : x ++ u = y ++ v)
    (hle : width size x ≤ width size y) : ∃ z, y = x ++ z ∧ u = z ++ v := by
  rcases List.append_eq_append_iff.mp h with ⟨z, rfl, rfl⟩ | ⟨z, rfl, rfl⟩
  · exact ⟨z, rfl, rfl⟩
  · rw [width_append] at hle
    have hz : z = [] := by
      by_contra hne
      have := width_pos hsize hne
      omega
    subst hz
    exact ⟨[], by simp, rfl⟩

end

section
variable {α : Type*} [DecidableEq α] {p l b r : List α}

/-- what the list has before the first occurrence of the pattern -/
def before (p : List α) : List α → Option (List α)
  | [] => if p = [] then some [] else none
  | a :: l => if p <+: a :: l then some [] else (before p l).map (a :: ·)

lemma before_split (h : before p l = some b) : ∃ r, l = b ++ p ++ r := by
  induction l generalizing b with
  | nil =>
    rw [before] at h
    split_ifs at h with hp
    cases h
    exact ⟨[], by rw [hp]; rfl⟩
  | cons a l ih =>
    rw [before] at h
    split_ifs at h with hp
    · cases h
      obtain ⟨r, hr⟩ := hp
      exact ⟨r, hr.symm⟩
    · obtain ⟨c, hc, rfl⟩ := Option.map_eq_some_iff.mp h
      obtain ⟨r, rfl⟩ := ih hc
      exact ⟨r, rfl⟩

/-- where the pattern occurs, it is found at most as far -/
lemma before_append (p b r : List α) : ∃ c, before p (b ++ p ++ r) = some c ∧ c.length ≤ b.length := by
  induction b with
  | nil =>
    rw [List.nil_append]
    cases h : p ++ r with
    | nil =>
      obtain ⟨rfl, rfl⟩ := List.append_eq_nil_iff.mp h
      exact ⟨[], rfl, Nat.le_refl _⟩
    | cons a l =>
      have hp : p <+: a :: l := ⟨r, h⟩
      exact ⟨[], by rw [before, if_pos hp], Nat.le_refl _⟩
  | cons a b ih =>
    obtain ⟨c, hc, hle⟩ := ih
    rw [List.cons_append, List.cons_append, before]
    split_ifs with hp
    · exact ⟨[], rfl, Nat.zero_le _⟩
    · exact ⟨a :: c, by rw [hc]; rfl, Nat.succ_le_succ hle⟩

lemma before_first (h : before p l = some b) {c : List α} (hl : l = c ++ p ++ r) : b.length ≤ c.length := by
  obtain ⟨d, hd, hle⟩ := before_append p c r
  rw [← hl, h] at hd
  cases hd
  exact hle

lemma before_eq_none : before p l = none ↔ ¬ p <:+: l := by
  constructor
  · rintro h ⟨c, r, hl⟩
    obtain ⟨d, hd, -⟩ := before_append p c r
    rw [hl, h] at hd
    cases hd
  · intro h
    cases hb : before p l with
    | none => rfl
    | some b =>
      obtain ⟨r, hr⟩ := before_split hb
      exact absurd ⟨b, r, hr.symm⟩ h

/-- a pattern of two, the second of which is not met before -/
lemma before_pair {x y : α} (hne : x ≠ y) (h : y ∉ b) : before [x, y] (b ++ [x, y] ++ r) = some b := by
  induction b with
  | nil =>
    have hp : [x, y] <+: x :: y :: r := ⟨r, rfl⟩
    exact if_pos hp
  | cons a b ih =>
    have hyb : y ∉ b := fun hmem => h (List.mem_cons_of_mem a hmem)
    have hp : ¬ [x, y] <+: a :: (b ++ [x, y] ++ r) := by
      rintro ⟨t, ht⟩
      obtain ⟨-, htail⟩ := List.cons.inj ht
      cases b with
      | nil => exact hne (List.cons.inj htail).1.symm
      | cons c b => exact hyb (by rw [(List.cons.inj htail).1]; exact List.mem_cons_self)
    rw [List.cons_append, List.cons_append, before, if_neg hp, ih hyb]
    rfl

/-! ## occurrence after occurrence -/

/-- the list cut at the first occurrence, then at the first one after it, and so on: what is before each of
them, and what is left -/
inductive Cuts (p : List α) : List α → List (List α) → List α → Prop
  | nil (l : List α) : Cuts p l [] l
  | cons {b l r : List α} {bs : List (List α)} (hb : before p (b ++ p ++ l) = some b) (hl : Cuts p l bs r) :
      Cuts p (b ++ p ++ l) (b :: bs) r

variable (size : α → Nat)

/-- where the occurrences begin -/
def starts (p : List α) : (base : Nat) → List (List α) → List Nat
  | _, [] => []
  | base, b :: bs => (base + width size b) :: starts p (base + width size b + width size p) bs

variable {size} {bs : List (List α)} {base s : Nat} {a c : List α}

omit [DecidableEq α] in
lemma base_le_start (hs : s ∈ starts size p base bs) : base ≤ s := by
  induction bs generalizing base with
  | nil => cases hs
  | cons b bs ih =>
    rw [starts] at hs
    rcases List.mem_cons.mp hs with rfl | hs
    · exact Nat.le_add_right _ _
    · have := ih hs
      omega

/-- **What begins there is an occurrence.** -/
theorem starts_sound (h : Cuts p l bs r) (hs : s ∈ starts size p base bs) :
    ∃ a c, l = a ++ p ++ c ∧ s = base + width size a := by
  induction h generalizing base with
  | nil l => cases hs
  | @cons b l r bs hb hl ih =>
    rw [starts] at hs
    rcases List.mem_cons.mp hs with rfl | hs
    · exact ⟨b, l, rfl, rfl⟩
    · obtain ⟨a, c, rfl, rfl⟩ := ih hs
      refine ⟨b ++ p ++ a, c, by simp only [List.append_assoc], ?_⟩
      rw [width_append, width_append]
      omega

omit [DecidableEq α] in
/-- **None overlaps another.** -/
theorem starts_sorted (p : List α) (base : Nat) (bs : List (List α)) :
    (starts size p base bs).Pairwise fun s s' => s + width size p ≤ s' := by
  induction bs generalizing base with
  | nil => exact List.Pairwise.nil
  | cons b bs ih =>
    rw [starts]
    exact List.pairwise_cons.mpr ⟨fun s hs => base_le_start hs, ih _⟩

/-- **Every occurrence overlaps one of them**, when none is left. -/
theorem starts_complete (base : Nat) (hsize : ∀ a, 0 < size a) (hp : p ≠ []) (h : Cuts p l bs r) (hr : before p r = none)
    (hl : l = a ++ p ++ c) :
    ∃ s ∈ starts size p base bs, s < base + width size a + width size p ∧
      base + width size a < s + width size p := by
  induction h generalizing base a with
  | nil l => exact absurd ⟨a, c, hl.symm⟩ (before_eq_none.mp hr)
  | @cons b l r bs hb _ ih =>
    have hpos := width_pos hsize hp
    have hlen := before_first hb hl
    have hb' : b <+: b ++ p ++ l := ⟨p ++ l, (List.append_assoc ..).symm⟩
    have ha : a <+: b ++ p ++ l := ⟨p ++ c, by rw [hl, List.append_assoc]⟩
    obtain ⟨d, rfl⟩ := List.prefix_of_prefix_length_le hb' ha hlen
    rw [List.append_assoc, List.append_assoc, List.append_assoc, List.append_cancel_left_eq] at hl
    by_cases hover : width size d < width size p
    · refine ⟨base + width size b, List.mem_cons_self, ?_, ?_⟩ <;> rw [width_append] <;> omega
    · obtain ⟨z, rfl, hz⟩ := append_of_width_le hsize hl (Nat.le_of_not_lt hover)
      obtain ⟨s, hs, hlt, hgt⟩ := @ih z (base + width size b + width size p) hr
        (by rw [hz, List.append_assoc])
      refine ⟨s, List.mem_cons_of_mem _ hs, ?_, ?_⟩
      all_goals
        rw [width_append, width_append]
        omega

end

end Find
