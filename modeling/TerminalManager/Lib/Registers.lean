import Mathlib.Data.List.Basic
import Mathlib.Data.List.Nodup
import Mathlib.Logic.Function.Basic
import Mathlib.Tactic.Common

/-!
# Registers that are set and cleared

Many hands write to a register: one puts its name in, another takes out what it believes is its own.

* `run`                   the registers after some writes;
* `taken`                 the values that are put in, in order;
* `Ordered`               no register is cleared after it was set;
* `run_eq_lookup_iff`     when no register is set twice, each holds what is put in, and nothing otherwise, exactly when
                          the writes are ordered and reach every register that held something.
-/

namespace Registers

section
variable {κ α : Type*}

def taken (ws : List (κ × Option α)) : List (κ × α) := ws.filterMap fun w => w.2.map fun a => (w.1, a)

/-- no register is cleared after it was set -/
def Ordered (ws : List (κ × Bool)) : Prop := ws.Pairwise fun w w' => w.1 = w'.1 → w.2 = true → w'.2 = true

/-- which register is written, and whether it is set -/
def mark (w : κ × Option α) : κ × Bool := (w.1, w.2.isSome)

variable {s : κ → Option α} {ws : List (κ × Option α)} {k : κ}

lemma taken_append (ws ws' : List (κ × Option α)) : taken (ws ++ ws') = taken ws ++ taken ws' := List.filterMap_append

lemma mem_taken {a : α} : (k, a) ∈ taken ws ↔ (k, some a) ∈ ws := by
  unfold taken
  rw [List.mem_filterMap]
  constructor
  · rintro ⟨⟨k', v⟩, hw, hmap⟩
    obtain ⟨b, rfl, heq⟩ := Option.map_eq_some_iff.mp hmap
    cases heq
    exact hw
  · intro hw
    exact ⟨_, hw, rfl⟩

/-- a register that is set no more is only cleared -/
lemma none_of_not_taken (h : k ∉ (taken ws).map Prod.fst) {w : κ × Option α} (hw : w ∈ ws) (hk : w.1 = k) :
    w.2 = none := by
  obtain ⟨k', v⟩ := w
  obtain rfl : k' = k := hk
  cases v with
  | none => rfl
  | some a => exact absurd (List.mem_map_of_mem (mem_taken.mpr hw)) h

variable [DecidableEq κ]

lemma mem_of_lookup {a : α} {cells : List (κ × α)} (h : cells.lookup k = some a) : (k, a) ∈ cells := by
  obtain ⟨xs, ys, rfl, -⟩ := List.lookup_eq_some_iff.mp h
  exact List.mem_append_right _ List.mem_cons_self

/-- a cell is found by its register -/
lemma lookup_of_mem {cells : List (κ × α)} (hnd : (cells.map Prod.fst).Nodup) {c : κ × α} (hc : c ∈ cells) :
    cells.lookup c.1 = some c.2 := by
  obtain ⟨xs, ys, rfl⟩ := List.append_of_mem hc
  rw [List.map_append, List.map_cons] at hnd
  obtain ⟨-, -, hdisj⟩ := List.nodup_append.mp hnd
  refine List.lookup_eq_some_iff.mpr ⟨xs, ys, rfl, fun x hx => ?_⟩
  have hne : x.1 ≠ c.1 := hdisj _ (List.mem_map_of_mem hx) _ List.mem_cons_self
  simpa using hne.symm

instance (ws : List (κ × Bool)) : Decidable (Ordered ws) := by
  unfold Ordered
  infer_instance

/-- the registers after the writes; `none` clears -/
def run (s : κ → Option α) (ws : List (κ × Option α)) : κ → Option α :=
  ws.foldl (fun s w => Function.update s w.1 w.2) s

lemma run_cons (w : κ × Option α) : run s (w :: ws) = run (Function.update s w.1 w.2) ws := rfl

/-- a register that is not written is left alone -/
lemma run_other (h : ∀ w ∈ ws, w.1 ≠ k) : run s ws k = s k := by
  induction ws generalizing s with
  | nil => rfl
  | cons w ws ih =>
    rw [run_cons, ih fun w' hw' => h w' (List.mem_cons_of_mem _ hw')]
    exact Function.update_of_ne (h w List.mem_cons_self).symm _ _

/-- a register that is only cleared -/
lemma run_cleared (h : ∀ w ∈ ws, w.1 = k → w.2 = none) (hk : ∃ w ∈ ws, w.1 = k) : run s ws k = none := by
  induction ws generalizing s with
  | nil =>
    obtain ⟨w, hw, -⟩ := hk
    cases hw
  | cons w ws ih =>
    have htail : ∀ w' ∈ ws, w'.1 = k → w'.2 = none := fun w' hw' => h w' (List.mem_cons_of_mem _ hw')
    rw [run_cons]
    by_cases hlater : ∃ w' ∈ ws, w'.1 = k
    · exact ih htail hlater
    · push Not at hlater
      obtain ⟨w', hw', heq⟩ := hk
      obtain rfl : w' = w := (List.mem_cons.mp hw').resolve_right fun hmem => hlater w' hmem heq
      rw [run_other hlater, ← heq, Function.update_self]
      exact h w' List.mem_cons_self heq

/-- what a register holds was put in, or was there before -/
lemma run_some {a : α} (h : run s ws k = some a) : (k, some a) ∈ ws ∨ s k = some a := by
  induction ws generalizing s with
  | nil => exact .inr h
  | cons w ws ih =>
    rw [run_cons] at h
    rcases ih h with hmem | heq
    · exact .inl (List.mem_cons_of_mem _ hmem)
    · rw [Function.update_apply] at heq
      split_ifs at heq with hk
      · exact .inl (List.mem_cons.mpr (.inl (Prod.ext hk heq.symm)))
      · exact .inr heq

/-- one register: what comes after its being set must not clear it, and a value that is not written stays -/
lemma run_eq_lookup_at (hnd : ((taken ws).map Prod.fst).Nodup) : run s ws k = (taken ws).lookup k ↔
    (ws.Pairwise fun w w' => w.1 = k → w'.1 = k → w.2.isSome = true → w'.2.isSome = true) ∧
      (s k ≠ none → ∃ w ∈ ws, w.1 = k) := by
  induction ws generalizing s with
  | nil =>
    show s k = none ↔ _
    simp
  | cons w ws ih =>
    obtain ⟨k', v⟩ := w
    rw [run_cons, List.pairwise_cons]
    by_cases hk : k' = k
    · subst hk
      have hreached : s k' ≠ none → ∃ w ∈ (k', v) :: ws, w.1 = k' := fun _ => ⟨_, List.mem_cons_self, rfl⟩
      cases v with
      | none =>
        rw [show taken ((k', none) :: ws) = taken ws from rfl] at hnd ⊢
        rw [ih hnd, Function.update_self]
        simp
      | some a =>
        rw [show taken ((k', some a) :: ws) = (k', a) :: taken ws from rfl] at hnd ⊢
        obtain ⟨hnot, hrest⟩ := List.nodup_cons.mp hnd
        -- it is set once: every write that follows clears it
        have hclears : ∀ w ∈ ws, w.1 = k' → w.2 = none := fun w hw => none_of_not_taken hnot hw
        rw [List.lookup_cons_self]
        constructor
        · intro hrun
          have hnone : ∀ w ∈ ws, w.1 ≠ k' := by
            intro w hw heq
            rw [run_cleared hclears ⟨w, hw, heq⟩] at hrun
            cases hrun
          refine ⟨⟨fun w hw _ heq => absurd heq (hnone w hw), ?_⟩, hreached⟩
          exact List.pairwise_of_forall_mem_list fun w hw w' _ heq => absurd heq (hnone w hw)
        · rintro ⟨⟨hfirst, -⟩, -⟩
          rw [run_other, Function.update_self]
          intro w hw heq
          have hset := hfirst w hw rfl heq rfl
          rw [hclears w hw heq] at hset
          cases hset
    · have hupdate : Function.update s k' v k = s k := Function.update_of_ne (Ne.symm hk) _ _
      have htaken : ((taken ws).map Prod.fst).Nodup ∧ (taken ((k', v) :: ws)).lookup k = (taken ws).lookup k := by
        cases v with
        | none => exact ⟨hnd, rfl⟩
        | some a =>
          refine ⟨(List.nodup_cons.mp hnd).2, ?_⟩
          show List.lookup k ((k', a) :: taken ws) = _
          rw [List.lookup_cons, beq_eq_false_iff_ne.mpr (Ne.symm hk)]
      rw [htaken.2, ih htaken.1, hupdate]
      simp [hk]

/-- **Every register holds what is put in**, and nothing otherwise. -/
theorem run_eq_lookup_iff (hnd : ((taken ws).map Prod.fst).Nodup) : (∀ k, run s ws k = (taken ws).lookup k) ↔
    Ordered (ws.map mark) ∧ ∀ k, s k ≠ none → ∃ w ∈ ws.map mark, w.1 = k := by
  have hordered : Ordered (ws.map mark) ↔
      ∀ k, ws.Pairwise fun w w' => w.1 = k → w'.1 = k → w.2.isSome = true → w'.2.isSome = true := by
    unfold Ordered
    rw [List.pairwise_map]
    constructor
    · intro h k
      exact h.imp fun hww hk hk' => hww (hk.trans hk'.symm)
    · intro h
      rw [List.pairwise_iff_getElem]
      intro i j hi hj hij heq
      exact (List.pairwise_iff_getElem.mp (h _)) i j hi hj hij heq rfl
  rw [hordered, ← forall_and]
  refine forall_congr' fun k => (run_eq_lookup_at hnd).trans (and_congr_right fun _ => ?_)
  simp [mark]

end
end Registers
