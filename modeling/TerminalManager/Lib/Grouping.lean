import Mathlib.Data.List.Induction
import Mathlib.Data.List.Nodup
import Mathlib.Logic.Function.Basic

/-!
# Grouping by key

Entries with keys come one after the other.  There is one slot for each key, in the order in which the keys come first,
and what comes later for a key is added to its slot.

* `keys`, `group`          the keys in that order, and the entries of one key;
* `Table.put`              an entry is put into the table of the slots;
* `put_all`                the table after all entries;
* `find_keys`              the first key of some kind is the key of the first entry of that kind.
-/

namespace Grouping
variable {κ β γ : Type*} [DecidableEq κ]

def keys (xs : List (κ × β)) : List κ := xs.foldl (fun ks x => if x.1 ∈ ks then ks else ks ++ [x.1]) []

/-- what comes for a key -/
def group (xs : List (κ × β)) (k : κ) : List β := (xs.filter fun x => x.1 = k).map Prod.snd

structure Table (κ γ : Type*) where
  slots : List γ
  /-- the place of the slot of a key -/
  index : κ → Option Nat

def Table.empty : Table κ γ := ⟨[], fun _ => none⟩

section
variable (start : κ → β → γ) (add : γ → β → γ)

def Table.put (t : Table κ γ) (x : κ × β) : Table κ γ :=
  match t.index x.1 with
  | some i => { t with slots := t.slots.modify i (add · x.2) }
  | none => ⟨t.slots ++ [start x.1 x.2], Function.update t.index x.1 (some t.slots.length)⟩

/-- the slot of a key -/
def total (xs : List (κ × β)) (k : κ) : Option γ :=
  match group xs k with
  | [] => none
  | b :: bs => some (bs.foldl add (start k b))

end

variable {start : κ → β → γ} {add : γ → β → γ} {xs : List (κ × β)} {x : κ × β} {k : κ}

lemma keys_concat (xs : List (κ × β)) (x : κ × β) :
    keys (xs ++ [x]) = if x.1 ∈ keys xs then keys xs else keys xs ++ [x.1] := by
  unfold keys
  rw [List.foldl_append]
  rfl

lemma group_concat (xs : List (κ × β)) (x : κ × β) (k : κ) :
    group (xs ++ [x]) k = if x.1 = k then group xs k ++ [x.2] else group xs k := by
  unfold group
  rw [List.filter_append, List.map_append]
  split_ifs with h <;> simp [h]

lemma mem_keys : k ∈ keys xs ↔ ∃ x ∈ xs, x.1 = k := by
  induction xs using List.reverseRecOn with
  | nil => simp [keys]
  | append_singleton xs x ih =>
    have hmem : k ∈ keys (xs ++ [x]) ↔ k ∈ keys xs ∨ x.1 = k := by
      rw [keys_concat]
      split_ifs with h
      · refine ⟨.inl, fun hk => hk.elim (fun h => h) ?_⟩
        rintro rfl
        exact h
      · rw [List.mem_append, List.mem_singleton, @eq_comm _ k]
    rw [hmem, ih]
    simp only [List.mem_append, List.mem_singleton, or_and_right, exists_or, exists_eq_left]

lemma nodup_keys (xs : List (κ × β)) : (keys xs).Nodup := by
  induction xs using List.reverseRecOn with
  | nil => exact List.nodup_nil
  | append_singleton xs x ih =>
    rw [keys_concat]
    split_ifs with h
    · exact ih
    · exact List.nodup_append.mpr ⟨ih, List.nodup_singleton _, fun a ha b hb hab => h (by
        rw [← List.mem_singleton.mp hb, ← hab]
        exact ha)⟩

lemma group_ne_nil : group xs k ≠ [] ↔ k ∈ keys xs := by
  rw [mem_keys, group, ne_eq, List.map_eq_nil_iff, List.filter_eq_nil_iff]
  simp

lemma total_concat (start : κ → β → γ) (add : γ → β → γ) (xs : List (κ × β)) (x : κ × β) (k : κ) :
    total start add (xs ++ [x]) k =
      if x.1 = k then some ((total start add xs k).elim (start k x.2) (add · x.2)) else total start add xs k := by
  unfold total
  rw [group_concat]
  split_ifs with h
  · cases group xs k with
    | nil => rfl
    | cons b bs =>
      show some ((bs ++ [x.2]).foldl add (start k b)) = _
      rw [List.foldl_append]
      rfl
  · rfl

/-- the table has the slots of the entries -/
structure Tallies (start : κ → β → γ) (add : γ → β → γ) (t : Table κ γ) (xs : List (κ × β)) : Prop where
  slots : t.slots.map some = (keys xs).map (total start add xs)
  index : ∀ k i, t.index k = some i ↔ (keys xs)[i]? = some k

lemma Tallies.put {t : Table κ γ} (h : Tallies start add t xs) (x : κ × β) :
    Tallies start add (t.put start add x) (xs ++ [x]) := by
  have hlen : t.slots.length = (keys xs).length := by
    have := congrArg List.length h.slots
    rwa [List.length_map, List.length_map] at this
  unfold Table.put
  by_cases hmem : x.1 ∈ keys xs
  · obtain ⟨i, hi⟩ := List.mem_iff_getElem?.mp hmem
    rw [(h.index x.1 i).mpr hi]
    have hkeys : keys (xs ++ [x]) = keys xs := by rw [keys_concat, if_pos hmem]
    refine ⟨?_, fun k => by rw [hkeys]; exact h.index k⟩
    rw [hkeys]
    apply List.ext_getElem?
    intro j
    have hj : (t.slots.map some)[j]? = ((keys xs).map (total start add xs))[j]? := by rw [h.slots]
    rw [List.getElem?_map, List.getElem?_map] at hj
    rw [List.getElem?_map, List.getElem?_map, List.getElem?_modify]
    cases hkj : (keys xs)[j]? with
    | none =>
      rw [hkj] at hj
      rw [Option.map_eq_none_iff.mp hj]
      split_ifs <;> rfl
    | some k =>
      rw [hkj] at hj
      obtain ⟨g, hg, htotal⟩ := Option.map_eq_some_iff.mp hj
      have hij : i = j ↔ x.1 = k := by
        constructor
        · rintro rfl
          exact Option.some.inj (hi.symm.trans hkj)
        · rintro rfl
          exact (List.getElem?_inj (List.getElem?_eq_some_iff.mp hi).1 (nodup_keys xs)).mp (hi.trans hkj.symm)
      rw [hg, Option.map_some, total_concat, ← htotal]
      simp only [hij]
      split_ifs <;> rfl
  · have hnone : t.index x.1 = none := by
      by_contra hsome
      obtain ⟨i, hi⟩ := Option.ne_none_iff_exists'.mp hsome
      exact hmem (List.mem_iff_getElem?.mpr ⟨i, (h.index x.1 i).mp hi⟩)
    have hkeys : keys (xs ++ [x]) = keys xs ++ [x.1] := by rw [keys_concat, if_neg hmem]
    have hgroup : total start add xs x.1 = none := by
      unfold total
      rw [not_not.mp (mt group_ne_nil.mp hmem)]
    rw [hnone]
    refine ⟨?_, fun k i => ?_⟩
    · show (t.slots ++ [start x.1 x.2]).map some = _
      rw [hkeys, List.map_append, List.map_append, h.slots]
      congr 1
      · refine List.map_congr_left fun k hk => ?_
        rw [total_concat, if_neg]
        rintro rfl
        exact hmem hk
      · show [some _] = [total start add (xs ++ [x]) x.1]
        rw [total_concat, if_pos rfl, hgroup]
        rfl
    · show Function.update t.index x.1 (some t.slots.length) k = some i ↔ _
      rw [hkeys, Function.update_apply, List.getElem?_append]
      by_cases hk : k = x.1
      · subst hk
        rw [if_pos rfl, Option.some.injEq, hlen]
        split_ifs with hi
        · refine iff_of_false (by omega) fun hget => hmem (List.mem_iff_getElem?.mpr ⟨i, hget⟩)
        · refine ⟨fun heq => by rw [← heq, Nat.sub_self]; rfl, fun hget => ?_⟩
          have hlt := (List.getElem?_eq_some_iff.mp hget).1
          rw [List.length_singleton] at hlt
          omega
      · rw [if_neg hk, h.index k i]
        split_ifs with hi
        · exact Iff.rfl
        · refine iff_of_false (fun hget => hi (List.getElem?_eq_some_iff.mp hget).1) fun hget => hk ?_
          exact List.mem_singleton.mp (List.mem_iff_getElem?.mpr ⟨_, hget⟩)

/-- **The table after all entries.** -/
theorem put_all (start : κ → β → γ) (add : γ → β → γ) (xs : List (κ × β)) :
    Tallies start add (xs.foldl (Table.put start add) .empty) xs := by
  induction xs using List.reverseRecOn with
  | nil => exact ⟨rfl, fun k i => iff_of_false (fun h => by cases h) fun h => by cases h⟩
  | append_singleton xs x ih =>
    rw [List.foldl_append]
    exact ih.put x

/-- the first key of some kind -/
theorem find_keys (p : κ → Bool) (xs : List (κ × β)) : (keys xs).find? p = (xs.find? fun x => p x.1).map Prod.fst := by
  induction xs using List.reverseRecOn with
  | nil => rfl
  | append_singleton xs x ih =>
    rw [keys_concat, List.find?_append, Option.map_or, ← ih]
    split_ifs with h
    · cases hfind : (keys xs).find? p with
      | some k => rfl
      | none =>
        have hno : ¬p x.1 = true := List.find?_eq_none.mp hfind x.1 h
        rw [List.find?_singleton, if_neg hno]
        rfl
    · rw [List.find?_append, List.find?_singleton, List.find?_singleton]
      split_ifs <;> rfl

end Grouping
