import Mathlib.Algebra.Ring.Nat
import Mathlib.Tactic.Common

/-!
# Finite maps as lists of entries

A hash map is the list of its entries, the one that was set last in front; a key that is set or taken
out has no older entry left.  Two maps are compared through `get` and `contains`.

* `Table κ α`            the maps from `κ` to `α`;
* `insert`, `remove`     one entry set or taken out;
* `retain`               the entries whose key meets a test;
* `Distinct`, `sum`      no key twice, and what a sum over the entries loses with one of them;
* `Lists`, `collect`     the entries in some order, and a map collected from entries;
* `isEmpty_iff`          a map is empty when it has no key.
-/

/-- a map from `κ` to `α` -/
structure Table (κ α : Type*) where
  entries : List (κ × α)
deriving DecidableEq, Repr

namespace Table
section
variable {κ α : Type*}

instance : EmptyCollection (Table κ α) := ⟨⟨[]⟩⟩

def isEmpty (t : Table κ α) : Bool := t.entries.isEmpty

variable [DecidableEq κ]

def get (t : Table κ α) (k : κ) : Option α := t.entries.lookup k

def contains (t : Table κ α) (k : κ) : Bool := (t.get k).isSome

def retain (t : Table κ α) (p : κ → Bool) : Table κ α := ⟨t.entries.filter (p ·.1)⟩

def remove (t : Table κ α) (k : κ) : Table κ α := t.retain (· != k)

def insert (t : Table κ α) (k : κ) (a : α) : Table κ α := ⟨(k, a) :: (t.remove k).entries⟩

@[simp] lemma get_empty (k : κ) : (∅ : Table κ α).get k = none := rfl

@[simp] lemma contains_empty (k : κ) : (∅ : Table κ α).contains k = false := rfl

lemma get_cons (e : κ × α) (entries : List (κ × α)) (k : κ) :
    (Table.mk (e :: entries)).get k = if k = e.1 then some e.2 else (Table.mk entries).get k := by
  unfold get
  rw [List.lookup_cons]
  by_cases h : k = e.1
  · rw [if_pos h, beq_iff_eq.mpr h]
  · rw [if_neg h, beq_eq_false_iff_ne.mpr h]

@[simp] lemma get_retain (t : Table κ α) (p : κ → Bool) (k : κ) :
    (t.retain p).get k = if p k then t.get k else none := by
  obtain ⟨entries⟩ := t
  unfold retain
  induction entries with
  | nil => exact (ite_self none).symm
  | cons e entries ih =>
    have hfilter : (e :: entries).filter (p ·.1) =
        if p e.1 then e :: entries.filter (p ·.1) else entries.filter (p ·.1) := List.filter_cons
    dsimp only at ih ⊢
    rw [hfilter, get_cons]
    by_cases hp : p e.1
    · rw [if_pos hp, get_cons]
      by_cases hk : k = e.1
      · rw [if_pos hk, if_pos (hk ▸ hp), if_pos hk]
      · rw [if_neg hk, if_neg hk]
        exact ih
    · rw [if_neg hp, ih]
      by_cases hk : k = e.1
      · rw [if_neg (hk ▸ hp), if_neg (hk ▸ hp)]
      · rw [if_neg hk]

@[simp] lemma contains_retain (t : Table κ α) (p : κ → Bool) (k : κ) :
    (t.retain p).contains k = (p k && t.contains k) := by
  unfold contains
  rw [get_retain]
  cases p k <;> rfl

lemma contains_of_get {t : Table κ α} {k : κ} {a : α} (h : t.get k = some a) :
    t.contains k = true := by
  unfold contains
  rw [h]
  rfl

lemma mem_of_get {t : Table κ α} {k : κ} {a : α} (h : t.get k = some a) : (k, a) ∈ t.entries := by
  obtain ⟨entries⟩ := t
  induction entries with
  | nil => cases h
  | cons e entries ih =>
    rw [get_cons] at h
    split_ifs at h with hk
    · rw [hk, ← Option.some.inj h]
      exact List.mem_cons_self
    · exact List.mem_cons_of_mem _ (ih h)

lemma contains_eq_false {t : Table κ α} {k : κ} : t.contains k = false ↔ t.get k = none := by
  unfold contains
  exact Option.isSome_eq_false_iff.trans Option.isNone_iff_eq_none

/-- a map is empty when it has no key -/
lemma isEmpty_iff {t : Table κ α} : t.isEmpty = true ↔ ∀ k, t.contains k = false := by
  constructor
  · intro h k
    rw [show t = ∅ from congrArg Table.mk (List.isEmpty_iff.mp h)]
    rfl
  · intro h
    obtain ⟨entries⟩ := t
    cases entries with
    | nil => rfl
    | cons e entries =>
      have hget := contains_eq_false.mp (h e.1)
      rw [get_cons, if_pos rfl] at hget
      cases hget

lemma get_remove (t : Table κ α) (k j : κ) :
    (t.remove k).get j = if j = k then none else t.get j := by
  unfold remove
  rw [get_retain]
  by_cases h : j = k
  · rw [if_pos h, if_neg (by simp [h])]
  · rw [if_neg h, if_pos (by simp [h])]

@[simp] lemma get_remove_self (t : Table κ α) (k : κ) : (t.remove k).get k = none := by
  rw [get_remove, if_pos rfl]

lemma get_remove_of_ne (t : Table κ α) {k j : κ} (h : j ≠ k) : (t.remove k).get j = t.get j := by
  rw [get_remove, if_neg h]

lemma get_insert (t : Table κ α) (k j : κ) (a : α) :
    (t.insert k a).get j = if j = k then some a else t.get j := by
  unfold insert
  rw [get_cons, get_remove]
  split_ifs <;> rfl

@[simp] lemma get_insert_self (t : Table κ α) (k : κ) (a : α) : (t.insert k a).get k = some a := by
  rw [get_insert, if_pos rfl]

lemma get_insert_of_ne (t : Table κ α) {k j : κ} (a : α) (h : j ≠ k) :
    (t.insert k a).get j = t.get j := by
  rw [get_insert, if_neg h]

@[simp] lemma contains_insert (t : Table κ α) (k j : κ) (a : α) :
    (t.insert k a).contains j = (decide (j = k) || t.contains j) := by
  unfold contains
  rw [get_insert]
  by_cases h : j = k <;> simp [h]

@[simp] lemma contains_remove (t : Table κ α) (k j : κ) :
    (t.remove k).contains j = (!decide (j = k) && t.contains j) := by
  unfold contains
  rw [get_remove]
  by_cases h : j = k <;> simp [h]

omit [DecidableEq κ] in
lemma mem_retain {t : Table κ α} {p : κ → Bool} {e : κ × α} : e ∈ (t.retain p).entries ↔ e ∈ t.entries ∧ p e.1 = true :=
  List.mem_filter

lemma mem_insert {t : Table κ α} {k : κ} {a : α} {e : κ × α} :
    e ∈ (t.insert k a).entries ↔ e = (k, a) ∨ e ∈ t.entries ∧ e.1 ≠ k := by
  unfold insert remove
  rw [List.mem_cons, mem_retain, bne_iff_ne]

/-! ## a sum over the entries -/

/-- no key has two entries -/
def Distinct (t : Table κ α) : Prop := (t.entries.map Prod.fst).Nodup

omit [DecidableEq κ] in
lemma distinct_empty : Distinct (∅ : Table κ α) := List.nodup_nil

omit [DecidableEq κ] in
lemma Distinct.retain {t : Table κ α} (h : t.Distinct) (p : κ → Bool) : (t.retain p).Distinct :=
  h.sublist (List.Sublist.map _ List.filter_sublist)

lemma Distinct.insert {t : Table κ α} (h : t.Distinct) (k : κ) (a : α) : (t.insert k a).Distinct := by
  unfold Distinct Table.insert
  rw [List.map_cons, List.nodup_cons]
  refine ⟨fun hmem => ?_, h.retain _⟩
  obtain ⟨e, he, heq⟩ := List.mem_map.mp hmem
  exact absurd heq (bne_iff_ne.mp (mem_retain.mp he).2)

omit [DecidableEq κ] in
def sum (f : α → Nat) (t : Table κ α) : Nat := (t.entries.map fun e => f e.2).sum

lemma sum_insert (f : α → Nat) (t : Table κ α) (k : κ) (a : α) : (t.insert k a).sum f = f a + (t.remove k).sum f :=
  List.sum_cons

lemma remove_eq_self {t : Table κ α} {k : κ} (h : k ∉ t.entries.map Prod.fst) : t.remove k = t := by
  unfold remove Table.retain
  congr 1
  refine List.filter_eq_self.mpr fun e he => bne_iff_ne.mpr fun heq => h ?_
  exact heq ▸ List.mem_map_of_mem he

/-- what an entry that is taken out leaves of the sum -/
lemma sum_remove {t : Table κ α} (h : t.Distinct) (f : α → Nat) (k : κ) :
    (t.remove k).sum f + ((t.get k).map f).getD 0 = t.sum f := by
  obtain ⟨entries⟩ := t
  induction entries with
  | nil => rfl
  | cons e entries ih =>
    have hnd := List.nodup_cons.mp h
    rw [get_cons]
    by_cases hk : k = e.1
    · subst hk
      have hrest : (Table.mk (e :: entries)).remove e.1 = Table.mk entries := by
        have hself := remove_eq_self (t := Table.mk entries) hnd.1
        unfold remove Table.retain at hself ⊢
        rw [List.filter_cons_of_neg (by simp)]
        exact hself
      rw [hrest, if_pos rfl]
      exact Nat.add_comm _ _
    · have hcons : ((Table.mk (e :: entries)).remove k).sum f = f e.2 + ((Table.mk entries).remove k).sum f := by
        unfold remove Table.retain sum
        rw [List.filter_cons_of_pos (by simpa using Ne.symm hk)]
        exact List.sum_cons
      rw [if_neg hk, hcons, Nat.add_assoc, ih hnd.2]
      exact List.sum_cons.symm

/-! ## in some order -/

/-- an order in which the entries of a map may be met -/
def Lists (t : Table κ α) (es : List (κ × α)) : Prop := (es.map Prod.fst).Nodup ∧ ∀ k a, (k, a) ∈ es ↔ t.get k = some a

/-- a map from entries, where a later one replaces an earlier one -/
def collect (es : List (κ × α)) : Table κ α := es.foldl (fun t e => t.insert e.1 e.2) ∅

lemma get_foldl_insert (es : List (κ × α)) (t : Table κ α) (h : (es.map Prod.fst).Nodup) (k : κ) (a : α) :
    (es.foldl (fun t e => t.insert e.1 e.2) t).get k = some a ↔
      (k, a) ∈ es ∨ k ∉ es.map Prod.fst ∧ t.get k = some a := by
  induction es generalizing t with
  | nil => simp
  | cons e es ih =>
    rw [List.map_cons, List.nodup_cons] at h
    rw [List.foldl_cons, ih _ h.2, get_insert, List.mem_cons, List.map_cons, List.mem_cons]
    by_cases hk : k = e.1
    · subst hk
      have hnot : (e.1, a) ∉ es := fun hmem => h.1 (List.mem_map.mpr ⟨_, hmem, rfl⟩)
      simp [h.1, hnot, Prod.ext_iff, eq_comm]
    · have hne : (k, a) ≠ e := fun heq => hk (congrArg Prod.fst heq)
      simp [hk, hne]

/-- the entries of a map that is collected from distinct keys -/
lemma get_collect {es : List (κ × α)} (h : (es.map Prod.fst).Nodup) (k : κ) (a : α) :
    (collect es).get k = some a ↔ (k, a) ∈ es := by
  rw [collect, get_foldl_insert es ∅ h k a]
  simp

lemma lists_collect {es : List (κ × α)} (h : (es.map Prod.fst).Nodup) : (collect es).Lists es :=
  ⟨h, fun k a => (get_collect h k a).symm⟩

end
end Table
