import Mathlib.Data.List.Infix
import Mathlib.Logic.Relation

/-!
# A forest written down in preorder

The trees of a forest are written down one node after the other, a node in front of what is under it.  Each entry keeps
where it stands, and the nodes above it with where they stand.

* `Forest`            siblings with what is under them;
* `place`             the entries of a forest, numbered from some number on, under given ancestors;
* `filter_parent`     the children of an entry, in order;
* `isLast_iff`        the last of the siblings;
* `ancestors_eq`      the ancestors of an entry are its parent's, and the parent;
* `mem_ancestors_between`   what stands between an entry and one under it is under it as well;
* `mem_ancestors_iff`  the ancestors, through the parents;
* `Each`              a fact about all the nodes with what is above and what is under them.
-/

/-- siblings, the first one with what is under it in front -/
inductive Forest (α : Type*)
  | nil
  | cons (label : α) (kids rest : Forest α)

namespace Forest
variable {α : Type*}

/-- a node where it is written down -/
structure Placed (α : Type*) where
  index : Nat
  label : α
  /-- the labels right under it -/
  kids : List α
  /-- the nodes above it, the root in front -/
  ancestors : List (Nat × α)
  isLast : Bool

def Placed.parent (p : Placed α) : Option Nat := p.ancestors.getLast?.map Prod.fst

def Placed.at (p : Placed α) : Nat × α := (p.index, p.label)

def size : Forest α → Nat
  | nil => 0
  | cons _ kids rest => 1 + kids.size + rest.size

/-- the labels of the siblings -/
def tops : Forest α → List α
  | nil => []
  | cons label _ rest => label :: rest.tops

def isNil : Forest α → Bool
  | nil => true
  | cons .. => false

/-- the entries of the forest from number `n` on -/
def place (above : List (Nat × α)) (n : Nat) : Forest α → List (Placed α)
  | nil => []
  | cons label kids rest =>
    ⟨n, label, kids.tops, above, rest.isNil⟩ ::
      (place (above ++ [(n, label)]) (n + 1) kids ++ place above (n + 1 + kids.size) rest)

/-- a fact about every node, given what is above it -/
def Each (P : List α → α → List α → Prop) (above : List α) : Forest α → Prop
  | nil => True
  | cons label kids rest => P above label kids.tops ∧ Each P (above ++ [label]) kids ∧ Each P above rest

@[simp] lemma isNil_eq_true {f : Forest α} : f.isNil = true ↔ f = nil := by
  cases f <;> simp [isNil]

lemma tops_eq_nil {f : Forest α} : f.tops = [] ↔ f = nil := by
  cases f <;> simp [tops]

@[simp] lemma length_place (above : List (Nat × α)) (n : Nat) (f : Forest α) : (place above n f).length = f.size := by
  induction f generalizing above n with
  | nil => rfl
  | cons label kids rest hkids hrest =>
    rw [place, List.length_cons, List.length_append, hkids, hrest, size]
    omega

/-- the entries are numbered one by one -/
lemma map_index_place (above : List (Nat × α)) (n : Nat) (f : Forest α) :
    (place above n f).map Placed.index = List.range' n f.size := by
  induction f generalizing above n with
  | nil => rfl
  | cons label kids rest hkids hrest =>
    rw [place, List.map_cons, List.map_append, hkids, hrest, List.range'_append_1, size,
      show 1 + kids.size + rest.size = kids.size + rest.size + 1 by omega, List.range'_succ]

variable {above : List (Nat × α)} {n : Nat} {f : Forest α} {p q : Placed α}

lemma index_range (h : p ∈ place above n f) : n ≤ p.index ∧ p.index < n + f.size := by
  have hmem := List.mem_map_of_mem (f := Placed.index) h
  rw [map_index_place, List.mem_range'_1] at hmem
  exact hmem

lemma place_sorted (above : List (Nat × α)) (n : Nat) (f : Forest α) :
    (place above n f).Pairwise fun p q => p.index < q.index := by
  have h : ((place above n f).map Placed.index).Pairwise (· < ·) := by
    rw [map_index_place]
    exact List.pairwise_lt_range'
  exact List.pairwise_map.mp h

lemma mem_place_cons {label : α} {kids rest : Forest α} : p ∈ place above n (cons label kids rest) ↔
    p = ⟨n, label, kids.tops, above, rest.isNil⟩ ∨ p ∈ place (above ++ [(n, label)]) (n + 1) kids ∨
      p ∈ place above (n + 1 + kids.size) rest := by
  rw [place, List.mem_cons, List.mem_append]

/-- the entry with a number -/
lemma getElem?_place {i : Nat} : (place [] 0 f)[i]? = some p ↔ p ∈ place [] 0 f ∧ p.index = i := by
  have hindex : ∀ {p : Placed α} {i : Nat}, (place [] 0 f)[i]? = some p → p.index = i := by
    intro p i h
    have hmap := congrArg (·[i]?) (map_index_place [] 0 f)
    simp only [List.getElem?_map, h, Option.map_some] at hmap
    have hi : i < f.size := by
      rw [← length_place [] 0 f]
      exact (List.getElem?_eq_some_iff.mp h).1
    rw [List.getElem?_range' hi] at hmap
    have heq : p.index = 0 + 1 * i := Option.some_inj.mp hmap
    omega
  constructor
  · intro h
    exact ⟨List.mem_of_getElem? h, hindex h⟩
  · intro ⟨hmem, hi⟩
    obtain ⟨j, hj⟩ := List.mem_iff_getElem?.mp hmem
    rwa [← hi, hindex hj]

lemma index_inj (hp : p ∈ place [] 0 f) (hq : q ∈ place [] 0 f) (h : p.index = q.index) : p = q :=
  Option.some_inj.mp ((getElem?_place.mpr ⟨hp, h⟩).symm.trans (getElem?_place.mpr ⟨hq, rfl⟩))

/-! ## what is above an entry -/

/-- **Step lemma**: an entry is one of the siblings, or its ancestors are those of an entry before it, and that entry. -/
theorem ancestors_eq (h : p ∈ place above n f) : p.ancestors = above ∨
    ∃ q ∈ place above n f, q.index < p.index ∧ p.ancestors = q.ancestors ++ [q.at] := by
  induction f generalizing above n with
  | nil => nomatch h
  | cons label kids rest hkids hrest =>
    rcases mem_place_cons.mp h with rfl | h | h
    · exact .inl rfl
    · rcases hkids h with hp | ⟨q, hq, hlt, hp⟩
      · exact .inr ⟨_, mem_place_cons.mpr (.inl rfl), (index_range h).1, hp⟩
      · exact .inr ⟨q, mem_place_cons.mpr (.inr (.inl hq)), hlt, hp⟩
    · rcases hrest h with hp | ⟨q, hq, hlt, hp⟩
      · exact .inl hp
      · exact .inr ⟨q, mem_place_cons.mpr (.inr (.inr hq)), hlt, hp⟩

/-- the ancestors that are not given stand in the forest -/
lemma ancestors_index (h : p ∈ place above n f) {x : Nat × α} (hx : x ∈ p.ancestors) :
    x ∈ above ∨ n ≤ x.1 ∧ x.1 < n + f.size := by
  induction f generalizing above n with
  | nil => nomatch h
  | cons label kids rest hkids hrest =>
    rw [size]
    rcases mem_place_cons.mp h with rfl | h | h
    · exact .inl hx
    · rcases hkids h with hmem | hrange
      · rcases List.mem_append.mp hmem with hmem | hmem
        · exact .inl hmem
        · cases List.mem_singleton.mp hmem
          exact .inr (by omega)
      · exact .inr (by omega)
    · rcases hrest h with hmem | hrange
      · exact .inl hmem
      · exact .inr (by omega)

/-- the parents of a forest are the one that is given, and entries of the forest -/
lemma parent_range (h : p ∈ place above n f) :
    p.parent = above.getLast?.map Prod.fst ∨ ∃ m, p.parent = some m ∧ n ≤ m ∧ m < n + f.size := by
  rcases ancestors_eq h with hp | ⟨q, hq, -, hp⟩
  · exact .inl (by rw [Placed.parent, hp])
  · refine .inr ⟨q.index, ?_, index_range hq⟩
    rw [Placed.parent, hp, List.getLast?_concat]
    rfl

/-- the given ancestors are the first ones -/
lemma starts_above (h : p ∈ place above n f) : above <+: p.ancestors := by
  induction f generalizing above n with
  | nil => nomatch h
  | cons label kids rest hkids hrest =>
    rcases mem_place_cons.mp h with rfl | h | h
    · exact List.prefix_rfl
    · exact (List.prefix_append above _).trans (hkids h)
    · exact hrest h

/-- the ancestors are entries before it -/
lemma ancestors_entries (h : p ∈ place [] 0 f) {x : Nat × α} (hx : x ∈ p.ancestors) :
    ∃ q ∈ place [] 0 f, x = q.at ∧ q.index < p.index := by
  induction hi : p.index using Nat.strong_induction_on generalizing p with
  | _ i ih =>
    subst hi
    rcases ancestors_eq h with hnil | ⟨q, hq, hlt, hp⟩
    · rw [hnil] at hx
      nomatch hx
    · rw [hp] at hx
      rcases List.mem_append.mp hx with hx | hx
      · obtain ⟨q', hq', hx', hlt'⟩ := ih q.index hlt hq hx rfl
        exact ⟨q', hq', hx', hlt'.trans hlt⟩
      · exact ⟨q, hq, List.mem_singleton.mp hx, hlt⟩

/-- an entry is right under the one with a number -/
def Under (f : Forest α) (m i : Nat) : Prop := ∃ p ∈ place [] 0 f, p.index = i ∧ p.parent = some m

lemma under_lt {m i : Nat} (h : f.Under m i) : m < i := by
  obtain ⟨p, hp, rfl, hm⟩ := h
  rcases ancestors_eq hp with hnil | ⟨q, -, hlt, hq⟩
  · rw [Placed.parent, hnil] at hm
    cases hm
  · rw [Placed.parent, hq, List.getLast?_concat] at hm
    exact Option.some_inj.mp hm ▸ hlt

/-- **The ancestors** of an entry are those that are reached from it through the parents. -/
theorem mem_ancestors_iff (h : p ∈ place [] 0 f) {m : Nat} :
    m ∈ p.ancestors.map Prod.fst ↔ Relation.TransGen f.Under m p.index := by
  induction hi : p.index using Nat.strong_induction_on generalizing p with
  | _ i ih =>
    subst hi
    rcases ancestors_eq h with hnil | ⟨q, hq, hlt, hp⟩
    · have hnone : ∀ a, ¬ f.Under a p.index := by
        rintro a ⟨p', hp', hindex, ha⟩
        rw [index_inj hp' h hindex, Placed.parent, hnil] at ha
        cases ha
      rw [hnil]
      refine ⟨fun hm => (nomatch hm), fun hm => ?_⟩
      obtain ⟨a, -, ha⟩ := Relation.TransGen.tail'_iff.mp hm
      exact (hnone a ha).elim
    · have hparent : ∀ a, f.Under a p.index ↔ a = q.index := by
        intro a
        constructor
        · rintro ⟨p', hp', hindex, ha⟩
          rw [index_inj hp' h hindex, Placed.parent, hp, List.getLast?_concat] at ha
          exact (Option.some_inj.mp ha).symm
        · rintro rfl
          refine ⟨p, h, rfl, ?_⟩
          rw [Placed.parent, hp, List.getLast?_concat]
          rfl
      rw [hp, List.map_append, List.mem_append, ih q.index hlt hq rfl]
      constructor
      · intro hm
        rcases hm with hm | hm
        · exact hm.tail ((hparent q.index).mpr rfl)
        · cases List.mem_singleton.mp hm
          exact .single ((hparent q.index).mpr rfl)
      · intro hm
        obtain ⟨a, hma, ha⟩ := Relation.TransGen.tail'_iff.mp hm
        cases (hparent a).mp ha
        rcases Relation.reflTransGen_iff_eq_or_transGen.mp hma with heq | hma
        · exact .inr (List.mem_singleton.mpr heq.symm)
        · exact .inl hma

/-- what is known of every node is known of every entry -/
theorem Each.of_mem {P : List α → α → List α → Prop} (hf : Each P (above.map Prod.snd) f)
    (h : p ∈ place above n f) : P (p.ancestors.map Prod.snd) p.label p.kids := by
  induction f generalizing above n with
  | nil => nomatch h
  | cons label kids rest hkids hrest =>
    obtain ⟨hlabel, hk, hr⟩ := hf
    rcases mem_place_cons.mp h with rfl | h | h
    · exact hlabel
    · refine hkids ?_ h
      rwa [List.map_append]
    · exact hrest hr h

/-! ## what is under an entry -/

section
variable (habove : ∀ x ∈ above, x.1 < n)
include habove

lemma top_lt {m : Nat} (h : above.getLast?.map Prod.fst = some m) : m < n := by
  obtain ⟨x, hx, rfl⟩ := Option.map_eq_some_iff.mp h
  exact habove x (List.mem_of_getLast? hx)

lemma above_concat {label : α} : ∀ x ∈ above ++ [(n, label)], x.1 < n + 1 := by
  intro x hx
  rcases List.mem_append.mp hx with hx | hx
  · exact Nat.lt_succ_of_lt (habove x hx)
  · cases List.mem_singleton.mp hx
    exact Nat.lt_succ_self n

lemma above_later {m : Nat} (h : n ≤ m) : ∀ x ∈ above, x.1 < m :=
  fun x hx => (habove x hx).trans_le h

omit habove in
/-- no child of what is not there -/
lemma filter_parent_eq_nil {x : Option Nat} (htop : above.getLast?.map Prod.fst ≠ x)
    (hx : ∀ m, x = some m → m < n ∨ n + f.size ≤ m) : (place above n f).filter (·.parent = x) = [] := by
  rw [List.filter_eq_nil_iff]
  intro p hp heq
  have heq := of_decide_eq_true heq
  rcases parent_range hp with h | ⟨m, h, hle, hlt⟩
  · exact htop (h.symm.trans heq)
  · have := hx m (heq.symm.trans h)
    omega

omit habove in
lemma filter_place_cons {label : α} {kids rest : Forest α} (x : Option Nat) :
    (place above n (cons label kids rest)).filter (·.parent = x) =
      (if above.getLast?.map Prod.fst = x then [⟨n, label, kids.tops, above, rest.isNil⟩] else []) ++
        ((place (above ++ [(n, label)]) (n + 1) kids).filter (·.parent = x) ++
          (place above (n + 1 + kids.size) rest).filter (·.parent = x)) := by
  have hparent : (⟨n, label, kids.tops, above, rest.isNil⟩ : Placed α).parent = above.getLast?.map Prod.fst := rfl
  rw [place, List.filter_cons, List.filter_append, hparent]
  by_cases h : above.getLast?.map Prod.fst = x
  · rw [if_pos h, if_pos (decide_eq_true h)]
    rfl
  · rw [if_neg h, if_neg (fun heq => h (of_decide_eq_true heq))]
    rfl

/-- the siblings -/
theorem filter_top :
    ((place above n f).filter (·.parent = above.getLast?.map Prod.fst)).map Placed.label = f.tops := by
  induction f generalizing n with
  | nil => rfl
  | cons label kids rest hkids hrest =>
    have hnil : (place (above ++ [(n, label)]) (n + 1) kids).filter
        (·.parent = above.getLast?.map Prod.fst) = [] := by
      refine filter_parent_eq_nil ?_ fun m hm => .inl (Nat.lt_succ_of_lt (top_lt habove hm))
      rw [List.getLast?_concat]
      intro h
      exact (top_lt habove h.symm).false
    rw [filter_place_cons, if_pos rfl, hnil, List.nil_append, List.map_append, hrest (above_later habove (by omega))]
    rfl

/-- **The children** of an entry are the labels under it, in order. -/
theorem filter_parent (h : p ∈ place above n f) :
    ((place above n f).filter (·.parent = some p.index)).map Placed.label = p.kids := by
  induction f generalizing above n with
  | nil => nomatch h
  | cons label kids rest hkids hrest =>
    have htop : ∀ m, n ≤ m → above.getLast?.map Prod.fst ≠ some m := by
      intro m hm heq
      exact absurd (top_lt habove heq) (by omega)
    have hin : ∀ {m}, m ≠ n → (above ++ [(n, label)]).getLast?.map Prod.fst ≠ some m := by
      intro m hm heq
      rw [List.getLast?_concat] at heq
      exact hm (Option.some_inj.mp heq).symm
    rcases mem_place_cons.mp h with rfl | h | h
    · rw [filter_place_cons, if_neg (htop n (Nat.le_refl n)), List.nil_append,
        @filter_parent_eq_nil _ above _ _ _ (htop n (Nat.le_refl n)) (by intro m hm; cases hm; omega), List.append_nil]
      have hkid := filter_top (f := kids) (@above_concat _ above n habove label)
      rwa [List.getLast?_concat] at hkid
    · have hrange := index_range h
      rw [filter_place_cons, if_neg (htop _ (by omega)), List.nil_append,
        @filter_parent_eq_nil _ above _ _ _ (htop _ (by omega)) (by intro m hm; cases hm; omega), List.append_nil]
      exact hkids (above_concat habove) h
    · have hrange := index_range h
      rw [filter_place_cons, if_neg (htop _ (by omega)), List.nil_append,
        filter_parent_eq_nil (hin (by omega)) (by intro m hm; cases hm; omega), List.nil_append]
      exact hrest (above_later habove (by omega)) h

/-- **The last of the siblings** is the one with none of them after it. -/
theorem isLast_iff (h : p ∈ place above n f) :
    p.isLast = true ↔ ∀ q ∈ place above n f, p.index < q.index → q.parent ≠ p.parent := by
  induction f generalizing above n with
  | nil => nomatch h
  | cons label kids rest hkids hrest =>
    have hkid : ∀ q ∈ place (above ++ [(n, label)]) (n + 1) kids,
        ∃ m, q.parent = some m ∧ n ≤ m ∧ m < n + 1 + kids.size := by
      intro q hq
      rcases parent_range hq with hp | ⟨m, hp, hle, hlt⟩
      · rw [List.getLast?_concat] at hp
        exact ⟨n, hp, by omega, by omega⟩
      · exact ⟨m, hp, by omega, by omega⟩
    rcases mem_place_cons.mp h with rfl | h | h
    · constructor
      · intro hlast q hq hlt heq
        rw [isNil_eq_true] at hlast
        subst hlast
        rcases mem_place_cons.mp hq with rfl | hq | hq
        · exact hlt.false
        · obtain ⟨m, hm, hle, -⟩ := hkid q hq
          exact absurd (top_lt habove (heq.symm.trans hm)) (by omega)
        · nomatch hq
      · intro hnone
        cases rest with
        | nil => rfl
        | cons label' kids' rest' =>
          have hnext : ⟨n + 1 + kids.size, label', kids'.tops, above, rest'.isNil⟩ ∈
              place above n (cons label kids (cons label' kids' rest')) :=
            mem_place_cons.mpr (.inr (.inr (mem_place_cons.mpr (.inl rfl))))
          refine (hnone _ hnext ?_ rfl).elim
          show n < n + 1 + kids.size
          omega
    · rw [hkids (above_concat habove) h]
      constructor
      · intro hnone q hq hlt
        rcases mem_place_cons.mp hq with rfl | hq | hq
        · exact absurd (index_range h).1 (by have : p.index < n := hlt; omega)
        · exact hnone q hq hlt
        · intro heq
          obtain ⟨m, hm, hlow, hup⟩ := hkid p h
          rcases parent_range hq with hp | ⟨m', hp, hle, -⟩
          · have := top_lt habove (hp.symm.trans (heq.trans hm))
            omega
          · cases hm.symm.trans (heq.symm.trans hp)
            omega
      · intro hnone q hq
        exact hnone q (mem_place_cons.mpr (.inr (.inl hq)))
    · rw [hrest (above_later habove (by omega)) h]
      have hlow := (index_range h).1
      constructor
      · intro hnone q hq hlt
        rcases mem_place_cons.mp hq with rfl | hq | hq
        · exact absurd hlow (by have : p.index < n := hlt; omega)
        · exact absurd (index_range hq).2 (by omega)
        · exact hnone q hq hlt
      · intro hnone q hq
        exact hnone q (mem_place_cons.mpr (.inr (.inr hq)))

/-- **Preorder**: what stands between an entry and one under it is under it as well. -/
theorem mem_ancestors_between (hp : p ∈ place above n f) (hq : q ∈ place above n f) {x : Nat × α}
    (hx : x ∈ p.ancestors) (hlt : x.1 < q.index) (hle : q.index ≤ p.index) : x ∈ q.ancestors := by
  by_cases hmem : x ∈ above
  · exact (starts_above hq).subset hmem
  induction f generalizing above n with
  | nil => nomatch hp
  | cons label kids rest hkids hrest =>
    rcases mem_place_cons.mp hp with rfl | hp | hp
    · exact absurd hx hmem
    · have hrange := index_range hp
      rcases mem_place_cons.mp hq with rfl | hq | hq
      · rcases ancestors_index hp hx with h | h
        · rcases List.mem_append.mp h with h | h
          · exact h
          · cases List.mem_singleton.mp h
            exact absurd hlt (Nat.lt_irrefl n)
        · exact absurd h.1 (by have : x.1 < n := hlt; omega)
      · by_cases hhead : x ∈ above ++ [(n, label)]
        · exact (starts_above hq).subset hhead
        · exact hkids (above_concat habove) hp hq hhead
      · exact absurd (index_range hq).1 (by omega)
    · have hlow : n + 1 + kids.size ≤ x.1 := ((ancestors_index hp hx).resolve_left hmem).1
      rcases mem_place_cons.mp hq with rfl | hq | hq
      · exact absurd hlt (by show ¬ x.1 < n; omega)
      · exact absurd (index_range hq).2 (by omega)
      · exact hrest (above_later habove (by omega)) hp hq hmem

end
end Forest
