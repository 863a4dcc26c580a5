import Mathlib.Data.List.Forall2

/-!
# Patterns along a path

A pattern is a list of pieces, to be found on a path one after the other.  Each piece says how it follows the place of
the piece before: next to it, or anywhere behind it.

* `Assigned`   there are places on the path that obey the pattern;
* `gaps`       the nearest places: how many nodes are passed over to the next node that fits;
* `walk`       a search that takes the nearest place of each piece and never goes back, and that binds a piece by the
  step of the piece before it (`walk_iff`);
* `gaps_isSome_of_assigned`   the nearest places exist when any do;
* `assigned_of_gaps`          they will do when no piece has to be next to another;
* `strays`, `walk_strays`, `not_assigned_strays`   when one has to, a path on which the walk is wrong.
-/

namespace Climb

inductive Step
  | descendant | child
deriving DecidableEq

section
variable {ν κ : Type*} (fits : κ → ν → Bool)

/-- places on the path that obey the pattern -/
def Assigned : List (κ × Step) → List ν → Prop
  | [], _ => True
  | (k, .child) :: ks, path => ∃ v rest, path = v :: rest ∧ fits k v = true ∧ Assigned ks rest
  | (k, .descendant) :: ks, path => ∃ passed v rest, path = passed ++ v :: rest ∧ fits k v = true ∧ Assigned ks rest

/-- how many nodes are passed over to the nearest place of each piece, `n` of them so far -/
def gaps (n : Nat) : List κ → List ν → Option (List Nat)
  | [], _ => some []
  | _ :: _, [] => none
  | k :: keys, v :: path => if fits k v then (gaps 0 keys path).map (n :: ·) else gaps (n + 1) (k :: keys) path

/-- no node is passed over after a piece with a `child` step -/
def Tight : Step → List Step → List Nat → Prop
  | prev, s :: steps, g :: gs => (prev = .child → g = 0) ∧ Tight s steps gs
  | _, _, _ => True

/-- the search: a piece is bound by the step of the piece before it -/
def walk (prev : Step) : List (κ × Step) → List ν → Bool
  | [], _ => true
  | _ :: _, [] => false
  | (k, s) :: ks, v :: path =>
    if fits k v then walk s ks path
    else if prev = .child then false
    else walk prev ((k, s) :: ks) path

variable {fits} {k : κ} {v : ν} {s prev : Step} {ks : List (κ × Step)} {keys : List κ} {path : List ν} {n : Nat}

lemma gaps_nil (path : List ν) : gaps fits n [] path = some [] := by
  cases path <;> rfl

lemma gaps_fits (h : fits k v = true) : gaps fits n (k :: keys) (v :: path) = (gaps fits 0 keys path).map (n :: ·) :=
  if_pos h

lemma gaps_passed (h : ¬fits k v = true) : gaps fits n (k :: keys) (v :: path) = gaps fits (n + 1) (k :: keys) path :=
  if_neg h

/-- the first gap counts the nodes passed over so far -/
lemma le_of_gaps {gs : List Nat} (h : gaps fits n (k :: keys) path = some gs) : ∃ g rest, gs = g :: rest ∧ n ≤ g := by
  induction path generalizing n with
  | nil => cases h
  | cons v path ih =>
    by_cases hk : fits k v = true
    · rw [gaps_fits hk] at h
      obtain ⟨rest, -, rfl⟩ := Option.map_eq_some_iff.mp h
      exact ⟨n, rest, rfl, Nat.le_refl n⟩
    · rw [gaps_passed hk] at h
      obtain ⟨g, rest, hg, hle⟩ := ih h
      exact ⟨g, rest, hg, by omega⟩

lemma walk_iff_from (hn : prev = .child → n = 0) : walk fits prev ks path = true ↔
    ∃ gs, gaps fits n (ks.map Prod.fst) path = some gs ∧ Tight prev (ks.map Prod.snd) gs := by
  induction path generalizing prev ks n with
  | nil =>
    cases ks with
    | nil => exact ⟨fun _ => ⟨[], rfl, trivial⟩, fun _ => rfl⟩
    | cons x ks => exact ⟨fun h => (by cases h), fun ⟨gs, h, _⟩ => (by cases h)⟩
  | cons v path ih =>
    cases ks with
    | nil => exact ⟨fun _ => ⟨[], rfl, trivial⟩, fun _ => rfl⟩
    | cons x ks =>
      obtain ⟨k, s⟩ := x
      rw [walk, List.map_cons, List.map_cons]
      by_cases hk : fits k v = true
      · -- the piece is placed here
        rw [if_pos hk, gaps_fits hk, ih (n := 0) fun _ => rfl]
        constructor
        · rintro ⟨gs, hg, ht⟩
          exact ⟨n :: gs, by rw [hg]; rfl, hn, ht⟩
        · rintro ⟨gs, hg, ht⟩
          obtain ⟨gs', hg', rfl⟩ := Option.map_eq_some_iff.mp hg
          exact ⟨gs', hg', ht.2⟩
      · rw [if_neg hk, gaps_passed hk]
        by_cases hp : prev = .child
        · -- and it may not be placed further up
          rw [if_pos hp]
          refine ⟨fun h => (by cases h), ?_⟩
          rintro ⟨gs, hg, ht⟩
          obtain ⟨g, rest, rfl, hle⟩ := le_of_gaps hg
          have hzero := ht.1 hp
          omega
        · rw [if_neg hp]
          exact ih fun h => absurd h hp

/-- **The walk takes the nearest places**, and finds them when none is further than the step before allows. -/
theorem walk_iff : walk fits prev ks path = true ↔
    ∃ gs, gaps fits 0 (ks.map Prod.fst) path = some gs ∧ Tight prev (ks.map Prod.snd) gs :=
  walk_iff_from fun _ => rfl

/-! ## the nearest places -/

lemma gaps_isSome_from (m n : Nat) (h : (gaps fits m keys path).isSome) : (gaps fits n keys path).isSome := by
  induction path generalizing keys m n with
  | nil =>
    cases keys with
    | nil => rfl
    | cons k keys => cases h
  | cons v path ih =>
    cases keys with
    | nil => rfl
    | cons k keys =>
      by_cases hk : fits k v = true
      · rw [gaps_fits hk, Option.isSome_map] at h ⊢
        exact h
      · rw [gaps_passed hk] at h ⊢
        exact ih _ _ h

lemma gaps_isSome_both (path : List ν) :
    (∀ (k : κ) keys n, (gaps fits n (k :: keys) path).isSome → (gaps fits 0 keys path).isSome) ∧
    ∀ v keys n, (gaps fits n keys path).isSome → (gaps fits n keys (v :: path)).isSome := by
  induction path with
  | nil =>
    refine ⟨fun k keys n h => (by cases h), fun v keys n h => ?_⟩
    cases keys with
    | nil => rfl
    | cons k keys => cases h
  | cons u path ih =>
    obtain ⟨htail, hmore⟩ := ih
    have htail' : ∀ (k : κ) keys n, (gaps fits n (k :: keys) (u :: path)).isSome → (gaps fits 0 keys (u :: path)).isSome := by
      intro k keys n h
      by_cases hk : fits k u = true
      · rw [gaps_fits hk, Option.isSome_map] at h
        exact hmore u keys 0 h
      · rw [gaps_passed hk] at h
        exact hmore u keys 0 (htail k keys _ h)
    refine ⟨htail', fun v keys n h => ?_⟩
    cases keys with
    | nil => rfl
    | cons k keys =>
      by_cases hk : fits k v = true
      · rw [gaps_fits hk, Option.isSome_map]
        exact htail' k keys n h
      · rw [gaps_passed hk]
        exact gaps_isSome_from n (n + 1) h

/-- more nodes in front do no harm -/
lemma gaps_isSome_append (passed : List ν) (h : (gaps fits 0 keys path).isSome) :
    (gaps fits 0 keys (passed ++ path)).isSome := by
  induction passed with
  | nil => exact h
  | cons v passed ih => exact (gaps_isSome_both (passed ++ path)).2 v keys 0 ih

theorem gaps_isSome_of_assigned (h : Assigned fits ks path) : (gaps fits 0 (ks.map Prod.fst) path).isSome := by
  induction ks generalizing path with
  | nil =>
    rw [List.map_nil, gaps_nil]
    rfl
  | cons x ks ih =>
    obtain ⟨k, s⟩ := x
    rw [List.map_cons]
    cases s with
    | child =>
      obtain ⟨v, rest, rfl, hk, hrest⟩ := h
      rw [gaps_fits hk, Option.isSome_map]
      exact ih hrest
    | descendant =>
      obtain ⟨passed, v, rest, rfl, hk, hrest⟩ := h
      refine gaps_isSome_append passed ?_
      rw [gaps_fits hk, Option.isSome_map]
      exact ih hrest

lemma assigned_cons (hk : Assigned fits ((k, .descendant) :: ks) path) (v : ν) :
    Assigned fits ((k, .descendant) :: ks) (v :: path) := by
  obtain ⟨passed, u, rest, rfl, hu, hrest⟩ := hk
  exact ⟨v :: passed, u, rest, rfl, hu, hrest⟩

theorem assigned_of_gaps (hs : ∀ x ∈ ks, x.2 = .descendant) (n : Nat)
    (h : (gaps fits n (ks.map Prod.fst) path).isSome) : Assigned fits ks path := by
  induction path generalizing ks n with
  | nil =>
    cases ks with
    | nil => trivial
    | cons x ks => cases h
  | cons v path ih =>
    cases ks with
    | nil => trivial
    | cons x ks =>
      obtain ⟨k, s⟩ := x
      obtain rfl : s = .descendant := hs (k, s) List.mem_cons_self
      rw [List.map_cons] at h
      by_cases hk : fits k v = true
      · rw [gaps_fits hk, Option.isSome_map] at h
        exact ⟨[], v, path, rfl, hk, ih (fun x hx => hs x (List.mem_cons_of_mem _ hx)) 0 h⟩
      · rw [gaps_passed hk] at h
        exact assigned_cons (ih hs (n + 1) h) v

/-- `descendant` steps bind nothing -/
lemma tight_descendant {steps : List Step} (hs : ∀ s ∈ steps, s = .descendant) (gs : List Nat) :
    Tight .descendant steps gs := by
  induction steps generalizing gs with
  | nil => cases gs <;> trivial
  | cons s steps ih =>
    obtain rfl : s = .descendant := hs s List.mem_cons_self
    cases gs with
    | nil => trivial
    | cons g gs => exact ⟨fun h => (by cases h), ih (fun s hs' => hs s (List.mem_cons_of_mem _ hs')) gs⟩

end

/-! ## the same pattern on another path -/

section
variable {ν ν' κ κ' : Type*} {fits : κ → ν → Bool} {fits' : κ' → ν' → Bool} {f : κ' → κ} {path : List ν} {path' : List ν'}

lemma walk_map (h : List.Forall₂ (fun v v' => ∀ k, fits (f k) v = fits' k v') path path') {prev : Step}
    {ks : List (κ' × Step)} : walk fits prev (ks.map (Prod.map f fun s => s)) path = walk fits' prev ks path' := by
  induction h generalizing prev ks with
  | nil => cases ks <;> rfl
  | cons hv _ ih =>
    cases ks with
    | nil => rfl
    | cons k ks =>
      obtain ⟨k, s⟩ := k
      show walk fits prev ((f k, s) :: ks.map _) _ = _
      have hagain : walk fits prev ((f k, s) :: ks.map _) _ = walk fits' prev ((k, s) :: ks) _ := @ih prev ((k, s) :: ks)
      rw [walk, walk, hv k, ih, hagain]

lemma forall₂_split {R : ν → ν' → Prop} {us vs : List ν} {v : ν} (h : List.Forall₂ R (us ++ v :: vs) path') :
    ∃ us' v' vs', path' = us' ++ v' :: vs' ∧ R v v' ∧ List.Forall₂ R vs vs' := by
  induction us generalizing path' with
  | nil =>
    cases h with
    | cons hv h => exact ⟨[], _, _, rfl, hv, h⟩
  | cons u us ih =>
    cases h with
    | cons _ h =>
      obtain ⟨us', v', vs', rfl, hv, hvs⟩ := ih h
      exact ⟨_ :: us', v', vs', rfl, hv, hvs⟩

lemma assigned_map (h : List.Forall₂ (fun v v' => ∀ k, fits (f k) v = fits' k v') path path')
    {ks : List (κ' × Step)} : Assigned fits (ks.map (Prod.map f fun s => s)) path ↔ Assigned fits' ks path' := by
  induction ks generalizing path path' with
  | nil => exact Iff.rfl
  | cons k ks ih =>
    obtain ⟨k, s⟩ := k
    cases s with
    | child =>
      constructor
      · rintro ⟨v, rest, rfl, hfit, hrest⟩
        cases h with
        | cons hv h => exact ⟨_, _, rfl, (hv k).symm.trans hfit, (ih h).mp hrest⟩
      · rintro ⟨v, rest, rfl, hfit, hrest⟩
        cases h with
        | cons hv h => exact ⟨_, _, rfl, (hv k).trans hfit, (ih h).mpr hrest⟩
    | descendant =>
      constructor
      · rintro ⟨passed, v, rest, rfl, hfit, hrest⟩
        obtain ⟨passed', v', rest', rfl, hv, hrest'⟩ := forall₂_split h
        exact ⟨passed', v', rest', rfl, (hv k).symm.trans hfit, (ih hrest').mp hrest⟩
      · rintro ⟨passed, v, rest, rfl, hfit, hrest⟩
        obtain ⟨passed', v', rest', rfl, hv, hrest'⟩ := forall₂_split h.flip
        exact ⟨passed', v', rest', rfl, (hv k).trans hfit, (ih hrest'.flip).mpr hrest⟩

end

/-! ## where the walk goes wrong -/

/-- pieces that tell their places apart -/
def numbered (m : Nat) : List Step → List (Nat × Step)
  | [] => []
  | s :: steps => (m, s) :: numbered (m + 1) steps

/-- the places of the pieces, one next to the other -/
def straight (m : Nat) : List Step → List (Option Nat)
  | [] => []
  | _ :: steps => some m :: straight (m + 1) steps

/-- the places, but before the first piece that has to be next to another there is one that nothing fits -/
def strays (m : Nat) : List Step → List (Option Nat)
  | [] => []
  | .descendant :: steps => some m :: strays (m + 1) steps
  | .child :: steps => none :: straight m (.child :: steps)

def isAt (k : Nat) (v : Option Nat) : Bool := v = some k

lemma isAt_self (k : Nat) : isAt k (some k) = true := decide_eq_true rfl

lemma not_isAt_none (k : Nat) : ¬isAt k none = true := fun h => by cases of_decide_eq_true h

lemma map_numbered (m : Nat) (steps : List Step) : (numbered m steps).map Prod.snd = steps := by
  induction steps generalizing m with
  | nil => rfl
  | cons s steps ih => rw [numbered, List.map_cons, ih]

lemma walk_straight (prev : Step) (m : Nat) (steps : List Step) :
    walk isAt prev (numbered m steps) (straight m steps) = true := by
  induction steps generalizing prev m with
  | nil => rfl
  | cons s steps ih =>
    rw [numbered, straight, walk, if_pos (isAt_self m)]
    exact ih s (m + 1)

theorem walk_strays (m : Nat) (steps : List Step) :
    walk isAt .descendant (numbered m steps) (strays m steps) = true := by
  induction steps generalizing m with
  | nil => rfl
  | cons s steps ih =>
    cases s with
    | descendant =>
      rw [numbered, strays, walk, if_pos (isAt_self m)]
      exact ih (m + 1)
    | child =>
      -- the stray node is passed over, since the piece before has a `descendant` step
      rw [numbered, strays, walk, if_neg (not_isAt_none m), if_neg (by decide)]
      exact walk_straight .descendant m (.child :: steps)

lemma le_of_mem_straight {m j : Nat} {steps : List Step} (h : some j ∈ straight m steps) : m ≤ j := by
  induction steps generalizing m with
  | nil => cases h
  | cons s steps ih =>
    rcases List.mem_cons.mp h with h | h
    · exact Nat.le_of_eq (Option.some.inj h).symm
    · have hle := ih h
      omega

lemma le_of_mem_strays {m j : Nat} {steps : List Step} (h : some j ∈ strays m steps) : m ≤ j := by
  induction steps generalizing m with
  | nil => cases h
  | cons s steps ih =>
    cases s with
    | descendant =>
      rcases List.mem_cons.mp h with h | h
      · exact Nat.le_of_eq (Option.some.inj h).symm
      · have hle := ih h
        omega
    | child =>
      rcases List.mem_cons.mp h with h | h
      · cases h
      · exact le_of_mem_straight h

theorem not_assigned_strays (m : Nat) {steps : List Step} (h : .child ∈ steps) :
    ¬Assigned isAt (numbered m steps) (strays m steps) := by
  induction steps generalizing m with
  | nil => cases h
  | cons s steps ih =>
    cases s with
    | descendant =>
      rintro ⟨passed, v, rest, hpath, hv, hrest⟩
      obtain rfl : v = some m := of_decide_eq_true hv
      have hpath' : some m :: strays (m + 1) steps = passed ++ some m :: rest := hpath
      cases passed with
      | nil =>
        obtain ⟨-, rfl⟩ := List.cons.inj hpath'
        exact ih (m + 1) ((List.mem_cons.mp h).resolve_left (by decide)) hrest
      | cons u passed =>
        -- the place of a piece is on the path once
        obtain ⟨-, hrest'⟩ := List.cons.inj hpath'
        have hle := le_of_mem_strays (show some m ∈ strays (m + 1) steps by rw [hrest']; simp)
        omega
    | child =>
      rintro ⟨v, rest, hpath, hv, -⟩
      obtain ⟨rfl, -⟩ := List.cons.inj (show none :: straight m (.child :: steps) = v :: rest from hpath)
      exact not_isAt_none m hv

end Climb
