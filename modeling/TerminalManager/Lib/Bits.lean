import Mathlib.Data.List.Induction
import Mathlib.Data.Nat.Bitwise

/-!
# Sets of numbers as words of bits

A set of numbers is a list of words: the number `i` is bit `i % w` of word `i / w`.

* `ones`, `ones_eq`        the bits of a word, taken from the lowest one by counting zeros and clearing it;
* `members`, `members_eq`  the numbers of a set, word by word;
* `insert`, `union`        with the membership of each (`mem_insert`, `mem_union`).
-/

namespace BitSets
variable {w : Nat}

/-! ## one word -/

lemma toNat_sub_one {x : BitVec w} (hx : x ≠ 0#w) : (x - 1#w).toNat = x.toNat - 1 := by
  have hpos : 0 < x.toNat := Nat.pos_of_ne_zero fun h => hx (BitVec.eq_of_toNat_eq (by rw [h]; rfl))
  have hw : 1 % 2 ^ w = 1 := Nat.mod_eq_of_lt (Nat.lt_of_le_of_lt hpos x.isLt)
  rw [BitVec.toNat_sub, BitVec.toNat_ofNat, hw, show 2 ^ w - 1 + x.toNat = (x.toNat - 1) + 2 ^ w by
    have hlt := x.isLt
    omega, Nat.add_mod_right]
  exact Nat.mod_eq_of_lt (Nat.lt_of_le_of_lt (Nat.sub_le _ _) x.isLt)

/-- the bits of a word, from the lowest one on -/
def ones (x : BitVec w) : List Nat :=
  if x = 0#w then [] else x.ctz.toNat :: ones (x &&& (x - 1#w))
termination_by x.toNat
decreasing_by
  rename_i hx
  have hpos : 0 < x.toNat := Nat.pos_of_ne_zero fun h => hx (BitVec.eq_of_toNat_eq (by rw [h]; rfl))
  rw [BitVec.toNat_and, toNat_sub_one hx]
  exact Nat.lt_of_le_of_lt Nat.and_le_right (Nat.sub_lt hpos Nat.one_pos)

/-- a number whose lowest bit is `k` -/
lemma testBit_and_sub_one {n k : Nat} (hk : n.testBit k = true) (hlow : ∀ i < k, n.testBit i = false) (i : Nat) :
    (n &&& (n - 1)).testBit i = (n.testBit i && decide (i ≠ k)) := by
  have hzero : n % 2 ^ k = 0 := by
    apply Nat.eq_of_testBit_eq
    intro j
    rw [Nat.testBit_mod_two_pow, Nat.zero_testBit]
    by_cases hj : j < k
    · rw [hlow j hj, Bool.and_false]
    · rw [decide_eq_false hj, Bool.false_and]
  have hodd : (n / 2 ^ k) % 2 = 1 := by
    rw [Nat.testBit_eq_decide_div_mod_eq] at hk
    exact of_decide_eq_true hk
  obtain ⟨m, hm⟩ : ∃ m, n / 2 ^ k = 2 * m + 1 := ⟨n / 2 ^ k / 2, by omega⟩
  have hn : n = 2 ^ k * (2 * m + 1) + 0 := by
    rw [← hm, ← hzero]
    exact (Nat.div_add_mod n (2 ^ k)).symm
  have hpow : 0 < 2 ^ k := Nat.two_pow_pos k
  have hpred : n - 1 = 2 ^ k * (2 * m) + (2 ^ k - 1) := by
    rw [hn, Nat.mul_add, Nat.mul_one]
    omega
  have hbit : n.testBit i = if i < k then false else (2 * m + 1).testBit (i - k) := by
    rw [hn, Nat.testBit_two_pow_mul_add _ hpow, Nat.zero_testBit]
  rw [Nat.testBit_and, hpred, hbit, Nat.testBit_two_pow_mul_add _ (Nat.sub_lt hpow Nat.one_pos)]
  by_cases hi : i < k
  · simp only [hi, if_true, Bool.false_and]
  · simp only [hi, if_false]
    by_cases heq : i = k
    · subst heq
      simp
    · -- above the lowest bit the two numbers agree
      obtain ⟨d, hd⟩ : ∃ d, i - k = d + 1 := ⟨i - k - 1, by omega⟩
      rw [hd, Nat.testBit_succ, Nat.testBit_succ, show (2 * m + 1) / 2 = m by omega, show 2 * m / 2 = m by omega,
        Bool.and_self, decide_eq_true heq, Bool.and_true]

lemma getLsbD_clear {x : BitVec w} (hx : x ≠ 0#w) (i : Nat) :
    (x &&& (x - 1#w)).getLsbD i = (x.getLsbD i && decide (i ≠ x.ctz.toNat)) := by
  have hbits : ∀ i, x.getLsbD i = x.toNat.testBit i := fun i => (BitVec.testBit_toNat x).symm
  rw [← BitVec.testBit_toNat, BitVec.toNat_and, toNat_sub_one hx, hbits]
  refine testBit_and_sub_one ?_ (fun j hj => ?_) i
  · rw [← hbits]
    exact BitVec.getLsbD_true_ctz_of_ne_zero hx
  · rw [← hbits]
    exact BitVec.getLsbD_false_of_lt_ctz hj

/-- the least number first -/
lemma filter_least {p : Nat → Bool} {k n : Nat} (hk : k < n) (hp : p k = true) (hlow : ∀ i < k, p i = false) :
    (List.range n).filter p = k :: (List.range n).filter fun i => p i && decide (i ≠ k) := by
  obtain ⟨m, rfl⟩ : ∃ m, n = k + (1 + m) := ⟨n - k - 1, by omega⟩
  have hrange : List.range (k + (1 + m)) = List.range k ++ k :: (List.range m).map fun i => k + (1 + i) := by
    rw [List.range_add, List.range_add, List.map_append, List.map_map]
    rfl
  have hfirst : ∀ q : Nat → Bool, (∀ i < k, q i = false) → (List.range k).filter q = [] := by
    intro q hq
    rw [List.filter_eq_nil_iff]
    intro i hi
    rw [hq i (List.mem_range.mp hi)]
    exact Bool.false_ne_true
  rw [hrange, List.filter_append, List.filter_append, hfirst p hlow,
    hfirst _ fun i hi => by rw [hlow i hi, Bool.false_and], List.nil_append, List.nil_append,
    List.filter_cons_of_pos hp, List.filter_cons_of_neg (by simp)]
  refine congrArg (k :: ·) (List.filter_congr fun i hi => ?_)
  obtain ⟨j, -, rfl⟩ := List.mem_map.mp hi
  rw [decide_eq_true (by omega), Bool.and_true]

/-- **The bits come in order, each once.** -/
theorem ones_eq (x : BitVec w) : ones x = (List.range w).filter fun i => x.getLsbD i := by
  induction x using ones.induct with
  | case1 =>
    rw [ones, if_pos rfl, eq_comm, List.filter_eq_nil_iff]
    intro i _
    rw [BitVec.getLsbD_zero]
    exact Bool.false_ne_true
  | case2 x hx ih =>
    rw [ones, if_neg hx, ih]
    have hlt : x.ctz.toNat < w := by
      have h := BitVec.lt_def.mp (BitVec.ctz_lt_iff_ne_zero.mpr hx)
      rw [BitVec.natCast_eq_ofNat, BitVec.toNat_ofNat] at h
      exact Nat.lt_of_lt_of_le h (Nat.mod_le _ _)
    rw [filter_least hlt (BitVec.getLsbD_true_ctz_of_ne_zero hx) fun i hi => BitVec.getLsbD_false_of_lt_ctz hi]
    exact congrArg _ (List.filter_congr fun i _ => getLsbD_clear hx i)

/-! ## words -/

/-- the number is in the set -/
def mem (words : List (BitVec w)) (i : Nat) : Bool := (words[i / w]?.getD 0#w).getLsbD (i % w)

/-- the numbers of the set, word by word -/
def members (words : List (BitVec w)) : List Nat := words.zipIdx.flatMap fun x => (ones x.1).map (x.2 * w + ·)

def insert (words : List (BitVec w)) (i : Nat) : List (BitVec w) := words.modify (i / w) (· ||| 1#w <<< (i % w))

/-- the words of the second set are added; it has no more of them than the first -/
def union : List (BitVec w) → List (BitVec w) → List (BitVec w)
  | x :: xs, y :: ys => (x ||| y) :: union xs ys
  | xs, [] => xs
  | [], _ => []

variable {words xs ys : List (BitVec w)} {i j : Nat}

@[simp] lemma length_insert : (insert words i).length = words.length := List.length_modify _ _ _

@[simp] lemma length_union : (union xs ys).length = xs.length := by
  induction xs generalizing ys with
  | nil => cases ys <;> rfl
  | cons x xs ih =>
    cases ys with
    | nil => rfl
    | cons y ys => rw [union, List.length_cons, List.length_cons, ih]

@[simp] lemma mem_replicate (n : Nat) : mem (List.replicate n 0#w) i = false := by
  unfold mem
  rw [List.getElem?_replicate]
  split_ifs <;> exact BitVec.getLsbD_zero

/-- **The numbers come in order, each once.** -/
theorem members_eq (hw : 0 < w) (words : List (BitVec w)) :
    members words = (List.range (words.length * w)).filter fun i => mem words i := by
  induction words using List.reverseRecOn with
  | nil => simp [members]
  | append_singleton words x ih =>
    have hlast : ∀ i < w, mem (words ++ [x]) (words.length * w + i) = x.getLsbD i := by
      intro i hi
      unfold mem
      rw [Nat.mul_comm, Nat.mul_add_div hw, Nat.mul_add_mod, Nat.div_eq_of_lt hi, Nat.mod_eq_of_lt hi, Nat.add_zero,
        List.getElem?_concat_length]
      rfl
    have hfirst : ∀ i < words.length * w, mem (words ++ [x]) i = mem words i := by
      intro i hi
      unfold mem
      rw [List.getElem?_append_left ((Nat.div_lt_iff_lt_mul hw).mpr hi)]
    unfold members at ih ⊢
    rw [List.zipIdx_append, List.flatMap_append, ih, List.length_append, List.length_singleton, Nat.add_mul, Nat.one_mul,
      List.range_add, List.filter_append, List.filter_map]
    congr 1
    · exact List.filter_congr fun i hi => (hfirst i (List.mem_range.mp hi)).symm
    · have hone : ([x].zipIdx (0 + words.length)).flatMap (fun y => (ones y.1).map (y.2 * w + ·)) =
          (ones x).map (words.length * w + ·) := by
        rw [List.zipIdx_singleton, List.flatMap_singleton, Nat.zero_add]
      rw [hone, ones_eq]
      exact congrArg _ (List.filter_congr fun i hi => (hlast i (List.mem_range.mp hi)).symm)

theorem mem_insert (hi : i < words.length * w) : mem (insert words i) j = (mem words j || decide (j = i)) := by
  have hw : 0 < w := Nat.pos_of_ne_zero fun h => by
    subst h
    exact Nat.not_lt_zero i hi
  have hlt := (Nat.div_lt_iff_lt_mul hw).mpr hi
  have hsplit : j = i ↔ i / w = j / w ∧ i % w = j % w := by
    refine ⟨fun h => h ▸ ⟨rfl, rfl⟩, fun h => ?_⟩
    rw [← Nat.div_add_mod j w, ← h.1, ← h.2, Nat.div_add_mod]
  unfold mem insert
  rw [List.getElem?_modify]
  by_cases hword : i / w = j / w
  · simp only [hword, if_true]
    rw [← hword, List.getElem?_eq_getElem hlt]
    show (words[i / w] ||| 1#w <<< (i % w)).getLsbD (j % w) = (words[i / w].getLsbD (j % w) || _)
    have hone : (1#w <<< (i % w)).getLsbD (j % w) = decide (j = i) := by
      have hji : j = i ↔ i % w = j % w := hsplit.trans ⟨fun h => h.2, fun h => ⟨hword, h⟩⟩
      rw [BitVec.getLsbD_shiftLeft, BitVec.getLsbD_one, decide_eq_true (Nat.mod_lt j hw), decide_eq_true hw]
      by_cases hmod : i % w = j % w
      · rw [decide_eq_true (hji.mpr hmod), hmod]
        simp
      · rw [decide_eq_false (mt hji.mp hmod)]
        by_cases hbelow : j % w < i % w
        · simp [hbelow]
        · rw [decide_eq_false (show ¬ j % w - i % w = 0 by omega), Bool.and_false, Bool.and_false]
    rw [BitVec.getLsbD_or, hone]
  · simp only [hword, if_false]
    rw [decide_eq_false fun h => hword (hsplit.mp h).1, Bool.or_false]
    cases words[j / w]? <;> rfl

theorem mem_union (h : ys.length ≤ xs.length) : mem (union xs ys) j = (mem xs j || mem ys j) := by
  have hword : ∀ n : Nat, (union xs ys)[n]?.getD 0#w = xs[n]?.getD 0#w ||| ys[n]?.getD 0#w := by
    induction xs generalizing ys with
    | nil =>
      obtain rfl := List.length_eq_zero_iff.mp (Nat.le_zero.mp h)
      intro n
      simp [union]
    | cons x xs ih =>
      intro n
      cases ys with
      | nil => simp [union]
      | cons y ys =>
        rw [union]
        cases n with
        | zero => rfl
        | succ n => exact ih (Nat.le_of_succ_le_succ h) n
  unfold mem
  rw [hword, BitVec.getLsbD_or]

end BitSets
