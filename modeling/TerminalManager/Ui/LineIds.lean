import Mathlib.Data.List.Nodup
import TerminalManager.Ui.Invariant

/-!
# The identities of the rows

The renderer keeps one cached line for each line identity, so no two rows may share one.  A shift
copies identities and leaves duplicates behind; whoever shifts has to give the rows that it vacates
fresh ones, or cut them off.

* `DistinctBut a b ids`   the identities of the rows outside of `[a, b)` differ from each other;
* `Keyed`                 they do, and all were handed out by the counter, which has room for more;
* `Keyed.shiftRows`, `Keyed.resetLineIdentity`, `Keyed.resize`   what the grid operations do to it;
* `keyed_kept`            scrolling and line edits reset every row they vacate;
* `lineIds_distinct`      **main result**: along every run in which no resize shifts the rows down and
  no counter wraps, the rows of the visible grid have different identities.

A resize that grows the screen shifts its rows down and resets none of the rows above them.
-/

set_option linter.unusedSectionVars false

namespace TerminalManager.Ui
open Loops Slice Term Transition

/-- the entries outside of `[a, b)` differ from each other -/
def DistinctBut (a b : Nat) (ids : List UInt64) : Prop :=
  ∀ i j, (i < a ∨ b ≤ i) → (j < a ∨ b ≤ j) → i < ids.length → ids[i]? = ids[j]? → i = j

lemma DistinctBut.nodup {a : Nat} {ids : List UInt64} (h : DistinctBut a a ids) : ids.Nodup := by
  rw [List.nodup_iff_getElem?_ne_getElem?]
  intro i j hij hj heq
  exact Nat.ne_of_lt hij (h i j (by omega) (by omega) (by omega) heq)

namespace CellGrid

variable {g : CellGrid} {a b room : Nat}

/-- the rows outside of `[a, b)` have different identities, the counter is beyond all of them and
can hand out `room` more -/
structure Keyed (a b room : Nat) (g : CellGrid) : Prop where
  length : g.lineIds.length = g.rows
  distinct : DistinctBut a b g.lineIds
  below : ∀ id ∈ g.lineIds, id.toNat < g.nextLineId.toNat
  room : g.nextLineId.toNat + room < UInt64.size

lemma Keyed.spend {n : Nat} (h : g.Keyed a b room) (hn : n ≤ room) : g.Keyed a b n :=
  ⟨h.length, h.distinct, h.below, by have := h.room; omega⟩

lemma Keyed.painted {g' : CellGrid} (h : g.Keyed a b room) (hp : g.Painted g') : g'.Keyed a b room := by
  refine ⟨?_, ?_, ?_, ?_⟩
  · rw [hp.lineIds, hp.rows]
    exact h.length
  · rw [hp.lineIds]
    exact h.distinct
  · rw [hp.lineIds, hp.nextLineId]
    exact h.below
  · rw [hp.nextLineId]
    exact h.room

/-- after a shift row `i` shows what row `f i` showed; rows that are copied and not overwritten, the
vacated ones, have a copy of their identity elsewhere -/
lemma Keyed.shiftRows (h : g.Keyed a a room) {a' b' : Nat} (dst src n : Nat) (hd : dst + n ≤ g.rows) (hs : src + n ≤ g.rows)
    (hvacated : ∀ i, src ≤ i → i < src + n → ¬(dst ≤ i ∧ i < dst + n) → a' ≤ i ∧ i < b') :
    (g.shiftRows dst src n).Keyed a' b' room := by
  have hlen := h.length
  have hsame : g.Keyed a' b' room :=
    ⟨h.length, fun i j _ _ hi hij => h.distinct i j (by omega) (by omega) hi hij, h.below, h.room⟩
  unfold CellGrid.shiftRows
  split
  · exact hsame
  dsimp only
  rw [show min n (g.rows - max dst src) = n by omega]
  split
  · exact hsame
  obtain ⟨ids, hids⟩ : ∃ ids, ids = copyWithin g.lineIds src (src + n) dst := ⟨_, rfl⟩
  obtain ⟨f, hf⟩ : ∃ f : Nat → Nat, f = fun i => if dst ≤ i ∧ i < dst + n then src + (i - dst) else i := ⟨_, rfl⟩
  have hcopy : ids.length = g.rows := by
    rw [hids, length_copyWithin (by omega) (by omega)]
    exact hlen
  have hget : ∀ i, i < g.rows → ids[i]? = g.lineIds[f i]? ∧ f i < g.rows := by
    intro i hi
    rw [hids, getElem?_copyWithin (by omega) (by omega) (by omega), Nat.add_sub_cancel_left, hf]
    dsimp only
    split <;> exact ⟨rfl, by omega⟩
  rw [← hids]
  refine ⟨hcopy, ?_, ?_, h.room⟩
  · show DistinctBut a' b' ids
    intro i j hi hj hilt hij
    have hjlt : j < ids.length := by
      rw [List.getElem?_eq_getElem hilt] at hij
      exact (List.getElem?_eq_some_iff.mp hij.symm).1
    obtain ⟨hi', hfi⟩ := hget i (by omega)
    obtain ⟨hj', hfj⟩ := hget j (by omega)
    have heq : f i = f j := h.distinct _ _ (by omega) (by omega) (by omega) (by rw [← hi', ← hj', hij])
    have hvi := hvacated i
    have hvj := hvacated j
    rw [hf] at heq
    dsimp only at heq
    split at heq <;> split at heq <;> omega
  · show ∀ id ∈ ids, id.toNat < g.nextLineId.toNat
    intro id hid
    obtain ⟨i, hi, rfl⟩ := List.mem_iff_getElem.mp hid
    obtain ⟨hi', hfi⟩ := hget i (by omega)
    apply h.below
    rw [List.getElem?_eq_getElem hi] at hi'
    exact List.mem_of_getElem? hi'.symm

/-- the first row without an identity of its own gets one -/
lemma Keyed.resetLineIdentity (h : g.Keyed a b (room + 1)) : (g.resetLineIdentity a).Keyed (a + 1) b room := by
  have hroom := h.room
  unfold CellGrid.resetLineIdentity
  split
  next hrow =>
    refine ⟨h.length, ?_, h.below, by omega⟩
    intro i j hi hj hlt hij
    have hlen := h.length
    have hjlt : j < g.lineIds.length := by
      rw [List.getElem?_eq_getElem hlt] at hij
      exact (List.getElem?_eq_some_iff.mp hij.symm).1
    exact h.distinct i j (by omega) (by omega) hlt hij
  next hrow =>
    have hnext : (g.nextLineId + 1).toNat = g.nextLineId.toNat + 1 := by
      rw [UInt64.toNat_add]
      exact Nat.mod_eq_of_lt (by show _ + 1 < UInt64.size; omega)
    have hfresh : ∀ id ∈ g.lineIds, id ≠ g.nextLineId := by
      intro id hid heq
      have := h.below id hid
      rw [heq] at this
      exact Nat.lt_irrefl _ this
    refine ⟨by rw [List.length_set]; exact h.length, ?_, ?_, ?_⟩
    · intro i j hi hj hlt hij
      rw [List.length_set] at hlt
      have hlen := h.length
      rw [List.getElem?_set, List.getElem?_set] at hij
      by_cases hia : a = i <;> by_cases hja : a = j
      · omega
      · rw [if_pos hia, if_pos (by omega), if_neg hja] at hij
        exact absurd rfl (hfresh _ (List.mem_of_getElem? hij.symm))
      · rw [if_neg hia, if_pos hja, if_pos (by omega)] at hij
        exact absurd rfl (hfresh _ (List.mem_of_getElem? hij))
      · rw [if_neg hia, if_neg hja] at hij
        exact h.distinct i j (by omega) (by omega) hlt hij
    · intro id hid
      show id.toNat < (g.nextLineId + 1).toNat
      rw [hnext]
      rcases List.mem_or_eq_of_mem_set hid with hold | rfl
      · exact Nat.lt_succ_of_lt (h.below id hold)
      · exact Nat.lt_succ_self _
    · show (g.nextLineId + 1).toNat + room < _
      rw [hnext]
      omega

/-- nothing left in `[a, b)` is nothing left in any empty range -/
lemma Keyed.all (h : g.Keyed a b room) (hle : b ≤ a) : g.Keyed 0 0 room :=
  ⟨h.length, fun i j _ _ hi hij => h.distinct i j (by omega) (by omega) hi hij, h.below, h.room⟩

/-- identities of the counter as long as it does not wrap -/
private lemma getElem?_freshIds {next : UInt64} {n i : Nat} (hi : i < n) (hn : next.toNat + n < UInt64.size) :
    ∃ id, (freshIds next n)[i]? = some id ∧ id.toNat = next.toNat + i := by
  refine ⟨next + UInt64.ofNat i, ?_, ?_⟩
  · rw [freshIds, List.getElem?_map, List.getElem?_range hi]
    rfl
  · have hsmall : (UInt64.ofNat i).toNat = i := UInt64.toNat_ofNat_of_lt (by show i < UInt64.size; omega)
    rw [UInt64.toNat_add, hsmall]
    exact Nat.mod_eq_of_lt (by show _ + i < UInt64.size; omega)

/-- old identities, kept apart, followed by fresh ones -/
private lemma Keyed.extend {ids : List UInt64} {next : UInt64} {n rows : Nat} (hrows : ids.length + n = rows)
    (hdistinct : DistinctBut 0 0 ids) (hbelow : ∀ id ∈ ids, id.toNat < next.toNat)
    (hroom : next.toNat + (n + room) < UInt64.size) (hg : g.rows = rows)
    (hids : g.lineIds = ids ++ freshIds next n) (hnext : g.nextLineId = next + UInt64.ofNat n) :
    g.Keyed 0 0 room := by
  have hcounter : g.nextLineId.toNat = next.toNat + n := by
    have hsmall : (UInt64.ofNat n).toNat = n := UInt64.toNat_ofNat_of_lt (by show n < UInt64.size; omega)
    rw [hnext, UInt64.toNat_add, hsmall]
    exact Nat.mod_eq_of_lt (by show _ + n < UInt64.size; omega)
  have hlen : g.lineIds.length = ids.length + n := by
    rw [hids, List.length_append, length_freshIds]
  -- old entries are below the counter, new ones at their distance from it
  have hentry : ∀ i, i < ids.length + n → ∃ id, g.lineIds[i]? = some id ∧
      (i < ids.length ∧ ids[i]? = some id ∧ id.toNat < next.toNat ∨
        ids.length ≤ i ∧ id.toNat = next.toNat + (i - ids.length)) := by
    intro i hi
    rw [hids]
    by_cases hold : i < ids.length
    · refine ⟨ids[i], ?_, .inl ⟨hold, List.getElem?_eq_getElem hold, hbelow _ (List.getElem_mem hold)⟩⟩
      rw [List.getElem?_append_left hold, List.getElem?_eq_getElem hold]
    · obtain ⟨id, hid, hnat⟩ := getElem?_freshIds (n := n) (i := i - ids.length) (by omega)
        (show next.toNat + n < UInt64.size by omega)
      refine ⟨id, ?_, .inr ⟨by omega, hnat⟩⟩
      rw [List.getElem?_append_right (by omega), hid]
  refine ⟨by omega, ?_, ?_, by omega⟩
  · intro i j _ _ hi hij
    have hj : j < g.lineIds.length := by
      rw [List.getElem?_eq_getElem hi] at hij
      exact (List.getElem?_eq_some_iff.mp hij.symm).1
    obtain ⟨id, hid, hcase⟩ := hentry i (by omega)
    obtain ⟨id', hid', hcase'⟩ := hentry j (by omega)
    rw [hid, hid', Option.some_inj] at hij
    subst hij
    rcases hcase with ⟨hi, hget, hlt⟩ | ⟨hi, hnat⟩ <;> rcases hcase' with ⟨hj, hget', hlt'⟩ | ⟨hj, hnat'⟩
    · exact hdistinct i j (by omega) (by omega) hi (hget.trans hget'.symm)
    · omega
    · omega
    · omega
  · intro id hid
    obtain ⟨i, hi, rfl⟩ := List.mem_iff_getElem.mp hid
    obtain ⟨id, hid', hcase⟩ := hentry i (by omega)
    rw [List.getElem?_eq_getElem hi, Option.some_inj] at hid'
    rw [hid', hcounter]
    rcases hcase with ⟨-, -, hlt⟩ | ⟨hnew, hnat⟩ <;> omega

lemma keyed_new {rows : Nat} (cols : Nat) (h : 1 + rows + room < UInt64.size) : (new rows cols).Keyed 0 0 room := by
  have hrows : ([] : List UInt64).length + rows = rows := Nat.zero_add rows
  have hfit : (1 : UInt64).toNat + (rows + room) < UInt64.size := by
    show 1 + (rows + room) < _
    omega
  refine Keyed.extend hrows ?_ ?_ hfit rfl rfl rfl
  · intro i j _ _ hi
    exact absurd hi (Nat.not_lt_zero i)
  · intro id hid
    exact absurd hid List.not_mem_nil

/-- a resize keeps the identities of the rows that stay; rows without their own must not -/
lemma Keyed.resize {rows : Nat} (h : g.Keyed a b (room + (rows - g.rows))) (cols : Nat) (hcut : rows ≤ a ∨ b ≤ a) :
    (g.resize rows cols).Keyed 0 0 room := by
  have hlen := h.length
  have hroom := h.room
  unfold CellGrid.resize
  split
  next hsame =>
    exact ⟨h.length, fun i j _ _ hi hij => by
      have hj : j < g.lineIds.length := by
        rw [List.getElem?_eq_getElem hi] at hij
        exact (List.getElem?_eq_some_iff.mp hij.symm).1
      exact h.distinct i j (by omega) (by omega) hi hij, h.below, by omega⟩
  next =>
    dsimp only
    have htake : (g.lineIds.take (min g.rows rows)).length = min g.rows rows := by
      rw [List.length_take]
      omega
    have hrows : (g.lineIds.take (min g.rows rows)).length + (rows - min g.rows rows) = rows := by omega
    have hfit : g.nextLineId.toNat + (rows - min g.rows rows + room) < UInt64.size := by omega
    refine Keyed.extend hrows ?_ ?_ hfit rfl rfl rfl
    · intro i j _ _ hi hij
      have hj : j < (g.lineIds.take (min g.rows rows)).length := by
        rw [List.getElem?_eq_getElem hi] at hij
        exact (List.getElem?_eq_some_iff.mp hij.symm).1
      rw [List.getElem?_take_of_lt (by omega), List.getElem?_take_of_lt (by omega)] at hij
      exact h.distinct i j (by omega) (by omega) (by omega) hij
    · intro id hid
      exact h.below id (List.mem_of_mem_take hid)

end CellGrid
namespace Terminal

variable {F : Type} [F32 F] {t u : Terminal F} {n a b : Nat}

/-- both grids have rows of different identities, and they, or a new grid, can hand out `n` more -/
structure Keys (n : Nat) (t : Terminal F) : Prop where
  sound : t.Sound
  grid : t.grid.Keyed 0 0 n
  alt : ∀ g ∈ t.altGrid, g.Keyed 0 0 n
  fresh : 1 + t.rows + n < UInt64.size

lemma Keys.spend {m : Nat} (h : t.Keys n) (hm : m ≤ n) : t.Keys m :=
  ⟨h.sound, h.grid.spend hm, fun g hg => (h.alt g hg).spend hm, by have := h.fresh; omega⟩

/-! ## callbacks -/

lemma clearRow_keyed (h : t.grid.Keyed a b (n + 1)) : (t.clearRow a).grid.Keyed (a + 1) b n :=
  (h.painted (CellGrid.painted_fillRow _ _ _ _ _)).resetLineIdentity

lemma clearRows_keyed (hab : a ≤ b) (h : t.grid.Keyed a b (n + (b - a))) :
    (iter a b (fun t r => t.clearRow r) t).grid.Keyed 0 0 n := by
  have := iter_rule (a := a) (b := b) (g := fun t r => clearRow t r) (s := t)
    (P := fun r t => t.grid.Keyed r b (n + (b - r))) h (by
      intro r t _ hr ht
      apply clearRow_keyed
      rwa [show n + (b - (r + 1)) + 1 = n + (b - r) by omega])
  rw [Nat.max_eq_right hab, Nat.sub_self] at this
  exact this.all (Nat.le_refl b)

/-- no rows need no shift -/
lemma shiftRows_if_keyed (h : t.grid.Keyed 0 0 n) (dst src m : Nat) (hd : dst + m ≤ t.grid.rows)
    (hs : src + m ≤ t.grid.rows)
    (hvacated : ∀ i, src ≤ i → i < src + m → ¬(dst ≤ i ∧ i < dst + m) → a ≤ i ∧ i < b) :
    (if m > 0 then t.shiftRows dst src m else t).grid.Keyed a b n := by
  split
  · exact h.shiftRows dst src m hd hs hvacated
  · exact ⟨h.length, fun i j _ _ hi hij => h.distinct i j (by omega) (by omega) hi hij, h.below, h.room⟩

lemma captureTop_grid : t.captureTop.grid = t.grid ∧ t.captureTop.scrollBot = t.scrollBot := by
  obtain ⟨scrollOffset, scrollAnim, heq⟩ := captureTop_eq (t := t)
  rw [heq]
  exact ⟨rfl, rfl⟩

lemma scrollUp_keyed (h : t.Keys (n + 1)) : t.scrollUp.grid.Keyed 0 0 n := by
  have hrows := h.sound.grid.rows
  have hbot := h.sound.onScreen.scrollBot_le
  unfold scrollUp
  split
  · exact h.grid.spend (Nat.le_succ n)
  dsimp only
  obtain ⟨u, hu⟩ : ∃ u, u = if t.scrollTop = 0 ∧ t.altGrid.isNone then t.captureTop else t := ⟨_, rfl⟩
  have hgrid : u.grid = t.grid := by
    rw [hu]
    split
    · exact captureTop_grid.1
    · rfl
  rw [← hu]
  have hshift := shiftRows_if_keyed (t := u) (n := n + 1) (a := t.scrollBot - 1) (b := t.scrollBot)
    (hgrid ▸ h.grid) t.scrollTop (t.scrollTop + 1) (t.scrollBot - t.scrollTop - 1) (by rw [hgrid]; omega) (by rw [hgrid]; omega) (by omega)
  exact (clearRow_keyed hshift).all (by omega)

lemma scrollDown_keyed (h : t.Keys (n + 1)) : t.scrollDown.grid.Keyed 0 0 n := by
  have hrows := h.sound.grid.rows
  have hbot := h.sound.onScreen.scrollBot_le
  unfold scrollDown
  split
  · exact h.grid.spend (Nat.le_succ n)
  dsimp only
  have hshift := shiftRows_if_keyed (a := t.scrollTop) (b := t.scrollTop + 1) h.grid (t.scrollTop + 1)
    t.scrollTop (t.scrollBot - t.scrollTop - 1) (by omega) (by omega) (by omega)
  exact (clearRow_keyed hshift).all (Nat.le_refl _)

lemma insertLines_keyed {k : Nat} (h : t.Keys (n + k)) : (t.insertLines k).grid.Keyed 0 0 n := by
  have hrows := h.sound.grid.rows
  have hbot := h.sound.onScreen.scrollBot_le
  have hrest := h.grid.spend (Nat.le_add_right n k)
  unfold insertLines
  dsimp only
  split
  · exact hrest
  obtain ⟨m, hm⟩ : ∃ m, m = min k (t.scrollBot - t.cursorRow) := ⟨_, rfl⟩
  rw [← hm]
  split
  · apply clearRows_keyed (by omega)
    apply shiftRows_if_keyed (h.grid.spend (by omega)) _ _ _ (by omega) (by omega)
    omega
  · exact hrest

lemma deleteLines_keyed {k : Nat} (h : t.Keys (n + k)) : (t.deleteLines k).grid.Keyed 0 0 n := by
  have hrows := h.sound.grid.rows
  have hbot := h.sound.onScreen.scrollBot_le
  have hrest := h.grid.spend (Nat.le_add_right n k)
  unfold deleteLines
  dsimp only
  split
  · exact hrest
  obtain ⟨m, hm⟩ : ∃ m, m = min k (t.scrollBot - t.cursorRow) := ⟨_, rfl⟩
  rw [← hm]
  split
  · apply clearRows_keyed (by omega)
    apply shiftRows_if_keyed (h.grid.spend (by omega)) _ _ _ (by omega) (by omega)
    omega
  · exact hrest

/-- scrolling and line edits leave the parked grid and the size alone -/
lemma scroll_frame (t : Terminal F) (k : Nat) :
    (t.scrollUp.altGrid = t.altGrid ∧ t.scrollUp.rows = t.rows) ∧
    (t.scrollDown.altGrid = t.altGrid ∧ t.scrollDown.rows = t.rows) ∧
    ((t.insertLines k).altGrid = t.altGrid ∧ (t.insertLines k).rows = t.rows) ∧
    ((t.deleteLines k).altGrid = t.altGrid ∧ (t.deleteLines k).rows = t.rows) := by
  have hclear : ∀ (u : Terminal F) a b, u.altGrid = t.altGrid ∧ u.rows = t.rows →
      (iter a b (fun t r => t.clearRow r) u).altGrid = t.altGrid ∧
      (iter a b (fun t r => t.clearRow r) u).rows = t.rows := by
    intro u a b hu
    apply iter_rule (P := fun _ (v : Terminal F) => v.altGrid = t.altGrid ∧ v.rows = t.rows) hu
    intro r v _ _ hv
    exact hv
  have hcapture : t.captureTop.altGrid = t.altGrid ∧ t.captureTop.rows = t.rows := by
    obtain ⟨scrollOffset, scrollAnim, heq⟩ := captureTop_eq (t := t)
    rw [heq]
    exact ⟨rfl, rfl⟩
  refine ⟨?_, ?_, ?_, ?_⟩
  · unfold scrollUp
    dsimp only
    split_ifs
    all_goals first | exact hcapture | exact ⟨rfl, rfl⟩
  · unfold scrollDown
    dsimp only
    split_ifs <;> exact ⟨rfl, rfl⟩
  · unfold insertLines
    dsimp only
    split_ifs
    all_goals first | exact ⟨rfl, rfl⟩ | exact hclear _ _ _ ⟨rfl, rfl⟩
  · unfold deleteLines
    dsimp only
    split_ifs
    all_goals first | exact ⟨rfl, rfl⟩ | exact hclear _ _ _ ⟨rfl, rfl⟩

lemma Keys.update {m : Nat} (h : t.Keys m) (hle : n ≤ m) (hs : u.Sound) (hg : u.grid.Keyed 0 0 n)
    (hframe : u.altGrid = t.altGrid ∧ u.rows = t.rows) : u.Keys n :=
  ⟨hs, hg, fun g hg => (h.alt g (hframe.1 ▸ hg)).spend hle, by have := h.fresh; rw [hframe.2]; omega⟩

theorem keyed_kept : Kept (Keys (F := F)) where
  spend h hm := h.spend hm
  onScreen h := h.sound.onScreen
  beside h hu := h.update (Nat.le_refl _) (sound_kept.beside (n := 0) h.sound hu) (hu.grid ▸ h.grid) ⟨hu.altGrid, hu.rows⟩
  paint h grid hp := h.update (Nat.le_refl _) (sound_kept.paint (n := 0) h.sound grid hp) (h.grid.painted hp) ⟨rfl, rfl⟩
  scrollUp {n t} h := h.update (Nat.le_succ n) h.sound.scrollUp (scrollUp_keyed h) (scroll_frame t 0).1
  scrollDown {n t} h := h.update (Nat.le_succ n) h.sound.scrollDown (scrollDown_keyed h) (scroll_frame t 0).2.1
  insertLines {n t k} h := h.update (Nat.le_add_right n k) (sound_kept.insertLines (n := 0) h.sound)
    (insertLines_keyed h) (scroll_frame t k).2.2.1
  deleteLines {n t k} h := h.update (Nat.le_add_right n k) (sound_kept.deleteLines (n := 0) h.sound)
    (deleteLines_keyed h) (scroll_frame t k).2.2.2
  enterAltScreen {n t} h := by
    refine ⟨h.sound.enterAltScreen, ?_, ?_, ?_⟩ <;> unfold enterAltScreen <;> split
    · exact h.grid
    · exact (CellGrid.keyed_new t.cols h.fresh).painted (CellGrid.painted_setCursor _ _ _)
    · exact h.alt
    · intro g hg
      cases hg
      exact h.grid
    · exact h.fresh
    · exact h.fresh
  exitAltScreen {n t} h := by
    refine ⟨h.sound.exitAltScreen, ?_, ?_, ?_⟩ <;> unfold exitAltScreen <;> split
    · exact h.grid
    next main halt => exact (h.alt main halt).painted (CellGrid.painted_setCursor _ _ _)
    · exact h.alt
    · intro g hg
      cases hg
    · exact h.fresh
    · exact h.fresh
  forget h := h.update (Nat.le_refl _) (sound_kept.forget (n := 0) h.sound) h.grid ⟨rfl, rfl⟩

/-! ## size and content replaced -/

/-- what is lifted is painted over the rows that are new after the shift -/
lemma growRows_painted (k : Nat) : ((t.grid.resize (t.rows + k) t.cols).shiftRows k 0 t.rows).Painted
    (t.growRowsLiftingScrollback k).grid :=
  (CellGrid.painted_fillRows _ _ _ _ _ _).trans
    (CellGrid.painted_iter (fun g _ => CellGrid.painted_writeLine g _ _ _) _)

/-- the rows of the main grid move up and are cut off, or come in at the bottom -/
lemma reflow_keyed (hf : t.Fits) (rows : Nat) (h : t.grid.Keyed 0 0 (n + (rows - t.rows)))
    (hkeep : rows ≤ t.rows ∨ t.rows = 0 ∨ t.cols = 0) : ∃ a b,
    (t.reflow rows).grid.Keyed a b (n + (rows - (t.reflow rows).grid.rows)) ∧ (rows ≤ a ∨ b ≤ a) := by
  have hrows := hf.rows
  have hcols := hf.cols
  unfold reflow
  dsimp only
  split
  next hgrow =>
    rw [setMainRow_grid]
    have hsize : t.rows + (rows - t.rows) = rows := by omega
    -- nothing is there to be shifted
    have hidle : (t.grid.resize (t.rows + (rows - t.rows)) t.cols).shiftRows (rows - t.rows) 0 t.rows
        = t.grid.resize (t.rows + (rows - t.rows)) t.cols := by
      unfold CellGrid.shiftRows
      rw [if_pos]
      rw [CellGrid.cols_resize]
      omega
    have hbudget : t.grid.Keyed 0 0 (n + (t.rows + (rows - t.rows) - t.grid.rows)) := by
      rw [hrows, hsize]
      exact h
    have hlifted := growRows_painted (t := t) (rows - t.rows)
    rw [hidle] at hlifted
    have hnew := hlifted.rows.trans CellGrid.rows_resize
    have hkeyed := (hbudget.resize t.cols (.inr (Nat.le_refl 0))).painted hlifted
    exact ⟨0, 0, hkeyed.spend (by omega), .inr (Nat.le_refl 0)⟩
  next hle =>
    have hsame : ∃ a b, t.grid.Keyed a b (n + (rows - t.grid.rows)) ∧ (rows ≤ a ∨ b ≤ a) :=
      ⟨0, 0, hrows.symm ▸ h, .inr (Nat.le_refl 0)⟩
    split
    · split
      · rw [setMainRow_grid]
        obtain ⟨m, hm⟩ : ∃ m, m = min (t.rows - rows) t.mainRow := ⟨_, rfl⟩
        rw [← hm]
        -- the rows that are left behind at the bottom are beyond the new size
        have hshift : (t.grid.shiftRows 0 m (t.rows - m)).Keyed (t.rows - m) t.rows (n + (rows - t.rows)) := by
          apply h.shiftRows 0 m (t.rows - m) (by omega) (by omega)
          omega
        refine ⟨t.rows - m, t.rows, ?_, .inl (by omega)⟩
        show (t.grid.shiftRows 0 m (t.rows - m)).Keyed _ _ (n + (rows - (t.grid.shiftRows 0 m (t.rows - m)).rows))
        rw [CellGrid.rows_shiftRows, hrows]
        exact hshift
      · exact hsame
    · exact hsame

/-- the grids of `resizeGrids`, cut or extended -/
lemma resizeGrids_keyed {rows : Nat} (hg : t.grid.Keyed a b (n + (rows - t.grid.rows))) (hcut : rows ≤ a ∨ b ≤ a)
    (ha : ∀ g ∈ t.altGrid, g.Keyed 0 0 (n + (rows - g.rows))) (cols : Nat) :
    (t.resizeGrids rows cols).grid.Keyed 0 0 n ∧ ∀ g ∈ (t.resizeGrids rows cols).altGrid, g.Keyed 0 0 n := by
  have hmain := hg.resize cols hcut
  unfold resizeGrids swapGrids
  dsimp only
  cases halt : t.altGrid with
  | none => exact ⟨hmain, by simp⟩
  | some alt =>
    refine ⟨(ha alt halt).resize cols (.inr (Nat.le_refl 0)), ?_⟩
    intro g hg
    cases hg
    exact hmain

lemma collapse_keys (h : t.Keys n) : t.collapseScrollAnimation.Keys n := by
  obtain ⟨_, _, _, _, _, _, heq⟩ := viewOf_collapse t
  have hs := h.sound.collapse
  rw [heq] at hs ⊢
  exact ⟨hs, h.grid, h.alt, h.fresh⟩

/-- a resize that does not shift rows down keeps the identities of the rows apart -/
lemma resize_keys {rows : Nat} (h : t.Keys (n + (rows - t.rows))) (cols : Nat)
    (hkeep : rows ≤ t.rows ∨ t.rows = 0 ∨ t.cols = 0) : (t.resize rows cols).Keys n := by
  obtain ⟨u, hu⟩ : ∃ u, u = if rows ≠ t.rows ∨ cols ≠ t.cols then t.collapseScrollAnimation else t := ⟨_, rfl⟩
  have hkeys : u.Keys (n + (rows - t.rows)) ∧ u.rows = t.rows ∧ u.cols = t.cols := by
    rw [hu]
    split
    · obtain ⟨_, _, _, _, _, _, heq⟩ := viewOf_collapse t
      refine ⟨collapse_keys h, ?_⟩
      rw [heq]
      exact ⟨rfl, rfl⟩
    · exact ⟨h, rfl, rfl⟩
  obtain ⟨hkeys, hrows, hcols⟩ := hkeys
  obtain ⟨hfits, -⟩ := swapGrids_fits hkeys.sound
  have hswap : u.swapGrids.grid.Keyed 0 0 (n + (rows - t.rows)) ∧
      ∀ g ∈ u.swapGrids.altGrid, g.Keyed 0 0 (n + (rows - t.rows)) ∧ g.rows = t.rows := by
    unfold swapGrids
    split
    next halt =>
      refine ⟨hkeys.grid, fun g hg => ?_⟩
      rw [halt] at hg
      cases hg
    next other halt =>
      refine ⟨hkeys.alt other halt, fun g hg => ?_⟩
      cases hg
      exact ⟨hkeys.grid, hkeys.sound.grid.rows.trans hrows⟩
  obtain ⟨a, b, hreflow, hcut⟩ := reflow_keyed (n := n) hfits rows (by rw [swapGrids_rows, hrows]; exact hswap.1)
    (by rw [swapGrids_rows, swapGrids_cols, hrows, hcols]; exact hkeep)
  obtain ⟨hgrid, halt⟩ := resizeGrids_keyed hreflow hcut (by
    intro g hg
    rw [reflow_altGrid] at hg
    obtain ⟨hg, hsize⟩ := hswap.2 g hg
    rw [hsize]
    exact hg) cols
  have hsound := h.sound.resize rows cols
  have hfresh := h.fresh
  unfold resize at hsound ⊢
  rw [← hu] at hsound ⊢
  dsimp only at hsound ⊢
  obtain ⟨top, bot, parked, heq, -⟩ :=
    settle_eq ((u.swapGrids.reflow rows).resizeGrids rows cols) rows cols u.regionIsFullScreen
  rw [heq] at hsound ⊢
  refine ⟨hsound, hgrid.painted (CellGrid.painted_setCursor _ _ _), halt, ?_⟩
  show 1 + ((u.swapGrids.reflow rows).resizeGrids rows cols).rows + n < UInt64.size
  rw [show ((u.swapGrids.reflow rows).resizeGrids rows cols).rows = rows from rfl]
  omega

/-- both grids cut or extended in place -/
lemma extend_keys (rows cols : Nat) (h : t.Keys (n + (rows - t.rows))) :
    (t.grid.resize rows cols).Keyed 0 0 n ∧
      ∀ g ∈ t.altGrid.map fun (alt : CellGrid) => alt.resize rows cols, g.Keyed 0 0 n := by
  refine ⟨?_, ?_⟩
  · apply CellGrid.Keyed.resize _ _ (.inr (Nat.le_refl 0))
    rw [h.sound.grid.rows]
    exact h.grid
  · intro g hg
    obtain ⟨alt, halt, rfl⟩ := Option.map_eq_some_iff.mp hg
    apply CellGrid.Keyed.resize _ _ (.inr (Nat.le_refl 0))
    rw [(h.sound.alt alt halt).rows]
    exact h.alt alt halt

lemma resizeViewportGrowth_keys {rows : Nat} (h : t.Keys (n + (rows - t.rows))) (cols : Nat) :
    (t.resizeViewportGrowth rows cols).Keys n := by
  have hsound := h.sound.resizeViewportGrowth rows cols
  unfold resizeViewportGrowth at hsound ⊢
  split at hsound
  next hle =>
    rw [if_pos hle]
    exact resize_keys h cols (.inl hle)
  next hlt =>
    rw [if_neg hlt]
    dsimp only at hsound ⊢
    have hrows : t.collapseScrollAnimation.rows = t.rows := by
      obtain ⟨_, _, _, _, _, _, heq⟩ := viewOf_collapse t
      rw [heq]
    obtain ⟨hgrid, halt⟩ := extend_keys (t := t.collapseScrollAnimation) (n := n) rows cols
      (hrows.symm ▸ collapse_keys h)
    have hfresh := h.fresh
    obtain ⟨top, bot, parked, heq, -⟩ := settle_eq { t.collapseScrollAnimation with
      grid := t.collapseScrollAnimation.grid.resize rows cols
      altGrid := t.collapseScrollAnimation.altGrid.map fun (alt : CellGrid) => alt.resize rows cols
      rows, cols } rows cols t.collapseScrollAnimation.regionIsFullScreen
    rw [heq] at hsound ⊢
    refine ⟨hsound, hgrid.painted (CellGrid.painted_setCursor _ _ _), halt, ?_⟩
    show 1 + rows + n < UInt64.size
    omega

lemma applySnapshot_keys (s : Snapshot) (h : t.Keys (n + (s.grid.rows - t.rows))) : (t.applySnapshot s).Keys n := by
  have hsound := h.sound.applySnapshot s
  have hrows := (fitSnapshot_spec h.sound s.grid.rows s.grid.cols).1
  have hfresh := h.fresh
  have hfit : (t.fitSnapshot s.grid.rows s.grid.cols).grid.Keyed 0 0 n ∧
      ∀ g ∈ (t.fitSnapshot s.grid.rows s.grid.cols).altGrid, g.Keyed 0 0 n := by
    unfold fitSnapshot
    split
    · dsimp only
      obtain ⟨top, bot, hclamp, -⟩ := clampScrollRegion_eq { t with
        rows := s.grid.rows, cols := s.grid.cols, grid := t.grid.resize s.grid.rows s.grid.cols
        altGrid := t.altGrid.map fun (alt : CellGrid) => alt.resize s.grid.rows s.grid.cols }
          s.grid.rows t.regionIsFullScreen
      rw [hclamp]
      exact extend_keys _ _ h
    · have hrest := h.spend (Nat.le_add_right n _)
      exact ⟨hrest.grid, hrest.alt⟩
  unfold applySnapshot at hsound ⊢
  dsimp only at hsound ⊢
  generalize t.fitSnapshot s.grid.rows s.grid.cols = u at *
  refine ⟨hsound, ?_, hfit.2, ?_⟩
  · exact ((hfit.1.painted (painted_paintSnapshot s.grid u.grid)).painted (CellGrid.painted_setCursor _ _ _)).painted
      (CellGrid.painted_setCursorVisible _ _)
  · show 1 + u.rows + n < UInt64.size
    omega

/-! ## runs -/

/-- the identities that an operation hands out at most -/
def opIdsTaken (t : Terminal F) : Op F → Nat
  | .call c => idsTaken c
  | .processBytes calls => (calls.map idsTaken).foldr (· + ·) 0
  | .resize rows _ | .resizeViewportGrowth rows _ => rows - t.rows
  | .applySnapshot s => s.grid.rows - t.rows
  | _ => 0

/-- no counter wraps: neither those of the grids nor that of a grid that is still to be made -/
def HasIds (t : Terminal F) (n : Nat) : Prop :=
  t.grid.nextLineId.toNat + n < UInt64.size ∧ (∀ g ∈ t.altGrid, g.nextLineId.toNat + n < UInt64.size) ∧
    1 + t.rows + n < UInt64.size

/-- a resize shifts rows down when there are some and it grows the screen -/
def ShiftsDown (t : Terminal F) : Op F → Prop
  | .resize rows _ => t.rows < rows ∧ 0 < t.rows ∧ 0 < t.cols
  | _ => False

/-- the condition for the identities to stay apart -/
def KeepsIds (t : Terminal F) (op : Op F) : Prop := ¬ t.ShiftsDown op ∧ t.HasIds (t.opIdsTaken op)

instance (op : Op F) : Decidable (t.ShiftsDown op) := by
  cases op <;> unfold ShiftsDown <;> infer_instance

instance : Decidable (t.HasIds n) := by unfold HasIds; infer_instance

instance (op : Op F) : Decidable (t.KeepsIds op) := inferInstanceAs (Decidable (_ ∧ _))

lemma Keys.hasIds (h : t.Keys 0) (hn : t.HasIds n) : t.Keys n :=
  ⟨h.sound, ⟨h.grid.length, h.grid.distinct, h.grid.below, hn.1⟩,
    fun g hg => ⟨(h.alt g hg).length, (h.alt g hg).distinct, (h.alt g hg).below, hn.2.1 g hg⟩, hn.2.2⟩

lemma ViewOf.keys (hu : t.ViewOf u) (h : t.Keys n) : u.Keys n := by
  have hs := hu.sound h.sound
  obtain ⟨_, _, _, _, _, _, rfl⟩ := hu
  exact ⟨hs, h.grid, h.alt, h.fresh⟩

theorem apply_keys (h : t.Keys 0) (parity : Bool) (op : Op F) (hop : t.KeepsIds op) : (t.apply parity op).Keys 0 := by
  obtain ⟨hshift, hids⟩ := hop
  have hroom := h.hasIds hids
  rw [← Nat.zero_add (t.opIdsTaken op)] at hroom
  cases op with
  | call c => exact perform_kept keyed_kept parity c hroom
  | processBytes calls => exact keyed_kept.processBytes parity calls (fun h hu => hu.keys h) hroom
  | resize rows cols =>
    apply resize_keys hroom cols
    have : ¬(t.rows < rows ∧ 0 < t.rows ∧ 0 < t.cols) := hshift
    omega
  | resizeViewportGrowth rows cols => exact resizeViewportGrowth_keys hroom cols
  | applySnapshot s => exact applySnapshot_keys s hroom
  | scrollViewUp k => exact (viewOf_scrollViewUp t k).keys h
  | scrollViewDown k => exact (viewOf_scrollViewDown t k).keys h
  | scrollViewByLines deltaLines => exact (viewOf_scrollViewByLines t deltaLines).keys h
  | scrollAnimateByPx deltaPx now duration initialSlope cellH =>
    exact (viewOf_scrollAnimateByPx t deltaPx now duration initialSlope cellH).keys h
  | sampleScrollAnimation now cellH => exact (viewOf_sampleScrollAnimation t now cellH).keys h
  | resetScroll => exact ViewOf.keys ⟨_, _, _, _, _, _, rfl⟩ h
  | publishCellH cellH => exact ViewOf.keys ⟨_, _, _, _, _, _, rfl⟩ h

/-- **Main result.** As long as no resize shifts the rows of the screen down and no counter of
identities wraps, the rows of the visible grid have different identities. -/
theorem lineIds_distinct (parity : Bool) {rows cols : Nat} {ops : List (Op F)}
    (hnew : 1 + rows < UInt64.size) (hops : Along (next parity) KeepsIds (new parity rows cols) ops)
    (h : exec (next parity) (new parity rows cols) ops = some t) : t.grid.lineIds.Nodup := by
  have hkeys : t.Keys 0 := by
    refine exec_guarded (I := Keys 0) ?_ ?_ hops h
    · intro t op u ht hop hu
      cases hu
      exact apply_keys ht parity op hop
    · exact ⟨sound_new parity rows cols, CellGrid.keyed_new cols hnew, by simp [new], hnew⟩
  exact hkeys.grid.distinct.nodup

/-- a screen that scrolls, loses a row and shows a second page -/
theorem lineIds_distinct_scrolled : ∃ t : Terminal ℚ,
    exec (@next ℚ exactF32 false) (@new ℚ exactF32 false 3 2)
      [.processBytes [.execute 0x0a, .execute 0x0a, .execute 0x0a], .resize 2 3,
        .call (.csiDispatch [⟨47, []⟩] [0x3f] false 'h')] = some t ∧ t.grid.lineIds.Nodup := by
  refine ⟨_, rfl, ?_⟩
  exact @lineIds_distinct ℚ exactF32 _ false 3 2
    [.processBytes [.execute 0x0a, .execute 0x0a, .execute 0x0a], .resize 2 3,
      .call (.csiDispatch [⟨47, []⟩] [0x3f] false 'h')] (by decide) (by decide) rfl

/-- a screen of one row that grows by one -/
theorem lineIds_shared : ∃ t : Terminal ℚ,
    exec (@next ℚ exactF32 false) (@new ℚ exactF32 false 1 1) [.resize 2 1] = some t ∧
    ¬ t.grid.lineIds.Nodup := by
  refine ⟨_, rfl, ?_⟩
  decide

end Terminal
end TerminalManager.Ui
