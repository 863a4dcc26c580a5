import TerminalManager.Editor.History

/-!
# The dirty flag

A pane remembers the id of the newest group when it saves (`EditorPane::mark_saved`), and takes the
buffer for unchanged when the newest group has that id again.

* `Ids`       the ids of the groups are distinct, and smaller than the next one to be handed out;
* `Marked`    a group with the remembered id leads to the remembered text, and is not open;
* `saved_text`       **main result**: while the ids have not wrapped around, the same id means the
  same text;
* `saved_text_wrapped`   after `2 ^ 64 - 1` groups it does not.
-/

namespace TerminalManager.Editor
open Lines
namespace EditorBuffer

variable {b b' : EditorBuffer} {h h' : History} {first : List Char} {id : UInt64} {text : List Char}

/-! ## ids -/

/-- the ids of all groups -/
def ids (b : EditorBuffer) : List UInt64 := b.undos.map UndoGroup.id ++ b.redos.map UndoGroup.id

structure Ids (b : EditorBuffer) : Prop where
  nodup : b.ids.Nodup
  bounds : ∀ i ∈ b.ids, 0 < i.toNat ∧ i.toNat < b.nextGroupId.toNat
  next : 0 < b.nextGroupId.toNat

/-- an id that has not wrapped around is larger -/
lemma toNat_next {n : UInt64} (h : n + 1 ≠ 0) : (n + 1).toNat = n.toNat + 1 := by
  have hne : (n + 1).toNat ≠ 0 := fun e => h (UInt64.toNat_inj.mp e)
  rw [UInt64.toNat_add] at hne ⊢
  have hlt := n.toNat_lt
  have h1 : (1 : UInt64).toNat = 1 := rfl
  rw [h1] at hne ⊢
  omega

lemma Effect.nextGroupId_le (he : Effect b h b' h') (hw : b'.nextGroupId ≠ 0) :
    b.nextGroupId.toNat ≤ b'.nextGroupId.toNat := by
  cases he with
  | opened kind r c undos redos past future nextGroupId =>
    rw [nextGroupId] at hw ⊢
    rw [toNat_next hw]
    exact Nat.le_succ _
  | kept undos redos history groupOpen nextGroupId => rw [nextGroupId]
  | joined g g' gs c c' cs groupOpen top newest id undos redos past future nextGroupId => rw [nextGroupId]
  | undone g gs c cs top newest undos redos past future groupOpen nextGroupId => rw [nextGroupId]
  | redone g gs c cs top next undos redos past future groupOpen nextGroupId => rw [nextGroupId]

lemma ids_fromText (text : List Char) : Ids (fromText text) :=
  ⟨List.nodup_nil, fun i hi => (by cases hi), Nat.one_pos⟩

/-- no id is handed out -/
lemma Ids.of_subset (hi : Ids b) (hn : b'.ids.Nodup) (hs : b'.ids ⊆ b.ids)
    (hnext : b'.nextGroupId = b.nextGroupId) : Ids b' :=
  ⟨hn, fun i h => hnext ▸ hi.bounds i (hs h), hnext ▸ hi.next⟩

theorem Ids.effect (hi : Ids b) (he : Effect b h b' h') (hw : b'.nextGroupId ≠ 0) : Ids b' := by
  cases he with
  | kept undos redos history groupOpen nextGroupId =>
    have hids : b'.ids = b.ids := by rw [ids, undos, redos, ids]
    exact hi.of_subset (hids ▸ hi.nodup) (hids ▸ List.Subset.refl _) nextGroupId
  | opened kind r c undos redos past future nextGroupId =>
    have hnext : b'.nextGroupId.toNat = b.nextGroupId.toNat + 1 := by
      rw [nextGroupId] at hw ⊢
      exact toNat_next hw
    have hids : b'.ids = b.nextGroupId :: b.undos.map UndoGroup.id := by
      rw [ids, undos, redos]
      exact List.append_nil _
    have hold : ∀ i ∈ b.undos.map UndoGroup.id, 0 < i.toNat ∧ i.toNat < b.nextGroupId.toNat :=
      fun i h => hi.bounds i (List.mem_append_left _ h)
    refine ⟨?_, ?_, ?_⟩
    · rw [hids, List.nodup_cons]
      refine ⟨fun hmem => Nat.lt_irrefl _ (hold _ hmem).2, ?_⟩
      exact (List.nodup_append.mp hi.nodup).1
    · rw [hids, hnext]
      intro i h
      rcases List.mem_cons.mp h with rfl | h
      · exact ⟨hi.next, Nat.lt_succ_self _⟩
      · have hb := hold i h
        omega
    · omega
  | joined g g' gs c c' cs groupOpen top newest id undos redos past future nextGroupId =>
    have hids : b'.ids = b.undos.map UndoGroup.id := by
      rw [ids, undos, redos, top, List.map_cons, id]
      exact List.append_nil _
    refine hi.of_subset ?_ ?_ nextGroupId
    · rw [hids]
      exact (List.nodup_append.mp hi.nodup).1
    · rw [hids]
      exact List.subset_append_left _ _
  | undone g gs c cs top newest undos redos past future groupOpen nextGroupId =>
    have hids : b'.ids.Perm b.ids := by
      rw [ids, ids, undos, redos, top]
      exact List.perm_middle
    exact hi.of_subset (hids.nodup_iff.mpr hi.nodup) hids.subset nextGroupId
  | redone g gs c cs top next undos redos past future groupOpen nextGroupId =>
    have hids : b'.ids.Perm b.ids := by
      rw [ids, ids, undos, redos, top]
      exact List.perm_middle.symm
    exact hi.of_subset (hids.nodup_iff.mpr hi.nodup) hids.subset nextGroupId

/-! ## the remembered group -/

/-- a group with the remembered id leads to the remembered text -/
def Leads (id : UInt64) (text : List Char) (g : UndoGroup) (c : Change) : Prop :=
  g.id = id → c.after = text

structure Marked (first : List Char) (id : UInt64) (text : List Char) (b : EditorBuffer) (h : History) :
    Prop where
  /-- the id has been handed out, or is that of a pristine buffer -/
  old : id.toNat < b.nextGroupId.toNat
  pristine : id = 0 → text = first
  /-- the open group is another one -/
  groupOpen : b.groupOpen = true → ∀ g ∈ b.undos.head?, g.id ≠ id
  undos : List.Forall₂ (Leads id text) b.undos h.past
  redos : List.Forall₂ (Leads id text) b.redos h.future

theorem Marked.effect (hm : Marked first id text b h) (he : Effect b h b' h') (hw : b'.nextGroupId ≠ 0) :
    Marked first id text b' h' := by
  have hle := Effect.nextGroupId_le he hw
  have hold : id.toNat < b'.nextGroupId.toNat := Nat.lt_of_lt_of_le hm.old hle
  have hu := hm.undos
  have hr := hm.redos
  cases he with
  | kept undos redos history groupOpen nextGroupId =>
    refine ⟨hold, hm.pristine, ?_, ?_, ?_⟩
    · rw [undos]
      exact fun ho => hm.groupOpen (groupOpen ho)
    · rw [undos, history]
      exact hu
    · rw [redos, history]
      exact hr
  | opened kind r c undos redos past future nextGroupId =>
    have hne : b.nextGroupId ≠ id := by
      intro e
      have hlt := hm.old
      rw [e] at hlt
      exact Nat.lt_irrefl _ hlt
    refine ⟨hold, hm.pristine, ?_, ?_, ?_⟩
    · rw [undos]
      rintro - g ⟨⟩
      exact hne
    · rw [undos, past]
      exact .cons (fun e => absurd e hne) hu
    · rw [redos, future]
      exact .nil
  | joined g g' gs c c' cs groupOpen top newest id' undos redos past future nextGroupId =>
    have hne : g.id ≠ id := by
      apply hm.groupOpen groupOpen
      rw [top]
      rfl
    rw [top, newest] at hu
    refine ⟨hold, hm.pristine, ?_, ?_, ?_⟩
    · rw [undos]
      rintro - g ⟨⟩
      exact id' ▸ hne
    · rw [undos, past]
      exact .cons (fun e => absurd (id' ▸ e) hne) (List.forall₂_cons.mp hu).2
    · rw [redos, future]
      exact .nil
  | undone g gs c cs top newest undos redos past future groupOpen nextGroupId =>
    rw [top, newest, List.forall₂_cons] at hu
    refine ⟨hold, hm.pristine, ?_, ?_, ?_⟩
    · rw [groupOpen]
      exact fun e => (by cases e)
    · rw [undos, past]
      exact hu.2
    · rw [redos, future]
      exact .cons hu.1 hr
  | redone g gs c cs top next undos redos past future groupOpen nextGroupId =>
    rw [top, next, List.forall₂_cons] at hr
    refine ⟨hold, hm.pristine, ?_, ?_, ?_⟩
    · rw [groupOpen]
      exact fun e => (by cases e)
    · rw [undos, past]
      exact .cons hr.1 hu
    · rw [redos, future]
      exact hr.2

/-- groups with other ids lead wherever they do -/
lemma forall_leads {gs : List UndoGroup} {cs : List Change} (hlen : gs.length = cs.length)
    (hne : id ∉ gs.map UndoGroup.id) : List.Forall₂ (Leads id text) gs cs := by
  induction gs generalizing cs with
  | nil =>
    obtain rfl := List.length_eq_zero_iff.mp hlen.symm
    exact .nil
  | cons g gs ih =>
    cases cs with
    | nil => cases hlen
    | cons c cs =>
      rw [List.map_cons, List.mem_cons, not_or] at hne
      exact .cons (fun e => absurd e.symm hne.1) (ih (Nat.succ.inj hlen) hne.2)

/-- **Saving** marks the newest group. -/
theorem marked_save (hi : Inv first b h) (hids : Ids b) :
    Marked first b.topGroupId b.toText b.breakUndoGroup h := by
  have hpast := hi.past
  have hlen := hi.past.length
  have hlen' := hi.future.length
  have hn := hids.nodup
  obtain ⟨past, future, latest⟩ := h
  cases hu : b.undos with
  | nil =>
    have htop : b.topGroupId = 0 := by
      unfold topGroupId
      rw [hu]
    rw [hu] at hpast hlen
    obtain rfl := List.length_eq_zero_iff.mp hlen.symm
    have hzero : ∀ i ∈ b.ids, i ≠ 0 := by
      intro i hi e
      have hpos := (hids.bounds i hi).1
      rw [e] at hpos
      exact Nat.lt_irrefl _ hpos
    rw [htop]
    refine ⟨hids.next, fun _ => hpast, fun e => (by cases e), ?_, forall_leads hlen' fun hmem => ?_⟩
    · rw [show b.breakUndoGroup.undos = [] from hu]
      exact .nil
    · exact hzero 0 (List.mem_append_right _ hmem) rfl
  | cons g gs =>
    have htop : b.topGroupId = g.id := by
      unfold topGroupId
      rw [hu]
    rw [hu] at hpast hlen
    rw [ids, hu, List.map_cons, List.cons_append] at hn
    have hmem : g.id ∈ b.ids := by
      rw [ids, hu]
      exact List.mem_append_left _ List.mem_cons_self
    obtain ⟨hpos, hlt⟩ := hids.bounds g.id hmem
    obtain ⟨hg, hrest⟩ := List.nodup_cons.mp hn
    rw [List.mem_append, not_or] at hg
    rw [htop]
    cases past with
    | nil => cases hlen
    | cons c cs =>
      refine ⟨hlt, fun e => ?_, fun e => (by cases e), ?_, forall_leads hlen' hg.2⟩
      · exact absurd (congrArg UInt64.toNat e) (Nat.ne_of_gt hpos)
      · rw [show b.breakUndoGroup.undos = g :: gs from hu]
        exact .cons (fun _ => hpast.2.1) (forall_leads (Nat.succ.inj hlen) hg.1)

/-- **The id of the newest group tells the text.** -/
theorem Marked.toText (hm : Marked first id text b h) (hi : Inv first b h)
    (ht : b.topGroupId = id) : b.toText = text := by
  have hpast := hi.past
  have hu := hm.undos
  unfold topGroupId at ht
  obtain ⟨past, future, latest⟩ := h
  cases hb : b.undos with
  | nil =>
    rw [hb] at ht hpast
    cases past with
    | nil => exact hpast.trans (hm.pristine ht.symm).symm
    | cons c cs => exact hpast.elim
  | cons g gs =>
    rw [hb] at ht hpast hu
    cases past with
    | nil => exact hpast.elim
    | cons c cs =>
      obtain ⟨-, hafter, -⟩ := hpast
      rw [← hafter]
      exact (List.forall₂_cons.mp hu).1 ht

/-! ## runs -/

/-- **Guarded run rule**: what holds of the buffer and its history is kept, as long as the effects of
the operations keep it and the ids do not wrap around. -/
theorem run_effect {t : CharTable} {J : EditorBuffer → History → Prop}
    (hJ : ∀ b h b' h', J b h → Effect b h b' h' → b'.nextGroupId ≠ 0 → J b' h') {ops : List Op}
    (hi : Inv first b h) (hj : J b h) (hb : Transition.exec (Op.run t) b ops = some b')
    (hw : Transition.Along (Op.run t) (fun b op => ∀ c ∈ op.run t b, c.nextGroupId ≠ 0) b ops) :
    ∃ h', Inv first b' h' ∧ J b' h' := by
  induction ops generalizing b h with
  | nil =>
    cases hb
    exact ⟨h, hi, hj⟩
  | cons op ops ih =>
    obtain ⟨c, hc, hrest⟩ := Transition.exec_cons _ hb
    obtain ⟨⟨c', h'⟩, hs, hi', he⟩ := Inv.step t (s := (b, h)) hi op
    unfold watch at hs
    rw [hc] at hs
    cases hs
    exact ih hi' (hJ _ _ _ _ hj he (hw.1 c hc)) hrest (hw.2 c hc)

/-- **The dirty flag hides nothing**: while the ids have not wrapped around, the remembered id at the
top means the remembered text. -/
theorem saved_text (t : CharTable) (text : List Char) (before after : List Op) {b b' : EditorBuffer}
    (hb : Transition.exec (Op.run t) (fromText text) before = some b)
    (hb' : Transition.exec (Op.run t) b.breakUndoGroup after = some b')
    (hw : Transition.Throughout (Op.run t) (fun c => c.nextGroupId ≠ 0) (fromText text)
      (before ++ .breakUndoGroup :: after))
    (htop : b'.topGroupId = b.breakUndoGroup.topGroupId) : b'.toText = b.breakUndoGroup.toText := by
  obtain ⟨hw₁, hw₂⟩ := (Transition.along_append hb).mp hw.2
  obtain ⟨h, hi, hids⟩ := run_effect (J := fun b _ => Ids b) (fun _ _ _ _ hj he hne => hj.effect he hne)
    (inv_fromText text) (ids_fromText text) hb hw₁
  have hi' : Inv text b.breakUndoGroup h := hi.moved (breakUndoGroup_moved hi.placed)
  obtain ⟨h', hi'', hmark⟩ := run_effect (fun _ _ _ _ hj he hne => hj.effect he hne) hi'
    (marked_save hi hids) hb' (hw₂.2 _ rfl)
  exact hmark.toText hi'' htop

theorem saved_text_undone : ∃ b b',
    Transition.exec (Op.run ⟨Char.isAlphanum⟩) (fromText ['x']) [.insertChar 'a'] = some b ∧
    Transition.exec (Op.run ⟨Char.isAlphanum⟩) b.breakUndoGroup [.insertChar 'b', .undo] = some b' ∧
    b'.topGroupId = b.breakUndoGroup.topGroupId ∧ b'.toText = b.breakUndoGroup.toText :=
  ⟨_, _, rfl, rfl, rfl, saved_text ⟨Char.isAlphanum⟩ ['x'] [.insertChar 'a'] [.insertChar 'b', .undo]
    rfl rfl (by decide) rfl⟩

/-- `n` groups that are undone at once -/
def spin : Nat → List Op
  | 0 => []
  | n + 1 => spin n ++ [.insertStr ['a'], .undo]

/-- ids are handed out, and nothing else happens -/
lemma exec_spin (t : CharTable) (n : Nat) : ∃ s rs, Transition.exec (Op.run t) (fromText []) (spin n) =
    some ⟨[[]], ⟨0, 0⟩, none, s, [], rs, UInt64.ofNat (n + 1), false⟩ := by
  induction n with
  | zero => exact ⟨none, [], rfl⟩
  | succ n ih =>
    obtain ⟨s, rs, h⟩ := ih
    have hstep := UInt64.ofNat_add (n + 1) 1
    rw [spin, Transition.exec_append, h, hstep]
    exact ⟨_, _, rfl⟩

/-- **Wrapped around**: the first group after `2 ^ 64 - 1` others has the id of a pristine buffer. -/
theorem saved_text_wrapped : ¬∀ (t : CharTable) (text : List Char) (before after : List Op)
    (b b' : EditorBuffer), Transition.exec (Op.run t) (fromText text) before = some b →
    Transition.exec (Op.run t) b.breakUndoGroup after = some b' →
    b'.topGroupId = b.breakUndoGroup.topGroupId → b'.toText = b.breakUndoGroup.toText := by
  intro h
  obtain ⟨n, hn⟩ : ∃ n, UInt64.ofNat (n + 1) = 0 := ⟨18446744073709551615, by decide⟩
  obtain ⟨s, rs, hs⟩ := exec_spin ⟨Char.isAlphanum⟩ n
  rw [hn] at hs
  obtain ⟨b', hrun, htop, htext⟩ : ∃ b', Transition.exec (Op.run ⟨Char.isAlphanum⟩)
      (fromText []).breakUndoGroup (spin n ++ [.insertStr ['a']]) = some b' ∧
      b'.topGroupId = (fromText []).breakUndoGroup.topGroupId ∧ b'.toText = ['a'] := by
    have hpristine : (fromText []).breakUndoGroup = fromText [] := rfl
    rw [hpristine, Transition.exec_append, hs]
    exact ⟨_, rfl, rfl, rfl⟩
  have hsame := h ⟨Char.isAlphanum⟩ [] [] (spin n ++ [.insertStr ['a']]) (fromText []) b' rfl hrun htop
  rw [htext] at hsame
  cases hsame

end EditorBuffer
end TerminalManager.Editor
