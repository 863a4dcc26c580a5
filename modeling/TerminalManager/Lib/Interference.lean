import Mathlib.Logic.Relation
import Mathlib.Tactic.Common

/-!
# Programs of atomic actions under interference

A `Prog σ α` is a program on the shared state `σ` that returns an `α`.  It is a sequence of
atomic actions, and between two of them the rest of the system may move the state.  A
`Contract` says what the program may rely on and what it owes:

* `rely s t`   a move `s → t` of the others;
* `moment s`   what is assumed of every state on the way (`True` when nothing is);
* `guar s t`   what every atomic action `s → t` of the program must satisfy.

`c.Safe Q p s` says that `p`, started in `s`, respects the guarantee at each of its actions and
returns only in states of its postcondition `Q`, whatever the others do in between.  The rules:

* `Safe.moves`    a move of the others keeps safety;
* `safe_ret`, `safe_read`, `safe_update`, `safe_modifyGet`   one action, from a `Stable` assertion;
* `safe_bind`     sequencing, `safe_quiet` for a part that only reads;
* `safe_forEach`, `safe_filter`, `safe_any`   loops over a list, from an invariant of the part done so far.
-/

namespace Interference

/-- a program of atomic actions: an action updates the state by `f`, and what comes next is
chosen by the state it found -/
inductive Prog (σ α : Type) : Type
  | ret (a : α)
  | act (f : σ → σ) (k : σ → Prog σ α)

namespace Prog
variable {σ τ α β ι : Type}

def bind : Prog σ α → (α → Prog σ β) → Prog σ β
  | ret a, g => g a
  | act f k, g => act f fun s => bind (k s) g

instance : Monad (Prog σ) where
  pure := ret
  bind := bind

/-- one atomic read -/
def read (f : σ → α) : Prog σ α := act id fun s => ret (f s)

/-- one atomic write -/
def update (f : σ → σ) : Prog σ Unit := act f fun _ => ret ()

/-- one atomic read and write -/
def modifyGet (f : σ → α × σ) : Prog σ α := act (fun s => (f s).2) fun s => ret (f s).1

/-- the members of the list that pass the test, which is run on them in turn -/
def filter (p : ι → Prog σ Bool) : List ι → Prog σ (List ι)
  | [] => ret []
  | i :: l => (p i).bind fun b => (filter p l).bind fun r => ret (if b then i :: r else r)

/-- the members of the list in turn -/
def forEach (p : ι → Prog σ Unit) : List ι → Prog σ Unit
  | [] => ret ()
  | i :: l => (p i).bind fun _ => forEach p l

/-- does a member of the list pass the test?  The test is not run past the first that does -/
def any (p : ι → Prog σ Bool) : List ι → Prog σ Bool
  | [] => ret false
  | i :: l => (p i).bind fun b => if b then ret true else any p l

/-- a program on a part of the state, as a program on the whole -/
def zoom (get : σ → τ) (set : τ → σ → σ) : Prog τ α → Prog σ α
  | ret a => ret a
  | act f k => act (fun s => set (f (get s)) s) fun s => zoom get set (k (get s))

/-- no action of the program changes the state -/
def Quiet : Prog σ α → Prop
  | ret _ => True
  | act f k => (∀ s, f s = s) ∧ ∀ s, Quiet (k s)

lemma quiet_read (f : σ → α) : (read f).Quiet := ⟨fun _ => rfl, fun _ => trivial⟩

lemma Quiet.bind {p : Prog σ α} {g : α → Prog σ β} (hp : p.Quiet) (hg : ∀ a, (g a).Quiet) :
    (p.bind g).Quiet := by
  induction p with
  | ret a => exact hg a
  | act f k ih => exact ⟨hp.1, fun s => ih s (hp.2 s)⟩

lemma Quiet.filter {p : ι → Prog σ Bool} (hp : ∀ i, (p i).Quiet) (l : List ι) :
    (Prog.filter p l).Quiet := by
  induction l with
  | nil => trivial
  | cons i l ih => exact (hp i).bind fun _ => ih.bind fun _ => trivial

lemma Quiet.any {p : ι → Prog σ Bool} (hp : ∀ i, (p i).Quiet) (l : List ι) :
    (Prog.any p l).Quiet := by
  induction l with
  | nil => trivial
  | cons i l ih =>
    refine (hp i).bind fun b => ?_
    cases b with
    | true => trivial
    | false => exact ih

end Prog

/-! ## contracts -/

/-- what a program may rely on, and what each of its actions must satisfy -/
structure Contract (σ : Type) where
  rely : σ → σ → Prop
  moment : σ → Prop
  guar : σ → σ → Prop
  guar_refl : ∀ s, guar s s

namespace Contract
section
variable {σ α β ι : Type} (c : Contract σ)

/-- any number of moves of the others, through states that meet the assumption -/
def Moves : σ → σ → Prop := Relation.ReflTransGen fun s t => c.rely s t ∧ c.moment t

/-- `p` started in `s` meets the guarantee at every action and returns only where `Q` holds -/
def Safe (Q : α → σ → Prop) : Prog σ α → σ → Prop
  | .ret a, s => ∀ t, c.Moves s t → Q a t
  | .act f k, s => ∀ t, c.Moves s t → c.guar t (f t) ∧ (c.moment (f t) → Safe Q (k t) (f t))

/-- an assertion that the others cannot falsify -/
def Stable (P : σ → Prop) : Prop := ∀ s t, P s → c.rely s t → c.moment t → P t

variable {c}

lemma Stable.moves {P : σ → Prop} (hP : c.Stable P) {s t : σ} (hs : P s) (h : c.Moves s t) :
    P t := by
  induction h with
  | refl => exact hs
  | tail _ hbc ih => exact hP _ _ ih hbc.1 hbc.2

lemma Stable.and {P R : σ → Prop} (hP : c.Stable P) (hR : c.Stable R) :
    c.Stable fun s => P s ∧ R s :=
  fun s t hs hst ht => ⟨hP s t hs.1 hst ht, hR s t hs.2 hst ht⟩

lemma stable_moment : c.Stable c.moment := fun _ _ _ _ ht => ht

lemma stable_const (P : Prop) : c.Stable fun _ => P := fun _ _ hs _ _ => hs

/-- a move of the others keeps safety -/
theorem Safe.moves {Q : α → σ → Prop} {p : Prog σ α} {s t : σ} (hp : c.Safe Q p s)
    (h : c.Moves s t) : c.Safe Q p t := by
  cases p with
  | ret a => exact fun u hu => hp u (h.trans hu)
  | act f k => exact fun u hu => hp u (h.trans hu)

theorem Safe.mono {Q R : α → σ → Prop} {p : Prog σ α} {s : σ} (hp : c.Safe Q p s)
    (h : ∀ a t, Q a t → R a t) : c.Safe R p s := by
  induction p generalizing s with
  | ret a => exact fun t ht => h a t (hp t ht)
  | act f k ih =>
    intro t ht
    obtain ⟨hg, hk⟩ := hp t ht
    exact ⟨hg, fun hm => ih t (hk hm)⟩

theorem safe_ret {Q : α → σ → Prop} {a : α} {s : σ} (hQ : c.Stable (Q a)) (hs : Q a s) :
    c.Safe Q (.ret a) s := fun _ ht => hQ.moves hs ht

/-- one action, from an assertion that the others keep -/
theorem safe_act {Q : α → σ → Prop} {f : σ → σ} {k : σ → Prog σ α} {s : σ} (P : σ → Prop)
    (hP : c.Stable P) (hs : P s)
    (h : ∀ t, P t → c.guar t (f t) ∧ (c.moment (f t) → c.Safe Q (k t) (f t))) :
    c.Safe Q (.act f k) s := fun t ht => h t (hP.moves hs ht)

/-- sequencing: what follows starts where the first part may return -/
theorem safe_bind {R : α → σ → Prop} {Q : β → σ → Prop} {p : Prog σ α} {g : α → Prog σ β}
    {s : σ} (hp : c.Safe R p s) (hg : ∀ a t, R a t → c.Safe Q (g a) t) :
    c.Safe Q (p.bind g) s := by
  induction p generalizing s with
  | ret a => exact hg a s (hp s .refl)
  | act f k ih =>
    intro t ht
    obtain ⟨hgt, hk⟩ := hp t ht
    exact ⟨hgt, fun hm => ih t (hk hm)⟩

theorem safe_read {Q : α → σ → Prop} {f : σ → α} {s : σ} (P : σ → Prop) (hP : c.Stable P)
    (hs : P s) (hQ : ∀ a, c.Stable (Q a)) (h : ∀ t, P t → Q (f t) t) :
    c.Safe Q (.read f) s :=
  safe_act P hP hs fun t ht => ⟨c.guar_refl t, fun _ => safe_ret (hQ _) (h t ht)⟩

theorem safe_update {Q : Unit → σ → Prop} {f : σ → σ} {s : σ} (P : σ → Prop) (hP : c.Stable P)
    (hs : P s) (hQ : c.Stable (Q ()))
    (h : ∀ t, P t → c.guar t (f t) ∧ (c.moment (f t) → Q () (f t))) :
    c.Safe Q (.update f) s :=
  safe_act P hP hs fun t ht => ⟨(h t ht).1, fun hm => safe_ret hQ ((h t ht).2 hm)⟩

theorem safe_modifyGet {Q : α → σ → Prop} {f : σ → α × σ} {s : σ} (P : σ → Prop)
    (hP : c.Stable P) (hs : P s) (hQ : ∀ a, c.Stable (Q a))
    (h : ∀ t, P t → c.guar t (f t).2 ∧ (c.moment (f t).2 → Q (f t).1 (f t).2)) :
    c.Safe Q (.modifyGet f) s :=
  safe_act P hP hs fun t ht => ⟨(h t ht).1, fun hm => safe_ret (hQ _) ((h t ht).2 hm)⟩

/-- a program that changes nothing keeps what the others keep -/
theorem safe_quiet {p : Prog σ α} {P : σ → Prop} {s : σ} (hp : p.Quiet) (hP : c.Stable P)
    (hs : P s) : c.Safe (fun _ => P) p s := by
  induction p generalizing s with
  | ret a => exact safe_ret hP hs
  | act f k ih =>
    refine safe_act P hP hs fun t ht => ?_
    rw [hp.1 t]
    exact ⟨c.guar_refl t, fun _ => ih t (hp.2 t) ht⟩

/-! ## loops -/

/-- a loop over a list: `J done` holds when the members `done` have been visited -/
theorem safe_forEach {p : ι → Prog σ Unit} {l : List ι} {s : σ} (J : List ι → σ → Prop)
    (hJ : ∀ d, c.Stable (J d)) (hs : J [] s)
    (h : ∀ d i r t, d ++ i :: r = l → J d t → c.Safe (fun _ => J (d ++ [i])) (p i) t) :
    c.Safe (fun _ => J l) (.forEach p l) s := by
  suffices H : ∀ d r s, d ++ r = l → J d s → c.Safe (fun _ => J l) (Prog.forEach p r) s from
    H [] l s rfl hs
  intro d r
  induction r generalizing d with
  | nil =>
    intro s hd hs
    rw [List.append_nil] at hd
    exact safe_ret (hJ l) (hd ▸ hs)
  | cons i r ih =>
    intro s hd hs
    refine safe_bind (h d i r s hd hs) fun _ t ht => ih (d ++ [i]) t ?_ ht
    rw [List.append_assoc]
    exact hd

/-- a filter: `J done kept` holds when the members `done` have been tested and `kept` passed -/
theorem safe_filter {p : ι → Prog σ Bool} {l : List ι} {s : σ} (J : List ι → List ι → σ → Prop)
    (hJ : ∀ d k, c.Stable (J d k)) (hs : J [] [] s)
    (h : ∀ d k i r t, d ++ i :: r = l → J d k t →
      c.Safe (fun b => J (d ++ [i]) (if b then k ++ [i] else k)) (p i) t) :
    c.Safe (fun k => J l k) (.filter p l) s := by
  suffices H : ∀ d k r s, d ++ r = l → J d k s →
      c.Safe (fun m => J l (k ++ m)) (Prog.filter p r) s from H [] [] l s rfl hs
  intro d k r
  induction r generalizing d k with
  | nil =>
    intro s hd hs
    rw [List.append_nil] at hd
    refine safe_ret (hJ _ _) ?_
    show J l (k ++ []) s
    rw [List.append_nil, ← hd]
    exact hs
  | cons i r ih =>
    intro s hd hs
    have hd' : (d ++ [i]) ++ r = l := by
      rw [List.append_assoc]
      exact hd
    refine safe_bind (h d k i r s hd hs) fun b t ht => ?_
    refine safe_bind (ih (d ++ [i]) _ t hd' ht) fun m u hu => safe_ret (hJ _ _) ?_
    cases b with
    | false => exact hu
    | true =>
      have hu' : J l (k ++ [i] ++ m) u := hu
      rw [List.append_assoc] at hu'
      exact hu'

/-- a search: `J done` holds while every member tested so far failed -/
theorem safe_any {p : ι → Prog σ Bool} {l : List ι} {s : σ} {K : σ → Prop} (J : List ι → σ → Prop)
    (hJ : ∀ d, c.Stable (J d)) (hK : c.Stable K) (hs : J [] s)
    (h : ∀ d i r t, d ++ i :: r = l → J d t →
      c.Safe (fun b u => if b then K u else J (d ++ [i]) u) (p i) t) :
    c.Safe (fun b t => if b then K t else J l t) (.any p l) s := by
  suffices H : ∀ d r s, d ++ r = l → J d s →
      c.Safe (fun b t => if b then K t else J l t) (Prog.any p r) s from H [] l s rfl hs
  intro d r
  induction r generalizing d with
  | nil =>
    intro s hd hs
    rw [List.append_nil] at hd
    exact safe_ret (hJ l) (hd ▸ hs)
  | cons i r ih =>
    intro s hd hs
    refine safe_bind (h d i r s hd hs) fun b t ht => ?_
    cases b with
    | true => exact safe_ret hK ht
    | false =>
      refine ih (d ++ [i]) t ?_ ht
      rw [List.append_assoc]
      exact hd

end
end Contract
end Interference
