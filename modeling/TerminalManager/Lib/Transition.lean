import Mathlib.Logic.Relation
import Mathlib.Tactic.Common

/-!
# Runs of a labelled step function

A system is a partial step function `step : σ → ε → Option σ`: in the state `s` the event `e`
is possible when `step s e` is defined.  This file fixes what a run is and how facts about one
step become facts about a whole run:

* `exec step s es`        the state after the events `es`, when all of them are possible;
* `exec_append`           a run of `es ++ fs` is a run of `es` followed by one of `fs`;
* `Invariant.exec`        what every step keeps, every run keeps;
* `exec_progress`         when every step is possible and keeps `I`, every run is and does;
* `exec_guarded`          the same when only the steps that meet a condition keep it, for the
                          runs whose steps all meet it (`Along`);
* `exec_guarded_progress`  when the steps that meet a condition are possible and keep `I`, so is a run
                          whose steps all meet it;
* `along_iff`              two conditions that the defined steps from `I` meet together;
* `along_iff_along`        the same when only steps that meet both keep `I`;
* `along_of_along`         steps that meet a condition meet another one, when they keep `I`;
* `Throughout step N s es` every state of the run from `s` meets `N`; decidable when `N` is;
* `throughout_of_along`   when the steps that meet a condition keep `I`, and the states of `I` meet `N`, the
                          states of a run whose steps all meet the condition meet `N`;
* `throughout_iff`        when a step from a state of `N` ends in one of `N` exactly if it meets `C`,
                          the states of a run all meet `N` exactly if its steps all meet `C` (`I` is
                          an invariant that the step lemma may use);
* `possible_throughout_iff`   the same for a run that is also possible, when only the steps that meet `C` keep `I`;
* `exec_rel`              a preorder that every step respects relates the ends of a run.
-/

namespace Transition

section
variable {σ ε : Type*} (step : σ → ε → Option σ)

/-- the state after the events `es`, `none` when one of them is not possible -/
def exec (s : σ) : List ε → Option σ
  | [] => some s
  | e :: es => (step s e).bind fun t => exec t es

@[simp] lemma exec_nil (s : σ) : exec step s [] = some s := rfl

lemma exec_cons {s u : σ} {e : ε} {es : List ε} (h : exec step s (e :: es) = some u) :
    ∃ t, step s e = some t ∧ exec step t es = some u := by
  obtain ⟨t, ht, hu⟩ := Option.bind_eq_some_iff.mp h
  exact ⟨t, ht, hu⟩

lemma exec_append (s : σ) (es fs : List ε) :
    exec step s (es ++ fs) = (exec step s es).bind fun t => exec step t fs := by
  induction es generalizing s with
  | nil => rfl
  | cons e es ih =>
    show ((step s e).bind fun t => exec step t (es ++ fs))
      = ((step s e).bind fun t => exec step t es).bind fun t => exec step t fs
    rw [Option.bind_assoc]
    congr 1
    funext t
    exact ih t

/-- the last event of a run, taken apart -/
lemma exec_snoc {s u : σ} {es : List ε} {e : ε} (h : exec step s (es ++ [e]) = some u) :
    ∃ t, exec step s es = some t ∧ step t e = some u := by
  rw [exec_append] at h
  obtain ⟨t, ht, hu⟩ := Option.bind_eq_some_iff.mp h
  obtain ⟨v, hv, hvu⟩ := exec_cons step hu
  cases hvu
  exact ⟨t, ht, hv⟩

/-- every step from a state of `I` ends in a state of `I` -/
def Invariant (I : σ → Prop) : Prop := ∀ s e t, I s → step s e = some t → I t

variable {step}

/-- **Invariant rule**: what every step keeps, every run keeps. -/
theorem Invariant.exec {I : σ → Prop} (hI : Invariant step I) {s t : σ} {es : List ε}
    (hs : I s) (h : exec step s es = some t) : I t := by
  induction es generalizing s with
  | nil =>
    cases h
    exact hs
  | cons e es ih =>
    obtain ⟨u, hu, hut⟩ := exec_cons step h
    exact ih (hI s e u hs hu) hut

/-- **Progress rule**: when the events of a list are possible in every state of `I` and keep `I`, so
is the run of the list and so does it. -/
theorem exec_progress {I : σ → Prop} {es : List ε}
    (hI : ∀ s, ∀ e ∈ es, I s → ∃ t, step s e = some t ∧ I t) {s : σ} (hs : I s) :
    ∃ t, Transition.exec step s es = some t ∧ I t := by
  induction es generalizing s with
  | nil => exact ⟨s, rfl, hs⟩
  | cons e es ih =>
    obtain ⟨u, hu, hIu⟩ := hI s e List.mem_cons_self hs
    obtain ⟨t, ht, hIt⟩ := ih (fun s e he => hI s e (List.mem_cons_of_mem _ he)) hIu
    refine ⟨t, ?_, hIt⟩
    show (step s e).bind _ = some t
    rw [hu]
    exact ht

variable (step) in
/-- every step of the run from `s` meets `C` in the state it is taken in -/
def Along (C : σ → ε → Prop) (s : σ) : List ε → Prop
  | [] => True
  | e :: es => C s e ∧ ∀ t ∈ step s e, Along C t es

lemma Along.of_forall {C : σ → ε → Prop} {es : List ε} (h : ∀ e ∈ es, ∀ s, C s e) (s : σ) :
    Along step C s es := by
  induction es generalizing s with
  | nil => trivial
  | cons e es ih =>
    exact ⟨h e List.mem_cons_self s, fun t _ => ih (fun e' he' => h e' (List.mem_cons_of_mem e he')) t⟩

lemma Along.and {C D : σ → ε → Prop} {s : σ} {es : List ε} (h : Along step C s es) (h' : Along step D s es) :
    Along step (fun s e => C s e ∧ D s e) s es := by
  induction es generalizing s with
  | nil => trivial
  | cons e es ih => exact ⟨⟨h.1, h'.1⟩, fun t ht => ih (h.2 t ht) (h'.2 t ht)⟩

lemma Along.and_forall {C : σ → ε → Prop} {D : ε → Prop} {s : σ} {es : List ε} (h : Along step C s es)
    (hD : ∀ e ∈ es, D e) : Along step (fun s e => D e ∧ C s e) s es := by
  induction es generalizing s with
  | nil => trivial
  | cons e es ih =>
    exact ⟨⟨hD e List.mem_cons_self, h.1⟩, fun t ht => ih (h.2 t ht) fun e' he' => hD e' (List.mem_cons_of_mem e he')⟩

lemma along_append {C : σ → ε → Prop} {s t : σ} {es fs : List ε} (h : Transition.exec step s es = some t) :
    Along step C s (es ++ fs) ↔ Along step C s es ∧ Along step C t fs := by
  induction es generalizing s with
  | nil =>
    cases h
    exact ⟨fun h => ⟨trivial, h⟩, And.right⟩
  | cons e es ih =>
    obtain ⟨u, hu, hut⟩ := exec_cons step h
    show (C s e ∧ ∀ v ∈ step s e, Along step C v (es ++ fs)) ↔
      (C s e ∧ ∀ v ∈ step s e, Along step C v es) ∧ Along step C t fs
    rw [hu]
    simp only [Option.mem_some_iff, forall_eq']
    rw [ih hut, and_assoc]

instance Along.decidable {C : σ → ε → Prop} [∀ s e, Decidable (C s e)] :
    ∀ (s : σ) (es : List ε), Decidable (Along step C s es)
  | _, [] => instDecidableTrue
  | s, e :: es =>
    have : ∀ t, Decidable (Along step C t es) := fun t => Along.decidable t es
    inferInstanceAs (Decidable (C s e ∧ ∀ t ∈ step s e, Along step C t es))

variable (step) in
/-- every state of the run meets `N` -/
def Throughout (N : σ → Prop) (s : σ) (es : List ε) : Prop :=
  N s ∧ Along step (fun s e => ∀ t ∈ step s e, N t) s es

instance Throughout.decidable {N : σ → Prop} [DecidablePred N] (s : σ) (es : List ε) :
    Decidable (Throughout step N s es) :=
  inferInstanceAs (Decidable (N s ∧ Along step (fun s e => ∀ t ∈ step s e, N t) s es))

/-- **Guarded invariant rule**: when the steps that meet `C` keep `I`, so does every run whose
steps all meet `C`. -/
theorem exec_guarded {C : σ → ε → Prop} {I : σ → Prop}
    (hI : ∀ s e t, I s → C s e → step s e = some t → I t) {s t : σ} {es : List ε}
    (hs : I s) (hC : Along step C s es) (h : Transition.exec step s es = some t) : I t := by
  induction es generalizing s with
  | nil =>
    cases h
    exact hs
  | cons e es ih =>
    obtain ⟨u, hu, hut⟩ := exec_cons step h
    exact ih (hI s e u hs hC.1 hu) (hC.2 u hu) hut

/-- **Guarded progress rule**: when the steps that meet `C` are possible and keep `I`, a run whose steps
all meet `C` is possible and keeps it. -/
theorem exec_guarded_progress {C : σ → ε → Prop} {I : σ → Prop}
    (hI : ∀ s e, I s → C s e → ∃ t, step s e = some t ∧ I t) {s : σ} {es : List ε} (hs : I s)
    (hC : Along step C s es) : ∃ t, Transition.exec step s es = some t ∧ I t := by
  induction es generalizing s with
  | nil => exact ⟨s, rfl, hs⟩
  | cons e es ih =>
    obtain ⟨u, hu, hIu⟩ := hI s e hs hC.1
    obtain ⟨t, ht, hIt⟩ := ih hIu (hC.2 u hu)
    refine ⟨t, ?_, hIt⟩
    show (step s e).bind _ = some t
    rw [hu]
    exact ht

/-- when the steps that meet `C` keep `I`, and from the states of `I` meet `D`, the steps of a run that all meet
`C` all meet `D` -/
theorem along_of_along {C D : σ → ε → Prop} {I : σ → Prop}
    (hI : ∀ s e t, I s → C s e → step s e = some t → I t) (hD : ∀ s e, I s → C s e → D s e) {s : σ} {es : List ε}
    (hs : I s) (h : Along step C s es) : Along step D s es := by
  induction es generalizing s with
  | nil => trivial
  | cons e es ih => exact ⟨hD s e hs h.1, fun t ht => ih (hI s e t hs h.1 ht) (h.2 t ht)⟩

/-- when the steps that meet `G` meet `C` exactly if they meet `D`, and keep `I` when they do, a run whose steps all
meet `G` meets `C` throughout exactly if it meets `D` -/
theorem along_iff_along {G C D : σ → ε → Prop} {I : σ → Prop}
    (hI : ∀ s e t, I s → G s e → C s e → step s e = some t → I t) (hCD : ∀ s e, I s → G s e → (C s e ↔ D s e)) {s : σ}
    {es : List ε} (hs : I s) (hG : Along step G s es) : Along step C s es ↔ Along step D s es := by
  induction es generalizing s with
  | nil => exact Iff.rfl
  | cons e es ih =>
    show (C s e ∧ ∀ t ∈ step s e, Along step C t es) ↔ (D s e ∧ ∀ t ∈ step s e, Along step D t es)
    rw [← hCD s e hs hG.1]
    exact and_congr_right fun hC => forall₂_congr fun t ht => ih (hI s e t hs hG.1 hC ht) (hG.2 t ht)

/-- **Guarded safety rule**: when the steps that meet `C` keep `I`, and the states of `I` are in `N`, the
states of a run whose steps all meet `C` are all in `N`. -/
theorem throughout_of_along {C : σ → ε → Prop} {I N : σ → Prop}
    (hI : ∀ s e t, I s → C s e → step s e = some t → I t) (hN : ∀ s, I s → N s) {s : σ} {es : List ε} (hs : I s)
    (h : Along step C s es) : Throughout step N s es := by
  exact ⟨hN s hs, along_of_along hI (fun s e hs hC t ht => hN t (hI s e t hs hC ht)) hs h⟩

/-- the states of a run stay in `N` exactly when its steps all meet `C` -/
theorem throughout_iff {C : σ → ε → Prop} {I N : σ → Prop} (hI : Invariant step I)
    (hN : ∀ s e, I s → N s → ((∀ t ∈ step s e, N t) ↔ C s e)) {s : σ} {es : List ε} (hi : I s) (hs : N s) :
    Throughout step N s es ↔ Along step C s es := by
  unfold Throughout
  rw [and_iff_right hs]
  induction es generalizing s with
  | nil => exact Iff.rfl
  | cons e es ih =>
    constructor
    · intro ⟨hnext, hrest⟩
      exact ⟨(hN s e hi hs).mp hnext, fun t ht => (ih (hI s e t hi ht) (hnext t ht)).mp (hrest t ht)⟩
    · intro ⟨hC, hrest⟩
      have hnext := (hN s e hi hs).mpr hC
      exact ⟨hnext, fun t ht => (ih (hI s e t hi ht) (hnext t ht)).mpr (hrest t ht)⟩

/-- a run is possible and stays in `N` exactly when its steps all meet `C`, when from the states of `I`, which are
in `N`, those steps are possible and keep `I`, and only those end in `N` -/
theorem possible_throughout_iff {C : σ → ε → Prop} {I N : σ → Prop}
    (hI : ∀ s e, I s → C s e → ∃ t, step s e = some t ∧ I t) (hN : ∀ s, I s → N s)
    (hback : ∀ s e t, I s → step s e = some t → N t → C s e) {s : σ} {es : List ε} (hs : I s) :
    ((∃ t, Transition.exec step s es = some t) ∧ Throughout step N s es) ↔ Along step C s es := by
  constructor
  · intro ⟨⟨u, hu⟩, _, hnext⟩
    induction es generalizing s with
    | nil => trivial
    | cons e es ih =>
      obtain ⟨t, ht, hut⟩ := exec_cons step hu
      have hC := hback s e t hs ht (hnext.1 t ht)
      refine ⟨hC, fun t' ht' => ?_⟩
      obtain ⟨t'', ht'', hIt⟩ := hI s e hs hC
      obtain rfl : t = t'' := Option.some.inj (ht.symm.trans ht'')
      obtain rfl : t = t' := Option.some.inj (ht.symm.trans ht')
      exact ih hIt hut (hnext.1 t ht) (hnext.2 t ht)
  · intro h
    have hkeeps : ∀ s e t, I s → C s e → step s e = some t → I t := by
      intro s e t hs hC ht
      obtain ⟨t', ht', hIt⟩ := hI s e hs hC
      exact Option.some.inj (ht.symm.trans ht') ▸ hIt
    obtain ⟨t, ht, -⟩ := exec_guarded_progress hI hs h
    exact ⟨⟨t, ht⟩, throughout_of_along hkeeps hN hs h⟩

/-- a preorder that every step from a state of `I` respects relates the two ends of a run -/
theorem exec_rel {I : σ → Prop} {R : σ → σ → Prop} (hI : Invariant step I)
    (hrefl : ∀ s, R s s) (htrans : ∀ s t u, R s t → R t u → R s u)
    (hR : ∀ s e t, I s → step s e = some t → R s t) {s t : σ} {es : List ε}
    (hs : I s) (h : Transition.exec step s es = some t) : R s t := by
  induction es generalizing s with
  | nil =>
    cases h
    exact hrefl _
  | cons e es ih =>
    obtain ⟨u, hu, hut⟩ := exec_cons step h
    exact htrans s u t (hR s e u hs hu) (ih (hI s e u hs hu) hut)

end
end Transition
