import TerminalManager.Lib.Transition
import TerminalManager.Lib.Interference

/-!
# A state behind one lock

A `Monitor` is a shared state whose operations all run under one lock: a call enters when the
lock is free, performs its atomic actions, and leaves with a reply.  The lock keeps other calls
out, but not the environment, whose events move the state at any time.

* `Monitor.step`       the interleavings, as a step function on `State`;
* `Monitor.Good`       the lock is free and the invariant holds, or the call that holds the
                       lock is on its way to its postcondition;
* `Monitor.good_step`  every step keeps `Good`;
* `Monitor.step_cases` what one step from a `Good` state does.
-/

namespace Interference
open Transition

structure Monitor (σ κ ρ ε : Type) where
  /-- what a call runs while it holds the lock -/
  body : κ → Prog σ ρ
  /-- the moves that need no lock -/
  env : σ → ε → Option σ

namespace Monitor
section
variable {σ κ ρ ε : Type}

/-- a call under way: the state it found and the rest of its program -/
structure Running (σ κ ρ : Type) where
  call : κ
  entry : σ
  rest : Prog σ ρ

structure State (σ κ ρ : Type) where
  shared : σ
  /-- the call that holds the lock -/
  holder : Option (Running σ κ ρ)

/-- the call that is about to leave, with the state it found and its reply -/
def State.returning (s : State σ κ ρ) : Option (κ × σ × ρ) :=
  match s.holder with
  | some ⟨c, s₀, .ret r⟩ => some (c, s₀, r)
  | _ => none

inductive Event (κ ε : Type)
  | enter (c : κ)
  | act
  | leave
  | env (e : ε)

def start (s : σ) : State σ κ ρ := ⟨s, none⟩

variable (m : Monitor σ κ ρ ε)

def step (s : State σ κ ρ) : Event κ ε → Option (State σ κ ρ)
  | .enter c =>
    match s.holder with
    | none => some { s with holder := some ⟨c, s.shared, m.body c⟩ }
    | some _ => none
  | .act =>
    match s.holder with
    | some ⟨c, s₀, .act f k⟩ => some ⟨f s.shared, some ⟨c, s₀, k s.shared⟩⟩
    | _ => none
  | .leave =>
    match s.holder with
    | some ⟨_, _, .ret _⟩ => some { s with holder := none }
    | _ => none
  | .env e => (m.env s.shared e).map fun t => { s with shared := t }

/-- the contract of a call: the environment interferes, every moment meets `M` -/
def contract (M : σ → Prop) (guar : κ → σ → σ → Prop) (hg : ∀ c s, guar c s s) (c : κ) :
    Contract σ where
  rely s t := ∃ e, m.env s e = some t
  moment := M
  guar := guar c
  guar_refl := hg c

variable {m} {M I : σ → Prop} {guar : κ → σ → σ → Prop} {hg : ∀ c s, guar c s s}
  {post : κ → σ → ρ → σ → Prop}

/-- between two calls the invariant holds; inside a call, the rest of it is safe -/
def Good (m : Monitor σ κ ρ ε) (M I : σ → Prop) (guar : κ → σ → σ → Prop)
    (hg : ∀ c s, guar c s s) (post : κ → σ → ρ → σ → Prop) (s : State σ κ ρ) : Prop :=
  match s.holder with
  | none => I s.shared
  | some r => (m.contract M guar hg r.call).Safe (post r.call r.entry) r.rest s.shared

/-- the reply of a call meets its postcondition when the call leaves -/
theorem Good.returning {s : State σ κ ρ} (hs : m.Good M I guar hg post s) {c : κ} {s₀ : σ} {r : ρ}
    (h : s.returning = some (c, s₀, r)) : post c s₀ r s.shared := by
  obtain ⟨sh, _ | ⟨c', s', r' | ⟨f, k⟩⟩⟩ := s
  · cases h
  · cases h
    exact hs sh .refl
  · cases h

/-- what one step from a good state does -/
theorem step_cases {s t : State σ κ ρ} {e : Event κ ε} (hs : m.Good M I guar hg post s)
    (h : m.step s e = some t) :
    (∃ c, e = .enter c ∧ s.holder = none ∧ I s.shared ∧
      t = ⟨s.shared, some ⟨c, s.shared, m.body c⟩⟩) ∨
    (∃ c s₀ f k, e = .act ∧ s.holder = some ⟨c, s₀, .act f k⟩ ∧ guar c s.shared (f s.shared) ∧
      t = ⟨f s.shared, some ⟨c, s₀, k s.shared⟩⟩) ∨
    (∃ c s₀ r, e = .leave ∧ s.returning = some (c, s₀, r) ∧ post c s₀ r s.shared ∧
      t = ⟨s.shared, none⟩) ∨
    (∃ v u, e = .env v ∧ m.env s.shared v = some u ∧ t = ⟨u, s.holder⟩) := by
  obtain ⟨sh, holder⟩ := s
  cases e with
  | enter c =>
    cases holder with
    | none => exact .inl ⟨c, rfl, rfl, hs, (Option.some.inj h).symm⟩
    | some p => cases h
  | act =>
    rcases holder with _ | ⟨c, s₀, _ | ⟨f, k⟩⟩
    · cases h
    · cases h
    · exact .inr (.inl ⟨c, s₀, f, k, rfl, rfl, (hs sh .refl).1, (Option.some.inj h).symm⟩)
  | leave =>
    rcases holder with _ | ⟨c, s₀, r | ⟨f, k⟩⟩
    · cases h
    · exact .inr (.inr (.inl ⟨c, s₀, r, rfl, rfl, hs sh .refl, (Option.some.inj h).symm⟩))
    · cases h
  | env v =>
    obtain ⟨u, hu, htu⟩ := Option.map_eq_some_iff.mp h
    exact .inr (.inr (.inr ⟨v, u, rfl, hu, htu.symm⟩))

section
variable (hI : ∀ s e t, I s → m.env s e = some t → M t → I t)
  (hbody : ∀ c s, I s → M s → (m.contract M guar hg c).Safe (post c s) (m.body c) s)
  (hpost : ∀ c s₀ r s, post c s₀ r s → I s)
include hI hbody hpost

/-- **Monitor rule**: when every call is safe from the invariant and returns to it, every step
through a moment of `M` keeps `Good`. -/
theorem good_step {s t : State σ κ ρ} {e : Event κ ε} (hs : m.Good M I guar hg post s)
    (hM : M s.shared) (h : m.step s e = some t) (hMt : M t.shared) :
    m.Good M I guar hg post t := by
  rcases step_cases hs h with ⟨c, rfl, hh, hIs, rfl⟩ | ⟨c, s₀, f, k, rfl, hh, -, rfl⟩ |
    ⟨c, s₀, r, rfl, hh, hp, rfl⟩ | ⟨v, u, rfl, hu, rfl⟩
  · exact hbody c s.shared hIs hM
  · simp only [Good, hh] at hs
    exact (hs s.shared .refl).2 hMt
  · exact hpost c s₀ r s.shared hp
  · unfold Good at hs ⊢
    rcases hsh : s.holder with _ | r
    · simp only [hsh] at hs
      exact hI _ _ _ hs hu hMt
    · simp only [hsh] at hs
      exact hs.moves (.single ⟨⟨v, hu⟩, hMt⟩)

/-- the monitor rule for a whole run through moments of `M` -/
theorem good_exec {s t : State σ κ ρ} {es : List (Event κ ε)} (hs : m.Good M I guar hg post s)
    (hM : Throughout m.step (fun s => M s.shared) s es) (h : exec m.step s es = some t) :
    m.Good M I guar hg post t ∧ M t.shared :=
  exec_guarded (I := fun s => m.Good M I guar hg post s ∧ M s.shared)
    (fun _ _ t hs hC h => ⟨good_step hI hbody hpost hs.1 hs.2 h (hC t h), hC t h⟩)
    ⟨hs, hM.1⟩ hM.2 h

end
end
end Monitor
end Interference
