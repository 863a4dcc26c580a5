import TerminalManager.Updater.State

/-!
# One worker, and no install that is not verified

The phase is all that keeps a second worker out.  Every call that starts one finds the phase not busy, and every
worker in flight keeps it busy until it takes the lock for the last time.

* `Flight`       at most one worker is in flight, and the phase is its own;
* `Orderly`      what a step may start and launch;
* `one_worker`   every run is orderly, and busy while a worker is in flight.
-/

namespace TerminalManager.Update
open Transition

section
variable {V : Type} [LT V] [DecidableLT V] (current : V)

/-- the asset is the installer of a newer release and carries a digest, and this copy is an installed one -/
def Offered (u : UpdateState V) (asset : InstallerAsset) : Prop :=
  ∃ release, u.newerRelease current = some release ∧ release.installer = some asset ∧
    asset.sha256.isSome = true ∧ u.isInstalledCopy = true

/-- at most one worker is in flight, and the phase is its own -/
inductive Flight (u : UpdateState V) : List Worker → Prop
  | none : Flight u []
  | check {source : CheckSource} (h : u.phase = .checking) : Flight u [.check source]
  | download {asset : InstallerAsset} {received total : Nat} (h : u.phase = .downloading received total)
    (hoffered : Offered current u asset) : Flight u [.download asset]

variable {current}

lemma Flight.busy {u : UpdateState V} {workers : List Worker} (h : Flight current u workers) (hne : workers ≠ []) :
    u.busy = true := by
  unfold UpdateState.busy
  cases h with
  | none => exact absurd rfl hne
  | check h => rw [h]
  | download h _ => rw [h]

lemma Flight.of_not_busy {u : UpdateState V} {workers : List Worker} (h : Flight current u workers)
    (hbusy : ¬ u.busy = true) : workers = [] := by
  by_contra hne
  exact hbusy (h.busy hne)

/-- when the worker that is in flight ends, none is -/
lemma Flight.eraseIdx {u : UpdateState V} {workers : List Worker} (h : Flight current u workers) {i : Nat} {w : Worker}
    (hw : workers[i]? = some w) : workers = [w] ∧ workers.eraseIdx i = [] := by
  cases h with
  | none => cases hw
  | check h =>
    cases i with
    | zero => exact ⟨by rw [Option.some.inj hw], rfl⟩
    | succ i => cases hw
  | download h hoffered =>
    cases i with
    | zero => exact ⟨by rw [Option.some.inj hw], rfl⟩
    | succ i => cases hw

end

section
variable {V : Type} [LT V] [DecidableLT V] (current : V)

/-- what a step from `u` may do: start a worker when no other is in flight, and launch an installer that was offered,
once, after the layout was saved, in a phase other than installing -/
structure Allowed (u : UpdateState V) (others : List Worker) (actions : List Action) : Prop where
  started : ∀ w, .started w ∈ actions → others = []
  launched : ∀ asset ok, .launched asset ok ∈ actions →
    Offered current u asset ∧ u.phase ≠ .installing ∧ actions = [.savedLayout true, .launched asset ok]

/-- the outcome of a call on `s` that starts at most one worker, when none is in flight -/
structure Starts (s : Updater V) (r : Updater V × List Action) : Prop where
  flight : Flight current r.1.update r.1.workers
  actions : r.2 = [] ∨ (s.workers = [] ∧ ∃ w, r.2 = [.started w])

variable {current} {u : UpdateState V} {others : List Worker} {s : Updater V}

lemma allowed_nil : Allowed current u others [] := ⟨fun w hw => by (cases hw), fun asset ok h => by (cases h)⟩

lemma allowed_saved (ok : Bool) : Allowed current u others [.savedLayout ok] :=
  ⟨fun w hw => by (cases List.mem_singleton.mp hw), fun asset ok h => by (cases List.mem_singleton.mp h)⟩

lemma Starts.allowed {r : Updater V × List Action} (h : Starts current s r) (hothers : s.workers = [] → others = []) :
    Allowed current u others r.2 := by
  rcases h.actions with hr | ⟨hnone, w, hr⟩
  · rw [hr]
    exact allowed_nil
  · rw [hr]
    exact ⟨fun _ _ => hothers hnone, fun asset ok h => by (cases List.mem_singleton.mp h)⟩

lemma starts_nothing (hs : Flight current s.update s.workers) : Starts current s (s, []) := ⟨hs, .inl rfl⟩

lemma starts_failInstall (hnone : s.workers = []) (message : String) : Starts current s (s.failInstall message, []) := by
  refine ⟨?_, .inl rfl⟩
  show Flight current _ s.workers
  rw [hnone]
  exact .none

lemma beginCheck_starts (hs : Flight current s.update s.workers) (source : CheckSource) :
    Starts current s (s.beginCheck source) := by
  unfold Updater.beginCheck Updater.markChecking
  by_cases hbusy : s.update.busy = true
  · rw [if_pos hbusy]
    exact starts_nothing hs
  · have hnone := hs.of_not_busy hbusy
    rw [if_neg hbusy]
    refine ⟨?_, .inr ⟨hnone, _, rfl⟩⟩
    show Flight current _ (s.workers ++ [_])
    rw [hnone]
    exact .check rfl

variable [ToString V]

lemma beginInstall_starts (hs : Flight current s.update s.workers) (dir : Bool) :
    Starts current s (s.beginInstall current dir) := by
  unfold Updater.beginInstall
  by_cases hbusy : s.update.busy = true
  · rw [if_pos hbusy]
    exact starts_nothing hs
  · have hnone := hs.of_not_busy hbusy
    rw [if_neg hbusy]
    cases hnewer : s.update.newerRelease current with
    | none => exact beginCheck_starts hs .install
    | some release =>
      dsimp only
      by_cases hcopy : s.update.isInstalledCopy = true
      · rw [if_neg (by rw [hcopy]; decide)]
        cases hasset : release.installer with
        | none => exact starts_failInstall hnone _
        | some asset =>
          dsimp only
          by_cases hdigest : asset.sha256.isNone = true
          · rw [if_pos hdigest]
            exact starts_failInstall hnone _
          · rw [if_neg hdigest]
            by_cases hdir : dir = true
            · rw [if_neg (by rw [hdir]; decide)]
              refine ⟨?_, .inr ⟨hnone, _, rfl⟩⟩
              show Flight current _ (s.workers ++ [_])
              rw [hnone]
              have hsome : asset.sha256.isSome = true := Option.isSome_iff_ne_none.mpr fun h => by
                rw [h] at hdigest
                exact hdigest rfl
              exact .download rfl ⟨release, hnewer, hasset, hsome, hcopy⟩
            · rw [if_pos (by rw [Bool.eq_false_iff.mpr hdir]; rfl)]
              exact starts_failInstall hnone _
      · rw [if_pos (by rw [Bool.eq_false_iff.mpr hcopy]; rfl)]
        exact starts_nothing hs

omit [ToString V] in
lemma startupCheck_starts (hs : Flight current s.update s.workers) (devProfile feedOverridden : Bool) :
    Starts current s (s.startupCheck devProfile feedOverridden) := by
  unfold Updater.startupCheck
  by_cases hskip : s.startupCheckSkipped devProfile feedOverridden = true
  · rw [if_pos hskip]
    exact starts_nothing hs
  · rw [if_neg hskip]
    exact beginCheck_starts hs .startup

/-- a check that ends leaves none in flight, but for the download that it goes on with -/
lemma applyCheckResult_spec (hnone : s.workers = []) (source : CheckSource) (result : Except String (ReleaseInfo V))
    (now : Nat) (saved dir : Bool) :
    Flight current (s.applyCheckResult current source result now saved dir).1.update
        (s.applyCheckResult current source result now saved dir).1.workers ∧
      Allowed current u [] (s.applyCheckResult current source result now saved dir).2 := by
  have idle (t : Updater V) (ht : t.workers = []) : Flight current t.update t.workers := by
    rw [ht]
    exact .none
  unfold Updater.applyCheckResult
  cases result with
  | error error => exact ⟨idle _ hnone, allowed_nil⟩
  | ok release =>
    dsimp only
    by_cases hnewer : current < release.version
    · rw [if_neg (not_not.mpr hnewer)]
      cases source with
      | startup =>
        dsimp only
        unfold Updater.maybePromptOnStartup
        dsimp only
        split_ifs
        · exact ⟨idle _ hnone, allowed_nil⟩
        · exact ⟨idle _ hnone, allowed_saved saved⟩
      | manual => exact ⟨idle _ hnone, allowed_nil⟩
      | install =>
        have hstarts := beginInstall_starts (idle
          { s with update :=
            { s.update with
              lastCheckedUnixMs := some now, error := none, latest := some release, phase := .available } } hnone) dir
        exact ⟨hstarts.flight, hstarts.allowed fun _ => rfl⟩
    · rw [if_pos hnewer]
      exact ⟨idle _ hnone, allowed_nil⟩

omit [ToString V] in
/-- the hand-off of a download that was offered -/
lemma finishInstallWith_spec (hnone : s.workers = []) {asset : InstallerAsset} (hoffered : Offered current u asset)
    (hphase : u.phase ≠ .installing) (saved : Bool) (launch : Except String Nat) :
    (s.finishInstallWith asset saved launch).1.workers = [] ∧
      Allowed current u others (s.finishInstallWith asset saved launch).2 := by
  have handed (ok : Bool) : Allowed current u others [.savedLayout true, .launched asset ok] := by
    constructor
    · intro w hw
      simp at hw
    · intro asset' ok' h
      simp only [List.mem_cons, reduceCtorEq, Action.launched.injEq, List.not_mem_nil, or_false, false_or] at h
      rw [h.1, h.2]
      exact ⟨hoffered, hphase, rfl⟩
  unfold Updater.finishInstallWith
  cases s.update.installScope with
  | none => exact ⟨hnone, allowed_nil⟩
  | some scope =>
    dsimp only
    cases saved with
    | false => exact ⟨hnone, allowed_saved false⟩
    | true =>
      cases launch with
      | error error => exact ⟨hnone, handed false⟩
      | ok pid => exact ⟨hnone, handed true⟩

end

section
variable {V : Type} [LT V] [DecidableLT V] [ToString V] (current : V)

/-- a step does only what it may -/
def Orderly (s : Updater V) (e : Event V) : Prop :=
  ∀ t actions, s.act current e = some (t, actions) → Allowed current s.update (s.others e) actions

/-- a worker keeps the phase busy -/
def KeptBusy (s : Updater V) : Prop := s.workers ≠ [] → s.update.busy = true

variable {current}

omit [LT V] [DecidableLT V] [ToString V] in
/-- an event of a download finds that worker -/
lemma download_of_match {α : Type} {w : Option Worker} {f : InstallerAsset → α} {a : α}
    (h : (match w with | some (.download asset) => some (f asset) | _ => none) = some a) :
    ∃ asset, w = some (.download asset) ∧ f asset = a := by
  rcases w with - | w
  · cases h
  · cases w with
    | check source => cases h
    | download asset => exact ⟨asset, rfl, Option.some.inj h⟩

omit [LT V] [DecidableLT V] [ToString V] in
lemma check_of_match {α : Type} {w : Option Worker} {f : CheckSource → α} {a : α}
    (h : (match w with | some (.check source) => some (f source) | _ => none) = some a) :
    ∃ source, w = some (.check source) ∧ f source = a := by
  rcases w with - | w
  · cases h
  · cases w with
    | check source => exact ⟨source, rfl, Option.some.inj h⟩
    | download asset => cases h

/-- one event: what is in flight stays in order, and the step does what it may -/
lemma Flight.act {s t : Updater V} (hs : Flight current s.update s.workers) {e : Event V} {actions : List Action}
    (h : s.act current e = some (t, actions)) :
    Flight current t.update t.workers ∧ Allowed current s.update (s.others e) actions := by
  have starts {r : Updater V × List Action} (hr : r = (t, actions)) (hst : Starts current s r) :
      Flight current t.update t.workers ∧ Allowed current s.update s.workers actions := by
    rw [hr] at hst
    exact ⟨hst.flight, hst.allowed fun hnone => hnone⟩
  have quiet {t' : Updater V} (ht : (t', ([] : List Action)) = (t, actions)) (hupdate : t'.update = s.update)
      (hworkers : t'.workers = s.workers) :
      Flight current t.update t.workers ∧ Allowed current s.update s.workers actions := by
    cases ht
    rw [hupdate, hworkers]
    exact ⟨hs, allowed_nil⟩
  cases e with
  | beginCheck source => exact starts (Option.some.inj h) (beginCheck_starts hs source)
  | beginInstall dir => exact starts (Option.some.inj h) (beginInstall_starts hs dir)
  | startupCheck devProfile feedOverridden =>
    exact starts (Option.some.inj h) (startupCheck_starts hs devProfile feedOverridden)
  | checked i result now saved dir =>
    obtain ⟨source, hw, hr⟩ := check_of_match h
    obtain ⟨-, hnone⟩ := hs.eraseIdx hw
    have hspec : Flight current _ _ ∧ Allowed current s.update [] _ :=
      applyCheckResult_spec (s := s.retire i) hnone source result now saved dir
    rw [hr] at hspec
    refine ⟨hspec.1, ?_⟩
    show Allowed current s.update (s.workers.eraseIdx i) actions
    rw [hnone]
    exact hspec.2
  | progress i received total =>
    obtain ⟨asset, hw, hr⟩ := download_of_match h
    cases hr
    obtain ⟨hone, -⟩ := hs.eraseIdx hw
    rw [hone] at hs
    refine ⟨?_, allowed_nil⟩
    unfold Updater.applyDownloadProgress
    cases hs with
    | download hphase hoffered =>
      rw [hphase]
      show Flight current _ s.workers
      rw [hone]
      exact .download rfl hoffered
  | downloadFailed i error =>
    obtain ⟨asset, hw, hr⟩ := download_of_match h
    cases hr
    obtain ⟨-, hnone⟩ := hs.eraseIdx hw
    refine ⟨?_, allowed_nil⟩
    show Flight current _ (s.workers.eraseIdx i)
    rw [hnone]
    exact .none
  | downloaded i saved launch =>
    obtain ⟨asset, hw, hr⟩ := download_of_match h
    obtain ⟨hone, hnone⟩ := hs.eraseIdx hw
    rw [hone] at hs
    cases hs with
    | download hphase hoffered =>
      have hother : s.update.phase ≠ .installing := by
        rw [hphase]
        exact UpdatePhase.noConfusion
      have hspec : _ ∧ Allowed current s.update (s.workers.eraseIdx i) _ :=
        finishInstallWith_spec (s := (s.retire i).recordDownloadCompleted) hnone hoffered hother saved launch
      rw [hr] at hspec
      refine ⟨?_, hspec.2⟩
      rw [hspec.1]
      exact .none
  | showPrompt =>
    refine quiet (Option.some.inj h) ?_ ?_ <;> unfold Updater.showPrompt <;> split_ifs <;> rfl
  | dismissPrompt =>
    refine quiet (Option.some.inj h) ?_ ?_ <;> unfold Updater.dismissPrompt <;> split_ifs <;> rfl
  | toggleStartupCheck saved =>
    cases Option.some.inj h
    exact ⟨hs, allowed_saved saved⟩
  | dialog confirmDialog => exact quiet (Option.some.inj h) rfl rfl

/-- **Main result.**  From a state without a worker every run is orderly, and busy while one is in flight.  A launch
starts from a phase other than installing, so between two of them the phase has left it. -/
theorem one_worker {s : Updater V} (hs : s.workers = []) (es : List (Event V)) :
    Throughout (Updater.step current) KeptBusy s es ∧ Along (Updater.step current) (Orderly current) s es := by
  have hflight : Flight current s.update s.workers := by
    rw [hs]
    exact .none
  have hkeep : ∀ (s : Updater V) e t, Flight current s.update s.workers → True → Updater.step current s e = some t →
      Flight current t.update t.workers := by
    intro s e t hs _ ht
    obtain ⟨r, hr, rfl⟩ := Option.map_eq_some_iff.mp ht
    exact (hs.act hr).1
  have hall : Along (Updater.step current) (fun _ _ => True) s es := Along.of_forall (fun _ _ _ => trivial) s
  constructor
  · exact throughout_of_along hkeep (fun s hs => hs.busy) hflight hall
  · exact along_of_along hkeep (fun s e hs _ t actions h => (hs.act h).2) hflight hall

end

/-- an installed copy of version 4 finds version 5 and installs it -/
def installed : List (Event Nat) :=
  [.beginInstall true, .checked 0 (.ok ⟨5, some ⟨30, some [7]⟩⟩) 1 true true, .progress 0 10 30, .downloaded 0 true (.ok 9)]

theorem one_worker_installed :
    let s : Updater Nat := { update := { installScope := some .currentUser } }
    Throughout (Updater.step 4) KeptBusy s installed ∧ Along (Updater.step 4) (Orderly 4) s installed :=
  one_worker rfl _

/-- the run gets to the installer -/
example : ((exec (Updater.step 4) { update := { installScope := some .currentUser } } installed).map (·.update.phase)) =
    some .installing := by decide

end TerminalManager.Update
