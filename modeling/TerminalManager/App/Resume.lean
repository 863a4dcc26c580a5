import TerminalManager.App.Tabs
import TerminalManager.Lib.Transition

/-!
# Resuming an agent

A pane with a recovery record either waits for the user to resume its conversation, or confirms a resume that was
launched.  The phase of the record is durable; the two tables of the run say the same of the pane.

* `spawnPlan`                 what a spawn of the pane falls back to;
* `prepareAgentResumeLaunch`, `applyAgentSpawnOutcome`, `recordAgentSpawnFailure`, `markAgentResumeStreamEnded`,
  `observeSession`            the operations;
* `Consistent`                the tables agree with the phase;
* `resumes_consistent`        a run is consistent throughout exactly when no plan that waits for the user is spawned
                              over an attempt.
-/

namespace TerminalManager.App
open Transition

inductive CandidateConfidence
  | exact | discovered
deriving DecidableEq, Repr

inductive SpawnIntent
  | ordinary | pendingManual | autoResume
deriving DecidableEq, Repr

/-- the candidate with its confidence -/
structure AgentSpawnPlan where
  candidate : Option (ResumeCandidate × CandidateConfidence)
  intent : SpawnIntent
deriving DecidableEq, Repr

/-- the plan for a pane with a record, of the candidate that was found for it -/
def spawnPlan (candidate : Option (ResumeCandidate × CandidateConfidence)) (autoResume : Bool) : AgentSpawnPlan :=
  match candidate with
  | some candidate => ⟨some candidate, if autoResume then .autoResume else .pendingManual⟩
  | none => ⟨none, .ordinary⟩

inductive ReconcileOutcome
  | cachedAttached | ensuredExisting | spawned
deriving DecidableEq, Repr

/-- `std::io::ErrorKind`, as far as it is told apart -/
inductive ErrorKind
  | notConnected | notFound | permissionDenied | invalidInput | alreadyExists | unsupported | other
deriving DecidableEq, Repr

def agentSpawnFailureIsAuthoritative : ErrorKind → Bool
  | .other => false
  | _ => true

/-- an observation of a session by a hook -/
structure Observation where
  agent : AgentKind
  sessionId : String
  /-- the directory, normalized -/
  cwd : String
  isAbsolute : Bool
  now : Nat
deriving DecidableEq, Repr

namespace PaneTables

def launchPhase (t : PaneTables) (id : PaneId) : Option AgentLaunchPhase := (t.agentRestarts.get id).map (·.launchPhase)

/-- the record changed, when there is one -/
def modifyRestart (t : PaneTables) (id : PaneId) (f : AgentRestart → AgentRestart) : PaneTables :=
  match t.agentRestarts.get id with
  | some record => { t with agentRestarts := t.agentRestarts.insert id (f record) }
  | none => t

def setPhase (t : PaneTables) (id : PaneId) (phase : AgentLaunchPhase) : PaneTables :=
  t.modifyRestart id ({ · with launchPhase := phase })

/-- waiting for the user, and not confirming -/
def offerResume (t : PaneTables) (id : PaneId) (candidate : ResumeCandidate) : PaneTables :=
  { t with
    pendingAgentResumes := t.pendingAgentResumes.insert id candidate
    agentResumeAttempts := t.agentResumeAttempts.remove id }

/-- confirming, and not waiting -/
def trackResume (t : PaneTables) (id : PaneId) (candidate : ResumeCandidate) (generation : Option Nat) : PaneTables :=
  { t with
    pendingAgentResumes := t.pendingAgentResumes.remove id
    agentResumeAttempts := t.agentResumeAttempts.insert id ⟨candidate, generation.getD 0⟩ }

/-- neither waiting nor confirming -/
def settleResume (t : PaneTables) (id : PaneId) : PaneTables :=
  { t with
    pendingAgentResumes := t.pendingAgentResumes.remove id
    agentResumeAttempts := t.agentResumeAttempts.remove id }

/-- `saved` is whether the layout could be persisted -/
def prepareAgentResumeLaunch (t : PaneTables) (id : PaneId) (plan : AgentSpawnPlan) (saved : Bool) : Bool × PaneTables :=
  if plan.intent ≠ .autoResume then
    (true, t)
  else
    match plan.candidate, t.launchPhase id with
    | some (candidate, _), some previous =>
      let t := { t with agentResumePreflights := t.agentResumePreflights.insert id previous }.settleResume id
      if previous = .confirmingResume then
        (true, t)
      else
        let t := t.setPhase id .confirmingResume
        if saved then
          (true, t)
        else
          let t := t.setPhase id previous
          let t := { t with agentResumePreflights := t.agentResumePreflights.remove id }
          (false,
            if previous = .pendingManual then
              { t with pendingAgentResumes := t.pendingAgentResumes.insert id candidate }
            else
              t)
    | _, _ => (false, t)

/-- the daemon kept its session: the phase of the record decides -/
def applyAttached (t : PaneTables) (id : PaneId) (plan : AgentSpawnPlan) (outcome : Option ReconcileOutcome)
    (preflight : Option AgentLaunchPhase) (generation : Option Nat) : PaneTables :=
  let t :=
    match outcome, preflight with
    | some .cachedAttached, some previous => t.setPhase id previous
    | _, _ => t
  match (t.launchPhase id).getD .confirmed, plan.candidate with
  | .pendingManual, some (candidate, _) => t.offerResume id candidate
  | .confirmingResume, some (candidate, _) => t.trackResume id candidate generation
  | _, _ => t.settleResume id

/-- a candidate that was discovered is recorded -/
def recordDiscovered (t : PaneTables) (id : PaneId) (candidate : ResumeCandidate) (now : Nat) : PaneTables :=
  t.modifyRestart id fun record =>
    if record.sessionId = some candidate.sessionId then
      record
    else
      { record with sessionId := some candidate.sessionId, cwd := candidate.cwd, observedAtUnixMs := now }

/-- the daemon spawned the plan; a plan that waits for the user leaves the attempts as they are -/
def applySpawned (t : PaneTables) (id : PaneId) (plan : AgentSpawnPlan) (generation : Option Nat) (now : Nat) :
    PaneTables :=
  match plan.candidate with
  | none => { t with pendingAgentResumes := t.pendingAgentResumes.remove id }
  | some (candidate, confidence) =>
    let t := if confidence = .discovered then t.recordDiscovered id candidate now else t
    match plan.intent with
    | .pendingManual =>
      { t with pendingAgentResumes := t.pendingAgentResumes.insert id candidate }.setPhase id .pendingManual
    | .autoResume => (t.trackResume id candidate generation).setPhase id .confirmingResume
    | .ordinary => t

def applyAgentSpawnOutcome (t : PaneTables) (id : PaneId) (plan : AgentSpawnPlan) (attached : Bool)
    (outcome : Option ReconcileOutcome) (generation : Option Nat) (now : Nat) : PaneTables :=
  let preflight := t.agentResumePreflights.get id
  let t := { t with agentResumePreflights := t.agentResumePreflights.remove id }
  if attached then t.applyAttached id plan outcome preflight generation else t.applySpawned id plan generation now

def recordAgentSpawnFailure (t : PaneTables) (id : PaneId) (plan : AgentSpawnPlan) (error : ErrorKind) : PaneTables :=
  match plan.candidate with
  | none => t
  | some (candidate, _) =>
    let t := { t with agentResumePreflights := t.agentResumePreflights.remove id }
    if plan.intent ≠ .autoResume ∨ agentSpawnFailureIsAuthoritative error then
      (t.offerResume id candidate).setPhase id .pendingManual
    else
      (t.settleResume id).setPhase id .confirmingResume

/-- only the reader of the attempt ends it -/
def markAgentResumeStreamEnded (t : PaneTables) (id : PaneId) (generation : Nat) : PaneTables :=
  match t.agentResumeAttempts.get id with
  | none => t
  | some attempt =>
    if attempt.readerGeneration ≠ generation then
      t
    else
      (t.offerResume id attempt.candidate).setPhase id .pendingManual

def toAsciiLowercase (s : String) : String := String.ofList (s.toList.map Char.toLower)

/-- a session of the same agent and id confirms the launch in flight, another one replaces the record -/
def observedRecord (existing : Option AgentRestart) (o : Observation) : AgentRestart :=
  let normalizedId := toAsciiLowercase o.sessionId
  match existing.filter fun record => record.agent = o.agent ∧ record.sessionId = some normalizedId with
  | some record => { record with launchPhase := .confirmed, observedAtUnixMs := o.now }
  | none =>
    { agent := o.agent
      cwd := o.cwd
      resumeMode :=
        ((existing.filter fun record => record.agent = o.agent ∧ record.sessionId = none).map (·.resumeMode)).getD
          .interactive
      sessionId := some normalizedId
      observedAtUnixMs := o.now
      managed := (existing.map (·.managed)).getD false
      launchPhase := .confirmed }

def observeSession (t : PaneTables) (id : PaneId) (o : Observation) : PaneTables :=
  if !isValidSessionId o.sessionId || !o.isAbsolute then
    t
  else
    { t with agentRestarts := t.agentRestarts.insert id (observedRecord (t.agentRestarts.get id) o) }.settleResume id

end PaneTables

/-- an operation on the pane; a plan is given by the candidate that was found and by the setting -/
inductive ResumeOp
  | prepare (found : Option (ResumeCandidate × CandidateConfidence)) (autoResume saved : Bool)
  | outcome (found : Option (ResumeCandidate × CandidateConfidence)) (autoResume attached : Bool)
    (outcome : Option ReconcileOutcome) (generation : Option Nat) (now : Nat)
  | failure (found : Option (ResumeCandidate × CandidateConfidence)) (autoResume : Bool) (error : ErrorKind)
  | streamEnded (generation : Nat)
  | observe (o : Observation)

namespace PaneTables

def resume (id : PaneId) (t : PaneTables) : ResumeOp → Option PaneTables
  | .prepare found autoResume saved => some (t.prepareAgentResumeLaunch id (spawnPlan found autoResume) saved).2
  | .outcome found autoResume attached outcome generation now =>
    some (t.applyAgentSpawnOutcome id (spawnPlan found autoResume) attached outcome generation now)
  | .failure found autoResume error => some (t.recordAgentSpawnFailure id (spawnPlan found autoResume) error)
  | .streamEnded generation => some (t.markAgentResumeStreamEnded id generation)
  | .observe o => some (t.observeSession id o)

/-- the pane has a record, and the tables agree with its phase -/
structure Consistent (id : PaneId) (t : PaneTables) : Prop where
  recorded : (t.launchPhase id).isSome = true
  pending : t.pendingAgentResumes.contains id = true → t.launchPhase id = some .pendingManual
  attempt : t.agentResumeAttempts.contains id = true → t.launchPhase id = some .confirmingResume
  apart : ¬ (t.pendingAgentResumes.contains id = true ∧ t.agentResumeAttempts.contains id = true)

/-- a launch that is not prepared leaves the phase, and a pane that waits still waits -/
def PrepareKeeps (id : PaneId) (t : PaneTables) : ResumeOp → Prop
  | .prepare found autoResume saved =>
    let r := t.prepareAgentResumeLaunch id (spawnPlan found autoResume) saved
    r.1 = false → r.2.launchPhase id = t.launchPhase id ∧
      (t.pendingAgentResumes.contains id = true → r.2.pendingAgentResumes.contains id = true)
  | _ => True

/-- a plan that waits for the user is spawned over no attempt -/
def SpawnsAlone (id : PaneId) (t : PaneTables) : ResumeOp → Prop
  | .outcome found autoResume attached _ _ _ =>
    found.isSome = true → autoResume = false → attached = false → t.agentResumeAttempts.contains id = false
  | _ => True

variable {id : PaneId} {t : PaneTables}

/-! ## what the helpers do to the phase and to the tables -/

lemma launchPhase_modifyRestart (f : AgentRestart → AgentRestart) :
    (t.modifyRestart id f).launchPhase id = (t.agentRestarts.get id).map fun record => (f record).launchPhase := by
  unfold modifyRestart launchPhase
  cases hrecord : t.agentRestarts.get id with
  | none =>
    dsimp only
    rw [hrecord]
    rfl
  | some record =>
    dsimp only
    rw [Table.get_insert_self]
    rfl

@[simp] lemma pending_modifyRestart (f : AgentRestart → AgentRestart) :
    (t.modifyRestart id f).pendingAgentResumes = t.pendingAgentResumes := by
  unfold modifyRestart
  split <;> rfl

@[simp] lemma attempts_modifyRestart (f : AgentRestart → AgentRestart) :
    (t.modifyRestart id f).agentResumeAttempts = t.agentResumeAttempts := by
  unfold modifyRestart
  split <;> rfl

/-- a pane with a record gets the phase -/
lemma launchPhase_setPhase (h : (t.launchPhase id).isSome = true) (phase : AgentLaunchPhase) :
    (t.setPhase id phase).launchPhase id = some phase := by
  unfold setPhase
  rw [launchPhase_modifyRestart]
  unfold launchPhase at h
  cases hrecord : t.agentRestarts.get id with
  | none =>
    rw [hrecord] at h
    cases h
  | some record => rfl

@[simp] lemma pending_setPhase (phase : AgentLaunchPhase) :
    (t.setPhase id phase).pendingAgentResumes = t.pendingAgentResumes := pending_modifyRestart _

@[simp] lemma attempts_setPhase (phase : AgentLaunchPhase) :
    (t.setPhase id phase).agentResumeAttempts = t.agentResumeAttempts := attempts_modifyRestart _

/-- the phase stays when a discovered candidate is recorded -/
lemma launchPhase_recordDiscovered (candidate : ResumeCandidate) (now : Nat) :
    (t.recordDiscovered id candidate now).launchPhase id = t.launchPhase id := by
  unfold recordDiscovered
  rw [launchPhase_modifyRestart]
  unfold launchPhase
  congr 1
  funext record
  split_ifs <;> rfl

lemma consistent_offered (hphase : t.launchPhase id = some .pendingManual)
    (h : t.agentResumeAttempts.contains id = false) : t.Consistent id where
  recorded := by rw [hphase]; rfl
  pending _ := hphase
  attempt ha := by rw [h] at ha; cases ha
  apart hboth := by rw [h] at hboth; cases hboth.2

lemma consistent_tracked (hphase : t.launchPhase id = some .confirmingResume)
    (h : t.pendingAgentResumes.contains id = false) : t.Consistent id where
  recorded := by rw [hphase]; rfl
  pending hp := by rw [h] at hp; cases hp
  attempt _ := hphase
  apart hboth := by rw [h] at hboth; cases hboth.1

lemma consistent_settled (hphase : (t.launchPhase id).isSome = true)
    (hpending : t.pendingAgentResumes.contains id = false) (hattempt : t.agentResumeAttempts.contains id = false) :
    t.Consistent id where
  recorded := hphase
  pending hp := by rw [hpending] at hp; cases hp
  attempt ha := by rw [hattempt] at ha; cases ha
  apart hboth := by rw [hpending] at hboth; cases hboth.1

/-- in a consistent state the phase of a waiting pane is its own -/
lemma Consistent.of_same {u : PaneTables} (h : t.Consistent id) (hphase : u.launchPhase id = t.launchPhase id)
    (hpending : u.pendingAgentResumes.contains id = true → t.pendingAgentResumes.contains id = true)
    (hattempt : u.agentResumeAttempts.contains id = true → t.agentResumeAttempts.contains id = true) :
    u.Consistent id where
  recorded := hphase ▸ h.recorded
  pending hp := hphase ▸ h.pending (hpending hp)
  attempt ha := hphase ▸ h.attempt (hattempt ha)
  apart hboth := h.apart ⟨hpending hboth.1, hattempt hboth.2⟩

/-! ## the operations -/

@[simp] lemma pending_settleResume : (t.settleResume id).pendingAgentResumes.contains id = false := by
  simp [settleResume]

@[simp] lemma attempts_settleResume : (t.settleResume id).agentResumeAttempts.contains id = false := by
  simp [settleResume]

@[simp] lemma attempts_offerResume (candidate : ResumeCandidate) :
    (t.offerResume id candidate).agentResumeAttempts.contains id = false := by
  simp [offerResume]

@[simp] lemma pending_trackResume (candidate : ResumeCandidate) (generation : Option Nat) :
    (t.trackResume id candidate generation).pendingAgentResumes.contains id = false := by
  simp [trackResume]

/-- a launch that is not saved goes back to the phase before, and offers the resume again if it was offered -/
lemma Consistent.prepare (h : t.Consistent id) (plan : AgentSpawnPlan) (saved : Bool) :
    (t.prepareAgentResumeLaunch id plan saved).2.Consistent id ∧
      ((t.prepareAgentResumeLaunch id plan saved).1 = false →
        (t.prepareAgentResumeLaunch id plan saved).2.launchPhase id = t.launchPhase id ∧
          (t.pendingAgentResumes.contains id = true →
            (t.prepareAgentResumeLaunch id plan saved).2.pendingAgentResumes.contains id = true)) := by
  unfold prepareAgentResumeLaunch
  by_cases hintent : plan.intent ≠ .autoResume
  · rw [if_pos hintent]
    exact ⟨h, fun hfalse => by (cases hfalse)⟩
  · rw [if_neg hintent]
    cases plan.candidate with
    | none => exact ⟨h, fun _ => ⟨rfl, fun hp => hp⟩⟩
    | some found =>
      obtain ⟨candidate, confidence⟩ := found
      obtain ⟨previous, hprevious⟩ := Option.isSome_iff_exists.mp h.recorded
      rw [hprevious]
      dsimp only
      generalize hu :
        ({ t with agentResumePreflights := t.agentResumePreflights.insert id previous }.settleResume id) = u
      have hphase : u.launchPhase id = some previous := by
        rw [← hu]
        exact hprevious
      have hrecorded : (u.launchPhase id).isSome = true := by
        rw [hphase]
        rfl
      have hpending : u.pendingAgentResumes.contains id = false := hu ▸ pending_settleResume
      have hattempt : u.agentResumeAttempts.contains id = false := hu ▸ attempts_settleResume
      by_cases hconfirming : previous = .confirmingResume
      · rw [if_pos hconfirming]
        exact ⟨consistent_settled hrecorded hpending hattempt, fun hfalse => by (cases hfalse)⟩
      · rw [if_neg hconfirming]
        have hmarked := launchPhase_setPhase hrecorded .confirmingResume
        cases saved with
        | true =>
          refine ⟨consistent_tracked hmarked ?_, fun hfalse => by (cases hfalse)⟩
          show (u.setPhase id .confirmingResume).pendingAgentResumes.contains id = false
          rw [pending_setPhase, hpending]
        | false =>
          have hback : ((u.setPhase id .confirmingResume).setPhase id previous).launchPhase id = some previous :=
            launchPhase_setPhase (by rw [hmarked]; rfl) previous
          rw [if_neg Bool.false_ne_true]
          dsimp only
          by_cases hmanual : previous = .pendingManual
          · rw [if_pos hmanual]
            refine ⟨consistent_offered ?_ ?_, fun _ => ⟨hback, fun _ => ?_⟩⟩
            · rw [← hmanual]
              exact hback
            · show ((u.setPhase id _).setPhase id previous).agentResumeAttempts.contains id = false
              rw [attempts_setPhase, attempts_setPhase, hattempt]
            · simp
          · rw [if_neg hmanual]
            refine ⟨consistent_settled ?_ ?_ ?_, fun _ => ⟨hback, fun hp => ?_⟩⟩
            · exact Option.isSome_iff_exists.mpr ⟨previous, hback⟩
            · show ((u.setPhase id _).setPhase id previous).pendingAgentResumes.contains id = false
              rw [pending_setPhase, pending_setPhase, hpending]
            · show ((u.setPhase id _).setPhase id previous).agentResumeAttempts.contains id = false
              rw [attempts_setPhase, attempts_setPhase, hattempt]
            · exact absurd (Option.some.inj (hprevious.symm.trans (h.pending hp))) hmanual

/-- an outcome that is attached leaves the tables to the phase of the record -/
lemma consistent_attached (h : (t.launchPhase id).isSome = true) (plan : AgentSpawnPlan)
    (outcome : Option ReconcileOutcome) (preflight : Option AgentLaunchPhase) (generation : Option Nat) :
    (t.applyAttached id plan outcome preflight generation).Consistent id := by
  unfold applyAttached
  have hrestored : (PaneTables.launchPhase (match outcome, preflight with
      | some .cachedAttached, some previous => t.setPhase id previous
      | _, _ => t) id).isSome = true := by
    split
    · rw [launchPhase_setPhase h]
      rfl
    · exact h
  generalize (match outcome, preflight with
    | some .cachedAttached, some previous => t.setPhase id previous
    | _, _ => t) = u at hrestored
  obtain ⟨phase, hphase⟩ := Option.isSome_iff_exists.mp hrestored
  dsimp only
  rw [hphase]
  have hsettled : (u.settleResume id).Consistent id :=
    consistent_settled hrestored pending_settleResume attempts_settleResume
  cases plan.candidate with
  | none => cases phase <;> exact hsettled
  | some found =>
    cases phase with
    | confirmed => exact hsettled
    | pendingManual => exact consistent_offered hphase (attempts_offerResume _)
    | confirmingResume => exact consistent_tracked hphase (pending_trackResume _ _)

/-- a spawned plan that waits for the user is consistent exactly when there was no attempt -/
lemma Consistent.spawned (h : t.Consistent id) (found : Option (ResumeCandidate × CandidateConfidence))
    (autoResume : Bool) (generation : Option Nat) (now : Nat) :
    (t.applySpawned id (spawnPlan found autoResume) generation now).Consistent id ↔
      (found.isSome = true → autoResume = false → t.agentResumeAttempts.contains id = false) := by
  unfold applySpawned spawnPlan
  cases found with
  | none =>
    refine iff_of_true (h.of_same rfl ?_ fun ha => ha) fun hnone => by (cases hnone)
    intro hp
    simp at hp
  | some found =>
    obtain ⟨candidate, confidence⟩ := found
    dsimp only
    generalize hu : (if confidence = .discovered then t.recordDiscovered id candidate now else t) = u
    have hphase : u.launchPhase id = t.launchPhase id := by
      rw [← hu]
      split_ifs
      · exact launchPhase_recordDiscovered candidate now
      · rfl
    have hattempts : u.agentResumeAttempts = t.agentResumeAttempts := by
      rw [← hu]
      split_ifs
      · exact attempts_modifyRestart _
      · rfl
    have hrecorded : (u.launchPhase id).isSome = true := hphase ▸ h.recorded
    cases autoResume with
    | true =>
      rw [if_pos rfl]
      dsimp only
      refine iff_of_true (consistent_tracked (launchPhase_setPhase (by exact hrecorded) _) ?_) fun _ hfalse => by (cases hfalse)
      show ((u.trackResume id candidate generation).setPhase id _).pendingAgentResumes.contains id = false
      rw [pending_setPhase, pending_trackResume]
    | false =>
      rw [if_neg Bool.false_ne_true]
      dsimp only
      have hmanual : PaneTables.launchPhase (setPhase
          { u with pendingAgentResumes := u.pendingAgentResumes.insert id candidate } id .pendingManual) id =
            some .pendingManual := launchPhase_setPhase (by exact hrecorded) _
      constructor
      · intro hconsistent _ _
        by_contra hattempt
        have hconfirming := hconsistent.attempt (by
          rw [attempts_setPhase]
          exact hattempts ▸ Bool.eq_true_of_not_eq_false hattempt)
        rw [hmanual] at hconfirming
        cases hconfirming
      · intro hnone
        refine consistent_offered hmanual ?_
        rw [attempts_setPhase]
        exact hattempts ▸ hnone rfl rfl

lemma Consistent.failure (h : t.Consistent id) (plan : AgentSpawnPlan) (error : ErrorKind) :
    (t.recordAgentSpawnFailure id plan error).Consistent id := by
  unfold recordAgentSpawnFailure
  cases plan.candidate with
  | none => exact h
  | some found =>
    dsimp only
    split_ifs
    · exact consistent_offered (launchPhase_setPhase (by exact h.recorded) _) (by rw [attempts_setPhase, attempts_offerResume])
    · exact consistent_tracked (launchPhase_setPhase (by exact h.recorded) _) (by rw [pending_setPhase, pending_settleResume])

lemma Consistent.streamEnded (h : t.Consistent id) (generation : Nat) :
    (t.markAgentResumeStreamEnded id generation).Consistent id := by
  unfold markAgentResumeStreamEnded
  cases t.agentResumeAttempts.get id with
  | none => exact h
  | some attempt =>
    dsimp only
    split_ifs
    · exact h
    · exact consistent_offered (launchPhase_setPhase (by exact h.recorded) _) (by rw [attempts_setPhase, attempts_offerResume])

lemma Consistent.observe (h : t.Consistent id) (o : Observation) : (t.observeSession id o).Consistent id := by
  unfold observeSession
  split_ifs
  · exact h
  · refine consistent_settled ?_ pending_settleResume attempts_settleResume
    show Option.isSome (Option.map _ ((t.agentRestarts.insert id _).get id)) = true
    rw [Table.get_insert_self]
    rfl

/-- one operation is consistent exactly when it spawns no waiting plan over an attempt -/
lemma Consistent.resume {u : PaneTables} (h : t.Consistent id) {op : ResumeOp} (hop : t.resume id op = some u) :
    u.Consistent id ↔ t.SpawnsAlone id op := by
  cases op with
  | prepare found autoResume saved =>
    rw [← Option.some.inj hop]
    exact iff_of_true (h.prepare _ saved).1 trivial
  | outcome found autoResume attached outcome generation now =>
    rw [← Option.some.inj hop]
    unfold applyAgentSpawnOutcome
    have hpreflight : PaneTables.Consistent id { t with agentResumePreflights := t.agentResumePreflights.remove id } :=
      ⟨h.recorded, h.pending, h.attempt, h.apart⟩
    cases attached with
    | true =>
      exact iff_of_true (consistent_attached hpreflight.recorded _ _ _ _) fun _ _ hfalse => by (cases hfalse)
    | false =>
      refine (hpreflight.spawned found autoResume generation now).trans ?_
      exact ⟨fun hnone hfound hauto _ => hnone hfound hauto, fun hnone hfound hauto => hnone hfound hauto rfl⟩
  | failure found autoResume error =>
    rw [← Option.some.inj hop]
    exact iff_of_true (h.failure _ error) trivial
  | streamEnded generation =>
    rw [← Option.some.inj hop]
    exact iff_of_true (h.streamEnded generation) trivial
  | observe o =>
    rw [← Option.some.inj hop]
    exact iff_of_true (h.observe o) trivial

lemma Consistent.prepareKeeps (h : t.Consistent id) (op : ResumeOp) : t.PrepareKeeps id op := by
  cases op with
  | prepare found autoResume saved => exact (h.prepare _ saved).2
  | _ => trivial

end PaneTables

/-- **Main result.**  A run is consistent throughout, and keeps what a launch that is not prepared must keep, exactly
when no plan that waits for the user is spawned over an attempt. -/
theorem resumes_consistent {id : PaneId} {t : PaneTables} (h : t.Consistent id) (ops : List ResumeOp) :
    (Throughout (PaneTables.resume id) (PaneTables.Consistent id) t ops ∧
        Along (PaneTables.resume id) (PaneTables.PrepareKeeps id) t ops) ↔
      Along (PaneTables.resume id) (PaneTables.SpawnsAlone id) t ops := by
  have hstep (t : PaneTables) (op : ResumeOp) (ht : t.Consistent id) :
      (∀ u ∈ t.resume id op, u.Consistent id) ↔ t.SpawnsAlone id op := by
    obtain ⟨u, hu⟩ : ∃ u, t.resume id op = some u := by
      cases op <;> exact ⟨_, rfl⟩
    rw [hu]
    simp only [Option.mem_some_iff, forall_eq']
    exact ht.resume hu
  have hiff : Throughout (PaneTables.resume id) (PaneTables.Consistent id) t ops ↔
      Along (PaneTables.resume id) (PaneTables.SpawnsAlone id) t ops :=
    throughout_iff (I := fun _ => True) (fun _ _ _ _ _ => trivial) (fun t op _ ht => hstep t op ht) trivial h
  constructor
  · exact fun hrun => hiff.mp hrun.1
  · intro hrun
    refine ⟨hiff.mpr hrun, along_of_along (I := PaneTables.Consistent id) ?_ ?_ h hrun⟩
    · exact fun t op u ht hop hu => (ht.resume hu).mpr hop
    · exact fun t op ht _ => ht.prepareKeeps op

/-- a pane whose conversation was confirmed -/
def recorded : PaneTables :=
  { PaneTables.new with
    agentRestarts := Table.insert ∅ 1 ⟨.claude, "/work", .interactive, some "conversation", 0, true, .confirmed⟩ }

/-- the conversation, found exactly -/
def foundExact : Option (ResumeCandidate × CandidateConfidence) :=
  some (⟨.claude, "/work", .interactive, "conversation"⟩, .exact)

lemma recorded_consistent : recorded.Consistent 1 := PaneTables.consistent_settled rfl rfl rfl

/-- a resume is launched, and after the setting is switched off the pane is spawned once more -/
def switchedOff : List ResumeOp :=
  [.prepare foundExact true true, .outcome foundExact true false (some .spawned) (some 7) 0, .prepare foundExact false true,
    .outcome foundExact false false (some .spawned) (some 8) 0]

/-- the pane waits and confirms at once -/
theorem switchedOff_both : ∃ t, exec (PaneTables.resume 1) recorded switchedOff = some t ∧
    t.pendingAgentResumes.contains 1 = true ∧ t.agentResumeAttempts.contains 1 = true ∧
    t.launchPhase 1 = some .pendingManual := by
  refine ⟨_, rfl, ?_⟩
  decide

/-- a resume is launched and its reader ends -/
def ended : List ResumeOp :=
  [.prepare foundExact true true, .outcome foundExact true false (some .spawned) (some 7) 0, .streamEnded 7]

theorem resumes_consistent_ended :
    (Throughout (PaneTables.resume 1) (PaneTables.Consistent 1) recorded ended ∧
        Along (PaneTables.resume 1) (PaneTables.PrepareKeeps 1) recorded ended) ↔
      Along (PaneTables.resume 1) (PaneTables.SpawnsAlone 1) recorded ended :=
  resumes_consistent recorded_consistent _

end TerminalManager.App
