import TerminalManager.Lib.Transition

/-!
# Self-update

A check, a download and the hand-off to the installer.  The calls run under the state lock; the workers take it only
to apply a result.

* `UpdateState`, `Updater`   the update machinery, and with it the workers in flight;
* `beginCheck`, `beginInstall`, `startupCheck`   what starts a worker;
* `applyCheckResult`, `applyDownloadProgress`, `applyDownloadFailed`, `finishInstallWith`   what a worker applies;
* `act`                      one event, with what it did outside of the state.
-/

namespace TerminalManager.Update

inductive CheckSource
  | startup
  | manual
  /-- an install with no release known yet: check, then install -/
  | install
deriving DecidableEq, Repr

inductive UpdatePhase
  | idle
  | checking
  | upToDate
  | available
  | downloading (received total : Nat)
  | verifying
  | installing
  | failed
deriving DecidableEq, Repr

inductive InstallScope
  | currentUser
  | allUsers
deriving DecidableEq, Repr

structure InstallerAsset where
  size : Nat
  sha256 : Option (List UInt8)
deriving DecidableEq, Repr

/-- a release of a version in `V` -/
structure ReleaseInfo (V : Type) where
  version : V
  installer : Option InstallerAsset
deriving DecidableEq, Repr

structure UpdateState (V : Type) where
  phase : UpdatePhase := .idle
  /-- the last release that was fetched, newer or not -/
  latest : Option (ReleaseInfo V) := none
  lastCheckedUnixMs : Option Nat := none
  lastSource : Option CheckSource := none
  promptedVersion : Option String := none
  error : Option String := none
  /-- none when this copy was not set up by the installer -/
  installScope : Option InstallScope := none
deriving DecidableEq, Repr

inductive ConfirmDialog
  | updateAvailable
  | other
deriving DecidableEq, Repr

/-- a thread whose result is not applied yet -/
inductive Worker
  | check (source : CheckSource)
  | download (asset : InstallerAsset)
deriving DecidableEq, Repr

structure Updater (V : Type) where
  update : UpdateState V
  confirmDialog : Option ConfirmDialog := none
  checkUpdatesOnStartup : Bool := true
  workers : List Worker := []
deriving DecidableEq, Repr

/-- what a step does outside of the state, in order -/
inductive Action
  | started (w : Worker)
  | savedLayout (ok : Bool)
  /-- the installer that was downloaded for the asset is launched, or could not be -/
  | launched (asset : InstallerAsset) (ok : Bool)
deriving DecidableEq, Repr

namespace UpdateState
section
variable {V : Type}

def busy (u : UpdateState V) : Bool :=
  match u.phase with
  | .checking | .downloading _ _ | .verifying | .installing => true
  | _ => false

def isInstalledCopy (u : UpdateState V) : Bool := u.installScope.isSome

/-- the release that was fetched when it is newer than the running version -/
def newerRelease [LT V] [DecidableLT V] (current : V) (u : UpdateState V) : Option (ReleaseInfo V) :=
  u.latest.filter fun release => current < release.version

end
end UpdateState

namespace Updater
section
variable {V : Type}

/-- the thread is created -/
def spawn (s : Updater V) (w : Worker) : Updater V × List Action := ({ s with workers := s.workers ++ [w] }, [.started w])

/-- none when a check or a download is running -/
def markChecking (s : Updater V) (source : CheckSource) : Option (Updater V) :=
  if s.update.busy then
    none
  else
    some { s with update := { s.update with phase := .checking, error := none, lastSource := some source } }

def beginCheck (s : Updater V) (source : CheckSource) : Updater V × List Action :=
  match s.markChecking source with
  | none => (s, [])
  | some s => s.spawn (.check source)

def failInstall (s : Updater V) (message : String) : Updater V :=
  { s with update := { s.update with phase := .failed, error := some message } }

def dismissPrompt (s : Updater V) : Updater V :=
  if s.confirmDialog ≠ some .updateAvailable then s else { s with confirmDialog := none }

/-- the layout is saved with the toggle -/
def toggleStartupCheck (s : Updater V) (saved : Bool) : Updater V × List Action :=
  ({ s with checkUpdatesOnStartup := !s.checkUpdatesOnStartup }, [.savedLayout saved])

/-- whether the delayed startup check should not run -/
def startupCheckSkipped (s : Updater V) (devProfile feedOverridden : Bool) : Bool :=
  !s.checkUpdatesOnStartup || (devProfile && !feedOverridden) || s.update.lastCheckedUnixMs.isSome || s.update.busy

/-- the delayed startup check: its own thread becomes the worker -/
def startupCheck (s : Updater V) (devProfile feedOverridden : Bool) : Updater V × List Action :=
  if s.startupCheckSkipped devProfile feedOverridden then (s, []) else s.beginCheck .startup

def applyDownloadProgress (s : Updater V) (received total : Nat) : Updater V :=
  match s.update.phase with
  | .downloading _ _ => { s with update := { s.update with phase := .downloading received total } }
  | _ => s

def applyDownloadFailed (s : Updater V) (error : String) : Updater V :=
  { s with update := { s.update with phase := .failed, error := some error } }

def recordDownloadCompleted (s : Updater V) : Updater V := { s with update := { s.update with phase := .verifying } }

/-- the hand-off for the asset that was downloaded; `launch` is the installer's process or what went wrong -/
def finishInstallWith (s : Updater V) (asset : InstallerAsset) (saved : Bool) (launch : Except String Nat) :
    Updater V × List Action :=
  match s.update.installScope with
  | none =>
    (s.failInstall ("This copy of Terminal Manager was not set up by the installer, so it cannot replace itself. " ++
      "Open the release page to update manually."), [])
  | some _ =>
    let s := { s with update := { s.update with phase := .installing } }
    if !saved then
      (s.failInstall ("Your workspace layout could not be saved, so the update was not started. " ++
        "Check the config directory permissions and try again."), [.savedLayout false])
    else
      match launch with
      | .error error =>
        (s.failInstall ("The installer could not be started (" ++ error ++ "). Nothing was changed."),
          [.savedLayout true, .launched asset false])
      | .ok _ => (s, [.savedLayout true, .launched asset true])

end

section
variable {V : Type} [ToString V]

/-- the offer is made once for each version, and never over another dialog -/
def maybePromptOnStartup (s : Updater V) (release : ReleaseInfo V) (saved : Bool) : Updater V × List Action :=
  let version := toString release.version
  if s.update.promptedVersion = some version ∨ s.confirmDialog.isSome then
    (s, [])
  else
    ({ s with confirmDialog := some .updateAvailable, update := { s.update with promptedVersion := some version } },
      [.savedLayout saved])

variable [LT V] [DecidableLT V] (current : V)

def showPrompt (s : Updater V) : Updater V :=
  if (s.update.newerRelease current).isNone || s.confirmDialog.isSome then
    s
  else
    { s with confirmDialog := some .updateAvailable }

/-- `dir` is whether there is a directory to download into; a copy that is not installed gets the release page -/
def beginInstall (s : Updater V) (dir : Bool) : Updater V × List Action :=
  if s.update.busy then
    (s, [])
  else
    match s.update.newerRelease current with
    | none => s.beginCheck .install
    | some release =>
      if !s.update.isInstalledCopy then
        (s, [])
      else
        match release.installer with
        | none =>
          (s.failInstall ("Release " ++ toString release.version ++
            " has no installer attached. Open the release page to update manually."), [])
        | some asset =>
          if asset.sha256.isNone then
            (s.failInstall ("Release " ++ toString release.version ++
              " does not publish a SHA-256 checksum for its installer, so it will not be installed automatically. " ++
              "Open the release page to update manually."), [])
          else if !dir then
            (s.failInstall "No local data directory is available to download the installer into.", [])
          else
            { s with update := { s.update with phase := .downloading 0 asset.size, error := none } }.spawn
              (.download asset)

/-- a check that an install asked for goes on with the install -/
def applyCheckResult (s : Updater V) (source : CheckSource) (result : Except String (ReleaseInfo V)) (now : Nat)
    (saved dir : Bool) : Updater V × List Action :=
  let s := { s with update := { s.update with lastCheckedUnixMs := some now } }
  match result with
  | .ok release =>
    let s := { s with update := { s.update with error := none, latest := some release } }
    if ¬ current < release.version then
      ({ s with update := { s.update with phase := .upToDate } }, [])
    else
      let s := { s with update := { s.update with phase := .available } }
      match source with
      | .startup => s.maybePromptOnStartup release saved
      | .manual => (s, [])
      | .install => s.beginInstall current dir
  | .error error => ({ s with update := { s.update with phase := .failed, error := some error } }, [])

end
end Updater

/-- a call of the user or of the startup thread, or a worker (by its place) taking the lock -/
inductive Event (V : Type)
  | beginCheck (source : CheckSource)
  | beginInstall (dir : Bool)
  | startupCheck (devProfile feedOverridden : Bool)
  | checked (i : Nat) (result : Except String (ReleaseInfo V)) (now : Nat) (saved dir : Bool)
  | progress (i received total : Nat)
  | downloadFailed (i : Nat) (error : String)
  | downloaded (i : Nat) (saved : Bool) (launch : Except String Nat)
  | showPrompt
  | dismissPrompt
  | toggleStartupCheck (saved : Bool)
  /-- another command opens or closes a dialog -/
  | dialog (confirmDialog : Option ConfirmDialog)

namespace Updater
section
variable {V : Type} [ToString V] [LT V] [DecidableLT V] (current : V)

/-- the worker at `i` applies its result and ends -/
def retire (s : Updater V) (i : Nat) : Updater V := { s with workers := s.workers.eraseIdx i }

/-- one event; none when no such worker is there to take the lock -/
def act (s : Updater V) : Event V → Option (Updater V × List Action)
  | .beginCheck source => some (s.beginCheck source)
  | .beginInstall dir => some (s.beginInstall current dir)
  | .startupCheck devProfile feedOverridden => some (s.startupCheck devProfile feedOverridden)
  | .checked i result now saved dir =>
    match s.workers[i]? with
    | some (.check source) => some ((s.retire i).applyCheckResult current source result now saved dir)
    | _ => none
  | .progress i received total =>
    match s.workers[i]? with
    | some (.download _) => some (s.applyDownloadProgress received total, [])
    | _ => none
  | .downloadFailed i error =>
    match s.workers[i]? with
    | some (.download _) => some ((s.retire i).applyDownloadFailed error, [])
    | _ => none
  | .downloaded i saved launch =>
    match s.workers[i]? with
    | some (.download asset) => some ((s.retire i).recordDownloadCompleted.finishInstallWith asset saved launch)
    | _ => none
  | .showPrompt => some (s.showPrompt current, [])
  | .dismissPrompt => some (s.dismissPrompt, [])
  | .toggleStartupCheck saved => some (s.toggleStartupCheck saved)
  | .dialog confirmDialog => some ({ s with confirmDialog }, [])

def step (s : Updater V) (e : Event V) : Option (Updater V) := (s.act current e).map Prod.fst

/-- the workers in flight besides the one that takes the lock -/
def others (s : Updater V) : Event V → List Worker
  | .checked i _ _ _ _ | .progress i _ _ | .downloadFailed i _ | .downloaded i _ _ => s.workers.eraseIdx i
  | _ => s.workers

end
end Updater
end TerminalManager.Update
