import Mathlib.Logic.Function.Basic
import TerminalManager.Keybinds.Combo
import TerminalManager.Updater.State
import TerminalManager.Updater.Transport

/-!
# The release feed and the download of the installer

The installer is streamed to a file next to its place and moved there once its size and its digest are those of the
feed.  The files are a map from paths to bytes, SHA-256 is any function, and what the network and the disk do is given:
the reads of the body one by one, and what fails on the disk.

* `parseDigest`, `selectInstaller`   what the feed says of the installer;
* `safeAssetName`                    its file name, in the download directory;
* `streamFrom`, `streamToPartial`    the body written and hashed;
* `downloadInstaller`                the download;
* `downloadInstaller_verified`       what is handed over, and what is left behind otherwise.
-/

namespace TerminalManager.Update
open Editor (Line len)
open Keybinds (trim)

/-! ## the feed -/

/-- an asset as the feed has it -/
structure GhAsset where
  name : Line
  browserDownloadUrl : Line
  size : Nat
  digest : Option Line
deriving DecidableEq, Repr

/-- an installer with its name and where it is -/
structure NamedAsset extends InstallerAsset where
  name : Line
  url : Line
deriving DecidableEq, Repr

/-- two characters at a time -/
def hexPairs : Line → Option (List UInt8)
  | [] => some []
  | [_] => none
  | h :: l :: rest => do
    let value ← fromStrRadix16 [h, l]
    let values ← hexPairs rest
    some (UInt8.ofNat value :: values)

/-- `sha256:` and 64 digits -/
def parseDigest (digest : Line) : Option (List UInt8) := do
  let hex ← (trim digest).dropPrefix? "sha256:".toList
  if len hex ≠ 64 ∨ hex.all (fun c => c.toNat < 128) = false then none else hexPairs hex

def lowerAscii (text : Line) : Line := text.map Char.toLower

/-- the installer of the version, given as it is displayed, or any that is not the build for tests -/
def selectInstaller (version : Line) (assets : List GhAsset) : Option NamedAsset := do
  let exact := "terminal-manager-".toList ++ version ++ "-setup.exe".toList
  let pick ← (assets.find? fun asset => lowerAscii asset.name = lowerAscii exact).or
    (assets.find? fun asset =>
      let name := lowerAscii asset.name
      "terminal-manager-".toList.isPrefixOf name && "-setup.exe".toList.isSuffixOf name &&
        (Find.before "non-gpu".toList name).isNone)
  some ⟨⟨pick.size, pick.digest.bind parseDigest⟩, pick.name, pick.browserDownloadUrl⟩

/-! ## the file name -/

def isSafe (c : Char) : Bool := c.isAlphanum || c = '.' || c = '-' || c = '_'

/-- `trim_matches('.')` -/
def trimDots (text : Line) : Line := ((text.dropWhile (· = '.')).reverse.dropWhile (· = '.')).reverse

def safeAssetName (name : Line) : Line :=
  let cleaned := trimDots (name.map fun c => if isSafe c then c else '_')
  if 4 < len cleaned ∧ ".exe".toList.isSuffixOf (lowerAscii cleaned) then cleaned else cleaned ++ ".exe".toList

/-! ## the download -/

def MAX_INSTALLER_BYTES : Nat := 512 * 1024 * 1024

/-- a path, component by component -/
abbrev Path := List Line

/-- the files -/
abbrev Files := Path → Option (List UInt8)

/-- the reads of a body, one by one: some bytes, none at its end, or an error -/
abbrev Body (ε : Type) := List (Except ε (List UInt8))

/-- what fails on the disk; a write, of the chunk with this number, fails after some of its bytes -/
structure Disk (ε : Type) where
  createDir : Option ε := none
  create : Option ε := none
  write : Nat → Option (Nat × ε) := fun _ => none
  flush : Option ε := none
  rename : Option ε := none

inductive DownloadError (τ ε : Type)
  | transport (e : τ)
  | io (e : ε)
  | sizeMismatch (expected actual : Nat)
  | digestMismatch
  | tooLarge
deriving DecidableEq, Repr

structure Downloaded where
  path : Path
  bytes : Nat
  verifiedDigest : Bool
deriving DecidableEq, Repr

def remove (files : Files) (path : Path) : Files := Function.update files path none

/-- some bytes at the end of a file -/
def append (files : Files) (path : Path) (bytes : List UInt8) : Files :=
  Function.update files path ((files path).map (· ++ bytes))

def rename (files : Files) (source target : Path) : Files :=
  Function.update (remove files source) target (files source)

section
variable {τ ε : Type}

/-- the loop of `stream_to_partial`, with the number of the chunk, the bytes counted and the bytes hashed -/
def streamFrom (disk : Disk ε) (path : Path) (limit : Nat) : Body ε → (n : Nat) → Files → (received : Nat) →
    (hashed : List UInt8) → Files × Except (DownloadError τ ε) (Nat × List UInt8)
  | [], _, files, received, hashed => (files, .ok (received, hashed))
  | .error e :: _, _, files, _, _ => (files, .error (.io e))
  | .ok chunk :: body, n, files, received, hashed =>
    if chunk = [] then (files, .ok (received, hashed))
    else if limit < received + chunk.length then (files, .error .tooLarge)
    else
      match disk.write n with
      | some (k, e) => (append files path (chunk.take k), .error (.io e))
      | none => streamFrom disk path limit body (n + 1) (append files path chunk) (received + chunk.length) (hashed ++ chunk)

/-- the number of bytes and their digest -/
def streamToPartial (sha256 : List UInt8 → List UInt8) (disk : Disk ε) (path : Path) (limit expectedSize : Nat)
    (body : Body ε) (files : Files) : Files × Except (DownloadError τ ε) (Nat × List UInt8) :=
  match disk.create with
  | some e => (files, .error (.io e))
  | none =>
    match streamFrom disk path limit body 0 (Function.update files path (some [])) 0 [] with
    | (files, .error e) => (files, .error e)
    | (files, .ok (received, hashed)) =>
      match disk.flush with
      | some e => (files, .error (.io e))
      | none =>
        if 0 < expectedSize ∧ received ≠ expectedSize then (files, .error (.sizeMismatch expectedSize received))
        else (files, .ok (received, sha256 hashed))

/-- as many bytes as are taken -/
def NamedAsset.limit (asset : NamedAsset) : Nat :=
  if 0 < asset.size then min asset.size MAX_INSTALLER_BYTES else MAX_INSTALLER_BYTES

def NamedAsset.finalPath (asset : NamedAsset) (dir : Path) : Path := dir ++ [safeAssetName asset.name]

def NamedAsset.partialPath (asset : NamedAsset) (dir : Path) : Path :=
  dir ++ [safeAssetName asset.name ++ ".partial".toList]

/-- `transport` opens a URL, up to a number of bytes -/
def downloadInstaller (sha256 : List UInt8 → List UInt8) (transport : Line → Nat → Except τ (Body ε)) (disk : Disk ε)
    (asset : NamedAsset) (dir : Path) (files : Files) : Files × Except (DownloadError τ ε) Downloaded :=
  match disk.createDir with
  | some e => (files, .error (.io e))
  | none =>
    let finalPath := asset.finalPath dir
    let partialPath := asset.partialPath dir
    -- one byte more than the limit, so that a body that is too long does not look complete
    match transport asset.url (asset.limit + 1) with
    | .error e => (files, .error (.transport e))
    | .ok body =>
      match streamToPartial sha256 disk partialPath asset.limit asset.size body files with
      | (files, .error e) => (remove files partialPath, .error e)
      | (files, .ok (received, digest)) =>
        if asset.sha256.any (· ≠ digest) then (remove files partialPath, .error .digestMismatch)
        else
          match disk.rename with
          | some e => (remove files finalPath, .error (.io e))
          | none =>
            (rename (remove files finalPath) partialPath finalPath, .ok ⟨finalPath, received, asset.sha256.isSome⟩)

/-! ## the stream -/

/-- the bytes of a body up to its end -/
def received : Body ε → List UInt8
  | [] => []
  | .error _ :: _ => []
  | .ok chunk :: body => if chunk = [] then [] else chunk ++ received body

/-- no read fails before the end of the body -/
def Complete : Body ε → Prop
  | [] => True
  | .error _ :: _ => False
  | .ok chunk :: body => chunk = [] ∨ Complete body

variable {disk : Disk ε} {path : Path} {limit : Nat} {files : Files}

/-- **Run lemma**: no other file is touched, and what is counted, hashed and written are the bytes of the body. -/
theorem streamFrom_spec (disk : Disk ε) (path : Path) (limit : Nat) (body : Body ε) (n : Nat) (files : Files)
    (count : Nat) (hashed : List UInt8) {files' : Files} {result : Except (DownloadError τ ε) (Nat × List UInt8)}
    (h : streamFrom disk path limit body n files count hashed = (files', result)) :
    (∀ p, p ≠ path → files' p = files p) ∧
    ∀ count' hashed', result = .ok (count', hashed') →
      files' path = (files path).map (· ++ received body) ∧ count' = count + (received body).length ∧
        hashed' = hashed ++ received body ∧ (count ≤ limit → count' ≤ limit) ∧ Complete body := by
  induction body generalizing n files count hashed with
  | nil =>
    cases h
    refine ⟨fun _ _ => rfl, ?_⟩
    rintro _ _ ⟨⟩
    simp [received, Complete]
  | cons read body ih =>
    cases read with
    | error e =>
      cases h
      exact ⟨fun _ _ => rfl, fun _ _ h => nomatch h⟩
    | ok chunk =>
      have hother : ∀ bytes p, p ≠ path → append files path bytes p = files p :=
        fun bytes p hp => Function.update_of_ne hp _ _
      rw [streamFrom] at h
      split_ifs at h with hend hlimit
      · cases h
        refine ⟨fun _ _ => rfl, ?_⟩
        rintro _ _ ⟨⟩
        simp [received, Complete, hend]
      · cases h
        exact ⟨fun _ _ => rfl, fun _ _ h => nomatch h⟩
      · cases hwrite : disk.write n with
        | some failure =>
          rw [hwrite] at h
          cases h
          exact ⟨hother _, fun _ _ h => nomatch h⟩
        | none =>
          rw [hwrite] at h
          obtain ⟨hframe, hresult⟩ := ih _ _ _ _ h
          refine ⟨fun p hp => (hframe p hp).trans (hother chunk p hp), ?_⟩
          intro count' hashed' hok
          obtain ⟨hfile, hcount, hhashed, hle, hcomplete⟩ := hresult count' hashed' hok
          have happend : append files path chunk path = (files path).map (· ++ chunk) := Function.update_self _ _ _
          rw [received, if_neg hend, List.length_append]
          refine ⟨?_, by omega, ?_, fun _ => hle (by omega), .inr hcomplete⟩
          · rw [hfile, happend, Option.map_map]
            congr 1
            funext bytes
            exact List.append_assoc _ _ _
          · rw [hhashed, List.append_assoc]

/-- what the stream leaves behind, and what it says of the bytes -/
lemma streamToPartial_spec (sha256 : List UInt8 → List UInt8) (disk : Disk ε) (path : Path) (limit expectedSize : Nat)
    (body : Body ε) (files : Files) {files' : Files} {result : Except (DownloadError τ ε) (Nat × List UInt8)}
    (h : streamToPartial sha256 disk path limit expectedSize body files = (files', result)) :
    (∀ p, p ≠ path → files' p = files p) ∧
    ∀ count digest, result = .ok (count, digest) →
      files' path = some (received body) ∧ count = (received body).length ∧ digest = sha256 (received body) ∧
        count ≤ limit ∧ (expectedSize ≠ 0 → count = expectedSize) ∧ Complete body := by
  unfold streamToPartial at h
  cases hcreate : disk.create with
  | some e =>
    rw [hcreate] at h
    cases h
    exact ⟨fun _ _ => rfl, fun _ _ h => nomatch h⟩
  | none =>
    rw [hcreate] at h
    dsimp only at h
    rcases hstream : (streamFrom disk path limit body 0 (Function.update files path (some [])) 0 [] :
      Files × Except (DownloadError τ ε) (Nat × List UInt8)) with ⟨files₁, result₁⟩
    obtain ⟨hframe, hok⟩ := streamFrom_spec disk path limit body 0 _ 0 [] hstream
    have hframe' : ∀ p, p ≠ path → files₁ p = files p := fun p hp => (hframe p hp).trans (Function.update_of_ne hp _ _)
    rw [hstream] at h
    cases result₁ with
    | error e =>
      cases h
      exact ⟨hframe', fun _ _ h => nomatch h⟩
    | ok r =>
      obtain ⟨count, hashed⟩ := r
      obtain ⟨hfile, hcount, hhashed, hle, hcomplete⟩ := hok count hashed rfl
      rw [Function.update_self] at hfile
      rw [Nat.zero_add] at hcount
      rw [List.nil_append] at hhashed
      dsimp only at h
      cases hflush : disk.flush with
      | some e =>
        rw [hflush] at h
        cases h
        exact ⟨hframe', fun _ _ h => nomatch h⟩
      | none =>
        rw [hflush] at h
        dsimp only at h
        split_ifs at h with hsize
        · cases h
          exact ⟨hframe', fun _ _ h => nomatch h⟩
        · cases h
          refine ⟨hframe', ?_⟩
          rintro _ _ ⟨⟩
          refine ⟨hfile, hcount, by rw [hhashed], hle (Nat.zero_le _), ?_, hcomplete⟩
          intro hne
          by_contra hcount'
          exact hsize ⟨Nat.pos_of_ne_zero hne, hcount'⟩

/-! ## the path -/

lemma mem_trimDots {text : Line} {c : Char} (h : c ∈ trimDots text) : c ∈ text := by
  unfold trimDots at h
  rw [List.mem_reverse] at h
  have hinner := (List.dropWhile_suffix _).subset h
  rw [List.mem_reverse] at hinner
  exact (List.dropWhile_suffix _).subset hinner

/-- a name that stays in its directory -/
lemma safeAssetName_spec (name : Line) : (∀ c ∈ safeAssetName name, isSafe c = true) ∧ 4 ≤ (safeAssetName name).length := by
  have hcleaned : ∀ c ∈ trimDots (name.map fun c => if isSafe c then c else '_'), isSafe c = true := by
    intro c hc
    obtain ⟨d, -, rfl⟩ := List.mem_map.mp (mem_trimDots hc)
    split_ifs with hd
    · exact hd
    · decide
  unfold safeAssetName
  dsimp only
  split_ifs with hexe
  · refine ⟨hcleaned, ?_⟩
    have hle := (List.isSuffixOf_iff_suffix.mp hexe.2).length_le
    rw [lowerAscii, List.length_map] at hle
    exact Nat.le_trans (by decide) hle
  · rw [List.forall_mem_append, List.length_append]
    exact ⟨⟨hcleaned, by decide⟩, Nat.le_add_left _ _⟩

lemma partialPath_ne_finalPath (asset : NamedAsset) (dir : Path) : asset.partialPath dir ≠ asset.finalPath dir := by
  intro h
  have hname := congrArg List.length (List.cons.inj (List.append_cancel_left h)).1
  rw [List.length_append] at hname
  exact absurd hname (by simp)

lemma limit_le (asset : NamedAsset) : asset.limit ≤ MAX_INSTALLER_BYTES := by
  unfold NamedAsset.limit
  split_ifs
  · exact Nat.min_le_right _ _
  · exact Nat.le_refl _

/-! ## what is handed over -/

/-- an error of the checks: the size, the digest, the limit -/
def DownloadError.isCheck : DownloadError τ ε → Bool
  | .sizeMismatch _ _ | .digestMismatch | .tooLarge => true
  | .transport _ | .io _ => false

/-- **Main result.**  A path is handed over only for the bytes of a complete body, of the advertised size and digest, in
a file of the download directory with a safe name.  After an error of a check, or of the stream, there is no file of the
download left, and the one at the final path is as before. -/
theorem downloadInstaller_verified (sha256 : List UInt8 → List UInt8) (transport : Line → Nat → Except τ (Body ε))
    (disk : Disk ε) (asset : NamedAsset) (dir : Path) (files : Files) :
    let result := downloadInstaller sha256 transport disk asset dir files
    (∀ d, result.2 = .ok d → ∃ body, transport asset.url (asset.limit + 1) = .ok body ∧ Complete body ∧
      result.1 d.path = some (received body) ∧ d.bytes = (received body).length ∧
      (asset.size ≠ 0 → (received body).length = asset.size) ∧
      (received body).length ≤ asset.limit ∧ asset.limit ≤ MAX_INSTALLER_BYTES ∧
      (∀ digest ∈ asset.sha256, sha256 (received body) = digest) ∧
      ∃ name, d.path = dir ++ [name] ∧ name ≠ ['.'] ∧ name ≠ ['.', '.'] ∧
        ∀ c ∈ name, c.isAlphanum = true ∨ c = '.' ∨ c = '-' ∨ c = '_') ∧
    (∀ e, result.2 = .error e →
      e.isCheck = true ∨ disk.createDir = none ∧ disk.rename = none ∧ (∀ t, e ≠ .transport t) →
      result.1 (asset.partialPath dir) = none ∧ result.1 (asset.finalPath dir) = files (asset.finalPath dir)) := by
  intro result
  have hresult : result = downloadInstaller sha256 transport disk asset dir files := rfl
  have hne := partialPath_ne_finalPath asset dir
  unfold downloadInstaller at hresult
  dsimp only at hresult
  -- a file that is removed is gone, and only it
  have hremove : ∀ files' : Files, (∀ p, p ≠ asset.partialPath dir → files' p = files p) →
      remove files' (asset.partialPath dir) (asset.partialPath dir) = none ∧
        remove files' (asset.partialPath dir) (asset.finalPath dir) = files (asset.finalPath dir) := by
    intro files' hframe
    exact ⟨Function.update_self _ _ _, (Function.update_of_ne hne.symm _ _).trans (hframe _ hne.symm)⟩
  cases hdir : disk.createDir with
  | some e =>
    rw [hdir] at hresult
    rw [hresult]
    refine ⟨(fun _ h => nomatch h), ?_⟩
    rintro _ ⟨⟩ (hcheck | ⟨hnone, -⟩)
    · cases hcheck
    · cases hnone
  | none =>
  rw [hdir] at hresult
  dsimp only at hresult
  cases hopen : transport asset.url (asset.limit + 1) with
  | error e =>
    rw [hopen] at hresult
    rw [hresult]
    refine ⟨(fun _ h => nomatch h), ?_⟩
    rintro _ ⟨⟩ (hcheck | ⟨-, -, htransport⟩)
    · cases hcheck
    · exact absurd rfl (htransport e)
  | ok body =>
  rw [hopen] at hresult
  dsimp only at hresult
  rcases hstream : (streamToPartial sha256 disk (asset.partialPath dir) asset.limit asset.size body files :
    Files × Except (DownloadError τ ε) (Nat × List UInt8)) with ⟨files₁, result₁⟩
  obtain ⟨hframe, hok⟩ := streamToPartial_spec sha256 disk _ _ _ body files hstream
  rw [hstream] at hresult
  cases result₁ with
  | error e =>
    rw [hresult]
    exact ⟨(fun _ h => nomatch h), fun _ _ _ => hremove files₁ hframe⟩
  | ok r =>
  obtain ⟨count, digest⟩ := r
  obtain ⟨hfile, hcount, hdigest, hle, hsize, hcomplete⟩ := hok count digest rfl
  dsimp only at hresult
  split_ifs at hresult with hmismatch
  · rw [hresult]
    exact ⟨(fun _ h => nomatch h), fun _ _ _ => hremove files₁ hframe⟩
  cases hrename : disk.rename with
  | some e =>
    rw [hrename] at hresult
    rw [hresult]
    refine ⟨(fun _ h => nomatch h), ?_⟩
    rintro _ ⟨⟩ (hcheck | ⟨-, hnone, -⟩)
    · cases hcheck
    · cases hnone
  | none =>
    rw [hrename] at hresult
    rw [hresult]
    refine ⟨?_, fun _ h => nomatch h⟩
    rintro _ ⟨⟩
    have hmoved : rename (remove files₁ (asset.finalPath dir)) (asset.partialPath dir) (asset.finalPath dir)
        (asset.finalPath dir) = some (received body) := by
      rw [rename, Function.update_self, remove, Function.update_of_ne hne, hfile]
    obtain ⟨hsafe, hlong⟩ := safeAssetName_spec asset.name
    refine ⟨body, rfl, hcomplete, hmoved, hcount, fun h => hcount ▸ hsize h, hcount ▸ hle, limit_le asset, ?_, _, rfl,
      ?_, ?_, ?_⟩
    · intro expected hexpected
      by_contra hdiff
      apply hmismatch
      rw [Option.mem_def.mp hexpected, hdigest]
      exact decide_eq_true (Ne.symm hdiff)
    · intro hdot
      rw [hdot] at hlong
      exact absurd hlong (by decide)
    · intro hdots
      rw [hdots] at hlong
      exact absurd hlong (by decide)
    · intro c hc
      have := hsafe c hc
      simpa [isSafe, or_assoc] using this

/-- two chunks and the end -/
example : (downloadInstaller (τ := Unit) (ε := Unit) (fun bytes => bytes.take 1) (fun _ _ => .ok [.ok [7, 8], .ok [9], .ok []]) {}
    ⟨⟨3, some [7]⟩, "..\\setup".toList, []⟩ [] fun _ => none).2.toOption =
    some ⟨["_setup.exe".toList], 3, true⟩ := by decide

end

end TerminalManager.Update
