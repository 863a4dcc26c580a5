import TerminalManager.DiffReview.State
import TerminalManager.Lib.Transition

/-!
# Runs of the diff review

* `Review.Shows`        the lines are those of the selected file of the report;
* `Review.Sound`        what the open review promises in every state;
* `Review.Core`, `Review.Bounds`, `Inv`   the invariant: of the requests, of the indices, of the whole state;
* `Inv.step`            a step keeps it;
* `review_sound`        so the review is sound in every run, and a late result changes nothing;
* `review_settles`      and it never waits forever.
-/

namespace TerminalManager.DiffReview
open Editor (Line)
open Transition

section
variable {τ π : Type} (host : Host τ π)

/-! ## what is promised -/

/-- the number of the request that the worker has -/
def Worker.id? : Worker π → Option Nat
  | .waiting => none
  | .took job => some job.id
  | .loaded result => some result.id

/-- the request is in the queue, or the worker has it -/
def State.Pending (s : State π) (id : Nat) : Prop :=
  (∃ job, s.queue = some (some job) ∧ job.id = id) ∨ s.worker.id? = some id

/-- the number of files of the report, if there is one -/
def Review.fileCount (r : Review π) : Nat := (r.report.map fun report => report.value.files.length).getD 0

/-- `lines` are those of the file `index` of the report: imported with it, or printed by Git at some time; nothing
is shown of a report without files -/
def Shows (report : Report π) (index : Nat) (lines : List PatchLine) : Prop :=
  match report.files[index]?, report.patches with
  | none, _ => report.files = [] ∧ lines = []
  | some _, some patches => patches[index]? = some lines
  | some file, none => ∃ t text, host.gitDiff t report file = .ok text ∧ lines = parsePatch text

structure Review.Sound (s : State π) (r : Review π) : Prop where
  waits : r.loading = true → s.Pending r.request
  shows : r.loading = false → r.error = none →
    ∃ report, r.report = some report ∧ Shows host report.value r.selected r.lines ∧
      (⟨r.lines, r.splitRows, r.hunks⟩ : LoadedPatch) = LoadedPatch.new r.lines
  active : ∀ i ∈ r.activeHunk, i < r.hunks.length
  viewed : ∀ i ∈ r.viewed, i < r.fileCount
  fileMatches : ∀ i ∈ r.fileMatches, i < r.fileCount
  row : r.rowStart ≤ r.rowCount

/-! ## the indices -/

/-- the parts of the review that the moves change -/
structure Review.Bounds (r : Review π) : Prop where
  views : (⟨r.lines, r.splitRows, r.hunks⟩ : LoadedPatch) = LoadedPatch.new r.lines
  active : ∀ i ∈ r.activeHunk, i < r.hunks.length
  viewed : ∀ i ∈ r.viewed, i < r.fileCount
  fileMatches : ∀ i ∈ r.fileMatches, i < r.fileCount
  row : r.rowStart ≤ r.rowCount

namespace Review.Bounds
variable {r : Review π}

/-- a hunk starts at a row of the view -/
lemma hunkRow_le (h : r.Bounds) {split : Bool} {i : Nat} :
    { r with sideBySide := split }.hunkRow i ≤ { r with sideBySide := split }.rowCount := by
  unfold Review.hunkRow Review.rowCount
  dsimp only
  cases hi : r.hunks[i]? with
  | none => exact Nat.zero_le _
  | some hunk =>
    have hmem : hunk ∈ r.hunks := List.mem_of_getElem? hi
    have hnew := LoadedPatch.mk.inj h.views
    rw [hnew.2.2] at hmem
    obtain ⟨hu, hs⟩ := collectHunks_lt hmem
    cases split with
    | false => exact Nat.le_of_lt hu
    | true =>
      show hunk.splitRow ≤ r.splitRows.length
      rw [hnew.2.1]
      exact Nat.le_of_lt hs

lemma clearPatch (h : r.Bounds) : r.clearPatch.Bounds where
  views := rfl
  active := fun _ hi => by (cases hi)
  viewed := h.viewed
  fileMatches := h.fileMatches
  row := Nat.zero_le _

end Review.Bounds

lemma mem_fileMatchesOf {filter : Line} {report : Report π} {i : Nat}
    (h : i ∈ Review.fileMatchesOf host filter report) : i < report.files.length :=
  List.mem_range.mp (List.mem_of_mem_filter h)

lemma rebuildFileMatches_lt (r : Review π) : ∀ i ∈ (r.rebuildFileMatches host).fileMatches, i < r.fileCount := by
  intro i hi
  unfold Review.rebuildFileMatches at hi
  unfold Review.fileCount
  dsimp only at hi
  cases hreport : r.report with
  | none =>
    rw [hreport] at hi
    cases hi
  | some report =>
    rw [hreport] at hi
    exact mem_fileMatchesOf host hi

lemma Review.Bounds.rebuild {r : Review π} (h : r.Bounds) : (r.rebuildFileMatches host).Bounds where
  views := h.views
  active := h.active
  viewed := h.viewed
  fileMatches := rebuildFileMatches_lt host r
  row := h.row

/-- a move goes to a hunk of the patch -/
lemma hunkTarget_lt {r : Review π} {forward : Bool} {i : Nat} (hactive : ∀ i ∈ r.activeHunk, i < r.hunks.length)
    (h : r.hunkTarget forward = some i) : i < r.hunks.length := by
  unfold Review.hunkTarget at h
  split at h
  · cases h
  split at h
  · rename_i index hindex
    have hlt := hactive index hindex
    split_ifs at h
    · cases h
      assumption
    · cases h
      omega
  · split_ifs at h
    · exact List.mem_range.mp (List.mem_of_find?_eq_some h)
    · exact List.mem_range.mp (List.mem_reverse.mp (List.mem_of_find?_eq_some h))

/-! ## the requests -/

/-- a query that the review waits for: about the report that it has, or about a new one -/
def Review.Awaits (r : Review π) : Query π → Prop
  | .range _ _ | .patchFile _ => r.report = none ∧ r.selected = 0
  | .file report index => r.report = some report ∧ r.selected = index ∧ index < report.value.files.length

/-- the job that the worker has, or has found something for -/
def Worker.Has : Worker π → Option (Job π) → Prop
  | .waiting, held => held = none
  | .took job, held => held = some job
  | .loaded result, held => ∃ job t addr, held = some job ∧ result = load host t addr job

def State.InFlight (s : State π) (held : Option (Job π)) (job : Job π) : Prop :=
  s.queue = some (some job) ∨ held = some job

/-- what holds of the request of the review, and of what is shown of it -/
structure Review.Core (s : State π) (held : Option (Job π)) (r : Review π) : Prop where
  fresh : r.request < s.next
  waits : r.loading = true → ∃ job, s.InFlight held job ∧ job.id = r.request
  fits : ∀ job, s.InFlight held job → job.id = r.request → r.loading = true ∧ r.Awaits job.query
  blank : r.loading = true → r.lines = [] ∧ r.error = none
  shows : r.loading = false → r.error = none →
    ∃ report, r.report = some report ∧ Shows host report.value r.selected r.lines
  patchPath : r.mode = .patch → r.patchPath.isSome

/-- what holds of the jobs in flight -/
structure Jobs (s : State π) (held : Option (Job π)) : Prop where
  has : s.worker.Has host held
  fresh : ∀ job, s.InFlight held job → job.id < s.next
  distinct : ∀ queued job, s.queue = some (some queued) → held = some job → job.id < queued.id

structure Inv (s : State π) (held : Option (Job π)) : Prop extends Jobs host s held where
  core : ∀ r ∈ s.review, r.Core host s held
  bounds : ∀ r ∈ s.review, r.Bounds

theorem inv_init : Inv host (State.init π) none where
  has := rfl
  fresh := by
    rintro job (h | h)
    all_goals cases h
  distinct := fun _ _ h => by (cases h)
  core := fun _ h => by (cases h)
  bounds := fun _ h => by (cases h)

variable {host}

lemma Worker.Has.id? {worker : Worker π} {job : Job π} (h : worker.Has host (some job)) :
    worker.id? = some job.id := by
  cases worker with
  | waiting => cases h
  | took j =>
    cases h
    rfl
  | loaded result =>
    obtain ⟨j, t, addr, hj, rfl⟩ := h
    cases hj
    rfl

variable {held : Option (Job π)}

/-- what is promised follows -/
theorem Inv.sound {s : State π} {r : Review π} (h : Inv host s held) (hr : s.review = some r) :
    r.Sound host s where
  waits := by
    intro hloading
    obtain ⟨job, hqueued | hheld, hid⟩ := (h.core r hr).waits hloading
    · exact .inl ⟨job, hqueued, hid⟩
    · subst hheld
      exact .inr (h.has.id?.trans (congrArg some hid))
  shows := by
    intro hloading herror
    obtain ⟨report, hreport, hshows⟩ := (h.core r hr).shows hloading herror
    exact ⟨report, hreport, hshows, (h.bounds r hr).views⟩
  active := (h.bounds r hr).active
  viewed := (h.bounds r hr).viewed
  fileMatches := (h.bounds r hr).fileMatches
  row := (h.bounds r hr).row

/-! ## a request is made -/

section
variable {s : State π} {r : Review π} {query : Query π}

/-- the jobs depend on the queue, the worker and the counter alone -/
lemma Jobs.of_review (h : Jobs host s held) (review : Option (Review π)) :
    Jobs host { s with review := review } held :=
  ⟨h.has, h.fresh, h.distinct⟩

/-- a number is spent -/
lemma Jobs.spend (h : Jobs host s held) : Jobs host { s with next := s.next + 1 } held where
  has := h.has
  fresh := fun job hjob => Nat.lt_succ_of_lt (h.fresh job hjob)
  distinct := h.distinct

lemma submit_jobs (h : Jobs host s held) : Jobs host (submit s r query).1 held := by
  unfold submit
  split
  · exact h.spend
  refine ⟨h.has, ?_, ?_⟩
  · rintro job (hqueued | hheld)
    · cases hqueued
      exact Nat.lt_succ_self _
    · exact Nat.lt_succ_of_lt (h.fresh job (.inr hheld))
  · intro queued job hqueued hheld
    cases hqueued
    exact h.fresh job (.inr hheld)

lemma submit_core (h : Jobs host s held) (hquery : r.Awaits query) (hpath : r.mode = .patch → r.patchPath.isSome) :
    (submit s r query).2.Core host (submit s r query).1 held := by
  unfold submit
  split
  · refine ⟨Nat.lt_succ_self _, fun e => by (cases e), ?_, fun e => by (cases e), fun _ e => by (cases e), hpath⟩
    intro job hjob hid
    exact absurd hid (Nat.ne_of_lt (h.fresh job hjob))
  · refine ⟨Nat.lt_succ_self _, fun _ => ⟨_, .inl rfl, rfl⟩, ?_, fun _ => ⟨rfl, rfl⟩, fun e => by (cases e), hpath⟩
    rintro job (hqueued | hheld) hid
    · cases hqueued
      refine ⟨rfl, ?_⟩
      -- the request and the lines are none of what the query is about
      cases query <;> exact hquery
    · exact absurd hid (Nat.ne_of_lt (h.fresh job (.inr hheld)))

lemma submit_bounds (h : r.Bounds) : (submit s r query).2.Bounds := by
  unfold submit
  split
  all_goals
    have hclear := h.clearPatch
    exact ⟨hclear.views, hclear.active, hclear.viewed, hclear.fileMatches, hclear.row⟩

theorem submit_inv (h : Jobs host s held) (hr : r.Bounds) (hquery : r.Awaits query)
    (hpath : r.mode = .patch → r.patchPath.isSome) : Inv host (State.opened (submit s r query)) held where
  toJobs := (submit_jobs h).of_review _
  core := by
    rintro _ ⟨⟩
    have hcore := submit_core h hquery hpath
    exact ⟨hcore.fresh, hcore.waits, hcore.fits, hcore.blank, hcore.shows, hcore.patchPath⟩
  bounds := by
    rintro _ ⟨⟩
    exact submit_bounds hr

/-- nothing is left of a report that is dropped -/
lemma Review.Bounds.dropReport (h : r.Bounds) (selected page : Nat) :
    Review.Bounds { r with viewed := ∅, report := none, fileMatches := [], selected := selected, filePage := page } where
  views := h.views
  active := h.active
  viewed := fun _ hi => absurd hi (Finset.notMem_empty _)
  fileMatches := fun _ hi => by (cases hi)
  row := h.row

theorem refresh_inv (h : Jobs host s held) (hr : r.Bounds) (hpath : r.mode = .patch → r.patchPath.isSome) :
    Inv host (State.opened (refresh s r)) held := by
  unfold refresh
  dsimp only
  split
  · rename_i hmode
    split
    · exact submit_inv h (hr.dropReport _ _) ⟨rfl, rfl⟩ hpath
    · rename_i hnone
      have hsome := hpath hmode
      rw [hnone] at hsome
      cases hsome
  · split
    · exact submit_inv h (hr.dropReport _ _) ⟨rfl, rfl⟩ hpath
    · refine ⟨h.spend.of_review _, ?_, ?_⟩
      · rintro _ ⟨⟩
        refine ⟨Nat.lt_succ_self _, fun e => by (cases e), ?_, fun e => by (cases e), fun _ e => by (cases e), hpath⟩
        intro job hjob hid
        exact absurd hid (Nat.ne_of_lt (h.fresh job hjob))
      · rintro _ ⟨⟩
        have hclear := (hr.dropReport r.selected r.filePage).clearPatch
        exact ⟨hclear.views, hclear.active, hclear.viewed, hclear.fileMatches, hclear.row⟩

end

/-! ## a move -/

section
variable {s : State π} {r r' : Review π} {command : Command π}

/-- what a move can change -/
lemma command_frame (h : r.command host command = some r') :
    r' = { r with
      sideBySide := r'.sideBySide, rowStart := r'.rowStart, activeHunk := r'.activeHunk, filePage := r'.filePage
      fileFilter := r'.fileFilter, fileFilterReset := r'.fileFilterReset, fileMatches := r'.fileMatches
      viewed := r'.viewed } := by
  cases command with
  | patch | «open» | close | refresh | mode | file => cases h
  | viewed =>
    simp only [Review.command] at h
    split_ifs at h
    all_goals
      cases h
      rfl
  | hunk forward =>
    obtain ⟨index, -, rfl⟩ := Option.map_eq_some_iff.mp h
    rfl
  | fileStart | view | prev | next | filesNext =>
    simp only [Review.command] at h
    split_ifs at h
    cases h
    rfl
  | filterClear | filter | filesPrev =>
    cases h
    rfl

lemma command_core (hr : r.Core host s held) (h : r.command host command = some r') : r'.Core host s held := by
  rw [command_frame h]
  exact ⟨hr.fresh, hr.waits, hr.fits, hr.blank, hr.shows, hr.patchPath⟩

/-- the file that is marked is one of the report -/
lemma viewed_lt (hr : r.Bounds) (h : r.command host .viewed = some r') : ∀ i ∈ r'.viewed, i < r.fileCount := by
  simp only [Review.command] at h
  split_ifs at h with hguard hmem
  · cases h
    exact fun i hi => hr.viewed i (Finset.mem_of_mem_erase hi)
  · cases h
    intro i hi
    rcases Finset.mem_insert.mp hi with rfl | hi
    · have hany := not_not.mp fun hnot => hguard (.inr (.inr hnot))
      obtain ⟨report, hreport, hlt⟩ := (Option.any_eq_true _ _).mp hany
      unfold Review.fileCount
      rw [hreport]
      exact of_decide_eq_true hlt
    · exact hr.viewed i hi

theorem command_bounds (hr : r.Bounds) (h : r.command host command = some r') : r'.Bounds := by
  cases command with
  | patch | «open» | close | refresh | mode | file => cases h
  | viewed =>
    have hviewed := viewed_lt hr h
    rw [command_frame h]
    simp only [Review.command] at h
    split_ifs at h
    all_goals
      cases h
      exact ⟨hr.views, hr.active, hviewed, hr.fileMatches, hr.row⟩
  | hunk forward =>
    obtain ⟨index, hindex, rfl⟩ := Option.map_eq_some_iff.mp h
    refine ⟨hr.views, ?_, hr.viewed, hr.fileMatches, hr.hunkRow_le⟩
    rintro _ ⟨⟩
    exact hunkTarget_lt (r := r) hr.active hindex
  | fileStart =>
    simp only [Review.command] at h
    split_ifs at h
    cases h
    exact ⟨hr.views, fun _ hi => by (cases hi), hr.viewed, hr.fileMatches, Nat.zero_le _⟩
  | filterClear =>
    cases h
    have hfilter : { r with fileFilter := ([] : Line).take 256 }.Bounds :=
      ⟨hr.views, hr.active, hr.viewed, hr.fileMatches, hr.row⟩
    have := hfilter.rebuild host
    exact ⟨this.views, this.active, this.viewed, this.fileMatches, this.row⟩
  | filter query =>
    cases h
    have hfilter : { r with fileFilter := query.take 256 }.Bounds :=
      ⟨hr.views, hr.active, hr.viewed, hr.fileMatches, hr.row⟩
    exact hfilter.rebuild host
  | view split =>
    simp only [Review.command] at h
    split_ifs at h
    cases h
    refine ⟨hr.views, hr.active, hr.viewed, hr.fileMatches, ?_⟩
    show ((r.activeHunk.map { r with sideBySide := split }.hunkRow).getD 0) ≤ { r with sideBySide := split }.rowCount
    cases r.activeHunk with
    | none => exact Nat.zero_le _
    | some index => exact hr.hunkRow_le
  | prev =>
    simp only [Review.command] at h
    split_ifs at h
    cases h
    have hle := (Nat.sub_le r.rowStart pageLines).trans hr.row
    generalize r.rowStart - pageLines = row at hle
    exact ⟨hr.views, fun _ hi => by (cases hi), hr.viewed, hr.fileMatches, hle⟩
  | next =>
    simp only [Review.command] at h
    split_ifs at h with hrow
    have hle := Nat.le_of_lt hrow
    cases h
    exact ⟨hr.views, fun _ hi => by (cases hi), hr.viewed, hr.fileMatches, hle⟩
  | filesPrev =>
    cases h
    exact ⟨hr.views, hr.active, hr.viewed, hr.fileMatches, hr.row⟩
  | filesNext =>
    simp only [Review.command] at h
    split_ifs at h
    cases h
    exact ⟨hr.views, hr.active, hr.viewed, hr.fileMatches, hr.row⟩

end

/-! ## the user -/

section
variable {s : State π}

lemma bounds_new (root : π) : (Review.new root).Bounds where
  views := rfl
  active := fun _ hi => by (cases hi)
  viewed := fun _ hi => absurd hi (Finset.notMem_empty _)
  fileMatches := fun _ hi => by (cases hi)
  row := Nat.zero_le _

/-- another mode, or another path, is no other row -/
lemma Review.Bounds.mode {r : Review π} (h : r.Bounds) (mode : Mode) (path : Option π) :
    { r with mode := mode, patchPath := path }.Bounds :=
  ⟨h.views, h.active, h.viewed, h.fileMatches, h.row⟩

theorem openPatchFile_inv (h : Inv host s held) (cwd path : π) : Inv host (openPatchFile s cwd path) held := by
  refine refresh_inv h.toJobs (Review.Bounds.mode ?_ _ _) fun _ => rfl
  cases hr : s.review with
  | none => exact bounds_new cwd
  | some r => exact h.bounds r hr

theorem acceptDrop_inv {t : State π} {cwd : π} {paths : List π} (h : Inv host s held)
    (ht : acceptDrop host s cwd paths = some t) : Inv host t held := by
  unfold acceptDrop at ht
  split at ht
  · split_ifs at ht
    cases ht
    exact openPatchFile_inv h cwd _
  · cases ht

theorem dispatch_inv {t : State π} {cwd : π} {command : Command π} (h : Inv host s held)
    (ht : dispatch host s cwd command = some t) : Inv host t held := by
  unfold dispatch at ht
  split at ht
  · cases ht
    exact openPatchFile_inv h cwd _
  · cases ht
    exact refresh_inv h.toJobs (bounds_new _) fun e => by (cases e)
  · cases ht
    exact ⟨h.toJobs.of_review none, fun _ e => by (cases e), fun _ e => by (cases e)⟩
  · rename_i r hr
    cases ht
    exact refresh_inv h.toJobs (h.bounds r hr) (h.core r hr).patchPath
  · cases ht
  · rename_i mode r hmode hr
    cases ht
    exact refresh_inv h.toJobs ((h.bounds r hr).mode mode _) fun e => absurd e hmode
  · rename_i r hr
    split at ht
    · rename_i index report _ hreport
      split_ifs at ht with hlt
      cases ht
      have hb := h.bounds r hr
      exact submit_inv h.toJobs ⟨hb.views, hb.active, hb.viewed, hb.fileMatches, hb.row⟩ ⟨hreport, rfl, hlt⟩
        (h.core r hr).patchPath
    · cases ht
  · rename_i r _ _ _ _ _ _ _ hr
    obtain ⟨r', hr', rfl⟩ := Option.map_eq_some_iff.mp ht
    refine ⟨h.toJobs.of_review _, ?_, ?_⟩
    · rintro _ ⟨⟩
      have hc := command_core (h.core r hr) hr'
      exact ⟨hc.fresh, hc.waits, hc.fits, hc.blank, hc.shows, hc.patchPath⟩
    · rintro _ ⟨⟩
      exact command_bounds (h.bounds r hr) hr'
  · cases ht

end

/-! ## the worker -/

section
variable {s : State π}

/-- the same jobs are in flight when the worker has gone on with its one -/
lemma Review.Core.of_flight {s' : State π} {held' : Option (Job π)} {r : Review π} (h : r.Core host s held)
    (hnext : s'.next = s.next) (hflight : ∀ job, s'.InFlight held' job ↔ s.InFlight held job) :
    r.Core host s' held' where
  fresh := by
    rw [hnext]
    exact h.fresh
  waits := by
    simp only [hflight]
    exact h.waits
  fits := by
    simp only [hflight]
    exact h.fits
  blank := h.blank
  shows := h.shows
  patchPath := h.patchPath

theorem take_inv {job : Job π} (h : Inv host s held) (hqueue : s.queue = some (some job))
    (hworker : s.worker = .waiting) : Inv host { s with queue := some none, worker := .took job } (some job) := by
  have hheld : held = none := by
    have := h.has
    rwa [hworker] at this
  have hflight : ∀ j, State.InFlight { s with queue := some none, worker := .took job } (some job) j ↔
      s.InFlight held j := by
    intro j
    unfold State.InFlight
    rw [hqueue, hheld]
    simp
  refine ⟨⟨rfl, ?_, fun _ _ e => by (cases e)⟩, ?_, h.bounds⟩
  · exact fun j hj => h.fresh j ((hflight j).mp hj)
  · exact fun r hr => (h.core r hr).of_flight rfl hflight

theorem load_inv {job : Job π} (h : Inv host s held) (t : τ) (hworker : s.worker = .took job) :
    Inv host { s with worker := .loaded (load host t s.addr job), addr := s.addr + 1 } held where
  has := by
    have := h.has
    rw [hworker] at this
    exact ⟨job, t, s.addr, this, rfl⟩
  fresh := h.fresh
  distinct := h.distinct
  core := fun r hr => (h.core r hr).of_flight rfl fun _ => Iff.rfl
  bounds := h.bounds

end

/-! ## a result is applied -/

section
variable {s : State π} {r : Review π}

lemma loadLines_shows {t : τ} {report : Report π} {index : Nat} {lines : List PatchLine}
    (h : loadLines host t report index = some (.ok lines)) : Shows host report index lines := by
  unfold loadLines at h
  unfold Shows
  obtain ⟨file, hfile, hlines⟩ := Option.map_eq_some_iff.mp h
  rw [hfile]
  cases hpatches : report.patches with
  | none =>
    rw [hpatches] at hlines
    dsimp only at hlines ⊢
    cases hdiff : host.gitDiff t report file with
    | error e =>
      rw [hdiff] at hlines
      cases hlines
    | ok text =>
      rw [hdiff] at hlines
      cases hlines
      exact ⟨t, text, hdiff, rfl⟩
  | some patches =>
    rw [hpatches] at hlines
    cases hlines
    -- an imported report has the lines of each of its files
    have hlt : index < patches.length := by
      rw [report.parallel patches hpatches]
      exact (List.getElem?_eq_some_iff.mp hfile).1
    show patches[index]? = some (patches[index]?.getD [])
    rw [List.getElem?_eq_getElem hlt]
    rfl

/-- no lines are loaded of a report without files only, when the query is about one that it has or about the first -/
lemma loadLines_none {t : τ} {report : Report π} {index : Nat} (h : loadLines host t report index = none)
    (hindex : index = 0 ∨ index < report.files.length) : Shows host report index [] := by
  have hnone := Option.map_eq_none_iff.mp h
  have hle := List.getElem?_eq_none_iff.mp hnone
  unfold Shows
  rw [hnone]
  refine ⟨List.length_eq_zero_iff.mp ?_, rfl⟩
  omega

/-- the report that is found is the one that the review waits for -/
lemma findReport_awaits {t : τ} {addr : Nat} {query : Query π} {report : Arc (Report π)} (hr : r.Awaits query)
    (h : (findReport host t addr query).1 = .ok report) :
    (findReport host t addr query).2 = r.selected ∧ (r.selected = 0 ∨ r.selected < report.value.files.length) ∧
      (r.report = none ∨ r.report = some report) := by
  cases query with
  | range | patchFile => exact ⟨hr.2.symm, .inl hr.2, .inl hr.1⟩
  | file known index =>
    obtain ⟨hreport, hselected, hlt⟩ := hr
    cases h
    exact ⟨hselected.symm, .inr (by rwa [hselected]), .inr hreport⟩

variable (host) in
/-- what a report replaces -/
lemma setReport_eq (r : Review π) (report : Arc (Report π)) : ∃ viewed fileMatches page,
    r.setReport host report =
      { r with report := some report, viewed := viewed, fileMatches := fileMatches, filePage := page } := by
  unfold Review.setReport
  split_ifs
  · exact ⟨_, _, _, rfl⟩
  · exact ⟨_, _, _, rfl⟩

variable (host) in
lemma Review.Bounds.setReport {report : Arc (Report π)} (h : r.Bounds)
    (hreport : r.report = none ∨ r.report = some report) : (r.setReport host report).Bounds := by
  unfold Review.setReport
  split_ifs with hsame
  · have hsome : r.report = some report := by
      rcases hreport with hnone | hsome
      · rw [hnone] at hsame
        cases hsame
      · exact hsome
    rw [← hsome]
    exact h
  · have hdropped : Review.Bounds { r with report := some report, viewed := ∅, fileMatches := [] } :=
      ⟨h.views, h.active, fun _ hi => absurd hi (Finset.notMem_empty _), fun _ hi => by (cases hi), h.row⟩
    exact hdropped.rebuild host

variable (host) in
lemma applied_frame (r : Review π) (result : Loaded π) :
    (r.applied host result).request = r.request ∧ (r.applied host result).loading = false ∧
      (r.applied host result).mode = r.mode ∧ (r.applied host result).patchPath = r.patchPath := by
  unfold Review.applied
  dsimp only
  split
  · exact ⟨rfl, rfl, rfl, rfl⟩
  · rename_i report _
    obtain ⟨viewed, fileMatches, page, hset⟩ := setReport_eq host { r with loading := false } report
    rw [hset]
    split
    all_goals exact ⟨rfl, rfl, rfl, rfl⟩

/-- the lines of the selected file are shown, unless an error is -/
theorem applied_shows {job : Job π} {t : τ} {addr : Nat} (hblank : r.lines = []) (hawaits : r.Awaits job.query)
    (herror : (r.applied host (load host t addr job)).error = none) :
    ∃ report, (r.applied host (load host t addr job)).report = some report ∧
      Shows host report.value (r.applied host (load host t addr job)).selected
        (r.applied host (load host t addr job)).lines := by
  cases hfound : (findReport host t addr job.query).1 with
  | error e =>
    unfold Review.applied load at herror
    rw [hfound] at herror
    cases herror
  | ok report =>
    obtain ⟨hindex, hlt, -⟩ := findReport_awaits hawaits hfound
    have hload : load host t addr job =
        ⟨job.id, .ok report, (loadLines host t report.value r.selected).map fun lines => lines.map LoadedPatch.new⟩ := by
      unfold load
      rw [hfound, hindex]
      rfl
    obtain ⟨viewed, fileMatches, page, hset⟩ := setReport_eq host { r with loading := false } report
    unfold Review.applied at herror ⊢
    rw [hload] at herror ⊢
    dsimp only at herror ⊢
    rw [hset] at herror ⊢
    cases hlines : loadLines host t report.value r.selected with
    | none =>
      refine ⟨report, rfl, ?_⟩
      show Shows host report.value r.selected r.lines
      rw [hblank]
      exact loadLines_none hlines hlt
    | some found =>
      rw [hlines] at herror
      cases found with
      | error e => cases herror
      | ok lines => exact ⟨report, rfl, loadLines_shows hlines⟩

lemma applied_bounds {job : Job π} {t : τ} {addr : Nat} (h : r.Bounds) (hawaits : r.Awaits job.query) :
    (r.applied host (load host t addr job)).Bounds := by
  have hloading : Review.Bounds { r with loading := false } := ⟨h.views, h.active, h.viewed, h.fileMatches, h.row⟩
  unfold Review.applied
  dsimp only
  split
  · exact ⟨h.views, h.active, h.viewed, h.fileMatches, h.row⟩
  · rename_i report hfound
    have hset := hloading.setReport host (findReport_awaits hawaits hfound).2.2
    split
    · rename_i patch hpatch
      obtain ⟨found, -, hlines⟩ := Option.bind_eq_some_iff.mp hpatch
      obtain ⟨result, -, hresult⟩ := Option.map_eq_some_iff.mp hlines
      cases result with
      | error e => cases hresult
      | ok lines =>
        cases hresult
        exact ⟨rfl, fun _ hi => by (cases hi), hset.viewed, hset.fileMatches, Nat.zero_le _⟩
    · exact ⟨hset.views, hset.active, hset.viewed, hset.fileMatches, hset.row⟩
    · exact hset

/-- the worker gives its job up -/
lemma Jobs.release (h : Jobs host s held) : Jobs host { s with worker := .waiting } none where
  has := rfl
  fresh := by
    rintro job (hqueued | hnone)
    · exact h.fresh job (.inl hqueued)
    · cases hnone
  distinct := fun _ _ _ e => by (cases e)

variable (host) in
/-- a result that is not of the current request is dropped -/
lemma apply_cases (s : State π) (result : Loaded π) :
    (apply host s result = none ∧ ∀ r ∈ s.review, r.request ≠ result.id) ∨
      ∃ r, s.review = some r ∧ r.request = result.id ∧
        apply host s result = some { s with review := some (r.applied host result) } := by
  unfold apply
  cases hr : s.review with
  | none => exact .inl ⟨rfl, fun _ e => by (cases e)⟩
  | some r =>
    by_cases hid : r.request = result.id
    · exact .inr ⟨r, rfl, hid, if_pos hid⟩
    · refine .inl ⟨if_neg hid, ?_⟩
      rintro _ ⟨⟩
      exact hid

theorem apply_inv {result : Loaded π} (h : Inv host s held) (hworker : s.worker = .loaded result) :
    Inv host ((apply host { s with worker := .waiting } result).getD { s with worker := .waiting }) none := by
  have hhas := h.has
  rw [hworker] at hhas
  obtain ⟨job, t, addr, rfl, rfl⟩ := hhas
  rcases apply_cases host { s with worker := .waiting } (load host t addr job) with
    ⟨hnone, hother⟩ | ⟨r, hr, hid, hsome⟩
  · rw [hnone]
    refine ⟨h.toJobs.release, ?_, h.bounds⟩
    intro r hr
    -- another request still waits for its own job
    have hc := h.core r hr
    refine ⟨hc.fresh, ?_, ?_, hc.blank, hc.shows, hc.patchPath⟩
    · intro hloading
      obtain ⟨j, hqueued | hheld, hj⟩ := hc.waits hloading
      · exact ⟨j, .inl hqueued, hj⟩
      · cases hheld
        exact absurd hj.symm (hother r hr)
    · rintro j (hqueued | hnone) hj
      · exact hc.fits j (.inl hqueued) hj
      · cases hnone
  · rw [hsome]
    have hcore := h.core r hr
    obtain ⟨hloading, hawaits⟩ := hcore.fits job (.inr rfl) hid.symm
    obtain ⟨hrequest, hdone, hmode, hpath⟩ := applied_frame host r (load host t addr job)
    have hnot : (r.applied host (load host t addr job)).loading ≠ true := by
      rw [hdone]
      exact Bool.false_ne_true
    refine ⟨h.toJobs.release.of_review _, ?_, ?_⟩
    · rintro _ ⟨⟩
      refine ⟨?_, fun e => absurd e hnot, ?_, fun e => absurd e hnot, ?_, ?_⟩
      · rw [hrequest]
        exact hcore.fresh
      · rintro j (hqueued | hnone) hj
        · rw [hrequest, hid] at hj
          exact absurd hj (Nat.ne_of_gt (h.distinct j job hqueued rfl))
        · cases hnone
      · exact fun _ herror => applied_shows (hcore.blank hloading).1 hawaits herror
      · rw [hmode, hpath]
        exact hcore.patchPath
    · rintro _ ⟨⟩
      exact applied_bounds (h.bounds r hr) hawaits

end

/-! ## runs -/

/-- **Step lemma.** Every event keeps the invariant. -/
theorem Inv.step {s s' : State π} {event : Event τ π} (h : ∃ held, Inv host s held)
    (hstep : step host s event = some s') : ∃ held, Inv host s' held := by
  obtain ⟨held, h⟩ := h
  cases event with
  | start =>
    cases hstep
    refine ⟨held, ?_⟩
    split_ifs with hqueue
    · exact h
    · have hnone := Option.not_isSome_iff_eq_none.mp hqueue
      have hflight : ∀ job, State.InFlight { s with queue := some none } held job ↔ s.InFlight held job := by
        intro job
        unfold State.InFlight
        rw [hnone]
        simp
      refine ⟨⟨h.has, fun job hjob => h.fresh job ((hflight job).mp hjob), fun _ _ e => by (cases e)⟩, ?_, h.bounds⟩
      exact fun r hr => (h.core r hr).of_flight rfl hflight
  | command cwd command =>
    cases hstep
    refine ⟨held, ?_⟩
    cases hdispatch : dispatch host s cwd command with
    | none => exact h
    | some t => exact dispatch_inv h hdispatch
  | openPatchFile cwd path =>
    cases hstep
    exact ⟨held, openPatchFile_inv h cwd path⟩
  | drop cwd paths =>
    cases hstep
    refine ⟨held, ?_⟩
    cases hdrop : acceptDrop host s cwd paths with
    | none => exact h
    | some t => exact acceptDrop_inv h hdrop
  | edit field text =>
    cases hstep
    refine ⟨held, h.toJobs.of_review _, ?_, ?_⟩
    · intro r' hr'
      obtain ⟨r, hr, rfl⟩ := Option.map_eq_some_iff.mp hr'
      have hc := h.core r hr
      cases field
      all_goals exact ⟨hc.fresh, hc.waits, hc.fits, hc.blank, hc.shows, hc.patchPath⟩
    · intro r' hr'
      obtain ⟨r, hr, rfl⟩ := Option.map_eq_some_iff.mp hr'
      have hb := h.bounds r hr
      cases field
      all_goals exact ⟨hb.views, hb.active, hb.viewed, hb.fileMatches, hb.row⟩
  | dismiss =>
    cases hstep
    exact ⟨held, h.toJobs.of_review none, fun _ e => by (cases e), fun _ e => by (cases e)⟩
  | take =>
    simp only [DiffReview.step] at hstep
    split at hstep
    · rename_i job hqueue hworker
      cases hstep
      exact ⟨_, take_inv h hqueue hworker⟩
    · cases hstep
  | load t =>
    simp only [DiffReview.step] at hstep
    split at hstep
    · rename_i job hworker
      cases hstep
      exact ⟨held, load_inv h t hworker⟩
    · cases hstep
  | apply =>
    simp only [DiffReview.step] at hstep
    split at hstep
    · rename_i result hworker
      cases hstep
      exact ⟨none, apply_inv h hworker⟩
    · cases hstep

/-- the invariant holds after every run -/
lemma inv_exec {s : State π} {events : List (Event τ π)} (h : exec (step host) (State.init π) events = some s) :
    ∃ held, Inv host s held :=
  Invariant.exec (I := fun s => ∃ held, Inv host s held) (fun _ _ _ => Inv.step) ⟨none, inv_init host⟩ h

/-- **Main result.** After every run of the user and the worker the open review is sound: while it loads its request is in
the queue or with the worker, what it shows otherwise are the rows of the selected file of its report, and its indices
are in range.  A result that is not of its current request is dropped. -/
theorem review_sound {s : State π} {events : List (Event τ π)}
    (h : exec (step host) (State.init π) events = some s) :
    (∀ r ∈ s.review, r.Sound host s) ∧
      ∀ result, s.worker = .loaded result → (∀ r ∈ s.review, r.request ≠ result.id) →
        step host s .apply = some { s with worker := .waiting } := by
  obtain ⟨held, hinv⟩ := inv_exec h
  refine ⟨fun r hr => hinv.sound hr, ?_⟩
  intro result hworker hother
  simp only [DiffReview.step, hworker]
  rcases apply_cases host { s with worker := .waiting } result with ⟨hnone, -⟩ | ⟨r, hr, hid, -⟩
  · rw [hnone]
    rfl
  · exact absurd hid (hother r hr)

/-! ## the worker comes to an end -/

/-- nothing is in flight: nothing is waited for -/
lemma Inv.idle {s : State π} (h : Inv host s none) (hqueue : ∀ job, s.queue ≠ some (some job)) :
    ∀ r ∈ s.review, r.loading = false := by
  intro r hr
  cases hloading : r.loading with
  | false => rfl
  | true =>
    obtain ⟨job, hqueued | hnone, -⟩ := (h.core r hr).waits hloading
    · exact absurd hqueued (hqueue job)
    · cases hnone

/-- the events of a worker that loads at the time `t` -/
def Event.OfWorker (t : τ) (event : Event τ π) : Prop := event = .take ∨ event = .load t ∨ event = .apply

/-- the worker has applied what it had -/
def State.done (host : Host τ π) (s : State π) (result : Loaded π) : State π :=
  (apply host { s with worker := .waiting } result).getD { s with worker := .waiting }

variable (host) in
lemma done_frame (s : State π) (result : Loaded π) :
    (s.done host result).queue = s.queue ∧ (s.done host result).worker = .waiting := by
  unfold State.done
  rcases apply_cases host { s with worker := .waiting } result with ⟨hnone, -⟩ | ⟨r, -, -, hsome⟩
  · rw [hnone]
    exact ⟨rfl, rfl⟩
  · rw [hsome]
    exact ⟨rfl, rfl⟩

variable (host) in
/-- the worker gives up the job that it has -/
lemma drain (t : τ) (s : State π) : ∃ events : List (Event τ π), (∀ event ∈ events, event.OfWorker t) ∧
    ∃ s', exec (step host) s events = some s' ∧ s'.queue = s.queue ∧ s'.worker = .waiting := by
  cases hworker : s.worker with
  | waiting => exact ⟨[], fun _ he => by (cases he), s, rfl, rfl, hworker⟩
  | loaded result =>
    refine ⟨[.apply], by simp [Event.OfWorker], s.done host result, ?_, done_frame host s result⟩
    simp [exec, DiffReview.step, hworker, State.done]
  | took job =>
    refine ⟨[.load t, .apply], by simp [Event.OfWorker], _, ?_,
      done_frame host { s with addr := s.addr + 1 } (load host t s.addr job)⟩
    simp [exec, DiffReview.step, hworker, State.done]

/-- from every state that a run leads to, the worker alone leads to one in which nothing is waited for -/
theorem review_settles {s : State π} {events : List (Event τ π)} (t : τ)
    (h : exec (step host) (State.init π) events = some s) :
    ∃ work : List (Event τ π), (∀ event ∈ work, event.OfWorker t) ∧
      ∃ s', exec (step host) s work = some s' ∧ ∀ r ∈ s'.review, r.loading = false := by
  -- the job that the worker has, and then the one in the queue
  obtain ⟨first, hfirst, u, hu, -, huworker⟩ := drain host t s
  have hreach : ∀ {work : List (Event τ π)} {s'}, exec (step host) s work = some s' → s'.worker = .waiting →
      Inv host s' none := by
    intro work s' hexec hwaiting
    have hall : exec (step host) (State.init π) (events ++ work) = some s' := by
      rw [exec_append, h]
      exact hexec
    obtain ⟨held, hinv⟩ := inv_exec hall
    have hhas := hinv.has
    rw [hwaiting] at hhas
    cases hhas
    exact hinv
  by_cases hqueue : ∃ job, u.queue = some (some job)
  · obtain ⟨job, hjob⟩ := hqueue
    obtain ⟨second, hsecond, v, hv, hvqueue, hvworker⟩ :=
      drain host t { u with queue := some none, worker := .took job }
    have hrun : exec (step host) s (first ++ .take :: second) = some v := by
      rw [exec_append, hu]
      show (step host u .take).bind _ = some v
      simp only [DiffReview.step, hjob, huworker]
      exact hv
    refine ⟨first ++ .take :: second, ?_, v, hrun, ?_⟩
    · intro event hmem
      rcases List.mem_append.mp hmem with hmem | hmem
      · exact hfirst event hmem
      rcases List.mem_cons.mp hmem with rfl | hmem
      · exact .inl rfl
      · exact hsecond event hmem
    · refine (hreach hrun hvworker).idle fun job' hjob' => ?_
      rw [hvqueue] at hjob'
      cases hjob'
  · exact ⟨first, hfirst, u, hu, (hreach hu huworker).idle fun job hjob => hqueue ⟨job, hjob⟩⟩

end

/-! ## a host -/

/-- a repository with one file and one changed line -/
def oneLineHost : Host Unit Unit where
  lowercase := id
  pathFrom := fun _ => ()
  extension := fun _ => none
  gitLoad := fun _ _ _ => .ok ((), [], [], [], [⟨"a".toList, none, some 1, some 0⟩])
  gitDiff := fun _ _ _ => .ok "@@ -0,0 +1 @@\n+x\n".toList
  openFile := fun _ _ => .error "no such file"

/-- a review is opened and answered -/
def openedRun : List (Event Unit Unit) := [.start, .command () (.open ()), .take, .load (), .apply]

theorem review_sound_opened :
    ∃ s, exec (step oneLineHost) (State.init Unit) openedRun = some s ∧
      (∃ r, s.review = some r ∧ r.loading = false ∧ r.lines.length = 2) ∧ ∀ r ∈ s.review, r.Sound oneLineHost s :=
  ⟨_, rfl, ⟨_, rfl, rfl, by decide⟩, (@review_sound Unit Unit oneLineHost _ openedRun rfl).1⟩

end TerminalManager.DiffReview
