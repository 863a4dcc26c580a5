import TerminalManager.Diff.Parse

/-!
# What a diff document promises

* `WellFormed next banned d cap`   what the viewer relies on, for the successor `next` of a line
                                   number and the characters that no line may hold;
* `Layout`, `Hunked`, `Numbered`   its parts over the rows, and what one more row does to each.
-/

namespace TerminalManager.Diff
open Editor (Line)
open Lines

/-! ## what is promised -/

/-- the last number on a side since the last hunk header -/
def lastNo (side : DiffRowInfo → Option Nat) (rows : List DiffRowInfo) : Option Nat :=
  rows.foldl (fun last r => if r.kind = .hunkHeader then none else (side r).or last) none

/-- a number on a side is the successor of the one before it in its hunk -/
def Numbered (next : Nat → Nat) (side : DiffRowInfo → Option Nat) (rows : List DiffRowInfo) : Prop :=
  ∀ (i : Nat) (r : DiffRowInfo), rows[i]? = some r →
    ∀ n m, lastNo side (rows.take i) = some n → side r = some m → m = next n

/-- the sides on which a row has a number -/
def DiffRowInfo.Sided (r : DiffRowInfo) : Prop :=
  (r.oldNo.isSome ↔ r.kind = .context ∨ r.kind = .removed) ∧
    (r.newNo.isSome ↔ r.kind = .context ∨ r.kind = .added)

structure WellFormed (next : Nat → Nat) (banned : List Char) (d : DiffDocument) (cap : Nat) : Prop where
  parallel : d.lines.length = d.rows.length
  budget : d.rows.length ≤ cap
  valid : ∀ r ∈ d.rows, r.file < d.files.length
  header : ∀ (k : Nat) (info : DiffFileInfo), d.files[k]? = some info →
    ∃ r, d.rows[info.firstRow]? = some r ∧ r.kind = .fileHeader ∧ r.file = k
  ascending : ∀ info ∈ d.files, info.hunkRows.Pairwise (· < ·)
  hunks : ∀ (k : Nat) (info : DiffFileInfo), d.files[k]? = some info →
    ∀ i : Nat, i ∈ info.hunkRows ↔ ∃ r, d.rows[i]? = some r ∧ r.kind = .hunkHeader ∧ r.file = k
  sections : ∀ (k : Nat) (info : DiffFileInfo), d.files[k]? = some info →
    ∀ (i : Nat) (r : DiffRowInfo), d.rows[i]? = some r →
    (r.file = k ↔ info.firstRow ≤ i ∧ ∀ after : DiffFileInfo, d.files[k + 1]? = some after → i < after.firstRow)
  unbroken : ∀ l ∈ d.lines, ∀ c ∈ banned, c ∉ l
  sided : ∀ r ∈ d.rows, r.Sided
  oldNumbers : Numbered next DiffRowInfo.oldNo d.rows
  newNumbers : Numbered next DiffRowInfo.newNo d.rows
  notice : d.truncated = true → d.files ≠ [] →
    d.rows.getLast?.map DiffRowInfo.kind = some .note ∧ d.lines.getLast? = some truncationNotice
/-! ## one more row -/

section
variable {rows : List DiffRowInfo} {row r : DiffRowInfo} {i : Nat}

lemma lastNo_snoc (side : DiffRowInfo → Option Nat) : lastNo side (rows ++ [row]) =
    if row.kind = .hunkHeader then none else (side row).or (lastNo side rows) := by
  unfold lastNo
  rw [List.foldl_append]
  rfl

theorem Numbered.snoc {next : Nat → Nat} {side : DiffRowInfo → Option Nat}
    (h : Numbered next side rows)
    (hrow : ∀ n m, lastNo side rows = some n → side row = some m → m = next n) :
    Numbered next side (rows ++ [row]) := by
  intro i r hr n m hn hm
  rcases getElem?_snoc hr with hr' | ⟨rfl, rfl⟩
  · obtain ⟨hi, -⟩ := List.getElem?_eq_some_iff.mp hr'
    rw [List.take_append_of_le_length (Nat.le_of_lt hi)] at hn
    exact h i r hr' n m hn hm
  · rw [List.take_left'] at hn
    exacts [hrow n m hn hm, rfl]

/-! ## the layout of the sections -/

/-- the rows of the file `k` are those from `starts[k]` to the next start -/
structure Layout (rows : List DiffRowInfo) (starts : List Nat) : Prop where
  valid : ∀ r ∈ rows, r.file < starts.length
  few : 2 * starts.length ≤ rows.length + 1
  header : ∀ (k start : Nat), starts[k]? = some start →
    ∃ r, rows[start]? = some r ∧ r.kind = .fileHeader ∧ r.file = k
  sections : ∀ (k start : Nat), starts[k]? = some start → ∀ (i : Nat) r, rows[i]? = some r →
    (r.file = k ↔ start ≤ i ∧ ∀ after, starts[k + 1]? = some after → i < after)

variable {starts : List Nat}

lemma Layout.start_lt (h : Layout rows starts) {k start : Nat} (hk : starts[k]? = some start) :
    start < rows.length := by
  obtain ⟨r, hr, -⟩ := h.header k start hk
  exact (List.getElem?_eq_some_iff.mp hr).1

/-- one more row of the last file -/
theorem Layout.append (h : Layout rows starts) (hrow : row.file + 1 = starts.length) :
    Layout (rows ++ [row]) starts where
  valid := by
    intro r hr
    rcases List.mem_append.mp hr with hr | hr
    · exact h.valid r hr
    · rw [List.mem_singleton.mp hr]
      omega
  few := by
    have := h.few
    rw [List.length_append]
    omega
  header := by
    intro k start hk
    obtain ⟨r, hr, hkind⟩ := h.header k start hk
    exact ⟨r, getElem?_snoc_of hr, hkind⟩
  sections := by
    intro k start hk i r hr
    rcases getElem?_snoc hr with hr | ⟨rfl, rfl⟩
    · exact h.sections k start hk i r hr
    · have hstart := h.start_lt hk
      have hklt := (List.getElem?_eq_some_iff.mp hk).1
      constructor
      · intro e
        refine ⟨Nat.le_of_lt hstart, fun after hafter => ?_⟩
        have := (List.getElem?_eq_some_iff.mp hafter).1
        omega
      · rintro ⟨-, hlast⟩
        by_contra hne
        have hlt : k + 1 < starts.length := by omega
        have := hlast _ (List.getElem?_eq_getElem hlt)
        have := h.start_lt (List.getElem?_eq_getElem hlt)
        omega

/-- the header row of a new file -/
theorem Layout.openFile (h : Layout rows starts) (hkind : row.kind = .fileHeader)
    (hfile : row.file = starts.length) (hfew : 2 * starts.length ≤ rows.length) :
    Layout (rows ++ [row]) (starts ++ [rows.length]) where
  valid := by
    intro r hr
    rw [List.length_append, List.length_singleton]
    rcases List.mem_append.mp hr with hr | hr
    · exact Nat.lt_succ_of_lt (h.valid r hr)
    · rw [List.mem_singleton.mp hr, hfile]
      exact Nat.lt_succ_self _
  few := by
    rw [List.length_append, List.length_append, List.length_singleton, List.length_singleton]
    omega
  header := by
    intro k start hk
    rcases getElem?_snoc hk with hk | ⟨rfl, rfl⟩
    · obtain ⟨r, hr, hkind⟩ := h.header k start hk
      exact ⟨r, getElem?_snoc_of hr, hkind⟩
    · exact ⟨row, List.getElem?_concat_length .., hkind, hfile⟩
  sections := by
    intro k start hk i r hr
    rcases getElem?_snoc hk with hk | ⟨rfl, rfl⟩
    · have hstart := h.start_lt hk
      have hklt := (List.getElem?_eq_some_iff.mp hk).1
      rcases getElem?_snoc hr with hr | ⟨rfl, rfl⟩
      · have hilt := (List.getElem?_eq_some_iff.mp hr).1
        rw [h.sections k start hk i r hr]
        refine and_congr_right fun _ => ⟨fun hi after hafter => ?_, fun hi after hafter => ?_⟩
        · rcases getElem?_snoc hafter with hafter | ⟨-, rfl⟩
          exacts [hi after hafter, hilt]
        · exact hi after (getElem?_snoc_of hafter)
      · constructor
        · intro e
          omega
        · rintro ⟨-, hlast⟩
          by_cases hk1 : k + 1 < starts.length
          · have := hlast _ (getElem?_snoc_of (List.getElem?_eq_getElem hk1))
            have := h.start_lt (List.getElem?_eq_getElem hk1)
            omega
          · have hk1 : k + 1 = starts.length := by omega
            have := hlast rows.length (by rw [hk1]; exact List.getElem?_concat_length ..)
            omega
    · rcases getElem?_snoc hr with hr | ⟨rfl, rfl⟩
      · have hilt := (List.getElem?_eq_some_iff.mp hr).1
        have := h.valid r (List.mem_of_getElem? hr)
        constructor
        · intro e
          omega
        · rintro ⟨hle, -⟩
          omega
      · refine iff_of_true hfile ⟨Nat.le_refl _, fun after hafter => ?_⟩
        obtain ⟨hlt, -⟩ := List.getElem?_eq_some_iff.mp hafter
        rw [List.length_append, List.length_singleton] at hlt
        omega

/-! ## the hunks of the files -/

/-- every file lists exactly the rows of its hunk headers, in order -/
def Hunked (rows : List DiffRowInfo) (hunks : List (List Nat)) : Prop :=
  ∀ (k : Nat) (hs : List Nat), hunks[k]? = some hs → hs.Pairwise (· < ·) ∧
    ∀ i : Nat, i ∈ hs ↔ ∃ r, rows[i]? = some r ∧ r.kind = .hunkHeader ∧ r.file = k

variable {hunks : List (List Nat)}

lemma Hunked.lt (h : Hunked rows hunks) {k i : Nat} {hs : List Nat} (hk : hunks[k]? = some hs)
    (hi : i ∈ hs) : i < rows.length := by
  obtain ⟨r, hr, -⟩ := ((h k hs hk).2 i).mp hi
  exact (List.getElem?_eq_some_iff.mp hr).1

/-- one more row, not the header of a hunk of the file `k` -/
lemma hunkHeader_snoc {k i : Nat} (hrow : ¬ (row.kind = .hunkHeader ∧ row.file = k)) :
    (∃ r, (rows ++ [row])[i]? = some r ∧ r.kind = .hunkHeader ∧ r.file = k) ↔
      ∃ r, rows[i]? = some r ∧ r.kind = .hunkHeader ∧ r.file = k := by
  constructor
  · rintro ⟨r, hr, hkind⟩
    rcases getElem?_snoc hr with hr | ⟨-, rfl⟩
    exacts [⟨r, hr, hkind⟩, absurd hkind hrow]
  · rintro ⟨r, hr, hkind⟩
    exact ⟨r, getElem?_snoc_of hr, hkind⟩

theorem Hunked.append (h : Hunked rows hunks) (hrow : row.kind ≠ .hunkHeader) :
    Hunked (rows ++ [row]) hunks := by
  intro k hs hk
  refine ⟨(h k hs hk).1, fun i => ?_⟩
  rw [hunkHeader_snoc fun hr => hrow hr.1]
  exact (h k hs hk).2 i

/-- a new file has no hunk yet -/
theorem Hunked.openFile (h : Hunked rows hunks) (hvalid : ∀ r ∈ rows, r.file < hunks.length) :
    Hunked rows (hunks ++ [[]]) := by
  intro k hs hk
  rcases getElem?_snoc hk with hk | ⟨rfl, rfl⟩
  · exact h k hs hk
  · refine ⟨List.Pairwise.nil, fun i => iff_of_false List.not_mem_nil ?_⟩
    rintro ⟨r, hr, -, hfile⟩
    have := hvalid r (List.mem_of_getElem? hr)
    omega

/-- the header of a hunk, recorded in its file -/
theorem Hunked.hunk (h : Hunked rows hunks) (hkind : row.kind = .hunkHeader) :
    Hunked (rows ++ [row]) (hunks.modify row.file (· ++ [rows.length])) := by
  intro k hs hk
  rw [List.getElem?_modify] at hk
  obtain ⟨hs', hk', e⟩ := Option.map_eq_some_iff.mp hk
  obtain ⟨hasc, hex⟩ := h k hs' hk'
  by_cases hf : row.file = k
  · rw [if_pos hf] at e
    subst e
    constructor
    · refine List.pairwise_append.mpr ⟨hasc, List.pairwise_singleton .., fun i hi j hj => ?_⟩
      rw [List.mem_singleton.mp hj]
      exact h.lt hk' hi
    · intro i
      rw [List.mem_append, List.mem_singleton, hex i]
      constructor
      · rintro (⟨r, hr, hrk⟩ | rfl)
        · exact ⟨r, getElem?_snoc_of hr, hrk⟩
        · exact ⟨row, List.getElem?_concat_length .., hkind, hf⟩
      · rintro ⟨r, hr, hrk⟩
        rcases getElem?_snoc hr with hr | ⟨hi, -⟩
        exacts [Or.inl ⟨r, hr, hrk⟩, Or.inr hi]
  · rw [if_neg hf] at e
    subst e
    refine ⟨hasc, fun i => ?_⟩
    rw [hunkHeader_snoc fun hr => hf hr.2]
    exact hex i

end

end TerminalManager.Diff
