import TerminalManager.Lib.Paths

/-!
# Paths inside a repository

A path out of a diff or a flow document is opened in an editor, so it must not leave the repository.

* `resolveInRepo`   the path under the root, `none` for one that is refused;
* `Inside`          a path is the root and one or more ordinary names;
* `resolveInRepo_inside_iff`   what is returned is inside the root, but on Windows for a part after the first that
  starts with a drive; `resolveInRepo_adrift` says what is returned then.
-/

namespace TerminalManager.App
open Paths

/-- one turn of the loop over the components -/
def pushComponent (os : Os) (resolved : List Component) : Component → Option (List Component)
  | .normal part => some (push os resolved part)
  | .curDir => some resolved
  | _ => none

def resolveInRepo (os : Os) (root : List Component) (relative : List Char) : Option (List Component) :=
  if '\\' ∈ relative then none
  else if startsWithDrive relative then none
  else (components os relative).foldlM (pushComponent os) root |>.bind fun resolved =>
    if resolved ≠ root then some resolved else none

/-- strictly inside: the root, then names -/
def Inside (os : Os) (root p : List Component) : Prop :=
  ∃ names : List (List Char), names ≠ [] ∧ (∀ name ∈ names, Ordinary os name) ∧ p = root ++ names.map .normal

/-- the parts between slashes -/
def parts (relative : List Char) : List (List Char) := relative.splitOnP (· = '/')

/-- a backslash, a drive or a slash in front, or a part that goes up -/
def Refused (relative : List Char) : Prop :=
  '\\' ∈ relative ∨ startsWithDrive relative = true ∨ relative.head? = some '/' ∨ ['.', '.'] ∈ parts relative

/-- no part that is pushed starts with a drive, or it is not Windows -/
def Stays (os : Os) (relative : List Char) : Prop :=
  os = .unix ∨ Refused relative ∨ ∀ part ∈ parts relative, startsWithDrive part = false

variable {os : Os} {root p q : List Component} {relative name : List Char} {cs : List Component}

/-! ## the loop -/

/-- one component that is neither a name nor a dot refuses the path -/
lemma foldlM_none (h : ∃ c ∈ cs, c ≠ .curDir ∧ ∀ name, c ≠ .normal name) :
    cs.foldlM (pushComponent os) root = none := by
  induction cs generalizing root with
  | nil =>
    obtain ⟨c, hc, -⟩ := h
    exact absurd hc List.not_mem_nil
  | cons d cs ih =>
    have hrest : (∃ c ∈ cs, c ≠ .curDir ∧ ∀ name, c ≠ .normal name) →
        ∀ o : Option (List Component), (o.bind fun q => cs.foldlM (pushComponent os) q) = none := by
      intro hcs o
      cases o with
      | none => rfl
      | some q => exact ih hcs
    rw [List.foldlM_cons]
    obtain ⟨c, hc, hcur, hnormal⟩ := h
    rcases List.mem_cons.mp hc with rfl | hc
    · cases c with
      | normal name => exact absurd rfl (hnormal name)
      | curDir => exact absurd rfl hcur
      | lead _ => rfl
      | rootDir => rfl
      | parentDir => rfl
    · exact hrest ⟨c, hc, hcur, hnormal⟩ _

/-- ordinary names are put at the end of the root -/
lemma foldlM_inside (h : ∀ name, .normal name ∈ cs → Ordinary os name)
    (hrun : cs.foldlM (pushComponent os) root = some p) :
    ∃ names : List (List Char), (∀ name ∈ names, Ordinary os name) ∧ p = root ++ names.map .normal := by
  induction cs generalizing root with
  | nil =>
    cases hrun
    exact ⟨[], by simp, by simp⟩
  | cons c cs ih =>
    rw [List.foldlM_cons] at hrun
    obtain ⟨q, hq, hrest⟩ := Option.bind_eq_some_iff.mp hrun
    obtain ⟨names, hnames, rfl⟩ := ih (fun name hin => h name (List.mem_cons_of_mem c hin)) hrest
    cases c with
    | normal name =>
      have hname := h name List.mem_cons_self
      obtain rfl := Option.some.inj hq
      refine ⟨name :: names, ?_, ?_⟩
      · intro n hn
        rcases List.mem_cons.mp hn with rfl | hn
        · exact hname
        · exact hnames n hn
      · rw [push_ordinary hname, List.append_assoc]
        rfl
    | curDir =>
      obtain rfl := Option.some.inj hq
      exact ⟨names, hnames, rfl⟩
    | lead _ => cases hq
    | rootDir => cases hq
    | parentDir => cases hq

/-- a path on a drive, without a root -/
def Adrift (p : List Component) : Prop := ∃ drive rest, p = .lead (.disk drive) :: rest ∧ .rootDir ∉ rest

lemma Adrift.not_rooted (h : Adrift p) : .rootDir ∉ p := by
  obtain ⟨drive, rest, rfl, hrest⟩ := h
  rw [List.mem_cons, not_or]
  exact ⟨by simp, hrest⟩

/-- a name on a drive is pushed over whatever was there -/
lemma push_drive (h : Adrift (components os name)) (path : List Component) : Adrift (push os path name) := by
  obtain ⟨drive, rest, heq, hrest⟩ := h
  have hpush : push os path name = components os name := by
    unfold push
    dsimp only
    rw [heq]
    rfl
  rw [hpush, heq]
  exact ⟨drive, rest, rfl, hrest⟩

/-- once the path is adrift, or a name on a drive comes, it stays adrift -/
lemma foldlM_adrift (h : ∀ c ∈ cs, c = .curDir ∨ ∃ name, c = .normal name ∧
      (Ordinary os name ∨ Adrift (components os name)))
    (hdrive : Adrift root ∨ ∃ name, .normal name ∈ cs ∧ Adrift (components os name)) :
    ∃ p, cs.foldlM (pushComponent os) root = some p ∧ Adrift p := by
  induction cs generalizing root with
  | nil =>
    rcases hdrive with hroot | ⟨name, hin, -⟩
    · exact ⟨root, rfl, hroot⟩
    · exact absurd hin List.not_mem_nil
  | cons c cs ih =>
    have hcs : ∀ d ∈ cs, d = .curDir ∨ ∃ name, d = .normal name ∧
        (Ordinary os name ∨ Adrift (components os name)) := fun d hd => h d (List.mem_cons_of_mem c hd)
    rw [List.foldlM_cons]
    rcases h c List.mem_cons_self with rfl | ⟨name, rfl, hname⟩
    · apply ih hcs
      rcases hdrive with hroot | ⟨name, hin, hadrift⟩
      · exact .inl hroot
      · exact .inr ⟨name, (List.mem_cons.mp hin).resolve_left (by simp), hadrift⟩
    · apply ih hcs
      rcases hname with hname | hname
      · rcases hdrive with ⟨drive, rest, rfl, hrest⟩ | ⟨other, hin, hadrift⟩
        · left
          refine ⟨drive, rest ++ [.normal name], by rw [push_ordinary hname]; rfl, ?_⟩
          rw [List.mem_append, not_or]
          exact ⟨hrest, by simp⟩
        · right
          refine ⟨other, (List.mem_cons.mp hin).resolve_left ?_, hadrift⟩
          intro heq
          cases heq
          obtain ⟨drive, rest, heq, -⟩ := hadrift
          have hname' : components os name = [.normal name] := hname
          rw [hname'] at heq
          cases heq
      · exact .inl (push_drive hname root)

/-! ## the components of a path that is not refused -/

/-- a slash is the only separator in it -/
lemma isSep_of_mem (hback : '\\' ∉ relative) (os : Os) : ∀ c ∈ relative, isSep os c = decide (c = '/') := by
  intro c hc
  have hne : c ≠ '\\' := fun heq => hback (heq ▸ hc)
  unfold isSep
  rw [decide_eq_false hne, Bool.and_false, Bool.or_false]

lemma isSep_of_mem_part (hback : '\\' ∉ relative) {part : List Char} (hpart : part ∈ parts relative) :
    ∀ c ∈ part, isSep .windows c = false := by
  intro c hc
  obtain ⟨hin, hslash⟩ := mem_splitOnP hpart c hc
  rw [isSep_of_mem hback .windows c hin]
  exact hslash

lemma components_relative (hback : '\\' ∉ relative) (hdrive : startsWithDrive relative = false)
    (hslash : relative.head? ≠ some '/') (os : Os) : components os relative =
      (if (parts relative).head? = some ['.'] then [.curDir] else []) ++
        (parts relative).filterMap (parsePart false) := by
  have hhead : ∀ os, ∀ c ∈ relative.head?, isSep os c = false := by
    intro os c hc
    rw [isSep_of_mem hback os c (List.mem_of_mem_head? hc)]
    refine decide_eq_false ?_
    rintro rfl
    exact hslash hc
  have hrooted : relative.head?.any (isSep os) = false := by
    cases hr : relative.head? with
    | none => rfl
    | some c => exact hhead os c hr
  have hparsed : (if os = .windows then parsePrefix relative else none) = none := by
    split
    · exact parsePrefix_none (hhead .windows) hdrive
    · rfl
  have hsplit : relative.splitOnP (isSep os) = parts relative := splitOnP_congr (isSep_of_mem hback os)
  unfold components
  rw [hparsed]
  show bodyComponents (isSep os) false false relative = _
  unfold bodyComponents
  dsimp only
  rw [hrooted, hsplit]
  rfl

/-- dots, steps up and names -/
lemma mem_components (hback : '\\' ∉ relative) (hdrive : startsWithDrive relative = false)
    (hslash : relative.head? ≠ some '/') {c : Component} (hc : c ∈ components os relative) :
    c = .curDir ∨ (c = .parentDir ∧ ['.', '.'] ∈ parts relative) ∨
      ∃ name ∈ parts relative, parsePart false name = some (.normal name) ∧ c = .normal name := by
  rw [components_relative hback hdrive hslash, List.mem_append] at hc
  rcases hc with hdot | hpart
  · split at hdot
    · exact .inl (List.mem_singleton.mp hdot)
    · exact absurd hdot List.not_mem_nil
  · obtain ⟨part, hin, hparse⟩ := List.mem_filterMap.mp hpart
    have hcases := hparse
    unfold parsePart at hcases
    split at hcases
    next => cases hcases
    next => cases hcases
    next => exact .inr (.inl ⟨(Option.some.inj hcases).symm, hin⟩)
    next =>
      obtain rfl := Option.some.inj hcases
      exact .inr (.inr ⟨part, hin, hparse, rfl⟩)

/-- a slash in front is a prefix or the root -/
lemma components_slash (os : Os) (hslash : relative.head? = some '/') :
    ∃ c ∈ components os relative, c ≠ .curDir ∧ ∀ name, c ≠ .normal name := by
  unfold components
  split
  next =>
    refine ⟨.rootDir, ?_, by simp, by simp⟩
    unfold bodyComponents
    rw [hslash]
    cases os <;> exact List.mem_cons_self
  next p body _ => exact ⟨.lead p, List.mem_cons_self, by simp, by simp⟩

/-! ## what is returned -/

lemma resolveInRepo_refused (h : Refused relative) (os : Os) (root : List Component) :
    resolveInRepo os root relative = none := by
  unfold resolveInRepo
  split
  · rfl
  next hback =>
  split
  · rfl
  next hdrive =>
  have hdrive' : startsWithDrive relative = false := Bool.eq_false_iff.mpr hdrive
  have hbad : ∃ c ∈ components os relative, c ≠ .curDir ∧ ∀ name, c ≠ .normal name := by
    by_cases hslash : relative.head? = some '/'
    · exact components_slash os hslash
    rcases h with h | h | h | h
    · exact absurd h hback
    · exact absurd h hdrive
    · exact absurd h hslash
    · refine ⟨.parentDir, ?_, by simp, by simp⟩
      rw [components_relative hback hdrive' hslash]
      exact List.mem_append_right _ (List.mem_filterMap.mpr ⟨_, h, rfl⟩)
  rw [foldlM_none hbad]
  rfl

/-- what is left of a text that is not refused -/
lemma not_refused (h : ¬Refused relative) : '\\' ∉ relative ∧ startsWithDrive relative = false ∧
    relative.head? ≠ some '/' ∧ ['.', '.'] ∉ parts relative := by
  unfold Refused at h
  simp only [not_or] at h
  exact ⟨h.1, Bool.eq_false_iff.mpr h.2.1, h.2.2.1, h.2.2.2⟩

lemma resolveInRepo_stays (h : Stays os relative) (hp : resolveInRepo os root relative = some p) :
    Inside os root p := by
  by_cases href : Refused relative
  · rw [resolveInRepo_refused href] at hp
    cases hp
  obtain ⟨hback, hdrive, hslash, hdots⟩ := not_refused href
  have hordinary : ∀ name, .normal name ∈ components os relative → Ordinary os name := by
    intro name hin
    rcases mem_components hback hdrive hslash hin with hcur | ⟨hpar, -⟩ | ⟨name', hpart, hparse, heq⟩
    · cases hcur
    · cases hpar
    cases heq
    refine ordinary_of_part (isSep_of_mem_part hback hpart) hparse ?_
    intro hos
    rcases h with hunix | href' | hall
    · rw [hunix] at hos
      cases hos
    · exact absurd href' href
    · exact hall name hpart
  unfold resolveInRepo at hp
  rw [if_neg hback, if_neg (Bool.eq_false_iff.mp hdrive)] at hp
  obtain ⟨q, hrun, hq⟩ := Option.bind_eq_some_iff.mp hp
  split at hq
  case isFalse => cases hq
  next hne =>
  obtain rfl := Option.some.inj hq
  obtain ⟨names, hnames, rfl⟩ := foldlM_inside hordinary hrun
  refine ⟨names, ?_, hnames, rfl⟩
  rintro rfl
  exact hne (by simp)

/-- otherwise a rooted path is left for one on a drive -/
lemma resolveInRepo_adrift (h : ¬Stays os relative) (hroot : .rootDir ∈ root) :
    ∃ p, resolveInRepo os root relative = some p ∧ Adrift p := by
  unfold Stays at h
  simp only [not_or, not_forall] at h
  obtain ⟨hos, href, part, hpart, hdrivePart⟩ := h
  have hos' : os = .windows := by
    cases os with
    | unix => exact absurd rfl hos
    | windows => rfl
  subst hos'
  obtain ⟨hback, hdrive, hslash, hdots⟩ := not_refused href
  have hadrift : ∀ name ∈ parts relative, startsWithDrive name = true → Adrift (components .windows name) :=
    fun name hin hname => components_drive (isSep_of_mem_part hback hin) hname
  have hcomponents : ∀ c ∈ components .windows relative, c = .curDir ∨ ∃ name, c = .normal name ∧
      (Ordinary .windows name ∨ Adrift (components .windows name)) := by
    intro c hc
    rcases mem_components hback hdrive hslash hc with rfl | ⟨-, hup⟩ | ⟨name, hin, hparse, rfl⟩
    · exact .inl rfl
    · exact absurd hup hdots
    · refine .inr ⟨name, rfl, ?_⟩
      cases hname : startsWithDrive name with
      | true => exact .inr (hadrift name hin hname)
      | false => exact .inl (ordinary_of_part (isSep_of_mem_part hback hin) hparse fun _ => hname)
  have hpartDrive : startsWithDrive part = true := eq_true_of_ne_false hdrivePart
  have hpushed : .normal part ∈ components .windows relative := by
    rw [components_relative hback hdrive hslash]
    refine List.mem_append_right _ (List.mem_filterMap.mpr ⟨part, hpart, parsePart_name ?_ ?_ ?_⟩)
    · rintro rfl
      exact absurd hpartDrive (by decide)
    · rintro rfl
      exact absurd hpartDrive (by decide)
    · rintro rfl
      exact absurd hpartDrive (by decide)
  obtain ⟨p, hrun, hp⟩ := @foldlM_adrift .windows root _ hcomponents (.inr ⟨part, hpushed, hadrift part hpart hpartDrive⟩)
  refine ⟨p, ?_, hp⟩
  unfold resolveInRepo
  rw [if_neg hback, if_neg (Bool.eq_false_iff.mp hdrive), hrun]
  show (if p ≠ root then some p else none) = some p
  rw [if_pos]
  rintro rfl
  exact hp.not_rooted hroot

/-- a path inside a rooted one is rooted -/
lemma Inside.rooted (h : Inside os root p) (hroot : .rootDir ∈ root) : .rootDir ∈ p := by
  obtain ⟨names, -, -, rfl⟩ := h
  exact List.mem_append_left _ hroot

/-- the same for any one root with a root directory in it, as a repository has -/
theorem resolveInRepo_rooted_iff (os : Os) (relative : List Char) (hroot : .rootDir ∈ root) :
    (∀ p, resolveInRepo os root relative = some p → Inside os root p) ↔ Stays os relative := by
  constructor
  · intro h
    by_contra hstays
    obtain ⟨p, hp, hadrift⟩ := resolveInRepo_adrift hstays hroot
    exact hadrift.not_rooted ((h p hp).rooted hroot)
  · intro h p hp
    exact resolveInRepo_stays h hp

/-- **Main result.** Whatever the root, what is returned lies strictly inside it, if and only if no part that is pushed
starts with a drive on Windows. -/
theorem resolveInRepo_inside_iff (os : Os) (relative : List Char) :
    (∀ root p, resolveInRepo os root relative = some p → Inside os root p) ↔ Stays os relative := by
  constructor
  · intro h
    exact (resolveInRepo_rooted_iff os relative List.mem_cons_self).mp fun p hp => h [.rootDir] p hp
  · intro h root p hp
    exact resolveInRepo_stays h hp

/-- `src/C:/x` leaves the root `C:\\repo` on Windows -/
theorem resolveInRepo_drive :
    resolveInRepo .windows [.lead (.disk 'C'), .rootDir, .normal ['r', 'e', 'p', 'o']] "src/C:/x".toList
      = some [.lead (.disk 'C'), .normal ['x']] ∧
    ¬Inside .windows [.lead (.disk 'C'), .rootDir, .normal ['r', 'e', 'p', 'o']] [.lead (.disk 'C'), .normal ['x']] := by
  refine ⟨by decide, ?_⟩
  intro h
  exact absurd (h.rooted (by decide)) (by decide)

end TerminalManager.App
