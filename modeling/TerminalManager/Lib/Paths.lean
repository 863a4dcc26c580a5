import Mathlib.Data.List.Basic

/-!
# Paths of two operating systems

A path is the list of its components, read from a text by the rules of the system.  On Windows a text can start with
a prefix, and pushing one that does replaces the whole path.

* `components os text`   the text taken apart;
* `push os path text`    the path extended by a text;
* `Ordinary os name`     a text that is one name and nothing else; `push_ordinary` puts it at the end of the path;
* `components_drive`     a name behind a drive letter takes the place of the path, without its root.
-/

namespace Paths

inductive Os where
  | unix
  | windows
deriving DecidableEq

inductive Prefix where
  | verbatim (name : List Char)
  | verbatimUNC (server share : List Char)
  | verbatimDisk (drive : Char)
  | deviceNS (name : List Char)
  | unc (server share : List Char)
  | disk (drive : Char)
deriving DecidableEq

def Prefix.isVerbatim : Prefix → Bool
  | .verbatim _ | .verbatimUNC _ _ | .verbatimDisk _ => true
  | _ => false

/-- all but a drive start at a root -/
def Prefix.hasImplicitRoot : Prefix → Bool
  | .disk _ => false
  | _ => true

inductive Component where
  | lead (p : Prefix)
  | rootDir
  | curDir
  | parentDir
  | normal (name : List Char)
deriving DecidableEq

def isSep (os : Os) (c : Char) : Bool := c = '/' || os = .windows && c = '\\'

/-- a letter and a colon in front -/
def startsWithDrive : List Char → Bool
  | a :: ':' :: _ => a.isAlpha
  | _ => false

/-- what comes before the next separator, and what from it on -/
def untilSep (sep : Char → Bool) (text : List Char) : List Char × List Char :=
  (text.takeWhile (!sep ·), text.dropWhile (!sep ·))

/-- after `\\?\`; only backslashes separate -/
def parseVerbatim (text : List Char) : Prefix × List Char :=
  let next := untilSep (· = '\\')
  match text with
  | 'U' :: 'N' :: 'C' :: '\\' :: rest =>
    let (server, rest) := next rest
    let (share, rest) := next (rest.drop 1)
    (.verbatimUNC server share, rest)
  | _ =>
    let (name, rest) := next text
    match name with
    | [drive, ':'] => if drive.isAlpha then (.verbatimDisk drive.toUpper, rest) else (.verbatim name, rest)
    | _ => (.verbatim name, rest)

/-- the prefix of a Windows path, and the rest of it -/
def parsePrefix (text : List Char) : Option (Prefix × List Char) :=
  let sep := isSep .windows
  match text with
  | '\\' :: '\\' :: '?' :: '\\' :: rest => some (parseVerbatim rest)
  | a :: b :: rest =>
    if sep a && sep b then
      if rest.head? = some '.' && (rest[1]?.any sep) then
        let (name, rest) := untilSep sep (rest.drop 2)
        some (.deviceNS name, rest)
      else
        let (server, rest) := untilSep sep rest
        let (share, rest) := untilSep sep (rest.drop 1)
        if server ≠ [] ∧ share ≠ [] then some (.unc server share, rest) else none
    else if startsWithDrive text then some (.disk a.toUpper, rest)
    else none
  | _ => none

/-- what stands between two separators; empty parts and the dots inside a path do not count -/
def parsePart (verbatim : Bool) : List Char → Option Component
  | [] => none
  | ['.'] => if verbatim then some .curDir else none
  | ['.', '.'] => some .parentDir
  | name => some (.normal name)

/-- the components behind the prefix, if any -/
def bodyComponents (sep : Char → Bool) (verbatim implicitRoot : Bool) (body : List Char) : List Component :=
  let rooted := body.head?.any sep || implicitRoot
  let parts := body.splitOnP sep
  (if rooted then [.rootDir] else if parts.head? = some ['.'] then [.curDir] else []) ++
    parts.filterMap (parsePart verbatim)

def components (os : Os) (text : List Char) : List Component :=
  match (if os = .windows then parsePrefix text else none) with
  | none => bodyComponents (isSep os) false false text
  | some (p, body) => .lead p ::
    bodyComponents (if p.isVerbatim then (· = '\\') else isSep os) p.isVerbatim p.hasImplicitRoot body

/-- a path with a verbatim prefix has no dots, those of what is pushed are worked out -/
def resolveDots (path : List Component) : Component → List Component
  | .rootDir => path.take 1 ++ [.rootDir]
  | .curDir => path
  | .parentDir =>
    match path.getLast? with
    | some (.normal _) => path.dropLast
    | _ => path
  | c => path ++ [c]

def isLead : Component → Bool
  | .lead _ => true
  | _ => false

def isVerbatim : List Component → Bool
  | .lead p :: _ => p.isVerbatim
  | _ => false

def push (os : Os) (path : List Component) (text : List Char) : List Component :=
  let pushed := components os text
  if pushed.head?.any isLead || (os = .unix && pushed.head? = some .rootDir) then pushed
  else if isVerbatim path then pushed.foldl resolveDots path
  else if pushed.head? = some .rootDir then path.filter isLead ++ pushed
  else if path = [] then pushed
  else path ++ pushed.filter (· ≠ .curDir)

/-- a name, and nothing else -/
def Ordinary (os : Os) (name : List Char) : Prop := components os name = [.normal name]

variable {os : Os} {path : List Component} {text name : List Char} {c : Char} {p q : Char → Bool}

/-! ## parts -/

lemma splitOnP_congr (h : ∀ c ∈ text, p c = q c) : text.splitOnP p = text.splitOnP q := by
  induction text with
  | nil => rfl
  | cons c text ih =>
    rw [List.splitOnP_cons_eq_if_modifyHead, List.splitOnP_cons_eq_if_modifyHead, h c List.mem_cons_self,
      ih fun d hd => h d (List.mem_cons_of_mem c hd)]

/-- the parts are made of the characters that do not separate -/
lemma mem_splitOnP {part : List Char} (hpart : part ∈ text.splitOnP p) : ∀ c ∈ part, c ∈ text ∧ p c = false := by
  induction text generalizing part with
  | nil =>
    intro c hc
    rw [List.splitOnP_nil, List.mem_singleton] at hpart
    rw [hpart] at hc
    exact absurd hc List.not_mem_nil
  | cons d text ih =>
    have hlater : ∀ part ∈ text.splitOnP p, ∀ c ∈ part, c ∈ d :: text ∧ p c = false := by
      intro part hin c hc
      exact ⟨List.mem_cons_of_mem d (ih hin c hc).1, (ih hin c hc).2⟩
    rw [List.splitOnP_cons_eq_if_modifyHead] at hpart
    split at hpart
    · rcases List.mem_cons.mp hpart with rfl | hin
      · intro c hc
        exact absurd hc List.not_mem_nil
      · exact hlater part hin
    next hd =>
      obtain ⟨head, tail, hsplit⟩ := List.exists_cons_of_ne_nil (List.splitOnP_ne_nil p text)
      rw [hsplit, List.modifyHead_cons] at hpart
      rcases List.mem_cons.mp hpart with rfl | hin
      · intro c hc
        rcases List.mem_cons.mp hc with rfl | hc
        · exact ⟨List.mem_cons_self, Bool.eq_false_iff.mpr hd⟩
        · exact hlater head (by rw [hsplit]; exact List.mem_cons_self) c hc
      · exact hlater part (by rw [hsplit]; exact List.mem_cons_of_mem head hin)

/-- a part that is a name -/
lemma parsePart_normal (h : parsePart false text = some (.normal name)) :
    name = text ∧ text ≠ [] ∧ text ≠ ['.'] ∧ text ≠ ['.', '.'] := by
  unfold parsePart at h
  split at h
  next => cases h
  next => cases h
  next => cases h
  next hnil hdot hdots =>
    cases h
    exact ⟨rfl, hnil, hdot, hdots⟩

lemma parsePart_name (hnil : text ≠ []) (hdot : text ≠ ['.']) (hdots : text ≠ ['.', '.']) :
    parsePart false text = some (.normal text) := by
  unfold parsePart
  split
  next => exact absurd rfl hnil
  next => exact absurd rfl hdot
  next => exact absurd rfl hdots
  next => rfl

/-! ## names -/

/-- a text without separators that does not start with a drive has no prefix -/
lemma parsePrefix_none (hsep : ∀ c ∈ text.head?, isSep .windows c = false) (hdrive : startsWithDrive text = false) :
    parsePrefix text = none := by
  cases text with
  | nil => rfl
  | cons a rest =>
    have ha : isSep .windows a = false := hsep a rfl
    have hback : a ≠ '\\' := by
      rintro rfl
      exact absurd ha (by decide)
    unfold parsePrefix
    split
    next heq => exact absurd (List.cons.inj heq).1 hback
    next heq =>
      obtain ⟨rfl, rfl⟩ := List.cons.inj heq
      dsimp only
      rw [ha, hdrive]
      rfl
    next => rfl

lemma isSep_windows_of (h : isSep .windows c = false) (os : Os) : isSep os c = false := by
  cases os with
  | unix =>
    rw [isSep, Bool.or_eq_false_iff] at h ⊢
    exact ⟨h.1, rfl⟩
  | windows => exact h

/-- text without separators is one part -/
lemma bodyComponents_part (h : ∀ c ∈ text, isSep os c = false) :
    bodyComponents (isSep os) false false text =
      (if text = ['.'] then [.curDir] else []) ++ (parsePart false text).toList := by
  have hhead : text.head?.any (isSep os) = false := by
    cases text with
    | nil => rfl
    | cons c text => exact h c List.mem_cons_self
  unfold bodyComponents
  dsimp only
  rw [hhead, List.splitOnP_eq_singleton h]
  simp only [Bool.or_false, Bool.false_eq_true, if_false, List.head?_cons, Option.some.injEq]
  cases hp : parsePart false text <;> simp [hp]

/-- a part of a path is an ordinary name unless it starts with a drive on Windows -/
lemma ordinary_of_part (hsep : ∀ c ∈ name, isSep .windows c = false) (hname : parsePart false name = some (.normal name))
    (hdrive : os = .windows → startsWithDrive name = false) : Ordinary os name := by
  have hparsed : (if os = .windows then parsePrefix name else none) = none := by
    split
    next hos => exact parsePrefix_none (fun c hc => hsep c (List.mem_of_mem_head? hc)) (hdrive hos)
    next => rfl
  obtain ⟨-, -, hdot, -⟩ := parsePart_normal hname
  unfold Ordinary components
  rw [hparsed]
  show bodyComponents (isSep os) false false name = _
  rw [bodyComponents_part fun c hc => isSep_windows_of (hsep c hc) os, hname, if_neg hdot]
  rfl

theorem push_ordinary (h : Ordinary os name) (path : List Component) : push os path name = path ++ [.normal name] := by
  have hhead : (([Component.normal name].head?.any isLead ||
      (os = .unix && [Component.normal name].head? = some .rootDir)) : Bool) = false := by
    cases os <;> rfl
  unfold push
  rw [h]
  dsimp only
  rw [hhead, if_neg Bool.false_ne_true]
  split
  · rfl
  rw [if_neg (by simp)]
  split
  next hnil => rw [hnil, List.nil_append]
  next => rfl

lemma parsePart_ne_rootDir (text : List Char) : parsePart false text ≠ some .rootDir := by
  unfold parsePart
  split <;> simp

/-- a name behind a drive letter is a path of its own, without a root -/
theorem components_drive (hsep : ∀ c ∈ name, isSep .windows c = false) (hdrive : startsWithDrive name = true) :
    ∃ drive rest, components .windows name = .lead (.disk drive) :: rest ∧ .rootDir ∉ rest := by
  obtain ⟨a, rest, rfl⟩ : ∃ a rest, name = a :: ':' :: rest := by
    unfold startsWithDrive at hdrive
    split at hdrive
    · exact ⟨_, _, rfl⟩
    · exact absurd hdrive Bool.false_ne_true
  have ha : isSep .windows a = false := hsep a List.mem_cons_self
  have hback : a ≠ '\\' := by
    rintro rfl
    exact absurd ha (by decide)
  have hparsed : parsePrefix (a :: ':' :: rest) = some (.disk a.toUpper, rest) := by
    unfold parsePrefix
    split
    next heq => exact absurd (List.cons.inj heq).1 hback
    next b c later _ heq =>
      simp only [List.cons.injEq] at heq
      obtain ⟨rfl, rfl, rfl⟩ := heq
      dsimp only
      rw [ha, hdrive]
      rfl
    next hnone => exact absurd rfl (hnone a ':' rest)
  refine ⟨a.toUpper, bodyComponents (isSep .windows) false false rest, ?_, ?_⟩
  · unfold components
    rw [if_pos rfl, hparsed]
    rfl
  · rw [bodyComponents_part fun c hc => hsep c (List.mem_cons_of_mem _ (List.mem_cons_of_mem _ hc)), List.mem_append,
      Option.mem_toList]
    rintro (hdot | hpart)
    · split at hdot
      · exact absurd hdot (by decide)
      · exact absurd hdot List.not_mem_nil
    · exact parsePart_ne_rootDir rest hpart

end Paths
