import TerminalManager.Ui.AbsLines

/-!
# Links in a row

Ctrl+click and hover look for the URL under a cell (`terminal/mod.rs`).  The row is scanned twice, for
`https://` and then for `http://`, each time from the left and over whole runs of URL characters.

* `trimUrlTrailing`, `scanScheme`, `findUrlAtCol`, `urlMatchAt`   as in the source;
* `links`              what one scan can find, whatever the column;
* `scanScheme_eq`, `links_spec`, `links_apart`   a scan finds the link that covers the column, links
  are spelled out in the row, and links of one scheme share no cell;
* `consistent_iff`     **main result**: the cells of a link agree on it, but for an `http://` link with an
  `https://` link inside.
-/

namespace TerminalManager.Ui

structure TerminalUrlMatch where
  url : List Char
  startCol : Nat
  endCol : Nat
deriving DecidableEq, Repr

/-- the unreserved, gen-delim, sub-delim and percent characters -/
def isUrlChar (c : Char) : Bool :=
  ('a' ≤ c && c ≤ 'z') || ('A' ≤ c && c ≤ 'Z') || ('0' ≤ c && c ≤ '9') ||
    c ∈ ['-', '.', '_', '~', ':', '/', '?', '#', '[', ']', '@',
      '!', '$', '&', '\'', '(', ')', '*', '+', ',', ';', '=', '%']

/-- sentence punctuation at the end, and a closing bracket with no opener in the URL -/
def dropsLast (last : Char) (url : List Char) : Bool :=
  if last ∈ ['.', ',', ';', ':', '!', '?', '\'', '"', '<', '>'] then true
  else if last = ')' then url.count '(' < url.count ')'
  else if last = ']' then url.count '[' < url.count ']'
  else if last = '}' then url.count '{' < url.count '}'
  else false

/-- the loop of `trim_url_trailing`, on the URL from its end -/
def trimEnd : List Char → List Char
  | [] => []
  | last :: rest => if dropsLast last (last :: rest) then trimEnd rest else last :: rest

def trimUrlTrailing (url : List Char) : List Char := (trimEnd url.reverse).reverse

/-- the run of URL characters after a scheme that begins at a column -/
def urlBody (scheme line : List Char) (i : Nat) : List Char :=
  (line.drop (i + scheme.length)).takeWhile isUrlChar

/-- one pass of `find_url_at_col`, from the column `i` on -/
def scanScheme (scheme line : List Char) (col i : Nat) : Option TerminalUrlMatch :=
  if i + scheme.length ≤ line.length then
    if scheme.isPrefixOf (line.drop i) then
      let body := urlBody scheme line i
      let stop := i + scheme.length + body.length
      let url := trimUrlTrailing (scheme ++ body)
      let trimmedEnd := i + url.length
      if i + scheme.length < stop ∧ scheme.length < url.length ∧ i ≤ col ∧ col < trimmedEnd then
        some ⟨url, i, trimmedEnd - 1⟩
      else scanScheme scheme line col (max stop (i + 1))
    else scanScheme scheme line col (i + 1)
  else none
termination_by line.length + 1 - i

def https : List Char := ['h', 't', 't', 'p', 's', ':', '/', '/']

def http : List Char := ['h', 't', 't', 'p', ':', '/', '/']

def findUrlAtCol (line : List Char) (col : Nat) : Option TerminalUrlMatch :=
  if line.length ≤ col then none
  else (scanScheme https line col 0).or (scanScheme http line col 0)

/-- what one pass can find from the column `i` on -/
def links (scheme line : List Char) (i : Nat) : List TerminalUrlMatch :=
  if i + scheme.length ≤ line.length then
    if scheme.isPrefixOf (line.drop i) then
      let body := urlBody scheme line i
      let stop := i + scheme.length + body.length
      let url := trimUrlTrailing (scheme ++ body)
      if i + scheme.length < stop ∧ scheme.length < url.length then
        ⟨url, i, i + url.length - 1⟩ :: links scheme line (max stop (i + 1))
      else links scheme line (max stop (i + 1))
    else links scheme line (i + 1)
  else []
termination_by line.length + 1 - i

namespace TerminalUrlMatch

/-- the column is one of the cells of the link -/
def Covers (m : TerminalUrlMatch) (col : Nat) : Prop := m.startCol ≤ col ∧ col ≤ m.endCol

instance (m : TerminalUrlMatch) (col : Nat) : Decidable (m.Covers col) := inferInstanceAs (Decidable (_ ∧ _))

end TerminalUrlMatch

open TerminalUrlMatch (Covers)

variable {scheme line : List Char} {col i : Nat} {m k : TerminalUrlMatch}

/-! ## one pass -/

lemma trimEnd_suffix (url : List Char) : trimEnd url <:+ url := by
  induction url with
  | nil => exact List.suffix_refl []
  | cons last rest ih =>
    rw [trimEnd]
    split
    · exact ih.trans (List.suffix_cons last rest)
    · exact List.suffix_refl _

lemma trimUrlTrailing_starts (url : List Char) : trimUrlTrailing url <+: url := by
  obtain ⟨x, hx⟩ := trimEnd_suffix url.reverse
  refine ⟨x.reverse, ?_⟩
  rw [trimUrlTrailing, ← List.reverse_append, hx, List.reverse_reverse]

lemma scanScheme_eq (scheme line : List Char) (col i : Nat) :
    scanScheme scheme line col i = (links scheme line i).find? fun m => m.Covers col := by
  induction i using links.induct scheme line with
  | case1 i hle hpre body stop url hlink ih =>
    rw [scanScheme, links, if_pos hle, if_pos hpre, if_pos hle, if_pos hpre]
    dsimp only
    rw [if_pos hlink, List.find?_cons]
    have hurl : 0 < url.length := by omega
    by_cases hcol : i ≤ col ∧ col < i + url.length
    · have hcov : Covers ⟨url, i, i + url.length - 1⟩ col := ⟨hcol.1, by dsimp only; omega⟩
      rw [if_pos ⟨hlink.1, hlink.2, hcol⟩, decide_eq_true hcov]
    · have hcov : ¬Covers ⟨url, i, i + url.length - 1⟩ col := fun h => hcol ⟨h.1, by
        have h2 : col ≤ i + url.length - 1 := h.2
        omega⟩
      rw [if_neg (fun h => hcol h.2.2), decide_eq_false hcov]
      exact ih
  | case2 i hle hpre body stop url hlink ih =>
    rw [scanScheme, links, if_pos hle, if_pos hpre, if_pos hle, if_pos hpre]
    dsimp only
    rw [if_neg hlink, if_neg (fun h => hlink ⟨h.1, h.2.1⟩)]
    exact ih
  | case3 i hle hpre ih =>
    rw [scanScheme, links, if_pos hle, if_neg hpre, if_pos hle, if_neg hpre]
    exact ih
  | case4 i hle =>
    rw [scanScheme, links, if_neg hle, if_neg hle]
    rfl

/-- **A link is spelled out in the row**, and begins with its scheme and one more character. -/
structure IsLink (scheme line : List Char) (m : TerminalUrlMatch) : Prop where
  text : m.url <+: line.drop m.startCol
  stop : m.endCol + 1 = m.startCol + m.url.length
  begins : scheme <+: m.url
  host : scheme.length < m.url.length

/-- the characters from a scheme on, cut after its body -/
lemma body_in_row (hpre : scheme.isPrefixOf (line.drop i) = true) :
    scheme ++ urlBody scheme line i <+: line.drop i := by
  obtain ⟨rest, hrest⟩ := List.isPrefixOf_iff_prefix.mp hpre
  have hdrop : line.drop (i + scheme.length) = rest := by
    rw [← List.drop_drop, ← hrest]
    exact List.drop_left' rfl
  rw [← hrest, urlBody, hdrop]
  exact (List.prefix_append_right_inj scheme).mpr (List.takeWhile_prefix _)

theorem links_spec (h : m ∈ links scheme line i) : i ≤ m.startCol ∧ IsLink scheme line m := by
  induction i using links.induct scheme line with
  | case1 i hle hpre body stop url hlink ih =>
    rw [links, if_pos hle, if_pos hpre] at h
    dsimp only at h
    rw [if_pos hlink] at h
    rcases List.mem_cons.mp h with rfl | h
    · have htrim : url <+: scheme ++ body := trimUrlTrailing_starts _
      refine ⟨Nat.le_refl i, htrim.trans (body_in_row hpre), ?_, ?_, hlink.2⟩
      · show i + url.length - 1 + 1 = i + url.length
        omega
      · exact List.prefix_of_prefix_length_le (List.prefix_append _ _) htrim (Nat.le_of_lt hlink.2)
    · obtain ⟨hstart, hspec⟩ := ih h
      exact ⟨by omega, hspec⟩
  | case2 i hle hpre body stop url hlink ih =>
    rw [links, if_pos hle, if_pos hpre] at h
    dsimp only at h
    rw [if_neg hlink] at h
    obtain ⟨hstart, hspec⟩ := ih h
    exact ⟨by omega, hspec⟩
  | case3 i hle hpre ih =>
    rw [links, if_pos hle, if_neg hpre] at h
    obtain ⟨hstart, hspec⟩ := ih h
    exact ⟨by omega, hspec⟩
  | case4 i hle =>
    rw [links, if_neg hle] at h
    cases h

/-- **Links of one scheme share no cell.** -/
theorem links_apart (scheme line : List Char) (i : Nat) :
    (links scheme line i).Pairwise fun m k => m.endCol < k.startCol := by
  induction i using links.induct scheme line with
  | case1 i hle hpre body stop url hlink ih =>
    rw [links, if_pos hle, if_pos hpre]
    dsimp only
    rw [if_pos hlink]
    refine List.pairwise_cons.mpr ⟨fun k hk => ?_, ih⟩
    have hstart : max stop (i + 1) ≤ k.startCol := (links_spec hk).1
    have hlen := (trimUrlTrailing_starts (scheme ++ body)).length_le
    rw [List.length_append] at hlen
    show i + url.length - 1 < k.startCol
    have hstop : stop = i + scheme.length + body.length := rfl
    have hurl : url.length ≤ scheme.length + body.length := hlen
    omega
  | case2 i hle hpre body stop url hlink ih =>
    rw [links, if_pos hle, if_pos hpre]
    dsimp only
    rw [if_neg hlink]
    exact ih
  | case3 i hle hpre ih =>
    rw [links, if_pos hle, if_neg hpre]
    exact ih
  | case4 i hle =>
    rw [links, if_neg hle]
    exact List.Pairwise.nil

lemma find?_covers {found : List TerminalUrlMatch} (hapart : found.Pairwise fun m k => m.endCol < k.startCol)
    (hm : m ∈ found) (hcol : m.Covers col) : found.find? (fun k => k.Covers col) = some m := by
  induction found with
  | nil => cases hm
  | cons k rest ih =>
    obtain ⟨hk, hrest⟩ := List.pairwise_cons.mp hapart
    rw [List.find?_cons]
    rcases List.mem_cons.mp hm with rfl | hm
    · rw [decide_eq_true hcol]
    · have hkcol : ¬k.Covers col := fun h => by
        have hlt := hk m hm
        have h1 := h.2
        have h2 := hcol.1
        omega
      rw [decide_eq_false hkcol]
      exact ih hrest hm

/-- a pass finds a link exactly on its cells -/
theorem scanScheme_iff : scanScheme scheme line col 0 = some m ↔ m ∈ links scheme line 0 ∧ m.Covers col := by
  rw [scanScheme_eq]
  constructor
  · intro h
    have hcol := List.find?_some h
    exact ⟨List.mem_of_find?_eq_some h, of_decide_eq_true hcol⟩
  · rintro ⟨hm, hcol⟩
    exact find?_covers (links_apart scheme line 0) hm hcol

/-! ## both passes -/

/-- a link lies within the row -/
lemma IsLink.endCol_lt (h : IsLink scheme line m) : m.endCol < line.length := by
  have hlen := h.text.length_le
  have hstop := h.stop
  have hhost := h.host
  rw [List.length_drop] at hlen
  omega

/-- `https://` links go first -/
lemma findUrlAtCol_iff : findUrlAtCol line col = some m ↔ (m ∈ links https line 0 ∧ m.Covers col) ∨
    (m ∈ links http line 0 ∧ m.Covers col ∧ ∀ k ∈ links https line 0, ¬k.Covers col) := by
  have hin : ∀ {scheme}, m ∈ links scheme line 0 → m.Covers col → ¬line.length ≤ col := fun hm hcol => by
    have hlt := (links_spec hm).2.endCol_lt
    have hle := hcol.2
    omega
  unfold findUrlAtCol
  cases hs : scanScheme https line col 0 with
  | some k =>
    obtain ⟨hk, hkcol⟩ := scanScheme_iff.mp hs
    rw [Option.some_or]
    constructor
    · intro h
      split at h
      · cases h
      · obtain rfl := Option.some.inj h
        exact .inl ⟨hk, hkcol⟩
    · rintro (⟨hm, hcol⟩ | ⟨-, -, hnone⟩)
      · rw [if_neg (hin hm hcol), ← hs]
        exact scanScheme_iff.mpr ⟨hm, hcol⟩
      · exact absurd hkcol (hnone k hk)
  | none =>
    have hnone : ∀ k ∈ links https line 0, ¬k.Covers col := fun k hk hkcol => by
      rw [scanScheme_iff.mpr ⟨hk, hkcol⟩] at hs
      cases hs
    rw [Option.none_or]
    constructor
    · intro h
      split at h
      · cases h
      · obtain ⟨hm, hcol⟩ := scanScheme_iff.mp h
        exact .inr ⟨hm, hcol, hnone⟩
    · rintro (⟨hm, hcol⟩ | ⟨hm, hcol, -⟩)
      · exact absurd hcol (hnone m hm)
      · rw [if_neg (hin hm hcol)]
        exact scanScheme_iff.mpr ⟨hm, hcol⟩

/-- what a click on a column is promised by the link it finds -/
structure Consistent (line : List Char) (col : Nat) (m : TerminalUrlMatch) : Prop where
  covers : m.Covers col
  text : m.url = (line.drop m.startCol).take (m.endCol + 1 - m.startCol)
  stop : m.endCol < line.length
  begins : (https <+: m.url ∧ https.length < m.url.length) ∨ (http <+: m.url ∧ http.length < m.url.length)
  agree : ∀ c, m.Covers c → findUrlAtCol line c = some m

/-- the column is on an `http://` link that shares a cell with an `https://` link, and not on an
`https://` link -/
def Crossed (line : List Char) (col : Nat) : Prop :=
  ∃ m ∈ links http line 0, m.Covers col ∧ (∃ k ∈ links https line 0, ∃ c, k.Covers c ∧ m.Covers c) ∧
    ∀ k ∈ links https line 0, ¬k.Covers col

lemma IsLink.consistent (h : IsLink scheme line m) (hs : scheme = https ∨ scheme = http) (hcol : m.Covers col)
    (hagree : ∀ c, m.Covers c → findUrlAtCol line c = some m) : Consistent line col m := by
  refine ⟨hcol, ?_, h.endCol_lt, ?_, hagree⟩
  · have hlen : m.endCol + 1 - m.startCol = m.url.length := by
      have hstop := h.stop
      omega
    rw [hlen]
    exact List.prefix_iff_eq_take.mp h.text
  · rcases hs with rfl | rfl
    · exact .inl ⟨h.begins, h.host⟩
    · exact .inr ⟨h.begins, h.host⟩

/-- **The cells of a link agree on it, but for an `http://` link with an `https://` link inside.** -/
theorem consistent_iff (line : List Char) (col : Nat) :
    (∀ m, findUrlAtCol line col = some m → Consistent line col m) ↔ ¬Crossed line col := by
  constructor
  · rintro h ⟨m, hm, hcol, ⟨k, hk, c, hkc, hmc⟩, hnone⟩
    have hfound := findUrlAtCol_iff.mpr (.inr ⟨hm, hcol, hnone⟩)
    have hother := findUrlAtCol_iff.mpr (.inl ⟨hk, hkc⟩)
    -- the same column gives the other link
    obtain rfl := Option.some.inj (((h m hfound).agree c hmc).symm.trans hother)
    exact hnone m hk hcol
  · intro h m hm
    rcases findUrlAtCol_iff.mp hm with ⟨hm, hcol⟩ | ⟨hm, hcol, hnone⟩
    · exact (links_spec hm).2.consistent (.inl rfl) hcol fun c hc => findUrlAtCol_iff.mpr (.inl ⟨hm, hc⟩)
    · refine (links_spec hm).2.consistent (.inr rfl) hcol fun c hc =>
        findUrlAtCol_iff.mpr (.inr ⟨hm, hc, fun k hk hkc => ?_⟩)
      exact h ⟨m, hm, hcol, ⟨k, hk, c, hkc, hc⟩, hnone⟩

/-- a click on the first part of this row opens all of it, a click on the second part does not -/
theorem inner_link_differs :
    ¬∀ m, findUrlAtCol "http://a/https://b".toList 8 = some m →
      ∀ c, m.Covers c → findUrlAtCol "http://a/https://b".toList c = some m := by
  intro h
  have h8 : findUrlAtCol "http://a/https://b".toList 8 = some ⟨"http://a/https://b".toList, 0, 17⟩ := by
    decide +kernel
  have h9 : findUrlAtCol "http://a/https://b".toList 9 = some ⟨"https://b".toList, 9, 17⟩ := by decide +kernel
  have hsame := h _ h8 9 (by decide)
  rw [h9] at hsame
  exact absurd hsame (by decide)

/-! ## in the terminal -/

namespace Terminal

variable {F : Type}

/-- the row of an absolute line, one character a column -/
def rowText (t : Terminal F) (abs : Nat) : List Char :=
  (List.range t.cols).map fun c =>
    match t.cellAtAbs abs c with
    | some cell => if cell.ch = '\u0000' then ' ' else cell.ch
    | none => ' '

def urlMatchAt (t : Terminal F) (abs col : Nat) : Option TerminalUrlMatch :=
  if t.cols = 0 ∨ t.cols ≤ col then none else findUrlAtCol (t.rowText abs) col

def urlAt (t : Terminal F) (abs col : Nat) : Option (List Char) :=
  (t.urlMatchAt abs col).map TerminalUrlMatch.url

/-- hover and click look at the same row -/
theorem urlMatchAt_agrees {t : Terminal F} {abs col : Nat} {m : TerminalUrlMatch}
    (h : t.urlMatchAt abs col = some m) (hcross : ¬Crossed (t.rowText abs) col) {c : Nat} (hc : m.Covers c) :
    t.urlMatchAt abs c = some m ∧ t.urlAt abs c = some m.url := by
  unfold urlMatchAt at h
  split at h
  · cases h
  · rename_i hcols
    have hm := (consistent_iff (t.rowText abs) col).mpr hcross m h
    have hlen : (t.rowText abs).length = t.cols := by
      rw [rowText, List.length_map, List.length_range]
    have hstop := hm.stop
    have hle := hc.2
    have hsame : t.urlMatchAt abs c = some m := by
      unfold urlMatchAt
      rw [if_neg (by omega)]
      exact hm.agree c hc
    exact ⟨hsame, by rw [urlAt, hsame]; rfl⟩

end Terminal
end TerminalManager.Ui
