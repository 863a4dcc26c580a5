import TerminalManager.Keybinds.Combo
import TerminalManager.Lib.Utf8

/-!
# The matcher of the command palette

The bytes of the query are looked for in the text one after the other, each at its first place after the one before.

* `fuzzyMatch`            the score of a text and where the bytes of the query are;
* `fuzzyMatch_isSome`     a text matches exactly when the query is a subsequence of it;
* `fuzzyMatch_trim`       blanks around the query do not matter;
* `isAsciiCiSubsequence_iff`   so it is with the test without a score.
-/

namespace TerminalManager.Palette
open Keybinds (trim trim_eq_rdropWhile trim_trim toLower_cases)

/-- the text in the lower case of ASCII -/
def toAsciiLowercase (text : List Char) : List Char := text.map Char.toLower

/-- an `i32`, wrapped -/
def wrap (x : Int) : Int := Int.bmod x 4294967296

def isAsciiAlphanumeric (b : UInt8) : Bool := (48 ≤ b && b ≤ 57) || (65 ≤ b && b ≤ 90) || (97 ≤ b && b ≤ 122)

/-- the byte before `idx`, which is in the text, is no letter and no digit -/
def isWordBoundary (text : List UInt8) (idx : Nat) : Bool :=
  idx = 0 || (text[idx - 1]?).all fun prev => !isAsciiAlphanumeric prev

structure FuzzyScore where
  score : Int
  indices : List Nat
deriving DecidableEq, Repr

/-- the score with one more byte at `idx` -/
def addHit (original : List UInt8) (previous : Option Nat) (idx : Nat) (score : Int) : Int :=
  let score := wrap (score + 100)
  let score := if isWordBoundary original idx then wrap (score + 25) else score
  let score := if idx = 0 then wrap (score + 15) else score
  match previous with
  | some prev => if idx = prev + 1 then wrap (score + 40) else wrap (score - (min (idx - (prev + 1)) 30 : Nat))
  | none => score

/-- the loop over the bytes of the query -/
def matchFrom (text original : List UInt8) : List UInt8 → (searchFrom : Nat) → (previous : Option Nat) → FuzzyScore →
    Option FuzzyScore
  | [], _, _, found => some found
  | needle :: query, searchFrom, previous, found => do
    let rel ← (text.drop searchFrom).findIdx? (· = needle)
    let idx := searchFrom + rel
    matchFrom text original query (idx + 1) (some idx)
      ⟨addHit original previous idx found.score, found.indices ++ [idx]⟩

def fuzzyMatch (query text : List Char) : Option FuzzyScore :=
  let query := toAsciiLowercase (trim query)
  if query = [] then some ⟨0, []⟩
  else do
    let found ← matchFrom (asBytes (toAsciiLowercase text)) (asBytes text) (asBytes query) 0 none ⟨0, []⟩
    match found.indices.head? with
    | some first => some { found with score := wrap (found.score - (min first 40 : Nat)) }
    | none => some found

def lowerByte (b : UInt8) : UInt8 := if 65 ≤ b ∧ b ≤ 90 then b + 32 else b

/-- the loop over the haystack, with what is still to be found -/
def isAsciiCiSubsequence : (needle haystack : List UInt8) → Bool
  | needle, [] => needle.isEmpty
  | [], _ :: _ => true
  | want :: needle, byte :: haystack =>
    if lowerByte byte = want then isAsciiCiSubsequence needle haystack
    else isAsciiCiSubsequence (want :: needle) haystack

/-! ## subsequences -/

/-- the first place of the first element is as good as any other -/
lemma cons_sublist_iff_findIdx? {α : Type*} [DecidableEq α] (a : α) (l t : List α) :
    (a :: l).Sublist t ↔ ∃ k, t.findIdx? (· = a) = some k ∧ l.Sublist (t.drop (k + 1)) := by
  induction t with
  | nil => simp
  | cons b t ih =>
    rw [List.findIdx?_cons]
    by_cases hb : b = a
    · subst hb
      rw [List.cons_sublist_cons]
      simp
    · have hskip : (a :: l).Sublist (b :: t) ↔ (a :: l).Sublist t := by
        constructor
        · intro h
          cases h with
          | cons _ h => exact h
          | cons_cons _ h => exact absurd rfl hb
        · exact fun h => h.cons b
      rw [hskip, ih]
      simp [hb]

lemma matchFrom_isSome (text original query : List UInt8) (searchFrom : Nat) (previous : Option Nat) (found : FuzzyScore) :
    (matchFrom text original query searchFrom previous found).isSome ↔ query.Sublist (text.drop searchFrom) := by
  induction query generalizing searchFrom previous found with
  | nil => simp [matchFrom]
  | cons needle query ih =>
    rw [matchFrom, cons_sublist_iff_findIdx?]
    cases hfind : (text.drop searchFrom).findIdx? (· = needle) with
    | none => simp
    | some k =>
      simp only [Option.bind_eq_bind, Option.bind_some, ih, Option.some.injEq, exists_eq_left', List.drop_drop]
      rw [Nat.add_assoc]

/-! ## lower case -/

lemma lowerByte_eq {b : UInt8} (h : b.toNat < 65 ∨ 90 < b.toNat) : lowerByte b = b := by
  apply if_neg
  intro hb
  have hlo : 65 ≤ b.toNat := UInt8.le_iff_toNat_le.mp hb.1
  have hhi : b.toNat ≤ 90 := UInt8.le_iff_toNat_le.mp hb.2
  omega

lemma utf8EncodeChar_toLower (c : Char) : String.utf8EncodeChar c.toLower = (String.utf8EncodeChar c).map lowerByte := by
  rcases toLower_cases c with ⟨hlower, hrange⟩ | ⟨n, rfl⟩
  · have hbytes : ∀ b ∈ String.utf8EncodeChar c, lowerByte b = b := by
      intro b hb
      apply lowerByte_eq
      rcases utf8EncodeChar_cases c with ⟨hascii, heq⟩ | hhigh
      · rw [heq, List.mem_singleton] at hb
        rw [hb, UInt8.toNat_ofNat', show c.val.toNat = c.toNat from rfl]
        have : c.toNat < 128 := hascii
        omega
      · have := hhigh b hb
        omega
    rw [hlower, List.map_congr_left hbytes, List.map_id']
  · revert n
    decide

/-- lower case byte by byte -/
lemma asBytes_toAsciiLowercase (text : List Char) : asBytes (toAsciiLowercase text) = (asBytes text).map lowerByte := by
  induction text with
  | nil => rfl
  | cons c text ih =>
    have hcons : toAsciiLowercase (c :: text) = c.toLower :: toAsciiLowercase text := rfl
    rw [hcons, asBytes_cons, asBytes_cons, List.map_append, ih, utf8EncodeChar_toLower]

/-- the bytes that are looked for -/
def needle (query : List Char) : List UInt8 := asBytes (toAsciiLowercase (trim query))

/-- **A text matches exactly when the query is a subsequence of it**, in lower case. -/
theorem fuzzyMatch_isSome (query text : List Char) :
    (fuzzyMatch query text).isSome ↔ (needle query).Sublist ((asBytes text).map lowerByte) := by
  unfold fuzzyMatch
  dsimp only
  split_ifs with hblank
  · rw [needle, hblank]
    simp
  · have hloop := matchFrom_isSome (asBytes (toAsciiLowercase text)) (asBytes text) (needle query) 0 none ⟨0, []⟩
    rw [List.drop_zero, asBytes_toAsciiLowercase text] at hloop
    rw [← hloop, asBytes_toAsciiLowercase text]
    show (Option.bind (matchFrom _ _ (needle query) 0 none ⟨0, []⟩) _).isSome ↔ _
    cases matchFrom ((asBytes text).map lowerByte) (asBytes text) (needle query) 0 none ⟨0, []⟩ with
    | none => simp
    | some found =>
      rw [Option.bind_some]
      cases found.indices.head? <;> simp

lemma isAsciiCiSubsequence_iff (needle haystack : List UInt8) :
    isAsciiCiSubsequence needle haystack = true ↔ needle.Sublist (haystack.map lowerByte) := by
  induction haystack generalizing needle with
  | nil => cases needle <;> simp [isAsciiCiSubsequence]
  | cons byte haystack ih =>
    cases needle with
    | nil => simp [isAsciiCiSubsequence]
    | cons want needle =>
      rw [isAsciiCiSubsequence, List.map_cons]
      split_ifs with hwant
      · rw [hwant, List.cons_sublist_cons]
        exact ih needle
      · rw [ih (want :: needle)]
        constructor
        · exact fun h => h.cons _
        · intro h
          cases h with
          | cons _ h => exact h
          | cons_cons _ h => exact absurd rfl hwant

/-! ## blanks -/

/-- what is written after a query only makes it longer -/
lemma trim_append (query more : List Char) (h : trim query ≠ []) : trim query <+: trim (query ++ more) := by
  have hne : query.dropWhile Editor.isWhitespace ≠ [] := by
    intro hnil
    apply h
    rw [trim_eq_rdropWhile, hnil]
    rfl
  rw [trim_eq_rdropWhile (query ++ more), List.dropWhile_append, if_neg (by simpa [List.isEmpty_iff] using hne),
    trim_eq_rdropWhile]
  generalize query.dropWhile Editor.isWhitespace = start
  unfold List.rdropWhile
  rw [List.reverse_append, List.dropWhile_append]
  split_ifs
  · exact List.prefix_refl _
  · rw [List.reverse_append, List.reverse_reverse]
    exact (List.rdropWhile_prefix _ _).trans (List.prefix_append _ _)

lemma fuzzyMatch_trim (query text : List Char) : fuzzyMatch (trim query) text = fuzzyMatch query text := by
  unfold fuzzyMatch
  rw [trim_trim]

/-- a longer query has more to be found -/
lemma needle_append (query more : List Char) (h : trim query ≠ []) : (needle query).Sublist (needle (query ++ more)) := by
  obtain ⟨rest, hrest⟩ := trim_append query more h
  rw [needle, needle, ← hrest, toAsciiLowercase, toAsciiLowercase, List.map_append, asBytes_append]
  exact List.sublist_append_left _ _

end TerminalManager.Palette
