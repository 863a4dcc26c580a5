import Mathlib.Data.List.Chain
import TerminalManager.Lib.Deletion
import TerminalManager.Lib.Utf8
import TerminalManager.Term.Vte

/-!
# Pasted text

What is pasted goes to the program in the terminal between two markers, so the text must not contain them: it could end
the paste itself, and what follows would count as typed.

* `normalizePastedText`   the markers deleted until there is none left, then every newline a carriage return;
* `normalizePastedText_safe`   no marker and no line feed is left, a second time changes nothing, and a text without
  markers keeps everything but its newlines;
* `written_end`      the end marker stands at the end of what is written, nowhere else.
-/

namespace TerminalManager.App
open Deletion Term

def pasteStart : List UInt8 := [0x1b, 0x5b, 0x32, 0x30, 0x30, 0x7e]

def pasteEnd : List UInt8 := [0x1b, 0x5b, 0x32, 0x30, 0x31, 0x7e]

/-- whether one of the two markers lies ahead -/
def isMarker : List UInt8 → Bool
  | 0x1b :: 0x5b :: 0x32 :: 0x30 :: d :: 0x7e :: _ => d = 0x30 || d = 0x31
  | _ => false

/-- sweep after sweep, the six bytes of each marker that a sweep comes to are left out -/
def stripMarkers (bytes : List UInt8) : List UInt8 := exhaust isMarker 5 bytes

def canonNewlines : List UInt8 → List UInt8
  | [] => []
  | 0x0d :: 0x0a :: rest => 0x0d :: canonNewlines rest
  | 0x0d :: rest => 0x0d :: canonNewlines rest
  | 0x0a :: rest => 0x0d :: canonNewlines rest
  | b :: rest => b :: canonNewlines rest

/-- `lossy` is `from_utf8_lossy`, the way out that is never taken -/
def normalizePastedText (lossy : List UInt8 → String) (text : String) : String :=
  if text = "" then ""
  else
    let out := canonNewlines (stripMarkers (utf8 text))
    (fromUtf8 out).getD (lossy out)

/-- what is written to the terminal, in markers when the program asked for them -/
def written (bracketed : Bool) (payload : String) : List UInt8 :=
  if bracketed then pasteStart ++ utf8 payload ++ pasteEnd else utf8 payload

/-! ## the lines of a text -/

inductive Newline where
  | crlf
  | lf
  | cr

def Newline.chars : Newline → List UInt8
  | .crlf => [0x0d, 0x0a]
  | .lf => [0x0a]
  | .cr => [0x0d]

/-- a first line, and the other ones after their newlines -/
def joined (newline : Newline → List UInt8) (line : List UInt8) (others : List (Newline × List UInt8)) : List UInt8 :=
  line ++ others.flatMap fun next => newline next.1 ++ next.2

/-- a text read as lines: none of them has a newline in it, and a carriage return with a line feed after it is one
newline -/
structure Reading (bytes line : List UInt8) (others : List (Newline × List UInt8)) : Prop where
  eq : bytes = joined Newline.chars line others
  plain : ∀ b ∈ line, b ≠ 0x0d ∧ b ≠ 0x0a
  othersPlain : ∀ next ∈ others, ∀ b ∈ next.2, b ≠ 0x0d ∧ b ≠ 0x0a
  longest : others.IsChain fun next after => ¬(next = (.cr, []) ∧ after.1 = .lf)

variable {b : UInt8} {bytes rest m : List UInt8}

/-! ## markers -/

lemma isMarker_iff : isMarker bytes = true ↔ pasteStart <+: bytes ∨ pasteEnd <+: bytes := by
  constructor
  · intro h
    unfold isMarker at h
    split at h
    · rcases Bool.or_eq_true_iff.mp h with hd | hd
      · rw [decide_eq_true_iff.mp hd]
        exact .inl ⟨_, rfl⟩
      · rw [decide_eq_true_iff.mp hd]
        exact .inr ⟨_, rfl⟩
    · exact absurd h Bool.false_ne_true
  · rintro (⟨rest, rfl⟩ | ⟨rest, rfl⟩) <;> rfl

/-- the test holds nowhere when neither marker is a part of the text -/
lemma clean_iff : Clean isMarker bytes ↔ ¬pasteStart <:+: bytes ∧ ¬pasteEnd <:+: bytes := by
  constructor
  · intro h
    have hpart : ∀ m, m ≠ [] → (∀ ys, m <+: ys → isMarker ys = true) → ¬m <:+: bytes := by
      intro m hne hm hin
      obtain ⟨ys, hpre, hsuf⟩ := List.infix_iff_prefix_suffix.mp hin
      cases ys with
      | nil => exact hne (List.prefix_nil.mp hpre)
      | cons x ys =>
        have := h x ys hsuf
        rw [hm _ hpre] at this
        exact absurd this Bool.true_eq_false.mp
    refine ⟨hpart pasteStart (by decide) fun ys hys => ?_, hpart pasteEnd (by decide) fun ys hys => ?_⟩
    · rw [isMarker_iff]
      exact .inl hys
    · rw [isMarker_iff]
      exact .inr hys
  · intro h x ys hsuf
    by_contra hx
    rw [Bool.not_eq_false, isMarker_iff] at hx
    rcases hx with hpre | hpre
    · exact h.1 (List.infix_iff_prefix_suffix.mpr ⟨_, hpre, hsuf⟩)
    · exact h.2 (List.infix_iff_prefix_suffix.mpr ⟨_, hpre, hsuf⟩)

/-- what lies after a marker is valid when the marker and what lies after it are -/
lemma isUtf8_drop (hm : isMarker (b :: rest) = true) (h : IsUtf8 rest) : IsUtf8 (rest.drop 5) := by
  have hascii : ∀ (d : UInt8) later, d.toNat < 128 → [0x1b, 0x5b, 0x32, 0x30, d, 0x7e] ++ later = b :: rest →
      IsUtf8 (rest.drop 5) := by
    intro d later hd heq
    obtain ⟨-, rfl⟩ := List.cons.inj heq
    have hbytes : IsUtf8 (0x5b :: 0x32 :: 0x30 :: d :: 0x7e :: later) := h
    rw [isUtf8_cons (b := 0x5b) (by decide), isUtf8_cons (b := 0x32) (by decide), isUtf8_cons (b := 0x30) (by decide),
      isUtf8_cons hd, isUtf8_cons (b := 0x7e) (by decide)] at hbytes
    exact hbytes
  rw [isMarker_iff] at hm
  rcases hm with ⟨later, heq⟩ | ⟨later, heq⟩
  · exact hascii 0x30 later (by decide) heq
  · exact hascii 0x31 later (by decide) heq

/-- the escape that starts a marker is ASCII -/
lemma isMarker_high (hb : 128 ≤ b.toNat) : isMarker (b :: rest) = false := by
  by_contra hm
  rw [Bool.not_eq_false, isMarker_iff] at hm
  rcases hm with ⟨later, heq⟩ | ⟨later, heq⟩
  · obtain ⟨rfl, -⟩ := List.cons.inj heq
    exact absurd hb (by decide)
  · obtain ⟨rfl, -⟩ := List.cons.inj heq
    exact absurd hb (by decide)

/-- what a sweep leaves of valid text is valid -/
lemma sweep_utf8 (bytes : List UInt8) (h : IsUtf8 bytes) : IsUtf8 (sweep isMarker 5 bytes).1 := by
  apply IsUtf8.induction (P := fun bytes => IsUtf8 (sweep isMarker 5 bytes).1) _ _ _ h
  · rw [sweep]
    exact isUtf8_nil
  · intro b rest hb hrest ih
    rw [sweep]
    split
    next hm => exact ih _ (by rw [List.length_drop]; omega) (isUtf8_drop hm hrest)
    next => exact (isUtf8_cons hb).mpr (ih rest (Nat.le_refl _) hrest)
  · intro seq rest hhigh hseq ih
    rw [sweep_append _ _ fun x hx zs => isMarker_high (hhigh x hx)]
    exact hseq.append ih

lemma stripMarkers_utf8 (h : IsUtf8 bytes) : IsUtf8 (stripMarkers bytes) := exhaust_keeps sweep_utf8 bytes h

/-! ## newlines -/

lemma canonNewlines_cons (hcr : b ≠ 0x0d) (hlf : b ≠ 0x0a) (rest : List UInt8) :
    canonNewlines (b :: rest) = b :: canonNewlines rest := by
  rw [canonNewlines]
  · exact fun _ h => absurd h hcr
  · exact hcr
  · exact hlf

lemma canonNewlines_crlf (rest : List UInt8) : canonNewlines (0x0d :: 0x0a :: rest) = 0x0d :: canonNewlines rest := rfl

lemma canonNewlines_lf (rest : List UInt8) : canonNewlines (0x0a :: rest) = 0x0d :: canonNewlines rest := rfl

lemma canonNewlines_cr {rest : List UInt8} (hnext : ∀ later, rest = 0x0a :: later → False) :
    canonNewlines (0x0d :: rest) = 0x0d :: canonNewlines rest := by
  rw [canonNewlines]
  exact hnext

lemma canonNewlines_append (bytes rest : List UInt8) (h : ∀ x ∈ bytes, x ≠ 0x0d ∧ x ≠ 0x0a) :
    canonNewlines (bytes ++ rest) = bytes ++ canonNewlines rest := by
  induction bytes with
  | nil => rfl
  | cons b bytes ih =>
    obtain ⟨hcr, hlf⟩ := h b List.mem_cons_self
    rw [List.cons_append, canonNewlines_cons hcr hlf, ih fun x hx => h x (List.mem_cons_of_mem b hx)]
    rfl

lemma canonNewlines_utf8 (bytes : List UInt8) (h : IsUtf8 bytes) : IsUtf8 (canonNewlines bytes) := by
  have hcr : ∀ bytes, IsUtf8 bytes → IsUtf8 (0x0d :: bytes) := fun _ h => (isUtf8_cons (by decide)).mpr h
  apply IsUtf8.induction (P := fun bytes => IsUtf8 (canonNewlines bytes)) _ _ _ h
  · exact isUtf8_nil
  · intro b rest hb hrest ih
    rw [canonNewlines.eq_def]
    split
    next hnil => exact isUtf8_nil
    next later heq =>
      obtain ⟨-, rfl⟩ := List.cons.inj heq
      exact hcr _ (ih later (by rw [List.length_cons]; omega) ((isUtf8_cons (by decide)).mp hrest))
    next later _ heq =>
      obtain ⟨-, rfl⟩ := List.cons.inj heq
      exact hcr _ (ih rest (Nat.le_refl _) hrest)
    next later heq =>
      obtain ⟨-, rfl⟩ := List.cons.inj heq
      exact hcr _ (ih rest (Nat.le_refl _) hrest)
    next heq =>
      obtain ⟨rfl, rfl⟩ := List.cons.inj heq
      exact (isUtf8_cons hb).mpr (ih rest (Nat.le_refl _) hrest)
  · intro seq rest hhigh hseq ih
    rw [canonNewlines_append]
    · exact hseq.append ih
    · intro x hx
      have hhx := hhigh x hx
      constructor
      · rintro rfl
        exact absurd hhx (by decide)
      · rintro rfl
        exact absurd hhx (by decide)

lemma canonNewlines_no_lf (bytes : List UInt8) : 0x0a ∉ canonNewlines bytes := by
  induction bytes using canonNewlines.induct with
  | case1 => exact List.not_mem_nil
  | case2 rest ih =>
    rw [canonNewlines_crlf, List.mem_cons, not_or]
    exact ⟨by decide, ih⟩
  | case3 rest hnext ih =>
    rw [canonNewlines_cr hnext, List.mem_cons, not_or]
    exact ⟨by decide, ih⟩
  | case4 rest ih =>
    rw [canonNewlines_lf, List.mem_cons, not_or]
    exact ⟨by decide, ih⟩
  | case5 b rest h₁ h₂ h₃ ih =>
    rw [canonNewlines_cons h₂ h₃, List.mem_cons, not_or]
    exact ⟨fun h => h₃ h.symm, ih⟩

/-- without line feeds there is nothing to do -/
lemma canonNewlines_of_no_lf (bytes : List UInt8) (h : 0x0a ∉ bytes) : canonNewlines bytes = bytes := by
  induction bytes using canonNewlines.induct with
  | case1 => rfl
  | case2 rest ih => simp at h
  | case3 rest hnext ih => rw [canonNewlines_cr hnext, ih fun hin => h (List.mem_cons_of_mem _ hin)]
  | case4 rest ih => simp at h
  | case5 b rest h₁ h₂ h₃ ih => rw [canonNewlines_cons h₂ h₃, ih fun hin => h (List.mem_cons_of_mem _ hin)]

/-- a part of the result without carriage returns is a part of the text -/
lemma prefix_of_canonNewlines (hm : 0x0d ∉ m) (bytes : List UInt8) (h : m <+: canonNewlines bytes) : m <+: bytes := by
  induction m generalizing bytes with
  | nil => exact List.nil_prefix
  | cons x m ih =>
    rw [List.mem_cons, not_or] at hm
    rw [canonNewlines.eq_def] at h
    split at h
    next => exact h
    next => exact absurd (List.cons_prefix_cons.mp h).1.symm hm.1
    next => exact absurd (List.cons_prefix_cons.mp h).1.symm hm.1
    next => exact absurd (List.cons_prefix_cons.mp h).1.symm hm.1
    next b rest _ _ _ =>
      obtain ⟨hx, hrest⟩ := List.cons_prefix_cons.mp h
      exact List.cons_prefix_cons.mpr ⟨hx, ih hm.2 rest hrest⟩

lemma infix_of_canonNewlines (hm : 0x0d ∉ m) (bytes : List UInt8) (h : m <:+: canonNewlines bytes) : m <:+: bytes := by
  induction bytes using canonNewlines.induct with
  | case1 => exact h
  | case2 rest ih =>
    have hpre := prefix_of_canonNewlines hm (0x0d :: 0x0a :: rest)
    rw [canonNewlines_crlf] at h hpre
    rcases List.infix_cons_iff.mp h with h | h
    · exact (hpre h).isInfix
    · exact (ih h).trans ((List.suffix_cons 0x0a rest).trans (List.suffix_cons 0x0d _)).isInfix
  | case3 rest hnext ih =>
    have hpre := prefix_of_canonNewlines hm (0x0d :: rest)
    rw [canonNewlines_cr hnext] at h hpre
    rcases List.infix_cons_iff.mp h with h | h
    · exact (hpre h).isInfix
    · exact (ih h).trans (List.suffix_cons 0x0d rest).isInfix
  | case4 rest ih =>
    have hpre := prefix_of_canonNewlines hm (0x0a :: rest)
    rw [canonNewlines_lf] at h hpre
    rcases List.infix_cons_iff.mp h with h | h
    · exact (hpre h).isInfix
    · exact (ih h).trans (List.suffix_cons 0x0a rest).isInfix
  | case5 b rest h₁ h₂ h₃ ih =>
    have hpre := prefix_of_canonNewlines hm (b :: rest)
    rw [canonNewlines_cons h₂ h₃] at h hpre
    rcases List.infix_cons_iff.mp h with h | h
    · exact (hpre h).isInfix
    · exact (ih h).trans (List.suffix_cons b rest).isInfix

/-- a newline in front of a text that is read as lines -/
lemma Reading.newline {line : List UInt8} {others : List (Newline × List UInt8)} (h : Reading bytes line others)
    (newline : Newline) (hnext : newline = .cr → bytes.head? ≠ some 0x0a) :
    Reading (newline.chars ++ bytes) [] ((newline, line) :: others) where
  eq := by
    rw [h.eq, joined, joined, List.flatMap_cons, List.nil_append, List.append_assoc]
  plain := by simp
  othersPlain := by
    intro next hin
    rcases List.mem_cons.mp hin with rfl | hin
    · exact h.plain
    · exact h.othersPlain next hin
  longest := by
    refine List.isChain_cons.mpr ⟨?_, h.longest⟩
    rintro after hafter ⟨heq, hlf⟩
    obtain ⟨rfl, rfl⟩ := Prod.mk.inj heq
    obtain ⟨later, rfl⟩ : ∃ later, others = after :: later := by
      cases others with
      | nil => exact absurd hafter (by simp)
      | cons x later => exact ⟨later, by rw [Option.some.inj hafter]⟩
    apply hnext rfl
    rw [h.eq, joined, List.flatMap_cons, hlf]
    rfl

/-- another byte in front of the first line -/
lemma Reading.byte {line : List UInt8} {others : List (Newline × List UInt8)} (h : Reading bytes line others)
    (hb : b ≠ 0x0d ∧ b ≠ 0x0a) : Reading (b :: bytes) (b :: line) others where
  eq := by
    rw [h.eq]
    rfl
  plain := by
    intro x hin
    rcases List.mem_cons.mp hin with rfl | hin
    · exact hb
    · exact h.plain x hin
  othersPlain := h.othersPlain
  longest := h.longest

/-- every text can be read so, and its newlines become carriage returns -/
lemma canonNewlines_joined (bytes : List UInt8) : ∃ line others, Reading bytes line others ∧
    canonNewlines bytes = joined (fun _ => [0x0d]) line others := by
  induction bytes using canonNewlines.induct with
  | case1 => exact ⟨[], [], ⟨rfl, by simp, by simp, .nil⟩, rfl⟩
  | case2 rest ih =>
    obtain ⟨line, others, hread, heq⟩ := ih
    refine ⟨_, _, hread.newline .crlf (by simp), ?_⟩
    rw [canonNewlines_crlf, heq]
    rfl
  | case3 rest hnext ih =>
    obtain ⟨line, others, hread, heq⟩ := ih
    refine ⟨_, _, hread.newline .cr ?_, ?_⟩
    · intro _ hhead
      obtain ⟨later, rfl⟩ := List.head?_eq_some_iff.mp hhead
      exact hnext later rfl
    · rw [canonNewlines_cr hnext, heq]
      rfl
  | case4 rest ih =>
    obtain ⟨line, others, hread, heq⟩ := ih
    refine ⟨_, _, hread.newline .lf (by simp), ?_⟩
    rw [canonNewlines_lf, heq]
    rfl
  | case5 b rest h₁ h₂ h₃ ih =>
    obtain ⟨line, others, hread, heq⟩ := ih
    refine ⟨_, _, hread.byte ⟨h₂, h₃⟩, ?_⟩
    rw [canonNewlines_cons h₂ h₃, heq]
    rfl

/-! ## the whole -/

variable {lossy : List UInt8 → String} {text : String}

lemma isUtf8_utf8 (text : String) : IsUtf8 (utf8 text) := isUtf8_toByteArray text

/-- the bytes decode, so that the result is made of them -/
lemma normalizePastedText_decodes (lossy : List UInt8 → String) (text : String) :
    fromUtf8 (canonNewlines (stripMarkers (utf8 text))) = some (normalizePastedText lossy text) ∧
    utf8 (normalizePastedText lossy text) = canonNewlines (stripMarkers (utf8 text)) := by
  obtain ⟨s, hs, hbytes⟩ := (canonNewlines_utf8 _ (stripMarkers_utf8 (isUtf8_utf8 text))).decodes
  have hsome : fromUtf8 (canonNewlines (stripMarkers (utf8 text))) = some s := hs
  have hresult : normalizePastedText lossy text = s := by
    unfold normalizePastedText
    split
    next hempty =>
      have hnil : canonNewlines (stripMarkers (utf8 "")) = [] := by
        rw [show utf8 "" = [] from rfl, stripMarkers, exhaust_of_clean clean_nil]
        rfl
      rw [hempty, hnil] at hsome
      exact Option.some.inj hsome
    next =>
      dsimp only
      rw [hsome]
      rfl
  rw [hresult]
  exact ⟨hsome, hbytes⟩

lemma pasteStart_no_cr : 0x0d ∉ pasteStart := by decide

lemma pasteEnd_no_cr : 0x0d ∉ pasteEnd := by decide

/-- the newlines do not bring back a marker -/
lemma canonNewlines_clean (h : Clean isMarker bytes) : Clean isMarker (canonNewlines bytes) := by
  obtain ⟨hstart, hend⟩ := clean_iff.mp h
  exact clean_iff.mpr ⟨fun hin => hstart (infix_of_canonNewlines pasteStart_no_cr bytes hin),
    fun hin => hend (infix_of_canonNewlines pasteEnd_no_cr bytes hin)⟩

/-- the result is what it is made of -/
lemma normalizePastedText_eq {lossy : List UInt8 → String} {text s : String}
    (h : canonNewlines (stripMarkers (utf8 text)) = utf8 s) : normalizePastedText lossy text = s := by
  obtain ⟨hsome, -⟩ := normalizePastedText_decodes lossy text
  have hs : fromUtf8 (utf8 s) = some s := by
    have hvalid : ByteArray.IsValidUTF8 ⟨(utf8 s).toArray⟩ := s.isValidUTF8
    unfold fromUtf8 String.fromUTF8?
    rw [dif_pos hvalid]
    rfl
  rw [h, hs] at hsome
  exact (Option.some.inj hsome).symm

/-- **Main result.** Whatever the text, its bytes after the two steps are valid UTF-8, neither marker is a part of them
and there is no line feed, a second time changes nothing, and without markers in the text only newlines differ. -/
theorem normalizePastedText_safe (lossy : List UInt8 → String) (text : String) :
    fromUtf8 (canonNewlines (stripMarkers (utf8 text))) = some (normalizePastedText lossy text) ∧
    ¬pasteStart <:+: utf8 (normalizePastedText lossy text) ∧ ¬pasteEnd <:+: utf8 (normalizePastedText lossy text) ∧
    0x0a ∉ utf8 (normalizePastedText lossy text) ∧
    normalizePastedText lossy (normalizePastedText lossy text) = normalizePastedText lossy text ∧
    (¬pasteStart <:+: utf8 text → ¬pasteEnd <:+: utf8 text → ∃ line others, Reading (utf8 text) line others ∧
      utf8 (normalizePastedText lossy text) = joined (fun _ => [0x0d]) line others) := by
  obtain ⟨hsome, hbytes⟩ := normalizePastedText_decodes lossy text
  have hclean : Clean isMarker (utf8 (normalizePastedText lossy text)) := by
    rw [hbytes]
    exact canonNewlines_clean (exhaust_clean _)
  have hlf : 0x0a ∉ utf8 (normalizePastedText lossy text) := by
    rw [hbytes]
    exact canonNewlines_no_lf _
  refine ⟨hsome, (clean_iff.mp hclean).1, (clean_iff.mp hclean).2, hlf, ?_, fun hstart hend => ?_⟩
  · apply normalizePastedText_eq
    rw [stripMarkers, exhaust_of_clean hclean, canonNewlines_of_no_lf _ hlf]
  · rw [hbytes, stripMarkers, exhaust_of_clean (clean_iff.mpr ⟨hstart, hend⟩)]
    exact canonNewlines_joined _

/-- two lines of a text without markers -/
theorem normalizePastedText_lines (lossy : List UInt8 → String) : ∃ line others, Reading (utf8 "a\r\nb") line others ∧
    utf8 (normalizePastedText lossy "a\r\nb") = joined (fun _ => [0x0d]) line others :=
  (normalizePastedText_safe lossy "a\r\nb").2.2.2.2.2 (by decide) (by decide)

/-! ## between the markers -/

/-- a list that starts with an entry that is nowhere else in it lies at the end of a text after it, when it is no part
of the text -/
lemma last_only {α : Type*} {e : α} {m xs pre post : List α} (he : e ∉ m) (hxs : ¬e :: m <:+: xs)
    (h : xs ++ e :: m = pre ++ (e :: m ++ post)) : post = [] := by
  rcases List.append_eq_append_iff.mp h with ⟨later, -, heq⟩ | ⟨earlier, rfl, heq⟩
  · have hlen := congrArg List.length heq
    simp only [List.length_append, List.length_cons] at hlen
    exact List.eq_nil_of_length_eq_zero (by omega)
  rcases List.append_eq_append_iff.mp heq with ⟨cut, rfl, -⟩ | ⟨cut, hcut, heq'⟩
  · exact absurd ⟨pre, cut, by rw [List.append_assoc]⟩ hxs
  cases earlier with
  | nil =>
    rw [List.nil_append] at hcut
    rw [← hcut] at heq'
    exact List.self_eq_append_right.mp heq'
  | cons x earlier =>
    simp only [List.cons_append, List.cons.injEq] at hcut
    obtain ⟨rfl, hm⟩ := hcut
    cases cut with
    | nil =>
      rw [List.append_nil] at hm
      exact absurd ⟨pre, [], by rw [hm, List.append_nil]⟩ hxs
    | cons y cut =>
      obtain ⟨rfl, -⟩ := List.cons.inj heq'
      exact absurd (hm ▸ List.mem_append_right earlier List.mem_cons_self) he

/-- the start marker adds no end marker -/
lemma pasteEnd_after_start (h : ¬pasteEnd <:+: bytes) : ¬pasteEnd <:+: pasteStart ++ bytes := by
  simp only [pasteEnd, pasteStart, List.cons_append, List.nil_append, List.infix_cons_iff, List.cons_prefix_cons] at h ⊢
  simp [h]

/-- **Main result.** In what is written for a bracketed paste an end marker is the last thing, so the program takes all
of the text as pasted. -/
theorem written_end (lossy : List UInt8 → String) (text : String) {pre post : List UInt8}
    (h : written true (normalizePastedText lossy text) = pre ++ (pasteEnd ++ post)) : post = [] := by
  obtain ⟨-, -, hend, -⟩ := normalizePastedText_safe lossy text
  exact last_only (by decide) (pasteEnd_after_start hend) h

end TerminalManager.App
