import TerminalManager.Editor.Moves
import TerminalManager.Lib.Utf8

/-!
# The paths of file URLs

Every URL of the release feed goes through `file_url_path` before its scheme is looked at.  Slicing inside of a
character panics in the source; here it gives `none`.

* `percentDecode`        the bytes with their escapes decoded, made a string;
* `fileUrlPath`          the path of a file URL, with the separator of the platform;
* `EscapesFit`           after each percent sign a slice of two bytes ends between characters;
* `decodeFrom_isSome`    the decoder panics exactly where one does not;
* `decodeFrom_encodes`   an encoding is decoded to what it encodes.
-/

namespace TerminalManager.Update
open Editor (Line len slice sliceFrom Boundary)

/-- `char::to_digit(16)` -/
def hexValue (c : Char) : Option Nat :=
  if '0' ≤ c ∧ c ≤ '9' then some (c.toNat - 48)
  else if 'a' ≤ c ∧ c ≤ 'f' then some (c.toNat - 87)
  else if 'A' ≤ c ∧ c ≤ 'F' then some (c.toNat - 55)
  else none

/-- one digit more; none when it is no digit or the number does not fit in a byte -/
def addHexDigit (n : Nat) (c : Char) : Option Nat := do
  let d ← hexValue c
  if 16 * n + d < 256 then some (16 * n + d) else none

/-- a plus sign is no digit when digits follow -/
def afterSign : Line → Line
  | '+' :: d :: rest => d :: rest
  | text => text

/-- `u8::from_str_radix(text, 16)` -/
def fromStrRadix16 (text : Line) : Option Nat :=
  if afterSign text = [] then none else (afterSign text).foldlM addHexDigit 0

/-- the percent sign -/
def percent : UInt8 := 37

/-- the loop of `percent_decode`, from the byte `i` on; the fuel goes down by one each time -/
def decodeFrom (input : Line) : (fuel i : Nat) → Option (List UInt8)
  | 0, _ => none
  | fuel + 1, i =>
    match (asBytes input)[i]? with
    | none => some []
    | some b =>
      if b = percent ∧ i + 2 < len input then do
        let hex ← slice input (i + 1) (i + 3)
        match fromStrRadix16 hex with
        | some value => (decodeFrom input fuel (i + 3)).map (UInt8.ofNat value :: ·)
        | none => (decodeFrom input fuel (i + 1)).map (b :: ·)
      else (decodeFrom input fuel (i + 1)).map (b :: ·)

def percentDecode (input : Line) : Option Line := (decodeFrom input (len input + 1) 0).map fromUtf8Lossy

/-- what comes after `file://`, and after the host when it is the local one -/
def fileRest (url : Line) : Option Line :=
  (url.dropPrefix? "file://".toList).map fun rest => (rest.dropPrefix? "localhost".toList).getD rest

/-- whether a slash stands before a drive letter -/
def startsWithDrive : Line → Bool
  | '/' :: letter :: ':' :: _ => letter.isAlpha
  | _ => false

/-- without the slash before a drive letter -/
def localPath (decoded : Line) : Option Line := if startsWithDrive decoded then sliceFrom decoded 1 else some decoded

/-- the path of a file URL, none for any other; `separator` is the platform's -/
def fileUrlPath (separator : Char) (url : Line) : Option (Option Line) :=
  match fileRest url with
  | none => some none
  | some rest => do
    let decoded ← percentDecode rest
    let path ← localPath decoded
    if path = [] then some none else some (some (path.map fun c => if c = '/' then separator else c))

/-! ## one step -/

/-- after each percent sign with two bytes behind it, the second of these ends a character -/
def EscapesFit (text : Line) : Prop := ∀ y, '%' :: y <:+ text → 2 ≤ len y → Boundary y 2

section
variable {input x y : Line} {c : Char} {fuel i : Nat}

lemma length_asBytes (text : Line) : (asBytes text).length = len text := by
  induction text with
  | nil => rfl
  | cons c text ih => rw [asBytes_cons, List.length_append, ih, String.length_utf8EncodeChar, Editor.len_cons]

lemma drop_asBytes (x y : Line) : (asBytes (x ++ y)).drop (len x) = asBytes y := by
  rw [asBytes_append, ← length_asBytes, List.drop_left]

/-- bytes that are no percent sign are copied -/
lemma decodeFrom_copy {seq rest : List UInt8} (hseq : (asBytes input).drop i = seq ++ rest) (h : ∀ b ∈ seq, b ≠ percent)
    (fuel : Nat) : decodeFrom input (seq.length + fuel) i = (decodeFrom input fuel (i + seq.length)).map (seq ++ ·) := by
  induction seq generalizing i with
  | nil =>
    rw [List.length_nil, Nat.zero_add, Nat.add_zero]
    exact Option.map_id'.symm
  | cons b seq ih =>
    rw [List.forall_mem_cons] at h
    have hb : (asBytes input)[i]? = some b := by
      have := congrArg (fun l => l[0]?) hseq
      simpa using this
    have hrest : (asBytes input).drop (i + 1) = seq ++ rest := by
      rw [← List.drop_drop, hseq]
      rfl
    rw [List.length_cons, show seq.length + 1 + fuel = (seq.length + fuel) + 1 by omega, decodeFrom, hb]
    dsimp only
    rw [if_neg (fun hp => h.1 hp.1), ih hrest h.2, Option.map_map, show i + (seq.length + 1) = i + 1 + seq.length by omega]
    rfl

lemma encode_ne_percent (h : c ≠ '%') : ∀ b ∈ String.utf8EncodeChar c, b ≠ percent := by
  intro b hb hpercent
  rcases utf8EncodeChar_cases c with ⟨hlt, heq⟩ | hhigh
  · rw [heq, List.mem_singleton] at hb
    apply h
    have hval := congrArg UInt8.toNat (hb.symm.trans hpercent)
    rw [UInt8.toNat_ofNat', show percent.toNat = 37 from rfl] at hval
    have hc : c.toNat = 37 := by
      show c.val.toNat = 37
      omega
    rw [← Char.ofNat_toNat c, hc]
  · have := hhigh b hb
    rw [hpercent] at this
    exact absurd this (by decide)

/-- a character other than the percent sign is copied -/
lemma decodeFrom_other (x y : Line) (h : c ≠ '%') (fuel : Nat) : decodeFrom (x ++ c :: y) (c.utf8Size + fuel) (len x) =
    (decodeFrom (x ++ c :: y) fuel (len x + c.utf8Size)).map (String.utf8EncodeChar c ++ ·) := by
  have hstep := decodeFrom_copy (drop_asBytes x (c :: y)) (encode_ne_percent h) fuel
  rwa [String.length_utf8EncodeChar] at hstep

/-- what is done at a percent sign -/
lemma decodeFrom_percent (x y : Line) (fuel : Nat) : decodeFrom (x ++ '%' :: y) (fuel + 1) (len x) =
    if 2 ≤ len y then do
      let hex ← slice (x ++ '%' :: y) (len x + 1) (len x + 3)
      match fromStrRadix16 hex with
      | some value => (decodeFrom (x ++ '%' :: y) fuel (len x + 3)).map (UInt8.ofNat value :: ·)
      | none => (decodeFrom (x ++ '%' :: y) fuel (len x + 1)).map (percent :: ·)
    else (decodeFrom (x ++ '%' :: y) fuel (len x + 1)).map (percent :: ·) := by
  have hb : (asBytes (x ++ '%' :: y))[len x]? = some percent := by
    have h := congrArg (fun l => l[0]?) (drop_asBytes x ('%' :: y))
    rw [List.getElem?_drop, Nat.add_zero] at h
    exact h
  have hlen : (percent = percent ∧ len x + 2 < len (x ++ '%' :: y)) ↔ 2 ≤ len y := by
    rw [Editor.len_append, Editor.len_cons, show '%'.utf8Size = 1 by decide]
    constructor
    · intro h
      omega
    · intro h
      exact ⟨rfl, by omega⟩
  rw [decodeFrom, hb]
  dsimp only
  by_cases h : 2 ≤ len y
  · rw [if_pos (hlen.mpr h), if_pos h]
  · rw [if_neg (fun hp => h (hlen.mp hp)), if_neg h]

/-- the slice of an escape is what is between two characters -/
lemma slice_escape (x y : Line) {a b : Line} (hy : y = a ++ b) (ha : len a = 2) :
    slice (x ++ '%' :: y) (len x + 1) (len x + 3) = some a := by
  have h := Editor.slice_len (x ++ ['%']) a b
  rw [Editor.len_append, Editor.len_append, Editor.len_append, ha] at h
  subst hy
  rw [show len ['%'] = 1 by decide, List.append_assoc, List.append_assoc] at h
  exact h

lemma slice_escape_none (x y : Line) (h : ¬ Boundary y 2) : slice (x ++ '%' :: y) (len x + 1) (len x + 3) = none := by
  unfold slice Editor.sliceTo
  cases hcut : Lines.cut Char.utf8Size (x ++ '%' :: y) (len x + 3) with
  | none => rfl
  | some ab =>
    obtain ⟨a, b⟩ := ab
    obtain ⟨heq, hwidth⟩ := Lines.cut_some hcut
    exfalso
    apply h
    have hle : Lines.width Char.utf8Size (x ++ ['%']) ≤ Lines.width Char.utf8Size a := by
      rw [hwidth]
      show len (x ++ ['%']) ≤ _
      rw [Editor.len_append]
      exact Nat.add_le_add_left (by decide) _
    have heq' : (x ++ ['%']) ++ y = a ++ b := by rw [← heq, List.append_assoc]; rfl
    obtain ⟨z, rfl, rfl⟩ := Find.append_of_width_le Editor.utf8Size_pos heq' hle
    refine ⟨z, b, rfl, ?_⟩
    have hlen : len (x ++ ['%'] ++ z) = len x + 3 := hwidth
    rw [Editor.len_append, Editor.len_append, show len ['%'] = 1 by decide] at hlen
    omega

/-! ## digits -/

lemma hexValue_spec {c : Char} {d : Nat} (h : hexValue c = some d) : d < 16 ∧ c.utf8Size = 1 ∧ c ≠ '%' ∧ c ≠ '+' := by
  have hrange : (48 ≤ c.toNat ∧ c.toNat ≤ 57 ∧ d = c.toNat - 48) ∨ (97 ≤ c.toNat ∧ c.toNat ≤ 102 ∧ d = c.toNat - 87) ∨
      65 ≤ c.toNat ∧ c.toNat ≤ 70 ∧ d = c.toNat - 55 := by
    unfold hexValue at h
    split_ifs at h with h1 h2 h3
    · exact .inl ⟨h1.1, h1.2, (Option.some.inj h).symm⟩
    · exact .inr (.inl ⟨h2.1, h2.2, (Option.some.inj h).symm⟩)
    · exact .inr (.inr ⟨h3.1, h3.2, (Option.some.inj h).symm⟩)
  have hsize : c.utf8Size = 1 := Char.utf8Size_eq_one_iff.mpr (show c.toNat ≤ 127 by omega)
  refine ⟨by omega, hsize, ?_, ?_⟩
  · rintro rfl
    rw [show '%'.toNat = 37 by decide] at hrange
    omega
  · rintro rfl
    rw [show '+'.toNat = 43 by decide] at hrange
    omega

lemma foldlM_addHexDigit {digits : Line} {n m : Nat} (h : digits.foldlM addHexDigit n = some m) :
    ∀ c ∈ digits, c ≠ '%' := by
  induction digits generalizing n with
  | nil => exact fun _ hc => absurd hc List.not_mem_nil
  | cons d digits ih =>
    rw [List.foldlM_cons] at h
    obtain ⟨k, hk, hrest⟩ := Option.bind_eq_some_iff.mp h
    obtain ⟨value, hvalue, -⟩ := Option.bind_eq_some_iff.mp hk
    rw [List.forall_mem_cons]
    exact ⟨(hexValue_spec hvalue).2.2.1, ih hrest⟩

/-- a number has no percent sign -/
lemma fromStrRadix16_solid {text : Line} {n : Nat} (h : fromStrRadix16 text = some n) : ∀ c ∈ text, c ≠ '%' := by
  unfold fromStrRadix16 at h
  split_ifs at h
  unfold afterSign at h
  split at h
  case h_1 d rest =>
    rw [List.forall_mem_cons]
    exact ⟨by decide, foldlM_addHexDigit h⟩
  case h_2 => exact foldlM_addHexDigit h

/-- two digits are their number -/
lemma fromStrRadix16_pair {h l : Char} {p q : Nat} (hp : hexValue h = some p) (hq : hexValue l = some q) :
    fromStrRadix16 [h, l] = some (16 * p + q) := by
  obtain ⟨hp16, -, -, hplus⟩ := hexValue_spec hp
  obtain ⟨hq16, -⟩ := hexValue_spec hq
  have hsign : afterSign [h, l] = [h, l] := by
    unfold afterSign
    split
    case h_1 d rest heq => exact absurd (List.cons.inj heq).1 hplus
    case h_2 => rfl
  have hfirst : addHexDigit 0 h = some p := by
    rw [addHexDigit, hp, Option.bind_eq_bind, Option.bind_some, if_pos (by omega), Nat.mul_zero, Nat.zero_add]
  have hsecond : addHexDigit p l = some (16 * p + q) := by
    rw [addHexDigit, hq, Option.bind_eq_bind, Option.bind_some, if_pos (by omega)]
  rw [fromStrRadix16, hsign, if_neg (List.cons_ne_nil _ _), List.foldlM_cons, hfirst, Option.bind_eq_bind,
    Option.bind_some, List.foldlM_cons, hsecond]
  rfl

/-! ## panics -/

lemma escapesFit_nil : EscapesFit [] := fun _ h => absurd (List.suffix_nil.mp h) (List.cons_ne_nil _ _)

lemma escapesFit_cons (c : Char) (y : Line) :
    EscapesFit (c :: y) ↔ (c = '%' → 2 ≤ len y → Boundary y 2) ∧ EscapesFit y := by
  constructor
  · intro h
    refine ⟨?_, fun z hz => h z (hz.trans (List.suffix_cons c y))⟩
    rintro rfl
    exact h y (List.suffix_refl _)
  · rintro ⟨hhead, hrest⟩ z hz
    rcases List.suffix_cons_iff.mp hz with heq | hz
    · obtain ⟨hc, rfl⟩ := List.cons.inj heq
      exact hhead hc.symm
    · exact hrest z hz

lemma escapesFit_append {a : Line} (ha : ∀ c ∈ a, c ≠ '%') (b : Line) : EscapesFit (a ++ b) ↔ EscapesFit b := by
  induction a with
  | nil => rfl
  | cons c a ih =>
    rw [List.forall_mem_cons] at ha
    rw [List.cons_append, escapesFit_cons, ih ha.2]
    exact ⟨And.right, fun h => ⟨fun hc => absurd hc ha.1, h⟩⟩

/-- **Run lemma**: the decoder goes through exactly when the escapes fit. -/
theorem decodeFrom_isSome (x y : Line) {fuel : Nat} (hfuel : len y < fuel) :
    (decodeFrom (x ++ y) fuel (len x)).isSome ↔ EscapesFit y := by
  induction hn : len y using Nat.strongRecOn generalizing x y fuel with
  | ind n ih =>
    subst hn
    -- what is left of the text after `a`
    have hlater : ∀ (a b : Line) (fuel : Nat), y = a ++ b → a ≠ [] → len b < fuel →
        ((decodeFrom (x ++ y) fuel (len x + len a)).isSome ↔ EscapesFit b) := by
      intro a b fuel hy ha hfuel
      have hpos := Editor.len_pos ha
      have h := ih (len b) (by rw [hy, Editor.len_append]; omega) (x ++ a) b hfuel rfl
      rwa [List.append_assoc, ← hy, Editor.len_append] at h
    cases y with
    | nil =>
      obtain ⟨fuel, rfl⟩ := Nat.exists_eq_succ_of_ne_zero (show fuel ≠ 0 by omega)
      rw [decodeFrom, List.append_nil, List.getElem?_eq_none (Nat.le_of_eq (length_asBytes x))]
      exact ⟨fun _ => escapesFit_nil, fun _ => rfl⟩
    | cons c y =>
      rw [Editor.len_cons] at hfuel
      rw [escapesFit_cons]
      by_cases hc : c = '%'
      · subst hc
        rw [show '%'.utf8Size = 1 by decide] at hfuel
        obtain ⟨fuel, rfl⟩ := Nat.exists_eq_succ_of_ne_zero (show fuel ≠ 0 by omega)
        have hplain : ((decodeFrom (x ++ '%' :: y) fuel (len x + 1)).map (percent :: ·)).isSome ↔ EscapesFit y := by
          rw [Option.isSome_map]
          exact hlater ['%'] y fuel rfl (List.cons_ne_nil _ _) (by omega)
        rw [decodeFrom_percent]
        by_cases hlen : 2 ≤ len y
        · rw [if_pos hlen]
          by_cases hfit : Boundary y 2
          · obtain ⟨a, b, rfl, ha⟩ := hfit
            rw [slice_escape x _ rfl ha, Option.bind_eq_bind, Option.bind_some]
            simp only [hlen, show Boundary (a ++ b) 2 from ⟨a, b, rfl, ha⟩, forall_const, true_and]
            cases hvalue : fromStrRadix16 a with
            | none => exact hplain
            | some value =>
              dsimp only
              rw [Option.isSome_map, escapesFit_append (fromStrRadix16_solid hvalue)]
              have h := hlater ('%' :: a) b fuel rfl (List.cons_ne_nil _ _)
                (by rw [Editor.len_append] at hfuel; omega)
              rw [Editor.len_cons, ha, show '%'.utf8Size = 1 by decide] at h
              exact h
          · rw [slice_escape_none x y hfit]
            simp [hlen, hfit]
        · rw [if_neg hlen, hplain]
          exact ⟨fun h => ⟨fun _ h2 => absurd h2 hlen, h⟩, And.right⟩
      · obtain ⟨fuel, rfl⟩ := Nat.exists_eq_add_of_le (show c.utf8Size ≤ fuel by omega)
        rw [decodeFrom_other x y hc, Option.isSome_map]
        refine (hlater [c] y fuel rfl (List.cons_ne_nil _ _) (by omega)).trans ?_
        exact ⟨fun h => ⟨fun h2 => absurd h2 hc, h⟩, And.right⟩

/-! ## encodings -/

/-- the second list of bytes is an encoding of the first: each byte as it is, unless it is a percent sign, or as a
percent sign and its two hexadecimal digits, in either case -/
inductive Encodes : List UInt8 → List UInt8 → Prop
  | nil : Encodes [] []
  | literal {b : UInt8} {bs es : List UInt8} : b ≠ percent → Encodes bs es → Encodes (b :: bs) (b :: es)
  | escaped {h l : Char} {p q : Nat} {bs es : List UInt8} : hexValue h = some p → hexValue l = some q → Encodes bs es →
      Encodes (UInt8.ofNat (16 * p + q) :: bs) (percent :: (asBytes [h, l] ++ es))

lemma Encodes.of_literals {seq bs es : List UInt8} (hseq : ∀ b ∈ seq, b ≠ percent) (h : Encodes bs (seq ++ es)) :
    ∃ rest, bs = seq ++ rest ∧ Encodes rest es := by
  induction seq generalizing bs with
  | nil => exact ⟨bs, rfl, h⟩
  | cons b seq ih =>
    rw [List.forall_mem_cons] at hseq
    rw [List.cons_append] at h
    generalize hall : b :: (seq ++ es) = all at h
    cases h with
    | nil => cases hall
    | literal _ h =>
      obtain ⟨rfl, rfl⟩ := List.cons.inj hall
      obtain ⟨rest, rfl, hrest⟩ := ih hseq.2 h
      exact ⟨rest, rfl, hrest⟩
    | escaped _ _ _ => exact absurd (List.cons.inj hall).1 hseq.1

/-- the first character can be read off the bytes -/
lemma asBytes_eq_append {y : Line} {c : Char} {es : List UInt8} (h : asBytes y = String.utf8EncodeChar c ++ es) :
    ∃ rest, y = c :: rest ∧ asBytes rest = es := by
  cases y with
  | nil => exact absurd (List.append_eq_nil_iff.mp h.symm).1 String.utf8EncodeChar_ne_nil
  | cons d y =>
    rw [asBytes_cons] at h
    have hd := utf8DecodeChar?_encode d (asBytes y)
    rw [h, utf8DecodeChar?_encode c es] at hd
    obtain rfl := Option.some.inj hd
    exact ⟨y, rfl, List.append_cancel_left h⟩

/-- **Run lemma**: an encoding is decoded. -/
theorem decodeFrom_encodes (x y : Line) {fuel : Nat} (hfuel : len y < fuel) {bs : List UInt8}
    (h : Encodes bs (asBytes y)) : decodeFrom (x ++ y) fuel (len x) = some bs := by
  induction hn : len y using Nat.strongRecOn generalizing x y fuel bs with
  | ind n ih =>
    subst hn
    cases y with
    | nil =>
      obtain ⟨fuel, rfl⟩ := Nat.exists_eq_succ_of_ne_zero (show fuel ≠ 0 by omega)
      rw [decodeFrom, List.append_nil, List.getElem?_eq_none (Nat.le_of_eq (length_asBytes x))]
      cases h
      rfl
    | cons c y =>
      rw [Editor.len_cons] at hfuel
      have hpos := Char.utf8Size_pos c
      by_cases hc : c = '%'
      · subst hc
        rw [show '%'.utf8Size = 1 by decide] at hfuel
        obtain ⟨fuel, rfl⟩ := Nat.exists_eq_succ_of_ne_zero (show fuel ≠ 0 by omega)
        rw [asBytes_cons, show String.utf8EncodeChar '%' = [percent] by decide, List.singleton_append] at h
        generalize hes : asBytes y = es at h
        cases h with
        | literal hne _ => exact absurd rfl hne
        | @escaped d l p q bs es hp hq h =>
          -- the two digits are the next characters
          rw [asBytes_cons, asBytes_cons, asBytes_nil, List.append_nil, List.append_assoc] at hes
          obtain ⟨_, rfl, htail⟩ := asBytes_eq_append hes
          obtain ⟨y, rfl, rfl⟩ := asBytes_eq_append htail
          have hlen : len [d, l] = 2 := by
            rw [Editor.len_cons, Editor.len_cons, (hexValue_spec hp).2.1, (hexValue_spec hq).2.1]
            rfl
          have hy : d :: l :: y = [d, l] ++ y := rfl
          have hlen' : len (d :: l :: y) = 2 + len y := by rw [hy, Editor.len_append, hlen]
          have hrest := ih (len y) (by rw [Editor.len_cons]; omega) (x ++ ['%', d, l]) y (show len y < fuel by omega) h rfl
          rw [Editor.len_append, show len ['%', d, l] = 3 by
            rw [Editor.len_cons, hlen, show '%'.utf8Size = 1 by decide], List.append_assoc] at hrest
          rw [decodeFrom_percent, if_pos (by omega), slice_escape x _ hy hlen, Option.bind_eq_bind, Option.bind_some,
            fromStrRadix16_pair hp hq]
          dsimp only
          rw [show x ++ '%' :: d :: l :: y = x ++ (['%', d, l] ++ y) from rfl, hrest]
          rfl
      · obtain ⟨fuel, rfl⟩ := Nat.exists_eq_add_of_le (show c.utf8Size ≤ fuel by omega)
        rw [asBytes_cons] at h
        obtain ⟨rest, rfl, hrest⟩ := h.of_literals (encode_ne_percent hc)
        have hstep := ih (len y) (by rw [Editor.len_cons]; omega) (x ++ [c]) y (show len y < fuel by omega) hrest rfl
        rw [Editor.len_append, List.append_assoc, Editor.len_cons, Editor.len_nil, Nat.add_zero] at hstep
        rw [decodeFrom_other x y hc, show x ++ c :: y = x ++ ([c] ++ y) from rfl, hstep]
        rfl

/-! ## the two functions -/

lemma percentDecode_isSome (input : Line) : (percentDecode input).isSome ↔ EscapesFit input := by
  have h := decodeFrom_isSome [] input (Nat.lt_succ_self (len input))
  rwa [List.nil_append, Editor.len_nil, ← Option.isSome_map (f := fromUtf8Lossy)] at h

lemma fileUrlPath_isSome (separator : Char) (url : Line) :
    (fileUrlPath separator url).isSome ↔ ∀ rest ∈ fileRest url, EscapesFit rest := by
  unfold fileUrlPath
  cases fileRest url with
  | none => simp
  | some rest =>
    simp only [Option.mem_some_iff, forall_eq', ← percentDecode_isSome rest]
    cases percentDecode rest with
    | none => rfl
    | some decoded =>
      have hpath : ∃ path, localPath decoded = some path := by
        unfold localPath
        split_ifs with hdrive
        · unfold startsWithDrive at hdrive
          split at hdrive
          case h_1 letter rest => exact ⟨_, Editor.sliceFrom_len ['/'] (letter :: ':' :: rest)⟩
          case h_2 => cases hdrive
        · exact ⟨decoded, rfl⟩
      obtain ⟨path, hpath⟩ := hpath
      simp only [Option.bind_eq_bind, Option.bind_some, hpath, Option.isSome_some, iff_true]
      split_ifs <;> rfl

/-- **Main result.**  `percent_decode` returns, and `file_url_path` does, exactly when no percent sign of what they decode
has a character behind it that the slice of two bytes would cut; and an encoding of the bytes of a string is always
decoded to the string. -/
theorem percentDecode_safe (text : Line) :
    ((percentDecode text).isSome ↔ EscapesFit text) ∧
    (∀ separator, (fileUrlPath separator text).isSome ↔ ∀ rest ∈ fileRest text, EscapesFit rest) ∧
    ∀ encoded, Encodes (asBytes text) (asBytes encoded) → percentDecode encoded = some text := by
  refine ⟨percentDecode_isSome text, fun separator => fileUrlPath_isSome separator text, ?_⟩
  intro encoded h
  have hrun := decodeFrom_encodes [] encoded (Nat.lt_succ_self (len encoded)) h
  rw [List.nil_append, Editor.len_nil] at hrun
  rw [percentDecode, hrun, Option.map_some]
  exact congrArg some (fromUtf8Lossy_asBytes text)

/-- the slice after the percent sign would end inside of the euro sign -/
theorem percentDecode_panics : (fileUrlPath '/' "file:///a%€".toList).isSome = false ∧
    (percentDecode "%€".toList).isSome = false := by
  decide

end

end TerminalManager.Update
