import Mathlib.Data.List.Basic

/-!
# Lists of bytes that are UTF-8

Most code that edits UTF-8 byte by byte touches ASCII bytes only.  Then it is enough to know what such a list is made
of from the front: an ASCII byte, or the bytes of another character, none of which is ASCII.

* `IsUtf8 bytes`       `bytes` encodes some characters;
* `IsUtf8.induction`   the induction over the characters from the front;
* `isUtf8_cons`        an ASCII byte more or less makes no difference;
* `IsUtf8.decodes`     the bytes can be made a string;
* `asBytes`            the bytes of a text;
* `fromUtf8Lossy`      any bytes made characters, those that encode some unchanged.
-/

/-- the encoding of some characters -/
def IsUtf8 (bytes : List UInt8) : Prop := ∃ cs : List Char, bytes = cs.flatMap String.utf8EncodeChar

variable {b : UInt8} {bytes rest : List UInt8}

lemma isUtf8_nil : IsUtf8 [] := ⟨[], rfl⟩

lemma IsUtf8.append (h : IsUtf8 bytes) (h' : IsUtf8 rest) : IsUtf8 (bytes ++ rest) := by
  obtain ⟨cs, rfl⟩ := h
  obtain ⟨ds, rfl⟩ := h'
  exact ⟨cs ++ ds, List.flatMap_append.symm⟩

/-- an ASCII character is its code, the bytes of another one have the high bit -/
lemma utf8EncodeChar_cases (c : Char) : (c.val.toNat < 128 ∧ String.utf8EncodeChar c = [UInt8.ofNat c.val.toNat]) ∨
    ∀ b ∈ String.utf8EncodeChar c, 128 ≤ b.toNat := by
  have htoNat : ∀ n, (UInt8.ofNat n).toNat = n % 256 := fun n => UInt8.toNat_ofNat'
  fun_cases String.utf8EncodeChar
  case case1 v h => exact .inl ⟨Nat.lt_succ_of_le h, rfl⟩
  all_goals
    right
    simp only [List.mem_cons, List.not_mem_nil, or_false, forall_eq_or_imp, forall_eq, htoNat]
    omega

lemma isUtf8_ascii (hb : b.toNat < 128) : IsUtf8 [b] := by
  have hval : b.toUInt32.toNat = b.toNat := UInt8.toNat_toUInt32 b
  refine ⟨[⟨b.toUInt32, .inl ?_⟩], ?_⟩
  · show b.toUInt32.toNat < 0xd800
    omega
  · rw [List.flatMap_singleton]
    unfold String.utf8EncodeChar
    dsimp only
    rw [hval, if_pos (by omega), UInt8.ofNat_toNat]

/-- from the front: nothing, an ASCII byte, or a character whose bytes all have the high bit -/
lemma IsUtf8.cases (h : IsUtf8 bytes) : bytes = [] ∨ (∃ b rest, bytes = b :: rest ∧ b.toNat < 128 ∧ IsUtf8 rest) ∨
    ∃ b seq rest, bytes = b :: seq ++ rest ∧ (∀ x ∈ b :: seq, 128 ≤ x.toNat) ∧ IsUtf8 (b :: seq) ∧ IsUtf8 rest := by
  obtain ⟨cs, rfl⟩ := h
  cases cs with
  | nil => exact .inl rfl
  | cons c cs =>
    rw [List.flatMap_cons]
    rcases utf8EncodeChar_cases c with ⟨hc, henc⟩ | hhigh
    · rw [henc]
      refine .inr (.inl ⟨_, _, rfl, ?_, cs, rfl⟩)
      rw [UInt8.toNat_ofNat']
      omega
    · obtain ⟨b, seq, henc⟩ := List.exists_cons_of_ne_nil (String.utf8EncodeChar_ne_nil (c := c))
      rw [henc] at hhigh ⊢
      exact .inr (.inr ⟨b, seq, _, rfl, hhigh, ⟨[c], by rw [List.flatMap_singleton, henc]⟩, cs, rfl⟩)

lemma isUtf8_cons (hb : b.toNat < 128) : IsUtf8 (b :: rest) ↔ IsUtf8 rest := by
  constructor
  · intro h
    rcases h.cases with hnil | ⟨b', rest', heq, -, hrest⟩ | ⟨b', seq, rest', heq, hhigh, -⟩
    · exact absurd hnil (List.cons_ne_nil _ _)
    · obtain ⟨-, rfl⟩ := List.cons.inj heq
      exact hrest
    · obtain ⟨rfl, -⟩ := List.cons.inj heq
      have := hhigh b List.mem_cons_self
      omega
  · intro h
    exact (isUtf8_ascii hb).append h

/-- **Rule**: an edit that keeps the bytes of the other characters and is right at the ASCII bytes is right; it may
look ahead from those as far as it likes. -/
theorem IsUtf8.induction {P : List UInt8 → Prop} (hnil : P [])
    (hascii : ∀ b rest, b.toNat < 128 → IsUtf8 rest →
      (∀ later, later.length ≤ rest.length → IsUtf8 later → P later) → P (b :: rest))
    (hother : ∀ seq rest, (∀ x ∈ seq, 128 ≤ x.toNat) → IsUtf8 seq → P rest → P (seq ++ rest))
    (h : IsUtf8 bytes) : P bytes := by
  induction hn : bytes.length using Nat.strongRecOn generalizing bytes with
  | ind n ih =>
    subst hn
    rcases h.cases with rfl | ⟨b, rest, rfl, hb, hrest⟩ | ⟨b, seq, rest, rfl, hhigh, hseq, hrest⟩
    · exact hnil
    · apply hascii b rest hb hrest
      intro later hlen hlater
      exact ih later.length (by rw [List.length_cons]; omega) hlater rfl
    · apply hother _ _ hhigh hseq
      refine ih rest.length ?_ hrest rfl
      rw [List.length_append, List.length_cons]
      omega

/-- the bytes of a string -/
lemma isUtf8_toByteArray (s : String) : IsUtf8 s.toByteArray.data.toList := by
  obtain ⟨cs, hcs⟩ := s.isValidUTF8
  refine ⟨cs, ?_⟩
  rw [hcs, List.utf8Encode, List.data_toByteArray]

lemma IsUtf8.decodes (h : IsUtf8 bytes) :
    ∃ s, String.fromUTF8? ⟨bytes.toArray⟩ = some s ∧ s.toByteArray.data.toList = bytes := by
  obtain ⟨cs, rfl⟩ := h
  have hvalid : ByteArray.IsValidUTF8 ⟨(cs.flatMap String.utf8EncodeChar).toArray⟩ := by
    refine ⟨cs, ByteArray.ext ?_⟩
    rw [List.utf8Encode, List.data_toByteArray]
  refine ⟨⟨_, hvalid⟩, ?_, rfl⟩
  unfold String.fromUTF8?
  rw [dif_pos hvalid]
  rfl

/-! ## the bytes of a text -/

/-- `str::as_bytes` -/
def asBytes (text : List Char) : List UInt8 := text.flatMap String.utf8EncodeChar

@[simp] lemma asBytes_nil : asBytes [] = [] := rfl

@[simp] lemma asBytes_cons (c : Char) (y : List Char) : asBytes (c :: y) = String.utf8EncodeChar c ++ asBytes y := rfl

@[simp] lemma asBytes_append (x y : List Char) : asBytes (x ++ y) = asBytes x ++ asBytes y := List.flatMap_append

/-! ## any bytes -/

/-- whether the second byte may follow the first one, of three or four -/
def continuesUtf8 (first second : UInt8) : Bool :=
  let within (lo hi : UInt8) : Bool := lo ≤ second && second ≤ hi
  if first = 0xE0 then within 0xA0 0xBF
  else if first = 0xED then within 0x80 0x9F
  else if 0xE1 ≤ first && first ≤ 0xEF then within 0x80 0xBF
  else if first = 0xF0 then within 0x90 0xBF
  else if first = 0xF4 then within 0x80 0x8F
  else if 0xF1 ≤ first && first ≤ 0xF3 then within 0x80 0xBF
  else false

/-- how many of the bytes, which do not start with a character, one replacement character stands for: as many as a
character could start with -/
def malformedLength : List UInt8 → Nat
  | first :: second :: rest =>
    if continuesUtf8 first second then
      if 0xF0 ≤ first && rest.head?.any (fun third => 0x80 ≤ third && third ≤ 0xBF) then 3 else 2
    else 1
  | _ => 1

/-- the characters of the bytes; the fuel is their number -/
def lossyFrom : (fuel : Nat) → List UInt8 → List Char
  | 0, _ => []
  | _, [] => []
  | fuel + 1, bytes =>
    match ByteArray.utf8DecodeChar? ⟨bytes.toArray⟩ 0 with
    | some c => c :: lossyFrom fuel (bytes.drop c.utf8Size)
    | none => Char.ofNat 0xFFFD :: lossyFrom fuel (bytes.drop (malformedLength bytes))

/-- `String::from_utf8_lossy` -/
def fromUtf8Lossy (bytes : List UInt8) : List Char := lossyFrom bytes.length bytes

lemma utf8DecodeChar?_encode (c : Char) (rest : List UInt8) :
    ByteArray.utf8DecodeChar? ⟨(String.utf8EncodeChar c ++ rest).toArray⟩ 0 = some c := by
  have h : (⟨(String.utf8EncodeChar c ++ rest).toArray⟩ : ByteArray) =
      (String.utf8EncodeChar c).toByteArray ++ rest.toByteArray := by
    rw [← List.toByteArray_append]
    apply ByteArray.ext
    rw [List.data_toByteArray]
  rw [h]
  exact ByteArray.utf8DecodeChar?_utf8EncodeChar_append

/-- **Characters come back.** -/
theorem fromUtf8Lossy_asBytes (cs : List Char) : fromUtf8Lossy (asBytes cs) = cs := by
  unfold asBytes
  have hloop : ∀ fuel, (cs.flatMap String.utf8EncodeChar).length ≤ fuel →
      lossyFrom fuel (cs.flatMap String.utf8EncodeChar) = cs := by
    induction cs with
    | nil =>
      intro fuel _
      cases fuel <;> rfl
    | cons c cs ih =>
      intro fuel hfuel
      have hlen := String.length_utf8EncodeChar c
      have hpos := Char.utf8Size_pos c
      rw [List.flatMap_cons, List.length_append, hlen] at hfuel
      obtain ⟨fuel, rfl⟩ := Nat.exists_eq_succ_of_ne_zero (show fuel ≠ 0 by omega)
      obtain ⟨b, seq, hseq⟩ := List.exists_cons_of_ne_nil (String.utf8EncodeChar_ne_nil (c := c))
      have hdecode := utf8DecodeChar?_encode c (cs.flatMap String.utf8EncodeChar)
      have hdrop : (String.utf8EncodeChar c ++ cs.flatMap String.utf8EncodeChar).drop c.utf8Size =
          cs.flatMap String.utf8EncodeChar := by
        rw [← hlen, List.drop_left]
      rw [List.flatMap_cons]
      rw [hseq, List.cons_append] at hdecode hdrop ⊢
      rw [lossyFrom, hdecode]
      · dsimp only
        rw [hdrop, ih fuel (by omega)]
      · exact List.cons_ne_nil _ _
  exact hloop _ (Nat.le_refl _)
