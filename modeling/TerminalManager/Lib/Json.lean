import Mathlib.Algebra.BigOperators.Group.List.Basic
import Mathlib.Algebra.Ring.Nat
import Mathlib.Tactic.Common

/-!
# Compact JSON, as bytes

What a serializer writes without blanks, in UTF-8, and how long it is.

* `number`, `bool`, `quote`, `array`, `object`   the texts;
* `charSize`, `listSize`                         the bytes of a character in a string, and of a list in brackets;
* `length_quote`, `length_array`, `length_object`   the lengths.
-/

namespace JsonText

abbrev Text := List UInt8

/-- the UTF-8 bytes of a string -/
def text (s : String) : Text := s.toList.flatMap String.utf8EncodeChar

def number (n : Nat) : Text := (Nat.toDigits 10 n).map fun c => UInt8.ofNat c.toNat

def bool (b : Bool) : Text := if b then text "true" else text "false"

def hexDigit (n : Nat) : UInt8 := UInt8.ofNat (Nat.digitChar n).toNat

/-- the letter after the backslash, for the characters that have one -/
def shortEscape (c : Char) : Option UInt8 :=
  if c = '"' then some 0x22
  else if c = '\\' then some 0x5c
  else if c.toNat = 0x08 then some 0x62
  else if c.toNat = 0x09 then some 0x74
  else if c.toNat = 0x0a then some 0x6e
  else if c.toNat = 0x0c then some 0x66
  else if c.toNat = 0x0d then some 0x72
  else none

/-- a character in a string: quotes, backslashes and control characters are escaped -/
def escape (c : Char) : Text :=
  match shortEscape c with
  | some letter => [0x5c, letter]
  | none =>
    if c.toNat < 0x20 then text "\\u00" ++ [hexDigit (c.toNat / 16), hexDigit (c.toNat % 16)]
    else String.utf8EncodeChar c

def quote (s : String) : Text := text "\"" ++ s.toList.flatMap escape ++ text "\""

def commas (xs : List Text) : Text := (xs.intersperse (text ",")).flatten

def array (xs : List Text) : Text := text "[" ++ commas xs ++ text "]"

def member (m : String × Text) : Text := quote m.1 ++ text ":" ++ m.2

def object (ms : List (String × Text)) : Text := text "\x7b" ++ commas (ms.map member) ++ text "\x7d"

/-! ## lengths -/

def digits (n : Nat) : Nat := (Nat.toDigits 10 n).length

def boolSize (b : Bool) : Nat := if b then 4 else 5

def charSize (c : Char) : Nat := if (shortEscape c).isSome then 2 else if c.toNat < 0x20 then 6 else c.utf8Size

def quoteSize (s : String) : Nat := 2 + (s.toList.map charSize).sum

/-- brackets, the items and the commas between them -/
def listSize (sizes : List Nat) : Nat := 2 + sizes.sum + (sizes.length - 1)

@[simp] lemma length_number (n : Nat) : (number n).length = digits n := List.length_map _

@[simp] lemma length_bool (b : Bool) : (bool b).length = boolSize b := by
  cases b <;> rfl

lemma length_escape (c : Char) : (escape c).length = charSize c := by
  unfold escape charSize
  cases shortEscape c with
  | some letter => rfl
  | none =>
    dsimp only
    rw [if_neg (show ¬ (none : Option UInt8).isSome = true from Bool.false_ne_true)]
    split_ifs
    · rfl
    · exact String.length_utf8EncodeChar c

@[simp] lemma length_quote (s : String) : (quote s).length = quoteSize s := by
  have hbody : (s.toList.flatMap escape).length = (s.toList.map charSize).sum := by
    rw [List.length_flatMap]
    exact congrArg List.sum (List.map_congr_left fun c _ => length_escape c)
  unfold quote quoteSize
  rw [List.length_append, List.length_append, hbody]
  show 1 + _ + 1 = _
  omega

lemma length_commas (xs : List Text) : (commas xs).length = (xs.map List.length).sum + (xs.length - 1) := by
  unfold commas
  induction xs with
  | nil => rfl
  | cons x xs ih =>
    cases xs with
    | nil => simp
    | cons y ys =>
      rw [List.intersperse_cons_cons, List.flatten_cons, List.flatten_cons, List.length_append, List.length_append, ih]
      show x.length + (1 + _) = _
      simp only [List.map_cons, List.sum_cons, List.length_cons]
      omega

@[simp] lemma length_array (xs : List Text) : (array xs).length = listSize (xs.map List.length) := by
  unfold array listSize
  rw [List.length_append, List.length_append, length_commas, List.length_map]
  show 1 + _ + 1 = _
  omega

/-- a name, a colon and a value -/
def memberSize (name : String) (value : Nat) : Nat := quoteSize name + 1 + value

lemma length_member (m : String × Text) : (member m).length = memberSize m.1 m.2.length := by
  unfold member memberSize
  rw [List.length_append, List.length_append, length_quote]
  rfl

@[simp] lemma length_object (ms : List (String × Text)) :
    (object ms).length = listSize (ms.map fun m => memberSize m.1 m.2.length) := by
  unfold object listSize
  rw [List.length_append, List.length_append, length_commas, List.map_map, List.length_map, List.length_map]
  rw [show List.length ∘ member = fun m => memberSize m.1 m.2.length from funext length_member]
  show 1 + _ + 1 = _
  omega

/-- items of `k` bytes and more, and the commas -/
lemma listSize_ge {sizes : List Nat} {k : Nat} (h : ∀ n ∈ sizes, k ≤ n) : (k + 1) * sizes.length ≤ listSize sizes := by
  have hsum : k * sizes.length ≤ sizes.sum := by
    induction sizes with
    | nil => exact Nat.le_refl _
    | cons n sizes ih =>
      have hn := h n List.mem_cons_self
      have htail := ih fun m hm => h m (List.mem_cons_of_mem _ hm)
      rw [List.length_cons, List.sum_cons, Nat.mul_succ]
      omega
  unfold listSize
  rw [Nat.add_mul, Nat.one_mul]
  omega

end JsonText
