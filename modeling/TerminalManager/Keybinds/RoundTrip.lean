import Mathlib.Tactic.IntervalCases
import TerminalManager.Keybinds.Combo
import TerminalManager.Lib.Lines

/-!
# Combos that come back

What `KeyCombo::parse` makes of a combo that was written by `Display`.  The plus sign is a separator and a key:
a combo with that key is written `Ctrl++`, and the text after its last plus sign is empty.

* `Key.Recordable`        a named key, a function key, or a visible character that is not an upper-case letter;
* `Modifiers.names`       the names of the modifiers that are held, as they are written;
* `fromName_display`      the name of a key is read as the key;
* `parse_display`         so is a combo, unless its key is the plus sign;
* `parse_plus`            then it is not read at all.
-/

namespace TerminalManager.Keybinds
open Editor (isWhitespace)

/-- a named key, `F1` to `F12`, or a character that is not blank and not in upper case -/
def Key.Recordable : Key → Prop
  | .char c => isWhitespace c = false ∧ c.toLower = c
  | .f n => 1 ≤ n ∧ n ≤ 12
  | .unknown => False
  | _ => True

instance Key.Recordable.decidable : (key : Key) → Decidable key.Recordable
  | .char _ | .f _ => inferInstanceAs (Decidable (_ ∧ _))
  | .unknown => instDecidableFalse
  | .enter | .escape | .backspace | .tab | .space | .arrowUp | .arrowDown | .arrowLeft | .arrowRight | .home | .end | .pageUp
  | .pageDown | .delete | .insert => instDecidableTrue

/-- only the four flags -/
def Modifiers.Known (m : Modifiers) : Prop := m.bits.toNat < 16

instance (m : Modifiers) : Decidable m.Known := inferInstanceAs (Decidable (_ < _))

/-- the names of the modifiers that are held, as they are written -/
def Modifiers.names (m : Modifiers) : List (List Char) :=
  (if m.contains CTRL then ["Ctrl".toList] else []) ++ (if m.contains ALT then ["Alt".toList] else []) ++
    (if m.contains SHIFT then ["Shift".toList] else []) ++ if m.contains META then ["Meta".toList] else []

/-! ## texts -/

lemma trim_eq {s : List Char} (h : ∀ c ∈ s, isWhitespace c = false) : trim s = s := by
  have hdrop : ∀ {s : List Char}, (∀ c ∈ s, isWhitespace c = false) → s.dropWhile isWhitespace = s := by
    intro s h
    cases s with
    | nil => rfl
    | cons c s =>
      apply List.dropWhile_cons_of_neg
      rw [h c List.mem_cons_self]
      exact Bool.false_ne_true
  unfold trim
  rw [hdrop h, hdrop fun c hc => h c (List.mem_reverse.mp hc), List.reverse_reverse]

lemma intercalate_concat (sep : Char) (xs : List (List Char)) (x : List Char) :
    [sep].intercalate (xs ++ [x]) = xs.flatMap (· ++ [sep]) ++ x := by
  induction xs with
  | nil => simp [List.intercalate]
  | cons y xs ih =>
    have hne : xs ++ [x] ≠ [] := List.append_ne_nil_of_right_ne_nil _ (List.cons_ne_nil _ _)
    rw [List.cons_append, List.intercalate_cons_of_ne_nil hne, ih, List.flatMap_cons]
    simp only [List.append_assoc]

/-- a lower-case letter, or a character that `to_ascii_uppercase` leaves alone -/
lemma toUpper_cases (c : Char) : c.toUpper = c ∨ ∃ n : Fin 26, c = Char.ofNat (97 + n) := by
  by_cases h : 'a'.val ≤ c.val ∧ c.val ≤ 'z'.val
  · right
    have hlo : 97 ≤ c.toNat := UInt32.le_iff_toNat_le.mp h.1
    have hhi : c.toNat ≤ 122 := UInt32.le_iff_toNat_le.mp h.2
    refine ⟨⟨c.toNat - 97, by omega⟩, ?_⟩
    dsimp only
    rw [show 97 + (c.toNat - 97) = c.toNat by omega, Char.ofNat_toNat]
  · left
    unfold Char.toUpper
    exact dif_neg h

lemma toUpper_letter (n : Fin 26) : isWhitespace (Char.ofNat (97 + n)).toUpper = false ∧
    (Char.ofNat (97 + n)).toUpper ≠ '+' ∧ (Char.ofNat (97 + n)).toUpper.toLower = Char.ofNat (97 + n) := by
  revert n
  decide

/-- the character that is written for a key -/
lemma toUpper_spec {c : Char} (hblank : isWhitespace c = false) (hlower : c.toLower = c) :
    isWhitespace c.toUpper = false ∧ (c ≠ '+' → c.toUpper ≠ '+') ∧ c.toUpper.toLower = c := by
  rcases toUpper_cases c with h | ⟨n, rfl⟩
  · rw [h]
    exact ⟨hblank, id, hlower⟩
  · obtain ⟨hblank, hplus, hlower⟩ := toUpper_letter n
    exact ⟨hblank, fun _ => hplus, hlower⟩

/-! ## keys -/

namespace Key

lemma display_char (c : Char) : (char c).display.toList = [c.toUpper] := by
  rw [display, String.toList_singleton]

/-- a single character is a key of its own -/
lemma fromName_char {c : Char} (hblank : isWhitespace c = false) : fromName [c] = some (char c.toLower.toLower) := by
  have htrim : lowered [c] = String.ofList [c.toLower] := by
    rw [lowered, trim_eq fun d hd => by rw [List.mem_singleton.mp hd]; exact hblank]
    rfl
  have hlong : ∀ s : String, s.toList.length ≠ 1 → lowered [c] ≠ s := by
    rintro s hs rfl
    rw [htrim, String.toList_ofList] at hs
    exact hs rfl
  unfold fromName
  split
  case h_23 =>
    rw [htrim, String.toList_ofList]
    by_cases hf : c.toLower = 'f'
    · rw [hf]
      rfl
    · unfold fromOther
      dsimp only
      -- no function key has a name of one character
      split
      case h_1 n hfunction =>
        split at hfunction
        case h_1 rest hcons => exact absurd (List.cons.inj hcons).1 hf
        case h_2 => cases hfunction
      case h_2 => rfl
  all_goals exact absurd ‹lowered [c] = _› (hlong _ (by decide))

/-- the text of a key is one word without a plus sign, and it is read as the key -/
lemma display_spec {key : Key} (h : key.Recordable) (hplus : key ≠ char '+') :
    (∀ c ∈ key.display.toList, isWhitespace c = false) ∧ '+' ∉ key.display.toList ∧ key.display.toList ≠ [] ∧
      fromName key.display.toList = some key := by
  cases key with
  | char c =>
    obtain ⟨hblank, hlower⟩ := h
    obtain ⟨hblank', hplus', hlower'⟩ := toUpper_spec hblank hlower
    rw [display_char]
    refine ⟨?_, ?_, List.cons_ne_nil _ _, ?_⟩
    · intro d hd
      rw [List.mem_singleton.mp hd]
      exact hblank'
    · rw [List.mem_singleton]
      exact (hplus' fun hc => hplus (by rw [hc])).symm
    · rw [fromName_char hblank', hlower', hlower]
  | f n =>
    obtain ⟨hlo, hhi⟩ := h
    interval_cases n <;> decide
  | unknown => exact h.elim
  | _ => decide

end Key

/-! ## modifiers -/

namespace Modifiers

lemma names_word (m : Modifiers) : ∀ name ∈ m.names, '+' ∉ name ∧ ∀ c ∈ name, isWhitespace c = false := by
  unfold names
  cases m.contains CTRL <;> cases m.contains ALT <;> cases m.contains SHIFT <;> cases m.contains META <;>
    decide

lemma display_names (m : Modifiers) : m.display.toList = m.names.flatMap (· ++ ['+']) := by
  unfold display names
  cases m.contains CTRL <;> cases m.contains ALT <;> cases m.contains SHIFT <;> cases m.contains META <;>
    decide

/-- the names are read as the modifiers -/
lemma names_parse {m : Modifiers} (h : m.Known) : m.names.foldlM KeyCombo.addModifier .empty = .ok m := by
  have hall : ∀ i : Fin 16, ((names ⟨UInt8.ofNat i⟩).foldlM KeyCombo.addModifier .empty).toOption =
      some ⟨UInt8.ofNat i⟩ := by
    decide
  have hi := hall ⟨m.bits.toNat, h⟩
  dsimp only at hi
  rw [UInt8.ofNat_toNat] at hi
  cases hfold : m.names.foldlM KeyCombo.addModifier .empty with
  | ok m' =>
    rw [hfold] at hi
    rw [Option.some.inj hi]
  | error e =>
    rw [hfold] at hi
    cases hi

end Modifiers

/-! ## combos -/

namespace KeyCombo
variable {c : KeyCombo}

/-- a combo can be recorded with its modifiers -/
def Recordable (c : KeyCombo) : Prop := c.key.Recordable ∧ c.modifiers.Known

instance (c : KeyCombo) : Decidable c.Recordable := inferInstanceAs (Decidable (_ ∧ _))

lemma display_eq (c : KeyCombo) : c.display.toList = ['+'].intercalate (c.modifiers.names ++ [c.key.display.toList]) := by
  rw [intercalate_concat, ← Modifiers.display_names, display, String.toList_append]

/-- no blank is written but for the key -/
lemma display_solid (h : ∀ d ∈ c.key.display.toList, isWhitespace d = false) :
    ∀ d ∈ c.display.toList, isWhitespace d = false := by
  rw [display, String.toList_append, Modifiers.display_names, List.forall_mem_append]
  refine ⟨?_, h⟩
  intro d hd
  obtain ⟨name, hname, hd⟩ := List.mem_flatMap.mp hd
  rcases List.mem_append.mp hd with hd | hd
  · exact (c.modifiers.names_word name hname).2 d hd
  · rw [List.mem_singleton.mp hd]
    decide

lemma splitOn_display (h : c.key.Recordable) (hplus : c.key ≠ .char '+') :
    c.display.toList.splitOn '+' = c.modifiers.names ++ [c.key.display.toList] := by
  obtain ⟨-, hword, -, -⟩ := Key.display_spec h hplus
  rw [display_eq]
  apply Lines.splitOn_join (List.append_ne_nil_of_right_ne_nil _ (List.cons_ne_nil _ _))
  rw [List.forall_mem_append, List.forall_mem_singleton]
  exact ⟨fun name hname => (c.modifiers.names_word name hname).1, hword⟩

/-- **A combo is read as it was**, unless its key is the plus sign. -/
theorem parse_display (h : c.Recordable) (hplus : c.key ≠ .char '+') : parse c.display.toList = .ok c := by
  obtain ⟨hsolid, -, hne, hkey⟩ := Key.display_spec h.1 hplus
  have hnil : c.display.toList ≠ [] := by
    rw [display, String.toList_append]
    exact List.append_ne_nil_of_right_ne_nil _ hne
  unfold parse
  rw [trim_eq (display_solid hsolid)]
  dsimp only
  rw [if_neg hnil, splitOn_display h.1 hplus, List.getLastD_concat, List.dropLast_concat, trim_eq hsolid, hkey,
    Modifiers.names_parse h.2]
  rfl

/-- **After the plus sign of the separator the other one is no key.** -/
theorem parse_plus (hplus : c.key = .char '+') : parse c.display.toList = .error "unknown key: " := by
  have htext : c.key.display.toList = ['+'] := by rw [hplus, Key.display_char]; rfl
  have hsplit : ∃ parts, c.display.toList.splitOn '+' = parts ++ [[]] := by
    obtain ⟨L, a, hL⟩ := Lines.exists_snoc '+' c.modifiers.display.toList
    refine ⟨L ++ [a], ?_⟩
    rw [display, String.toList_append, htext, Lines.splitOn_append hL (show ['+'].splitOn '+' = [[], []] by decide),
      List.append_nil, List.append_assoc]
    rfl
  obtain ⟨parts, hparts⟩ := hsplit
  have hsolid : ∀ d ∈ c.key.display.toList, isWhitespace d = false := by
    rw [htext]
    decide
  have hnil : c.display.toList ≠ [] := by
    rw [display, String.toList_append, htext]
    exact List.append_ne_nil_of_right_ne_nil _ (List.cons_ne_nil _ _)
  unfold parse
  rw [trim_eq (display_solid hsolid)]
  dsimp only
  rw [if_neg hnil, hparts, List.getLastD_concat]
  rfl

end KeyCombo

end TerminalManager.Keybinds
