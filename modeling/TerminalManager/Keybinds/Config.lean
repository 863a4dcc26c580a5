import TerminalManager.Keybinds.Loader
import TerminalManager.Lib.Loops

/-!
# The shortcuts of a configuration

A keybindings file in JSON is read with a parser of its own, beside `Shortcut::parse`.

* `parseKeyName`, `parseModifier`, `parseKeyCombo`, `parseShortcut`   that parser;
* `sharedNames`, `coreNames`, `configNames`   the named keys that both know, and those that only one of them does;
* `Spelled`, `CoreOnly`, `ConfigOnly`         how a combo is spelled;
* `parsers_agree`                             the texts that both read alike, and what is printed among them.
-/

namespace TerminalManager.Keybinds
open Editor (isWhitespace)

/-! ## the parser -/

/-- the name is not trimmed -/
def parseKeyName (s : List Char) : Except String Key :=
  match String.ofList (s.map Char.toLower) with
  | "enter" | "return" => .ok .enter
  | "escape" | "esc" => .ok .escape
  | "backspace" => .ok .backspace
  | "tab" => .ok .tab
  | "space" => .ok .space
  | "up" => .ok .arrowUp
  | "down" => .ok .arrowDown
  | "left" => .ok .arrowLeft
  | "right" => .ok .arrowRight
  | "home" => .ok .home
  | "end" => .ok .end
  | "pageup" => .ok .pageUp
  | "pagedown" => .ok .pageDown
  | "delete" | "del" => .ok .delete
  | other =>
    match Key.fromOther other.toList with
    | some key => .ok key
    | none => .error ("unknown key name: '" ++ String.ofList s ++ "'")

def parseModifier (s : List Char) : Except String Modifiers :=
  match String.ofList (s.map Char.toLower) with
  | "ctrl" | "control" => .ok Modifiers.CTRL
  | "shift" => .ok Modifiers.SHIFT
  | "alt" => .ok Modifiers.ALT
  | "meta" | "super" | "cmd" | "command" => .ok Modifiers.META
  | other => .error ("unknown modifier: '" ++ other ++ "'")

def parseKeyCombo (s : List Char) : Except String KeyCombo := do
  let s := trim s
  if s = [] then
    throw "empty key combo string"
  let parts := s.splitOn '+'
  let key ← parseKeyName (parts.getLastD [])
  let mods ← parts.dropLast.foldlM (fun mods part => do return Modifiers.union mods (← parseModifier (trim part))) .empty
  return ⟨key, mods⟩

def parseShortcut (s : List Char) : Except String Shortcut :=
  match Find.before [',', ' '] s with
  | some first => do
    let a ← parseKeyCombo first
    let b ← parseKeyCombo (s.drop (first.length + 2))
    return .chord a b
  | none => return .single (← parseKeyCombo s)

/-! ## the names -/

/-- the named keys of both parsers, in lower case -/
def sharedNames : List (String × Key) :=
  [("enter", .enter), ("escape", .escape), ("esc", .escape), ("backspace", .backspace), ("tab", .tab), ("space", .space),
    ("up", .arrowUp), ("down", .arrowDown), ("left", .arrowLeft), ("right", .arrowRight), ("home", .home), ("end", .end),
    ("pageup", .pageUp), ("pagedown", .pageDown), ("delete", .delete), ("del", .delete)]

/-- those that only `Key::from_name` knows -/
def coreNames : List (String × Key) :=
  [("arrowup", .arrowUp), ("arrowdown", .arrowDown), ("arrowleft", .arrowLeft), ("arrowright", .arrowRight),
    ("insert", .insert), ("ins", .insert)]

/-- those that only the configuration knows -/
def configNames : List (String × Key) := [("return", .enter)]

/-- a name of the table, a function key or a character -/
def keyOf (own : List (String × Key)) (name : String) : Option Key :=
  ((sharedNames ++ own).lookup name).or (Key.fromOther name.toList)

lemma keyOf_append {own : List (String × Key)} {name : String} (h : (sharedNames ++ own).lookup name = none) :
    keyOf own name = Key.fromOther name.toList := by
  rw [keyOf, h, Option.none_or]

lemma fromName_eq (s : List Char) : Key.fromName s = keyOf coreNames (lowered s) := by
  unfold Key.fromName
  split
  case h_23 =>
    symm
    apply keyOf_append
    rw [List.lookup_eq_none_iff]
    simp_all [sharedNames, coreNames]
  all_goals
    rename_i h
    rw [h]
    rfl

lemma parseKeyName_eq (s : List Char) : (parseKeyName s).toOption = keyOf configNames (String.ofList (s.map Char.toLower)) := by
  unfold parseKeyName
  split
  case h_18 =>
    rw [keyOf_append]
    · split <;> simp_all [Except.toOption]
    · rw [List.lookup_eq_none_iff]
      simp_all [sharedNames, configNames]
  all_goals
    rename_i h
    rw [h]
    rfl

/-! ## which names are known -/

/-- a name that both parsers know: one of the table, of a function key, or a single character -/
def Named (name : String) : Prop :=
  name ∈ sharedNames.map Prod.fst ∨ (∃ rest n, name.toList = 'f' :: rest ∧ parseU8 rest = some n ∧ 1 ≤ n ∧ n ≤ 12) ∨
    name.toList.length = 1

lemma fromOther_f (rest : List Char) : (Key.fromOther ('f' :: rest)).isSome ↔
    (∃ n, parseU8 rest = some n ∧ 1 ≤ n ∧ n ≤ 12) ∨ rest = [] := by
  have hkey : (∃ n, parseU8 rest = some n ∧ 1 ≤ n ∧ n ≤ 12) ↔
      ((parseU8 rest).filter fun n => 1 ≤ n && n ≤ 12).isSome := by
    simp only [Option.isSome_iff_exists, Option.filter_eq_some_iff, Bool.and_eq_true, decide_eq_true_eq]
  have hother : Key.fromOther ('f' :: rest) =
      (((parseU8 rest).filter fun n => 1 ≤ n && n ≤ 12).map .f).or (if rest = [] then some (.char 'f') else none) := by
    unfold Key.fromOther
    split
    case h_1 rest' hcons =>
      cases hcons
      generalize (parseU8 rest).filter (fun n => 1 ≤ n && n ≤ 12) = functionKey
      cases functionKey <;> cases rest <;> rfl
    case h_2 hne => exact absurd rfl (hne rest)
  rw [hkey, hother, Option.isSome_or, Option.isSome_map, Bool.or_eq_true]
  by_cases hrest : rest = [] <;> simp [hrest]

lemma fromOther_ne {name : List Char} (h : ∀ rest, name ≠ 'f' :: rest) :
    (Key.fromOther name).isSome ↔ name.length = 1 := by
  rw [List.length_eq_one_iff]
  unfold Key.fromOther
  split
  case h_1 rest => exact absurd rfl (h rest)
  case h_2 =>
    dsimp only
    split
    case h_1 => exact iff_of_true rfl ⟨_, rfl⟩
    case h_2 hne => exact iff_of_false Bool.false_ne_true fun ⟨c, hc⟩ => hne c hc

lemma fromOther_isSome (name : List Char) : (Key.fromOther name).isSome ↔
    (∃ rest n, name = 'f' :: rest ∧ parseU8 rest = some n ∧ 1 ≤ n ∧ n ≤ 12) ∨ name.length = 1 := by
  by_cases hf : ∃ rest, name = 'f' :: rest
  · obtain ⟨rest, rfl⟩ := hf
    rw [fromOther_f]
    simp
  · rw [fromOther_ne (not_exists.mp hf), or_iff_right]
    rintro ⟨rest, n, h, -⟩
    exact hf ⟨rest, h⟩

lemma keyOf_isSome (own : List (String × Key)) (name : String) :
    (keyOf own name).isSome ↔ Named name ∨ name ∈ own.map Prod.fst := by
  have hmem : ∀ l : List (String × Key), (l.lookup name).isSome ↔ name ∈ l.map Prod.fst := by
    intro l
    simp only [List.lookup_isSome_iff, beq_iff_eq, List.mem_map]
    exact exists_congr fun p => and_congr_right fun _ => eq_comm
  rw [keyOf, Option.isSome_or, Bool.or_eq_true, hmem, fromOther_isSome, List.map_append, List.mem_append, Named, or_right_comm]

/-- no name of one parser is known to the other -/
lemma coreNames_own : ∀ name ∈ coreNames.map Prod.fst, ¬ Named name ∧ name ∉ configNames.map Prod.fst := by
  have hnone : ∀ name ∈ coreNames.map Prod.fst, keyOf configNames name = none := by decide
  intro name hname
  rw [← not_or, ← keyOf_isSome, hnone name hname]
  exact Bool.false_ne_true

lemma configNames_own : ∀ name ∈ configNames.map Prod.fst, ¬ Named name ∧ name ∉ coreNames.map Prod.fst := by
  have hnone : ∀ name ∈ configNames.map Prod.fst, keyOf coreNames name = none := by decide
  intro name hname
  rw [← not_or, ← keyOf_isSome, hnone name hname]
  exact Bool.false_ne_true

/-- what both know is the same key -/
lemma keyOf_shared {name : String} (h : Named name) : keyOf coreNames name = keyOf configNames name := by
  have hown : ∀ own : List (String × Key), name ∉ own.map Prod.fst → own.lookup name = none := by
    intro own hname
    rw [List.lookup_eq_none_iff]
    rintro p hp
    rw [bne_iff_ne]
    rintro rfl
    exact hname (List.mem_map_of_mem hp)
  rw [keyOf, keyOf, List.lookup_append, List.lookup_append, hown coreNames fun hname => (coreNames_own name hname).1 h,
    hown configNames fun hname => (configNames_own name hname).1 h]

/-! ## what is read of a combo -/

/-- what is after the last plus sign -/
def keyPart (s : List Char) : List Char := ((trim s).splitOn '+').getLastD []

/-- what the plus signs are after -/
def modifierParts (s : List Char) : List (List Char) := ((trim s).splitOn '+').dropLast

/-- the modifiers of both parsers, in lower case -/
def modifierNames : List (String × Modifiers) :=
  [("ctrl", .CTRL), ("control", .CTRL), ("shift", .SHIFT), ("alt", .ALT), ("meta", .META), ("super", .META), ("cmd", .META),
    ("command", .META)]

def addNamed (modifiers : Modifiers) (part : List Char) : Option Modifiers :=
  (modifierNames.lookup (lowered part)).map modifiers.union

/-- the modifiers of a combo -/
def modifiersOf (s : List Char) : Option Modifiers := (modifierParts s).foldlM addNamed .empty

lemma parseName_eq (s : List Char) : Modifiers.parseName s = modifierNames.lookup (lowered s) := by
  unfold Modifiers.parseName
  split
  case h_9 =>
    symm
    rw [List.lookup_eq_none_iff]
    simp_all [modifierNames]
  all_goals
    rename_i h
    rw [h]
    rfl

lemma parseModifier_eq (s : List Char) :
    (parseModifier s).toOption = modifierNames.lookup (String.ofList (s.map Char.toLower)) := by
  unfold parseModifier
  split
  case h_9 =>
    symm
    rw [Except.toOption, List.lookup_eq_none_iff]
    simp_all [modifierNames]
  all_goals
    rename_i h
    rw [h]
    rfl

lemma lowered_trim (s : List Char) : lowered (trim s) = lowered s := by rw [lowered, lowered, trim_trim]

lemma addModifier_eq (m : Modifiers) (part : List Char) : (KeyCombo.addModifier m part).toOption = addNamed m part := by
  rw [KeyCombo.addModifier, addNamed, parseName_eq, lowered_trim]
  cases modifierNames.lookup (lowered part) <;> rfl

lemma addParsed_eq (m : Modifiers) (part : List Char) :
    Except.toOption (do return m.union (← parseModifier (trim part))) = addNamed m part := by
  rw [addNamed, lowered, ← parseModifier_eq]
  cases parseModifier (trim part) <;> rfl

lemma modifiersOf_isSome (s : List Char) :
    (modifiersOf s).isSome ↔ ∀ part ∈ modifierParts s, lowered part ∈ modifierNames.map Prod.fst := by
  apply Loops.foldlM_isSome
  intro m part
  rw [addNamed, Option.isSome_map, List.lookup_isSome_iff, List.mem_map]
  exact exists_congr fun p => and_congr_right fun _ => by rw [beq_iff_eq, eq_comm]

/-- a combo of the core is its key and its modifiers -/
lemma parse_eq (s : List Char) : (KeyCombo.parse s).toOption =
    (keyOf coreNames (lowered (keyPart s))).bind fun key => (modifiersOf s).map (⟨key, ·⟩) := by
  rw [← fromName_eq, modifiersOf, ← Loops.toOption_foldlM addModifier_eq, keyPart, modifierParts]
  unfold KeyCombo.parse
  dsimp only
  by_cases hnil : trim s = []
  · rw [if_pos hnil, hnil]
    rfl
  · rw [if_neg hnil, fromName_eq (trim _), lowered_trim, ← fromName_eq]
    cases Key.fromName (((trim s).splitOn '+').getLastD []) with
    | none => rfl
    | some key => cases ((trim s).splitOn '+').dropLast.foldlM KeyCombo.addModifier .empty <;> rfl

/-- so is one of the configuration -/
lemma parseKeyCombo_eq (s : List Char) : (parseKeyCombo s).toOption =
    (keyOf configNames (String.ofList ((keyPart s).map Char.toLower))).bind fun key => (modifiersOf s).map (⟨key, ·⟩) := by
  rw [← parseKeyName_eq, modifiersOf, ← Loops.toOption_foldlM addParsed_eq, keyPart, modifierParts]
  unfold parseKeyCombo
  dsimp only
  by_cases hnil : trim s = []
  · rw [if_pos hnil, hnil]
    rfl
  · rw [if_neg hnil]
    cases parseKeyName (((trim s).splitOn '+').getLastD []) with
    | error e => rfl
    | ok key =>
      cases ((trim s).splitOn '+').dropLast.foldlM
        (fun mods part => do return Modifiers.union mods (← parseModifier (trim part))) .empty <;> rfl

/-! ## how a combo is spelled -/

/-- the key is one that only the core knows, or there is a blank before it -/
def CoreOnly (s : List Char) : Prop :=
  lowered (keyPart s) ∈ coreNames.map Prod.fst ∨ trim (keyPart s) ≠ keyPart s ∧ Named (lowered (keyPart s))

/-- the key is one that only the configuration knows, and there is no blank before it -/
def ConfigOnly (s : List Char) : Prop :=
  trim (keyPart s) = keyPart s ∧ lowered (keyPart s) ∈ configNames.map Prod.fst

/-- known modifiers and a key that one of the two knows -/
def Spelled (s : List Char) : Prop :=
  (∀ part ∈ modifierParts s, lowered part ∈ modifierNames.map Prod.fst) ∧
    (Named (lowered (keyPart s)) ∨ CoreOnly s ∨ ConfigOnly s)

/-- there is no blank after the key, so one before it is not a key itself -/
lemma keyPart_cases (s : List Char) : trim (keyPart s) = keyPart s ∨
    ∃ c rest, keyPart s = c :: rest ∧ rest ≠ [] ∧ isWhitespace c = true := by
  obtain ⟨L, a, hL⟩ := Lines.exists_snoc '+' (trim s)
  have hkey : keyPart s = a := by rw [keyPart, hL, List.getLastD_concat]
  have htrim : trim s = L.flatMap (· ++ ['+']) ++ a := by rw [← intercalate_concat, ← hL, Lines.join_splitOn]
  have hlast : ∀ hne : a ≠ [], ¬ isWhitespace (a.getLast hne) = true := by
    intro hne
    have hend : trim s ≠ [] := by
      rw [htrim]
      exact List.append_ne_nil_of_right_ne_nil _ hne
    have h := List.rdropWhile_last_not isWhitespace (s.dropWhile isWhitespace) hend
    simp only [← trim_eq_rdropWhile, htrim, List.getLast_append_of_ne_nil _ hne] at h
    exact h
  rw [hkey]
  cases a with
  | nil => exact .inl rfl
  | cons c rest =>
    by_cases hc : isWhitespace c = true
    · refine .inr ⟨c, rest, rfl, ?_, hc⟩
      rintro rfl
      exact hlast (List.cons_ne_nil c []) hc
    · left
      rw [trim_eq_rdropWhile, List.dropWhile_cons_of_neg hc]
      exact List.rdropWhile_eq_self_iff.mpr hlast

lemma toLower_blank {c : Char} (hc : isWhitespace c = true) : c.toLower = c := by
  rcases toLower_cases c with ⟨h, -⟩ | ⟨n, rfl⟩
  · exact h
  · revert hc
    revert n
    decide

/-- the configuration knows no key with a blank before it -/
lemma keyOf_blank {c : Char} {rest : List Char} (hc : isWhitespace c = true) (hne : rest ≠ []) :
    keyOf configNames (String.ofList ((c :: rest).map Char.toLower)) = none := by
  have hnames : ∀ name ∈ (sharedNames ++ configNames).map Prod.fst, name.toList.head?.all (fun d => !isWhitespace d) = true := by
    decide
  rw [List.map_cons, toLower_blank hc]
  have hin : String.ofList (c :: rest.map Char.toLower) ∉ (sharedNames ++ configNames).map Prod.fst := by
    intro hmem
    have h := hnames _ hmem
    rw [String.toList_ofList, List.head?_cons, Option.all_some, hc] at h
    cases h
  rw [List.map_append, List.mem_append, not_or] at hin
  rw [← Option.not_isSome_iff_eq_none, keyOf_isSome, Named, String.toList_ofList]
  rintro ((h | ⟨name, n, h, -⟩ | h) | h)
  · exact hin.1 h
  · obtain ⟨rfl, -⟩ := List.cons.inj h
    exact absurd hc (by decide)
  · rw [List.length_cons, List.length_map] at h
    exact hne (List.eq_nil_of_length_eq_zero (Nat.succ.inj h))
  · exact hin.2 h

/-- what the configuration makes of a key part -/
lemma configKey_isSome (s : List Char) : (keyOf configNames (String.ofList ((keyPart s).map Char.toLower))).isSome ↔
    trim (keyPart s) = keyPart s ∧ (Named (lowered (keyPart s)) ∨ lowered (keyPart s) ∈ configNames.map Prod.fst) := by
  by_cases htrim : trim (keyPart s) = keyPart s
  · rw [keyOf_isSome, lowered, htrim, eq_self, true_and]
  · obtain ⟨c, rest, hkey, hne, hc⟩ := (keyPart_cases s).resolve_left htrim
    refine iff_of_false ?_ fun h => htrim h.1
    rw [hkey, keyOf_blank hc hne]
    exact Bool.false_ne_true

lemma parse_isSome (s : List Char) : (KeyCombo.parse s).toOption.isSome ↔ Spelled s ∧ ¬ ConfigOnly s := by
  have hread : (KeyCombo.parse s).toOption.isSome ↔
      (Named (lowered (keyPart s)) ∨ lowered (keyPart s) ∈ coreNames.map Prod.fst) ∧ (modifiersOf s).isSome := by
    rw [parse_eq, ← keyOf_isSome]
    cases keyOf coreNames (lowered (keyPart s)) <;> simp
  have hcore := coreNames_own (lowered (keyPart s))
  have hconfig := configNames_own (lowered (keyPart s))
  rw [hread, modifiersOf_isSome, Spelled, CoreOnly, ConfigOnly, Ne]
  generalize (∀ part ∈ modifierParts s, lowered part ∈ modifierNames.map Prod.fst) = modifiers
  generalize (lowered (keyPart s) ∈ coreNames.map Prod.fst) = core at hcore hconfig ⊢
  generalize (lowered (keyPart s) ∈ configNames.map Prod.fst) = config at hcore hconfig ⊢
  generalize Named (lowered (keyPart s)) = named at hcore hconfig ⊢
  generalize (trim (keyPart s) = keyPart s) = bare
  clear hread
  tauto

lemma parseKeyCombo_isSome (s : List Char) : (parseKeyCombo s).toOption.isSome ↔ Spelled s ∧ ¬ CoreOnly s := by
  have hread : (parseKeyCombo s).toOption.isSome ↔ (trim (keyPart s) = keyPart s ∧
      (Named (lowered (keyPart s)) ∨ lowered (keyPart s) ∈ configNames.map Prod.fst)) ∧ (modifiersOf s).isSome := by
    rw [parseKeyCombo_eq, ← configKey_isSome]
    cases keyOf configNames (String.ofList ((keyPart s).map Char.toLower)) <;> simp
  have hcore := coreNames_own (lowered (keyPart s))
  have hconfig := configNames_own (lowered (keyPart s))
  rw [hread, modifiersOf_isSome, Spelled, CoreOnly, ConfigOnly, Ne]
  generalize (∀ part ∈ modifierParts s, lowered part ∈ modifierNames.map Prod.fst) = modifiers
  generalize (lowered (keyPart s) ∈ coreNames.map Prod.fst) = core at hcore hconfig ⊢
  generalize (lowered (keyPart s) ∈ configNames.map Prod.fst) = config at hcore hconfig ⊢
  generalize Named (lowered (keyPart s)) = named at hcore hconfig ⊢
  generalize (trim (keyPart s) = keyPart s) = bare
  clear hread
  tauto

/-- a combo that both read is the same -/
lemma combos_agree {s : List Char} (h : Spelled s) (hcore : ¬ CoreOnly s) (hconfig : ¬ ConfigOnly s) :
    (KeyCombo.parse s).toOption = (parseKeyCombo s).toOption := by
  have hnamed : Named (lowered (keyPart s)) := (h.2.resolve_right fun hown => hown.elim hcore hconfig)
  have htrim : trim (keyPart s) = keyPart s := by
    by_contra hne
    exact hcore (.inr ⟨hne, hnamed⟩)
  have hlower : String.ofList ((keyPart s).map Char.toLower) = lowered (keyPart s) := by rw [lowered, htrim]
  rw [parse_eq, parseKeyCombo_eq, hlower, keyOf_shared hnamed]

/-! ## shortcuts -/

/-- the combos of a text -/
def combos (s : List Char) : List (List Char) :=
  match Find.before [',', ' '] s with
  | some first => [first, s.drop (first.length + 2)]
  | none => [s]

/-- a text read with a reader of combos -/
def shortcutOf (read : List Char → Option KeyCombo) (s : List Char) : Option Shortcut :=
  match combos s with
  | [a] => (read a).map .single
  | [a, b] => (read a).bind fun x => (read b).map (.chord x)
  | _ => none

lemma shortcut_parse_eq (s : List Char) :
    (Shortcut.parse s).toOption = shortcutOf (fun c => (KeyCombo.parse c).toOption) s := by
  unfold Shortcut.parse shortcutOf combos
  cases Find.before [',', ' '] s with
  | none =>
    dsimp only
    cases KeyCombo.parse s <;> rfl
  | some first =>
    dsimp only
    cases KeyCombo.parse first with
    | error e => rfl
    | ok a => cases KeyCombo.parse (s.drop (first.length + 2)) <;> rfl

lemma parseShortcut_eq (s : List Char) :
    (parseShortcut s).toOption = shortcutOf (fun c => (parseKeyCombo c).toOption) s := by
  unfold parseShortcut shortcutOf combos
  cases Find.before [',', ' '] s with
  | none =>
    dsimp only
    cases parseKeyCombo s <;> rfl
  | some first =>
    dsimp only
    cases parseKeyCombo first with
    | error e => rfl
    | ok a => cases parseKeyCombo (s.drop (first.length + 2)) <;> rfl

lemma combos_cases (s : List Char) : (∃ a, combos s = [a]) ∨ ∃ a b, combos s = [a, b] := by
  unfold combos
  split
  · exact .inr ⟨_, _, rfl⟩
  · exact .inl ⟨_, rfl⟩

section
variable {read read' : List Char → Option KeyCombo} {s : List Char}

lemma shortcutOf_isSome : (shortcutOf read s).isSome ↔ ∀ c ∈ combos s, (read c).isSome := by
  unfold shortcutOf
  rcases combos_cases s with ⟨a, h⟩ | ⟨a, b, h⟩
  · simp [h]
  · rw [h]
    cases ha : read a <;> simp [ha]

lemma shortcutOf_congr (h : ∀ c ∈ combos s, read c = read' c) : shortcutOf read s = shortcutOf read' s := by
  unfold shortcutOf
  rcases combos_cases s with ⟨a, hs⟩ | ⟨a, b, hs⟩
  · rw [hs] at h ⊢
    dsimp only
    rw [h a (List.mem_singleton.mpr rfl)]
  · rw [hs] at h ⊢
    dsimp only
    rw [h a List.mem_cons_self, h b (List.mem_cons_of_mem a (List.mem_singleton.mpr rfl))]

end

/-- both parsers make the same of a text exactly when it is misspelled, or neither or both of them have a key in it
that the other does not know -/
lemma parse_agree (s : List Char) : (Shortcut.parse s).toOption = (parseShortcut s).toOption ↔
    ((∀ c ∈ combos s, Spelled c) → ((∃ c ∈ combos s, CoreOnly c) ↔ ∃ c ∈ combos s, ConfigOnly c)) := by
  have hcore : (Shortcut.parse s).toOption.isSome ↔ (∀ c ∈ combos s, Spelled c) ∧ ¬ ∃ c ∈ combos s, ConfigOnly c := by
    simp only [shortcut_parse_eq, shortcutOf_isSome, parse_isSome, forall_and, not_exists, not_and]
  have hconfig : (parseShortcut s).toOption.isSome ↔ (∀ c ∈ combos s, Spelled c) ∧ ¬ ∃ c ∈ combos s, CoreOnly c := by
    simp only [parseShortcut_eq, shortcutOf_isSome, parseKeyCombo_isSome, forall_and, not_exists, not_and]
  have hread : (∀ c ∈ combos s, Spelled c) → (¬ ∃ c ∈ combos s, ConfigOnly c) → (¬ ∃ c ∈ combos s, CoreOnly c) →
      (Shortcut.parse s).toOption = (parseShortcut s).toOption := by
    intro hspelled hnoConfig hnoCore
    rw [shortcut_parse_eq, parseShortcut_eq]
    apply shortcutOf_congr
    intro c hc
    exact combos_agree (hspelled c hc) (fun hown => hnoCore ⟨c, hc, hown⟩) fun hown => hnoConfig ⟨c, hc, hown⟩
  generalize (∀ c ∈ combos s, Spelled c) = spelled at *
  generalize (∃ c ∈ combos s, ConfigOnly c) = config at *
  generalize (∃ c ∈ combos s, CoreOnly c) = core at *
  constructor
  · intro heq hspelled
    rw [heq, hconfig] at hcore
    tauto
  · intro h
    by_cases hboth : spelled ∧ ¬ config
    · exact hread hboth.1 hboth.2 fun hc => hboth.2 ((h hboth.1).mp hc)
    · have hneither : ¬ (spelled ∧ ¬ core) := fun hc => hboth ⟨hc.1, fun hown => hc.2 ((h hc.1).mpr hown)⟩
      rw [← hcore, Option.not_isSome_iff_eq_none] at hboth
      rw [← hconfig, Option.not_isSome_iff_eq_none] at hneither
      rw [hboth, hneither]

/-! ## what is printed -/

namespace Shortcut

def display : Shortcut → String
  | single combo => combo.display
  | chord a b => a.display ++ ", " ++ b.display

/-- the combos of a shortcut -/
def members : Shortcut → List KeyCombo
  | single combo => [combo]
  | chord a b => [a, b]

/-- every key is one that a name is read as -/
def Recordable (shortcut : Shortcut) : Prop := ∀ c ∈ shortcut.members, c.Recordable

end Shortcut

section
variable {combo : KeyCombo} {shortcut : Shortcut} {read : List Char → Option KeyCombo}

lemma display_blankless (h : combo.Recordable) : ∀ d ∈ combo.display.toList, isWhitespace d = false := by
  apply KeyCombo.display_solid
  by_cases hplus : combo.key = .char '+'
  · rw [hplus, Key.display_char]
    decide
  · exact (Key.display_spec h.1 hplus).1

lemma combos_display (h : shortcut.Recordable) :
    combos shortcut.display.toList = shortcut.members.map fun c => c.display.toList := by
  have hblank : ∀ c ∈ shortcut.members, ' ' ∉ c.display.toList := by
    intro c hc hmem
    exact absurd (display_blankless (h c hc) _ hmem) (by decide)
  unfold combos
  cases shortcut with
  | single c =>
    have hnone : Find.before [',', ' '] c.display.toList = none := by
      rw [Find.before_eq_none]
      intro hseparator
      exact hblank c (List.mem_singleton.mpr rfl) (hseparator.subset (by decide))
    rw [Shortcut.display, hnone]
    rfl
  | chord a b =>
    have htext : (Shortcut.chord a b).display.toList = a.display.toList ++ [',', ' '] ++ b.display.toList := by
      rw [Shortcut.display, String.toList_append, String.toList_append]
      rfl
    rw [htext, Find.before_pair (by decide) (hblank a List.mem_cons_self)]
    dsimp only
    have hdrop : (a.display.toList ++ [',', ' '] ++ b.display.toList).drop (a.display.toList.length + 2) = b.display.toList := by
      apply List.drop_left'
      rw [List.length_append]
      rfl
    rw [hdrop]
    rfl

lemma shortcutOf_display (h : shortcut.Recordable) : shortcutOf read shortcut.display.toList = some shortcut ↔
    ∀ c ∈ shortcut.members, read c.display.toList = some c := by
  rw [shortcutOf, combos_display h]
  cases shortcut with
  | single c => simp [Shortcut.members]
  | chord a b => cases ha : read a.display.toList <;> simp [Shortcut.members, ha, and_comm]

/-- the only printed name that the core knows alone -/
lemma display_coreName {key : Key} (h : key.Recordable) :
    lowered key.display.toList ∈ coreNames.map Prod.fst ↔ key = .insert := by
  cases key with
  | char c =>
    have hlong : ∀ name ∈ coreNames.map Prod.fst, 1 < name.toList.length := by decide
    refine iff_of_false ?_ (by simp)
    intro hmem
    have hlength := hlong _ hmem
    rw [Key.display_char, lowered, trim_eq fun d hd => ?_, String.toList_ofList] at hlength
    · exact absurd hlength (by simp)
    · rw [List.mem_singleton.mp hd]
      exact (toUpper_spec h.1 h.2).1
  | f n =>
    obtain ⟨hlo, hhi⟩ := h
    interval_cases n <;> decide
  | unknown => exact h.elim
  | _ => decide

/-- **A combo that is printed** is read by both parsers as it was, unless its key is the plus sign or `Insert`. -/
theorem read_display (h : combo.Recordable) :
    (KeyCombo.parse combo.display.toList).toOption = some combo ∧ (parseKeyCombo combo.display.toList).toOption = some combo ↔
      combo.key ≠ .char '+' ∧ combo.key ≠ .insert := by
  by_cases hplus : combo.key = .char '+'
  · rw [KeyCombo.parse_plus hplus]
    simp [hplus, Except.toOption]
  have hpart : keyPart combo.display.toList = combo.key.display.toList := by
    rw [keyPart, trim_eq (display_blankless h), KeyCombo.splitOn_display h.1 hplus, List.getLastD_concat]
  have hbare : trim combo.key.display.toList = combo.key.display.toList := trim_eq (Key.display_spec h.1 hplus).1
  have hcore : CoreOnly combo.display.toList ↔ combo.key = .insert := by
    rw [CoreOnly, hpart, display_coreName h.1, hbare]
    simp
  constructor
  · rintro ⟨-, hconfig⟩
    refine ⟨hplus, fun hinsert => ?_⟩
    have hread := (parseKeyCombo_isSome combo.display.toList).mp (by rw [hconfig]; rfl)
    exact hread.2 (hcore.mpr hinsert)
  · rintro ⟨-, hinsert⟩
    have hparse : (KeyCombo.parse combo.display.toList).toOption = some combo := by
      rw [KeyCombo.parse_display h hplus]
      rfl
    obtain ⟨hspelled, hconfig⟩ := (parse_isSome combo.display.toList).mp (by rw [hparse]; rfl)
    exact ⟨hparse, by rw [← combos_agree hspelled (mt hcore.mp hinsert) hconfig, hparse]⟩

lemma ok_iff_toOption {ε α : Type} {x : Except ε α} {a : α} : x = .ok a ↔ x.toOption = some a :=
  ⟨fun h => by rw [h]; rfl, eq_ok_of_toOption⟩

end

/-- **Main result.**  Both parsers make the same of a text exactly when its combos are misspelled, or neither or both of
`Shortcut::parse` and the configuration are alone with a key in it.  What is printed is read by both as it was, unless
it has the plus sign or `Insert` for a key. -/
theorem parsers_agree (s : List Char) :
    ((Shortcut.parse s).toOption = (parseShortcut s).toOption ↔
      ((∀ c ∈ combos s, Spelled c) → ((∃ c ∈ combos s, CoreOnly c) ↔ ∃ c ∈ combos s, ConfigOnly c))) ∧
    ∀ shortcut : Shortcut, shortcut.Recordable →
      (Shortcut.parse shortcut.display.toList = .ok shortcut ∧ parseShortcut shortcut.display.toList = .ok shortcut ↔
        ∀ c ∈ shortcut.members, c.key ≠ .char '+' ∧ c.key ≠ .insert) := by
  refine ⟨parse_agree s, ?_⟩
  intro shortcut h
  rw [ok_iff_toOption, ok_iff_toOption, shortcut_parse_eq, parseShortcut_eq, shortcutOf_display h, shortcutOf_display h,
    ← forall₂_and]
  exact forall₂_congr fun c hc => read_display (h c hc)

theorem parsers_agree_save : (Shortcut.parse "Ctrl+S".toList).toOption = (parseShortcut "Ctrl+S".toList).toOption ∧
    Shortcut.parse (Shortcut.single ⟨.char 's', .CTRL⟩).display.toList = .ok (.single ⟨.char 's', .CTRL⟩) ∧
      parseShortcut (Shortcut.single ⟨.char 's', .CTRL⟩).display.toList = .ok (.single ⟨.char 's', .CTRL⟩) := by
  have hrecorded : (Shortcut.single ⟨.char 's', .CTRL⟩).Recordable := by
    intro c hc
    obtain rfl := List.mem_singleton.mp hc
    exact ⟨⟨by decide, by decide⟩, show (2 : Nat) < 16 by decide⟩
  have hcombos : combos "Ctrl+S".toList = ["Ctrl+S".toList] := by decide
  have hkey : keyPart "Ctrl+S".toList = ['S'] := by decide
  refine ⟨(parsers_agree "Ctrl+S".toList).1.mpr fun _ => ?_, ((parsers_agree []).2 _ hrecorded).mpr ?_⟩
  · simp only [hcombos, List.mem_singleton, exists_eq_left, CoreOnly, ConfigOnly, hkey]
    refine iff_of_false ?_ (by decide)
    rintro (h | ⟨h, -⟩)
    · exact absurd h (by decide)
    · exact h (by decide)
  · intro c hc
    obtain rfl := List.mem_singleton.mp hc
    decide

/-- what is printed for `Insert` is not read by the configuration, which reads `Return` alone and no key after a blank -/
theorem insert_not_read :
    (Shortcut.single ⟨.insert, .empty⟩).Recordable ∧ (Shortcut.single ⟨.insert, .empty⟩).display = "Insert" ∧
      (Shortcut.parse "Insert".toList).toOption = some (.single ⟨.insert, .empty⟩) ∧
      (parseShortcut "Insert".toList).toOption = none ∧
      (Shortcut.parse "Return".toList).toOption = none ∧
      (parseShortcut "Return".toList).toOption = some (.single ⟨.enter, .empty⟩) ∧
      (Shortcut.parse "Ctrl+ S".toList).toOption = some (.single ⟨.char 's', .CTRL⟩) ∧
      (parseShortcut "Ctrl+ S".toList).toOption = none := by
  refine ⟨?_, by decide⟩
  intro c hc
  obtain rfl := List.mem_singleton.mp hc
  exact ⟨trivial, show (0 : Nat) < 16 by decide⟩

end TerminalManager.Keybinds
