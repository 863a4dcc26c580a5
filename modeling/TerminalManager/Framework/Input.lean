import TerminalManager.Editor.Moves
import TerminalManager.Keybinds.Combo
import TerminalManager.Lib.Transition

/-!
# Text inputs

The value of an input is edited by keys, by typed text and by numbers that replace it.  Cursor and anchor are
byte offsets into the value; a slice at an offset inside of a character, or past the end, panics.

* `applyKeyWithMods`, `insertTextFiltered`, `insertText`, `selectAll`, `deleteSelection`, `clampNumberInput`
                     the edits;
* `Valid`            cursor and anchor are character boundaries of the value;
* `Fits`             a number that replaces the value is at least as long as the offsets that stay;
* `inputs_valid`     no run of edits panics or leaves `Valid` exactly when its numbers all fit.
-/

namespace TerminalManager.Framework
open Editor (CharTable len sliceTo sliceFrom isCharBoundary Boundary prevWordBoundary nextWordBoundary)
open Keybinds (Key)
open Transition

/-- single-precision numbers, and how they are read and written; every number is written in ASCII -/
class Numeric (F : Type) where
  add : F → F → F
  sub : F → F → F
  min : F → F → F
  max : F → F → F
  clamp : F → F → F → F
  eq : F → F → Bool
  /-- `str::parse::<f32>` -/
  parse : List Char → Option F
  /-- `format_numeric` -/
  formatNumeric : F → List Char
  ascii : ∀ v, ∀ c ∈ formatNumeric v, c.utf8Size = 1

inductive InputType
  | text
  | password
  | checkbox
  | radio
  | number
  | range
  | hidden
deriving DecidableEq, Repr

structure InputState (F : Type) where
  value : List Char
  /-- byte offset into the value -/
  cursorPos : Nat
  /-- the selection spans from here to the cursor, in either order -/
  selectionAnchor : Option Nat
  inputType : InputType
  numericValue : F
  min : F
  max : F
  step : F
deriving DecidableEq, Repr

/-- a call on the state -/
inductive InputOp
  | applyKey (key : Key) (shift ctrl : Bool)
  | insertFiltered (text : List Char)
  | insert (text : List Char)
  | selectAll
  | deleteSelection
  | clampNumber

/-- `String::drain(start..stop)`, for what is left -/
def drain (s : List Char) (start stop : Nat) : Option (List Char) :=
  if start ≤ stop then do
    let before ← sliceTo s start
    let after ← sliceFrom s stop
    some (before ++ after)
  else
    none

/-- `String::insert_str` -/
def insertStr (s : List Char) (pos : Nat) (text : List Char) : Option (List Char) := do
  let before ← sliceTo s pos
  let after ← sliceFrom s pos
  some (before ++ text ++ after)

def prevCharBoundary (s : List Char) (pos : Nat) : Option Nat := (sliceTo s pos).map fun p => len p.dropLast

def nextCharBoundary (s : List Char) (pos : Nat) : Option Nat :=
  (sliceFrom s pos).map fun p =>
    match p with
    | c :: _ :: _ => pos + c.utf8Size
    | _ => len s

namespace InputState
section
variable {F : Type}

def selectionRange (s : InputState F) : Option (Nat × Nat) := do
  let anchor ← s.selectionAnchor
  if anchor = s.cursorPos then
    none
  else
    some (if anchor < s.cursorPos then (anchor, s.cursorPos) else (s.cursorPos, anchor))

def selectAll (s : InputState F) : Bool × InputState F :=
  (s.selectionAnchor != some 0 || s.cursorPos != len s.value,
    { s with selectionAnchor := some 0, cursorPos := len s.value })

def deleteSelection (s : InputState F) : Option (Bool × InputState F) :=
  match s.selectionRange with
  | none => some (false, { s with selectionAnchor := none })
  | some (start, stop) => do
    let value ← drain s.value start stop
    some (true, { s with value, cursorPos := start, selectionAnchor := none })

def insertText (s : InputState F) (text : List Char) : Option (InputState F) := do
  let (_, s) ← s.deleteSelection
  let value ← insertStr s.value s.cursorPos text
  some { s with value, cursorPos := s.cursorPos + len text }

/-- a selection that collapses back onto its anchor is none -/
def moveCursor (s : InputState F) (target : Nat) (extend : Bool) : InputState F :=
  if extend then
    let anchor := s.selectionAnchor.getD s.cursorPos
    { s with cursorPos := target, selectionAnchor := if anchor = target then none else some anchor }
  else
    { s with cursorPos := target, selectionAnchor := none }

variable (table : CharTable)

/-- the boundary left of the cursor, of a word or of a character -/
def prevBoundary (s : InputState F) (ctrl : Bool) : Option Nat :=
  if ctrl then prevWordBoundary table s.value s.cursorPos else prevCharBoundary s.value s.cursorPos

def nextBoundary (s : InputState F) (ctrl : Bool) : Option Nat :=
  if ctrl then nextWordBoundary table s.value s.cursorPos else nextCharBoundary s.value s.cursorPos

def backspace (s : InputState F) (ctrl : Bool) : Option (InputState F) := do
  let (removed, s) ← s.deleteSelection
  if !removed && 0 < s.cursorPos then
    let prev ← s.prevBoundary table ctrl
    let value ← drain s.value prev s.cursorPos
    some { s with value, cursorPos := prev }
  else
    some s

def delete (s : InputState F) (ctrl : Bool) : Option (InputState F) := do
  let (removed, s) ← s.deleteSelection
  if !removed && s.cursorPos < len s.value then
    let next ← s.nextBoundary table ctrl
    let value ← drain s.value s.cursorPos next
    some { s with value }
  else
    some s

/-- a plain arrow collapses a selection to its edge -/
def arrowLeft (s : InputState F) (shift ctrl : Bool) : Option (InputState F) :=
  if !shift && !ctrl then
    match s.selectionRange with
    | some (start, _) => some { s with cursorPos := start, selectionAnchor := none }
    | none =>
      if 0 < s.cursorPos then
        (prevCharBoundary s.value s.cursorPos).map ({ s with cursorPos := ·, selectionAnchor := none })
      else
        some s
  else
    (s.prevBoundary table ctrl).map fun target => s.moveCursor target shift

def arrowRight (s : InputState F) (shift ctrl : Bool) : Option (InputState F) :=
  if !shift && !ctrl then
    match s.selectionRange with
    | some (_, stop) => some { s with cursorPos := stop, selectionAnchor := none }
    | none =>
      if s.cursorPos < len s.value then
        (nextCharBoundary s.value s.cursorPos).map ({ s with cursorPos := ·, selectionAnchor := none })
      else
        some s
  else
    (s.nextBoundary table ctrl).map fun target => s.moveCursor target shift

/-- the keys that edit the text -/
def editKey (s : InputState F) (key : Key) (shift ctrl : Bool) : Option (InputState F) :=
  match key with
  | .backspace => s.backspace table ctrl
  | .delete => s.delete table ctrl
  | .arrowLeft => s.arrowLeft table shift ctrl
  | .arrowRight => s.arrowRight table shift ctrl
  | .home => some (s.moveCursor 0 shift)
  | Key.end => some (s.moveCursor (len s.value) shift)
  | _ => some s

variable [Numeric F]

/-- the number that a step up writes -/
def stepUp (s : InputState F) : F := Numeric.min (Numeric.add s.numericValue s.step) s.max

def stepDown (s : InputState F) : F := Numeric.max (Numeric.sub s.numericValue s.step) s.min

/-- a number in place of the value; the cursor and the anchor stay -/
def writeNumber (s : InputState F) (v : F) : InputState F :=
  { s with numericValue := v, value := Numeric.formatNumeric v }

/-- a number in place of the value, and the cursor behind it; the anchor stays -/
def writeNumberToEnd (s : InputState F) (v : F) : InputState F :=
  { s.writeNumber v with cursorPos := len (Numeric.formatNumeric v) }

/-- an edit by a key; the number follows the text when that changes in length -/
def typeKey (s : InputState F) (key : Key) (shift ctrl : Bool) : Option (Bool × InputState F) := do
  let t ← s.editKey table key shift ctrl
  let t := if t.inputType = .number ∧ len t.value ≠ len s.value then
      match Numeric.parse t.value with
      | some v => { t with numericValue := Numeric.clamp v t.min t.max }
      | none => t
    else
      t
  some (len t.value != len s.value || t.cursorPos != s.cursorPos || !Numeric.eq t.numericValue s.numericValue ||
    t.selectionAnchor != s.selectionAnchor, t)

def applyKeyWithMods (s : InputState F) (key : Key) (shift ctrl : Bool) : Option (Bool × InputState F) :=
  match s.inputType with
  | .number =>
    match key with
    | .arrowUp => some (true, s.writeNumberToEnd s.stepUp)
    | .arrowDown => some (true, s.writeNumberToEnd s.stepDown)
    | _ => s.typeKey table key shift ctrl
  | .range =>
    match key with
    | .arrowUp | .arrowRight => some (true, s.writeNumber s.stepUp)
    | .arrowDown | .arrowLeft => some (true, s.writeNumber s.stepDown)
    | _ => some (false, s)
  | .checkbox | .radio | .hidden => some (false, s)
  | .text | .password => s.typeKey table key shift ctrl

def insertTextFiltered (s : InputState F) (text : List Char) : Option (Bool × InputState F) :=
  match s.inputType with
  | .number => do
    let filtered := text.filter fun c => c.isDigit || c == '-' || c == '.'
    if filtered = [] then
      some (false, s)
    else
      let t ← s.insertText filtered
      some (true, match Numeric.parse t.value with
        | some v => { t with numericValue := v }
        | none => t)
  | _ => (s.insertText text).map (true, ·)

def clampNumberInput (s : InputState F) : InputState F :=
  if s.inputType ≠ .number then
    s
  else
    match Numeric.parse s.value with
    | some v => s.writeNumberToEnd (Numeric.clamp v s.min s.max)
    | none => s

def next (s : InputState F) : InputOp → Option (InputState F)
  | .applyKey key shift ctrl => (s.applyKeyWithMods table key shift ctrl).map Prod.snd
  | .insertFiltered text => (s.insertTextFiltered text).map Prod.snd
  | .insert text => s.insertText text
  | .selectAll => some s.selectAll.2
  | .deleteSelection => s.deleteSelection.map Prod.snd
  | .clampNumber => some s.clampNumberInput

/-- the number that a call writes in place of the value, if any -/
def written (s : InputState F) : InputOp → Option F
  | .applyKey .arrowUp _ _ => if s.inputType = .number ∨ s.inputType = .range then some s.stepUp else none
  | .applyKey .arrowDown _ _ => if s.inputType = .number ∨ s.inputType = .range then some s.stepDown else none
  | .applyKey .arrowRight _ _ => if s.inputType = .range then some s.stepUp else none
  | .applyKey .arrowLeft _ _ => if s.inputType = .range then some s.stepDown else none
  | .clampNumber =>
    if s.inputType = .number then (Numeric.parse s.value).map (Numeric.clamp · s.min s.max) else none
  | _ => none

/-- a number that replaces the value is at least as long as the anchor, and on a slider as the cursor -/
def Fits (s : InputState F) (op : InputOp) : Prop :=
  ∀ v, s.written op = some v → (∀ a ∈ s.selectionAnchor, a ≤ len (Numeric.formatNumeric v)) ∧
    (s.inputType = .range → s.cursorPos ≤ len (Numeric.formatNumeric v))

omit [Numeric F] in
/-- the cursor and the anchor are character boundaries of the value -/
structure Valid (s : InputState F) : Prop where
  cursor : Boundary s.value s.cursorPos
  anchor : ∀ a ∈ s.selectionAnchor, Boundary s.value a

end
end InputState

/-! ## slices at boundaries -/

section
variable {l : List Char} {a b n : Nat}

/-- two ordered boundaries cut a text in three -/
lemma boundary_between (ha : Boundary l a) (hb : Boundary l b) (hab : a ≤ b) :
    ∃ x o z, l = x ++ o ++ z ∧ len x = a ∧ len (x ++ o) = b := by
  obtain ⟨x, y, hl, rfl⟩ := ha
  obtain ⟨u, v, hl', rfl⟩ := hb
  rcases List.append_eq_append_iff.mp (hl.symm.trans hl') with ⟨w, rfl, -⟩ | ⟨w, rfl, hv⟩
  · exact ⟨x, w, v, hl', rfl, rfl⟩
  · have hw : w = [] := by
      by_contra hne
      have hpos := Editor.len_pos hne
      rw [Editor.len_append] at hab
      omega
    rw [hw, List.append_nil] at hl ⊢
    exact ⟨u, [], y, by rw [List.append_nil, hl], rfl, by rw [List.append_nil]⟩

lemma drain_between (x o z : List Char) : drain (x ++ o ++ z) (len x) (len (x ++ o)) = some (x ++ z) := by
  have hle : len x ≤ len (x ++ o) := by
    rw [Editor.len_append]
    omega
  unfold drain
  rw [if_pos hle, Editor.sliceFrom_len (x ++ o) z, List.append_assoc, Editor.sliceTo_len]
  rfl

lemma boundary_append (x y : List Char) : Boundary (x ++ y) (len x) := ⟨x, y, rfl, rfl⟩

/-- a text between two boundaries taken out -/
lemma exists_drain (ha : Boundary l a) (hb : Boundary l b) (hab : a ≤ b) :
    ∃ m, drain l a b = some m ∧ Boundary m a := by
  obtain ⟨x, o, z, rfl, rfl, rfl⟩ := boundary_between ha hb hab
  exact ⟨x ++ z, drain_between x o z, boundary_append x z⟩

lemma exists_insertStr (hn : Boundary l n) (text : List Char) :
    ∃ m, insertStr l n text = some m ∧ Boundary m (n + len text) := by
  obtain ⟨x, y, rfl, rfl⟩ := hn
  refine ⟨x ++ text ++ y, ?_, ?_⟩
  · unfold insertStr
    rw [Editor.sliceTo_len, Editor.sliceFrom_len]
    rfl
  · rw [← Editor.len_append]
    exact boundary_append (x ++ text) y

lemma exists_prevCharBoundary (hn : Boundary l n) :
    ∃ m, prevCharBoundary l n = some m ∧ Boundary l m ∧ m ≤ n := by
  obtain ⟨x, y, rfl, rfl⟩ := hn
  refine ⟨len x.dropLast, ?_, ?_⟩
  · unfold prevCharBoundary
    rw [Editor.sliceTo_len]
    rfl
  · cases x using List.reverseRecOn with
    | nil => exact ⟨Editor.boundary_zero _, Nat.le_refl 0⟩
    | append_singleton x c =>
      rw [List.dropLast_concat, List.append_assoc, Editor.len_append]
      exact ⟨boundary_append x ([c] ++ y), Nat.le_add_right _ _⟩

lemma exists_nextCharBoundary (hn : Boundary l n) :
    ∃ m, nextCharBoundary l n = some m ∧ Boundary l m ∧ n ≤ m := by
  obtain ⟨x, y, rfl, rfl⟩ := hn
  unfold nextCharBoundary
  rw [Editor.sliceFrom_len]
  refine ⟨_, rfl, ?_⟩
  have hend : Boundary (x ++ y) (len (x ++ y)) ∧ len x ≤ len (x ++ y) :=
    ⟨Editor.boundary_len _, Editor.boundary_le (boundary_append x y)⟩
  cases y with
  | nil => exact hend
  | cons c y =>
    cases y with
    | nil => exact hend
    | cons d y =>
      refine ⟨⟨x ++ [c], d :: y, by rw [List.append_assoc]; rfl, ?_⟩, Nat.le_add_right _ _⟩
      rw [Editor.len_append, Editor.len_cons, Editor.len_nil]
      rfl

/-- in a text of single bytes every offset is a boundary -/
lemma boundary_ascii (h : ∀ c ∈ l, c.utf8Size = 1) : Boundary l n ↔ n ≤ len l := by
  constructor
  · exact Editor.boundary_le
  · intro hn
    induction l generalizing n with
    | nil =>
      rw [Nat.le_zero.mp hn]
      exact Editor.boundary_zero _
    | cons c l ih =>
      cases n with
      | zero => exact Editor.boundary_zero _
      | succ n =>
        have hc := h c List.mem_cons_self
        rw [Editor.len_cons, hc] at hn
        obtain ⟨x, y, rfl, hx⟩ := ih (fun c hc => h c (List.mem_cons_of_mem _ hc)) (by omega : n ≤ len l)
        exact ⟨c :: x, y, rfl, by rw [Editor.len_cons, hc, hx, Nat.add_comm]⟩

end

namespace InputState
section
variable {F : Type} {s : InputState F}

lemma Valid.moveCursor (hs : s.Valid) {target : Nat} (ht : Boundary s.value target) (extend : Bool) :
    (s.moveCursor target extend).Valid := by
  unfold InputState.moveCursor
  cases extend with
  | false => exact ⟨ht, fun a ha => by (cases ha)⟩
  | true =>
    rw [if_pos rfl]
    refine ⟨ht, fun a ha => ?_⟩
    have hanchor : Boundary s.value (s.selectionAnchor.getD s.cursorPos) := by
      cases hsel : s.selectionAnchor with
      | none => exact hs.cursor
      | some a => exact hs.anchor a hsel
    dsimp only at ha
    split_ifs at ha
    · cases ha
    · rw [← Option.some.inj ha]
      exact hanchor

lemma Valid.selectionRange (hs : s.Valid) {start stop : Nat} (h : s.selectionRange = some (start, stop)) :
    Boundary s.value start ∧ Boundary s.value stop ∧ start ≤ stop := by
  obtain ⟨anchor, ha, h⟩ := Option.bind_eq_some_iff.mp h
  split_ifs at h with heq hlt
  · cases h
    exact ⟨hs.anchor _ ha, hs.cursor, Nat.le_of_lt hlt⟩
  · cases h
    exact ⟨hs.cursor, hs.anchor _ ha, Nat.le_of_not_lt hlt⟩

/-- the selection goes, if any, and no anchor is left -/
lemma Valid.deleteSelection (hs : s.Valid) :
    ∃ removed t, s.deleteSelection = some (removed, t) ∧ t.Valid ∧ t.selectionAnchor = none := by
  unfold InputState.deleteSelection
  cases hsel : s.selectionRange with
  | none => exact ⟨_, _, rfl, ⟨hs.cursor, fun a ha => by (cases ha)⟩, rfl⟩
  | some range =>
    obtain ⟨hstart, hstop, hle⟩ := hs.selectionRange hsel
    obtain ⟨value, hvalue, hbound⟩ := exists_drain hstart hstop hle
    dsimp only
    rw [hvalue]
    exact ⟨_, _, rfl, ⟨hbound, fun a ha => by (cases ha)⟩, rfl⟩

lemma Valid.insertText (hs : s.Valid) (text : List Char) : ∃ t, s.insertText text = some t ∧ t.Valid := by
  obtain ⟨removed, t, ht, hvalid, hanchor⟩ := hs.deleteSelection
  obtain ⟨value, hvalue, hbound⟩ := exists_insertStr hvalid.cursor text
  unfold InputState.insertText
  rw [ht]
  dsimp only [Option.bind_eq_bind, Option.bind_some]
  rw [hvalue]
  exact ⟨_, rfl, hbound, fun a ha => by rw [hanchor] at ha; cases ha⟩

variable (table : CharTable)

lemma Valid.prevBoundary (hs : s.Valid) (ctrl : Bool) :
    ∃ n, s.prevBoundary table ctrl = some n ∧ Boundary s.value n ∧ n ≤ s.cursorPos := by
  unfold InputState.prevBoundary
  cases ctrl with
  | false => exact exists_prevCharBoundary hs.cursor
  | true =>
    obtain ⟨x, y, hxy, hx⟩ := hs.cursor
    rw [if_pos rfl, hxy, ← hx]
    exact Editor.prevWordBoundary_eq table x y

lemma Valid.nextBoundary (hs : s.Valid) (ctrl : Bool) :
    ∃ n, s.nextBoundary table ctrl = some n ∧ Boundary s.value n ∧ s.cursorPos ≤ n := by
  unfold InputState.nextBoundary
  cases ctrl with
  | false => exact exists_nextCharBoundary hs.cursor
  | true =>
    obtain ⟨x, y, hxy, hx⟩ := hs.cursor
    rw [if_pos rfl, hxy, ← hx]
    exact Editor.nextWordBoundary_eq table x y

lemma Valid.backspace (hs : s.Valid) (ctrl : Bool) : ∃ t, s.backspace table ctrl = some t ∧ t.Valid := by
  obtain ⟨removed, t, ht, hvalid, hanchor⟩ := hs.deleteSelection
  unfold InputState.backspace
  rw [ht]
  dsimp only [Option.bind_eq_bind, Option.bind_some]
  split_ifs
  · obtain ⟨prev, hprev, hbound, hle⟩ := hvalid.prevBoundary table ctrl
    obtain ⟨value, hvalue, hcursor⟩ := exists_drain hbound hvalid.cursor hle
    rw [hprev, Option.bind_some, hvalue]
    exact ⟨_, rfl, hcursor, fun a ha => by rw [hanchor] at ha; cases ha⟩
  · exact ⟨t, rfl, hvalid⟩

lemma Valid.delete (hs : s.Valid) (ctrl : Bool) : ∃ t, s.delete table ctrl = some t ∧ t.Valid := by
  obtain ⟨removed, t, ht, hvalid, hanchor⟩ := hs.deleteSelection
  unfold InputState.delete
  rw [ht]
  dsimp only [Option.bind_eq_bind, Option.bind_some]
  split_ifs
  · obtain ⟨next, hnext, hbound, hle⟩ := hvalid.nextBoundary table ctrl
    obtain ⟨value, hvalue, hcursor⟩ := exists_drain hvalid.cursor hbound hle
    rw [hnext, Option.bind_some, hvalue]
    exact ⟨_, rfl, hcursor, fun a ha => by rw [hanchor] at ha; cases ha⟩
  · exact ⟨t, rfl, hvalid⟩

lemma Valid.arrowLeft (hs : s.Valid) (shift ctrl : Bool) :
    ∃ t, s.arrowLeft table shift ctrl = some t ∧ t.Valid := by
  unfold InputState.arrowLeft
  by_cases hplain : (!shift && !ctrl) = true
  · rw [if_pos hplain]
    cases hsel : s.selectionRange with
    | some range => exact ⟨_, rfl, (hs.selectionRange hsel).1, fun a ha => by (cases ha)⟩
    | none =>
      dsimp only
      split_ifs
      · obtain ⟨n, hn, hbound, -⟩ := exists_prevCharBoundary hs.cursor
        rw [hn]
        exact ⟨_, rfl, hbound, fun a ha => by (cases ha)⟩
      · exact ⟨s, rfl, hs⟩
  · obtain ⟨n, hn, hbound, -⟩ := hs.prevBoundary table ctrl
    rw [if_neg hplain, hn]
    exact ⟨_, rfl, hs.moveCursor hbound shift⟩

lemma Valid.arrowRight (hs : s.Valid) (shift ctrl : Bool) :
    ∃ t, s.arrowRight table shift ctrl = some t ∧ t.Valid := by
  unfold InputState.arrowRight
  by_cases hplain : (!shift && !ctrl) = true
  · rw [if_pos hplain]
    cases hsel : s.selectionRange with
    | some range => exact ⟨_, rfl, (hs.selectionRange hsel).2.1, fun a ha => by (cases ha)⟩
    | none =>
      dsimp only
      split_ifs
      · obtain ⟨n, hn, hbound, -⟩ := exists_nextCharBoundary hs.cursor
        rw [hn]
        exact ⟨_, rfl, hbound, fun a ha => by (cases ha)⟩
      · exact ⟨s, rfl, hs⟩
  · obtain ⟨n, hn, hbound, -⟩ := hs.nextBoundary table ctrl
    rw [if_neg hplain, hn]
    exact ⟨_, rfl, hs.moveCursor hbound shift⟩

lemma Valid.editKey (hs : s.Valid) (key : Key) (shift ctrl : Bool) :
    ∃ t, s.editKey table key shift ctrl = some t ∧ t.Valid := by
  cases key with
  | backspace => exact hs.backspace table ctrl
  | delete => exact hs.delete table ctrl
  | arrowLeft => exact hs.arrowLeft table shift ctrl
  | arrowRight => exact hs.arrowRight table shift ctrl
  | home => exact ⟨_, rfl, hs.moveCursor (Editor.boundary_zero _) shift⟩
  | «end» => exact ⟨_, rfl, hs.moveCursor (Editor.boundary_len _) shift⟩
  | _ => exact ⟨s, rfl, hs⟩

variable [Numeric F]

omit [Numeric F] in
lemma Valid.withNumber (hs : s.Valid) (numericValue : F) : Valid { s with numericValue } := ⟨hs.cursor, hs.anchor⟩

lemma Valid.typeKey (hs : s.Valid) (key : Key) (shift ctrl : Bool) :
    ∃ r, s.typeKey table key shift ctrl = some r ∧ r.2.Valid := by
  obtain ⟨t, ht, hvalid⟩ := hs.editKey table key shift ctrl
  unfold InputState.typeKey
  rw [ht]
  refine ⟨_, rfl, ?_⟩
  dsimp only
  split_ifs
  · cases Numeric.parse (F := F) t.value with
    | none => exact hvalid
    | some v => exact hvalid.withNumber _
  · exact hvalid

lemma Valid.insertTextFiltered (hs : s.Valid) (text : List Char) :
    ∃ r, s.insertTextFiltered text = some r ∧ r.2.Valid := by
  have hplain : ∃ r, (s.insertText text).map (true, ·) = some r ∧ r.2.Valid := by
    obtain ⟨t, ht, hvalid⟩ := hs.insertText text
    rw [ht]
    exact ⟨_, rfl, hvalid⟩
  unfold InputState.insertTextFiltered
  cases s.inputType with
  | number =>
    dsimp only
    split_ifs
    · exact ⟨_, rfl, hs⟩
    · obtain ⟨t, ht, hvalid⟩ := hs.insertText (text.filter fun c => c.isDigit || c == '-' || c == '.')
      rw [ht]
      refine ⟨_, rfl, ?_⟩
      dsimp only
      cases Numeric.parse (F := F) t.value with
      | none => exact hvalid
      | some v => exact hvalid.withNumber _
  | _ => exact hplain

/-- a number that is written leaves the anchor and the cursor where they are -/
lemma valid_writeNumber (v : F) : (s.writeNumber v).Valid ↔
    s.cursorPos ≤ len (Numeric.formatNumeric v) ∧ ∀ a ∈ s.selectionAnchor, a ≤ len (Numeric.formatNumeric v) := by
  constructor
  · exact fun h => ⟨Editor.boundary_le h.cursor, fun a ha => Editor.boundary_le (h.anchor a ha)⟩
  · intro ⟨hcursor, hanchor⟩
    exact ⟨(boundary_ascii (Numeric.ascii v)).mpr hcursor,
      fun a ha => (boundary_ascii (Numeric.ascii v)).mpr (hanchor a ha)⟩

lemma valid_writeNumberToEnd (v : F) :
    (s.writeNumberToEnd v).Valid ↔ ∀ a ∈ s.selectionAnchor, a ≤ len (Numeric.formatNumeric v) := by
  constructor
  · exact fun h a ha => Editor.boundary_le (h.anchor a ha)
  · intro hanchor
    exact ⟨Editor.boundary_len _, fun a ha => (boundary_ascii (Numeric.ascii v)).mpr (hanchor a ha)⟩

lemma fits_iff {op : InputOp} {v : F} (h : s.written op = some v) :
    s.Fits op ↔ (∀ a ∈ s.selectionAnchor, a ≤ len (Numeric.formatNumeric v)) ∧
      (s.inputType = .range → s.cursorPos ≤ len (Numeric.formatNumeric v)) := by
  constructor
  · exact fun hfits => hfits v h
  · intro hfits w hw
    obtain rfl : v = w := Option.some.inj (h.symm.trans hw)
    exact hfits

lemma valid_number_iff (htype : s.inputType = .number) {op : InputOp} {v : F} (h : s.written op = some v) :
    (s.writeNumberToEnd v).Valid ↔ s.Fits op := by
  rw [valid_writeNumberToEnd, fits_iff h, htype]
  exact (and_iff_left fun hrange => by (cases hrange)).symm

lemma valid_range_iff (htype : s.inputType = .range) {op : InputOp} {v : F} (h : s.written op = some v) :
    (s.writeNumber v).Valid ↔ s.Fits op := by
  rw [valid_writeNumber, fits_iff h, forall_prop_of_true htype]
  exact and_comm

/-- the keys: a number or a slider may write a number, the other inputs never do -/
lemma Valid.applyKey (hs : s.Valid) (key : Key) (shift ctrl : Bool) :
    ∃ r, s.applyKeyWithMods table key shift ctrl = some r ∧ (r.2.Valid ↔ s.Fits (.applyKey key shift ctrl)) := by
  have unwritten {t : InputState F} (ht : t.Valid) (h : s.written (.applyKey key shift ctrl) = none) :
      t.Valid ↔ s.Fits (.applyKey key shift ctrl) :=
    iff_of_true ht fun v hv => by rw [h] at hv; cases hv
  obtain ⟨r, hr, hvalid⟩ := hs.typeKey table key shift ctrl
  unfold applyKeyWithMods
  cases htype : s.inputType with
  | number =>
    cases key with
    | arrowUp => exact ⟨_, rfl, valid_number_iff htype (by simp [written, htype])⟩
    | arrowDown => exact ⟨_, rfl, valid_number_iff htype (by simp [written, htype])⟩
    | _ => exact ⟨r, hr, unwritten hvalid (by simp [written, htype])⟩
  | range =>
    cases key with
    | arrowUp => exact ⟨_, rfl, valid_range_iff htype (by simp [written, htype])⟩
    | arrowDown => exact ⟨_, rfl, valid_range_iff htype (by simp [written, htype])⟩
    | arrowRight => exact ⟨_, rfl, valid_range_iff htype (by simp [written, htype])⟩
    | arrowLeft => exact ⟨_, rfl, valid_range_iff htype (by simp [written, htype])⟩
    | _ => exact ⟨_, rfl, unwritten hs rfl⟩
  | checkbox | radio | hidden =>
    refine ⟨_, rfl, unwritten hs ?_⟩
    cases key <;> simp [written, htype]
  | text | password =>
    refine ⟨r, hr, unwritten hvalid ?_⟩
    cases key <;> simp [written, htype]

/-- every edit of a valid input is possible, and leaves it valid exactly when it fits -/
lemma Valid.next (hs : s.Valid) (op : InputOp) : ∃ t, s.next table op = some t ∧ (t.Valid ↔ s.Fits op) := by
  have unwritten {t : InputState F} (ht : t.Valid) (h : s.written op = none) : t.Valid ↔ s.Fits op :=
    iff_of_true ht fun v hv => by rw [h] at hv; cases hv
  cases op with
  | applyKey key shift ctrl =>
    obtain ⟨r, hr, hiff⟩ := hs.applyKey table key shift ctrl
    exact ⟨r.2, congrArg (Option.map Prod.snd) hr, hiff⟩
  | insertFiltered text =>
    obtain ⟨r, hr, hvalid⟩ := hs.insertTextFiltered text
    exact ⟨r.2, congrArg (Option.map Prod.snd) hr, unwritten hvalid rfl⟩
  | insert text =>
    obtain ⟨t, ht, hvalid⟩ := hs.insertText text
    exact ⟨t, ht, unwritten hvalid rfl⟩
  | selectAll =>
    refine ⟨_, rfl, unwritten ⟨Editor.boundary_len _, fun a ha => ?_⟩ rfl⟩
    rw [← Option.some.inj ha]
    exact Editor.boundary_zero _
  | deleteSelection =>
    obtain ⟨removed, t, ht, hvalid, -⟩ := hs.deleteSelection
    exact ⟨t, congrArg (Option.map Prod.snd) ht, unwritten hvalid rfl⟩
  | clampNumber =>
    refine ⟨_, rfl, ?_⟩
    unfold clampNumberInput
    by_cases htype : s.inputType = .number
    · rw [if_neg (not_not.mpr htype)]
      cases hparse : Numeric.parse (F := F) s.value with
      | none => exact unwritten hs (by simp [written, hparse])
      | some v => exact valid_number_iff htype (by simp [written, htype, hparse])
    · rw [if_pos htype]
      exact unwritten hs (if_neg htype)

end
end InputState

/-- **Main result.**  No edit of a run panics, and the cursor and the anchor stay boundaries of the value, exactly
when every number that replaces the value is as long as the offsets that stay. -/
theorem inputs_valid {F : Type} [Numeric F] (table : CharTable) {s : InputState F} (hs : s.Valid) (ops : List InputOp) :
    ((∃ t, exec (InputState.next table) s ops = some t) ∧ Throughout (InputState.next table) InputState.Valid s ops) ↔
      Along (InputState.next table) InputState.Fits s ops := by
  refine possible_throughout_iff (fun s op hs hfits => ?_) (fun _ hs => hs) (fun s op t hs ht hvalid => ?_) hs
  · obtain ⟨t, ht, hiff⟩ := hs.next table op
    exact ⟨t, ht, hiff.mpr hfits⟩
  · obtain ⟨t', ht', hiff⟩ := hs.next table op
    obtain rfl : t = t' := Option.some.inj (ht.symm.trans ht')
    exact hiff.mp hvalid

/-! ## whole numbers -/

lemma utf8Size_digit {n : Nat} {c : Char} (h : c ∈ Nat.toDigits 10 n) : c.utf8Size = 1 := by
  have hdigit := Nat.isDigit_of_mem_toDigits (by decide) (by decide) h
  rw [Char.isDigit, Bool.and_eq_true, decide_eq_true_iff, decide_eq_true_iff] at hdigit
  exact Char.utf8Size_eq_one_iff.mpr (UInt32.le_trans hdigit.2 (by decide))

/-- whole numbers, written in decimal; a text of digits is read -/
@[reducible] def wholeNumbers : Numeric Int where
  add := (· + ·)
  sub := (· - ·)
  min := min
  max := max
  clamp v lo hi := max lo (min v hi)
  eq a b := a == b
  parse s := if s ≠ [] ∧ s.all Char.isDigit then some (s.foldl (fun n c => 10 * n + (c.toNat - 48)) 0) else none
  formatNumeric
    | .ofNat n => Nat.toDigits 10 n
    | .negSucc n => '-' :: Nat.toDigits 10 (n + 1)
  ascii v c hc := by
    cases v with
    | ofNat n => exact utf8Size_digit hc
    | negSucc n =>
      rcases List.mem_cons.mp hc with rfl | hc
      · decide
      · exact utf8Size_digit hc

/-- the letters and digits of ASCII -/
def asciiTable : CharTable := ⟨Char.isAlphanum⟩

/-- a number input of up to 100 that reads `100`, the cursor at its end -/
def hundred : InputState Int where
  value := ['1', '0', '0']
  cursorPos := 3
  selectionAnchor := none
  inputType := .number
  numericValue := 100
  min := 0
  max := 100
  step := 1

lemma hundred_valid : hundred.Valid := ⟨Editor.boundary_len _, fun a ha => by (cases ha)⟩

/-- everything is selected from the end, and the number goes down by one -/
def steppedDown : List InputOp := [.applyKey .home true false, .applyKey .arrowDown false false]

/-- the anchor is past the end of `99`, and the next key panics -/
theorem steppedDown_panics :
    letI := wholeNumbers
    hundred.Valid ∧
      (∃ t, exec (InputState.next asciiTable) hundred steppedDown = some t ∧ t.value = ['9', '9'] ∧
        t.selectionAnchor = some 3 ∧ ¬ t.Valid) ∧
      exec (InputState.next asciiTable) hundred (steppedDown ++ [.applyKey .backspace false false]) = none := by
  refine ⟨hundred_valid, ⟨_, rfl, rfl, rfl, fun h => ?_⟩, rfl⟩
  exact absurd (Editor.boundary_le (h.anchor 3 rfl)) (by decide)

/-- the number goes up after an insertion -/
def typedUp : List InputOp := [.insert ['5'], .applyKey .arrowUp false false]

theorem inputs_valid_hundred :
    letI := wholeNumbers
    ((∃ t, exec (InputState.next asciiTable) hundred typedUp = some t) ∧
        Throughout (InputState.next asciiTable) InputState.Valid hundred typedUp) ↔
      Along (InputState.next asciiTable) InputState.Fits hundred typedUp :=
  letI := wholeNumbers
  inputs_valid asciiTable hundred_valid _

end TerminalManager.Framework
