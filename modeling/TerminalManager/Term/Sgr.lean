import TerminalManager.Term.Vte

/-!
# Select graphic rendition

`handle_sgr` is the same function in both crates up to the default foreground: it walks over the
codes of `CSI … m` and changes the colours and the attributes of the pen.

* `Pen.sgrCode`, `Pen.sgrCodes`, `Pen.handleSgr`   as in the source, `none` for a palette index out of
  the table;
* `Pen.handleSgr_isSome`    there is no such index;
* `Pen.handleSgr_attrs`     the attributes do not depend on the colours;
* `Pen.sgrIdle`             code lists that leave every pen as it is (`handleSgr_idle`), and only those do
  (`handleSgr_changes`).
-/

namespace TerminalManager.Term

/-- the colours and attributes that the next characters get -/
structure Pen where
  fg : Color
  bg : Color
  attrs : CellAttrs
deriving DecidableEq

namespace Pen

section
variable (parity : Bool) (defaultFg : Color)

def resetAttrs : Pen := ⟨defaultFg, .transparent, 0⟩

/-- a code that stands alone -/
def sgrCode (pen : Pen) (code : Nat) : Option Pen :=
  match code with
  | 0 => some (resetAttrs defaultFg)
  | 1 => some { pen with attrs := pen.attrs ||| .bold }
  | 2 => some { pen with attrs := pen.attrs ||| .dim }
  | 3 => some { pen with attrs := pen.attrs ||| .italic }
  | 4 => some { pen with attrs := pen.attrs ||| .underline }
  | 5 => some { pen with attrs := pen.attrs ||| .blink }
  | 7 => some { pen with attrs := pen.attrs ||| .inverse }
  | 9 => some { pen with attrs := pen.attrs ||| .strikethrough }
  | 22 => some { pen with attrs := pen.attrs &&& ~~~(.bold ||| .dim) }
  | 23 => some { pen with attrs := pen.attrs &&& ~~~.italic }
  | 24 => some { pen with attrs := pen.attrs &&& ~~~.underline }
  | 25 => some { pen with attrs := pen.attrs &&& ~~~.blink }
  | 27 => some { pen with attrs := pen.attrs &&& ~~~.inverse }
  | 29 => some { pen with attrs := pen.attrs &&& ~~~.strikethrough }
  | 39 => some { pen with fg := defaultFg }
  | 49 => some { pen with bg := .transparent }
  | _ =>
    if 30 ≤ code ∧ code ≤ 37 then (ansi16FgColor parity (code - 30)).map fun fg => { pen with fg }
    else if 40 ≤ code ∧ code ≤ 47 then (ansi16Color parity (code - 40)).map fun bg => { pen with bg }
    else if 90 ≤ code ∧ code ≤ 97 then (ansi16FgColor parity (code - 90 + 8)).map fun fg => { pen with fg }
    else if 100 ≤ code ∧ code ≤ 107 then (ansi16Color parity (code - 100 + 8)).map fun bg => { pen with bg }
    else some pen

/-- the loop over the codes: 38 and 48 take those of a colour with them, `5;n` or `2;r;g;b` -/
def sgrCodes (pen : Pen) : List Nat → Option Pen
  | [] => some pen
  | 38 :: 5 :: n :: rest =>
    (fgColor256 parity (UInt8.ofNat n)).bind fun fg => sgrCodes { pen with fg } rest
  | 38 :: 2 :: r :: g :: b :: rest =>
    sgrCodes { pen with fg := .rgb (UInt8.ofNat r) (UInt8.ofNat g) (UInt8.ofNat b) } rest
  | 38 :: _ :: rest => sgrCodes pen rest
  | [38] => some pen
  | 48 :: 5 :: n :: rest =>
    (bgColor256 parity (UInt8.ofNat n)).bind fun bg => sgrCodes { pen with bg } rest
  | 48 :: 2 :: r :: g :: b :: rest =>
    sgrCodes { pen with bg := .rgb (UInt8.ofNat r) (UInt8.ofNat g) (UInt8.ofNat b) } rest
  | 48 :: _ :: rest => sgrCodes pen rest
  | [48] => some pen
  | code :: rest => (sgrCode parity defaultFg pen code).bind fun pen => sgrCodes pen rest

def handleSgr (pen : Pen) (pv : List Nat) : Option Pen :=
  if pv = [] then some (resetAttrs defaultFg) else sgrCodes parity defaultFg pen pv

end

/-! ## two pens with the same attributes -/

/-- `o` and `o'` are pens with the same attributes -/
def SameAttrs (o o' : Option Pen) : Prop := ∃ pen pen', o = some pen ∧ o' = some pen' ∧ pen.attrs = pen'.attrs

variable {parity : Bool} {defaultFg defaultFg' : Color} {pen pen' : Pen}

lemma SameAttrs.of_some (h : pen.attrs = pen'.attrs) : SameAttrs (some pen) (some pen') := ⟨_, _, rfl, rfl, h⟩

lemma SameAttrs.map {o : Option Color} (ho : ∃ c, o = some c) {f f' : Color → Pen}
    (h : ∀ c, (f c).attrs = (f' c).attrs) : SameAttrs (o.map f) (o.map f') := by
  obtain ⟨c, rfl⟩ := ho
  exact .of_some (h c)

lemma SameAttrs.bind {o o' : Option Pen} (ho : SameAttrs o o') {f f' : Pen → Option Pen}
    (h : ∀ pen pen' : Pen, pen.attrs = pen'.attrs → SameAttrs (f pen) (f' pen')) :
    SameAttrs (o.bind f) (o'.bind f') := by
  obtain ⟨pen, pen', rfl, rfl, ha⟩ := ho
  exact h pen pen' ha

lemma sgrCode_attrs (h : pen.attrs = pen'.attrs) (code : Nat) :
    SameAttrs (sgrCode parity defaultFg pen code) (sgrCode parity defaultFg' pen' code) := by
  unfold sgrCode
  split
  case h_17 =>
    split
    · exact .map (ansi16FgColor_isSome parity (by omega)) fun _ => h
    split
    · exact .map (ansi16Color_isSome parity (by omega)) fun _ => h
    split
    · exact .map (ansi16FgColor_isSome parity (by omega)) fun _ => h
    split
    · exact .map (ansi16Color_isSome parity (by omega)) fun _ => h
    · exact .of_some h
  all_goals exact .of_some (by simp [h, resetAttrs])

lemma sgrCodes_attrs (h : pen.attrs = pen'.attrs) (pv : List Nat) :
    SameAttrs (sgrCodes parity defaultFg pen pv) (sgrCodes parity defaultFg' pen' pv) := by
  induction pen, pv using sgrCodes.induct generalizing pen' with
  | case1 => exact .of_some h
  | case2 pen n rest ih =>
    obtain ⟨fg, hfg⟩ := fgColor256_isSome parity (UInt8.ofNat n)
    rw [sgrCodes, sgrCodes, hfg]
    exact ih fg h
  | case3 pen r g b rest ih =>
    rw [sgrCodes, sgrCodes]
    exact ih h
  | case4 pen code rest h₅ h₂ ih =>
    rw [sgrCodes, sgrCodes]
    · exact ih h
    all_goals assumption
  | case5 pen => exact .of_some h
  | case6 pen n rest ih =>
    obtain ⟨bg, hbg⟩ := bgColor256_isSome parity (UInt8.ofNat n)
    rw [sgrCodes, sgrCodes, hbg]
    exact ih bg h
  | case7 pen r g b rest ih =>
    rw [sgrCodes, sgrCodes]
    exact ih h
  | case8 pen code rest h₅ h₂ ih =>
    rw [sgrCodes, sgrCodes]
    · exact ih h
    all_goals assumption
  | case9 pen => exact .of_some h
  | case10 pen code rest h₁ h₂ h₃ h₄ h₅ h₆ h₇ h₈ ih =>
    rw [sgrCodes, sgrCodes]
    · exact (sgrCode_attrs h code).bind fun pen pen' h => ih pen h
    all_goals assumption

/-- no palette index is out of the table, and the attributes do not depend on the colours -/
theorem handleSgr_attrs (h : pen.attrs = pen'.attrs) (pv : List Nat) :
    SameAttrs (handleSgr parity defaultFg pen pv) (handleSgr parity defaultFg' pen' pv) := by
  unfold handleSgr
  split
  · exact .of_some rfl
  · exact sgrCodes_attrs h pv

theorem handleSgr_isSome (parity : Bool) (defaultFg : Color) (pen : Pen) (pv : List Nat) :
    ∃ pen', handleSgr parity defaultFg pen pv = some pen' := by
  obtain ⟨pen', -, h, -, -⟩ := @handleSgr_attrs parity defaultFg defaultFg pen pen rfl pv
  exact ⟨pen', h⟩

/-! ## code lists that do nothing -/

/-- a code that stands for nothing -/
def sgrIdleCode (code : Nat) : Bool :=
  code ∉ [0, 1, 2, 3, 4, 5, 7, 9, 22, 23, 24, 25, 27, 29, 39, 49] && !(30 ≤ code && code ≤ 37) &&
    !(40 ≤ code && code ≤ 47) && !(90 ≤ code && code ≤ 97) && !(100 ≤ code && code ≤ 107)

/-- only such codes, and 38 and 48 without a colour -/
def sgrIdleCodes : List Nat → Bool
  | [] => true
  | 38 :: 5 :: _ :: _ => false
  | 38 :: 2 :: _ :: _ :: _ :: _ => false
  | 38 :: _ :: rest => sgrIdleCodes rest
  | [38] => true
  | 48 :: 5 :: _ :: _ => false
  | 48 :: 2 :: _ :: _ :: _ :: _ => false
  | 48 :: _ :: rest => sgrIdleCodes rest
  | [48] => true
  | code :: rest => sgrIdleCode code && sgrIdleCodes rest

/-- no code at all is a reset -/
def sgrIdle (pv : List Nat) : Bool := pv ≠ [] && sgrIdleCodes pv

variable (parity defaultFg) in
/-- some sequence gives this pen, whatever it was before -/
def Reached (pen : Pen) : Prop := ∃ params, ∀ before, handleSgr parity defaultFg before (firsts params) = some pen

/-- the pen in which the codes are tried: black on black, nothing else -/
def dark : Pen := ⟨.rgb 0 0 0, .rgb 0 0 0, 0⟩

/-- the parameters that give it, and more codes after them -/
def darkAnd (codes : List UInt16) : List Param :=
  ([0, 38, 2, 0, 0, 0, 48, 2, 0, 0, 0] ++ codes).map fun code => ⟨code, []⟩

lemma reached_dark : Reached parity defaultFg dark := ⟨darkAnd [], fun _ => rfl⟩

variable (parity defaultFg) in
/-- `f` makes the same of two different pens -/
def Merges (f : Pen → Option Pen) : Prop := ∃ pen, Reached parity defaultFg pen ∧ dark ≠ pen ∧ f dark = f pen

lemma Merges.of_fg {f : Pen → Option Pen} (h : f dark = f ⟨.rgb 1 1 1, .rgb 0 0 0, 0⟩) :
    Merges parity defaultFg f :=
  ⟨⟨.rgb 1 1 1, .rgb 0 0 0, 0⟩, ⟨darkAnd [38, 2, 1, 1, 1], fun _ => rfl⟩, by decide, h⟩

lemma Merges.of_bg {f : Pen → Option Pen} (h : f dark = f ⟨.rgb 0 0 0, .rgb 1 1 1, 0⟩) :
    Merges parity defaultFg f :=
  ⟨⟨.rgb 0 0 0, .rgb 1 1 1, 0⟩, ⟨darkAnd [48, 2, 1, 1, 1], fun _ => rfl⟩, by decide, h⟩

lemma Merges.congr {f f' : Pen → Option Pen} (hf : Merges parity defaultFg f) (h : ∀ pen, f' pen = f pen) :
    Merges parity defaultFg f' := by
  obtain ⟨pen, hpen, hne, heq⟩ := hf
  exact ⟨pen, hpen, hne, by rw [h, h, heq]⟩

/-- such an `f` changes one of the two -/
lemma Merges.changes {f : Pen → Option Pen} (h : Merges parity defaultFg f) :
    ∃ pen, Reached parity defaultFg pen ∧ f pen ≠ some pen := by
  obtain ⟨pen, hpen, hne, heq⟩ := h
  by_cases hdark : f dark = some dark
  · refine ⟨pen, hpen, ?_⟩
    intro hsame
    exact hne (Option.some.inj (hdark.symm.trans (heq.trans hsame)))
  · exact ⟨dark, reached_dark, hdark⟩

lemma sgrCode_idle {code : Nat} (h : sgrIdleCode code = true) (pen : Pen) :
    sgrCode parity defaultFg pen code = some pen := by
  unfold sgrCode
  split
  case h_17 =>
    simp [sgrIdleCode] at h
    rw [if_neg (by omega), if_neg (by omega), if_neg (by omega), if_neg (by omega)]
  all_goals exact absurd h (by decide)

/-- an attribute switched on or off; `on` is the code that switches it on -/
lemma attr_merges {code : Nat} (on : UInt16) (flag : CellAttrs) (hon : ∀ before, handleSgr parity defaultFg before
    (firsts (darkAnd [on])) = some ⟨.rgb 0 0 0, .rgb 0 0 0, 0 ||| flag⟩)
    (hflag : flag ≠ 0)
    (h : sgrCode parity defaultFg dark code = sgrCode parity defaultFg ⟨.rgb 0 0 0, .rgb 0 0 0, flag⟩ code) :
    Merges parity defaultFg (sgrCode parity defaultFg · code) := by
  refine ⟨_, ⟨_, hon⟩, ?_, ?_⟩
  · intro heq
    have hzero := (Pen.mk.inj heq).2.2
    rw [UInt8.zero_or] at hzero
    exact hflag hzero.symm
  · rw [UInt8.zero_or]
    exact h

lemma sgrCode_merges_listed {code : Nat} (h : code ∈ [0, 1, 2, 3, 4, 5, 7, 9, 22, 23, 24, 25, 27, 29, 39, 49]) :
    Merges parity defaultFg (sgrCode parity defaultFg · code) := by
  simp only [List.mem_cons, List.not_mem_nil, or_false] at h
  rcases h with rfl | rfl | rfl | rfl | rfl | rfl | rfl | rfl | rfl | rfl | rfl | rfl | rfl | rfl | rfl | rfl
  · exact attr_merges 1 .bold (fun _ => rfl) (by decide) (by simp only [sgrCode])
  · exact attr_merges 1 .bold (fun _ => rfl) (by decide) (by simp only [sgrCode]; decide)
  · exact attr_merges 2 .dim (fun _ => rfl) (by decide) (by simp only [sgrCode]; decide)
  · exact attr_merges 3 .italic (fun _ => rfl) (by decide) (by simp only [sgrCode]; decide)
  · exact attr_merges 4 .underline (fun _ => rfl) (by decide) (by simp only [sgrCode]; decide)
  · exact attr_merges 5 .blink (fun _ => rfl) (by decide) (by simp only [sgrCode]; decide)
  · exact attr_merges 7 .inverse (fun _ => rfl) (by decide) (by simp only [sgrCode]; decide)
  · exact attr_merges 9 .strikethrough (fun _ => rfl) (by decide) (by simp only [sgrCode]; decide)
  · exact attr_merges 1 .bold (fun _ => rfl) (by decide) (by simp only [sgrCode]; decide)
  · exact attr_merges 3 .italic (fun _ => rfl) (by decide) (by simp only [sgrCode]; decide)
  · exact attr_merges 4 .underline (fun _ => rfl) (by decide) (by simp only [sgrCode]; decide)
  · exact attr_merges 5 .blink (fun _ => rfl) (by decide) (by simp only [sgrCode]; decide)
  · exact attr_merges 7 .inverse (fun _ => rfl) (by decide) (by simp only [sgrCode]; decide)
  · exact attr_merges 9 .strikethrough (fun _ => rfl) (by decide) (by simp only [sgrCode]; decide)
  · exact .of_fg (by simp only [sgrCode, dark])
  · exact .of_bg (by simp only [sgrCode, dark])

/-- a code that is not listed is one of the four ranges of colours or nothing -/
lemma sgrCode_range {code : Nat} (h : code ∉ [0, 1, 2, 3, 4, 5, 7, 9, 22, 23, 24, 25, 27, 29, 39, 49]) (pen : Pen) :
    sgrCode parity defaultFg pen code =
      if 30 ≤ code ∧ code ≤ 37 then (ansi16FgColor parity (code - 30)).map fun fg => { pen with fg }
      else if 40 ≤ code ∧ code ≤ 47 then (ansi16Color parity (code - 40)).map fun bg => { pen with bg }
      else if 90 ≤ code ∧ code ≤ 97 then (ansi16FgColor parity (code - 90 + 8)).map fun fg => { pen with fg }
      else if 100 ≤ code ∧ code ≤ 107 then (ansi16Color parity (code - 100 + 8)).map fun bg => { pen with bg }
      else some pen := by
  unfold sgrCode
  split
  case h_17 => rfl
  all_goals exact absurd h (by decide)

/-- a code that stands for something overwrites a part of the pen -/
lemma sgrCode_merges {code : Nat} (h : sgrIdleCode code = false) :
    Merges parity defaultFg (sgrCode parity defaultFg · code) := by
  by_cases hmem : code ∈ [0, 1, 2, 3, 4, 5, 7, 9, 22, 23, 24, 25, 27, 29, 39, 49]
  · exact sgrCode_merges_listed hmem
  have hranges : (30 ≤ code ∧ code ≤ 37 ∨ 90 ≤ code ∧ code ≤ 97) ∨ (40 ≤ code ∧ code ≤ 47 ∨ 100 ≤ code ∧ code ≤ 107) := by
    by_contra hn
    simp only [sgrIdleCode, hmem, not_false_eq_true, decide_true, Bool.true_and, Bool.and_eq_false_iff,
      Bool.not_eq_false', Bool.and_eq_true, decide_eq_true_eq] at h
    omega
  rcases hranges with hfg | hbg
  · apply Merges.of_fg
    rw [sgrCode_range hmem, sgrCode_range hmem]
    split_ifs
    all_goals first | rfl | omega
  · apply Merges.of_bg
    rw [sgrCode_range hmem, sgrCode_range hmem]
    split_ifs
    all_goals first | rfl | omega

/-- other code lists overwrite a part of the pen -/
lemma sgrCodes_merges (pv : List Nat) :
    sgrIdleCodes pv = false → Merges parity defaultFg (sgrCodes parity defaultFg · pv) := by
  induction pv using sgrIdleCodes.induct with
  | case1 => exact fun h => absurd h (by decide)
  | case2 n rest => exact fun _ => .of_fg (by simp only [sgrCodes, dark])
  | case3 r g b rest => exact fun _ => .of_fg (by simp only [sgrCodes, dark])
  | case4 code rest h₅ h₂ ih =>
    intro h
    rw [sgrIdleCodes] at h
    · apply (ih h).congr
      intro pen
      rw [sgrCodes]
      all_goals assumption
    all_goals assumption
  | case5 => exact fun h => absurd h (by decide)
  | case6 n rest => exact fun _ => .of_bg (by simp only [sgrCodes, dark])
  | case7 r g b rest => exact fun _ => .of_bg (by simp only [sgrCodes, dark])
  | case8 code rest h₅ h₂ ih =>
    intro h
    rw [sgrIdleCodes] at h
    · apply (ih h).congr
      intro pen
      rw [sgrCodes]
      all_goals assumption
    all_goals assumption
  | case9 => exact fun h => absurd h (by decide)
  | case10 code rest h₁ h₂ h₃ h₄ h₅ h₆ h₇ h₈ ih =>
    intro h
    have hstep : ∀ pen : Pen, sgrCodes parity defaultFg pen (code :: rest)
        = (sgrCode parity defaultFg pen code).bind fun pen => sgrCodes parity defaultFg pen rest := by
      intro pen
      rw [sgrCodes]
      all_goals assumption
    rw [sgrIdleCodes] at h
    · cases hcode : sgrIdleCode code with
      | false =>
        obtain ⟨pen, hpen, hne, heq⟩ := @sgrCode_merges parity defaultFg _ hcode
        refine ⟨pen, hpen, hne, ?_⟩
        show sgrCodes _ _ dark (code :: rest) = sgrCodes _ _ pen (code :: rest)
        rw [hstep, hstep]
        exact congrArg (Option.bind · fun pen => sgrCodes parity defaultFg pen rest) heq
      | true =>
        rw [hcode, Bool.true_and] at h
        apply (ih h).congr
        intro pen
        rw [hstep, sgrCode_idle hcode, Option.bind_some]
    all_goals assumption

lemma sgrCodes_idle (pen : Pen) (pv : List Nat) : sgrIdleCodes pv = true → sgrCodes parity defaultFg pen pv = some pen := by
  induction pv using sgrIdleCodes.induct with
  | case1 => exact fun _ => rfl
  | case2 n rest => exact fun h => absurd h (by simp only [sgrIdleCodes]; decide)
  | case3 r g b rest => exact fun h => absurd h (by simp only [sgrIdleCodes]; decide)
  | case4 code rest h₅ h₂ ih =>
    intro h
    rw [sgrIdleCodes] at h
    · rw [sgrCodes]
      · exact ih h
      all_goals assumption
    all_goals assumption
  | case5 => exact fun _ => rfl
  | case6 n rest => exact fun h => absurd h (by simp only [sgrIdleCodes]; decide)
  | case7 r g b rest => exact fun h => absurd h (by simp only [sgrIdleCodes]; decide)
  | case8 code rest h₅ h₂ ih =>
    intro h
    rw [sgrIdleCodes] at h
    · rw [sgrCodes]
      · exact ih h
      all_goals assumption
    all_goals assumption
  | case9 => exact fun _ => rfl
  | case10 code rest h₁ h₂ h₃ h₄ h₅ h₆ h₇ h₈ ih =>
    intro h
    rw [sgrIdleCodes] at h
    · obtain ⟨hcode, hrest⟩ := Bool.and_eq_true_iff.mp h
      rw [sgrCodes, sgrCode_idle hcode]
      · exact ih hrest
      all_goals assumption
    all_goals assumption

/-- an idle code list leaves every pen as it is -/
theorem handleSgr_idle {pv : List Nat} (h : sgrIdle pv = true) (pen : Pen) :
    handleSgr parity defaultFg pen pv = some pen := by
  obtain ⟨hne, hcodes⟩ := Bool.and_eq_true_iff.mp h
  rw [handleSgr, if_neg (by simpa using hne)]
  exact sgrCodes_idle pen pv hcodes

/-- any other one changes a pen that some codes give -/
theorem handleSgr_changes {pv : List Nat} (h : sgrIdle pv = false) :
    ∃ pen, Reached parity defaultFg pen ∧ handleSgr parity defaultFg pen pv ≠ some pen := by
  by_cases hnil : pv = []
  · subst hnil
    refine ⟨_, reached_dark, ?_⟩
    intro heq
    exact absurd (Pen.mk.inj (Option.some.inj heq)).2.1 (by decide)
  · have hcodes : sgrIdleCodes pv = false := by simpa [sgrIdle, hnil] using h
    obtain ⟨pen, hpen, hne⟩ := (@sgrCodes_merges parity defaultFg pv hcodes).changes
    exact ⟨pen, hpen, by rwa [handleSgr, if_neg hnil]⟩

end Pen
end TerminalManager.Term
