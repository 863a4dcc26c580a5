import TerminalManager.Lib.Transition
import TerminalManager.Ui.Damage

/-!
# The upload of the cells

The renderer with one fragment pass keeps the cells of the grid in a buffer.  A frame writes every row when the size
or the generation of the atlas changed, and the damaged rows otherwise; then the damage is cleared.

* `encodeCell`, `encodeRow`, `prepareFrame`   as in the source;
* `upload`                      the row writes of a frame, in the buffer, which is a new one when the size changed;
* `Session`, `FrameEvent`, `step`   the grid edited, and its frames;
* `Stable`                      the glyphs stay the same while the generation does;
* `Covered`                     the rows that a frame leaves out are where they were, and so is the cursor in them;
* `Inv`                         the buffer is what the last frame showed, and the clean rows are those of its grid;
* `buffer_fresh`                the buffer shows the grid after every frame of a run whose frames are all covered.

The table of the glyphs is a function here, with the identifier of each character.
-/

namespace TerminalManager.Ui
open Slice Term Transition

structure GpuCell where
  glyphId : UInt32
  fgRgba : UInt32
  bgRgba : UInt32
  flags : UInt32
deriving DecidableEq, Repr

namespace GpuCell

/-- `size_of::<GpuCell>()` -/
def SIZE : Nat := 16

def zeroed : GpuCell := ⟨0, 0, 0, 0⟩

end GpuCell

def EMPTY_GLYPH_ID : UInt32 := 4294967295
def FLAG_WIDE_CONTINUATION : UInt32 := (1 : UInt32) <<< 7
def FLAG_CURSOR : UInt32 := (1 : UInt32) <<< 8

/-- the channels from the lowest byte on -/
def packColorRgba (c : Color) : UInt32 :=
  c.r.toUInt32 ||| c.g.toUInt32 <<< 8 ||| c.b.toUInt32 <<< 16 ||| c.a.toUInt32 <<< 24

def packFlags (cell : Cell) (isCursor : Bool) : UInt32 :=
  let flags := UInt8.toUInt32 cell.attrs
  let flags := if cell.wideContinuation then flags ||| FLAG_WIDE_CONTINUATION else flags
  if isCursor then flags ||| FLAG_CURSOR else flags

def encodeCell (cell : Cell) (glyphId : Option UInt32) (isCursor : Bool) : GpuCell where
  glyphId := glyphId.getD EMPTY_GLYPH_ID
  fgRgba := packColorRgba cell.fg
  bgRgba := packColorRgba cell.bg
  flags := packFlags cell isCursor

def Cell.isEmpty (cell : Cell) : Bool := cell.ch = '\x00' || cell.ch = ' '

abbrev Glyphs := Char → Option UInt32

/-- the cell at a position -/
def encodeAt (cursorPos : Option (Nat × Nat)) (glyphIds : Glyphs) (row col : Nat) (cell : Cell) : GpuCell :=
  let isCursor := cursorPos == some (row, col)
  let id := if cell.isEmpty then none else glyphIds cell.ch
  encodeCell cell id isCursor

def encodeRow (grid : CellGrid) (row : Nat) (cursorPos : Option (Nat × Nat)) (glyphIds : Glyphs) : List GpuCell :=
  if row ≥ grid.rows then []
  else (List.range grid.cols).map fun col =>
    encodeAt cursorPos glyphIds row col (grid.cells.getD (row * grid.cols + col) .empty)

structure RowWriteRange where
  row : Nat
  byteOffset : Nat
  byteLen : Nat
deriving DecidableEq, Repr

/-- the range of a whole row -/
def RowWriteRange.ofRow (cols row : Nat) : RowWriteRange :=
  let stride := cols * GpuCell.SIZE
  ⟨row, row * stride, stride⟩

def damagedRowWriteRanges (grid : DamagedGrid) : List RowWriteRange :=
  grid.lineDamage.zipIdx.filterMap fun (damage, row) =>
    if damage.isClean then none else some (.ofRow grid.cols row)

/-- the last frame's generation and size, zero before the first one -/
structure GridFragmentState where
  lastAtlasGeneration : UInt64 := 0
  lastRows : Nat := 0
  lastCols : Nat := 0

structure FrameUploadPlan where
  rows : List (RowWriteRange × List GpuCell)
  resized : Bool
  atlasGenerationBumped : Bool

def GridFragmentState.prepareFrame (state : GridFragmentState) (grid : DamagedGrid) (cursor : Option (Nat × Nat))
    (atlasGeneration : UInt64) (glyphIds : Glyphs) : GridFragmentState × FrameUploadPlan :=
  let resized := grid.rows ≠ state.lastRows ∨ grid.cols ≠ state.lastCols
  let atlasBumped := atlasGeneration ≠ state.lastAtlasGeneration
  let ranges := if resized ∨ atlasBumped then (List.range grid.rows).map (.ofRow grid.cols) else damagedRowWriteRanges grid
  let rows := ranges.map fun range => (range, encodeRow grid.toCellGrid range.row cursor glyphIds)
  (⟨atlasGeneration, grid.rows, grid.cols⟩, ⟨rows, decide resized, decide atlasBumped⟩)

/-- the writes of a plan, in a new buffer of `size` cells when the grid was resized -/
def upload (buffer : List GpuCell) (plan : FrameUploadPlan) (size : Nat) : List GpuCell :=
  plan.rows.foldl (fun buffer write => overwrite buffer (write.1.byteOffset / GpuCell.SIZE) write.2)
    (if plan.resized then List.replicate size .zeroed else buffer)

/-! ## frames and edits -/

/-- what a frame is prepared with -/
structure FrameInput where
  cursor : Option (Nat × Nat)
  atlasGeneration : UInt64
  glyphIds : Glyphs

/-- what a frame showed -/
structure Shown where
  grid : CellGrid
  cursor : Option (Nat × Nat)
  glyphIds : Glyphs

/-- the grid, the renderer's state and its buffer; beside them what the last frame showed, and where the rows are from -/
structure Session where
  grid : DamagedGrid
  fragment : GridFragmentState
  buffer : List GpuCell
  shown : Option Shown
  origins : List (Option Nat)

inductive FrameEvent
  | edit (op : GridOp)
  | frame (input : FrameInput)

namespace Session

/-- a new grid, before the first frame -/
def start (rows cols : Nat) : Session := ⟨.new rows cols, {}, [], none, List.replicate rows none⟩

/-- the plan is carried out and the damage cleared -/
def frame (s : Session) (input : FrameInput) : Session :=
  let (fragment, plan) := s.fragment.prepareFrame s.grid input.cursor input.atlasGeneration input.glyphIds
  { grid := s.grid.clearDirty
    fragment
    buffer := upload s.buffer plan (s.grid.rows * s.grid.cols)
    shown := some ⟨s.grid.toCellGrid, input.cursor, input.glyphIds⟩
    origins := (List.range s.grid.rows).map some }

def step (s : Session) : FrameEvent → Option Session
  | .edit op => some { s with grid := s.grid.apply op, origins := s.grid.moveOrigins s.origins op }
  | .frame input => some (s.frame input)

/-- the glyphs are those of the last frame when the generation is -/
def Stable (s : Session) : FrameEvent → Prop
  | .edit _ => True
  | .frame input => ∀ f, s.shown = some f → input.atlasGeneration = s.fragment.lastAtlasGeneration → input.glyphIds = f.glyphIds

/-- the frame writes every row -/
def Rewrites (s : Session) (input : FrameInput) : Prop :=
  (s.grid.rows ≠ s.fragment.lastRows ∨ s.grid.cols ≠ s.fragment.lastCols) ∨
    input.atlasGeneration ≠ s.fragment.lastAtlasGeneration

/-- the row of the last frame that row `i` was showed what row `i` showed, and the cursor is in the same column of the
row, if it is there at all -/
def InPlace (s : Session) (f : Shown) (cursor : Option (Nat × Nat)) (i : Nat) : Prop :=
  (∃ j ∈ s.origins[i]?.join, ∀ c < s.grid.cols, f.grid.view j c = f.grid.view i c) ∧
    ∀ c < s.grid.cols, cursor = some (i, c) ↔ f.cursor = some (i, c)

/-- the rows that a frame leaves out are in place -/
def Covered (s : Session) : FrameEvent → Prop
  | .edit _ => True
  | .frame input => s.Rewrites input ∨
      ∀ f ∈ s.shown, ∀ i < s.grid.rows, ∀ d ∈ s.grid.lineDamage[i]?, d.isClean = true → s.InPlace f input.cursor i

/-- the rows of the grid, encoded -/
def encodeGrid (grid : CellGrid) (cursor : Option (Nat × Nat)) (glyphIds : Glyphs) : List GpuCell :=
  (List.range grid.rows).flatMap fun row => encodeRow grid row cursor glyphIds

/-- after a frame the buffer is the grid, encoded -/
def FreshAfter (t : Session) : FrameEvent → Prop
  | .edit _ => True
  | .frame input => t.buffer = encodeGrid t.grid.toCellGrid input.cursor input.glyphIds

end Session

/-! ## one frame -/

section
variable {g : CellGrid} {cursor : Option (Nat × Nat)} {glyphIds : Glyphs} {row : Nat}

/-- the picture of the encoded cells -/
def encoded (g : CellGrid) (cursor : Option (Nat × Nat)) (glyphIds : Glyphs) : Picture GpuCell := fun i j =>
  (g.view i j).map (encodeAt cursor glyphIds i j)

lemma length_encodeRow (hrow : row < g.rows) : (encodeRow g row cursor glyphIds).length = g.cols := by
  rw [encodeRow, if_neg (by omega), List.length_map, List.length_range]

lemma getElem?_encodeRow (h : g.WellFormed) (row col : Nat) :
    (encodeRow g row cursor glyphIds)[col]? = encoded g cursor glyphIds row col := by
  unfold encodeRow encoded
  by_cases hin : row < g.rows ∧ col < g.cols
  · obtain ⟨cell, hcell⟩ := h.shape.some hin.1 hin.2
    have hget : g.cells[row * g.cols + col]? = some cell := by
      rwa [CellGrid.view_eq, Picture.ofCells, if_pos hin] at hcell
    rw [if_neg (by omega), List.getElem?_map, List.getElem?_range hin.2, hcell, Option.map_some, Option.map_some,
      List.getD_eq_getElem?_getD, hget, Option.getD_some]
  · rw [h.shape.none hin]
    split
    · rfl
    · rw [List.getElem?_map, List.getElem?_eq_none (by rw [List.length_range]; omega)]
      rfl

end

lemma byteOffset_ofRow (cols row : Nat) : (RowWriteRange.ofRow cols row).byteOffset / GpuCell.SIZE = row * cols := by
  show row * (cols * 16) / 16 = row * cols
  rw [← Nat.mul_assoc, Nat.mul_div_cancel _ (by decide)]

/-- the rows that are damaged -/
def DamagedGrid.damagedRows (grid : DamagedGrid) : List Nat :=
  grid.lineDamage.zipIdx.filterMap fun (damage, row) => if damage.isClean then none else some row

lemma damagedRowWriteRanges_eq (grid : DamagedGrid) :
    damagedRowWriteRanges grid = grid.damagedRows.map (.ofRow grid.cols) := by
  rw [damagedRowWriteRanges, DamagedGrid.damagedRows, List.map_filterMap]
  congr 1
  funext ⟨damage, row⟩
  by_cases hclean : damage.isClean <;> simp [hclean]

lemma DamagedGrid.mem_damagedRows {grid : DamagedGrid} {row : Nat} :
    row ∈ grid.damagedRows ↔ ∃ d, grid.lineDamage[row]? = some d ∧ d.isClean = false := by
  simp only [damagedRows, List.mem_filterMap, Prod.exists, List.mem_zipIdx_iff_getElem?]
  constructor
  · rintro ⟨d, r, hd, heq⟩
    cases hclean : d.isClean with
    | true => simp [hclean] at heq
    | false =>
      simp only [hclean, Bool.false_eq_true, if_false, Option.some.injEq] at heq
      subst heq
      exact ⟨d, hd, hclean⟩
  · rintro ⟨d, hd, hclean⟩
    exact ⟨d, row, hd, by simp [hclean]⟩

namespace Session
variable {s t : Session} {input : FrameInput}

instance (s : Session) (input : FrameInput) : Decidable (s.Rewrites input) := inferInstanceAs (Decidable (_ ∨ _))

instance (s : Session) (f : Shown) (cursor : Option (Nat × Nat)) (i : Nat) : Decidable (s.InPlace f cursor i) :=
  inferInstanceAs (Decidable (_ ∧ _))

instance (s : Session) : (e : FrameEvent) → Decidable (s.Covered e)
  | .edit _ => instDecidableTrue
  | .frame _ => inferInstanceAs (Decidable (_ ∨ _))

/-- the rows that a frame writes -/
def writtenRows (s : Session) (input : FrameInput) : List Nat :=
  if s.Rewrites input then List.range s.grid.rows else s.grid.damagedRows

/-- the buffer that a frame writes in -/
def frameBuffer (s : Session) : List GpuCell :=
  if s.grid.rows ≠ s.fragment.lastRows ∨ s.grid.cols ≠ s.fragment.lastCols then
    List.replicate (s.grid.rows * s.grid.cols) .zeroed
  else s.buffer

lemma frame_buffer (s : Session) (input : FrameInput) : (s.frame input).buffer =
    (s.writtenRows input).foldl (fun buffer row => overwrite buffer (row * s.grid.cols)
      (encodeRow s.grid.toCellGrid row input.cursor input.glyphIds)) s.frameBuffer := by
  have hranges : (if s.Rewrites input then (List.range s.grid.rows).map (.ofRow s.grid.cols) else damagedRowWriteRanges s.grid) =
      (s.writtenRows input).map (.ofRow s.grid.cols) := by
    rw [writtenRows, damagedRowWriteRanges_eq]
    split <;> rfl
  have hplan : (s.frame input).buffer = upload s.buffer
      ⟨(if s.Rewrites input then (List.range s.grid.rows).map (.ofRow s.grid.cols) else damagedRowWriteRanges s.grid).map
          fun range => (range, encodeRow s.grid.toCellGrid range.row input.cursor input.glyphIds),
        decide (s.grid.rows ≠ s.fragment.lastRows ∨ s.grid.cols ≠ s.fragment.lastCols),
        decide (input.atlasGeneration ≠ s.fragment.lastAtlasGeneration)⟩ (s.grid.rows * s.grid.cols) := rfl
  rw [hplan, hranges, upload, List.foldl_map, List.foldl_map]
  simp only [byteOffset_ofRow, decide_eq_true_eq, frameBuffer]
  rfl

/-- the buffer is what the last frame showed, and what is clean and known of the grid is from its grid -/
structure Inv (s : Session) : Prop where
  grid : s.grid.WellFormed
  origins : s.origins.length = s.grid.rows
  unused : s.shown = none → s.buffer = [] ∧ s.fragment.lastRows = 0 ∧ s.fragment.lastCols = 0
  buffer : ∀ f, s.shown = some f → s.buffer.length = s.fragment.lastRows * s.fragment.lastCols ∧
    Picture.ofCells s.fragment.lastRows s.fragment.lastCols s.buffer = encoded f.grid f.cursor f.glyphIds
  sound : ∀ f, s.shown = some f → ∀ i, (s.grid.rowAt s.origins i).Sound f.grid.view

lemma inv_start (rows cols : Nat) : (start rows cols).Inv where
  grid := ⟨CellGrid.wellFormed_new rows cols, by
    simp [start, DamagedGrid.new, DamagedGrid.markAllLinesFullyDamaged, CellGrid.new]⟩
  origins := List.length_replicate
  unused _ := ⟨rfl, rfl, rfl⟩
  buffer _ h := by cases h
  sound _ h := by cases h

lemma length_frameBuffer (h : s.Inv) : s.frameBuffer.length = s.grid.rows * s.grid.cols := by
  unfold frameBuffer
  split
  · exact List.length_replicate
  next hsize =>
    obtain ⟨hrows, hcols⟩ := not_or.mp hsize
    cases hshown : s.shown with
    | none =>
      obtain ⟨hbuffer, hzero, -⟩ := h.unused hshown
      rw [hbuffer, not_not.mp hrows, hzero, Nat.zero_mul]
      rfl
    | some f => rw [(h.buffer f hshown).1, not_not.mp hrows, not_not.mp hcols]

/-- the rows that are written are rows of the grid -/
lemma writtenRows_lt (h : s.Inv) (input : FrameInput) : ∀ row ∈ s.writtenRows input, row < s.grid.rows := by
  intro row hrow
  rw [writtenRows] at hrow
  split at hrow
  · exact List.mem_range.mp hrow
  · obtain ⟨d, hd, -⟩ := DamagedGrid.mem_damagedRows.mp hrow
    rw [← h.grid.lineDamage]
    exact (List.getElem?_eq_some_iff.mp hd).1

/-- a row that is left out is in the buffer as it is now -/
lemma unwritten_fresh (h : s.Inv) (hstable : s.Stable (.frame input)) (hcovered : s.Covered (.frame input)) {i : Nat}
    (hi : i < s.grid.rows) (hleft : i ∉ s.writtenRows input) (j : Nat) :
    Picture.ofCells s.grid.rows s.grid.cols s.frameBuffer i j = encoded s.grid.toCellGrid input.cursor input.glyphIds i j := by
  by_cases hj : j < s.grid.cols
  swap
  · rw [Picture.ofCells, if_neg (by omega), encoded, h.grid.grid.shape.none (by omega)]
    rfl
  rw [writtenRows] at hleft
  split at hleft
  next => exact absurd (List.mem_range.mpr hi) hleft
  next hkeeps =>
  obtain ⟨hsize, hgeneration⟩ := not_or.mp hkeeps
  obtain ⟨hrows, hcols⟩ := not_or.mp hsize
  rw [not_not] at hrows hcols hgeneration
  -- there was a frame, as there is a row
  cases hshown : s.shown with
  | none =>
    rw [hrows, (h.unused hshown).2.1] at hi
    exact absurd hi (Nat.not_lt_zero i)
  | some f =>
    have hlt : i < s.grid.lineDamage.length := by rwa [h.grid.lineDamage]
    obtain ⟨d, hd⟩ : ∃ d, s.grid.lineDamage[i]? = some d := ⟨_, List.getElem?_eq_getElem hlt⟩
    have hclean : d.isClean = true := by
      by_contra hdirty
      exact hleft (DamagedGrid.mem_damagedRows.mpr ⟨d, hd, Bool.not_eq_true _ ▸ hdirty⟩)
    obtain ⟨⟨k, horigin, hsame⟩, hcursor⟩ := (hcovered.resolve_left hkeeps) f hshown i hi d hd hclean
    have hcontent : s.grid.view i = f.grid.view k := h.sound f hshown i d hd hclean k (Option.join_eq_some_iff.mp horigin)
    have hbuffer : s.frameBuffer = s.buffer := if_neg hsize
    have hflag : (f.cursor == some (i, j)) = (input.cursor == some (i, j)) := by
      rw [Bool.eq_iff_iff, beq_iff_eq, beq_iff_eq, hcursor j hj]
    rw [hbuffer, hrows, hcols, (h.buffer f hshown).2, encoded, encoded, hcontent, hsame j hj, hstable f hshown hgeneration]
    congr 1
    funext cell
    rw [encodeAt, encodeAt, hflag]

/-- **Frame lemma**: the buffer is the picture of the grid, encoded. -/
theorem frame_shows (h : s.Inv) (hstable : s.Stable (.frame input)) (hcovered : s.Covered (.frame input)) :
    (s.frame input).buffer.length = s.grid.rows * s.grid.cols ∧
      Picture.ofCells s.grid.rows s.grid.cols (s.frame input).buffer = encoded s.grid.toCellGrid input.cursor input.glyphIds := by
  have hrows : ∀ row ∈ s.writtenRows input, row < s.grid.rows ∧
      (encodeRow s.grid.toCellGrid row input.cursor input.glyphIds).length = s.grid.cols := by
    intro row hrow
    have hlt := writtenRows_lt h input row hrow
    exact ⟨hlt, length_encodeRow hlt⟩
  obtain ⟨hlength, hwritten⟩ := Picture.ofCells_writes (s.writtenRows input)
    (fun row => encodeRow s.grid.toCellGrid row input.cursor input.glyphIds) (length_frameBuffer h) hrows
  rw [frame_buffer]
  refine ⟨hlength, ?_⟩
  rw [hwritten]
  funext i j
  by_cases hi : i < s.grid.rows
  · split
    next => exact getElem?_encodeRow h.grid.grid i j
    next hleft => exact unwritten_fresh h hstable hcovered hi hleft j
  · rw [if_neg (fun hrow => hi (writtenRows_lt h input i hrow)), Picture.ofCells, if_neg (by omega), encoded,
      h.grid.grid.shape.none (by omega)]
    rfl

/-- **Step lemma.** -/
theorem step_inv {e : FrameEvent} (h : s.Inv) (hC : s.Stable e ∧ s.Covered e) (hstep : s.step e = some t) : t.Inv ∧ t.FreshAfter e := by
  cases e with
  | edit op =>
    cases hstep
    refine ⟨⟨h.grid.apply op, ?_, h.unused, h.buffer, ?_⟩, trivial⟩
    · exact DamagedGrid.length_moveOrigins h.grid h.origins op
    · intro f hf
      exact DamagedGrid.apply_sound h.grid h.origins (h.sound f hf) op
  | frame input =>
    cases hstep
    obtain ⟨hlength, hshows⟩ := frame_shows h hC.1 hC.2
    refine ⟨⟨h.grid.apply .clearDirty, ?_, (by intro hnone; cases hnone), ?_, ?_⟩, ?_⟩
    · rw [frame, List.length_map, List.length_range]
      rfl
    · rintro f ⟨⟩
      exact ⟨hlength, hshows⟩
    · rintro f ⟨⟩ i d - - j hj
      -- every row is from its own place
      have hij : i = j := by
        have horigin : ((List.range s.grid.rows).map some)[i]? = some (some j) := hj
        rw [List.getElem?_map, Option.map_eq_some_iff] at horigin
        obtain ⟨k, hk, heq⟩ := horigin
        obtain ⟨hi, hik⟩ := List.getElem?_eq_some_iff.mp hk
        rw [List.getElem_range] at hik
        rw [hik, Option.some.inj heq]
      subst hij
      rfl
    · have hrows : (s.frame input).buffer = encodeGrid s.grid.toCellGrid input.cursor input.glyphIds := by
        apply Picture.eq_flatMap_rows hlength
        intro row _ col
        rw [hshows, getElem?_encodeRow h.grid.grid]
      exact hrows

/-- **Main result.**  In every run whose frames are all covered, and whose glyphs stay the same while the generation
does, the buffer is the grid, encoded, after every frame. -/
theorem buffer_fresh (rows cols : Nat) {es : List FrameEvent} (hstable : Along step Stable (start rows cols) es)
    (hcovered : Along step Covered (start rows cols) es) :
    Along step (fun s e => ∀ t ∈ s.step e, t.FreshAfter e) (start rows cols) es := by
  apply along_of_along (C := fun s e => s.Stable e ∧ s.Covered e) (I := Inv) _ _ (inv_start rows cols) (hstable.and hcovered)
  · intro s e t h hC hstep
    exact (step_inv h hC hstep).1
  · intro s e h hC t hstep
    exact (step_inv h hC hstep).2

/-- one table of glyphs for all frames is stable -/
lemma stable_of_glyphs (rows cols : Nat) (glyphs : Glyphs) {es : List FrameEvent}
    (h : ∀ e ∈ es, ∀ input, e = .frame input → input.glyphIds = glyphs) : Along step Stable (start rows cols) es := by
  have hall : Along step (fun _ e => ∀ input, e = .frame input → input.glyphIds = glyphs) (start rows cols) es :=
    Along.of_forall (fun e he _ => h e he) _
  apply along_of_along (I := fun s => ∀ f, s.shown = some f → f.glyphIds = glyphs) _ _ _ hall
  · intro s e t hs he hstep
    cases e with
    | edit op =>
      cases hstep
      exact hs
    | frame input =>
      cases hstep
      rintro f ⟨⟩
      exact he input rfl
  · intro s e hs he
    cases e with
    | edit op => trivial
    | frame input => exact fun f hf _ => (he input rfl).trans (hs f hf).symm
  · intro f hf
    cases hf

/-- `a` and `b` have glyphs -/
def someGlyphs : Glyphs := fun c => if c = 'a' then some 7 else if c = 'b' then some 8 else none

def cellOf (ch : Char) : Cell := ⟨ch, .white, .transparent, 0, false⟩

theorem buffer_fresh_typed : Along step (fun s e => ∀ t ∈ s.step e, t.FreshAfter e) (start 2 2)
    [.edit (.setCell 0 0 (cellOf 'a')), .frame ⟨some (0, 1), 0, someGlyphs⟩, .edit (.setCell 1 1 (cellOf 'b')),
      .frame ⟨some (0, 1), 0, someGlyphs⟩] :=
  buffer_fresh 2 2 (stable_of_glyphs 2 2 someGlyphs (by simp)) (by decide)

def cursorDown : List FrameEvent := [.frame ⟨some (0, 0), 0, someGlyphs⟩, .frame ⟨some (1, 0), 0, someGlyphs⟩]

def lineUp : List FrameEvent :=
  [.edit (.setCell 1 0 (cellOf 'a')), .frame ⟨none, 0, someGlyphs⟩, .edit (.scrollUp 1), .frame ⟨none, 0, someGlyphs⟩]

/-- the cursor goes down and its old row keeps it; a line scrolls up and the row above keeps what it showed -/
theorem buffer_stale :
    Along step Stable (start 2 1) cursorDown ∧ Along step Stable (start 2 1) lineUp ∧
    (exec step (start 2 1) cursorDown).map (fun t =>
      (t.buffer.map GpuCell.flags, (encodeGrid t.grid.toCellGrid (some (1, 0)) someGlyphs).map GpuCell.flags)) =
        some ([FLAG_CURSOR, 0], [0, FLAG_CURSOR]) ∧
    (exec step (start 2 1) lineUp).map (fun t =>
      (t.buffer.map GpuCell.glyphId, (encodeGrid t.grid.toCellGrid none someGlyphs).map GpuCell.glyphId)) =
        some ([EMPTY_GLYPH_ID, EMPTY_GLYPH_ID], [7, EMPTY_GLYPH_ID]) :=
  ⟨stable_of_glyphs 2 1 someGlyphs (by simp [cursorDown]), stable_of_glyphs 2 1 someGlyphs (by simp [lineUp]),
    by decide, by decide +kernel⟩

end Session

end TerminalManager.Ui
