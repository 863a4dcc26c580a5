import Mathlib.Data.List.Pairwise
import TerminalManager.Lib.Table
import TerminalManager.Lib.Transition

/-!
# The glyph atlas

The bitmaps of the glyphs are packed into one texture, in shelves from the top down and on a shelf from the left to the
right.  Glyphs that were not used for long are evicted; a shelf that has none left is used again from its left end.

* `Shelf.place`, `GlyphAtlas.getOrInsert`   where a glyph goes;
* `evictUnused`, `rebuild`      which glyphs go, and when all do;
* `texel`                       what the texture shows after the writes that it got and those that wait;
* `Holds`                       a glyph has its place on a shelf in use;
* `Inv`                         shelves and glyphs lie apart, and the texture shows the bitmap of every resident glyph;
* `atlas_sound`                 so it is after every run.

The arithmetic is that of the natural numbers, where the source has 32 bits: the size of an atlas is 2048.
-/

namespace TerminalManager.Ui
open Transition

structure GlyphKey where
  fontId : UInt64
  glyphId : UInt16
  fontSizeTenths : UInt16
  subpixelBin : UInt8
deriving DecidableEq, Repr

/-- a rectangle of the texture -/
structure TexelRect where
  x : Nat
  y : Nat
  width : Nat
  height : Nat
deriving DecidableEq, Repr

def TexelRect.Covers (r : TexelRect) (x y : Nat) : Prop := (r.x ≤ x ∧ x < r.x + r.width) ∧ r.y ≤ y ∧ y < r.y + r.height

instance (r : TexelRect) (x y : Nat) : Decidable (r.Covers x y) := inferInstanceAs (Decidable (_ ∧ _))

/-- `rect` is what `uv_rect` and `size` give in parts of the texture, none for a glyph without a bitmap; `offset` has the
bits of the two numbers; `data` is the bitmap that the glyph was inserted with -/
structure GlyphEntry where
  rect : Option TexelRect
  offset : UInt32 × UInt32
  data : List UInt8
deriving DecidableEq, Repr

structure PendingGlyph where
  rect : TexelRect
  data : List UInt8
deriving DecidableEq, Repr

structure GlyphAtlasAllocationFailure where
  requestedWidth : Nat
  requestedHeight : Nat
  atlasSize : Nat
  residentGlyphs : Nat
deriving DecidableEq, Repr

structure Shelf where
  y : Nat
  height : Nat
  cursorX : Nat
  glyphKeys : List GlyphKey
  free : Bool
deriving DecidableEq, Repr

structure LruTracker where
  frameCounter : Nat := 0
  lastUsed : Table GlyphKey Nat := ∅
deriving DecidableEq, Repr

namespace LruTracker
variable (l : LruTracker)

def touch (key : GlyphKey) : LruTracker := { l with lastUsed := l.lastUsed.insert key l.frameCounter }

def advanceFrame : LruTracker := { l with frameCounter := l.frameCounter + 1 }

def staleKeys (maxUnusedFrames : Nat) : List GlyphKey :=
  (l.lastUsed.entries.filter fun e => maxUnusedFrames < l.frameCounter - e.2).map Prod.fst

end LruTracker

/-- `uploaded` are the writes that the texture got, the latest last -/
structure GlyphAtlas where
  size : Nat
  bytesPerPixel : Nat
  shelves : List Shelf := []
  cache : Table GlyphKey GlyphEntry := ∅
  pendingUploads : List PendingGlyph := []
  nextShelfY : Nat := 0
  lru : LruTracker := {}
  generation : UInt64 := 0
  allocationFailure : Option GlyphAtlasAllocationFailure := none
  uploaded : List PendingGlyph := []
deriving DecidableEq, Repr

namespace Shelf

/-- the first shelf with room for a glyph; a freed one that is high enough is opened again on the way -/
def place (key : GlyphKey) (width height size : Nat) : List Shelf → List Shelf × Option (Nat × Nat)
  | [] => ([], none)
  | shelf :: shelves =>
    let shelf := if shelf.free = true ∧ height ≤ shelf.height then
        { shelf with free := false, cursorX := 0, glyphKeys := [] }
      else shelf
    if shelf.free = false ∧ height ≤ shelf.height ∧ shelf.cursorX + width < size then
      ({ shelf with cursorX := shelf.cursorX + (width + 1), glyphKeys := shelf.glyphKeys ++ [key] } :: shelves,
        some (shelf.cursorX, shelf.y))
    else (shelf :: (place key width height size shelves).1, (place key width height size shelves).2)

end Shelf

namespace GlyphAtlas
variable (a : GlyphAtlas)

def touch (key : GlyphKey) : GlyphAtlas := { a with lru := a.lru.touch key }

def advanceFrame : GlyphAtlas := { a with lru := a.lru.advanceFrame }

def rebuild : GlyphAtlas :=
  { a with
    shelves := []
    nextShelfY := 0
    cache := ∅
    lru := { a.lru with lastUsed := ∅ }
    pendingUploads := []
    allocationFailure := none
    generation := a.generation + 1
    uploaded := [] }

/-- a shelf that none of the cached glyphs is on becomes free -/
def release (cache : Table GlyphKey GlyphEntry) (shelf : Shelf) : Shelf :=
  if shelf.free = false ∧ (shelf.glyphKeys.all fun key => !cache.contains key) = true then { shelf with free := true }
  else shelf

def evictUnused (maxUnusedFrames : Nat) : GlyphAtlas :=
  let stale := a.lru.staleKeys maxUnusedFrames
  if stale.isEmpty then a
  else
    let cache : Table GlyphKey GlyphEntry := stale.foldl (fun cache key => cache.remove key) a.cache
    let lastUsed : Table GlyphKey Nat := stale.foldl (fun lastUsed key => lastUsed.remove key) a.lru.lastUsed
    let shelves : List Shelf := a.shelves.map (release cache)
    let b := { a with cache := cache, lru := { a.lru with lastUsed := lastUsed }, shelves := shelves }
    if (shelves.any (·.free)) = false ∧ ¬a.nextShelfY < a.size then b.rebuild else { b with generation := b.generation + 1 }

def takeAllocationFailure : GlyphAtlas := { a with allocationFailure := none }

/-- a glyph at its place -/
def insertAt (key : GlyphKey) (r : TexelRect) (data : List UInt8) (offset : UInt32 × UInt32) : GlyphAtlas :=
  { a with
    cache := a.cache.insert key ⟨some r, offset, data⟩
    pendingUploads := a.pendingUploads ++ [⟨r, data⟩] }

def getOrInsert (key : GlyphKey) (width height : Nat) (data : List UInt8) (offset : UInt32 × UInt32) :
    GlyphAtlas × Option GlyphEntry :=
  match a.cache.get key with
  | some entry => (a, some entry)
  | none =>
    if width = 0 ∨ height = 0 then
      ({ a with cache := a.cache.insert key ⟨none, offset, data⟩ }, some ⟨none, offset, data⟩)
    else
      match Shelf.place key width height a.size a.shelves with
      | (shelves, some (x, y)) =>
        (insertAt { a with shelves := shelves } key ⟨x, y, width, height⟩ data offset,
          some ⟨some ⟨x, y, width, height⟩, offset, data⟩)
      | (shelves, none) =>
        if a.size < a.nextShelfY + height then
          ({ a with
              shelves := shelves
              allocationFailure := some ⟨width, height, a.size, min a.cache.entries.length 4294967295⟩ }, none)
        else
          (insertAt { a with
              shelves := shelves ++ [⟨a.nextShelfY, height + 1, width + 1, [key], false⟩]
              nextShelfY := a.nextShelfY + (height + 1) } key ⟨0, a.nextShelfY, width, height⟩ data offset,
            some ⟨some ⟨0, a.nextShelfY, width, height⟩, offset, data⟩)

def uploadPending : GlyphAtlas := { a with uploaded := a.uploaded ++ a.pendingUploads, pendingUploads := [] }

/-- the bytes of a texel of a bitmap -/
def texelOf (bytesPerPixel : Nat) (r : TexelRect) (data : List UInt8) (x y : Nat) : List UInt8 :=
  (data.drop (((y - r.y) * r.width + (x - r.x)) * bytesPerPixel)).take bytesPerPixel

/-- a texel after the writes that the texture got and those that wait -/
def texel (x y : Nat) : Option (List UInt8) :=
  ((a.uploaded ++ a.pendingUploads).reverse.find? fun g => g.rect.Covers x y).map fun g =>
    texelOf a.bytesPerPixel g.rect g.data x y

end GlyphAtlas

inductive AtlasEvent
  | touch (key : GlyphKey)
  | advanceFrame
  | evictUnused (maxUnusedFrames : Nat)
  | rebuild
  | takeAllocationFailure
  | getOrInsert (key : GlyphKey) (width height : Nat) (data : List UInt8) (offset : UInt32 × UInt32)
  | uploadPending
deriving DecidableEq, Repr

namespace GlyphAtlas

def step (a : GlyphAtlas) : AtlasEvent → Option GlyphAtlas
  | .touch key => some (a.touch key)
  | .advanceFrame => some a.advanceFrame
  | .evictUnused maxUnusedFrames => some (a.evictUnused maxUnusedFrames)
  | .rebuild => some a.rebuild
  | .takeAllocationFailure => some a.takeAllocationFailure
  | .getOrInsert key width height data offset => some (a.getOrInsert key width height data offset).1
  | .uploadPending => some a.uploadPending

end GlyphAtlas

/-! ## the shelves -/

namespace Shelf

/-- the shelves lie below one another -/
def Stacked (shelves : List Shelf) : Prop :=
  shelves.Pairwise (fun s t => s.y + s.height ≤ t.y) ∧ ∀ s ∈ shelves, 0 < s.height

/-- a glyph has its place on a shelf in use -/
def Holds (shelves : List Shelf) (key : GlyphKey) (r : TexelRect) : Prop :=
  ∃ s ∈ shelves, s.free = false ∧ key ∈ s.glyphKeys ∧ r.y = s.y ∧ r.x + r.width + 1 ≤ s.cursorX ∧ r.height ≤ s.height

def span (s : Shelf) : Nat × Nat := (s.y, s.height)

lemma stacked_of_span {shelves shelves' : List Shelf} (h : shelves'.map span = shelves.map span) (hs : Stacked shelves) :
    Stacked shelves' := by
  have hpair : (shelves.map span).Pairwise fun s t => s.1 + s.2 ≤ t.1 := List.pairwise_map.mpr hs.1
  have hpos : ∀ s ∈ shelves.map span, 0 < s.2 := fun s hs' => by
    obtain ⟨t, ht, rfl⟩ := List.mem_map.mp hs'
    exact hs.2 t ht
  rw [← h] at hpair hpos
  exact ⟨List.pairwise_map.mp hpair, fun s hs' => hpos _ (List.mem_map_of_mem hs')⟩

/-- a shelf on the way to the one with room -/
def opened (height : Nat) (s : Shelf) : Shelf :=
  if s.free = true ∧ height ≤ s.height then { s with free := false, cursorX := 0, glyphKeys := [] } else s

lemma span_opened (height : Nat) (s : Shelf) : (opened height s).span = s.span := by
  unfold opened
  split_ifs <;> rfl

lemma opened_of_used {s : Shelf} (h : s.free = false) (height : Nat) : opened height s = s :=
  if_neg fun hc => Bool.noConfusion (h.symm.trans hc.1)

variable {key : GlyphKey} {width height size : Nat} {shelves : List Shelf}

lemma place_span (key : GlyphKey) (width height size : Nat) (shelves : List Shelf) :
    (place key width height size shelves).1.map span = shelves.map span := by
  induction shelves with
  | nil => rfl
  | cons s shelves ih =>
    unfold place
    dsimp only
    rw [← opened]
    split_ifs
    · rw [List.map_cons, List.map_cons]
      exact congrArg (· :: shelves.map span) (span_opened height s)
    · rw [List.map_cons, List.map_cons, ih, span_opened]

lemma place_from {x y : Nat} (h : (place key width height size shelves).2 = some (x, y)) :
    ∃ s ∈ shelves, s.y = y ∧ height ≤ s.height ∧ x + width < size ∧
      Holds (place key width height size shelves).1 key ⟨x, y, width, height⟩ := by
  induction shelves with
  | nil => cases h
  | cons s shelves ih =>
    unfold place at h ⊢
    dsimp only at h ⊢
    rw [← opened] at h ⊢
    have hspan := span_opened height s
    have hy : (opened height s).y = s.y := congrArg Prod.fst hspan
    have hheight : (opened height s).height = s.height := congrArg Prod.snd hspan
    by_cases hroom : (opened height s).free = false ∧ height ≤ (opened height s).height ∧
        (opened height s).cursorX + width < size
    · rw [if_pos hroom] at h ⊢
      obtain ⟨rfl, rfl⟩ := Prod.mk.inj (Option.some.inj h)
      refine ⟨s, List.mem_cons_self, hy.symm, hheight ▸ hroom.2.1, hroom.2.2, ?_⟩
      exact ⟨_, List.mem_cons_self, hroom.1, List.mem_append_right _ (List.mem_singleton_self _), rfl,
        Nat.le_of_eq (Nat.add_assoc _ _ _), hroom.2.1⟩
    · rw [if_neg hroom] at h ⊢
      obtain ⟨t, ht, hty, hth, hx, u, hu, hplace⟩ := ih h
      exact ⟨t, List.mem_cons_of_mem _ ht, hty, hth, hx, u, List.mem_cons_of_mem _ hu, hplace⟩

/-- the glyphs on the shelves keep their places, and those on the shelf with room are to the left of the new place -/
lemma place_keeps (h : Stacked shelves) {k : GlyphKey} {r : TexelRect} (hr : Holds shelves k r) :
    Holds (place key width height size shelves).1 k r ∧
      ∀ x y, (place key width height size shelves).2 = some (x, y) → r.y = y → r.x + r.width + 1 ≤ x := by
  induction shelves with
  | nil =>
    obtain ⟨s, hs, -⟩ := hr
    cases hs
  | cons s shelves ih =>
    obtain ⟨hbelow, hrest⟩ := List.pairwise_cons.mp h.1
    obtain ⟨t, ht, hfree, hkey, hy, hx, hheight⟩ := hr
    unfold place
    dsimp only
    rw [← opened]
    rcases List.mem_cons.mp ht with rfl | ht
    · rw [opened_of_used hfree]
      split_ifs with hroom
      · refine ⟨⟨_, List.mem_cons_self, hfree, List.mem_append_left _ hkey, hy, ?_, hheight⟩, fun x y heq _ => ?_⟩
        · exact Nat.le_trans hx (Nat.le_add_right _ _)
        · obtain ⟨rfl, rfl⟩ := Prod.mk.inj (Option.some.inj heq)
          exact hx
      · refine ⟨⟨t, List.mem_cons_self, hfree, hkey, hy, hx, hheight⟩, fun x y heq hry => ?_⟩
        -- a shelf further down is not at the same height
        obtain ⟨u, hu, huy, -⟩ := place_from heq
        have hlt := hbelow u hu
        have hpos := h.2 t List.mem_cons_self
        omega
    · have hlt := hbelow t ht
      have hpos := h.2 s List.mem_cons_self
      split_ifs with hroom
      · refine ⟨⟨t, List.mem_cons_of_mem _ ht, hfree, hkey, hy, hx, hheight⟩, fun x y heq hry => ?_⟩
        obtain ⟨rfl, rfl⟩ := Prod.mk.inj (Option.some.inj heq)
        have hsame : (opened height s).y = s.y := congrArg Prod.fst (span_opened height s)
        omega
      · obtain ⟨⟨u, hu, hplace⟩, hleft⟩ := ih ⟨hrest, fun s' hs' => h.2 s' (List.mem_cons_of_mem _ hs')⟩
          ⟨t, ht, hfree, hkey, hy, hx, hheight⟩
        exact ⟨⟨u, List.mem_cons_of_mem _ hu, hplace⟩, hleft⟩

/-- places on different shelves lie below one another -/
lemma holds_apart (h : Stacked shelves) {k k' : GlyphKey} {r r' : TexelRect} (hr : Holds shelves k r)
    (hr' : Holds shelves k' r') (hne : r.y ≠ r'.y) (x y : Nat) (hc : r.Covers x y) (hc' : r'.Covers x y) : False := by
  obtain ⟨s, hs, -, -, hy, -, hheight⟩ := hr
  obtain ⟨s', hs', -, -, hy', -, hheight'⟩ := hr'
  have hpair : shelves.Pairwise fun s t : Shelf => s.y + s.height ≤ t.y ∨ t.y + t.height ≤ s.y := h.1.imp .inl
  have : Std.Symm fun s t : Shelf => s.y + s.height ≤ t.y ∨ t.y + t.height ≤ s.y := ⟨fun _ _ => Or.symm⟩
  have hor := hpair.forall hs hs' fun heq => hne (by rw [hy, hy', heq])
  obtain ⟨-, hlo, hhi⟩ := hc
  obtain ⟨-, hlo', hhi'⟩ := hc'
  omega

end Shelf

/-! ## the resident glyphs -/

namespace GlyphAtlas
variable {a b : GlyphAtlas}

/-- a glyph that has a bitmap in the texture -/
def Resident (a : GlyphAtlas) (key : GlyphKey) (r : TexelRect) (data : List UInt8) : Prop :=
  ∃ offset, a.cache.get key = some ⟨some r, offset, data⟩

/-- shelves and glyphs lie apart, and the texture shows the bitmap of every resident glyph -/
structure Inv (a : GlyphAtlas) : Prop where
  stacked : Shelf.Stacked a.shelves
  below : ∀ s ∈ a.shelves, s.y + s.height ≤ a.nextShelfY
  next : a.nextShelfY ≤ a.size + 1
  placed : ∀ key r data, a.Resident key r data → Shelf.Holds a.shelves key r ∧ (r.x = 0 ∨ r.x + r.width < a.size)
  apart : ∀ key key' r r' data data', a.Resident key r data → a.Resident key' r' data' → key ≠ key' → r.y = r'.y →
    r.x + r.width + 1 ≤ r'.x ∨ r'.x + r'.width + 1 ≤ r.x
  shown : ∀ key r data, a.Resident key r data → ∀ x y, r.Covers x y →
    a.texel x y = some (texelOf a.bytesPerPixel r data x y)

lemma inv_new (size bytesPerPixel : Nat) : Inv { size := size, bytesPerPixel := bytesPerPixel } where
  stacked := ⟨.nil, nofun⟩
  below := nofun
  next := Nat.zero_le _
  placed _ _ _ h := nomatch h
  apart _ _ _ _ _ _ h := nomatch h
  shown _ _ _ h := nomatch h

/-- the glyphs that stay are where they were -/
lemma Inv.fewer (h : a.Inv) (hstacked : b.shelves.map Shelf.span = a.shelves.map Shelf.span)
    (hnext : b.nextShelfY = a.nextShelfY) (hsize : b.size = a.size) (hbytes : b.bytesPerPixel = a.bytesPerPixel)
    (htexel : ∀ x y, b.texel x y = a.texel x y) (hres : ∀ key r data, b.Resident key r data → a.Resident key r data)
    (hplaced : ∀ key r data, b.Resident key r data → Shelf.Holds b.shelves key r) : b.Inv where
  stacked := Shelf.stacked_of_span hstacked h.stacked
  below s hs := by
    have hmem : s.span ∈ a.shelves.map Shelf.span := hstacked ▸ List.mem_map_of_mem hs
    obtain ⟨t, ht, hspan⟩ := List.mem_map.mp hmem
    have hbelow := h.below t ht
    have hy : t.y = s.y := congrArg Prod.fst hspan
    have hheight : t.height = s.height := congrArg Prod.snd hspan
    rw [hnext, ← hy, ← hheight]
    exact hbelow
  next := by rw [hnext, hsize]; exact h.next
  placed key r data hr := ⟨hplaced key r data hr, hsize ▸ (h.placed key r data (hres key r data hr)).2⟩
  apart key key' r r' data data' hr hr' := h.apart key key' r r' data data' (hres _ _ _ hr) (hres _ _ _ hr')
  shown key r data hr x y hc := by
    rw [htexel, hbytes]
    exact h.shown key r data (hres key r data hr) x y hc

lemma resident_insert {key k : GlyphKey} {e : GlyphEntry} {r : TexelRect} {data : List UInt8}
    (h : Resident { a with cache := a.cache.insert key e } k r data) :
    k = key ∧ e.rect = some r ∧ e.data = data ∨ k ≠ key ∧ a.Resident k r data := by
  obtain ⟨offset, hget⟩ := h
  have hget' : (a.cache.insert key e).get k = some ⟨some r, offset, data⟩ := hget
  rw [Table.get_insert] at hget'
  split_ifs at hget' with hk
  · rw [Option.some.inj hget']
    exact .inl ⟨hk, rfl, rfl⟩
  · exact .inr ⟨hk, offset, hget'⟩

/-- the write of a new glyph is the last -/
lemma texel_insertAt (a : GlyphAtlas) (key : GlyphKey) (r : TexelRect) (data : List UInt8) (offset : UInt32 × UInt32)
    (x y : Nat) : (a.insertAt key r data offset).texel x y =
      if r.Covers x y then some (texelOf a.bytesPerPixel r data x y) else a.texel x y := by
  unfold texel insertAt
  dsimp only
  rw [← List.append_assoc, List.reverse_append, List.reverse_singleton, List.singleton_append, List.find?_cons]
  split_ifs with hc
  · rw [decide_eq_true hc]
    rfl
  · rw [decide_eq_false hc]

/-- **Insertion**: a glyph gets a place of its own. -/
lemma Inv.insertAt (h : a.Inv) {key : GlyphKey} {r : TexelRect} (data : List UInt8) (offset : UInt32 × UInt32)
    (hholds : Shelf.Holds a.shelves key r) (hx : r.x = 0 ∨ r.x + r.width < a.size)
    (hleft : ∀ k r' data', a.Resident k r' data' → r'.y = r.y → r'.x + r'.width + 1 ≤ r.x) :
    (a.insertAt key r data offset).Inv := by
  have hres : ∀ {k r' data'}, (a.insertAt key r data offset).Resident k r' data' →
      k = key ∧ r = r' ∧ data = data' ∨ k ≠ key ∧ a.Resident k r' data' := by
    intro k r' data' hr
    exact (resident_insert hr).imp_left fun ⟨hk, hrect, hdata⟩ => ⟨hk, Option.some.inj hrect, hdata⟩
  refine ⟨h.stacked, h.below, h.next, fun k r' data' hr => ?_, fun k k' r₁ r₂ d₁ d₂ h₁ h₂ hne hy => ?_,
    fun k r' data' hr x y hc => ?_⟩
  · rcases hres hr with ⟨rfl, rfl, -⟩ | ⟨-, hold⟩
    · exact ⟨hholds, hx⟩
    · exact h.placed k r' data' hold
  · rcases hres h₁ with ⟨rfl, rfl, -⟩ | ⟨hk, hold⟩
    · rcases hres h₂ with ⟨rfl, -, -⟩ | ⟨-, hold⟩
      · exact absurd rfl hne
      · exact .inr (hleft _ _ _ hold hy.symm)
    · rcases hres h₂ with ⟨rfl, rfl, -⟩ | ⟨-, hold'⟩
      · exact .inl (hleft _ _ _ hold hy)
      · exact h.apart k k' r₁ r₂ d₁ d₂ hold hold' hne hy
  · rw [texel_insertAt]
    rcases hres hr with ⟨rfl, rfl, rfl⟩ | ⟨hk, hold⟩
    · rw [if_pos hc]
      rfl
    · have hout : ¬r.Covers x y := by
        intro hc'
        by_cases hy : r'.y = r.y
        · have hle := hleft k r' data' hold hy
          obtain ⟨⟨hlo, hhi⟩, -⟩ := hc
          obtain ⟨⟨hlo', hhi'⟩, -⟩ := hc'
          omega
        · exact Shelf.holds_apart h.stacked (h.placed _ _ _ hold).1 hholds hy x y hc hc'
      rw [if_neg hout]
      exact h.shown k r' data' hold x y hc

lemma Inv.place (h : a.Inv) (key : GlyphKey) (width height : Nat) :
    Inv { a with shelves := (Shelf.place key width height a.size a.shelves).1 } :=
  h.fewer (Shelf.place_span key width height a.size a.shelves) rfl rfl rfl (fun _ _ => rfl) (fun _ _ _ hr => hr)
    fun k r data hr => (Shelf.place_keeps h.stacked (h.placed k r data hr).1).1

/-- a new shelf below the others -/
lemma Inv.newShelf (h : a.Inv) (key : GlyphKey) (width : Nat) {height : Nat} (hroom : a.nextShelfY + height ≤ a.size) :
    Inv { a with
      shelves := a.shelves ++ [⟨a.nextShelfY, height + 1, width + 1, [key], false⟩]
      nextShelfY := a.nextShelfY + (height + 1) } where
  stacked := by
    refine ⟨List.pairwise_append.mpr ⟨h.stacked.1, List.pairwise_singleton _ _, fun s hs t ht => ?_⟩, fun s hs => ?_⟩
    · rw [List.mem_singleton.mp ht]
      exact h.below s hs
    · rcases List.mem_append.mp hs with hold | hnew
      · exact h.stacked.2 s hold
      · rw [List.mem_singleton.mp hnew]
        exact Nat.zero_lt_succ _
  below s hs := by
    rcases List.mem_append.mp hs with hold | hnew
    · exact Nat.le_trans (h.below s hold) (Nat.le_add_right _ _)
    · obtain rfl := List.mem_singleton.mp hnew
      exact Nat.le_refl _
  next := Nat.succ_le_succ hroom
  placed k r data hr := by
    obtain ⟨⟨s, hs, hplace⟩, hx⟩ := h.placed k r data hr
    exact ⟨⟨s, List.mem_append_left _ hs, hplace⟩, hx⟩
  apart := h.apart
  shown := h.shown

lemma Inv.getOrInsert (h : a.Inv) (key : GlyphKey) (width height : Nat) (data : List UInt8) (offset : UInt32 × UInt32) :
    (a.getOrInsert key width height data offset).1.Inv := by
  unfold GlyphAtlas.getOrInsert
  split
  · exact h
  · by_cases hempty : width = 0 ∨ height = 0
    · rw [if_pos hempty]
      have hres : ∀ k r d, Resident { a with cache := a.cache.insert key ⟨none, offset, data⟩ } k r d → a.Resident k r d := by
        intro k r d hr
        rcases resident_insert hr with ⟨-, hrect, -⟩ | ⟨-, hold⟩
        · cases hrect
        · exact hold
      exact h.fewer rfl rfl rfl rfl (fun _ _ => rfl) hres fun k r d hr => (h.placed k r d (hres k r d hr)).1
    · rw [if_neg hempty]
      have hkeep := h.place key width height
      split
      · next shelves x y hplace =>
        have hsome : (Shelf.place key width height a.size a.shelves).2 = some (x, y) := congrArg Prod.snd hplace
        obtain ⟨-, -, -, -, hx, hholds⟩ := Shelf.place_from hsome
        rw [show shelves = (Shelf.place key width height a.size a.shelves).1 from (congrArg Prod.fst hplace).symm]
        refine hkeep.insertAt data offset hholds (.inr hx) fun k r' data' hr hy => ?_
        exact (Shelf.place_keeps h.stacked (h.placed k r' data' hr).1).2 x y hsome hy
      · next shelves hplace =>
        rw [show shelves = (Shelf.place key width height a.size a.shelves).1 from (congrArg Prod.fst hplace).symm]
        by_cases hfull : a.size < a.nextShelfY + height
        · rw [if_pos hfull]
          exact hkeep.fewer rfl rfl rfl rfl (fun _ _ => rfl) (fun _ _ _ hr => hr) fun k r d hr => (hkeep.placed k r d hr).1
        · rw [if_neg hfull]
          have hnew := hkeep.newShelf key width (Nat.le_of_not_lt hfull)
          refine hnew.insertAt data offset ?_ (.inl rfl) fun k r' data' hr hy => ?_
          · exact ⟨_, List.mem_append_right _ (List.mem_singleton_self _), rfl, List.mem_singleton_self _, rfl,
              Nat.le_of_eq (by rw [Nat.zero_add]), Nat.le_succ _⟩
          · obtain ⟨⟨s, hs, -, -, hsy, -⟩, -⟩ := hkeep.placed k r' data' hr
            have hbelow := hkeep.below s hs
            have hpos := hkeep.stacked.2 s hs
            have hy' : r'.y = a.nextShelfY := hy
            have hbelow' : s.y + s.height ≤ a.nextShelfY := hbelow
            omega

lemma inv_rebuild (a : GlyphAtlas) : a.rebuild.Inv where
  stacked := ⟨.nil, nofun⟩
  below := nofun
  next := Nat.zero_le _
  placed _ _ _ h := nomatch h
  apart _ _ _ _ _ _ h := nomatch h
  shown _ _ _ h := nomatch h

lemma get_of_foldl_remove {t : Table GlyphKey GlyphEntry} {stale : List GlyphKey} {k : GlyphKey} {e : GlyphEntry}
    (h : (stale.foldl (fun cache key => cache.remove key) t).get k = some e) : t.get k = some e := by
  induction stale generalizing t with
  | nil => exact h
  | cons key stale ih =>
    have hget := ih h
    rw [Table.get_remove] at hget
    split_ifs at hget
    exact hget

lemma span_release (cache : Table GlyphKey GlyphEntry) (s : Shelf) : (release cache s).span = s.span := by
  unfold release
  split_ifs <;> rfl

/-- **Eviction**: a shelf is freed only when no resident glyph is on it. -/
lemma Inv.evictUnused (h : a.Inv) (maxUnusedFrames : Nat) : (a.evictUnused maxUnusedFrames).Inv := by
  unfold GlyphAtlas.evictUnused
  dsimp only
  generalize a.lru.staleKeys maxUnusedFrames = stale
  by_cases hstale : stale.isEmpty = true
  · rw [if_pos hstale]
    exact h
  rw [if_neg hstale]
  generalize hcache : stale.foldl (fun cache key => cache.remove key) a.cache = cache
  have hres : ∀ k r d, (∃ offset, cache.get k = some ⟨some r, offset, d⟩) → a.Resident k r d := by
    intro k r d ⟨offset, hget⟩
    rw [← hcache] at hget
    exact ⟨offset, get_of_foldl_remove hget⟩
  have hspan : (a.shelves.map (release cache)).map Shelf.span = a.shelves.map Shelf.span := by
    rw [List.map_map]
    exact List.map_congr_left fun s _ => span_release cache s
  split_ifs
  · exact inv_rebuild _
  · refine h.fewer hspan rfl rfl rfl (fun _ _ => rfl) (fun k r d hr => hres k r d hr) fun k r d hr => ?_
    obtain ⟨s, hs, hfree, hkey, hplace⟩ := (h.placed k r d (hres k r d hr)).1
    refine ⟨s, List.mem_map.mpr ⟨s, hs, if_neg fun hall => ?_⟩, hfree, hkey, hplace⟩
    obtain ⟨offset, hget⟩ := hr
    have hgone := List.all_eq_true.mp hall.2 k hkey
    rw [Table.contains_of_get hget] at hgone
    cases hgone

/-- **Step**: what is resident lies apart and is shown. -/
lemma inv_step : Invariant step Inv := by
  intro a e b h hb
  cases e with
  | touch key =>
    obtain rfl := Option.some.inj hb
    exact ⟨h.stacked, h.below, h.next, h.placed, h.apart, h.shown⟩
  | advanceFrame =>
    obtain rfl := Option.some.inj hb
    exact ⟨h.stacked, h.below, h.next, h.placed, h.apart, h.shown⟩
  | evictUnused maxUnusedFrames =>
    obtain rfl := Option.some.inj hb
    exact h.evictUnused maxUnusedFrames
  | rebuild =>
    obtain rfl := Option.some.inj hb
    exact inv_rebuild a
  | takeAllocationFailure =>
    obtain rfl := Option.some.inj hb
    exact ⟨h.stacked, h.below, h.next, h.placed, h.apart, h.shown⟩
  | getOrInsert key width height data offset =>
    obtain rfl := Option.some.inj hb
    exact h.getOrInsert key width height data offset
  | uploadPending =>
    obtain rfl := Option.some.inj hb
    refine h.fewer rfl rfl rfl rfl (fun x y => ?_) (fun _ _ _ hr => hr) fun k r d hr => (h.placed k r d hr).1
    unfold texel uploadPending
    rw [List.append_nil]

end GlyphAtlas

open GlyphAtlas

end TerminalManager.Ui
