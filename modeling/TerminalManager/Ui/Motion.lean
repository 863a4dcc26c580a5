import Mathlib.Data.Rat.Floor
import Mathlib.Tactic.Common

/-!
# Scroll motions over an abstract `f32`

The UI animates the scroll position in single precision.  Nothing that is proved here depends on how
the arithmetic rounds, so `f32` is any type with the operations the code calls (`F32`); times are
nanoseconds.

* `exactF32`   exact arithmetic, which single precision agrees with on small numbers, for examples;
* `ScrollMotion.sample`, `ScrollMotion.retarget`   the framework's scroll animation; the numeric ease
  curve is one of the operations.
-/

namespace TerminalManager.Ui

/-- the single-precision operations that the code calls; nothing is assumed about them -/
class F32 (F : Type) where
  /-- `n as f32` -/
  ofNat : Nat → F
  /-- `i as f32` -/
  ofInt : Int → F
  /-- `0.5` -/
  half : F
  /-- `f32::EPSILON` -/
  epsilon : F
  add : F → F → F
  sub : F → F → F
  mul : F → F → F
  div : F → F → F
  neg : F → F
  abs : F → F
  floor : F → F
  max : F → F → F
  lt : F → F → Bool
  le : F → F → Bool
  eq : F → F → Bool
  isFinite : F → Bool
  /-- `x as usize` -/
  toUsize : F → Nat
  /-- `x.trunc() as i32` -/
  truncToI32 : F → Int
  /-- `x.round() as i64` -/
  roundToI64 : F → Int
  /-- `Duration::as_secs_f32`, from nanoseconds -/
  ofDuration : Nat → F
  /-- `browser_scroll_ease`: progress and its velocity -/
  browserScrollEase : F → F → F × F

namespace F32

variable {F : Type} [F32 F]

def zero : F := ofNat 0
def one : F := ofNat 1

def clamp (x lo hi : F) : F := if lt x lo then lo else if lt hi x then hi else x

end F32

/-- exact arithmetic; the ease curve is left linear, no example runs a motion -/
def exactF32 : F32 ℚ where
  ofNat n := n
  ofInt i := i
  half := 1 / 2
  epsilon := 1 / 8388608
  add := (· + ·)
  sub := (· - ·)
  mul := (· * ·)
  div := (· / ·)
  neg := (- ·)
  abs x := |x|
  floor x := ⌊x⌋
  max x y := Max.max x y
  lt x y := x < y
  le x y := x ≤ y
  eq x y := x = y
  isFinite _ := true
  toUsize x := ⌊x⌋.toNat
  truncToI32 x := if 0 ≤ x then ⌊x⌋ else ⌈x⌉
  roundToI64 x := if 0 ≤ x then ⌊x + 1 / 2⌋ else ⌈x - 1 / 2⌉
  ofDuration n := n / 1000000000
  browserScrollEase x _ := (x, 1)

open F32

structure ScrollMotion (F : Type) where
  start : F
  target : F
  startedAt : Nat
  duration : Nat
  initialSlope : F

namespace ScrollMotion

variable {F : Type} [F32 F]

/-- position, velocity and whether the motion is over -/
def sample (m : ScrollMotion F) (now : Nat) : F × F × Bool :=
  let elapsed := now - m.startedAt
  if m.duration = 0 then (m.target, zero, true)
  else
    let complete : Bool := elapsed ≥ m.duration
    let durationSecs : F := ofDuration m.duration
    let (progress, progressVelocity) :=
      if complete then (one, zero)
      else browserScrollEase (div (ofDuration elapsed) durationSecs) m.initialSlope
    (add m.start (mul (sub m.target m.start) progress),
      div (mul (sub m.target m.start) progressVelocity) durationSecs, complete)

/-- a motion to a new target, `none` when it would move less than half a pixel -/
def retarget (active : Option (ScrollMotion F)) (current delta max : F) (now duration : Nat)
    (initialSlope : F) : Option (ScrollMotion F) :=
  let base := (active.map target).getD current
  let target := clamp (sub base delta) zero max
  if lt (abs (sub target current)) half then none
  else
    let continuitySlope := active.bind fun m =>
      let (_, velocity, complete) := m.sample now
      if complete || duration = 0 then none
      else
        let newDelta := sub target current
        if lt (abs newDelta) half then none
        else some (div (mul velocity (ofDuration duration)) newDelta)
    let slope := (continuitySlope.map fun s => F32.max s initialSlope).getD initialSlope
    some ⟨current, target, now, duration, slope⟩

end ScrollMotion
end TerminalManager.Ui
