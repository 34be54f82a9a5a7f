import Mathlib.Algebra.Group.Nat.Defs
import Mathlib.Order.Defs.LinearOrder

/-!
Single-precision numbers by their bits, with their order and the way a number is held between
two bounds.
-/

namespace HarborBeacon.Binary32

structure F32 where
  bits : UInt32
deriving DecidableEq

namespace F32

def exponent (x : F32) : Nat :=
  x.bits.toNat / 2 ^ 23 % 2 ^ 8

def magnitude (x : F32) : Nat :=
  x.bits.toNat % 2 ^ 31

def isFinite (x : F32) : Bool :=
  x.exponent ≠ 255

def isNaN (x : F32) : Bool :=
  x.exponent = 255 ∧ x.magnitude ≠ 255 * 2 ^ 23

def rank (x : F32) : Int :=
  if x.bits.toNat < 2 ^ 31 then x.magnitude else -x.magnitude

def totalRank (x : F32) : Int :=
  if x.bits.toNat < 2 ^ 31 then x.magnitude else -x.magnitude - 1

def lt (x y : F32) : Bool :=
  !x.isNaN && !y.isNaN && x.rank < y.rank

def le (x y : F32) : Bool :=
  !x.isNaN && !y.isNaN && x.rank ≤ y.rank

def clamp (x lower upper : F32) : F32 :=
  let x := if x.lt lower then lower else x
  if upper.lt x then upper else x

variable {x lower upper : F32}

theorem lt_irrefl (x : F32) : x.lt x = false := by
  simp [lt]

theorem lt_of_le (h : lower.le upper = true) : upper.lt lower = false := by
  rw [le, Bool.and_eq_true, decide_eq_true_eq] at h
  rw [lt, decide_eq_false (Int.not_lt.mpr h.2), Bool.and_false]

/-- A finite number between two bounds. -/
structure Between (lower upper x : F32) : Prop where
  isFinite : x.isFinite = true
  above : x.lt lower = false
  below : upper.lt x = false

instance instDecidableBetween (lower upper x : F32) : Decidable (Between lower upper x) :=
  decidable_of_iff (x.isFinite = true ∧ x.lt lower = false ∧ upper.lt x = false)
    ⟨fun h => ⟨h.1, h.2.1, h.2.2⟩, fun h => ⟨h.1, h.2, h.3⟩⟩

theorem between_clamp (hlower : lower.isFinite = true) (hupper : upper.isFinite = true)
    (hle : lower.le upper = true) (hx : x.isFinite = true) :
    Between lower upper (x.clamp lower upper) := by
  rw [clamp]
  by_cases hbelow : x.lt lower = true
  · rw [if_pos hbelow, if_neg (by simp [lt_of_le hle])]
    exact ⟨hlower, lt_irrefl lower, lt_of_le hle⟩
  · rw [if_neg hbelow]
    by_cases habove : upper.lt x = true
    · rw [if_pos habove]
      exact ⟨hupper, lt_of_le hle, lt_irrefl upper⟩
    · rw [if_neg habove]
      exact ⟨hx, Bool.eq_false_iff.mpr hbelow, Bool.eq_false_iff.mpr habove⟩

theorem Between.clamp_eq (h : Between lower upper x) : x.clamp lower upper = x := by
  rw [clamp]
  rw [if_neg (Bool.eq_false_iff.mp h.above), if_neg (Bool.eq_false_iff.mp h.below)]

end F32

structure Dyadic where
  negative : Bool
  significand : Nat
  exponent : Int
deriving DecidableEq

/-- The quotient by a power of two, rounded to the nearest number and from the middle to the even
one. -/
def shiftHalfEven (n shift : Nat) : Nat :=
  let quotient := n / 2 ^ shift
  let rest := 2 * (n % 2 ^ shift)
  if rest < 2 ^ shift ∨ (rest = 2 ^ shift ∧ quotient % 2 = 0) then quotient else quotient + 1

def roundTo (digits : Nat) (least : Int) (x : Dyadic) : Dyadic :=
  let length := if x.significand = 0 then 0 else Nat.log2 x.significand + 1
  let exponent := max (length + x.exponent - digits) least
  { x with
    significand :=
      if exponent ≤ x.exponent then x.significand * 2 ^ (x.exponent - exponent).toNat
      else shiftHalfEven x.significand (exponent - x.exponent).toNat
    exponent := exponent }

def F32.ofDyadic (x : Dyadic) : F32 :=
  let rounded := roundTo 24 (-149) x
  let magnitude :=
    if x.significand = 0 then 0
    else min ((rounded.exponent + 149).toNat * 2 ^ 23 + rounded.significand) (255 * 2 ^ 23)
  { bits := UInt32.ofNat (if x.negative then 2 ^ 31 + magnitude else magnitude) }

/-- The bits of the double next to a number. -/
def doubleOfDyadic (x : Dyadic) : UInt64 :=
  let rounded := roundTo 53 (-1074) x
  let magnitude :=
    if x.significand = 0 then 0
    else min ((rounded.exponent + 1074).toNat * 2 ^ 52 + rounded.significand) (2047 * 2 ^ 52)
  UInt64.ofNat (if x.negative then 2 ^ 63 + magnitude else magnitude)

/-- The bits of a finite number as an `f64`. -/
def F32.toDouble (x : F32) : UInt64 :=
  let fraction : Nat := x.bits.toNat % 2 ^ 23
  doubleOfDyadic
    { negative := 2 ^ 31 ≤ x.bits.toNat
      significand := if x.exponent = 0 then fraction else 2 ^ 23 + fraction
      exponent := max (x.exponent : Int) 1 - 150 }

/-- The cast of an `f64`, given by its bits. -/
def F32.ofDouble (bits : UInt64) : F32 :=
  let negative : Bool := 2 ^ 63 ≤ bits.toNat
  let exponent : Nat := bits.toNat / 2 ^ 52 % 2 ^ 11
  let fraction : Nat := bits.toNat % 2 ^ 52
  if exponent = 2047 then
    { bits := UInt32.ofNat ((if negative then 2 ^ 31 else 0) +
        (if fraction = 0 then 255 * 2 ^ 23 else 255 * 2 ^ 23 + 2 ^ 22)) }
  else if exponent = 0 then
    ofDyadic { negative := negative, significand := fraction, exponent := -1074 }
  else
    ofDyadic
      { negative := negative, significand := 2 ^ 52 + fraction, exponent := (exponent : Int) - 1075 }

/-- An integer as an `f64`, cast to `f32`. -/
def F32.ofInt (n : Int) : F32 :=
  ofDyadic (roundTo 53 (-1074) { negative := n < 0, significand := n.natAbs, exponent := 0 })

/-- The double 0.1 becomes the nearest single. -/
example : (F32.ofDouble 0x3FB999999999999A).bits = 0x3DCCCCCD := by decide +kernel

example : F32.toDouble { bits := 0x3DCCCCCD } = 0x3FB99999A0000000 := by decide +kernel

example : (F32.ofInt (-3)).bits = 0xC0400000 := by decide +kernel

end HarborBeacon.Binary32
