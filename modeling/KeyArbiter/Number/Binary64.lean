/-!
# Finite 64-bit floats

A finite binary64 number as a significand and an exponent, with exact rounding to the nearest one.
Everything is natural-number arithmetic, so it can be reasoned about.
-/

namespace KeyArbiter

/-- The number `± significand * 2 ^ exponent`, in units of `2 ^ -1074`. -/
structure Binary64 where
  negative : Bool
  significand : Nat
  exponent : Nat
  deriving DecidableEq, Repr

namespace Binary64

/-- `n / d` to the nearest whole number; a half goes to the even neighbour. -/
def roundDiv (n d : Nat) : Nat :=
  let q := n / d
  let twice := 2 * (n % d)
  if d < twice ∨ (d = twice ∧ q % 2 = 1) then q + 1 else q

/-- The nearest number to `n / d`, or none if that is past the largest one. -/
def ofRatio (n d : Nat) : Option Binary64 :=
  let units := n <<< 1074
  let exponent := (units / d).log2 - 52
  let s := roundDiv units (d <<< exponent)
  let (s, exponent) := if s = 1 <<< 53 then (1 <<< 52, exponent + 1) else (s, exponent)
  if exponent ≤ 2045 then some ⟨false, s, exponent⟩ else none

def neg (x : Binary64) : Binary64 := { x with negative := !x.negative }

def mul (x y : Binary64) : Option Binary64 :=
  ofRatio ((x.significand * y.significand) <<< (x.exponent + y.exponent)) (1 <<< 2148)

def div (x y : Binary64) : Option Binary64 :=
  ofRatio (x.significand <<< x.exponent) (y.significand <<< y.exponent)

def powerOfTen (k : Nat) : Option Binary64 := ofRatio (Nat.pow 10 k) 1

/-- `x * 10 ^ e` by one product or quotient with a rounded power of ten, and before that as many
quotients by `10 ^ 308` as `e` needs. Past the largest number there is no answer. -/
def scaleTen (x : Binary64) (e : Int) : Option Binary64 :=
  if e.natAbs ≤ 308 then do
    let p ← powerOfTen e.natAbs
    if 0 ≤ e then x.mul p else x.div p
  else if x.significand = 0 then some x
  else if 0 ≤ e then none
  else do
    let y ← x.div (← powerOfTen 308)
    scaleTen y (e + 308)
termination_by e.natAbs
decreasing_by omega

end Binary64
end KeyArbiter
