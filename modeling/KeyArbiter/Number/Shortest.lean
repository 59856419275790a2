import KeyArbiter.Number.Binary64
import KeyArbiter.Text.Numeral

/-!
# Shortest decimal text of a float

The fewest digits that read back as the same number, and among those the nearest to it.
-/

namespace KeyArbiter.Binary64

open Text

/-- `digits * 10 ^ power`. -/
structure Decimal where
  digits : Nat
  power : Int

/-- `c * 10 ^ p` compared with `n / 2 ^ 1076`, as two naturals in the same unit. -/
def crossed (c : Nat) (p : Int) (n : Nat) : Nat × Nat :=
  if 0 ≤ p then ((c * Nat.pow 10 p.natAbs) <<< 1076, n) else (c <<< 1076, n * Nat.pow 10 p.natAbs)

/-- `c * 10 ^ p` rounds to the magnitude of `x`: it lies no further away than half the gap to the
next number, the ends counting if the significand is even. -/
def roundsTo (x : Binary64) (c : Nat) (p : Int) : Bool :=
  let below := if x.significand = 1 <<< 52 ∧ 0 < x.exponent then 1 else 2
  let low := (4 * x.significand - below) <<< x.exponent
  let high := (4 * x.significand + 2) <<< x.exponent
  let (a, l) := crossed c p low
  let (b, h) := crossed c p high
  if x.significand % 2 = 0 then l ≤ a && b ≤ h else l < a && b < h

/-- The power of ten just above the magnitude: `10 ^ (k - 1) ≤ x < 10 ^ k`. -/
def decimalPoint (x : Binary64) : Int :=
  (digitsOf 10 (((x.significand * Nat.pow 10 400) <<< x.exponent) >>> 1074)).length - 400

/-- The better of the two neighbours of `x` on the grid of `n` digits, if one reads back. -/
def onGrid (x : Binary64) (n : Nat) : Option Decimal :=
  let p := decimalPoint x - n
  let (unit, v) := crossed 1 p ((4 * x.significand) <<< x.exponent)
  let c := v / unit
  match roundsTo x c p, roundsTo x (c + 1) p with
  | false, false => none
  | true, false => some ⟨c, p⟩
  | false, true => some ⟨c + 1, p⟩
  | true, true =>
    let twice := 2 * (v % unit)
    if twice < unit ∨ (twice = unit ∧ c % 2 = 0) then some ⟨c, p⟩ else some ⟨c + 1, p⟩

/-- Moves trailing zeros from the digits to the power. -/
def Decimal.strip (d : Decimal) : Decimal :=
  if d.digits ≠ 0 ∧ d.digits % 10 = 0 then strip ⟨d.digits / 10, d.power + 1⟩ else d
termination_by d.digits
decreasing_by exact Nat.div_lt_self (by omega) (by omega)

def shortest (x : Binary64) : Decimal :=
  if x.significand = 0 then ⟨0, 0⟩
  else
    match ((List.range 17).map (· + 1)).findSome? (onGrid x) with
    | some d => d.strip
    | none => ⟨0, 0⟩

/-- Positional with a fraction for exponents from -5 to 15; elsewhere one digit before the point,
and an exponent with a sign. -/
def text (x : Binary64) : String :=
  let d := x.shortest
  let ds := digitsOf 10 d.digits |>.map Nat.digitChar
  let point := ds.length + d.power
  let exponent := point - 1
  let body : List Char :=
    if d.digits = 0 then ['0', '.', '0']
    else if -5 ≤ exponent ∧ exponent ≤ 15 then
      if 0 ≤ d.power then ds ++ List.replicate d.power.toNat '0' ++ ['.', '0']
      else if 0 < point then ds.take point.toNat ++ ['.'] ++ ds.drop point.toNat
      else ['0', '.'] ++ List.replicate (-point).toNat '0' ++ ds
    else
      let fraction := if ds.length = 1 then [] else '.' :: ds.drop 1
      let es := (digitsOf 10 exponent.natAbs).map Nat.digitChar
      ds.take 1 ++ fraction ++ ['e', if exponent < 0 then '-' else '+'] ++ es
  String.ofList (if x.negative then '-' :: body else body)

end KeyArbiter.Binary64
