set_option autoImplicit false

/-!
# Rounding of rational numbers

Orders of magnitude to a base, rounding to an integer with either rule for
halves, and rounding to a decimal place, which fails where the decimal would
be too long. All is exact arithmetic on `Rat`; nothing here knows about machine
numbers.
-/
namespace Chronograph.Rounding

def divisions (b : Nat) : Nat → Nat → Nat
  | 0, _ => 0
  | fuel + 1, n => if n < b then 0 else divisions b fuel (n / b) + 1

/-- Exponent of the largest power of `b` that is at most `n`. No base halves a
    number more often than two does, so the binary length is fuel enough. -/
def wholeLog (b n : Nat) : Nat := divisions b n.log2 n

def coverLog (b n : Nat) : Nat := if n ≤ 1 then 0 else wholeLog b (n - 1) + 1

/-- Exponent of the largest power of `b` that is at most the positive `x`. -/
def magnitude (b : Nat) (x : Rat) : Int :=
  if 1 ≤ x then wholeLog b x.floor.toNat else -coverLog b x⁻¹.ceil.toNat

def power (b : Nat) (e : Int) : Rat := (b : Rat) ^ e

/-- The nearest integer; of two that are equally near, the even one. -/
def halfEven (x : Rat) : Int :=
  let below := x.floor
  let rest := x - below
  if rest < 1 / 2 then below
  else if 1 / 2 < rest then below + 1
  else if below % 2 = 0 then below else below + 1

/-- The nearest integer; of two that are equally near, the larger one. -/
def halfUp (x : Rat) : Int := (x + 1 / 2).floor

def place (digits : Nat) (x : Rat) : Rat := power 10 (magnitude 10 x - digits + 1)

/-- Above the significands of decimals, which have at most 28 digits. -/
def significandBound : Int := 10000000000000000000000000000

/-- The multiple of `unit` nearest to the positive `x`, halves going up, unless
    it takes more digits than a decimal may have. -/
def quantized? (x unit : Rat) : Option Rat :=
  let n := halfUp (x / unit)
  if n < significandBound then some (n * unit) else none

end Chronograph.Rounding
