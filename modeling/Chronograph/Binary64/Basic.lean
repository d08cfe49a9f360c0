import Chronograph.Rounding

set_option autoImplicit false

/-!
# Double-precision numbers

A finite double is its sign and its rank: its place, counted from zero, among
the non-negative finite doubles in increasing order. Ranks keep the order of
values, so the rounding of a rational is the choice of a rank. No operation of
the machine is used. Values that are not numbers are one value here.
-/
namespace Chronograph

/-- Doubles with one binary exponent, 2 to the 52nd: the distance between the
    ranks of a normal double and its twofold. -/
def octave : Nat := 4503599627370496

/-- The number of non-negative finite doubles: 2047 octaves. -/
def overflowRank : Nat := 2047 * octave

structure Magnitude where
  rank : Nat
  rank_lt : rank < overflowRank
  deriving DecidableEq

inductive Binary64
  | undefined
  | infinite (negative : Bool)
  | finite (negative : Bool) (magnitude : Magnitude)
  deriving DecidableEq

namespace Magnitude
open Rounding

/-- The number at a rank. The first octave is spaced like the second, so its
    numbers are the multiples of the smallest positive double. -/
def valueAt (rank : Nat) : Rat :=
  if rank < octave then rank * power 2 (-1074)
  else (octave + rank % octave : Nat) * power 2 ((rank / octave : Nat) - 1075)

def value (m : Magnitude) : Rat := valueAt m.rank

def zero : Magnitude := ⟨0, by decide⟩

/-- The rank nearest to `x`, as if no double were the largest; of two that are
    equally near, the even one. Around a positive `x` the doubles are multiples
    of a power of two, and rounding up to the end of an octave gives the first
    rank of the next. -/
def nearestRank (x : Rat) : Nat :=
  if x ≤ 0 then 0
  else
    let e := max (magnitude 2 x - 52) (-1074)
    (halfEven (x / power 2 e) + (e + 1074) * octave).toNat

def nearest? (x : Rat) : Option Magnitude :=
  if h : nearestRank x < overflowRank then some ⟨nearestRank x, h⟩ else none

end Magnitude

namespace Binary64

def value? : Binary64 → Option Rat
  | .finite false m => some m.value
  | .finite true m => some (-m.value)
  | _ => none

/-- The double with the given 64-bit pattern: a sign bit above a rank, where the
    ranks past the finite doubles are infinity and the undefined values. -/
def ofBits (bits : Nat) : Binary64 :=
  let negative : Bool := 2048 * octave ≤ bits
  let rank := bits % (2048 * octave)
  if h : rank < overflowRank then .finite negative ⟨rank, h⟩
  else if rank = overflowRank then .infinite negative
  else .undefined

def quotient? (n : Int) (d : Nat) : Option Binary64 :=
  (Magnitude.nearest? (n.natAbs / d)).map (.finite (n < 0))

end Binary64
end Chronograph
