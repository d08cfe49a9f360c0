import Chronograph.Binary64.Shortest

set_option autoImplicit false

/-!
# Four-digit figures

A figure is a number as it is shown: a sign, a significand of four decimal
digits and the exponent of the first of them. A double is shown by the figure of
its shortest decimal, halves going away from zero; that figure is read back as a
double and it is the digits of this second double that are written. The two
agree except among the smallest doubles, which have fewer than four digits to
give, and at the very top, where the second double is infinite.
-/
namespace Chronograph
open Rounding

inductive Figure
  | undefined
  | infinite (negative : Bool)
  | number (negative : Bool) (significand : Nat) (exponent : Int)
  deriving Repr, DecidableEq

namespace Figure

def value? : Figure → Option Rat
  | number negative significand exponent =>
    let x : Rat := significand * power 10 (exponent - 3)
    some (if negative then -x else x)
  | _ => none

/-- The four digits nearest to the exact value of `m`, ties going to the even
    one. Rounding up to five digits gives the next power of ten. -/
def ofMagnitude (negative : Bool) (m : Magnitude) : Figure :=
  let x := m.value
  if x = 0 then number negative 0 0
  else
    let e := magnitude 10 x
    let digits := (halfEven (x / power 10 (e - 3))).toNat
    if digits = 10000 then number negative 1000 (e + 1) else number negative digits e

def ofDecimal (negative : Bool) (x : Rat) : Figure :=
  match Magnitude.nearest? x with
  | some m => ofMagnitude negative m
  | none => infinite negative

def rounded? (negative : Bool) (m : Magnitude) : Option Figure :=
  if m.rank = 0 then some (ofMagnitude negative m)
  else (quantized? m.shortest (place 4 m.shortest)).map (ofDecimal negative)

def ofBinary64? : Binary64 → Option Figure
  | .undefined => some undefined
  | .infinite _ => none
  | .finite negative m => rounded? negative m

def digits (significand : Nat) : List Char :=
  [significand / 1000 % 10, significand / 100 % 10, significand / 10 % 10, significand % 10].map
    Nat.digitChar

/-- An exponent has a sign and at least two digits. -/
def exponentChars (e : Int) : List Char :=
  let shown := Nat.toDigits 10 e.natAbs
  (if e < 0 then '-' else '+') :: (List.replicate (2 - shown.length) '0' ++ shown)

/-- Positional from a ten-thousandth to below ten thousand, without a point after
    the last digit; with an exponent elsewhere. -/
def unsignedChars (significand : Nat) (exponent : Int) : List Char :=
  let shown := digits significand
  if exponent = 3 then shown
  else if 0 ≤ exponent ∧ exponent < 3 then
    shown.take (exponent.toNat + 1) ++ '.' :: shown.drop (exponent.toNat + 1)
  else if -4 ≤ exponent ∧ exponent < 0 then
    '0' :: '.' :: (List.replicate (-exponent - 1).toNat '0' ++ shown)
  else shown.take 1 ++ '.' :: shown.drop 1 ++ 'e' :: exponentChars exponent

def chars : Figure → List Char
  | undefined => "nan".toList
  | infinite negative => (if negative then ['-'] else []) ++ "inf".toList
  | number negative significand exponent =>
    (if negative then ['-'] else []) ++ unsignedChars significand exponent

def text (f : Figure) : String := String.ofList f.chars

end Figure
end Chronograph
