import Chronograph.Script.Bench

set_option autoImplicit false

/-!
# The live clock

Where no clock is named the live clock is meant: one clock, the same each time.
It stands for the machine's own, of whose readings nothing is promised but that
they never fall; here each reading is one more than the last.
-/
namespace Chronograph.Script

def live : Timepiece := .manual { step := 1 }

def readings : Nat → Timepiece → List Int
  | 0, _ => []
  | n + 1, t => match t.read with
    | (.ok now, t) => now :: readings n t
    | (.error _, t) => readings n t

def neverFalls : List Int → Bool
  | m :: n :: rest => m ≤ n && neverFalls (n :: rest)
  | _ => true

structure Assurance where
  shared : Bool
  real : Bool
  monotonic : Bool
  deriving Repr, DecidableEq

/-- Asks twice for the clock without a name, and takes so many readings of it. -/
def assurance (b : Bench) (reads : Nat) : Assurance where
  shared := b.clockId? none = b.clockId? none
  real := b.clockId? none = some .live
  monotonic := neverFalls (readings reads live)

end Chronograph.Script
