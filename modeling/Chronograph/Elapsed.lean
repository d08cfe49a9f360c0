import Chronograph.Duration
import Chronograph.Fault
import Chronograph.Figure
import Chronograph.TimeUnit

set_option autoImplicit false

/-!
# Counts of nanoseconds, shown

A count is shown as four digits of its quotient by the unit that suits it, and
as a calendar duration of the microseconds that it holds, counted downward. Both
fail for counts that are too large.
-/
namespace Chronograph.Elapsed

def quotient (n : Int) : Except Fault Binary64 :=
  match Binary64.quotient? n (TimeUnit.suited n).nanos with
  | some x => .ok x
  | none => .error .overflow

def figureOf (x : Binary64) : Except Fault Figure :=
  match Figure.ofBinary64? x with
  | some f => .ok f
  | none => .error .infiniteFigure

def figure (n : Int) : Except Fault Figure :=
  match quotient n with
  | .ok x => figureOf x
  | .error e => .error e

def text (n : Int) : Except Fault String :=
  match figure n with
  | .ok f => .ok (f.text ++ " " ++ (TimeUnit.suited n).abbreviation)
  | .error e => .error e

def duration (n : Int) : Except Fault Duration :=
  match Duration.ofMicroseconds? (n / 1000) with
  | some d => .ok d
  | none => .error .overflow

end Chronograph.Elapsed
