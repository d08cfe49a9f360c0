import Chronograph.Measurement
import Chronograph.Script.Value

set_option autoImplicit false

/-!
# Answers

Each step of a script that is run leaves an answer. A step that runs a body
holds the answers of the body's steps, as far as these were run.
-/
namespace Chronograph.Script

abbrev Result := Reported Value

/-- Results are the same when they hold the same value after the same time, or
    the one failure. -/
def Result.same : Result → Result → Bool
  | .count m, .count n => m == n
  | .timed (.value m a), .timed (.value n b) => m == n && a.same b
  | .timed (.failure m f), .timed (.failure n g) => m == n && f.serial == g.serial
  | _, _ => false

inductive Reply
  | done
  | count (n : Int)
  | text (text : String)
  | duration (d : Duration)
  /-- The state that a watch was put in. -/
  | state (state : State)
  /-- The state that a watch was found in. -/
  | status (state : State)
  | flag (b : Bool)
  | value (v : Value)
  /-- A result; the times on a live clock are not told. -/
  | measured (r : Result) (live : Bool)

def Reply.ofReport : Stopwatch.Report → Reply
  | .done => .done
  | .state s => .status s
  | .count n => .count n
  | .duration d => .duration d
  | .text t => .text t

inductive Ending
  | replied (r : Reply)
  /-- With a failure or an interrupt; `again` if it had been captured before. -/
  | failed (e : Raised) (again : Bool)
  | caught (e : Fault)
  | left

inductive Answer
  | plain (ending : Ending)
  | nested (body : List Answer) (ending : Ending)

end Chronograph.Script
