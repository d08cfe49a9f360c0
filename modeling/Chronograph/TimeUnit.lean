set_option autoImplicit false

/-!
# Units of time

The units of a count of nanoseconds, from the nanosecond to the day. A count
holds whole units, counted toward zero. A positive count is shown in the
longest unit of which it holds at least one.
-/
namespace Chronograph

inductive TimeUnit
  | nanoseconds | microseconds | milliseconds | seconds | minutes | hours | days
  deriving Repr, DecidableEq

namespace TimeUnit

def all : List TimeUnit := [nanoseconds, microseconds, milliseconds, seconds, minutes, hours, days]

def nanos : TimeUnit → Nat
  | nanoseconds => 1
  | microseconds => 1000
  | milliseconds => 1000000
  | seconds => 1000000000
  | minutes => 60 * 1000000000
  | hours => 60 * 60 * 1000000000
  | days => 24 * 60 * 60 * 1000000000

def abbreviation : TimeUnit → String
  | nanoseconds => "ns"
  | microseconds => "μs"
  | milliseconds => "ms"
  | seconds => "s"
  | minutes => "min"
  | hours => "h"
  | days => "d"

def name : TimeUnit → String
  | nanoseconds => "NANOSECONDS"
  | microseconds => "MICROSECONDS"
  | milliseconds => "MILLISECONDS"
  | seconds => "SECONDS"
  | minutes => "MINUTES"
  | hours => "HOURS"
  | days => "DAYS"

def ofName? (name : String) : Option TimeUnit := all.find? fun u => u.name = name

def ofNanos? (n : Int) : Option TimeUnit := all.find? fun u => u.nanos = n

/-- The whole units in a count of nanoseconds, counted toward zero. -/
def whole (u : TimeUnit) (n : Int) : Int := n.tdiv u.nanos

/-- The longest unit of which the count holds at least one; a count that is not
    positive is shown in nanoseconds. -/
def suited (n : Int) : TimeUnit := (all.reverse.find? fun u => 0 < u.whole n).getD nanoseconds

theorem nanos_pos (u : TimeUnit) : 0 < u.nanos := by cases u <;> decide

theorem ofName?_name (u : TimeUnit) : ofName? u.name = some u := by cases u <;> decide

theorem ofNanos?_nanos (u : TimeUnit) : ofNanos? u.nanos = some u := by cases u <;> decide

end TimeUnit
end Chronograph
