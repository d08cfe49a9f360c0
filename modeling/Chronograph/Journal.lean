import Chronograph.Logger
import Chronograph.Registry

set_option autoImplicit false

/-!
# The journal

Measurements leave records in a journal, each under a logger and at a level. A
logger keeps the records of a positive level that reaches its threshold. Its
threshold is its own level, or, if that is zero, the threshold of its parent, the
nearest logger above it that was mentioned so far, or else a level that stands
above them all. Main statements: what a record adds to a journal, and that it
changes no level.
-/
namespace Chronograph

structure Record where
  logger : Logger
  level : Int
  subject : String
  failedWith : Option String
  elapsed : String
  deriving Repr, DecidableEq

def Record.message (r : Record) : String :=
  match r.failedWith with
  | none => r.subject ++ " took " ++ r.elapsed
  | some kind => r.subject ++ " failed with " ++ kind ++ " after " ++ r.elapsed

namespace Journal

/-- The level of records that name no other, and of a logger that was given none. -/
def ownLevel : Int := 10

def topLevel : Int := 30

end Journal

/-- The levels of the loggers that were mentioned, and the records kept so far,
    oldest first. -/
structure Journal where
  levels : Registry Logger Int := Registry.empty.insert .own Journal.ownLevel
  records : List Record := []
  deriving Repr, DecidableEq

namespace Journal

def level (j : Journal) (l : Logger) : Int := (j.levels.get? l).getD ownLevel

def parent? (j : Journal) (l : Logger) : Option Logger :=
  l.above.find? fun m => (j.levels.get? m).isSome

/-- The first level other than zero on the way up, in at most so many steps. -/
def climb (j : Journal) : Nat → Logger → Int
  | 0, _ => topLevel
  | steps + 1, l => if j.level l = 0 then
      match j.parent? l with
      | none => topLevel
      | some parent => j.climb steps parent
    else j.level l

/-- A parent has a shorter name, so there is no way longer than the name. -/
def threshold (j : Journal) (l : Logger) : Int := j.climb (l.name.length + 1) l

def setLevel (j : Journal) (l : Logger) (level : Int) : Journal :=
  { j with levels := j.levels.insert l level }

/-- A logger has a level from its first mention on. -/
def mention (j : Journal) (l : Logger) : Journal :=
  match j.levels.get? l with
  | some _ => j
  | none => j.setLevel l ownLevel

def keeps (j : Journal) (r : Record) : Bool := 0 < r.level && j.threshold r.logger ≤ r.level

def add (j : Journal) (r : Record) : Journal :=
  if j.keeps r then { j with records := j.records ++ [r] } else j

theorem add_records (j : Journal) (r : Record) :
    (j.add r).records = j.records ++ (if j.keeps r then [r] else []) := by
  unfold add
  split <;> simp

theorem add_levels (j : Journal) (r : Record) : (j.add r).levels = j.levels := by
  unfold add
  split <;> rfl

theorem mention_records (j : Journal) (l : Logger) : (j.mention l).records = j.records := by
  unfold mention
  split <;> rfl

end Journal
end Chronograph
