import Chronograph.Script.Answer
import Chronograph.Stopwatch.Held

set_option autoImplicit false

/-!
# The bench

A bench holds clocks and stopwatches under names. A name can be given again: the
earlier thing stays on the bench, and whatever uses it goes on to do so. An
operation makes a clock or a watch, or asks something of one. Main statements:
reading a clock leaves every watch alone, so a watch on the bench is held
lawfully.
-/
namespace Chronograph.Script

/-- The live clock, or the clock that was the given one of its name. -/
inductive ClockId
  | live
  | named (name : String) (version : Nat)
  deriving Repr, DecidableEq

structure WatchId where
  name : String
  version : Nat
  deriving Repr, DecidableEq

def ClockId.label : ClockId → String
  | live => "system"
  | named name _ => name

/-- Everything ever made, with the latest version of each name. -/
structure Bench where
  clocks : Registry ClockId Timepiece := {}
  watches : Registry WatchId (ClockId × Stopwatch) := {}
  clockVersions : Registry String Nat := {}
  watchVersions : Registry String Nat := {}

/-- What can be asked of a bench. A clock without a name is the live one. -/
inductive Operation
  | makeClock (name : String) (start step : Int)
  | makeTape (name : String) (tape : Tape)
  | clock (name : String) (command : Timepiece.Command)
  | makeWatch (name : String) (clock : Option String) (running : Bool)
  | watch (name : String) (command : Stopwatch.Command)
  /-- The whole units of a unit that is given by name. -/
  | elapsedIn (watch unit : String)
  | clockOf (watch : String)

namespace Bench

def nextVersion (versions : Registry String Nat) (name : String) : Nat :=
  match versions.get? name with
  | some version => version + 1
  | none => 0

def clockId? (b : Bench) : Option String → Option ClockId
  | none => some .live
  | some name => (b.clockVersions.get? name).map (.named name)

def watchId? (b : Bench) (name : String) : Option WatchId :=
  (b.watchVersions.get? name).map (⟨name, ·⟩)

def addClock (b : Bench) (name : String) (t : Timepiece) : Bench :=
  let version := nextVersion b.clockVersions name
  { b with
    clocks := b.clocks.insert (.named name version) t
    clockVersions := b.clockVersions.insert name version }

def addWatch (b : Bench) (name : String) (clock : ClockId) (w : Stopwatch) : Bench :=
  let version := nextVersion b.watchVersions name
  { b with
    watches := b.watches.insert ⟨name, version⟩ (clock, w)
    watchVersions := b.watchVersions.insert name version }

def onClock {α : Type} (b : Bench) (id : ClockId)
    (f : Timepiece → Except Fault α × Timepiece) : Except Fault α × Bench :=
  match b.clocks.get? id with
  | none => (.error .unknownName, b)
  | some t => match f t with
    | (r, t) => (r, { b with clocks := b.clocks.insert id t })

theorem onClock_watches {α : Type} (b : Bench) (id : ClockId)
    (f : Timepiece → Except Fault α × Timepiece) : (b.onClock id f).2.watches = b.watches := by
  unfold onClock
  cases b.clocks.get? id <;> rfl

def clock (id : ClockId) : Clock Bench := ⟨fun b => b.onClock id Timepiece.read⟩

/-- The watch in its place, with the clock that it was made for. -/
def held (id : WatchId) (clockId : ClockId) : Held Bench where
  clock := clock clockId
  get b := match b.watches.get? id with
    | some (_, w) => w
    | none => {}
  set w b := { b with watches := b.watches.insert id (clockId, w) }

def clockIdOf? (b : Bench) (id : WatchId) : Option ClockId := (b.watches.get? id).map Prod.fst

def held? (b : Bench) (name : String) : Option (Held Bench) :=
  (b.watchId? name).bind fun id => (b.clockIdOf? id).map (held id)

theorem held_lawful (id : WatchId) (clockId : ClockId) : (held id clockId).Lawful where
  get_set w b := by simp [held]
  get_read b := by simp [held, clock, onClock_watches]

def ask (b : Bench) (name : String) (c : Stopwatch.Command) : Except Fault Reply × Bench :=
  match b.held? name with
  | none => (.error .unknownName, b)
  | some h => match h.command c b with
    | (.ok .done, b) => (.ok (.state (h.get b).state), b)
    | (.ok report, b) => (.ok (.ofReport report), b)
    | (.error e, b) => (.error e, b)

def makeWatch (b : Bench) (name : String) (clockId : ClockId) (running : Bool) :
    Except Fault Reply × Bench :=
  let w : Stopwatch := {}
  if running then match w.start (clock clockId) b with
    | (.ok _, w, b) => (.ok (.state w.state), b.addWatch name clockId w)
    | (.error e, _, b) => (.error e, b)
  else (.ok (.state w.state), b.addWatch name clockId w)

def perform (b : Bench) : Operation → Except Fault Reply × Bench
  | .makeClock name start step => match ManualClock.make start step with
    | .ok c => (.ok .done, b.addClock name (.manual c))
    | .error e => (.error e, b)
  | .makeTape name t => (.ok .done, b.addClock name (.tape t))
  | .clock name c => match b.clockId? (some name) with
    | none => (.error .unknownName, b)
    | some id => match b.onClock id (·.command c) with
      | (.ok (some n), b) => (.ok (.count n), b)
      | (.ok none, b) => (.ok .done, b)
      | (.error e, b) => (.error e, b)
  | .makeWatch name clockName running => match b.clockId? clockName with
    | none => (.error .unknownName, b)
    | some id => b.makeWatch name id running
  | .watch name c => b.ask name c
  | .elapsedIn name unit => match TimeUnit.ofName? unit with
    | none => (.error (.unknownUnit unit), b)
    | some u => b.ask name (.query (.whole u))
  | .clockOf name => match (b.watchId? name).bind b.clockIdOf? with
    | none => (.error .unknownName, b)
    | some id => (.ok (.text id.label), b)

end Bench
end Chronograph.Script
