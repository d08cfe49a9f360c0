import Chronograph.Stopwatch
import Chronograph.Task

set_option autoImplicit false

/-!
# Measurements

A routine is a task with a name. It can be measured in four ways, each with a
fresh stopwatch that is started before it. Two let a failure of the routine
through and two capture it together with the time it took; the last of them
stops its watch before it asks for the time. What was measured is entered in the
journal; the entry is made up before its level is looked at, so a time that
cannot be shown makes the measurement fail in any case. A logged routine wraps
another: it enters each run of that and otherwise ends as it did. Interrupts are
neither captured nor entered.
-/
namespace Chronograph

/-- A task with the title that it has in the journal. One without a title is
    entered under its description. -/
structure Routine (σ α : Type) where
  title : Option String
  description : String
  run : Task σ α

inductive Timed (α : Type)
  | value (nanos : Int) (a : α)
  | failure (nanos : Int) (f : Failure)
  deriving Repr, DecidableEq

namespace Timed
variable {σ α : Type}

def nanos : Timed α → Int
  | value n _ => n
  | failure n _ => n

def succeeded : Timed α → Bool
  | value _ _ => true
  | failure _ _ => false

def duration (t : Timed α) : Except Fault Duration := Elapsed.duration t.nanos

def unwrap : Timed α → Task σ α
  | value _ a => pure a
  | failure _ f => Task.settle (.error (.failure f))

end Timed

structure Entry where
  logger : Logger := .own
  level : Int := Journal.ownLevel
  deriving Repr, DecidableEq

namespace Measurement
variable {σ α : Type}

def started (c : Clock σ) : Task σ Stopwatch := Task.act fun s =>
  match ({} : Stopwatch).start c s with
  | (.ok _, w, s) => (.ok w, s)
  | (.error e, _, s) => (.error e, s)

def elapsed (c : Clock σ) (w : Stopwatch) : Task σ Int := Task.act (w.elapsed c)

/-- Stops the watch, and gives it back also if that failed. -/
def stopping (c : Clock σ) (w : Stopwatch) : Task σ (Except Failure Unit × Stopwatch) := fun world =>
  match w.stop c world.setting with
  | (.ok _, w, s) => (.ok (.ok (), w), { world with setting := s })
  | (.error e, w, s) => match Task.occurrence e { world with setting := s } with
    | (f, world) => (.ok (.error f, w), world)

/-- Enters a run in the journal. A subject that is missing, then a time that
    cannot be shown, is a failure. -/
def enter (entry : Entry) (subject : Option String) (failedWith : Option Fault) (nanos : Int) :
    Task σ Unit :=
  match subject with
  | none => Task.fail .notOffered
  | some subject => match Elapsed.text nanos with
    | .error e => Task.fail e
    | .ok elapsed => Task.write fun j =>
      j.add ⟨entry.logger, entry.level, subject, failedWith.map Fault.kind, elapsed⟩

end Measurement

namespace Routine
open Measurement
variable {σ α : Type}

def name (r : Routine σ α) : String :=
  match r.title with
  | none => r.description
  | some title => if title = "" then r.description else title

def concluded (r : Routine σ α) (c : Clock σ) (w : Stopwatch) (a : α) : Task σ (Timed α) := do
  let n ← elapsed c w
  enter {} (some r.name) none n
  return .value n a

def abandoned (r : Routine σ α) (c : Clock σ) (w : Stopwatch) (f : Failure) :
    Task σ (Timed α) := do
  let n ← elapsed c w
  enter {} (some r.name) (some f.fault) n
  return .failure n f

def duration (r : Routine σ α) (c : Clock σ) : Task σ Int := do
  let w ← started c
  let _ ← r.run
  let n ← elapsed c w
  enter {} (some r.name) none n
  return n

def valued (r : Routine σ α) (c : Clock σ) : Task σ (Timed α) := do
  let w ← started c
  let a ← r.run
  r.concluded c w a

def captured (r : Routine σ α) (c : Clock σ) : Task σ (Timed α) := do
  let w ← started c
  match ← r.run.attempt with
  | .ok a => r.concluded c w a
  | .error f => r.abandoned c w f

/-- The same, with the watch stopped before it is asked. A watch that fails to
    stop stands all the same, and its failure is captured as the routine's. -/
def capturedStopped (r : Routine σ α) (c : Clock σ) : Task σ (Timed α) := do
  let w ← started c
  match ← r.run.attempt with
  | .error f => r.abandoned c w f
  | .ok a => match ← stopping c w with
    | (.ok _, w) => r.concluded c w a
    | (.error f, w) => r.abandoned c w f

def wrapperTitle : String := "timed.<locals>.decorator.<locals>.wrapper"

/-- The wrapper enters each run under the title of the routine, which must not be
    missing but may be empty. It takes that title over; its description is its own. -/
def logged (r : Routine σ α) (c : Clock σ) (entry : Entry) (address : String) : Routine σ α where
  title := some (r.title.getD wrapperTitle)
  description := "<function " ++ r.title.getD wrapperTitle ++ " at " ++ address ++ ">"
  run := do
    let w ← started c
    match ← r.run.attempt with
    | .ok a =>
      let n ← elapsed c w
      enter entry r.title none n
      return a
    | .error f =>
      let n ← elapsed c w
      enter entry r.title (some f.fault) n
      Task.settle (.error (.failure f))

@[simp] theorem logged_title (r : Routine σ α) (c : Clock σ) (entry : Entry) (address : String) :
    (r.logged c entry address).title = some (r.title.getD wrapperTitle) := rfl

@[simp] theorem logged_description (r : Routine σ α) (c : Clock σ) (entry : Entry) (address : String) :
    (r.logged c entry address).description =
      "<function " ++ r.title.getD wrapperTitle ++ " at " ++ address ++ ">" := rfl

end Routine

inductive Method
  | duration | valued | captured | capturedStopped
  deriving Repr, DecidableEq

inductive Reported (α : Type)
  | count (n : Int)
  | timed (t : Timed α)

def Method.measure {σ α : Type} (r : Routine σ α) (c : Clock σ) : Method → Task σ (Reported α)
  | .duration => do return .count (← r.duration c)
  | .valued => do return .timed (← r.valued c)
  | .captured => do return .timed (← r.captured c)
  | .capturedStopped => do return .timed (← r.capturedStopped c)

end Chronograph
