import Chronograph.Duration
import Chronograph.Fault

set_option autoImplicit false

/-!
# Clocks

A clock is anything that can be read: a reading is a count of nanoseconds or a
fault, and may change the surroundings it is taken in. Nothing is assumed of
successive readings. Two kinds of clock are given by their own state: one that
moves only when told to, and by a step after each reading, and one that gives
the readings of a sequence. Of the first kind it is shown that it cannot be
moved back.
-/
namespace Chronograph

structure Clock (σ : Type) where
  read : σ → Except Fault Int × σ

structure ManualClock where
  now : Int := 0
  step : Nat := 0
  deriving Repr, DecidableEq

namespace ManualClock

def read (c : ManualClock) : Int × ManualClock := (c.now, { c with now := c.now + c.step })

def advance (c : ManualClock) (n : Int) : Except Fault ManualClock :=
  if n < 0 then .error .backwards else .ok { c with now := c.now + n }

def advanceBy (c : ManualClock) (d : Duration) : Except Fault ManualClock :=
  c.advance (d.toMicroseconds * 1000)

def setStep (c : ManualClock) (n : Int) : Except Fault ManualClock :=
  if n < 0 then .error .negativeStep else .ok { c with step := n.toNat }

def make (start step : Int) : Except Fault ManualClock := ({ now := start } : ManualClock).setStep step

theorem le_of_advance {c d : ManualClock} {n : Int} (h : c.advance n = .ok d) : c.now ≤ d.now := by
  unfold advance at h
  split at h
  · cases h
  · cases h
    dsimp only
    omega

theorem le_read (c : ManualClock) : c.now ≤ c.read.2.now := by
  unfold read
  dsimp only
  omega

end ManualClock

structure Tape where
  reading : Nat → Except Fault Int
  taken : Nat := 0

namespace Tape

def read (t : Tape) : Except Fault Int × Tape := (t.reading t.taken, { t with taken := t.taken + 1 })

/-- The listed readings, a missing one being a reading that fails; past the last
    of them all fail. -/
def ofList (readings : List (Option Int)) : Tape where
  reading k := match readings[k]? with
    | some (some n) => .ok n
    | some none => .error .clockFailure
    | none => .error .clockExhausted

end Tape

inductive Timepiece
  | manual (clock : ManualClock)
  | tape (tape : Tape)

namespace Timepiece

def read : Timepiece → Except Fault Int × Timepiece
  | manual c => (.ok c.read.1, manual c.read.2)
  | tape t => (t.read.1, tape t.read.2)

inductive Command
  | read
  | advance (n : Int)
  | advanceBy (days seconds microseconds : Int)
  | step
  | setStep (n : Int)
  deriving Repr, DecidableEq

def adjust (t : Timepiece) (change : ManualClock → Except Fault ManualClock) :
    Except Fault (Option Int) × Timepiece :=
  match t with
  | manual c => match change c with
    | .ok c => (.ok none, manual c)
    | .error e => (.error e, t)
  | tape _ => (.error .notOffered, t)

/-- The count that answers a command, if it is answered by one. -/
def command (t : Timepiece) : Command → Except Fault (Option Int) × Timepiece
  | .read => match t.read with
    | (.ok n, t) => (.ok (some n), t)
    | (.error e, t) => (.error e, t)
  | .advance n => t.adjust (·.advance n)
  | .advanceBy days seconds microseconds =>
    match Duration.ofParts? days seconds microseconds with
    | some d => t.adjust (·.advanceBy d)
    | none => (.error .overflow, t)
  | .step => match t with
    | manual c => (.ok (some c.step), t)
    | tape _ => (.error .notOffered, t)
  | .setStep n => t.adjust (·.setStep n)

theorem adjust_refused {c : ManualClock} (change : ManualClock → Except Fault ManualClock) {e : Fault}
    (h : change c = .error e) : (manual c).adjust change = (.error e, manual c) := by
  simp only [adjust, h]

theorem adjust_accepted {c d : ManualClock} (change : ManualClock → Except Fault ManualClock)
    (h : change c = .ok d) : (manual c).adjust change = (.ok none, manual d) := by
  simp only [adjust, h]

end Timepiece
end Chronograph
