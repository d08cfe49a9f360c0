import Chronograph.Fault
import Chronograph.Journal

set_option autoImplicit false

/-!
# Tasks

A task runs in a world, made of surroundings of any kind, a journal, and the
number of failures that arose so far. It ends in a value, a failure or an
interrupt, and always leaves a world. A failure is told from every other by its
serial number, which it gets when it arises and keeps wherever it is caught and
raised again.
-/
namespace Chronograph

structure Failure where
  serial : Nat
  fault : Fault
  deriving Repr, DecidableEq

inductive Raised
  | failure (f : Failure)
  | interrupt (i : Interrupt)
  deriving Repr, DecidableEq

structure World (σ : Type) where
  setting : σ
  journal : Journal := {}
  raised : Nat := 0

def Task (σ α : Type) := World σ → Except Raised α × World σ

namespace Task
variable {σ α β : Type}

instance : Monad (Task σ) where
  pure a := fun w => (.ok a, w)
  bind t next := fun w => match t w with
    | (.ok a, w) => next a w
    | (.error e, w) => (.error e, w)

def occurrence (e : Fault) (w : World σ) : Failure × World σ :=
  (⟨w.raised, e⟩, { w with raised := w.raised + 1 })

def fail (e : Fault) : Task σ α := fun w =>
  match occurrence e w with
  | (f, w) => (.error (.failure f), w)

def interrupt (i : Interrupt) : Task σ α := fun w => (.error (.interrupt i), w)

/-- Ends as `outcome` did. -/
def settle (outcome : Except Raised α) : Task σ α := fun w => (outcome, w)

def outcome (t : Task σ α) : Task σ (Except Raised α) := fun w =>
  match t w with
  | (r, w) => (.ok r, w)

/-- Whether `t` failed. Interrupts are not caught. -/
def attempt (t : Task σ α) : Task σ (Except Failure α) := fun w =>
  match t w with
  | (.ok a, w) => (.ok (.ok a), w)
  | (.error (.failure f), w) => (.ok (.error f), w)
  | (.error (.interrupt i), w) => (.error (.interrupt i), w)

def act (f : σ → Except Fault α × σ) : Task σ α := fun w =>
  match f w.setting with
  | (.ok a, s) => (.ok a, { w with setting := s })
  | (.error e, s) => fail e { w with setting := s }

def view (f : σ → α) : Task σ α := fun w => (.ok (f w.setting), w)

def change (f : σ → σ) : Task σ Unit := fun w => (.ok (), { w with setting := f w.setting })

def write (f : Journal → Journal) : Task σ Unit := fun w =>
  (.ok (), { w with journal := f w.journal })

theorem bind_ok {t : Task σ α} {w v : World σ} {a : α} (next : α → Task σ β)
    (h : t w = (.ok a, v)) : (t >>= next) w = next a v := by
  change (match t w with
    | (.ok a, w) => next a w
    | (.error e, w) => (.error e, w)) = _
  rw [h]

theorem bind_error {t : Task σ α} {w v : World σ} {e : Raised} (next : α → Task σ β)
    (h : t w = (.error e, v)) : (t >>= next) w = (.error e, v) := by
  change (match t w with
    | (.ok a, w) => next a w
    | (.error e, w) => (.error e, w)) = _
  rw [h]

end Task
end Chronograph
