import Mathlib
import Chronograph.Proofs.Measurement.Method

set_option autoImplicit false

/-!
# Rounds

A round is one call of a callable by a measurement or by a logged call: from the
reading before the callable to the reading after it, if there is one. Either
reading may fail. What is entered of the call is told by the round alone; the
call leaves the journal that the callable left, with that record, and around it
what the second reading left. The level of the record is not looked at before
the record is made up.
-/
namespace Chronograph
variable {σ α V : Type}

/-- What calls a callable: a measurement under a name, or a logged call under a title. -/
inductive Caller
  | measured (method : Method) (name : String)
  | logged (entry : Entry) (title : Option String)
  deriving Repr, DecidableEq

namespace Caller

def entry : Caller → Entry
  | measured _ _ => {}
  | logged entry _ => entry

def subject : Caller → Option String
  | measured _ name => some name
  | logged _ title => title

def enters : Caller → Bool
  | measured method _ => method.captures
  | logged _ _ => true

/-- Whether the watch is stopped before it is asked, so that a reading that fails then
    is captured as if the callable had failed, in no time. -/
def stops : Caller → Bool
  | measured method _ => method = .capturedStopped
  | logged _ _ => false

def rereads (c : Caller) : Except Raised V → Bool
  | .ok _ => true
  | .error (.failure _) => c.enters
  | .error (.interrupt _) => false

/-- How the callable counts as ended, and after what time, if this is known. -/
def verdict (c : Caller) (first : ℤ) : Except Raised V → Except Fault ℤ → Option (Option Fault × ℤ)
  | .ok _, .ok last => some (none, last - first)
  | .ok _, .error e => if c.stops then some (some e, 0) else none
  | .error (.failure f), .ok last => some (some f.fault, last - first)
  | .error _, _ => none

end Caller

namespace Entry

def record? (entry : Entry) (subject : Option String) (failedWith : Option Fault) (n : ℤ) :
    Option Record :=
  subject.bind fun subject => (Elapsed.text n).toOption.map fun text =>
    ⟨entry.logger, entry.level, subject, failedWith.map Fault.kind, text⟩

end Entry

def Caller.record? (c : Caller) (first : ℤ) (ending : Except Raised V) (last : Except Fault ℤ) :
    Option Record :=
  (c.verdict first ending last).bind fun v => c.entry.record? c.subject v.1 v.2

def Journal.receive (j : Journal) : Option Record → Journal
  | some r => j.add r
  | none => j

/-- What a call gives of its callable: the time, if it tells one, and the failure, as a
    result or as its own. -/
structure Given where
  nanos : Option ℤ := none
  failure : Option Failure := none
  deriving Repr, DecidableEq

namespace Given

def ofEnding : Except Raised V → Given
  | .error (.failure f) => { failure := some f }
  | _ => {}

def ofReported : Except Raised (Reported V) → Given
  | .ok (.timed (.failure n f)) => ⟨some n, some f⟩
  | .ok reported => { nanos := some reported.nanos }
  | .error e => ofEnding (.error e : Except Raised V)

end Given

def Caller.given (n : ℤ) (ending : Except Raised V) : Caller → Given
  | measured _ _ => { Given.ofEnding ending with nanos := some n }
  | logged _ _ => Given.ofEnding ending

/-- A call of a callable that was run: who called it, how it ended, the readings before
    and after it, and what the call gave. -/
structure Round (V : Type) where
  caller : Caller
  first : ℤ
  ending : Except Raised V
  last : Option (Except Fault ℤ)
  given : Given

namespace Round

def record? (r : Round V) : Option Record := r.last.bind (r.caller.record? r.first r.ending)

/-- The clock is read again where it should be, and the call gives what the callable did. -/
structure Faithful (r : Round V) : Prop where
  last : r.last.isSome = r.caller.rereads r.ending
  given : ∀ last text, r.last = some (.ok last) → r.caller.subject.isSome = true →
    Elapsed.text (last - r.first) = .ok text → r.given = r.caller.given (last - r.first) r.ending

end Round

namespace Measurement
open Chronograph.Task
variable {c : Clock σ} {r : Routine σ V} {v w : World σ} {first : ℤ} {e : Fault}
  {ending : Except Raised V} {address : String}

theorem entered_left (entry : Entry) (subject : Option String) (failedWith : Option Fault) (n : ℤ)
    (outcome : Except Raised α) (w : World σ) :
    (entered entry subject failedWith n outcome w).2.setting = w.setting ∧
      (entered entry subject failedWith n outcome w).2.journal =
        w.journal.receive (entry.record? subject failedWith n) := by
  unfold entered enter Entry.record?
  cases subject with
  | none => exact ⟨rfl, rfl⟩
  | some subject =>
    cases ht : Elapsed.text n with
    | error e => exact ⟨rfl, rfl⟩
    | ok text => exact ⟨rfl, rfl⟩

/-- The end of a measurement whose second reading failed: the failure of the clock is
    captured only by a watch that is stopped first. -/
def finishUnread (m : Method) (name : String) (e : Fault) (ending : Except Raised V)
    (v after : World σ) : Except Raised (Reported V) × World σ :=
  match ending with
  | .ok _ => if m = .capturedStopped then
      entered {} (some name) (some e) 0 (.ok (.timed (.failure 0 (occurrence e after).1)))
        (occurrence e after).2
    else Task.fail e after
  | .error (.failure f) => if m.captures then Task.fail e after else (.error (.failure f), v)
  | .error (.interrupt i) => (.error (.interrupt i), v)

theorem measure_eq_unread (m : Method) (hstart : (c.read w.setting).1 = .ok first)
    (hrun : r.run (c.after w) = (ending, v)) (hlast : (c.read v.setting).1 = .error e) :
    m.measure r c w = finishUnread m r.name e ending v (c.after v) := by
  have hstarted := started_eq hstart
  have helapsed : elapsed c ⟨.running, 0, first⟩ v = Task.fail e (c.after v) := elapsed_unread hlast
  unfold Method.measure
  rcases ending with (f | i) | a
  · cases m with
    | duration => exact bind_error _ (Routine.raised_uncaptured hstart hrun).1
    | valued => exact bind_error _ (Routine.raised_uncaptured hstart hrun).2
    | captured => exact bind_error _ (Routine.captures_unread hstart hrun hlast).1
    | capturedStopped => exact bind_error _ (Routine.captures_unread hstart hrun hlast).2
  · cases m with
    | duration => exact bind_error _ (Routine.raised_uncaptured hstart hrun).1
    | valued => exact bind_error _ (Routine.raised_uncaptured hstart hrun).2
    | captured => exact bind_error _ (Routine.interrupt_uncaptured hstart hrun).1
    | capturedStopped => exact bind_error _ (Routine.interrupt_uncaptured hstart hrun).2
  · cases m with
    | duration =>
      refine bind_error _ ((bind_ok _ hstarted).trans ?_)
      exact (bind_ok _ hrun).trans (bind_error _ helapsed)
    | valued =>
      refine bind_error _ ((bind_ok _ hstarted).trans ?_)
      exact (bind_ok _ hrun).trans (bind_error _ helapsed)
    | captured => exact bind_error _ (Routine.captured_unread hstart hrun hlast)
    | capturedStopped => exact map_recorded (Routine.capturedStopped_unread hstart hrun hlast)

theorem logged_eq_unread (entry : Entry) (hstart : (c.read w.setting).1 = .ok first)
    (hrun : r.run (c.after w) = (ending, v)) (hlast : (c.read v.setting).1 = .error e) :
    (r.logged c entry address).run w = match ending with
      | .error (.interrupt i) => (.error (.interrupt i), v)
      | _ => Task.fail e (c.after v) := by
  have helapsed : elapsed c ⟨.running, 0, first⟩ v = Task.fail e (c.after v) := elapsed_unread hlast
  unfold Routine.logged
  dsimp only
  rw [bind_ok _ (started_eq hstart)]
  rcases ending with (f | i) | a
  · exact (bind_ok _ (attempt_failure hrun)).trans (bind_error _ helapsed)
  · exact bind_error _ (attempt_interrupt hrun)
  · exact (bind_ok _ (attempt_value hrun)).trans (bind_error _ helapsed)

/-- The task runs the routine between two readings of the clock, either of which may
    fail, and leaves what the readings left and the record of the round. Where a record
    is made up, the task gives what the callable did. -/
structure Encloses (c : Clock σ) (r : Routine σ V) (caller : Caller) (given : Except Raised α → Given)
    (t : Task σ α) : Prop where
  unread : ∀ w e, (c.read w.setting).1 = .error e → t w = Task.fail e (c.after w)
  unclosed : ∀ w first ending v, (c.read w.setting).1 = .ok first → r.run (c.after w) = (ending, v) →
    caller.rereads ending = false → (t w).2 = v
  closed : ∀ w first ending v, (c.read w.setting).1 = .ok first → r.run (c.after w) = (ending, v) →
    caller.rereads ending = true → (t w).2.setting = (c.after v).setting ∧
      (t w).2.journal = v.journal.receive (caller.record? first ending (c.read v.setting).1)
  given : ∀ w first ending v last text, (c.read w.setting).1 = .ok first →
    r.run (c.after w) = (ending, v) → caller.rereads ending = true →
      (c.read v.setting).1 = .ok last → caller.subject.isSome = true →
        Elapsed.text (last - first) = .ok text → given (t w).1 = caller.given (last - first) ending

theorem entered_of_text {entry : Entry} {subject text : String} {failedWith : Option Fault} {n : ℤ}
    (h : Elapsed.text n = .ok text) (outcome : Except Raised α) (w : World σ) :
    (entered entry (some subject) failedWith n outcome w).1 = outcome := by
  unfold entered enter
  simp only [h]
  rfl

theorem encloses_measure (c : Clock σ) (r : Routine σ V) (m : Method) :
    Encloses c r (.measured m r.name) Given.ofReported (m.measure r c) where
  unread _ _ h := measure_unread m r h
  unclosed w first ending v hstart hrun hrereads := by
    rcases ending with (f | i) | a
    · cases m with
      | duration => exact congrArg Prod.snd (bind_error _ (Routine.raised_uncaptured hstart hrun).1)
      | valued => exact congrArg Prod.snd (bind_error _ (Routine.raised_uncaptured hstart hrun).2)
      | captured => cases hrereads
      | capturedStopped => cases hrereads
    · cases hread : (c.read v.setting).1 with
      | ok last => rw [measure_eq m hstart hrun hread, finish]
      | error e => rw [measure_eq_unread m hstart hrun hread, finishUnread]
    · cases hrereads
  closed w first ending v hstart hrun hrereads := by
    cases hread : (c.read v.setting).1 with
    | ok last =>
      rw [measure_eq m hstart hrun hread]
      rcases ending with (f | i) | a
      · have hcaptures : m.captures = true := hrereads
        rw [finish, if_pos hcaptures]
        exact entered_left {} _ _ _ _ (c.after v)
      · cases hrereads
      · exact entered_left {} _ _ _ _ (c.after v)
    | error e =>
      rw [measure_eq_unread m hstart hrun hread]
      rcases ending with (f | i) | a
      · have hcaptures : m.captures = true := hrereads
        rw [finishUnread, if_pos hcaptures]
        exact ⟨rfl, rfl⟩
      · cases hrereads
      · cases m with
        | capturedStopped => exact entered_left {} _ _ _ _ (occurrence e (c.after v)).2
        | duration | valued | captured => exact ⟨rfl, rfl⟩
  given w first ending v last text hstart hrun hrereads hread _ htext := by
    rw [measure_eq m hstart hrun hread]
    rcases ending with (f | i) | a
    · have hcaptures : m.captures = true := hrereads
      rw [finish, if_pos hcaptures, entered_of_text htext]
      rfl
    · cases hrereads
    · rw [finish, entered_of_text htext]
      cases m <;> rfl

theorem encloses_logged (c : Clock σ) (r : Routine σ V) (entry : Entry) :
    Encloses c r (.logged entry r.title) Given.ofEnding (r.logged c entry address).run where
  unread _ _ h := logged_unread r entry h
  unclosed w first ending v hstart hrun hrereads := by
    rcases ending with (f | i) | a
    · cases hrereads
    · cases hread : (c.read v.setting).1 with
      | ok last => rw [logged_eq entry hstart hrun hread, finishLogged]
      | error e => rw [logged_eq_unread entry hstart hrun hread]
    · cases hrereads
  closed w first ending v hstart hrun hrereads := by
    cases hread : (c.read v.setting).1 with
    | ok last =>
      rw [logged_eq entry hstart hrun hread]
      rcases ending with (f | i) | a
      · exact entered_left entry _ _ _ _ (c.after v)
      · cases hrereads
      · exact entered_left entry _ _ _ _ (c.after v)
    | error e =>
      rw [logged_eq_unread entry hstart hrun hread]
      rcases ending with (f | i) | a
      · exact ⟨rfl, rfl⟩
      · cases hrereads
      · exact ⟨rfl, rfl⟩
  given w first ending v last text hstart hrun hrereads hread htitle htext := by
    obtain ⟨title, htitle⟩ := Option.isSome_iff_exists.mp htitle
    change r.title = some title at htitle
    rw [logged_eq entry hstart hrun hread, htitle]
    rcases ending with (f | i) | a
    · rw [finishLogged, entered_of_text htext]
      rfl
    · cases hrereads
    · rw [finishLogged, entered_of_text htext]
      rfl

end Measurement
end Chronograph
