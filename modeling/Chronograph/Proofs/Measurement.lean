import Mathlib
import Chronograph.Measurement
import Chronograph.Proofs.Elapsed

set_option autoImplicit false

/-!
# Agreement of the measurements

With a clock whose readings do not fail the four measurements differ only in
what they make of a failure of the routine. The time is the last reading less
the first, whatever the routine does to the clock, and whether or not the watch
was stopped before it was asked. A time that cannot be shown makes each of them
fail, with no record.
-/
namespace Chronograph
variable {σ α β : Type}

namespace Task

theorem attempt_value {t : Task σ α} {w v : World σ} {a : α} (h : t w = (.ok a, v)) :
    t.attempt w = (.ok (.ok a), v) := by
  unfold attempt
  rw [h]

theorem attempt_failure {t : Task σ α} {w v : World σ} {f : Failure}
    (h : t w = (.error (.failure f), v)) : t.attempt w = (.ok (.error f), v) := by
  unfold attempt
  rw [h]

theorem attempt_interrupt {t : Task σ α} {w v : World σ} {i : Interrupt}
    (h : t w = (.error (.interrupt i), v)) : t.attempt w = (.error (.interrupt i), v) := by
  unfold attempt
  rw [h]

end Task

def Clock.after (c : Clock σ) (w : World σ) : World σ := { w with setting := (c.read w.setting).2 }

namespace Measurement
variable {c : Clock σ} {v w : World σ} {first last : ℤ}

theorem read_eq {reading : Except Fault ℤ} (h : (c.read v.setting).1 = reading) :
    c.read v.setting = (reading, (c.after v).setting) := by
  rw [← h]
  rfl

theorem started_eq (h : (c.read w.setting).1 = .ok first) :
    started c w = (.ok ⟨.running, 0, first⟩, c.after w) := by
  have hstart : ({} : Stopwatch).start c w.setting =
      (.ok (), ⟨.running, 0, first⟩, (c.after w).setting) := Stopwatch.start_read rfl (read_eq h)
  unfold started Task.act
  simp only [hstart]
  rfl

theorem elapsed_running (h : (c.read v.setting).1 = .ok last) :
    elapsed c ⟨.running, 0, first⟩ v = (.ok (last - first), c.after v) := by
  have helapsed : (⟨.running, 0, first⟩ : Stopwatch).elapsed c v.setting =
      (.ok (0 + (last - first)), (c.after v).setting) := Stopwatch.elapsed_read rfl (read_eq h)
  unfold elapsed Task.act
  simp only [helapsed, zero_add]
  rfl

theorem stopping_running (h : (c.read v.setting).1 = .ok last) :
    stopping c ⟨.running, 0, first⟩ v = (.ok (.ok (), ⟨.stopped, last - first, first⟩), c.after v) := by
  have hstop : (⟨.running, 0, first⟩ : Stopwatch).stop c v.setting =
      (.ok (), ⟨.stopped, 0 + (last - first), first⟩, (c.after v).setting) :=
    Stopwatch.stop_read rfl (read_eq h)
  unfold stopping
  simp only [hstop, zero_add]
  rfl

/-- What is left of a measurement once the time is known: its record and its
    result, or a failure if the time cannot be shown. -/
def recorded (subject : String) (failedWith : Option Fault) (n : ℤ) (result : β) (v : World σ) :
    Except Raised β × World σ :=
  match Elapsed.text n with
  | .ok text => (.ok result,
    { v with journal := v.journal.add ⟨.own, Journal.ownLevel, subject, failedWith.map Fault.kind, text⟩ })
  | .error e => (.error (.failure ⟨v.raised, e⟩), { v with raised := v.raised + 1 })

theorem enter_bind (subject : String) (failedWith : Option Fault) (n : ℤ) (result : β)
    (v : World σ) : (enter {} (some subject) failedWith n >>= fun _ => pure result : Task σ β) v =
      recorded subject failedWith n result v := by
  unfold enter recorded
  cases Elapsed.text n <;> rfl

end Measurement

namespace Routine
open Measurement
variable {r : Routine σ α} {c : Clock σ} {w v : World σ} {first last : ℤ}

theorem concluded_eq {watch : Stopwatch} {u : World σ} {n : ℤ}
    (h : elapsed c watch v = (.ok n, u)) (a : α) :
    r.concluded c watch a v = recorded r.name none n (.value n a) u := by
  unfold concluded
  rw [Task.bind_ok _ h]
  exact enter_bind r.name none n _ u

theorem abandoned_eq {watch : Stopwatch} {u : World σ} {n : ℤ}
    (h : elapsed c watch v = (.ok n, u)) (f : Failure) :
    r.abandoned c watch f v = recorded r.name (some f.fault) n (.failure n f) u := by
  unfold abandoned
  rw [Task.bind_ok _ h]
  exact enter_bind r.name (some f.fault) n _ u

theorem duration_of_value {a : α} (hstart : (c.read w.setting).1 = .ok first)
    (hrun : r.run (c.after w) = (.ok a, v)) (hlast : (c.read v.setting).1 = .ok last) :
    r.duration c w = recorded r.name none (last - first) (last - first) (c.after v) := by
  unfold duration
  rw [Task.bind_ok _ (started_eq hstart), Task.bind_ok _ hrun,
    Task.bind_ok _ (elapsed_running hlast)]
  exact enter_bind r.name none _ _ _

theorem valued_of_value {a : α} (hstart : (c.read w.setting).1 = .ok first)
    (hrun : r.run (c.after w) = (.ok a, v)) (hlast : (c.read v.setting).1 = .ok last) :
    r.valued c w = recorded r.name none (last - first) (.value (last - first) a) (c.after v) := by
  unfold valued
  rw [Task.bind_ok _ (started_eq hstart), Task.bind_ok _ hrun]
  exact concluded_eq (elapsed_running hlast) a

theorem captured_of_value {a : α} (hstart : (c.read w.setting).1 = .ok first)
    (hrun : r.run (c.after w) = (.ok a, v)) (hlast : (c.read v.setting).1 = .ok last) :
    r.captured c w = recorded r.name none (last - first) (.value (last - first) a) (c.after v) := by
  unfold captured
  rw [Task.bind_ok _ (started_eq hstart), Task.bind_ok _ (Task.attempt_value hrun)]
  exact concluded_eq (elapsed_running hlast) a

/-- The watch was stopped by a reading, and tells the time without another. -/
theorem capturedStopped_of_value {a : α} (hstart : (c.read w.setting).1 = .ok first)
    (hrun : r.run (c.after w) = (.ok a, v)) (hlast : (c.read v.setting).1 = .ok last) :
    r.capturedStopped c w =
      recorded r.name none (last - first) (.value (last - first) a) (c.after v) := by
  have hstop : elapsed c ⟨.stopped, last - first, first⟩ (c.after v) =
      (.ok (last - first), c.after v) := rfl
  unfold capturedStopped
  rw [Task.bind_ok _ (started_eq hstart), Task.bind_ok _ (Task.attempt_value hrun)]
  exact (Task.bind_ok _ (stopping_running hlast)).trans (concluded_eq hstop a)

theorem captured_of_failure {f : Failure} (hstart : (c.read w.setting).1 = .ok first)
    (hrun : r.run (c.after w) = (.error (.failure f), v))
    (hlast : (c.read v.setting).1 = .ok last) : r.captured c w =
      recorded r.name (some f.fault) (last - first) (.failure (last - first) f) (c.after v) := by
  unfold captured
  rw [Task.bind_ok _ (started_eq hstart), Task.bind_ok _ (Task.attempt_failure hrun)]
  exact abandoned_eq (elapsed_running hlast) f

theorem capturedStopped_of_failure {f : Failure} (hstart : (c.read w.setting).1 = .ok first)
    (hrun : r.run (c.after w) = (.error (.failure f), v))
    (hlast : (c.read v.setting).1 = .ok last) : r.capturedStopped c w =
      recorded r.name (some f.fault) (last - first) (.failure (last - first) f) (c.after v) := by
  unfold capturedStopped
  rw [Task.bind_ok _ (started_eq hstart), Task.bind_ok _ (Task.attempt_failure hrun)]
  exact abandoned_eq (elapsed_running hlast) f

theorem raised_uncaptured {e : Raised} (hstart : (c.read w.setting).1 = .ok first)
    (hrun : r.run (c.after w) = (.error e, v)) :
    r.duration c w = (.error e, v) ∧ r.valued c w = (.error e, v) := by
  unfold duration valued
  rw [Task.bind_ok _ (started_eq hstart), Task.bind_ok _ (started_eq hstart),
    Task.bind_error _ hrun, Task.bind_error _ hrun]
  exact ⟨rfl, rfl⟩

theorem interrupt_uncaptured {i : Interrupt} (hstart : (c.read w.setting).1 = .ok first)
    (hrun : r.run (c.after w) = (.error (.interrupt i), v)) :
    r.captured c w = (.error (.interrupt i), v) ∧
      r.capturedStopped c w = (.error (.interrupt i), v) := by
  unfold captured capturedStopped
  rw [Task.bind_ok _ (started_eq hstart), Task.bind_ok _ (started_eq hstart),
    Task.bind_error _ (Task.attempt_interrupt hrun), Task.bind_error _ (Task.attempt_interrupt hrun)]
  exact ⟨rfl, rfl⟩

/-- The end of a measurement whose routine left `v`, with a watch started at
    `first`: one more reading and one record, and if the time between cannot be
    shown no record but an overflow. -/
def Ends (r : Routine σ α) (c : Clock σ) (first : ℤ) (failedWith : Option Fault) (v : World σ)
    (result : ℤ → β) (ending : Except Raised β × World σ) : Prop :=
  ∃ last, (c.read v.setting).1 = .ok last ∧
    match Elapsed.text (last - first) with
    | .ok text => ending = (.ok (result (last - first)),
      { c.after v with
        journal := v.journal.add ⟨.own, 10, r.name, failedWith.map Fault.kind, text⟩ })
    | .error e => e = .overflow ∧
      ending = (.error (.failure ⟨v.raised, .overflow⟩), { c.after v with raised := v.raised + 1 })

theorem ends_recorded (r : Routine σ α) (h : (c.read v.setting).1 = .ok last)
    (failedWith : Option Fault) (result : ℤ → β) : r.Ends c first failedWith v result
      (recorded r.name failedWith (last - first) (result (last - first)) (c.after v)) := by
  refine ⟨last, h, ?_⟩
  unfold recorded
  cases ht : Elapsed.text (last - first) with
  | ok text => rfl
  | error e =>
    obtain rfl := Elapsed.text_error ht
    exact ⟨rfl, rfl⟩

/-- How the four measurements end, by how the routine ends. A value ends them
    all alike, a failure the first two as it ended the routine and the last two
    alike, and an interrupt all of them as it ended the routine. -/
theorem measurements_agree (r : Routine σ α) (c : Clock σ)
    (hc : ∀ s, ∃ now, (c.read s).1 = .ok now) (w : World σ) :
    ∃ first, (c.read w.setting).1 = .ok first ∧
      match r.run (c.after w) with
      | (.ok a, v) =>
        r.Ends c first none v id (r.duration c w) ∧
        r.Ends c first none v (.value · a) (r.valued c w) ∧
        r.captured c w = r.valued c w ∧ r.capturedStopped c w = r.valued c w
      | (.error (.failure f), v) =>
        r.duration c w = (.error (.failure f), v) ∧ r.valued c w = (.error (.failure f), v) ∧
        r.Ends c first (some f.fault) v (.failure · f) (r.captured c w) ∧
        r.capturedStopped c w = r.captured c w
      | (.error (.interrupt i), v) =>
        r.duration c w = (.error (.interrupt i), v) ∧ r.valued c w = (.error (.interrupt i), v) ∧
        r.captured c w = (.error (.interrupt i), v) ∧
        r.capturedStopped c w = (.error (.interrupt i), v) := by
  obtain ⟨first, hstart⟩ := hc w.setting
  refine ⟨first, hstart, ?_⟩
  rcases hrun : r.run (c.after w) with ⟨(f | i) | a, v⟩
  · obtain ⟨last, hlast⟩ := hc v.setting
    obtain ⟨hduration, hvalued⟩ := raised_uncaptured hstart hrun
    have hcaptured := captured_of_failure hstart hrun hlast
    have hstopped := capturedStopped_of_failure hstart hrun hlast
    refine ⟨hduration, hvalued, ?_, hstopped.trans hcaptured.symm⟩
    rw [hcaptured]
    exact ends_recorded r hlast (some f.fault) (Timed.failure · f)
  · obtain ⟨hduration, hvalued⟩ := raised_uncaptured hstart hrun
    obtain ⟨hcaptured, hstopped⟩ := interrupt_uncaptured hstart hrun
    exact ⟨hduration, hvalued, hcaptured, hstopped⟩
  · obtain ⟨last, hlast⟩ := hc v.setting
    have hvalued := valued_of_value hstart hrun hlast
    have hcaptured := captured_of_value hstart hrun hlast
    have hstopped := capturedStopped_of_value hstart hrun hlast
    refine ⟨?_, ?_, hcaptured.trans hvalued.symm, hstopped.trans hvalued.symm⟩
    · rw [duration_of_value hstart hrun hlast]
      exact ends_recorded r hlast none id
    · rw [hvalued]
      exact ends_recorded r hlast none (Timed.value · a)

def byHand : Clock ManualClock where
  read s := (.ok s.read.1, s.read.2)

def backward : Routine ManualClock ℕ where
  title := none
  description := "backward"
  run := Task.act fun s => (.ok 7, { s with now := s.now - 1500 })

theorem measurements_agree_backward :
    (∀ s, ∃ now, (byHand.read s).1 = .ok now) ∧
      backward.capturedStopped byHand ⟨{ now := 100 }, {}, 0⟩ =
        backward.valued byHand ⟨{ now := 100 }, {}, 0⟩ ∧
      (backward.valued byHand ⟨{ now := 100 }, {}, 0⟩).1 = .ok (.value (-1500) 7) := by
  have hc : ∀ s, ∃ now, (byHand.read s).1 = .ok now := fun s => ⟨_, rfl⟩
  obtain ⟨first, _, _, _, _, hstopped⟩ := measurements_agree backward byHand hc ⟨{ now := 100 }, {}, 0⟩
  exact ⟨hc, hstopped, by decide +kernel⟩

end Routine
end Chronograph
