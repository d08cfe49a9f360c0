import Mathlib
import Chronograph.Proofs.Measurement

set_option autoImplicit false

/-!
# Readings that fail

A measurement whose first reading fails does not run its routine and fails as
the clock did. A measurement whose second reading fails does so too, even if the
routine had failed before. The one exception is a watch that is stopped first,
after a value: its failure is captured as if the routine had failed in no time,
for by then the watch stands at zero. There, and nowhere else, the two
measurements that capture failures differ.
-/
namespace Chronograph
variable {σ α β : Type}

namespace Measurement
variable {c : Clock σ} {v w : World σ} {first : ℤ} {e : Fault}

theorem started_failed (h : (c.read w.setting).1 = .error e) :
    started c w = Task.fail e (c.after w) := by
  have hstart : ({} : Stopwatch).start c w.setting =
      (.error e, ⟨.running, 0, 0⟩, (c.after w).setting) := Stopwatch.start_unread rfl (read_eq h)
  unfold started Task.act
  simp only [hstart]
  rfl

theorem elapsed_unread (h : (c.read v.setting).1 = .error e) :
    elapsed c ⟨.running, 0, first⟩ v = Task.fail e (c.after v) := by
  have helapsed : (⟨.running, 0, first⟩ : Stopwatch).elapsed c v.setting =
      (.error e, (c.after v).setting) := Stopwatch.elapsed_unread rfl (read_eq h)
  unfold elapsed Task.act
  simp only [helapsed]
  rfl

theorem stopping_unread (h : (c.read v.setting).1 = .error e) :
    stopping c ⟨.running, 0, first⟩ v = (.ok (.error (Task.occurrence e (c.after v)).1,
      ⟨.stopped, 0, first⟩), (Task.occurrence e (c.after v)).2) := by
  have hstop : (⟨.running, 0, first⟩ : Stopwatch).stop c v.setting =
      (.error e, ⟨.stopped, 0, first⟩, (c.after v).setting) := Stopwatch.stop_unread rfl (read_eq h)
  unfold stopping
  simp only [hstop]
  rfl

theorem recorded_zero (subject : String) (failedWith : Option Fault) (result : β) (v : World σ) :
    recorded subject failedWith 0 result v = (.ok result, { v with
      journal := v.journal.add
        ⟨.own, Journal.ownLevel, subject, failedWith.map Fault.kind, "0.000 ns"⟩ }) := by
  have htext : Elapsed.text 0 = .ok "0.000 ns" := Elapsed.text_zero.trans (by decide)
  unfold recorded
  rw [htext]

end Measurement

namespace Routine
open Measurement
variable {r : Routine σ α} {c : Clock σ} {w v : World σ} {first : ℤ} {e : Fault}

theorem captures_unstarted (r : Routine σ α) (h : (c.read w.setting).1 = .error e) :
    r.captured c w = Task.fail e (c.after w) ∧ r.capturedStopped c w = Task.fail e (c.after w) :=
  ⟨Task.bind_error _ (started_failed h), Task.bind_error _ (started_failed h)⟩

theorem captured_unread {a : α} (hstart : (c.read w.setting).1 = .ok first)
    (hrun : r.run (c.after w) = (.ok a, v)) (hlast : (c.read v.setting).1 = .error e) :
    r.captured c w = Task.fail e (c.after v) := by
  unfold captured
  rw [Task.bind_ok _ (started_eq hstart), Task.bind_ok _ (Task.attempt_value hrun)]
  exact Task.bind_error _ (elapsed_unread hlast)

theorem capturedStopped_unread {a : α} (hstart : (c.read w.setting).1 = .ok first)
    (hrun : r.run (c.after w) = (.ok a, v)) (hlast : (c.read v.setting).1 = .error e) :
    r.capturedStopped c w = recorded r.name (some e) 0
      (.failure 0 (Task.occurrence e (c.after v)).1) (Task.occurrence e (c.after v)).2 := by
  unfold capturedStopped
  rw [Task.bind_ok _ (started_eq hstart), Task.bind_ok _ (Task.attempt_value hrun)]
  exact (Task.bind_ok _ (stopping_unread hlast)).trans (abandoned_eq rfl _)

theorem captures_unread {f : Failure} (hstart : (c.read w.setting).1 = .ok first)
    (hrun : r.run (c.after w) = (.error (.failure f), v)) (hlast : (c.read v.setting).1 = .error e) :
    r.captured c w = Task.fail e (c.after v) ∧ r.capturedStopped c w = Task.fail e (c.after v) := by
  unfold captured capturedStopped
  rw [Task.bind_ok _ (started_eq hstart), Task.bind_ok _ (started_eq hstart),
    Task.bind_ok _ (Task.attempt_failure hrun), Task.bind_ok _ (Task.attempt_failure hrun)]
  exact ⟨Task.bind_error _ (elapsed_unread hlast), Task.bind_error _ (elapsed_unread hlast)⟩

/-- The routine gives a value and leaves `v`, where the clock fails with `e`. -/
def Unclosed (r : Routine σ α) (c : Clock σ) (w v : World σ) (e : Fault) : Prop :=
  ∃ first a, (c.read w.setting).1 = .ok first ∧ r.run (c.after w) = (.ok a, v) ∧
    (c.read v.setting).1 = .error e

def instant (r : Routine σ α) (e : Fault) : Record :=
  ⟨.own, Journal.ownLevel, r.name, some e.kind, "0.000 ns"⟩

theorem instant_message (r : Routine σ α) (e : Fault) :
    (r.instant e).message = r.name ++ " failed with " ++ e.kind ++ " after 0.000 ns" := by
  unfold instant Record.message
  simp only [String.append_assoc]
  rfl

theorem captured_of_unclosed (h : r.Unclosed c w v e) : r.captured c w =
    (.error (.failure ⟨v.raised, e⟩), { c.after v with raised := v.raised + 1 }) := by
  obtain ⟨first, a, hstart, hrun, hlast⟩ := h
  exact captured_unread hstart hrun hlast

theorem capturedStopped_of_unclosed (h : r.Unclosed c w v e) : r.capturedStopped c w =
    (.ok (.failure 0 ⟨v.raised, e⟩),
      { c.after v with journal := v.journal.add (r.instant e), raised := v.raised + 1 }) := by
  obtain ⟨first, a, hstart, hrun, hlast⟩ := h
  rw [capturedStopped_unread hstart hrun hlast, recorded_zero]
  rfl

theorem capturedStopped_eq_captured (h : ∀ v e, ¬r.Unclosed c w v e) :
    r.capturedStopped c w = r.captured c w := by
  cases hstart : (c.read w.setting).1 with
  | error e =>
    obtain ⟨hcaptured, hstopped⟩ := captures_unstarted r hstart
    rw [hcaptured, hstopped]
  | ok first =>
    rcases hrun : r.run (c.after w) with ⟨(f | i) | a, v⟩
    · cases hlast : (c.read v.setting).1 with
      | error e =>
        obtain ⟨hcaptured, hstopped⟩ := captures_unread hstart hrun hlast
        rw [hcaptured, hstopped]
      | ok last => rw [captured_of_failure hstart hrun hlast, capturedStopped_of_failure hstart hrun hlast]
    · obtain ⟨hcaptured, hstopped⟩ := interrupt_uncaptured hstart hrun
      rw [hcaptured, hstopped]
    · cases hlast : (c.read v.setting).1 with
      | error e => exact absurd ⟨first, a, hstart, hrun, hlast⟩ (h v e)
      | ok last => rw [captured_of_value hstart hrun hlast, capturedStopped_of_value hstart hrun hlast]

/-- The two measurements that capture failures end alike and leave the same world,
    unless the routine gives a value and the clock fails after it. Then one fails as
    the clock did, with no record, and the other, which stops its watch first, captures
    that failure with no time. A clock that fails at first keeps the routine from
    running, and one that fails after a failure takes its place, in both. -/
theorem capturedStopped_eq_captured_iff (r : Routine σ α) (c : Clock σ) (w : World σ) :
    (r.capturedStopped c w = r.captured c w ↔ ∀ v e, ¬r.Unclosed c w v e) ∧
    (∀ v e, r.Unclosed c w v e →
      r.captured c w =
        (.error (.failure ⟨v.raised, e⟩), { c.after v with raised := v.raised + 1 }) ∧
      r.capturedStopped c w = (.ok (.failure 0 ⟨v.raised, e⟩),
        { c.after v with journal := v.journal.add (r.instant e), raised := v.raised + 1 }) ∧
      (r.instant e).message = r.name ++ " failed with " ++ e.kind ++ " after 0.000 ns") ∧
    (∀ e, (c.read w.setting).1 = .error e →
      r.captured c w = Task.fail e (c.after w) ∧ r.capturedStopped c w = Task.fail e (c.after w)) ∧
    (∀ first f v e, (c.read w.setting).1 = .ok first → r.run (c.after w) = (.error (.failure f), v) →
      (c.read v.setting).1 = .error e →
      r.captured c w = Task.fail e (c.after v) ∧ r.capturedStopped c w = Task.fail e (c.after v)) := by
  refine ⟨⟨fun heq v e h => ?_, capturedStopped_eq_captured⟩, fun v e h => ?_,
    fun e h => captures_unstarted r h, fun first f v e => captures_unread⟩
  · rw [captured_of_unclosed h, capturedStopped_of_unclosed h] at heq
    cases heq
  · exact ⟨captured_of_unclosed h, capturedStopped_of_unclosed h, instant_message r e⟩

def seven : Routine Tape ℕ where
  title := some "seven"
  description := "seven"
  run := pure 7

def failing : Routine Tape ℕ := { seven with run := Task.fail (.foreign "ValueError" "failing") }

theorem capturedStopped_eq_captured_iff_seven :
    (seven.Unclosed ⟨Tape.read⟩ { setting := Tape.ofList [some 5, none] }
        { setting := { Tape.ofList [some 5, none] with taken := 1 } } .clockFailure ∧
      (seven.captured ⟨Tape.read⟩ { setting := Tape.ofList [some 5, none] }).1 =
        .error (.failure ⟨0, .clockFailure⟩) ∧
      (seven.capturedStopped ⟨Tape.read⟩ { setting := Tape.ofList [some 5, none] }).1 =
        .ok (.failure 0 ⟨0, .clockFailure⟩) ∧
      (seven.capturedStopped ⟨Tape.read⟩ { setting := Tape.ofList [some 5, none] }).2.journal.records =
        [seven.instant .clockFailure]) ∧
    ((failing.captured ⟨Tape.read⟩ { setting := Tape.ofList [some 5, none] }).1 =
        .error (.failure ⟨1, .clockFailure⟩) ∧
      (failing.capturedStopped ⟨Tape.read⟩ { setting := Tape.ofList [some 5, none] }).1 =
        .error (.failure ⟨1, .clockFailure⟩)) ∧
    (seven.captured ⟨Tape.read⟩ { setting := Tape.ofList [none] }).1 =
      .error (.failure ⟨0, .clockFailure⟩) := by
  have hunclosed : seven.Unclosed ⟨Tape.read⟩ { setting := Tape.ofList [some 5, none] }
      { setting := { Tape.ofList [some 5, none] with taken := 1 } } .clockFailure :=
    ⟨5, 7, rfl, rfl, rfl⟩
  obtain ⟨_, hdiffer, _⟩ :=
    capturedStopped_eq_captured_iff seven ⟨Tape.read⟩ { setting := Tape.ofList [some 5, none] }
  obtain ⟨hcaptured, hstopped, _⟩ := hdiffer _ _ hunclosed
  obtain ⟨_, _, _, hreplaced⟩ :=
    capturedStopped_eq_captured_iff failing ⟨Tape.read⟩ { setting := Tape.ofList [some 5, none] }
  obtain ⟨hfailing, hfailing'⟩ :=
    hreplaced 5 ⟨0, .foreign "ValueError" "failing"⟩ _ .clockFailure rfl rfl rfl
  obtain ⟨_, _, hunstarted, _⟩ :=
    capturedStopped_eq_captured_iff seven ⟨Tape.read⟩ { setting := Tape.ofList [none] }
  refine ⟨⟨hunclosed, ?_, ?_, ?_⟩, ⟨?_, ?_⟩, ?_⟩
  · rw [hcaptured]
  · rw [hstopped]
  · rw [hstopped]
    rfl
  · rw [hfailing]
    rfl
  · rw [hfailing']
    rfl
  · rw [(hunstarted .clockFailure rfl).1]
    rfl

end Routine
end Chronograph
