import Mathlib
import Chronograph.Proofs.Stopwatch.Growth

set_option autoImplicit false

/-!
# Durations in and out

A clock that is moved by durations, one after the other, refuses the negative
ones and adds up the others without loss. A watch that was started on it tells
their sum as a duration again, as long as there is one that long. The other way
round a duration that a watch tells moves a clock by what the watch measured,
less what it holds of a microsecond.
-/
namespace Chronograph

namespace Duration

def longest : Duration := ⟨999999999, 86399, 999999, by decide, by decide, by decide⟩

/-- The microseconds in those that are not negative. -/
def total (ds : List Duration) : ℤ := ((ds.filter fun d => 0 ≤ d.days).map toMicroseconds).sum

theorem total_cons (d : Duration) (ds : List Duration) :
    total (d :: ds) = (if d.days < 0 then 0 else d.toMicroseconds) + total ds := by
  unfold total
  by_cases h : d.days < 0
  · rw [List.filter_cons_of_neg (by simpa using h), if_pos h, zero_add]
  · rw [List.filter_cons_of_pos (by simpa using h), if_neg h, List.map_cons, List.sum_cons]

theorem total_nonneg (ds : List Duration) : 0 ≤ total ds := by
  induction ds with
  | nil => exact le_rfl
  | cons d ds ih =>
    have hd := toMicroseconds_neg_iff d
    rw [total_cons]
    split <;> omega

theorem exists_toMicroseconds {n : ℤ} (hn : 0 ≤ n) (h : n ≤ longest.toMicroseconds) :
    ∃ d : Duration, d.toMicroseconds = n := by
  have hlongest : longest.toMicroseconds = 86399999999999999999 := rfl
  cases hd : ofMicroseconds? n with
  | some d => exact ⟨d, (ofMicroseconds?_eq_some_iff n d).mp hd⟩
  | none =>
    rw [ofMicroseconds?_eq_none_iff] at hd
    omega

end Duration

theorem Elapsed.duration_eq_overflow_iff {n : ℤ} (hn : 0 ≤ n) :
    Elapsed.duration n = .error .overflow ↔ Duration.longest.toMicroseconds < n / 1000 := by
  have hlongest : Duration.longest.toMicroseconds = 86399999999999999999 := rfl
  rw [Elapsed.duration_eq_error_iff]
  simp only [true_and]
  omega

namespace Timepiece

def reader : Clock Timepiece := ⟨Timepiece.read⟩

def advances (t : Timepiece) : List Duration → List (Except Fault (Option ℤ)) × Timepiece
  | [] => ([], t)
  | d :: ds => match t.command (.advanceBy d.days d.seconds d.microseconds) with
    | (answer, t) => match t.advances ds with
      | (answers, t) => (answer :: answers, t)

def answer (d : Duration) : Except Fault (Option ℤ) :=
  if d.days < 0 then .error .backwards else .ok none

theorem command_advanceBy (c : ManualClock) (d : Duration) :
    (manual c).command (.advanceBy d.days d.seconds d.microseconds) = (answer d,
      manual { c with now := c.now + if d.days < 0 then 0 else 1000 * d.toMicroseconds }) := by
  have hneg := Duration.toMicroseconds_neg_iff d
  simp only [command, Duration.ofParts?_parts]
  unfold answer
  by_cases h : d.days < 0
  · have hchange : c.advanceBy d = .error .backwards :=
      if_pos (show d.toMicroseconds * 1000 < 0 by omega)
    rw [adjust_refused (·.advanceBy d) hchange, if_pos h, if_pos h, add_zero]
  · have hchange : c.advanceBy d = .ok { c with now := c.now + d.toMicroseconds * 1000 } :=
      if_neg (show ¬d.toMicroseconds * 1000 < 0 by omega)
    rw [adjust_accepted (·.advanceBy d) hchange, if_neg h, if_neg h, mul_comm]

theorem advances_manual (c : ManualClock) (ds : List Duration) : (manual c).advances ds =
    (ds.map answer, manual { c with now := c.now + 1000 * Duration.total ds }) := by
  induction ds generalizing c with
  | nil =>
    change ([], manual c) = ([], manual { c with now := c.now + 0 })
    rw [add_zero]
  | cons d ds ih =>
    rw [advances, command_advanceBy]
    simp only [ih, List.map_cons, Duration.total_cons]
    congr 3
    split <;> omega

theorem read_still (now : ℤ) : reader.read (manual { now }) = (.ok now, manual { now }) := by
  unfold reader read ManualClock.read
  simp only [Nat.cast_zero, add_zero]

end Timepiece

namespace Stopwatch
open Timepiece
variable {σ : Type} {c : Clock σ} {w : Stopwatch} {s : σ} {n : ℤ}

theorem query_of_elapsed (h : (w.elapsed c s).1 = .ok n) (q : Query) :
    w.query c q s = (q.report w.state n, (w.elapsed c s).2) := by
  have hpair : w.elapsed c s = (.ok n, (w.elapsed c s).2) := Prod.ext h rfl
  unfold query
  rw [hpair]

theorem start_reader (now : ℤ) : ({} : Stopwatch).start reader (manual { now }) =
    (.ok (), ⟨.running, 0, now⟩, manual { now }) := start_read rfl (read_still now)

theorem elapsed_reader (start now : ℤ) :
    (⟨.running, 0, start⟩ : Stopwatch).elapsed reader (manual { now }) =
    (.ok (now - start), manual { now }) := by
  have helapsed : (⟨.running, 0, start⟩ : Stopwatch).elapsed reader (manual { now }) =
      (.ok (0 + (now - start)), manual { now }) := elapsed_read rfl (read_still now)
  rwa [zero_add] at helapsed

/-- A negative duration does not move a clock. A watch started on a clock that is then
    moved by any durations tells the exact sum of those that are not negative, and
    tells it as a duration unless it is longer than all of them. A duration that is told
    of a time moves a clock by that time, down to the microsecond. -/
theorem query_duration_advances :
    (∀ (m : ManualClock) (d : Duration), d.days < 0 → ∃ e, e.kind = "ValueError" ∧
      (manual m).command (.advanceBy d.days d.seconds d.microseconds) = (.error e, manual m)) ∧
    (∀ (start : ℤ) (ds : List Duration), ∃ w t,
      ({} : Stopwatch).start reader (manual { now := start }) = (.ok (), w, t) ∧
      (t.advances ds).1 = ds.map answer ∧
      w.elapsed reader (t.advances ds).2 = (.ok (1000 * Duration.total ds), (t.advances ds).2) ∧
      (Duration.total ds ≤ Duration.longest.toMicroseconds → ∃ d : Duration,
        d.toMicroseconds = Duration.total ds ∧
          w.query reader .duration (t.advances ds).2 = (.ok (.duration d), (t.advances ds).2)) ∧
      ((w.query reader .duration (t.advances ds).2).1 = .error .overflow ↔
        Duration.longest.toMicroseconds < Duration.total ds)) ∧
    (∀ (σ : Type) (c : Clock σ) (w : Stopwatch) (s : σ) (n : ℤ) (d : Duration), 0 ≤ n →
      (w.elapsed c s).1 = .ok n → (w.query c .duration s).1 = .ok (.duration d) → ∀ m : ManualClock,
        (manual m).command (.advanceBy d.days d.seconds d.microseconds) =
          (.ok none, manual { m with now := m.now + (n - n % 1000) })) := by
  refine ⟨fun m d hd => ?_, fun start ds => ?_, fun σ c w s n d hn helapsed hquery m => ?_⟩
  · exact ⟨.backwards, rfl, by rw [command_advanceBy, answer, if_pos hd, if_pos hd, add_zero]⟩
  · have htotal := Duration.total_nonneg ds
    have hadvances := advances_manual { now := start } ds
    have helapsed := elapsed_reader start (start + 1000 * Duration.total ds)
    rw [add_sub_cancel_left] at helapsed
    have hquery := query_of_elapsed (congrArg Prod.fst helapsed) .duration
    have hwhole : 1000 * Duration.total ds / 1000 = Duration.total ds := by omega
    refine ⟨_, _, start_reader start, ?_⟩
    rw [hadvances]
    refine ⟨rfl, helapsed, fun hle => ?_, ?_⟩
    · obtain ⟨d, hd⟩ := Duration.exists_toMicroseconds htotal hle
      refine ⟨d, hd, hquery.trans ?_⟩
      rw [(report_duration_iff _ _ d).mpr ((Elapsed.duration_eq_ok_iff _ d).mpr (hd.trans hwhole.symm)),
        helapsed]
    · rw [hquery, report_duration_error_iff, Elapsed.duration_eq_overflow_iff (by omega), hwhole]
  · rw [query_of_elapsed helapsed, report_duration_iff, Elapsed.duration_eq_ok_iff] at hquery
    have hpos : ¬d.days < 0 := by
      rw [← Duration.toMicroseconds_neg_iff]
      omega
    rw [command_advanceBy, answer, if_neg hpos, if_neg hpos, hquery,
      show 1000 * (n / 1000) = n - n % 1000 by omega]

def microsecond : Duration := ⟨0, 0, 1, by decide, by decide, by decide⟩

def microsecondBack : Duration := ⟨-1, 86399, 999999, by decide, by decide, by decide⟩

/-- A microsecond into the past is refused, and 1999 ns are told as one microsecond. -/
theorem query_duration_advances_microsecond :
    (microsecondBack.days < 0 ∧ ∃ e, e.kind = "ValueError" ∧
      (manual { now := 40 }).command (.advanceBy (-1) 86399 999999) = (.error e, manual { now := 40 })) ∧
    (∃ w t, ({} : Stopwatch).start reader (manual { now := 40 }) = (.ok (), w, t) ∧
      (t.advances [microsecond, microsecondBack, microsecond]).1 =
        [.ok none, .error .backwards, .ok none] ∧
      w.elapsed reader (t.advances [microsecond, microsecondBack, microsecond]).2 =
        (.ok 2000, (t.advances [microsecond, microsecondBack, microsecond]).2)) ∧
    (((⟨.stopped, 1999, 0⟩ : Stopwatch).query reader .duration (manual { now := 40 })).1 =
        .ok (.duration microsecond) ∧
      (manual { now := 40 }).command (.advanceBy 0 0 1) = (.ok none, manual { now := 1040 })) := by
  obtain ⟨hrefused, hsum, hmoves⟩ := query_duration_advances
  obtain ⟨w, t, hstart, hanswers, helapsed, _⟩ := hsum 40 [microsecond, microsecondBack, microsecond]
  have hquery : ((⟨.stopped, 1999, 0⟩ : Stopwatch).query reader .duration (manual { now := 40 })).1 =
      .ok (.duration microsecond) := by cbv
  refine ⟨⟨by decide, hrefused { now := 40 } microsecondBack (by decide)⟩,
    ⟨w, t, hstart, ?_, ?_⟩, hquery, ?_⟩
  · rw [hanswers]
    rfl
  · rw [helapsed]
    rfl
  · exact hmoves Timepiece reader _ _ 1999 microsecond (by decide) rfl hquery { now := 40 }

end Stopwatch
end Chronograph
