import Mathlib
import Chronograph.Measurement
import Chronograph.Proofs.Elapsed.Order

set_option autoImplicit false

/-!
# The durations of one count

A watch that stands at a count and a result that holds it tell the same
duration: that of the microseconds in the count, counted downward. Whole
microseconds are counted toward zero instead, which differs by one below zero
unless nothing is left over. Larger counts tell later durations.
-/
namespace Chronograph

namespace Duration

/-- Durations are compared by days, then by seconds, then by microseconds. -/
instance : LE Duration where
  le d e := d.days < e.days ∨ d.days = e.days ∧
    (d.seconds < e.seconds ∨ d.seconds = e.seconds ∧ d.microseconds ≤ e.microseconds)

theorem le_iff_toMicroseconds_le (d e : Duration) : d ≤ e ↔ d.toMicroseconds ≤ e.toMicroseconds := by
  obtain ⟨days, seconds, microseconds, hs, hm, _⟩ := d
  obtain ⟨days', seconds', microseconds', hs', hm', _⟩ := e
  change (days < days' ∨ days = days' ∧
    (seconds < seconds' ∨ seconds = seconds' ∧ microseconds ≤ microseconds')) ↔ _
  unfold toMicroseconds
  dsimp only
  omega

end Duration

namespace Elapsed

/-- The answer is the one duration of the microseconds of `n`, counted downward, or an
    overflow if these are not in the range of durations. -/
structure Tells (n : ℤ) (answer : Except Fault Duration) : Prop where
  ok (d : Duration) : answer = .ok d ↔ d.toMicroseconds = n / 1000
  error (e : Fault) : answer = .error e ↔
    e = .overflow ∧ ¬(-86399999913600000000 ≤ n / 1000 ∧ n / 1000 ≤ 86399999999999999999)

theorem tells_duration (n : ℤ) : Tells n (duration n) where
  ok := duration_eq_ok_iff n
  error := duration_eq_error_iff n

theorem duration_le {m n : ℤ} (h : m ≤ n) {d e : Duration} (hd : duration m = .ok d)
    (he : duration n = .ok e) : d ≤ e := by
  rw [Duration.le_iff_toMicroseconds_le, (duration_eq_ok_iff m d).mp hd, (duration_eq_ok_iff n e).mp he]
  exact Int.ediv_le_ediv (by decide) h

theorem ediv_eq_whole (n : ℤ) : n / 1000 = if 0 ≤ n ∨ 1000 ∣ n then TimeUnit.microseconds.whole n
    else TimeUnit.microseconds.whole n - 1 := by
  have hdiv : TimeUnit.microseconds.whole n = n / 1000 + if 0 ≤ n ∨ 1000 ∣ n then 0 else 1 :=
    Int.tdiv_eq_ediv
  rw [hdiv]
  split <;> omega

/-- A watch standing at `n` and both kinds of result that hold `n` give one answer:
    the duration of the microseconds in `n`, counted downward, or an overflow exactly
    where there is none. These are the whole microseconds that the watch reports,
    less one if `n` is negative and no multiple of 1000. A larger count has no
    earlier duration. -/
theorem duration_views (n : ℤ) :
    (∃ answer, Tells n answer ∧
      (∀ (σ : Type) (c : Clock σ) (start : ℤ) (s : σ),
        (⟨.stopped, n, start⟩ : Stopwatch).query c .duration s = (answer.map .duration, s) ∧
        ∃ k, (⟨.stopped, n, start⟩ : Stopwatch).query c (.whole .microseconds) s = (.ok (.count k), s) ∧
          n / 1000 = if 0 ≤ n ∨ 1000 ∣ n then k else k - 1) ∧
      ∀ (α : Type) (a : α) (f : Failure),
        (Timed.value n a).duration = answer ∧ (Timed.failure n f : Timed α).duration = answer) ∧
    ∀ (m : ℤ) (d e : Duration), n ≤ m → duration n = .ok d → duration m = .ok e → d ≤ e := by
  refine ⟨⟨duration n, tells_duration n, fun σ c start s => ⟨rfl, _, rfl, ediv_eq_whole n⟩,
    fun α a f => ⟨rfl, rfl⟩⟩, fun m d e h => duration_le h⟩

/-- A nanosecond of less than nothing is no whole microsecond, but a microsecond of
    less than nothing as a duration: the last one of the day before. -/
theorem duration_views_before : ∃ d e : Duration,
    d.days = -1 ∧ d.seconds = 86399 ∧ d.microseconds = 999999 ∧
      (∃ answer, Tells (-1) answer ∧ answer = .ok d ∧
        (Timed.value (-1) "done").duration = answer ∧
        (⟨.stopped, -1, 7⟩ : Stopwatch).query (⟨fun s => (.ok s, s)⟩ : Clock ℤ) .duration 9 =
          (.ok (.duration d), 9) ∧
        (⟨.stopped, -1, 7⟩ : Stopwatch).query (⟨fun s => (.ok s, s)⟩ : Clock ℤ) (.whole .microseconds) 9 =
          (.ok (.count 0), 9)) ∧
      (-1 : ℤ) ≤ 0 ∧ duration (-1) = .ok d ∧ duration 0 = .ok e ∧ d ≤ e := by
  obtain ⟨⟨answer, htells, hwatch, hresults⟩, hmono⟩ := duration_views (-1)
  let d : Duration := ⟨-1, 86399, 999999, by decide, by decide, by decide⟩
  let e : Duration := ⟨0, 0, 0, by decide, by decide, by decide⟩
  have hbefore : duration (-1) = .ok d := by decide
  have hzero : duration 0 = .ok e := by decide
  have hanswer : answer = .ok d := (htells.ok d).mpr (by decide)
  refine ⟨d, e, rfl, rfl, rfl, ⟨answer, htells, hanswer, (hresults String "done" ⟨0, .overflow⟩).1, ?_, rfl⟩,
    by decide, hbefore, hzero, hmono 0 d e (by decide) hbefore hzero⟩
  rw [(hwatch ℤ ⟨fun s => (.ok s, s)⟩ 7 9).1, hanswer]
  rfl

end Elapsed
end Chronograph
