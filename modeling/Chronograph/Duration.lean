set_option autoImplicit false

/-!
# Calendar durations

A duration is a number of microseconds in days, seconds and microseconds, of
which only the days may be negative, and of these there are at most 999999999
either way. Main statement: a number of microseconds is a duration's exactly
when it was made from it.
-/
namespace Chronograph

structure Duration where
  days : Int
  seconds : Nat
  microseconds : Nat
  seconds_lt : seconds < 86400
  microseconds_lt : microseconds < 1000000
  days_le : days.natAbs ≤ 999999999
  deriving Repr, DecidableEq

namespace Duration

def toMicroseconds (d : Duration) : Int :=
  (d.days * 86400 + d.seconds) * 1000000 + d.microseconds

def ofMicroseconds? (n : Int) : Option Duration :=
  if h : (n / 86400000000).natAbs ≤ 999999999 then
    some ⟨n / 86400000000, (n / 1000000 % 86400).toNat, (n % 1000000).toNat,
      by omega, by omega, h⟩
  else none

/-- The duration of an exact sum of parts, any of which may be negative or large. -/
def ofParts? (days seconds microseconds : Int) : Option Duration :=
  ofMicroseconds? ((days * 86400 + seconds) * 1000000 + microseconds)

theorem ofMicroseconds?_eq_some_iff (n : Int) (d : Duration) :
    ofMicroseconds? n = some d ↔ d.toMicroseconds = n := by
  obtain ⟨days, seconds, microseconds, hs, hm, hd⟩ := d
  unfold ofMicroseconds? toMicroseconds
  dsimp only
  constructor
  · intro h
    split at h
    · simp only [Option.some.injEq, Duration.mk.injEq] at h
      omega
    · simp at h
  · intro h
    rw [dif_pos (by omega)]
    simp only [Option.some.injEq, Duration.mk.injEq]
    omega

theorem ofMicroseconds?_eq_none_iff (n : Int) :
    ofMicroseconds? n = none ↔ n < -86399999913600000000 ∨ 86399999999999999999 < n := by
  unfold ofMicroseconds?
  split <;> simp only [reduceCtorEq, true_iff, false_iff] <;> omega

theorem ofParts?_parts (d : Duration) : ofParts? d.days d.seconds d.microseconds = some d :=
  (ofMicroseconds?_eq_some_iff _ d).mpr rfl

theorem toMicroseconds_neg_iff (d : Duration) : d.toMicroseconds < 0 ↔ d.days < 0 := by
  obtain ⟨days, seconds, microseconds, hs, hm, hd⟩ := d
  unfold toMicroseconds
  dsimp only
  omega

end Duration
end Chronograph
