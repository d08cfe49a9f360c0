import Mathlib
import Chronograph.Proofs.TimeUnit

set_option autoImplicit false

/-!
# The ladder of units

A unit is a whole number of each shorter one, so whole units may be counted by
way of any unit in between. Counting keeps the order and the sign, and leaves
less than a unit over. The unit that suits a positive count is the only one that
the count holds at least once while it holds no longer unit; it never gets
shorter as the count grows.
-/
namespace Chronograph.TimeUnit

def ratio (a b : TimeUnit) : ℕ := b.nanos / a.nanos

theorem ratio_mul_nanos {a b : TimeUnit} (h : a.nanos ≤ b.nanos) : ratio a b * a.nanos = b.nanos := by
  have hall : ∀ a ∈ all, ∀ b ∈ all, a.nanos ≤ b.nanos → a.nanos ∣ b.nanos := by decide
  exact Nat.div_mul_cancel (hall a (mem_all a) b (mem_all b) h)

theorem whole_natCast (u : TimeUnit) (k : ℕ) : u.whole k = (k / u.nanos : ℕ) :=
  (Int.ofNat_tdiv k u.nanos).symm

theorem whole_neg (u : TimeUnit) (n : ℤ) : u.whole (-n) = -u.whole n := Int.neg_tdiv n u.nanos

theorem tdiv_ratio {a b : TimeUnit} (h : a.nanos ≤ b.nanos) (n : ℤ) :
    (a.whole n).tdiv (ratio a b) = b.whole n := by
  have hnat : ∀ k : ℕ, (a.whole k).tdiv (ratio a b) = b.whole k := by
    intro k
    rw [whole_natCast, whole_natCast, ← Int.ofNat_tdiv, Nat.div_div_eq_div_mul, mul_comm,
      ratio_mul_nanos h]
  obtain ⟨k, rfl | rfl⟩ := n.eq_nat_or_neg
  · exact hnat k
  · rw [whole_neg, whole_neg, Int.neg_tdiv, hnat]

theorem abs_whole (u : TimeUnit) (n : ℤ) : |u.whole n| = (n.natAbs / u.nanos : ℕ) := by
  rw [Int.abs_eq_natAbs]
  unfold whole
  rw [Int.natAbs_tdiv]
  rfl

theorem abs_whole_bounds (u : TimeUnit) (n : ℤ) :
    |u.whole n| * u.nanos ≤ |n| ∧ |n| < (|u.whole n| + 1) * u.nanos := by
  have hlow := Nat.div_mul_le_self n.natAbs u.nanos
  have hhigh := Nat.lt_mul_div_succ n.natAbs u.nanos_pos
  rw [mul_comm] at hhigh
  rw [abs_whole, Int.abs_eq_natAbs]
  exact ⟨by exact_mod_cast hlow, by exact_mod_cast hhigh⟩

theorem whole_eq_zero_of_lt {u : TimeUnit} {n : ℤ} (hn : 0 ≤ n) (h : n < u.nanos) : u.whole n = 0 :=
  le_antisymm (not_lt.mp ((whole_pos_iff u n).not.mpr (not_le.mpr h))) (whole_nonneg u hn)

theorem nanos_le_suited {n : ℤ} (hn : 0 < n) {u : TimeUnit} (h : (u.nanos : ℤ) ≤ n) :
    u.nanos ≤ (suited n).nanos := by
  by_contra hlt
  have := lt_nanos_of_suited_lt hn (not_le.mp hlt)
  omega

theorem eq_suited_iff {n : ℤ} (hn : 0 < n) (u : TimeUnit) :
    u = suited n ↔ 1 ≤ u.whole n ∧ ∀ v : TimeUnit, u.nanos < v.nanos → v.whole n = 0 := by
  constructor
  · rintro rfl
    refine ⟨(whole_pos_iff _ n).mpr (nanos_suited_le hn), fun v hv => ?_⟩
    exact whole_eq_zero_of_lt hn.le (lt_nanos_of_suited_lt hn hv)
  · rintro ⟨hone, hlonger⟩
    have hle := nanos_le_suited hn ((whole_pos_iff u n).mp hone)
    apply nanos_injective
    by_contra hne
    have hzero := hlonger (suited n) (lt_of_le_of_ne hle hne)
    have hpos := (whole_pos_iff _ n).mpr (nanos_suited_le hn)
    omega

theorem monotone_nanos_suited : Monotone fun n => (suited n).nanos := by
  intro n m h
  rcases le_or_gt n 0 with hn | hn
  · change (suited n).nanos ≤ (suited m).nanos
    rw [suited_of_nonpos hn]
    exact (suited m).nanos_pos
  · exact nanos_suited_mono hn h

/-- Whole units counted from whole units of a shorter unit are those counted from
    the nanoseconds, over any unit in between. Counting keeps order and sign, and
    what is left over is less than a unit. The unit that suits a positive count is
    the longest that fits into it, and the only one that it holds while it holds no
    longer one; all other counts suit nanoseconds, and a larger count never suits a
    shorter unit. -/
theorem whole_ladder :
    (∀ a b : TimeUnit, a.nanos ≤ b.nanos → ratio a b * a.nanos = b.nanos ∧
      (∀ n, b.whole n = (a.whole n).tdiv (ratio a b)) ∧
      ∀ c : TimeUnit, a.nanos ≤ c.nanos → c.nanos ≤ b.nanos →
        ∀ n, b.whole n = ((a.whole n).tdiv (ratio a c)).tdiv (ratio c b)) ∧
    (∀ u : TimeUnit, Monotone u.whole ∧ ∀ n, u.whole (-n) = -u.whole n ∧
      |u.whole n| * u.nanos ≤ |n| ∧ |n| < (|u.whole n| + 1) * u.nanos) ∧
    (∀ n : ℤ, 0 < n → ((suited n).nanos : ℤ) ≤ n ∧
      (∀ u : TimeUnit, (u.nanos : ℤ) ≤ n → u.nanos ≤ (suited n).nanos) ∧
      ∀ u, u = suited n ↔ 1 ≤ u.whole n ∧ ∀ v : TimeUnit, u.nanos < v.nanos → v.whole n = 0) ∧
    (∀ n ≤ 0, suited n = nanoseconds) ∧
    Monotone fun n => (suited n).nanos := by
  refine ⟨fun a b h => ⟨ratio_mul_nanos h, fun n => (tdiv_ratio h n).symm, fun c hac hcb n => ?_⟩,
    fun u => ⟨fun _ _ => whole_mono u, fun n => ⟨whole_neg u n, abs_whole_bounds u n⟩⟩,
    fun n hn => ⟨nanos_suited_le hn, fun _ => nanos_le_suited hn, eq_suited_iff hn⟩,
    fun _ => suited_of_nonpos, monotone_nanos_suited⟩
  rw [tdiv_ratio hac, tdiv_ratio hcb]

theorem whole_ladder_hours :
    hours.whole (-7199999999999) = ((microseconds.whole (-7199999999999)).tdiv 1000000).tdiv 3600 ∧
      hours.whole (-7199999999999) = -1 ∧
      1 ≤ hours.whole 7199999999999 ∧ (∀ v : TimeUnit, hours.nanos < v.nanos → v.whole 7199999999999 = 0) ∧
      suited (-7199999999999) = nanoseconds ∧
      (suited 7199999999999).nanos ≤ (suited 86400000000000).nanos := by
  obtain ⟨hladder, _, hsuited, hnonpos, hmono⟩ := whole_ladder
  obtain ⟨_, _, hway⟩ := hladder microseconds hours (by decide)
  have hhours : hours = suited 7199999999999 := by decide
  obtain ⟨hone, hlonger⟩ := ((hsuited 7199999999999 (by decide)).2.2 hours).mp hhours
  exact ⟨hway seconds (by decide) (by decide) _, by decide, hone, hlonger, hnonpos _ (by decide),
    hmono (by decide)⟩

end Chronograph.TimeUnit
