import Mathlib
import Chronograph.Proofs.Binary64.Shortest

set_option autoImplicit false

/-!
# Ties

A tie is a decimal of five digits that ends in five, halfway between two
decimals of four digits. The shortest decimal of the double of `x` has the four
digits of `x`, unless a tie above `x` has the same double: it is then that tie.
-/
namespace Chronograph.Magnitude
open Rounding

def Tie (t : ℚ) : Prop :=
  ∃ (k : ℕ) (e : ℤ), 1000 ≤ k ∧ k < 10000 ∧ t = ((10 * k + 5 : ℕ) : ℚ) * power 10 (e - 4)

theorem digits_tie {t : ℚ} (h : Tie t) : Digits 5 t := by
  obtain ⟨k, e, _, hk, rfl⟩ := h
  exact ⟨10 * k + 5, e - 4, by omega, rfl⟩

theorem power_magnitude_succ_eq (x : ℚ) : power 10 (magnitude 10 x + 1) = 10000 * place 4 x := by
  rw [power_succ 10, place_eq_mul (show 0 < 4 by decide)]
  push_cast
  ring

theorem fourDigits_around_tie {x t : ℚ} (ht : Tie t) (hx : x < t) (hnear : 100000 * (t - x) < t) :
    fourDigits t = fourDigits x + place 4 x := by
  obtain ⟨k, e, hlow, hhigh, rfl⟩ := ht
  have hu := power_pos 10 (e - 4)
  have hk : (1000 : ℚ) ≤ k := by exact_mod_cast hlow
  have hk' : (k : ℚ) ≤ 9999 := by exact_mod_cast Nat.le_of_lt_succ hhigh
  have hl := mul_le_mul_of_nonneg_right hk hu.le
  have hh := mul_le_mul_of_nonneg_right hk' hu.le
  push_cast at hx hnear ⊢
  have hfirst : power 10 e = 10000 * power 10 (e - 4) := by
    rw [power_shift 10 4 (show e = e - 4 + (4 : ℕ) by omega)]
    norm_num
  have hplace : ∀ {y : ℚ}, power 10 e ≤ y → y < power 10 (e + 1) → place 4 y = power 10 (e - 3) := by
    intro y h1 h2
    rw [place_four, magnitude_eq_of_bounds 10 h1 h2]
  have hnext : power 10 (e + 1) = 100000 * power 10 (e - 4) := by
    rw [power_succ 10, hfirst]
    push_cast
    ring
  have hpx : place 4 x = power 10 (e - 3) :=
    hplace (by rw [hfirst]; linarith) (by rw [hnext]; linarith)
  have hpt : place 4 ((10 * k + 5) * power 10 (e - 4)) = power 10 (e - 3) :=
    hplace (by rw [hfirst]; linarith) (by rw [hnext]; linarith)
  have hx4 : halfUp (x / place 4 x) = k := by
    rw [halfUp_div_place_eq_iff, hpx, power_tenth, Int.cast_natCast]
    constructor <;> linarith
  have ht4 : halfUp ((10 * k + 5) * power 10 (e - 4) / place 4 ((10 * k + 5) * power 10 (e - 4))) =
      ((k + 1 : ℕ) : ℤ) := by
    rw [halfUp_div_place_eq_iff, hpt, power_tenth, Int.cast_natCast]
    push_cast
    constructor <;> linarith
  unfold fourDigits
  rw [hx4, ht4, hpx, hpt]
  push_cast
  ring

theorem octave_mul_sub_le {x y : ℚ} (hnormal : power 2 (-1022) ≤ x) (h : x ≤ y)
    (heq : nearestRank x = nearestRank y) : octave * (y - x) ≤ y := by
  have hx : 0 < x := (power_pos 2 _).trans_le hnormal
  have hclose := abs_sub_le_of_nearestRank_eq hx (hx.trans_le h) heq
  have hsx := octave_mul_spacing_le hnormal
  have hsy := octave_mul_spacing_le (hnormal.trans h)
  rw [abs_of_nonpos (by linarith)] at hclose
  unfold octave at hsx hsy ⊢
  norm_num at hsx hsy ⊢
  linarith

theorem shortest_eq {m : Magnitude} (hm : octave < m.rank) {t : ℚ} (ht : Digits 5 t)
    (hread : nearestRank t = m.rank) : m.shortest = t :=
  shortest_eq_of_digits hm (by decide) ht hread

theorem digits_power (e : ℤ) : Digits 5 (power 10 e) :=
  ⟨1, e, by decide, by rw [Nat.cast_one, one_mul]⟩

theorem digits_half {n : ℤ} (hlow : 0 < n) (hhigh : n ≤ 10000) (e : ℤ) :
    Digits 5 ((n - 1 / 2) * power 10 (e - 3)) := by
  refine ⟨(10 * n - 5).toNat, e - 4, by omega, ?_⟩
  rw [power_tenth, ← Int.cast_natCast, Int.toNat_of_nonneg (by omega)]
  push_cast
  ring

/-- The shortest decimal is not below the numbers that have the four digits of
    `x`: the least of these has five digits and would be the shortest itself. -/
theorem cell_le_shortest {m : Magnitude} (hm : octave < m.rank) {x : ℚ} (hx : 0 < x)
    (hread : nearestRank x = m.rank) :
    power 10 (magnitude 10 x) ≤ m.shortest ∧
      (halfUp (x / place 4 x) - 1 / 2) * place 4 x ≤ m.shortest := by
  have hdigits := halfUp_div_place_bounds hx
  have hcell := ((halfUp_div_place_eq_iff x _).mp rfl).1
  have hfloor := power_magnitude_le 10 hx
  refine ⟨le_shortest_of_le hm (show 5 ≤ 15 by decide) (digits_power _) hfloor hread,
    le_shortest_of_le hm (show 5 ≤ 15 by decide) ?_ hcell hread⟩
  rw [place_four]
  exact digits_half (by rw [← place_four]; omega) (by rw [← place_four]; omega) _

theorem shortest_lt_cell {m : Magnitude} (hm : octave < m.rank) {x : ℚ} (hx : 0 < x)
    (hread : nearestRank x = m.rank) (hties : ∀ t, Tie t → x < t → nearestRank t ≠ m.rank) :
    m.shortest ≤ power 10 (magnitude 10 x + 1) ∧
      m.shortest < (halfUp (x / place 4 x) + 1 / 2) * place 4 x := by
  have hdigits := halfUp_div_place_bounds hx
  have hcell := ((halfUp_div_place_eq_iff x _).mp rfl).2
  have hceil := lt_power_magnitude_succ 10 x
  have hsread := nearestRank_shortest (octave_pos.trans hm).ne'
  have hnext := power_magnitude_succ_eq x
  have hp := place_pos 4 x
  have hfirst : m.shortest ≤ power 10 (magnitude 10 x + 1) :=
    shortest_le_of_le hm (show 5 ≤ 15 by decide) (digits_power _) hceil.le hread
  refine ⟨hfirst, ?_⟩
  rcases hdigits.2.lt_or_eq with hlt | heq
  · by_contra hge
    have htie : Tie ((halfUp (x / place 4 x) + 1 / 2) * place 4 x) := by
      refine ⟨(halfUp (x / place 4 x)).toNat, magnitude 10 x, by omega, by omega, ?_⟩
      have hcast : ((halfUp (x / place 4 x)).toNat : ℚ) = halfUp (x / place 4 x) := by
        rw [← Int.cast_natCast, Int.toNat_of_nonneg (by omega)]
      push_cast
      rw [hcast, place_four, power_tenth]
      ring
    have hb := nearestRank_eq_of_between hcell.le (not_lt.mp hge) (hread.trans hsread.symm)
    exact hties _ htie hcell (hb.trans hread)
  · rw [heq]
    push_cast
    linarith

theorem fourDigits_shortest_of_no_tie {m : Magnitude} (hm : octave < m.rank) {x : ℚ} (hx : 0 < x)
    (hread : nearestRank x = m.rank) (hties : ∀ t, Tie t → x < t → nearestRank t ≠ m.rank) :
    fourDigits m.shortest = fourDigits x := by
  obtain ⟨hfloor, hlow⟩ := cell_le_shortest hm hx hread
  obtain ⟨hceil, hhigh⟩ := shortest_lt_cell hm hx hread hties
  rcases hceil.lt_or_eq with hlt | heq
  · have hplace : place 4 m.shortest = place 4 x := by
      rw [place_four, magnitude_eq_of_bounds 10 hfloor hlt, ← place_four]
    have hsame : halfUp (m.shortest / place 4 m.shortest) = halfUp (x / place 4 x) := by
      rw [halfUp_div_place_eq_iff, hplace]
      exact ⟨hlow, hhigh⟩
    unfold fourDigits
    rw [hsame, hplace]
  · -- The next power of ten: its four digits are those that `x` is rounded up to.
    have hnext := power_magnitude_succ_eq x
    have hp := place_pos 4 x
    have hten : halfUp (x / place 4 x) = 10000 := by
      have hb := (halfUp_div_place_bounds hx).2
      rw [heq, hnext] at hhigh
      have hgt := lt_of_mul_lt_mul_right hhigh hp.le
      have : (9999 : ℚ) < halfUp (x / place 4 x) := by linarith
      have : 9999 < halfUp (x / place 4 x) := by exact_mod_cast this
      omega
    rw [heq, fourDigits_power, hnext]
    unfold fourDigits
    rw [hten]
    push_cast
    rfl

end Chronograph.Magnitude
