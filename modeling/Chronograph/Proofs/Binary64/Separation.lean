import Mathlib
import Chronograph.Proofs.Binary64.Tie

set_option autoImplicit false

/-!
# Ties apart from quotients

Two multiples of one fraction are at least that fraction apart. Where this is
more than the spacing of the doubles allows, a number and a tie above it do not
round to one double. Whole numbers up to two to the 53rd are doubles themselves,
and no tie above such a number rounds to it.
-/
namespace Chronograph.Magnitude
open Rounding

def Part (w : ℕ) (x : ℚ) : Prop := ∃ a : ℤ, x * w = a

theorem part_of_dvd {v w : ℕ} (h : v ∣ w) {x : ℚ} (hx : Part v x) : Part w x := by
  obtain ⟨c, rfl⟩ := h
  obtain ⟨a, ha⟩ := hx
  refine ⟨a * c, ?_⟩
  push_cast
  rw [← mul_assoc, ha]

theorem part_div (n : ℤ) {w : ℕ} (hw : 0 < w) : Part w ((n : ℚ) / w) :=
  ⟨n, div_mul_cancel₀ _ (Nat.cast_ne_zero.mpr hw.ne')⟩

theorem one_le_sub_mul {w : ℕ} (hw : 0 < w) {x y : ℚ} (hx : Part w x) (hy : Part w y) (h : x < y) :
    1 ≤ (y - x) * w := by
  obtain ⟨a, ha⟩ := hx
  obtain ⟨b, hb⟩ := hy
  have hlt : (a : ℚ) < b := by
    rw [← ha, ← hb]
    exact mul_lt_mul_of_pos_right h (Nat.cast_pos.mpr hw)
  have hle : a + 1 ≤ b := Int.add_one_le_of_lt (Int.cast_lt.mp hlt)
  have hle' : (a : ℚ) + 1 ≤ b := by exact_mod_cast hle
  rw [sub_mul, ha, hb]
  linarith

theorem part_tie {t : ℚ} (ht : Tie t) (h : 1 ≤ t) : Part 10000 t := by
  obtain ⟨k, e, _, hk, rfl⟩ := ht
  have hu := power_pos 10 (e - 4)
  have he : 0 ≤ e := by
    by_contra hneg
    have hsmall : power 10 (e - 4) ≤ power 10 (-5) := power_le_power 10 (by omega)
    have hfive : power 10 (-5) = 1 / 100000 := by cbv
    have hk' : ((10 * k + 5 : ℕ) : ℚ) ≤ 99995 := by exact_mod_cast (by omega)
    have := mul_le_mul_of_nonneg_right hk' hu.le
    linarith
  refine ⟨(10 * k + 5 : ℕ) * (10 ^ e.toNat : ℕ), ?_⟩
  have hsplit : power 10 e = (10 ^ 4 : ℕ) * power 10 (e - 4) :=
    power_shift 10 4 (show e = e - 4 + (4 : ℕ) by omega)
  have hwhole : power 10 e = (10 ^ e.toNat : ℕ) := by
    rw [← power_natCast, Int.toNat_of_nonneg he]
  calc
    ((10 * k + 5 : ℕ) : ℚ) * power 10 (e - 4) * (10000 : ℕ)
        = ((10 * k + 5 : ℕ) : ℚ) * ((10 ^ 4 : ℕ) * power 10 (e - 4)) := by
          norm_num
          ring
    _ = (((10 * k + 5 : ℕ) * (10 ^ e.toNat : ℕ) : ℤ) : ℚ) := by
      rw [← hsplit, hwhole]
      push_cast
      rfl

theorem spacing_le {x : ℚ} (hx : 0 < x) {j : ℤ} (hj : -1021 ≤ j) (h : x < power 2 j) :
    spacing x ≤ power 2 (j - 53) := by
  have := (magnitude_lt_iff 2 hx j).mpr h
  apply power_le_power 2
  unfold gridExponent
  omega

/-- Two parts of one round to two doubles if the parts are wider than the
    spacings of the doubles around them. -/
theorem nearestRank_ne_of_part {w : ℕ} (hw : 0 < w) {x y : ℚ} {j : ℤ} (hx : 1 ≤ x)
    (hj : x < power 2 j) (hwide : 3 * w * power 2 (j - 54) < 1) (hpx : Part w x) (hpy : Part w y)
    (h : x < y) : nearestRank y ≠ nearestRank x := by
  intro heq
  have hx0 : 0 < x := zero_lt_one.trans_le hx
  have hjpos : 0 < j := by
    rw [← power_lt_power_iff 2, power_zero]
    exact hx.trans_lt hj
  have hclose := octave_mul_sub_le (normal_of_one_le hx) h.le heq.symm
  have hy : y < power 2 (j + 1) := by
    rw [power_succ 2]
    unfold octave at hclose
    norm_num at hclose ⊢
    linarith
  have hsx := spacing_le hx0 (show -1021 ≤ j by omega) hj
  have hsy := spacing_le (hx0.trans h) (show -1021 ≤ j + 1 by omega) hy
  have hsum := abs_sub_le_of_nearestRank_eq hx0 (hx0.trans h) heq.symm
  rw [abs_of_nonpos (by linarith)] at hsum
  rw [show j - 53 = j - 54 + 1 by omega, power_succ 2] at hsx
  rw [show j + 1 - 53 = j - 54 + 1 + 1 by omega, power_succ 2,
    power_succ 2] at hsy
  have happart := one_le_sub_mul hw hpx hpy h
  have hdist : y - x ≤ 3 * power 2 (j - 54) := by
    push_cast at hsx hsy
    linarith
  have := mul_le_mul_of_nonneg_right hdist (Nat.cast_nonneg (α := ℚ) w)
  linarith

theorem valueAt_nearestRank_natCast {n : ℕ} (hn : 0 < n) (h : n ≤ 9007199254740992) :
    valueAt (nearestRank n) = n := by
  have hn0 : (0 : ℚ) < n := Nat.cast_pos.mpr hn
  rcases h.lt_or_eq with hlt | rfl
  · have hsmall : (n : ℚ) < power 2 53 := by
      rw [show power 2 53 = (9007199254740992 : ℕ) by decide]
      exact_mod_cast hlt
    have hg : gridExponent n ≤ 0 := by
      have := (magnitude_lt_iff 2 hn0 53).mpr hsmall
      unfold gridExponent
      omega
    have hs := spacing_pos (n : ℚ)
    have hinv : power 2 0 = (2 ^ (0 - gridExponent n).toNat : ℕ) * spacing n :=
      power_eq_mul 2 hg
    rw [power_zero] at hinv
    have hwhole : (n : ℚ) / spacing n = ((n * 2 ^ (0 - gridExponent n).toNat : ℕ) : ℤ) := by
      rw [div_eq_iff hs.ne', Int.cast_natCast, Nat.cast_mul, mul_assoc, ← hinv, mul_one]
    rw [valueAt_nearestRank hn0, hwhole, halfEven_intCast, ← hwhole, div_mul_cancel₀ _ hs.ne']
  · have hgrid : ((9007199254740992 : ℕ) : ℚ) = octave * power 2 ((1075 : ℕ) - 1074) := by
      rw [← power_octave, ← power_add 2]
      exact (power_natCast 2 53).symm
    have hoctave := octave_pos
    rw [hgrid, nearestRank_grid octave 1075 (Or.inr le_rfl) (by omega) hoctave,
      valueAt_grid octave 1075 (Or.inr le_rfl) (by omega)]

theorem mul_sub_le_of_nearestRank_eq {n : ℕ} (hn : 0 < n) (hmax : n ≤ 9007199254740992) {t : ℚ}
    (h : (n : ℚ) < t) (heq : nearestRank t = nearestRank n) : 9007199254740992 * (t - n) ≤ t := by
  have hn1 : (1 : ℚ) ≤ n := by exact_mod_cast hn
  have herror := abs_valueAt_nearestRank_sub_le (show 0 < t by linarith)
  have hspacing := octave_mul_spacing_le (normal_of_one_le (hn1.trans h.le))
  rw [heq, valueAt_nearestRank_natCast hn hmax, abs_of_nonpos (by linarith)] at herror
  unfold octave at hspacing
  norm_num at hspacing
  linarith

/-- A tie with digits after the ones is farther from a whole number below it
    than its last digit stands for. -/
theorem lt_mul_sub_of_fraction {n k : ℕ} (hk : k < 10000) {e : ℤ} (he : e ≤ 4)
    (h : (n : ℚ) < (10 * k + 5 : ℕ) * power 10 (e - 4)) :
    (10 * k + 5 : ℕ) * power 10 (e - 4) < 100000 * ((10 * k + 5 : ℕ) * power 10 (e - 4) - n) := by
  have hu := power_pos 10 (e - 4)
  have hpart : (n : ℚ) = (n * 10 ^ (0 - (e - 4)).toNat : ℕ) * power 10 (e - 4) := by
    have hone := power_eq_mul 10 (show e - 4 ≤ 0 by omega)
    rw [power_zero] at hone
    rw [Nat.cast_mul, mul_assoc, ← hone, mul_one]
  rw [hpart] at h ⊢
  have hlt : n * 10 ^ (0 - (e - 4)).toNat < 10 * k + 5 := by
    exact_mod_cast lt_of_mul_lt_mul_right h hu.le
  have hnext : ((n * 10 ^ (0 - (e - 4)).toNat : ℕ) : ℚ) + 1 ≤ (10 * k + 5 : ℕ) := by
    exact_mod_cast hlt
  have hdigits : ((10 * k + 5 : ℕ) : ℚ) < 100000 := by exact_mod_cast (by omega)
  have hlast := mul_le_mul_of_nonneg_right hnext hu.le
  have hall := mul_lt_mul_of_pos_right hdigits hu
  linarith

/-- Of the whole numbers only two to the 53rd and its successor are close enough
    to one below them, and neither ends in five or zero. -/
theorem lt_mul_sub_of_whole {n T : ℕ} (hmax : n ≤ 9007199254740992) (hfive : T % 5 = 0)
    (h : n < T) : T + 9007199254740992 * n < 9007199254740992 * T := by
  omega

theorem nearestRank_tie_ne_natCast {n : ℕ} (hn : 0 < n) (hmax : n ≤ 9007199254740992) {t : ℚ}
    (ht : Tie t) (h : (n : ℚ) < t) : nearestRank t ≠ nearestRank n := by
  intro heq
  have hclose := mul_sub_le_of_nearestRank_eq hn hmax h heq
  obtain ⟨k, e, _, hk, rfl⟩ := ht
  rcases le_total e 4 with hle | hge
  · have hfar := lt_mul_sub_of_fraction hk hle h
    linarith
  · have hwhole : ((10 * k + 5 : ℕ) : ℚ) * power 10 (e - 4) =
        ((10 * k + 5) * 10 ^ (e - 4).toNat : ℕ) := by
      rw [Nat.cast_mul, ← power_natCast, Int.toNat_of_nonneg (by omega)]
    have hfive : (10 * k + 5) * 10 ^ (e - 4).toNat % 5 = 0 := by
      rw [show 10 * k + 5 = 5 * (2 * k + 1) by omega, mul_assoc, Nat.mul_mod_right]
    rw [hwhole] at h hclose
    have hfar := lt_mul_sub_of_whole hmax hfive (by exact_mod_cast h)
    have hfar' : (((10 * k + 5) * 10 ^ (e - 4).toNat : ℕ) : ℚ) + 9007199254740992 * n <
        9007199254740992 * ((10 * k + 5) * 10 ^ (e - 4).toNat : ℕ) := by exact_mod_cast hfar
    linarith

end Chronograph.Magnitude
