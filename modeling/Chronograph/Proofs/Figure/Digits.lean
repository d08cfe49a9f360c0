import Mathlib
import Chronograph.Proofs.Binary64.Shortest
import Chronograph.Proofs.Figure.Text

set_option autoImplicit false

/-!
# The digits of a double

A double is shown by the four digits of its shortest decimal. Reading these as a
double moves them by less than half a place, except below the smallest numbers
that have four digits, so the text is that of the four digits. At the very top
they are read as infinite.
-/
namespace Chronograph.Figure
open Rounding Text.Decimal

/-- Four digits are kept by a double less than half a place away. Below a power
    of ten the places are a tenth as wide. -/
theorem ofMagnitude_of_near {k : ℕ} (hlow : 1000 ≤ k) (hhigh : k < 10000) {e : ℤ} {m : Magnitude}
    (hnear : |m.value - k * power 10 (e - 3)| < power 10 (e - 3) / 2)
    (hbelow : k = 1000 → 1000 * power 10 (e - 3) - m.value < power 10 (e - 4) / 2)
    (negative : Bool) : ofMagnitude negative m = number negative k e := by
  have hu := power_pos 10 (e - 3)
  have hv := power_pos 10 (e - 4)
  have hstep := power_tenth e
  have hfirst := power_thousandth e
  have hk : (1000 : ℚ) ≤ k := by exact_mod_cast hlow
  have hk' : (k : ℚ) ≤ 9999 := by exact_mod_cast Nat.le_of_lt_succ hhigh
  have hlower := mul_le_mul_of_nonneg_right hk hu.le
  have hupper := mul_le_mul_of_nonneg_right hk' hu.le
  obtain ⟨habove, hunder⟩ := abs_lt.mp hnear
  have hx : 0 < m.value := by linarith
  unfold ofMagnitude
  dsimp only
  rw [if_neg hx.ne']
  by_cases hge : power 10 e ≤ m.value
  · have he : magnitude 10 m.value = e := by
      apply magnitude_eq_of_bounds 10 hge
      rw [power_succ 10, hfirst]
      push_cast
      linarith
    have hdigits : halfEven (m.value / power 10 (e - 3)) = (k : ℤ) := halfEven_div_eq hu hnear
    rw [he, hdigits, Int.toNat_natCast, if_neg (by omega)]
  · rw [not_le] at hge
    have hthousand : k = 1000 := by
      have : (k : ℚ) < 1001 := by
        by_contra hc
        have := mul_le_mul_of_nonneg_right (not_lt.mp hc) hu.le
        linarith
      have : k < 1001 := by exact_mod_cast this
      omega
    have hclose := hbelow hthousand
    have he : magnitude 10 m.value = e - 1 := by
      apply magnitude_eq_of_bounds 10
      · rw [power_thousandth, show e - 1 - 3 = e - 4 by omega]
        linarith
      · rwa [sub_add_cancel]
    have hdigits : halfEven (m.value / power 10 (e - 1 - 3)) = (10000 : ℕ) := by
      rw [show e - 1 - 3 = e - 4 by omega]
      apply halfEven_div_eq hv
      push_cast
      rw [abs_of_nonpos (by linarith)]
      linarith
    rw [he, hdigits, Int.toNat_natCast, if_pos rfl, sub_add_cancel, hthousand]

theorem power_spacing_bounds : power 10 (-324) < power 2 (-1074) ∧ power 2 (-1074) < power 10 (-323) := by
  decide +kernel

theorem overflowBound_between : 17975 * power 10 304 < Magnitude.overflowBound ∧
    Magnitude.overflowBound ≤ 1798 * power 10 305 := by decide +kernel

theorem top_le_fourDigits_shortest_iff {m : Magnitude} (hm : octave < m.rank) :
    1798 * power 10 305 ≤ fourDigits m.shortest ↔ Magnitude.nearestRank (17975 * power 10 304) ≤ m.rank := by
  have hmiddle : (((1798 : ℕ) : ℚ) - 1 / 2) * power 10 305 = 17975 * power 10 304 := by
    rw [power_shift 10 1 (show (305 : ℤ) = 304 + (1 : ℕ) by rfl)]
    push_cast
    ring
  have hdigits : Magnitude.Digits 5 (17975 * power 10 304) :=
    ⟨17975, 304, by decide, by rw [Nat.cast_ofNat]⟩
  have hfour := le_fourDigits_iff (show 1000 < 1798 by decide) (by decide) 305
    (Magnitude.shortest_pos (Nat.ne_zero_of_lt hm))
  rw [Nat.cast_ofNat] at hfour hmiddle
  rw [hfour, hmiddle, Magnitude.le_shortest_iff hm (by decide) hdigits]

theorem nearestRank_middle_lt_overflowRank : Magnitude.nearestRank (17975 * power 10 304) < overflowRank :=
  not_le.mp fun h =>
    absurd ((Magnitude.overflowRank_le_nearestRank_iff _).mp h) overflowBound_between.1.not_ge

theorem overflowRank_le_nearestRank :
    overflowRank ≤ Magnitude.nearestRank (1798 * power 10 305) :=
  (Magnitude.overflowRank_le_nearestRank_iff _).mpr overflowBound_between.2

theorem nearestRank_lt_overflowRank : Magnitude.nearestRank (1797 * power 10 305) < overflowRank := by
  refine (Magnitude.nearestRank_mono ?_).trans_lt nearestRank_middle_lt_overflowRank
  have hp := power_pos 10 304
  rw [power_shift 10 1 (show (305 : ℤ) = 304 + (1 : ℕ) by rfl)]
  push_cast
  linarith

/-- The smallest power of ten that has four digits is read as a double just below it;
    the double before that has three. -/
theorem value_smallest_near :
    0 < 1000 * power 10 (-320 - 3) - Magnitude.valueAt (Magnitude.nearestRank (1000 * power 10 (-320 - 3))) ∧
      1000 * power 10 (-320 - 3) - Magnitude.valueAt (Magnitude.nearestRank (1000 * power 10 (-320 - 3))) <
        power 10 (-320 - 4) / 2 := by decide +kernel

theorem spacing_lt {k : ℕ} (hlow : 1000 ≤ k) (hhigh : k < 10000) (e : ℤ) :
    Magnitude.spacing (k * power 10 (e - 3)) < power 10 (max (e - 4) (-323)) := by
  have hu := power_pos 10 (e - 4)
  have hk : (1000 : ℚ) ≤ k := by exact_mod_cast hlow
  have hk' : (k : ℚ) < 10000 := by exact_mod_cast hhigh
  have hx : 0 < k * power 10 (e - 3) := mul_pos (by linarith) (power_pos 10 _)
  by_cases hnormal : power 2 (-1022) ≤ k * power 10 (e - 3)
  · have hspacing := Magnitude.octave_mul_spacing_le hnormal
    have hupper : k * power 10 (e - 3) < 100000 * power 10 (e - 4) := by
      rw [show e - 3 = e - 4 + 1 by omega, power_succ 10]
      have := mul_lt_mul_of_pos_right hk' hu
      push_cast
      linarith
    unfold octave at hspacing
    norm_num at hspacing
    calc
      Magnitude.spacing (k * power 10 (e - 3)) < power 10 (e - 4) := by linarith
      _ ≤ power 10 (max (e - 4) (-323)) := power_le_power 10 (le_max_left _ _)
  · rw [Magnitude.spacing_of_subnormal hx (not_le.mp hnormal)]
    exact power_spacing_bounds.2.trans_le (power_le_power 10 (le_max_right _ _))

/-- From ten to the power of -320 up to the top, four digits survive reading. -/
theorem ofDecimal_eq_number {k : ℕ} (hlow : 1000 ≤ k) (hhigh : k < 10000) {e : ℤ} (he : -320 ≤ e)
    (htop : k * power 10 (e - 3) ≤ 1797 * power 10 305) (negative : Bool) :
    ofDecimal negative (k * power 10 (e - 3)) = number negative k e := by
  have hx : 0 < k * power 10 (e - 3) :=
    mul_pos (Nat.cast_pos.mpr (by omega)) (power_pos 10 _)
  have hrank := (Magnitude.nearestRank_mono htop).trans_lt nearestRank_lt_overflowRank
  have hread : Magnitude.nearest? (k * power 10 (e - 3)) = some ⟨_, hrank⟩ := dif_pos hrank
  have herror := Magnitude.abs_valueAt_nearestRank_sub_le hx
  have hspacing := spacing_lt hlow hhigh e
  unfold ofDecimal
  rw [hread]
  refine ofMagnitude_of_near hlow hhigh ?_ ?_ negative
  · calc
      |Magnitude.valueAt (Magnitude.nearestRank (k * power 10 (e - 3))) - k * power 10 (e - 3)|
          ≤ Magnitude.spacing (k * power 10 (e - 3)) / 2 := herror
      _ < power 10 (max (e - 4) (-323)) / 2 := by linarith
      _ ≤ power 10 (e - 3) / 2 := by
        have := power_le_power 10 (show max (e - 4) (-323) ≤ e - 3 by omega)
        linarith
  · rintro rfl
    rw [Nat.cast_ofNat] at *
    by_cases hsmallest : e = -320
    · subst hsmallest
      exact value_smallest_near.2
    · rw [max_eq_left (by omega)] at hspacing
      have := (abs_le.mp herror).1
      change 1000 * power 10 (e - 3) - Magnitude.valueAt _ < _
      linarith

theorem rounded?_eq {m : Magnitude} (hm : m.rank ≠ 0) (negative : Bool) :
    rounded? negative m = some (ofDecimal negative (fourDigits m.shortest)) := by
  unfold rounded?
  rw [if_neg hm, quantized?_place (Magnitude.shortest_pos hm), Option.map_some]

theorem exists_ofBinary64?_eq (negative : Bool) (m : Magnitude) :
    ∃ f, ofBinary64? (.finite negative m) = some f := by
  by_cases hm : m.rank = 0
  · exact ⟨_, if_pos hm⟩
  · exact ⟨_, rounded?_eq hm negative⟩

theorem ofDecimal_top (negative : Bool) :
    ofDecimal negative (1798 * power 10 305) = infinite negative := by
  unfold ofDecimal Magnitude.nearest?
  rw [dif_neg (not_lt.mpr overflowRank_le_nearestRank)]

theorem fourDigits_shortest_le {m : Magnitude} (hm : m.rank ≠ 0) :
    fourDigits m.shortest ≤ 1798 * power 10 305 := by
  have hlt : m.shortest < 1798 * power 10 305 := by
    by_contra hge
    have h := overflowRank_le_nearestRank.trans (Magnitude.nearestRank_mono (not_lt.mp hge))
    rw [Magnitude.nearestRank_shortest hm] at h
    exact absurd m.rank_lt (not_lt.mpr h)
  have hfour := fourDigits_significand (show 1000 ≤ 1798 by decide) (by decide) 305
  rw [Nat.cast_ofNat] at hfour
  exact hfour ▸ fourDigits_mono (Magnitude.shortest_pos hm) hlt.le

theorem le_fourDigits {x : ℚ} (h : power 10 (-320) ≤ x) : power 10 (-320) ≤ fourDigits x := by
  rw [← fourDigits_power]
  exact fourDigits_mono (power_pos 10 _) h

theorem le_of_lt_top {k : ℕ} (hhigh : k < 10000) {e : ℤ}
    (h : k * power 10 (e - 3) < 1798 * power 10 305) (hlow : 1000 ≤ k) :
    k * power 10 (e - 3) ≤ 1797 * power 10 305 := by
  have hp := power_pos 10 305
  have hk : (1000 : ℚ) ≤ k := by exact_mod_cast hlow
  have hk' : (k : ℚ) < 10000 := by exact_mod_cast hhigh
  rcases lt_trichotomy e 308 with hlt | rfl | hgt
  · have hstep : power 10 (e - 3 + 1) ≤ power 10 305 := power_le_power 10 (by omega)
    rw [power_succ 10] at hstep
    have := mul_lt_mul_of_pos_right hk' (power_pos 10 (e - 3))
    push_cast at hstep
    linarith
  · have : (k : ℚ) < 1798 := lt_of_mul_lt_mul_right h hp.le
    have : k < 1798 := by exact_mod_cast this
    have : (k : ℚ) ≤ 1797 := by exact_mod_cast Nat.le_of_lt_succ this
    exact mul_le_mul_of_nonneg_right this hp.le
  · have hstep : power 10 (305 + 1) ≤ power 10 (e - 3) := power_le_power 10 (by omega)
    rw [power_succ 10] at hstep
    have := mul_le_mul_of_nonneg_right hk (power_pos 10 (e - 3)).le
    push_cast at hstep
    linarith

theorem ofDecimal_fourDigits {x : ℚ} (hx : power 10 (-320) ≤ x)
    (htop : fourDigits x < 1798 * power 10 305) (negative : Bool) :
    ∃ (k : ℕ) (e : ℤ), 1000 ≤ k ∧ k < 10000 ∧ fourDigits x = k * power 10 (e - 3) ∧
      ofDecimal negative (fourDigits x) = number negative k e := by
  have hpos := (power_pos 10 (-320)).trans_le hx
  obtain ⟨k, e, hlow, hhigh, he⟩ := exists_fourDigits hpos
  have hbound := le_fourDigits hx
  rw [he] at hbound htop ⊢
  have hrange : -320 ≤ e := by
    rw [← le_magnitude_iff 10 (mul_pos (Nat.cast_pos.mpr (by omega))
      (power_pos 10 _)), magnitude_significand hlow hhigh] at hbound
    omega
  exact ⟨k, e, hlow, hhigh, rfl,
    ofDecimal_eq_number hlow hhigh hrange (le_of_lt_top hhigh htop hlow) negative⟩

def decimal (negative : Bool) (m : Magnitude) : ℚ := if negative then -m.shortest else m.shortest

theorem abs_decimal {m : Magnitude} (hm : m.rank ≠ 0) (negative : Bool) :
    |decimal negative m| = m.shortest := by
  have hpos := Magnitude.shortest_pos hm
  cases negative
  · exact abs_of_pos hpos
  · exact (abs_neg _).trans (abs_of_pos hpos)

theorem roundFour_decimal {m : Magnitude} (hm : m.rank ≠ 0) (negative : Bool) :
    roundFour (decimal negative m) =
      if negative then -fourDigits m.shortest else fourDigits m.shortest := by
  have hpos := Magnitude.shortest_pos hm
  cases negative
  · exact roundFour_of_pos hpos
  · exact roundFour_neg hpos

theorem abs_roundFour_decimal {m : Magnitude} (hm : m.rank ≠ 0) (negative : Bool) :
    |roundFour (decimal negative m)| = fourDigits m.shortest := by
  have hpos := fourDigits_pos (Magnitude.shortest_pos hm)
  rw [roundFour_decimal hm]
  cases negative
  · exact abs_of_pos hpos
  · exact (abs_neg _).trans (abs_of_pos hpos)

/-- Every finite double has a figure. With `d` its shortest decimal, from ten to
    the power of -320 on, that figure's text is the one that shows `d` in four
    digits, halves going away from zero; at the top it is that of an infinity. -/
theorem ofBinary64?_finite (negative : Bool) (m : Magnitude) :
    ∃ f, ofBinary64? (.finite negative m) = some f ∧ (m.rank ≠ 0 →
      m.IsShortest |decimal negative m| ∧
      (power 10 (-320) ≤ |decimal negative m| →
        |roundFour (decimal negative m)| < 1798 * power 10 305 →
        ∀ s : String, Shows (roundFour (decimal negative m)) s.toList ↔ s = f.text) ∧
      (|roundFour (decimal negative m)| = 1798 * power 10 305 →
        f.text = if negative then "-inf" else "inf") ∧
      |roundFour (decimal negative m)| ≤ 1798 * power 10 305) := by
  by_cases hm : m.rank = 0
  · exact ⟨_, if_pos hm, fun h => absurd hm h⟩
  · refine ⟨_, rounded?_eq hm negative, fun _ => ?_⟩
    rw [abs_decimal hm, abs_roundFour_decimal hm]
    refine ⟨Magnitude.isShortest_shortest hm, ?_, ?_, fourDigits_shortest_le hm⟩
    · intro hlow htop s
      obtain ⟨k, e, hk, hk', he, hf⟩ := ofDecimal_fourDigits hlow htop negative
      have hshows : Shows (roundFour (decimal negative m)) (number negative k e).chars := by
        rw [roundFour_decimal hm, he]
        exact shows_chars hk hk' negative e
      rw [hf]
      constructor
      · intro h
        rw [← String.toList_inj, shows_unique h hshows]
        exact String.toList_ofList.symm
      · rintro rfl
        rw [text, String.toList_ofList]
        exact hshows
    · intro htop
      rw [htop, ofDecimal_top]
      cases negative <;> rfl

theorem ofBinary64?_finite_carry :
    roundFour (decimal true ⟨4621818836113994809, by decide⟩) = -10 ∧
      ∀ s : String, Shows (-10) s.toList ↔ s = "-10.00" := by
  have hfigure : ofBinary64? (.finite true ⟨4621818836113994809, by decide⟩) = some (number true 1000 1) := by
    decide +kernel
  have hround : roundFour (decimal true ⟨4621818836113994809, by decide⟩) = -10 := by cbv
  obtain ⟨f, hf, h⟩ := ofBinary64?_finite true ⟨4621818836113994809, by decide⟩
  obtain ⟨_, hshows, _⟩ := h (by decide)
  rw [abs_decimal (by decide), hround] at hshows
  rw [hfigure, Option.some.injEq] at hf
  subst hf
  exact ⟨hround, hshows (by decide +kernel) (by decide +kernel)⟩

end Chronograph.Figure
