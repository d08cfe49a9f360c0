import Mathlib
import Chronograph.Proofs.Figure.Written

set_option autoImplicit false

/-!
# Texts read back

A text that is read as a double shows that double. From ten to the power of -320
on the text says the four digits that were rounded to, and these are read as the
double that is written. Below that the doubles are farther apart than the places
of the digits, so the digits of a double are nearest to that double. Either way
the double that was written is read; its shortest decimal has at most four
digits, none is rounded off, and the double is written again.
-/
namespace Chronograph
open Rounding Text.Decimal

namespace Magnitude

theorem exists_multiple_smallest (r : ℕ) : ∃ n : ℤ, valueAt r = n * power 2 (-1074) := by
  obtain ⟨h, k, rfl, hk, hh⟩ := exists_grid r
  refine ⟨h * (2 ^ k : ℕ), ?_⟩
  rw [valueAt_grid h k hk hh.le, power_shift 2 k (show (k : ℤ) - 1074 = -1074 + k by omega)]
  push_cast
  ring

theorem power_le_abs_valueAt_sub {r s : ℕ} (h : r ≠ s) :
    power 2 (-1074) ≤ |valueAt r - valueAt s| := by
  have hp := power_pos 2 (-1074)
  obtain ⟨a, ha⟩ := exists_multiple_smallest r
  obtain ⟨b, hb⟩ := exists_multiple_smallest s
  have hab : a - b ≠ 0 := by
    intro heq
    rw [sub_eq_zero.mp heq, ← hb] at ha
    exact h (valueAt_strictMono.injective ha)
  have hone : (1 : ℚ) ≤ |(a - b : ℤ)| := by exact_mod_cast Int.one_le_abs hab
  rw [ha, hb, ← sub_mul, abs_mul, abs_of_pos hp]
  exact le_mul_of_one_le_left hp.le (by exact_mod_cast hone)

theorem nearestRank_of_close {x : ℚ} (hx : 0 < x) {r : ℕ} (h : |x - valueAt r| < power 2 (-1074) / 2) :
    nearestRank x = r := by
  by_contra hne
  have hfar := power_le_abs_valueAt_sub hne
  have hbest := abs_valueAt_nearestRank_sub_le_abs hx r
  have htriangle := abs_sub_le (valueAt (nearestRank x)) x (valueAt r)
  rw [abs_sub_comm (valueAt r)] at hbest
  linarith

theorem fourDigits_of_digits {x : ℚ} (hx : 0 < x) (h : Digits 4 x) : fourDigits x = x := by
  obtain ⟨n, hn⟩ := exists_multiple_of_digits h (power_magnitude_le 10 hx)
  exact toFour_of_multiple roundsWhole_halfUp hn

end Magnitude

/-- The double nearest to a size, with a sign; past the largest it is infinite. -/
def Binary64.ofSize (negative : Bool) (x : ℚ) : Binary64 :=
  match Magnitude.nearest? x with
  | some m => .finite negative m
  | none => .infinite negative

/-- The double that a decimal text is read as. Zero keeps the sign of the text. -/
def Binary64.read? : List Char → Option Binary64
  | '-' :: s => (unsigned? s).map (ofSize true)
  | s => (unsigned? s).map (ofSize false)

theorem Binary64.read?_of_head {s : List Char} (h : s.head? ≠ some '-') :
    Binary64.read? s = (unsigned? s).map (ofSize false) := by
  cases s with
  | nil => rfl
  | cons c s =>
    have hc : c ≠ '-' := fun e => h (congrArg some e)
    simp [Binary64.read?, hc]

namespace Figure

theorem chars_number (negative : Bool) (k : ℕ) (e : ℤ) : (number negative k e).chars =
    if negative then '-' :: unsignedChars k e else unsignedChars k e := by
  cases negative <;> rfl

theorem read?_number {k : ℕ} (hk : k < 10000) (negative : Bool) (e : ℤ) :
    Binary64.read? (number negative k e).chars = some (Binary64.ofSize negative (k * power 10 (e - 3))) := by
  have hvalue := unsigned?_unsignedChars hk e
  rw [chars_number]
  cases negative with
  | true =>
    change (unsigned? (unsignedChars k e)).map (Binary64.ofSize true) = _
    rw [hvalue]
    rfl
  | false =>
    change Binary64.read? (unsignedChars k e) = _
    rw [Binary64.read?_of_head (head_unsignedChars_ne k e), hvalue]
    rfl

theorem read?_ofMagnitude (negative : Bool) (m : Magnitude) :
    Binary64.read? (ofMagnitude negative m).chars = some (Binary64.ofSize negative (size m)) := by
  obtain ⟨k, e, hk, hsize, hform⟩ := exists_ofMagnitude m
  rw [hform, read?_number hk, hsize]

theorem valueAt_nearestRank_lt : Magnitude.valueAt (Magnitude.nearestRank (power 10 (-320))) <
    power 10 (-320) := by
  rw [power_thousandth (-320)]
  exact sub_pos.mp value_smallest_near.1

/-- The places of the digits are narrower than the doubles are apart. -/
theorem nearestRank_size_of_small {m : Magnitude} (h : m.value < power 10 (-320)) :
    Magnitude.nearestRank (size m) = m.rank := by
  by_cases hm : m.rank = 0
  · rw [size_of_rank_eq_zero hm, hm]
    exact Magnitude.nearestRank_of_nonpos le_rfl
  · have hx := Magnitude.value_pos hm
    have hplace : place 4 m.value ≤ power 10 (-324) := by
      have := (magnitude_lt_iff 10 hx (-320)).mpr h
      rw [place_four]
      exact power_le_power 10 (by omega)
    have hround : |size m - m.value| ≤ place 4 m.value / 2 := abs_halfEven_mul_sub_le (place_pos 4 _)
    apply Magnitude.nearestRank_of_close (size_pos hm)
    change |size m - m.value| < _
    linarith [power_spacing_bounds.1]

theorem value_lt_of_written? {m k : Magnitude} (hm : m.rank ≠ 0) (hlow : m.shortest < power 10 (-320))
    (hk : written? m = some k) : k.value < power 10 (-320) := by
  have hfour := fourDigits_mono (Magnitude.shortest_pos hm) hlow.le
  rw [fourDigits_power] at hfour
  rw [written?_eq_some_iff hm] at hk
  calc
    k.value ≤ Magnitude.valueAt (Magnitude.nearestRank (power 10 (-320))) :=
      Magnitude.valueAt_strictMono.monotone (hk ▸ Magnitude.nearestRank_mono hfour)
    _ < power 10 (-320) := valueAt_nearestRank_lt

theorem fourDigits_lt_of_written? {m k : Magnitude} (hm : m.rank ≠ 0) (hk : written? m = some k) :
    fourDigits m.shortest < 1798 * power 10 305 := by
  rw [written?_eq_some_iff hm] at hk
  by_contra hge
  have hrank := Magnitude.nearestRank_mono (not_lt.mp hge)
  rw [hk] at hrank
  exact absurd k.rank_lt (not_lt.mpr (overflowRank_le_nearestRank.trans hrank))

theorem nearest?_size_of_written? {m k : Magnitude} (hk : written? m = some k) :
    Magnitude.nearest? (size k) = some k := by
  rw [Magnitude.nearest?_eq_some_iff]
  by_cases hm : m.rank = 0
  · rw [written?, if_pos hm, Option.some.injEq] at hk
    rw [← hk, size_of_rank_eq_zero hm, hm]
    exact Magnitude.nearestRank_of_nonpos le_rfl
  · rcases le_or_gt (power 10 (-320)) m.shortest with hlow | hlow
    · obtain ⟨d, e, _, _, hfour, hform⟩ := ofDecimal_fourDigits hlow (fourDigits_lt_of_written? hm hk) false
      obtain ⟨d', e', _, hsize, hform'⟩ := exists_ofMagnitude k
      rw [written?, if_neg hm] at hk
      rw [ofDecimal_eq_ofWritten, hk, ofWritten, hform', number.injEq] at hform
      obtain ⟨_, rfl, rfl⟩ := hform
      rw [← hsize, ← hfour]
      exact Magnitude.nearest?_eq_some_iff.mp hk
    · exact nearestRank_size_of_small (value_lt_of_written? hm hlow hk)

theorem digits_size (m : Magnitude) : Magnitude.Digits 4 (size m) := by
  obtain ⟨k, e, hk, hsize, _⟩ := exists_ofMagnitude m
  exact ⟨k, e - 3, hk, hsize.symm⟩

theorem written?_of_nearest?_size {k : Magnitude} (h : Magnitude.nearest? (size k) = some k) :
    written? k = some k := by
  by_cases hk : k.rank = 0
  · exact if_pos hk
  · have hread := Magnitude.nearest?_eq_some_iff.mp h
    have hdigits := Magnitude.digits_shortest hk (digits_size k) hread
    rw [written?_eq_some_iff hk, Magnitude.fourDigits_of_digits (Magnitude.shortest_pos hk) hdigits]
    exact Magnitude.nearestRank_shortest hk

theorem text_infinite (negative : Bool) :
    (infinite negative).text = if negative then "-inf" else "inf" := by
  cases negative <;> rfl

/-- Every finite double, zeros and the smallest ones included, has a text, and if that
    is not the text of an infinity, then it is read as a finite double of the same sign
    whose text it is as well. -/
theorem ofBinary64?_read?_text (negative : Bool) (m : Magnitude) :
    ∃ f, ofBinary64? (.finite negative m) = some f ∧ (f.text ≠ "inf" → f.text ≠ "-inf" →
      ∃ k g, Binary64.read? f.text.toList = some (.finite negative k) ∧
        ofBinary64? (.finite negative k) = some g ∧ g.text = f.text) := by
  refine ⟨_, ofBinary64?_eq_ofWritten negative m, fun hinf hneg => ?_⟩
  cases hk : written? m with
  | none =>
    rw [hk] at hinf hneg
    change (infinite negative).text ≠ _ at hinf hneg
    rw [text_infinite] at hinf hneg
    cases negative
    · exact absurd rfl hinf
    · exact absurd rfl hneg
  | some k =>
    have hread := nearest?_size_of_written? hk
    refine ⟨k, ofMagnitude negative k, ?_, ?_, rfl⟩
    · change Binary64.read? (ofMagnitude negative k).text.toList = _
      rw [text, String.toList_ofList, read?_ofMagnitude, Binary64.ofSize, hread]
    · rw [ofBinary64?_eq_ofWritten, written?_of_nearest?_size hread]
      rfl

/-- The smallest double of all. Its shortest decimal has one digit and is rounded to
    5.000e-324, which is not what is written. -/
theorem ofBinary64?_read?_text_smallest :
    ofBinary64? (.finite true ⟨1, by decide⟩) = some (number true 4941 (-324)) ∧
      (number true 4941 (-324)).text = "-4.941e-324" ∧ "-4.941e-324" ≠ "inf" ∧ "-4.941e-324" ≠ "-inf" ∧
      ∃ k g, Binary64.read? "-4.941e-324".toList = some (.finite true k) ∧
        ofBinary64? (.finite true k) = some g ∧ g.text = "-4.941e-324" := by
  have hfigure : ofBinary64? (.finite true ⟨1, by decide⟩) = some (number true 4941 (-324)) := by
    decide +kernel
  have htext : (number true 4941 (-324)).text = "-4.941e-324" := by rfl
  obtain ⟨f, hf, hagain⟩ := ofBinary64?_read?_text true ⟨1, by decide⟩
  rw [hfigure, Option.some.injEq] at hf
  subst hf
  rw [htext] at hagain
  exact ⟨hfigure, htext, by decide, by decide, hagain (by decide) (by decide)⟩

end Figure
end Chronograph
