import Mathlib
import Chronograph.Elapsed
import Chronograph.Proofs.Binary64.Separation
import Chronograph.Proofs.Figure.Digits
import Chronograph.Proofs.TimeUnit

set_option autoImplicit false

/-!
# The number that a count is shown as

It is the exact quotient by the unit in four digits, although the quotient is
rounded to a double first. The one exception is a quotient whose double is also
that of a tie farther from zero: the tie is shown instead. There is none from
-2 to the 53rd up to 64 days.
-/
namespace Chronograph

def Binary64.nearest? (x : ℚ) : Option Binary64 :=
  (Magnitude.nearest? |x|).map (.finite (x < 0))

namespace Elapsed
open Rounding Text.Decimal

def exact (n : ℤ) : ℚ := n / (TimeUnit.suited n).nanos

/-- The tie `t` is farther from zero than `x`, on the same side, and both have one double. -/
def Masks (t x : ℚ) : Prop :=
  Magnitude.Tie |t| ∧ 0 < t * x ∧ |x| < |t| ∧ Binary64.nearest? t = Binary64.nearest? x

/-- The number in front of the first space of a text. -/
def shownNumber? (s : String) : Option ℚ := read? (s.toList.takeWhile (· ≠ ' '))

def shownUnit (s : String) : String := String.ofList (s.toList.dropWhile (· ≠ ' ')).tail

theorem abs_exact (n : ℤ) : |exact n| = (n.natAbs : ℚ) / (TimeUnit.suited n).nanos := by
  unfold exact
  rw [abs_div, Nat.abs_cast, Nat.cast_natAbs, Int.cast_abs]

theorem exact_neg_iff (n : ℤ) : exact n < 0 ↔ n < 0 := by
  have hu : (0 : ℚ) < (TimeUnit.suited n).nanos := Nat.cast_pos.mpr (TimeUnit.nanos_pos _)
  unfold exact
  rw [div_lt_iff₀ hu, zero_mul, Int.cast_lt_zero]

theorem quotient?_eq_nearest? (n : ℤ) :
    Binary64.quotient? n (TimeUnit.suited n).nanos = Binary64.nearest? (exact n) := by
  unfold Binary64.quotient? Binary64.nearest?
  rw [← abs_exact, decide_eq_decide.mpr (exact_neg_iff n)]

theorem one_le_abs_exact {n : ℤ} (hn : n ≠ 0) : 1 ≤ |exact n| := by
  have hu : (0 : ℚ) < (TimeUnit.suited n).nanos := Nat.cast_pos.mpr (TimeUnit.nanos_pos _)
  rw [abs_exact, le_div_iff₀ hu, one_mul]
  rcases lt_or_gt_of_ne hn with hneg | hpos
  · rw [TimeUnit.suited_of_nonpos hneg.le]
    exact_mod_cast Int.natAbs_pos.mpr hn
  · have := TimeUnit.nanos_suited_le hpos
    exact_mod_cast (by omega : (TimeUnit.suited n).nanos ≤ n.natAbs)

theorem octave_lt_nearestRank_one : octave < Magnitude.nearestRank 1 := by cbv

theorem octave_lt_rank {x : ℚ} (hx : 1 ≤ x) {m : Magnitude} (h : Magnitude.nearest? x = some m) :
    octave < m.rank :=
  Magnitude.nearest?_eq_some_iff.mp h ▸ octave_lt_nearestRank_one.trans_le (Magnitude.nearestRank_mono hx)

theorem text_of_ne_zero {n : ℤ} (hn : n ≠ 0) {m : Magnitude}
    (hm : Magnitude.nearest? |exact n| = some m) :
    text n = .ok ((Figure.ofDecimal (n < 0) (fourDigits m.shortest)).text ++ " " ++
      (TimeUnit.suited n).abbreviation) := by
  have hrank : m.rank ≠ 0 := (octave_lt_rank (one_le_abs_exact hn) hm).ne_bot
  have hquotient : quotient n = .ok (.finite (n < 0) m) := by
    unfold quotient
    rw [quotient?_eq_nearest?, Binary64.nearest?, hm, decide_eq_decide.mpr (exact_neg_iff n)]
    rfl
  have hfigure : figure n = .ok (Figure.ofDecimal (n < 0) (fourDigits m.shortest)) := by
    unfold figure
    rw [hquotient]
    change figureOf (.finite (n < 0) m) = _
    unfold figureOf
    rw [show Figure.ofBinary64? (.finite (n < 0) m) = _ from Figure.rounded?_eq hrank _]
  unfold text
  rw [hfigure]

theorem text_of_overflow {n : ℤ} (h : Magnitude.nearest? |exact n| = none) :
    text n = .error .overflow := by
  unfold text figure quotient
  rw [quotient?_eq_nearest?, Binary64.nearest?, h]
  rfl

theorem text_error {n : ℤ} {e : Fault} (h : text n = .error e) : e = .overflow := by
  cases hm : Magnitude.nearest? |exact n| with
  | none =>
    rw [text_of_overflow hm] at h
    exact (Except.error.inj h).symm
  | some m =>
    obtain ⟨f, hf⟩ := Figure.exists_ofBinary64?_eq (exact n < 0) m
    unfold text figure quotient figureOf at h
    rw [quotient?_eq_nearest?, Binary64.nearest?, hm, Option.map_some] at h
    simp only [hf] at h
    cases h

theorem shown_append (f : Figure) (unit : String) :
    shownNumber? (f.text ++ " " ++ unit) = read? f.chars ∧
      shownUnit (f.text ++ " " ++ unit) = unit := by
  have hall : ∀ c ∈ f.chars, (decide (c ≠ ' ')) = true := fun c hc =>
    decide_eq_true (ne_of_mem_of_not_mem hc (Figure.space_not_mem_chars f))
  have hlist : (f.text ++ " " ++ unit).toList = f.chars ++ ' ' :: unit.toList := by
    rw [String.toList_append, String.toList_append, Figure.text, String.toList_ofList,
      List.append_assoc]
    rfl
  unfold shownNumber? shownUnit
  rw [hlist, List.takeWhile_append_of_pos hall, List.dropWhile_append_of_pos hall]
  simp

theorem read?_ofDecimal {x : ℚ} (hx : power 10 (-320) ≤ x) (h : fourDigits x < 1798 * power 10 305)
    (negative : Bool) : read? (Figure.ofDecimal negative (fourDigits x)).chars =
      some (if negative then -fourDigits x else fourDigits x) := by
  obtain ⟨k, e, _, hk, he, hf⟩ := Figure.ofDecimal_fourDigits hx h negative
  rw [hf, Figure.read?_chars hk, he]
  rfl

theorem read?_infinite (negative : Bool) : read? (Figure.infinite negative).chars = none := by
  cases negative <;> decide

theorem lt_zero_iff_of_mul_pos {t x : ℚ} (h : 0 < t * x) : t < 0 ↔ x < 0 := by
  rcases pos_and_pos_or_neg_and_neg_of_mul_pos h with ⟨ht, hx⟩ | ⟨ht, hx⟩
  · exact iff_of_false ht.not_gt hx.not_gt
  · exact iff_of_true ht hx

theorem nearest?_eq_iff {t x : ℚ} {m : Magnitude} (hx : Magnitude.nearest? |x| = some m)
    (hsign : 0 < t * x) :
    Binary64.nearest? t = Binary64.nearest? x ↔ Magnitude.nearestRank |t| = m.rank := by
  unfold Binary64.nearest?
  rw [hx, decide_eq_decide.mpr (lt_zero_iff_of_mul_pos hsign), Option.map_some,
    Option.map_eq_some_iff]
  constructor
  · rintro ⟨k, hk, heq⟩
    cases heq
    exact Magnitude.nearest?_eq_some_iff.mp hk
  · intro h
    exact ⟨m, Magnitude.nearest?_eq_some_iff.mpr h, rfl⟩

theorem fourDigits_shortest_of_masks {t x : ℚ} {m : Magnitude} (hx : 1 ≤ |x|)
    (hm : Magnitude.nearest? |x| = some m) (h : Masks t x) :
    fourDigits m.shortest = fourDigits |t| ∧ fourDigits |t| = fourDigits |x| + place 4 |x| := by
  obtain ⟨htie, hsign, hfar, hsame⟩ := h
  have hread := (nearest?_eq_iff hm hsign).mp hsame
  have hnear := Magnitude.octave_mul_sub_le (Magnitude.normal_of_one_le hx) hfar.le
    ((Magnitude.nearest?_eq_some_iff.mp hm).trans hread.symm)
  constructor
  · rw [Magnitude.shortest_eq (octave_lt_rank hx hm) (Magnitude.digits_tie htie) hread]
  · apply Magnitude.fourDigits_around_tie htie hfar
    unfold octave at hnear
    norm_num at hnear
    linarith

theorem fourDigits_shortest_of_not_masks {x : ℚ} {m : Magnitude} (hx : 1 ≤ |x|)
    (hm : Magnitude.nearest? |x| = some m) (h : ∀ t, ¬Masks t x) :
    fourDigits m.shortest = fourDigits |x| := by
  have hpos : 0 < |x| := zero_lt_one.trans_le hx
  apply Magnitude.fourDigits_shortest_of_no_tie (octave_lt_rank hx hm) hpos
    (Magnitude.nearest?_eq_some_iff.mp hm)
  intro t htie hfar hread
  have ht : 0 < t := hpos.trans hfar
  -- The tie gets the sign of `x`.
  rcases lt_or_gt_of_ne (abs_pos.mp hpos) with hneg | hpos'
  · have hsign : 0 < -t * x := mul_pos_of_neg_of_neg (neg_lt_zero.mpr ht) hneg
    have habs : |(-t)| = t := (abs_neg t).trans (abs_of_pos ht)
    exact h (-t) ⟨habs.symm ▸ htie, hsign, habs.symm ▸ hfar,
      (nearest?_eq_iff hm hsign).mpr (habs.symm ▸ hread)⟩
  · have hsign : 0 < t * x := mul_pos ht hpos'
    have habs : |t| = t := abs_of_pos ht
    exact h t ⟨habs.symm ▸ htie, hsign, habs.symm ▸ hfar,
      (nearest?_eq_iff hm hsign).mpr (habs.symm ▸ hread)⟩

theorem le_shortest {x : ℚ} {m : Magnitude} (hx : 1 ≤ x) (hm : Magnitude.nearest? x = some m) :
    power 10 (-320) ≤ m.shortest := by
  have hpos : 0 < x := zero_lt_one.trans_le hx
  have hmag : 0 ≤ magnitude 10 x := by
    rw [le_magnitude_iff 10 hpos, power_zero]
    exact hx
  exact (power_le_power 10 (by omega)).trans
    (Magnitude.cell_le_shortest (octave_lt_rank hx hm) hpos (Magnitude.nearest?_eq_some_iff.mp hm)).1

def parts (u : TimeUnit) : ℕ := max 10000 u.nanos

/-- Below 64 days a quotient by a unit is below two to this. -/
def reach (u : TimeUnit) : ℕ := if u.nanos ≤ 1000000 then 10 else 6

theorem parts_wide (u : TimeUnit) : 0 < parts u ∧ 10000 ∣ parts u ∧ u.nanos ∣ parts u ∧
    3 * parts u * power 2 (reach u - 54) < 1 := by
  cases u <;> cbv

theorem lt_reach_mul {n : ℤ} (hn : 0 < n) (h : n < 64 * 86400 * 10 ^ 9) :
    n < (2 ^ reach (TimeUnit.suited n) : ℕ) * (TimeUnit.suited n).nanos := by
  have hnext : ∀ u : TimeUnit, _ → n < u.nanos := fun _ => TimeUnit.lt_nanos_of_suited_lt hn
  have hmicros := hnext .microseconds
  have hmillis := hnext .milliseconds
  have hseconds := hnext .seconds
  have hminutes := hnext .minutes
  have hhours := hnext .hours
  have hdays := hnext .days
  cases hu : TimeUnit.suited n <;>
    simp [hu, TimeUnit.nanos, reach] at hmicros hmillis hseconds hminutes hhours hdays ⊢ <;> omega

theorem exact_lt {n : ℤ} (hn : 0 < n) (h : n < 64 * 86400 * 10 ^ 9) :
    exact n < power 2 (reach (TimeUnit.suited n)) := by
  have hu : (0 : ℚ) < (TimeUnit.suited n).nanos := Nat.cast_pos.mpr (TimeUnit.nanos_pos _)
  unfold exact
  rw [power_natCast, div_lt_iff₀ hu]
  exact_mod_cast lt_reach_mul hn h

theorem abs_exact_le {n : ℤ} (hlow : -9007199254740992 ≤ n) (hhigh : n < 64 * 86400 * 10 ^ 9) :
    |exact n| ≤ (9007199254740992 : ℕ) := by
  have hu : (1 : ℚ) ≤ (TimeUnit.suited n).nanos := by exact_mod_cast TimeUnit.nanos_pos _
  have hn : (n.natAbs : ℚ) ≤ (9007199254740992 : ℕ) := by exact_mod_cast (by omega)
  rw [abs_exact]
  exact (div_le_self (Nat.cast_nonneg _) hu).trans hn

theorem lt_of_le_power {x : ℚ} (h : x ≤ power 10 16) : x < 1797 * power 10 305 := by
  have hpos := power_pos 10 305
  have hle := h.trans (power_le_power 10 (show (16 : ℤ) ≤ 305 by decide))
  linarith

theorem natCast_le_power : ((9007199254740992 : ℕ) : ℚ) ≤ power 10 16 := by
  rw [show (16 : ℤ) = (16 : ℕ) from rfl, power_natCast]
  norm_num

theorem exists_nearest? {n : ℤ} (hlow : -9007199254740992 ≤ n) (hhigh : n < 64 * 86400 * 10 ^ 9) :
    ∃ m, Magnitude.nearest? |exact n| = some m := by
  have htop : Magnitude.nearestRank (9007199254740992 : ℕ) < overflowRank :=
    (Magnitude.nearestRank_mono (lt_of_le_power natCast_le_power).le).trans_lt
      Figure.nearestRank_lt_overflowRank
  have hrank := (Magnitude.nearestRank_mono (abs_exact_le hlow hhigh)).trans_lt htop
  exact ⟨⟨_, hrank⟩, Magnitude.nearest?_eq_some_iff.mpr rfl⟩

theorem not_masks {n : ℤ} (hlow : -9007199254740992 ≤ n) (hhigh : n < 64 * 86400 * 10 ^ 9) (t : ℚ) :
    ¬Masks t (exact n) := by
  rintro ⟨htie, hsign, hfar, hsame⟩
  obtain ⟨m, hm⟩ := exists_nearest? hlow hhigh
  have hread : Magnitude.nearestRank |t| = Magnitude.nearestRank |exact n| :=
    ((nearest?_eq_iff hm hsign).mp hsame).trans (Magnitude.nearest?_eq_some_iff.mp hm).symm
  rcases lt_trichotomy n 0 with hneg | rfl | hpos
  · have hwhole : |exact n| = (n.natAbs : ℕ) := by
      rw [abs_exact, TimeUnit.suited_of_nonpos hneg.le]
      exact div_one _
    rw [hwhole] at hread hfar
    exact Magnitude.nearestRank_tie_ne_natCast (by omega) (by omega) htie hfar hread
  · rw [exact, Int.cast_zero, zero_div, mul_zero] at hsign
    exact absurd hsign (lt_irrefl 0)
  · obtain ⟨hparts, htenths, hunit, hwide⟩ := parts_wide (TimeUnit.suited n)
    have hone := one_le_abs_exact hpos.ne'
    have habs : |exact n| = exact n :=
      abs_of_nonneg (not_lt.mp ((exact_neg_iff n).not.mpr hpos.not_gt))
    rw [habs] at hone hfar hread
    have hpart := Magnitude.part_of_dvd hunit (Magnitude.part_div n (TimeUnit.nanos_pos _))
    have htie' := Magnitude.part_of_dvd htenths (Magnitude.part_tie htie (hone.trans hfar.le))
    exact Magnitude.nearestRank_ne_of_part hparts hone (exact_lt hpos hhigh) hwide hpart htie' hfar hread

theorem text_zero : text 0 = .ok ((Figure.number false 0 0).text ++ " " ++
    (TimeUnit.suited 0).abbreviation) := by
  decide +kernel

theorem shown_zero : ∃ s, text 0 = .ok s ∧ shownUnit s = (TimeUnit.suited 0).abbreviation ∧
    shownNumber? s = some (roundFour (exact 0)) := by
  obtain ⟨hnumber, hunit⟩ := shown_append (Figure.number false 0 0) (TimeUnit.suited 0).abbreviation
  have hround : roundFour (exact 0) = 0 := by cbv
  have hvalue : (Figure.number false 0 0).value? = some 0 := by cbv
  rw [Figure.read?_chars (by decide), hvalue] at hnumber
  exact ⟨_, text_zero, hunit, hround ▸ hnumber⟩

theorem shown_of_ne_zero {n : ℤ} (hn : n ≠ 0) {m : Magnitude}
    (hm : Magnitude.nearest? |exact n| = some m) : ∃ s, text n = .ok s ∧
      shownUnit s = (TimeUnit.suited n).abbreviation ∧ shownNumber? s =
        if fourDigits m.shortest < 1798 * power 10 305 then
          some (if n < 0 then -fourDigits m.shortest else fourDigits m.shortest)
        else none := by
  have hone := one_le_abs_exact hn
  obtain ⟨hnumber, hunit⟩ := shown_append
    (Figure.ofDecimal (n < 0) (fourDigits m.shortest)) (TimeUnit.suited n).abbreviation
  refine ⟨_, text_of_ne_zero hn hm, hunit, hnumber.trans ?_⟩
  split
  · rename_i hlt
    rw [read?_ofDecimal (le_shortest hone hm) hlt]
    simp only [decide_eq_true_eq]
  · rename_i hge
    have htop := (Figure.fourDigits_shortest_le (octave_lt_rank hone hm).ne_bot).antisymm
      (not_lt.mp hge)
    rw [htop, Figure.ofDecimal_top, read?_infinite]

theorem roundFour_of_side {n : ℤ} {x : ℚ} (h : x < 0 ↔ n < 0) :
    roundFour x = if n < 0 then -fourDigits |x| else fourDigits |x| := by
  rw [roundFour_eq_abs]
  simp only [h]

theorem abs_side {n : ℤ} {x : ℚ} (hx : 0 < x) : |if n < 0 then -x else x| = x := by
  split
  · rw [abs_neg, abs_of_pos hx]
  · exact abs_of_pos hx

theorem shown_eq {n : ℤ} (hn : n ≠ 0) {m : Magnitude}
    (hm : Magnitude.nearest? |exact n| = some m) {x : ℚ}
    (hx : x = if n < 0 then -fourDigits m.shortest else fourDigits m.shortest) :
    (∀ t, Masks t (exact n) → x = roundFour t ∧ |x| = |roundFour (exact n)| + place 4 |exact n|) ∧
      ((∀ t, ¬Masks t (exact n)) → x = roundFour (exact n)) := by
  have hone := one_le_abs_exact hn
  have hround := roundFour_of_side (exact_neg_iff n)
  have hpos := fourDigits_pos (zero_lt_one.trans_le hone)
  constructor
  · intro t ht
    obtain ⟨htie, hnext⟩ := fourDigits_shortest_of_masks hone hm ht
    have hside : t < 0 ↔ n < 0 := (lt_zero_iff_of_mul_pos ht.2.1).trans (exact_neg_iff n)
    have hfour : 0 < fourDigits |t| := by
      have := place_pos 4 |exact n|
      linarith
    constructor
    · rw [hx, htie, roundFour_of_side hside]
    · rw [hx, htie, abs_side hfour, hround, abs_side hpos, hnext]
  · intro h
    rw [hx, fourDigits_shortest_of_not_masks hone hm h, hround]

theorem fourDigits_exact_lt {n : ℤ} (hn : n ≠ 0) (hlow : -9007199254740992 ≤ n)
    (hhigh : n < 64 * 86400 * 10 ^ 9) : fourDigits |exact n| < 1798 * power 10 305 := by
  have hle := fourDigits_mono (zero_lt_one.trans_le (one_le_abs_exact hn)) (abs_exact_le hlow hhigh)
  have hround := fourDigits_mono (by norm_num) natCast_le_power
  rw [fourDigits_power] at hround
  have hpos := power_pos 10 305
  linarith [lt_of_le_power (hle.trans hround)]

/-- Whatever finite number the text of a count shows is the quotient in four
    digits, or the tie that masks the quotient in four digits, one place farther
    from zero. From -2 to the 53rd up to 64 days nothing masks the quotient, and
    there is a text that shows it. -/
theorem shownNumber?_text (n : ℤ) :
    (∀ s x, text n = .ok s → shownNumber? s = some x →
      shownUnit s = (TimeUnit.suited n).abbreviation ∧
      (∀ t, Masks t (exact n) →
        x = roundFour t ∧ |x| = |roundFour (exact n)| + place 4 |exact n|) ∧
      ((∀ t, ¬Masks t (exact n)) → x = roundFour (exact n))) ∧
    (-9007199254740992 ≤ n → n < 64 * 86400 * 10 ^ 9 →
      (∀ t, ¬Masks t (exact n)) ∧
      ∃ s, text n = .ok s ∧ shownUnit s = (TimeUnit.suited n).abbreviation ∧
        shownNumber? s = some (roundFour (exact n))) := by
  by_cases hn : n = 0
  · subst hn
    obtain ⟨shown, htext, hunit, hnumber⟩ := shown_zero
    have hnone : ∀ t, ¬Masks t (exact 0) := not_masks (by decide) (by decide)
    refine ⟨?_, fun _ _ => ⟨hnone, shown, htext, hunit, hnumber⟩⟩
    intro s x hs hx
    rw [htext, Except.ok.injEq] at hs
    subst hs
    rw [hnumber, Option.some.injEq] at hx
    exact ⟨hunit, fun t ht => absurd ht (hnone t), fun _ => hx.symm⟩
  · constructor
    · intro s x hs hx
      cases hm : Magnitude.nearest? |exact n| with
      | none =>
        rw [text_of_overflow hm] at hs
        cases hs
      | some m =>
        obtain ⟨shown, htext, hunit, hnumber⟩ := shown_of_ne_zero hn hm
        rw [htext, Except.ok.injEq] at hs
        subst hs
        rw [hnumber] at hx
        split at hx
        · exact ⟨hunit, shown_eq hn hm (Option.some.inj hx).symm⟩
        · cases hx
    · intro hlow hhigh
      have hnone := not_masks hlow hhigh
      obtain ⟨m, hm⟩ := exists_nearest? hlow hhigh
      obtain ⟨shown, htext, hunit, hnumber⟩ := shown_of_ne_zero hn hm
      have hfour := fourDigits_shortest_of_not_masks (one_le_abs_exact hn) hm hnone
      rw [if_pos (hfour ▸ fourDigits_exact_lt hn hlow hhigh)] at hnumber
      have hround := (shown_eq hn hm rfl).2 hnone
      exact ⟨hnone, shown, htext, hunit, hround ▸ hnumber⟩

theorem masks_day : Masks (12801 / 200) (exact 5530031999999999) := by
  refine ⟨⟨6400, 1, by decide, by decide, ?_⟩, ?_, ?_, ?_⟩ <;> cbv

/-- A nanosecond less than 64.005 days is shown as 64.01 days. -/
theorem shownNumber?_text_day :
    text 5530031999999999 = .ok "64.01 d" ∧ shownNumber? "64.01 d" = some (6401 / 100) ∧
      6401 / 100 = roundFour (12801 / 200) ∧
      |6401 / 100| = |roundFour (exact 5530031999999999)| + place 4 |exact 5530031999999999| := by
  have htext : text 5530031999999999 = .ok "64.01 d" := by decide +kernel
  have hnumber : shownNumber? "64.01 d" = some (6401 / 100) := by cbv
  obtain ⟨_, hmasked, _⟩ := (shownNumber?_text 5530031999999999).1 _ _ htext hnumber
  exact ⟨htext, hnumber, hmasked _ masks_day⟩

end Elapsed
end Chronograph
