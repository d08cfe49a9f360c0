import Mathlib
import Chronograph.Rounding

set_option autoImplicit false

/-!
# Laws of rounding

The order of magnitude is the integer logarithm. Each rounding to an integer is
pinned by an interval around its result, from which its distance from the number
and its order follow. Rounding to four significant digits gives four digits, or
the next power of ten.
-/
namespace Chronograph.Rounding

theorem floor_eq (x : ℚ) : x.floor = ⌊x⌋ := rfl

theorem ceil_eq (x : ℚ) : x.ceil = ⌈x⌉ := by
  rw [Rat.ceil_eq_neg_floor_neg, floor_eq, Int.floor_neg, neg_neg]

theorem power_zero (b : ℕ) : power b 0 = 1 := zpow_zero _

theorem power_natCast (b n : ℕ) : power b n = ((b ^ n : ℕ) : ℚ) := by
  rw [Nat.cast_pow]
  exact zpow_natCast _ _

section
variable (b : ℕ) [b.AtLeastTwo]

theorem one_lt_base : 1 < b := Nat.AtLeastTwo.one_lt

theorem power_pos (e : ℤ) : 0 < power b e :=
  zpow_pos (Nat.cast_pos.mpr (one_lt_base b).pos) e

theorem power_add (d e : ℤ) : power b (d + e) = power b d * power b e :=
  zpow_add₀ (Nat.cast_ne_zero.mpr (one_lt_base b).ne_bot) d e

theorem power_succ (e : ℤ) : power b (e + 1) = b * power b e := by
  rw [power_add b, mul_comm]
  exact congrArg (· * power b e) (zpow_one _)

theorem power_le_power {d e : ℤ} (h : d ≤ e) : power b d ≤ power b e :=
  zpow_le_zpow_right₀ (Nat.one_le_cast.mpr (one_lt_base b).le) h

theorem power_lt_power_iff {d e : ℤ} : power b d < power b e ↔ d < e :=
  zpow_lt_zpow_iff_right₀ (Nat.one_lt_cast.mpr (one_lt_base b))

theorem power_eq_mul {d e : ℤ} (h : d ≤ e) :
    power b e = ((b ^ (e - d).toNat : ℕ) : ℚ) * power b d := by
  rw [← power_natCast, ← power_add b]
  congr 1
  omega

theorem power_shift {d e : ℤ} (k : ℕ) (h : e = d + k) : power b e = ((b ^ k : ℕ) : ℚ) * power b d := by
  rw [power_eq_mul b (show d ≤ e by omega), show (e - d).toNat = k by omega]

theorem divisions_eq_log (fuel n : ℕ) (hn : n < b ^ (fuel + 1)) :
    divisions b fuel n = Nat.log b n := by
  induction fuel generalizing n with
  | zero =>
    rw [zero_add, pow_one] at hn
    rw [Nat.log_of_lt hn]
    rfl
  | succ fuel ih =>
    unfold divisions
    split
    · rename_i h
      rw [Nat.log_of_lt h]
    · rename_i h
      have hdiv : n / b < b ^ (fuel + 1) := Nat.div_lt_of_lt_mul (by rwa [mul_comm, ← pow_succ])
      rw [ih _ hdiv, ← Nat.log_of_one_lt_of_le (one_lt_base b) (Nat.le_of_not_lt h)]

theorem wholeLog_eq_log (n : ℕ) : wholeLog b n = Nat.log b n := by
  refine divisions_eq_log b _ n ?_
  calc
    n < 2 ^ (n.log2 + 1) := Nat.lt_log2_self
    _ ≤ b ^ (n.log2 + 1) := Nat.pow_le_pow_left (one_lt_base b) _

theorem coverLog_eq_clog (n : ℕ) : coverLog b n = Nat.clog b n := by
  have hb := one_lt_base b
  unfold coverLog
  split
  · rename_i h
    rw [Nat.clog_of_right_le_one h]
  · rename_i h
    rw [wholeLog_eq_log]
    have hlow : b ^ Nat.log b (n - 1) ≤ n - 1 := Nat.pow_log_le_self b (by omega)
    have hhigh : n - 1 < b ^ (Nat.log b (n - 1) + 1) := Nat.lt_pow_succ_log_self hb _
    apply le_antisymm
    · exact (Nat.lt_clog_iff_pow_lt hb).mpr (by omega)
    · exact (Nat.clog_le_iff_le_pow hb).mpr (by omega)

theorem magnitude_eq_log (x : ℚ) : magnitude b x = Int.log b x := by
  unfold magnitude
  split
  · rename_i h
    rw [wholeLog_eq_log, Int.log_of_one_le_right b h, floor_eq]
    rfl
  · rename_i h
    rw [coverLog_eq_clog, Int.log_of_right_le_one b (le_of_not_ge h), ceil_eq]
    rfl

theorem power_magnitude_le {x : ℚ} (hx : 0 < x) : power b (magnitude b x) ≤ x := by
  rw [magnitude_eq_log]
  exact Int.zpow_log_le_self (one_lt_base b) hx

theorem lt_power_magnitude_succ (x : ℚ) : x < power b (magnitude b x + 1) := by
  rw [magnitude_eq_log]
  exact Int.lt_zpow_succ_log_self (one_lt_base b) x

theorem magnitude_mono {x y : ℚ} (hx : 0 < x) (h : x ≤ y) : magnitude b x ≤ magnitude b y := by
  rw [magnitude_eq_log, magnitude_eq_log]
  exact Int.log_mono_right hx h

theorem le_magnitude_iff {x : ℚ} (hx : 0 < x) (e : ℤ) : e ≤ magnitude b x ↔ power b e ≤ x := by
  rw [magnitude_eq_log]
  exact (Int.zpow_le_iff_le_log (one_lt_base b) hx).symm

theorem magnitude_lt_iff {x : ℚ} (hx : 0 < x) (e : ℤ) : magnitude b x < e ↔ x < power b e := by
  rw [← not_le, ← not_le, le_magnitude_iff b hx]

theorem magnitude_eq_of_bounds {x : ℚ} {e : ℤ} (hlow : power b e ≤ x)
    (hhigh : x < power b (e + 1)) : magnitude b x = e := by
  have hx : 0 < x := (power_pos b e).trans_le hlow
  have := (le_magnitude_iff b hx e).mpr hlow
  have := (magnitude_lt_iff b hx (e + 1)).mpr hhigh
  omega

end

theorem power_tenth (e : ℤ) : power 10 (e - 3) = 10 * power 10 (e - 4) := by
  rw [power_shift 10 1 (show e - 3 = e - 4 + (1 : ℕ) by omega)]
  norm_num

theorem power_thousandth (e : ℤ) : power 10 e = 1000 * power 10 (e - 3) := by
  rw [power_shift 10 3 (show e = e - 3 + (3 : ℕ) by omega)]
  norm_num

theorem halfEven_bounds (x : ℚ) : (halfEven x : ℚ) - 1 / 2 ≤ x ∧ x ≤ halfEven x + 1 / 2 := by
  have hlow : (x.floor : ℚ) ≤ x := Int.floor_le x
  have hhigh : x < x.floor + 1 := Int.lt_floor_add_one x
  unfold halfEven
  dsimp only
  split_ifs <;> push_cast <;> constructor <;> linarith

theorem abs_halfEven_sub_le (x : ℚ) : |(halfEven x : ℚ) - x| ≤ 1 / 2 := by
  obtain ⟨hlow, hhigh⟩ := halfEven_bounds x
  rw [abs_le]
  constructor <;> linarith

theorem halfEven_eq_of_abs_sub_lt {x : ℚ} {n : ℤ} (h : |x - n| < 1 / 2) : halfEven x = n := by
  obtain ⟨hlow, hhigh⟩ := halfEven_bounds x
  rw [abs_lt] at h
  have hle : (halfEven x : ℚ) < n + 1 := by linarith
  have hge : (n : ℚ) < halfEven x + 1 := by linarith
  have : halfEven x < n + 1 := by exact_mod_cast hle
  have : n < halfEven x + 1 := by exact_mod_cast hge
  omega

theorem halfEven_intCast (n : ℤ) : halfEven n = n :=
  halfEven_eq_of_abs_sub_lt (by norm_num)

/-- Two results in the wrong order leave only the midpoint between them for both numbers. -/
theorem halfEven_mono {x y : ℚ} (h : x ≤ y) : halfEven x ≤ halfEven y := by
  by_contra hlt
  have hsep : (halfEven y : ℚ) + 1 ≤ halfEven x := by
    exact_mod_cast Int.add_one_le_of_lt (lt_of_not_ge hlt)
  have hx := (halfEven_bounds x).1
  have hy := (halfEven_bounds y).2
  have he : x = y := by linarith
  rw [he] at hlt
  exact hlt le_rfl

theorem abs_halfEven_sub_le_abs (x : ℚ) (n : ℤ) : |(halfEven x : ℚ) - x| ≤ |n - x| := by
  by_cases h : halfEven x = n
  · rw [h]
  · have hn : 1 / 2 ≤ |(n : ℚ) - x| := by
      by_contra hlt
      rw [not_le, abs_sub_comm] at hlt
      exact h (halfEven_eq_of_abs_sub_lt hlt)
    exact (abs_halfEven_sub_le x).trans hn

theorem abs_sub_div_mul {u : ℚ} (hu : 0 < u) (y x : ℚ) : |y - x / u| * u = |y * u - x| := by
  calc
    |y - x / u| * u = |(y - x / u) * u| := by rw [abs_mul, abs_of_pos hu]
    _ = |y * u - x| := by rw [sub_mul, div_mul_cancel₀ _ hu.ne']

section
variable {u : ℚ} (hu : 0 < u) {x : ℚ}
include hu

theorem abs_halfEven_mul_sub_le_abs (n : ℤ) : |halfEven (x / u) * u - x| ≤ |n * u - x| := by
  rw [← abs_sub_div_mul hu, ← abs_sub_div_mul hu]
  exact mul_le_mul_of_nonneg_right (abs_halfEven_sub_le_abs _ n) hu.le

theorem abs_halfEven_mul_sub_le : |halfEven (x / u) * u - x| ≤ u / 2 := by
  have h := mul_le_mul_of_nonneg_right (abs_halfEven_sub_le (x / u)) hu.le
  rw [abs_sub_div_mul hu] at h
  linarith

theorem halfEven_div_eq {n : ℤ} (h : |x - n * u| < u / 2) : halfEven (x / u) = n := by
  apply halfEven_eq_of_abs_sub_lt
  rw [abs_sub_comm, ← abs_sub_div_mul hu] at h
  rw [abs_sub_comm]
  exact lt_of_mul_lt_mul_right (h.trans_eq (by ring)) hu.le

end

theorem halfUp_bounds (x : ℚ) : (halfUp x : ℚ) - 1 / 2 ≤ x ∧ x < halfUp x + 1 / 2 := by
  have hlow : (halfUp x : ℚ) ≤ x + 1 / 2 := Int.floor_le _
  have hhigh : x + 1 / 2 < halfUp x + 1 := Int.lt_floor_add_one _
  constructor <;> linarith

theorem halfUp_eq_iff (x : ℚ) (n : ℤ) :
    halfUp x = n ↔ (n : ℚ) - 1 / 2 ≤ x ∧ x < n + 1 / 2 := by
  constructor
  · intro h
    rw [← h]
    exact halfUp_bounds x
  · rintro ⟨hlow, hhigh⟩
    change ⌊x + 1 / 2⌋ = n
    rw [Int.floor_eq_iff]
    constructor <;> linarith

theorem halfUp_mono {x y : ℚ} (h : x ≤ y) : halfUp x ≤ halfUp y :=
  Rat.floor_monotone (add_le_add_left h (1 / 2))

theorem halfUp_intCast (n : ℤ) : halfUp n = n :=
  (halfUp_eq_iff _ _).mpr ⟨by linarith, by linarith⟩

theorem place_eq_mul {k : ℕ} (hk : 0 < k) (x : ℚ) :
    power 10 (magnitude 10 x) = ((10 ^ (k - 1) : ℕ) : ℚ) * place k x := by
  unfold place
  rw [power_eq_mul 10 (show magnitude 10 x - k + 1 ≤ magnitude 10 x by omega)]
  congr 3
  omega

theorem place_pos (k : ℕ) (x : ℚ) : 0 < place k x := power_pos 10 _

theorem place_four (x : ℚ) : place 4 x = power 10 (magnitude 10 x - 3) := by
  unfold place
  congr 1
  omega

theorem place_four_le {x : ℚ} (hx : 0 < x) : 1000 * place 4 x ≤ x := by
  have h := power_magnitude_le 10 hx
  rw [place_eq_mul (show 0 < 4 by decide)] at h
  exact h

theorem lt_place_four (x : ℚ) : x < 10000 * place 4 x := by
  have h := lt_power_magnitude_succ 10 x
  rw [power_succ 10, place_eq_mul (show 0 < 4 by decide)] at h
  norm_num at h
  linarith

/-- A rounding to integers that keeps the order, and the integers as they are. -/
structure RoundsWhole (round : ℚ → ℤ) : Prop where
  mono : Monotone round
  intCast (n : ℤ) : round n = n

theorem roundsWhole_halfEven : RoundsWhole halfEven := ⟨fun _ _ => halfEven_mono, halfEven_intCast⟩

theorem roundsWhole_halfUp : RoundsWhole halfUp := ⟨fun _ _ => halfUp_mono, halfUp_intCast⟩

theorem magnitude_significand {k : ℕ} (hlow : 1000 ≤ k) (hhigh : k < 10000) (p : ℤ) :
    magnitude 10 (k * power 10 p) = p + 3 := by
  have hp := power_pos 10 p
  apply magnitude_eq_of_bounds 10
  · rw [add_comm, power_add 10]
    exact mul_le_mul_of_nonneg_right (by norm_num [power]; exact_mod_cast hlow) hp.le
  · rw [show p + 3 + 1 = 4 + p by omega, power_add 10]
    exact mul_lt_mul_of_pos_right (by norm_num [power]; exact_mod_cast hhigh) hp

theorem significand_unique {k l : ℕ} {p q : ℤ} (hk : 1000 ≤ k ∧ k < 10000)
    (hl : 1000 ≤ l ∧ l < 10000) (h : (k : ℚ) * power 10 p = l * power 10 q) : k = l ∧ p = q := by
  have hpq : p = q := by
    have := congrArg (magnitude 10) h
    rw [magnitude_significand hk.1 hk.2, magnitude_significand hl.1 hl.2] at this
    omega
  rw [hpq] at h
  exact ⟨Nat.cast_injective (mul_right_cancel₀ (power_pos 10 q).ne' h), hpq⟩

def toFour (round : ℚ → ℤ) (x : ℚ) : ℚ := round (x / place 4 x) * place 4 x

section
variable {round : ℚ → ℤ} (hround : RoundsWhole round) {x y : ℚ} (hx : 0 < x)
include hround

theorem toFour_of_multiple {n : ℤ} (h : x = n * place 4 x) : toFour round x = x := by
  have hdiv : x / place 4 x = n := (div_eq_iff (place_pos 4 x).ne').mpr h
  unfold toFour
  rw [hdiv, hround.intCast, ← h]

include hx

theorem round_div_place_bounds :
    1000 ≤ round (x / place 4 x) ∧ round (x / place 4 x) ≤ 10000 := by
  have hp := place_pos 4 x
  have hlow : ((1000 : ℤ) : ℚ) ≤ x / place 4 x := (le_div_iff₀ hp).mpr (place_four_le hx)
  have hhigh : x / place 4 x ≤ ((10000 : ℤ) : ℚ) := (div_le_iff₀ hp).mpr (lt_place_four x).le
  have h := hround.mono hlow
  have h' := hround.mono hhigh
  rw [hround.intCast] at h h'
  exact ⟨h, h'⟩

theorem toFour_pos : 0 < toFour round x := by
  have h : (0 : ℤ) < round (x / place 4 x) := by
    have := (round_div_place_bounds hround hx).1
    omega
  exact mul_pos (Int.cast_pos.mpr h) (place_pos 4 x)

/-- Five digits are those of the next power of ten. -/
theorem toFour_cases :
    (∃ k : ℕ, 1000 ≤ k ∧ k < 10000 ∧ round (x / place 4 x) = k ∧
      toFour round x = k * power 10 (magnitude 10 x - 3)) ∨
    round (x / place 4 x) = 10000 ∧
      toFour round x = (1000 : ℕ) * power 10 (magnitude 10 x + 1 - 3) := by
  obtain ⟨hlow, hhigh⟩ := round_div_place_bounds hround hx
  obtain ⟨k, hk⟩ := Int.eq_ofNat_of_zero_le (show 0 ≤ round (x / place 4 x) by omega)
  rcases hhigh.lt_or_eq with hlt | heq
  · refine Or.inl ⟨k, by omega, by omega, hk, ?_⟩
    rw [toFour, hk, place_four, Int.cast_natCast]
  · refine Or.inr ⟨heq, ?_⟩
    rw [toFour, heq, place_four, show magnitude 10 x + 1 - 3 = magnitude 10 x - 3 + 1 by omega,
      power_succ 10]
    push_cast
    ring

/-- Within a decade the places agree; a larger one starts at four digits. -/
theorem toFour_mono (h : x ≤ y) : toFour round x ≤ toFour round y := by
  have hy := hx.trans_le h
  unfold toFour
  rcases (magnitude_mono 10 hx h).lt_or_eq with hlt | heq
  · calc
      (round (x / place 4 x) : ℚ) * place 4 x ≤ (10000 : ℤ) * place 4 x :=
        mul_le_mul_of_nonneg_right (Int.cast_le.mpr (round_div_place_bounds hround hx).2)
          (place_pos 4 x).le
      _ ≤ (1000 : ℤ) * place 4 y := by
        have hstep : power 10 (magnitude 10 x - 3 + 1) ≤ power 10 (magnitude 10 y - 3) :=
          power_le_power 10 (by omega)
        rw [power_succ 10] at hstep
        rw [place_four, place_four]
        push_cast at hstep ⊢
        linarith
      _ ≤ round (y / place 4 y) * place 4 y :=
        mul_le_mul_of_nonneg_right (Int.cast_le.mpr (round_div_place_bounds hround hy).1)
          (place_pos 4 y).le
  · have hplace : place 4 x = place 4 y := by
      unfold place
      rw [heq]
    rw [hplace]
    apply mul_le_mul_of_nonneg_right _ (place_pos 4 y).le
    exact Int.cast_le.mpr (hround.mono (div_le_div_of_nonneg_right h (place_pos 4 y).le))

end

/-- The positive `x` to four significant digits, halves going up. -/
def fourDigits (x : ℚ) : ℚ := halfUp (x / place 4 x) * place 4 x

theorem halfUp_div_place_bounds {x : ℚ} (hx : 0 < x) :
    1000 ≤ halfUp (x / place 4 x) ∧ halfUp (x / place 4 x) ≤ 10000 :=
  round_div_place_bounds roundsWhole_halfUp hx

theorem fourDigits_pos {x : ℚ} (hx : 0 < x) : 0 < fourDigits x := toFour_pos roundsWhole_halfUp hx

theorem fourDigits_mono {x y : ℚ} (hx : 0 < x) (h : x ≤ y) : fourDigits x ≤ fourDigits y :=
  toFour_mono roundsWhole_halfUp hx h

theorem exists_fourDigits {x : ℚ} (hx : 0 < x) :
    ∃ (k : ℕ) (e : ℤ), 1000 ≤ k ∧ k < 10000 ∧ fourDigits x = k * power 10 (e - 3) := by
  rcases toFour_cases roundsWhole_halfUp hx with ⟨k, hlow, hhigh, _, hfour⟩ | ⟨_, hfour⟩
  · exact ⟨k, _, hlow, hhigh, hfour⟩
  · exact ⟨1000, _, le_rfl, by decide, hfour⟩

theorem halfUp_div_place_eq_iff (x : ℚ) (n : ℤ) : halfUp (x / place 4 x) = n ↔
    (n - 1 / 2) * place 4 x ≤ x ∧ x < (n + 1 / 2) * place 4 x := by
  have hp := place_pos 4 x
  rw [halfUp_eq_iff, le_div_iff₀ hp, div_lt_iff₀ hp]

theorem fourDigits_significand {k : ℕ} (hlow : 1000 ≤ k) (hhigh : k < 10000) (p : ℤ) :
    fourDigits (k * power 10 p) = k * power 10 p := by
  refine toFour_of_multiple roundsWhole_halfUp (n := k) ?_
  rw [place_four, magnitude_significand hlow hhigh, add_sub_cancel_right, Int.cast_natCast]

theorem fourDigits_power (e : ℤ) : fourDigits (power 10 e) = power 10 e := by
  have h := fourDigits_significand (le_refl 1000) (by decide) (e - 3)
  rwa [Nat.cast_ofNat, ← power_thousandth] at h

theorem fourDigits_natCast {n : ℕ} (hn : 0 < n) (h : n < 10000) : fourDigits n = n := by
  have hpos : (0 : ℚ) < n := Nat.cast_pos.mpr hn
  have hmag : magnitude 10 n < 4 := by
    rw [magnitude_lt_iff 10 hpos, show power 10 4 = (10 ^ 4 : ℕ) from power_natCast 10 4]
    exact_mod_cast h
  have hone := power_eq_mul 10 (show magnitude 10 n - 3 ≤ 0 by omega)
  rw [power_zero, ← place_four] at hone
  have hwhole : (n : ℚ) = ((n * 10 ^ (0 - (magnitude 10 n - 3)).toNat : ℕ) : ℤ) * place 4 n := by
    rw [Int.cast_natCast, Nat.cast_mul, mul_assoc, ← hone, mul_one]
  exact toFour_of_multiple roundsWhole_halfUp hwhole

/-- Four digits reach a number from halfway below it on, unless a shorter place ends
    there, at a power of ten. -/
theorem le_fourDigits_iff {k : ℕ} (hlow : 1000 < k) (hhigh : k < 10000) (p : ℤ) {x : ℚ} (hx : 0 < x) :
    k * power 10 p ≤ fourDigits x ↔ (k - 1 / 2) * power 10 p ≤ x := by
  have hp := power_pos 10 p
  have hk : (1001 : ℚ) ≤ k := by exact_mod_cast hlow
  have hk' : (k : ℚ) ≤ 9999 := by exact_mod_cast Nat.le_of_lt_succ hhigh
  have hlower := mul_le_mul_of_nonneg_right hk hp.le
  have hupper := mul_le_mul_of_nonneg_right hk' hp.le
  have hfirst : power 10 (p + 3) = 1000 * power 10 p := by
    rw [power_thousandth, add_sub_cancel_right]
  have hplace : ∀ {y : ℚ}, power 10 (p + 3) ≤ y → y < 10000 * power 10 p → place 4 y = power 10 p := by
    intro y h1 h2
    rw [place_four, magnitude_eq_of_bounds 10 h1, add_sub_cancel_right]
    rw [power_succ 10, hfirst]
    push_cast
    linarith
  constructor
  · intro h
    by_contra hlt
    rw [not_le] at hlt
    by_cases hdecade : power 10 (p + 3) ≤ x
    · have hbelow := ((halfUp_div_place_eq_iff x _).mp rfl).1
      unfold fourDigits at h
      rw [hplace hdecade (by linarith)] at h hbelow
      have hge := le_of_mul_le_mul_right h hp
      have hless := lt_of_mul_lt_mul_right (hbelow.trans_lt hlt) hp.le
      linarith
    · have hmono := fourDigits_mono hx (not_le.mp hdecade).le
      rw [fourDigits_power, hfirst] at hmono
      linarith
  · intro h
    have hpt : place 4 ((k - 1 / 2) * power 10 p) = power 10 p := hplace (by linarith) (by linarith)
    have hdigits : halfUp ((k - 1 / 2) * power 10 p / place 4 ((k - 1 / 2) * power 10 p)) = (k : ℤ) := by
      rw [halfUp_div_place_eq_iff, hpt, Int.cast_natCast]
      constructor <;> linarith
    have hmono := fourDigits_mono (by linarith) h
    rwa [fourDigits, hdigits, hpt, Int.cast_natCast] at hmono

/-- Any number to four significant digits, halves going away from zero. -/
def roundFour (x : ℚ) : ℚ := if x < 0 then -fourDigits (-x) else fourDigits x

theorem roundFour_of_pos {x : ℚ} (hx : 0 < x) : roundFour x = fourDigits x := if_neg hx.not_gt

theorem roundFour_neg {x : ℚ} (hx : 0 < x) : roundFour (-x) = -fourDigits x := by
  unfold roundFour
  rw [if_pos (neg_lt_zero.mpr hx), neg_neg]

theorem roundFour_eq_abs (x : ℚ) :
    roundFour x = if x < 0 then -fourDigits |x| else fourDigits |x| := by
  unfold roundFour
  split
  · rename_i h
    rw [abs_of_neg h]
  · rename_i h
    rw [abs_of_nonneg (not_lt.mp h)]

theorem quantized?_place {x : ℚ} (hx : 0 < x) : quantized? x (place 4 x) = some (fourDigits x) := by
  have h := (halfUp_div_place_bounds hx).2
  refine if_pos (h.trans_lt ?_)
  decide

end Chronograph.Rounding
