import Mathlib
import Chronograph.Binary64.Basic
import Chronograph.Proofs.Rounding

set_option autoImplicit false

/-!
# Rounding to the nearest double

Around a positive number the doubles are the multiples of a spacing, and the
nearest one is at most half of it away. Ranks and values determine each other
and rounding keeps the order, so whatever lies between two numbers that round to
one double rounds to it as well.
-/
namespace Chronograph.Magnitude
open Rounding

theorem octave_pos : 0 < octave := by decide

theorem power_octave : power 2 52 = octave := by decide

def gridExponent (x : ℚ) : ℤ := max (magnitude 2 x - 52) (-1074)

def spacing (x : ℚ) : ℚ := power 2 (gridExponent x)

theorem spacing_pos (x : ℚ) : 0 < spacing x := power_pos 2 _

/-- A double by its multiple of a power of two. Twice an octave of them are
    counted, so that the first double of the next octave is among them. -/
theorem valueAt_grid (h k : ℕ) (hk : k = 0 ∨ octave ≤ h) (hh : h ≤ 2 * octave) :
    valueAt (h + k * octave) = h * power 2 (k - 1074) := by
  have ho := octave_pos
  unfold valueAt
  by_cases hlow : h < octave
  · have hk0 : k = 0 := by omega
    subst k
    rw [zero_mul, add_zero, if_pos hlow, Nat.cast_zero, zero_sub]
  · have hge : octave ≤ h + k * octave := (le_of_not_gt hlow).trans (Nat.le_add_right _ _)
    rw [if_neg (Nat.not_lt.mpr hge), Nat.add_mul_div_right _ _ ho, Nat.add_mul_mod_self_right]
    rcases Nat.lt_or_eq_of_le hh with hlt | heq
    · have hdiv : h / octave = 1 := by
        rw [Nat.div_eq_iff ho]
        omega
      have hmod : octave + h % octave = h := by
        have hd := Nat.div_add_mod h octave
        rw [hdiv, mul_one] at hd
        exact hd
      rw [hdiv, hmod]
      congr 2
      push_cast
      omega
    · rw [heq, Nat.mul_div_cancel _ ho, Nat.mul_mod_left, add_zero,
        show ((2 + k : ℕ) : ℤ) - 1075 = (k - 1074) + 1 by push_cast; omega,
        power_succ 2]
      push_cast
      ring

theorem exists_grid (r : ℕ) :
    ∃ h k : ℕ, r = h + k * octave ∧ (k = 0 ∨ octave ≤ h) ∧ h < 2 * octave := by
  have ho := octave_pos
  by_cases hlow : r < octave
  · exact ⟨r, 0, by omega, Or.inl rfl, by omega⟩
  · have hmod := Nat.mod_lt r ho
    have hdiv := Nat.div_add_mod r octave
    have hpos : 0 < r / octave := Nat.div_pos (Nat.le_of_not_lt hlow) ho
    refine ⟨octave + r % octave, r / octave - 1, ?_, Or.inr (Nat.le_add_right _ _), by omega⟩
    rw [Nat.sub_mul, one_mul, mul_comm]
    have : octave ≤ octave * (r / octave) := Nat.le_mul_of_pos_right _ hpos
    omega

theorem gridExponent_ge (x : ℚ) : -1074 ≤ gridExponent x := le_max_right _ _

theorem gridExponent_mono {x y : ℚ} (hx : 0 < x) (h : x ≤ y) : gridExponent x ≤ gridExponent y := by
  have := magnitude_mono 2 hx h
  unfold gridExponent
  omega

/-- Below the smallest normal double the multiples start from zero, elsewhere
    from an octave. -/
theorem halfEven_grid_bounds {x : ℚ} (hx : 0 < x) :
    0 ≤ halfEven (x / spacing x) ∧ halfEven (x / spacing x) ≤ 2 * octave ∧
      (gridExponent x = -1074 ∨ (octave : ℤ) ≤ halfEven (x / spacing x)) := by
  have hs := spacing_pos x
  have hnonneg : ((0 : ℤ) : ℚ) ≤ x / spacing x := by
    rw [Int.cast_zero]
    exact (div_pos hx hs).le
  have hupper : x / spacing x ≤ ((2 * octave : ℤ) : ℚ) := by
    rw [div_le_iff₀ hs]
    calc
      x ≤ power 2 (magnitude 2 x + 1) := (lt_power_magnitude_succ 2 x).le
      _ ≤ power 2 (52 + 1 + gridExponent x) := by
        apply power_le_power 2
        unfold gridExponent
        omega
      _ = ((2 * octave : ℤ) : ℚ) * spacing x := by
        rw [power_add 2, power_succ 2, power_octave]
        push_cast
        rfl
  refine ⟨?_, ?_, ?_⟩
  · have h := halfEven_mono hnonneg
    rwa [halfEven_intCast] at h
  · have h := halfEven_mono hupper
    rwa [halfEven_intCast] at h
  · by_cases he : gridExponent x = -1074
    · exact Or.inl he
    · right
      have hge : gridExponent x = magnitude 2 x - 52 := by
        unfold gridExponent at he ⊢
        omega
      have hlower : ((octave : ℤ) : ℚ) ≤ x / spacing x := by
        rw [le_div_iff₀ hs]
        calc
          ((octave : ℤ) : ℚ) * spacing x = power 2 (52 + gridExponent x) := by
            rw [power_add 2, power_octave]
            rfl
          _ = power 2 (magnitude 2 x) := by
            rw [hge]
            congr 1
            omega
          _ ≤ x := power_magnitude_le 2 hx
      have h := halfEven_mono hlower
      rwa [halfEven_intCast] at h

theorem nearestRank_of_pos {x : ℚ} (hx : 0 < x) :
    nearestRank x = (halfEven (x / spacing x)).toNat + (gridExponent x + 1074).toNat * octave := by
  unfold nearestRank
  rw [if_neg (not_le.mpr hx)]
  change (halfEven (x / spacing x) + (gridExponent x + 1074) * octave).toNat = _
  have hh := (halfEven_grid_bounds hx).1
  have he : 0 ≤ gridExponent x + 1074 := by
    have := gridExponent_ge x
    omega
  rw [Int.toNat_add hh (mul_nonneg he (Int.natCast_nonneg _)), Int.toNat_mul he (Int.natCast_nonneg _)]
  rfl

theorem nearestRank_of_nonpos {x : ℚ} (hx : x ≤ 0) : nearestRank x = 0 := if_pos hx

theorem valueAt_nearestRank {x : ℚ} (hx : 0 < x) :
    valueAt (nearestRank x) = halfEven (x / spacing x) * spacing x := by
  obtain ⟨hnonneg, hupper, hlower⟩ := halfEven_grid_bounds hx
  have hge := gridExponent_ge x
  rw [nearestRank_of_pos hx, valueAt_grid _ _ (by omega) (by omega)]
  congr 1
  · rw [← Int.cast_natCast, Int.toNat_of_nonneg hnonneg]
  · unfold spacing
    congr 1
    omega

theorem abs_valueAt_nearestRank_sub_le {x : ℚ} (hx : 0 < x) :
    |valueAt (nearestRank x) - x| ≤ spacing x / 2 := by
  rw [valueAt_nearestRank hx]
  exact abs_halfEven_mul_sub_le (spacing_pos x)

/-- Within one spacing the multiples keep the order; a larger spacing starts
    where the smaller one ends. -/
theorem nearestRank_mono {x y : ℚ} (h : x ≤ y) : nearestRank x ≤ nearestRank y := by
  by_cases hx : 0 < x
  · have hy := hx.trans_le h
    rw [nearestRank_of_pos hx, nearestRank_of_pos hy]
    obtain ⟨hxn, hxu, _⟩ := halfEven_grid_bounds hx
    obtain ⟨hyn, _, hyl⟩ := halfEven_grid_bounds hy
    have hgx := gridExponent_ge x
    rcases (gridExponent_mono hx h).lt_or_eq with hlt | heq
    · have hoct : (octave : ℤ) ≤ halfEven (y / spacing y) := by omega
      have hstep : (gridExponent x + 1074).toNat + 1 ≤ (gridExponent y + 1074).toNat := by omega
      have hmul := Nat.mul_le_mul_right octave hstep
      rw [Nat.add_mul, one_mul] at hmul
      omega
    · have hs : spacing x = spacing y := congrArg (power 2) heq
      have hm : halfEven (x / spacing x) ≤ halfEven (y / spacing y) := by
        rw [hs]
        exact halfEven_mono (div_le_div_of_nonneg_right h (spacing_pos y).le)
      rw [heq]
      omega
  · rw [nearestRank_of_nonpos (not_lt.mp hx)]
    exact Nat.zero_le _

theorem nearestRank_grid (h k : ℕ) (hk : k = 0 ∨ octave ≤ h) (hh : h < 2 * octave) (hpos : 0 < h) :
    nearestRank (h * power 2 (k - 1074)) = h + k * octave := by
  have hp := power_pos 2 (k - 1074)
  have hx : (0 : ℚ) < h * power 2 (k - 1074) := mul_pos (Nat.cast_pos.mpr hpos) hp
  have hupper : magnitude 2 (h * power 2 (k - 1074)) < 53 + (k - 1074) := by
    rw [magnitude_lt_iff 2 hx, power_add 2]
    apply mul_lt_mul_of_pos_right _ hp
    rw [show (53 : ℤ) = 52 + 1 by decide, power_succ 2, power_octave]
    exact_mod_cast hh
  have he : gridExponent (h * power 2 (k - 1074)) = k - 1074 := by
    rcases hk with hk | hk
    · unfold gridExponent
      omega
    · have hlower : 52 + (k - 1074) ≤ magnitude 2 (h * power 2 (k - 1074)) := by
        rw [le_magnitude_iff 2 hx, power_add 2, power_octave]
        exact mul_le_mul_of_nonneg_right (Nat.cast_le.mpr hk) hp.le
      unfold gridExponent
      omega
  have hdiv : (h * power 2 (k - 1074)) / spacing (h * power 2 (k - 1074)) = ((h : ℤ) : ℚ) := by
    unfold spacing
    rw [he, mul_div_cancel_right₀ _ hp.ne', Int.cast_natCast]
  rw [nearestRank_of_pos hx, hdiv, halfEven_intCast, he]
  congr 2
  omega

theorem nearestRank_valueAt (r : ℕ) : nearestRank (valueAt r) = r := by
  obtain ⟨h, k, rfl, hk, hh⟩ := exists_grid r
  rw [valueAt_grid h k hk hh.le]
  rcases Nat.eq_zero_or_pos h with hz | hpos
  · have ho := octave_pos
    have hk0 : k = 0 := by omega
    rw [hz, hk0, Nat.cast_zero, zero_mul, zero_mul]
    exact nearestRank_of_nonpos le_rfl
  · exact nearestRank_grid h k hk hh hpos

theorem valueAt_strictMono : StrictMono valueAt := by
  intro r s h
  by_contra hle
  have := nearestRank_mono (not_lt.mp hle)
  rw [nearestRank_valueAt, nearestRank_valueAt] at this
  omega

theorem valueAt_zero : valueAt 0 = 0 := by simp [valueAt, octave_pos]

theorem value_pos {m : Magnitude} (h : m.rank ≠ 0) : 0 < m.value := by
  rw [← valueAt_zero]
  exact valueAt_strictMono (Nat.pos_of_ne_zero h)

theorem nearestRank_value (m : Magnitude) : nearestRank m.value = m.rank := nearestRank_valueAt m.rank

theorem pos_of_nearestRank_ne_zero {x : ℚ} (h : nearestRank x ≠ 0) : 0 < x := by
  by_contra hx
  exact h (nearestRank_of_nonpos (not_lt.mp hx))

theorem nearestRank_eq_of_between {x y z : ℚ} (hxy : x ≤ y) (hyz : y ≤ z)
    (h : nearestRank x = nearestRank z) : nearestRank y = nearestRank x :=
  le_antisymm ((nearestRank_mono hyz).trans_eq h.symm) (nearestRank_mono hxy)

theorem abs_sub_le_of_nearestRank_eq {x y : ℚ} (hx : 0 < x) (hy : 0 < y)
    (h : nearestRank x = nearestRank y) : |x - y| ≤ spacing x / 2 + spacing y / 2 := by
  have h1 := abs_valueAt_nearestRank_sub_le hx
  have h2 := abs_valueAt_nearestRank_sub_le hy
  rw [h] at h1
  rw [abs_le] at h1 h2 ⊢
  constructor <;> linarith

theorem octave_mul_spacing_le {x : ℚ} (hx : power 2 (-1022) ≤ x) : octave * spacing x ≤ x := by
  have hp : 0 < x := (power_pos 2 _).trans_le hx
  have hm : -1022 ≤ magnitude 2 x := (le_magnitude_iff 2 hp _).mpr hx
  calc
    octave * spacing x = power 2 (52 + gridExponent x) := by
      rw [power_add 2, power_octave]
      rfl
    _ = power 2 (magnitude 2 x) := by
      unfold gridExponent
      congr 1
      omega
    _ ≤ x := power_magnitude_le 2 hp

theorem normal_of_one_le {x : ℚ} (h : 1 ≤ x) : power 2 (-1022) ≤ x := by
  have hone : power 2 (-1022) ≤ power 2 0 := power_le_power 2 (by decide)
  rw [power_zero] at hone
  exact hone.trans h

theorem spacing_of_subnormal {x : ℚ} (hx : 0 < x) (h : x < power 2 (-1022)) :
    spacing x = power 2 (-1074) := by
  have hm := (magnitude_lt_iff 2 hx _).mpr h
  unfold spacing gridExponent
  congr 1
  omega

theorem valueAt_succ_le (r : ℕ) :
    valueAt (r + 1) ≤ 2 * octave * (valueAt (r + 1) - valueAt r) := by
  obtain ⟨h, k, rfl, hk, hh⟩ := exists_grid r
  have hsucc : valueAt (h + k * octave + 1) = (h + 1 : ℕ) * power 2 (k - 1074) := by
    rw [show h + k * octave + 1 = (h + 1) + k * octave by omega]
    exact valueAt_grid _ _ (by omega) (by omega)
  rw [hsucc, valueAt_grid h k hk hh.le]
  have hp := power_pos 2 ((k : ℤ) - 1074)
  have hb : ((h + 1 : ℕ) : ℚ) ≤ 2 * octave := by exact_mod_cast hh
  calc
    ((h + 1 : ℕ) : ℚ) * power 2 (k - 1074) ≤ 2 * octave * power 2 (k - 1074) :=
      mul_le_mul_of_nonneg_right hb hp.le
    _ = 2 * octave * (((h + 1 : ℕ) : ℚ) * power 2 (k - 1074) - h * power 2 (k - 1074)) := by
      push_cast
      ring

theorem value_le_mul_abs_sub {r s : ℕ} (h : s ≠ r) :
    valueAt r ≤ 2 * octave * |valueAt s - valueAt r| := by
  have ho : (0 : ℚ) ≤ 2 * octave := by positivity
  rcases lt_or_gt_of_ne h with hlt | hgt
  · obtain ⟨t, rfl⟩ := Nat.exists_eq_add_one_of_ne_zero (Nat.ne_zero_of_lt hlt)
    have hs : valueAt s ≤ valueAt t := valueAt_strictMono.monotone (by omega)
    have ht := valueAt_strictMono (Nat.lt_succ_self t)
    rw [abs_of_nonpos (by linarith)]
    exact (valueAt_succ_le t).trans (mul_le_mul_of_nonneg_left (by linarith) ho)
  · have hs : valueAt (r + 1) ≤ valueAt s := valueAt_strictMono.monotone hgt
    have hr := valueAt_strictMono (Nat.lt_succ_self r)
    rw [abs_of_nonneg (by linarith)]
    exact (hr.le.trans (valueAt_succ_le r)).trans (mul_le_mul_of_nonneg_left (by linarith) ho)

theorem exists_multiple_spacing {x : ℚ} (r : ℕ)
    (h : gridExponent x = -1074 ∨ power 2 (magnitude 2 x) ≤ valueAt r) :
    ∃ n : ℤ, valueAt r = n * spacing x := by
  obtain ⟨a, k, rfl, hk, ha⟩ := exists_grid r
  have hv := valueAt_grid a k hk ha.le
  have he : gridExponent x ≤ k - 1074 := by
    rcases h with h | h
    · omega
    · have hp := power_pos 2 ((k : ℤ) - 1074)
      have hlt : power 2 (magnitude 2 x) < power 2 (53 + (k - 1074)) := by
        calc
          power 2 (magnitude 2 x) ≤ a * power 2 (k - 1074) := hv ▸ h
          _ < power 2 53 * power 2 (k - 1074) := by
            apply mul_lt_mul_of_pos_right _ hp
            rw [show (53 : ℤ) = 52 + 1 by decide, power_succ 2, power_octave]
            exact_mod_cast ha
          _ = power 2 (53 + (k - 1074)) := (power_add 2 _ _).symm
      rw [power_lt_power_iff 2] at hlt
      unfold gridExponent
      omega
  refine ⟨a * (2 ^ ((k - 1074 : ℤ) - gridExponent x).toNat : ℕ), ?_⟩
  rw [hv, power_eq_mul 2 he]
  unfold spacing
  push_cast
  ring

/-- No double is nearer to `x`. Those below the octave of `x` are farther away
    than its first double, which is a multiple of the spacing. -/
theorem abs_valueAt_nearestRank_sub_le_abs {x : ℚ} (hx : 0 < x) (r : ℕ) :
    |valueAt (nearestRank x) - x| ≤ |valueAt r - x| := by
  have key : ∀ n : ℤ, |valueAt (nearestRank x) - x| ≤ |n * spacing x - x| := by
    rw [valueAt_nearestRank hx]
    exact abs_halfEven_mul_sub_le_abs (spacing_pos x)
  by_cases h : gridExponent x = -1074 ∨ power 2 (magnitude 2 x) ≤ valueAt r
  · obtain ⟨n, hn⟩ := exists_multiple_spacing r h
    rw [hn]
    exact key n
  · rw [not_or, not_le] at h
    have hge : gridExponent x = magnitude 2 x - 52 := by
      have := h.1
      unfold gridExponent at this ⊢
      omega
    have hfirst : power 2 (magnitude 2 x) = ((octave : ℤ) : ℚ) * spacing x := by
      unfold spacing
      rw [hge, Int.cast_natCast, ← power_octave, ← power_add 2]
      congr 1
      omega
    have hlow := power_magnitude_le 2 hx
    calc
      |valueAt (nearestRank x) - x| ≤ |power 2 (magnitude 2 x) - x| := hfirst ▸ key octave
      _ = x - power 2 (magnitude 2 x) := by rw [abs_of_nonpos (by linarith), neg_sub]
      _ ≤ x - valueAt r := by linarith [h.2]
      _ ≤ |valueAt r - x| := by
        rw [abs_sub_comm]
        exact le_abs_self _

theorem nearestRank_of_near {x : ℚ} {r : ℕ} (hx : 0 < x)
    (h : 4 * octave * |x - valueAt r| < valueAt r) : nearestRank x = r := by
  by_contra hne
  have hn := abs_valueAt_nearestRank_sub_le_abs hx r
  have hg := value_le_mul_abs_sub hne
  have ht : |valueAt (nearestRank x) - valueAt r| ≤ |valueAt (nearestRank x) - x| + |x - valueAt r| :=
    abs_sub_le _ _ _
  rw [abs_sub_comm (valueAt r)] at hn
  have hb : |valueAt (nearestRank x) - valueAt r| ≤ 2 * |x - valueAt r| := by linarith
  have := mul_le_mul_of_nonneg_left hb (show (0 : ℚ) ≤ 2 * octave by positivity)
  linarith

/-- Halfway between the largest double and the power of two that would come next. -/
def overflowBound : ℚ := power 2 1024 - power 2 970

theorem overflowBound_bounds : power 2 1023 ≤ overflowBound ∧ overflowBound < power 2 1024 ∧
    overflowBound = ((9007199254740992 : ℤ) - 1 / 2) * power 2 971 := by
  have hp := power_pos 2 970
  have htop : power 2 1024 = 18014398509481984 * power 2 970 := by
    rw [power_shift 2 54 (show (1024 : ℤ) = 970 + (54 : ℕ) by decide)]
    norm_num
  have hhalf : power 2 1024 = 2 * power 2 1023 := power_succ 2 1023
  have hunit : power 2 971 = 2 * power 2 970 := power_succ 2 970
  unfold overflowBound
  refine ⟨by linarith, by linarith, ?_⟩
  rw [hunit, htop]
  push_cast
  ring

theorem valueAt_overflowRank : valueAt overflowRank = power 2 1024 := by
  change valueAt (octave + 2046 * octave) = _
  rw [valueAt_grid octave 2046 (Or.inr le_rfl) (by omega), ← power_octave, ← power_add 2]
  rfl

theorem nearestRank_overflowBound : nearestRank overflowBound = overflowRank := by
  obtain ⟨hlow, hhigh, heq⟩ := overflowBound_bounds
  have hgrid : gridExponent overflowBound = 971 := by
    unfold gridExponent
    rw [magnitude_eq_of_bounds 2 hlow hhigh]
    rfl
  have hdigits : halfEven (overflowBound / spacing overflowBound) = 9007199254740992 := by
    unfold spacing
    rw [hgrid, heq, mul_div_cancel_right₀ _ (power_pos 2 971).ne']
    cbv
  rw [nearestRank_of_pos ((power_pos 2 _).trans_le hlow), hdigits, hgrid]
  rfl

theorem overflowRank_le_nearestRank_iff (x : ℚ) : overflowRank ≤ nearestRank x ↔ overflowBound ≤ x := by
  constructor
  · intro h
    by_contra hlt
    rw [not_le] at hlt
    have hrank : nearestRank x ≠ 0 := ((show 0 < overflowRank by decide).trans_le h).ne'
    have hpos := pos_of_nearestRank_ne_zero hrank
    have hgrid : gridExponent x ≤ 971 := by
      have := (magnitude_lt_iff 2 hpos 1024).mpr (hlt.trans overflowBound_bounds.2.1)
      unfold gridExponent
      omega
    have hspacing : spacing x ≤ 2 * power 2 970 := (power_le_power 2 hgrid).trans_eq (power_succ 2 970)
    have herror := (abs_le.mp (abs_valueAt_nearestRank_sub_le hpos)).2
    have hvalue := valueAt_strictMono.monotone h
    rw [valueAt_overflowRank] at hvalue
    unfold overflowBound at hlt
    linarith
  · intro h
    exact nearestRank_overflowBound ▸ nearestRank_mono h

theorem nearest?_eq_some_iff {x : ℚ} {m : Magnitude} :
    nearest? x = some m ↔ nearestRank x = m.rank := by
  unfold nearest?
  split
  · rename_i h
    constructor
    · intro heq
      exact congrArg rank (Option.some.inj heq)
    · intro hrank
      congr 1
      cases m
      congr
  · rename_i h
    constructor
    · intro heq
      cases heq
    · intro hrank
      exact absurd (hrank ▸ m.rank_lt) h

theorem nearest?_eq_none_iff (x : ℚ) : nearest? x = none ↔ overflowBound ≤ x := by
  rw [← overflowRank_le_nearestRank_iff, ← not_lt]
  unfold nearest?
  split <;> simp_all

end Chronograph.Magnitude
