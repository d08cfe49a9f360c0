import Mathlib
import Chronograph.Binary64.Shortest
import Chronograph.Proofs.Binary64.Nearest

set_option autoImplicit false

/-!
# What the shortest decimal is

It reads back, it has no more digits than any other decimal that does, and on
its grid none is closer. Decimals of at most fifteen digits that read back as
one normal double are equal, so such a decimal is the shortest one.
-/
namespace Chronograph.Magnitude
open Rounding

/-- `x` is written with at most `k` significant decimal digits. -/
def Digits (k : ℕ) (x : ℚ) : Prop := ∃ (c : ℕ) (p : ℤ), c < 10 ^ k ∧ x = c * power 10 p

theorem pos_of_digits {k : ℕ} {x : ℚ} (h : Digits k x) (hx : 0 < x) : 0 < k := by
  obtain ⟨c, p, hc, rfl⟩ := h
  rcases Nat.eq_zero_or_pos k with rfl | hk
  · have hz : c = 0 := by omega
    rw [hz, Nat.cast_zero, zero_mul] at hx
    exact absurd hx (lt_irrefl _)
  · exact hk

theorem exists_multiple_of_digits {k : ℕ} {x : ℚ} (h : Digits k x) {e : ℤ} (he : power 10 e ≤ x) :
    ∃ n : ℤ, x = n * power 10 (e - k + 1) := by
  obtain ⟨c, p, hc, rfl⟩ := h
  have hlt : power 10 e < power 10 (k + p) := by
    calc
      power 10 e ≤ c * power 10 p := he
      _ < power 10 k * power 10 p := by
        apply mul_lt_mul_of_pos_right _ (power_pos 10 p)
        rw [power_natCast]
        exact Nat.cast_lt.mpr hc
      _ = power 10 (k + p) := (power_add 10 _ _).symm
  rw [power_lt_power_iff 10] at hlt
  refine ⟨c * (10 ^ (p - (e - k + 1)).toNat : ℕ), ?_⟩
  rw [power_eq_mul 10 (show e - k + 1 ≤ p by omega)]
  push_cast
  ring

theorem digits_of_multiple {k : ℕ} (hk : 0 < k) {n : ℤ} {p : ℤ} (hn : 0 ≤ n) (h : n ≤ 10 ^ k) :
    Digits k (n * power 10 p) := by
  rcases h.lt_or_eq with hlt | heq
  · refine ⟨n.toNat, p, ?_, ?_⟩
    · zify
      rwa [Int.toNat_of_nonneg hn]
    · rw [← Int.cast_natCast, Int.toNat_of_nonneg hn]
  · refine ⟨1, k + p, Nat.one_lt_pow hk.ne' (by decide), ?_⟩
    rw [heq, power_add 10, power_natCast, Nat.cast_one, one_mul]
    push_cast
    rfl

theorem closest?_eq_some {rank : ℕ} {x unit y : ℚ} (h : closest? rank x unit = some y) :
    y = (x / unit).floor * unit ∨ y = ((x / unit).floor + 1 : ℤ) * unit := by
  unfold closest? at h
  dsimp only at h
  split_ifs at h <;> first
    | exact Or.inl (Option.some.inj h).symm
    | exact Or.inr (Option.some.inj h).symm

/-- If any multiple reads back, so does the one next to the value on its side,
    for that lies between the two. -/
theorem closest?_isSome {rank : ℕ} {x unit : ℚ} (hu : 0 < unit) (hx : nearestRank x = rank) (n : ℤ)
    (hn : nearestRank (n * unit) = rank) : (closest? rank x unit).isSome := by
  have hlow : ((x / unit).floor : ℚ) * unit ≤ x := (le_div_iff₀ hu).mp (Int.floor_le _)
  have hhigh : x ≤ ((x / unit).floor + 1 : ℤ) * unit := by
    rw [← div_le_iff₀ hu]
    push_cast
    exact (Int.lt_floor_add_one _).le
  have hread : nearestRank ((x / unit).floor * unit) = rank ∨
      nearestRank (((x / unit).floor + 1 : ℤ) * unit) = rank := by
    rcases le_or_gt n (x / unit).floor with hle | hgt
    · left
      have hmul : (n : ℚ) * unit ≤ (x / unit).floor * unit :=
        mul_le_mul_of_nonneg_right (Int.cast_le.mpr hle) hu.le
      rw [nearestRank_eq_of_between hmul hlow (hn.trans hx.symm), hn]
    · right
      have hmul : ((x / unit).floor + 1 : ℤ) * unit ≤ (n : ℚ) * unit :=
        mul_le_mul_of_nonneg_right (Int.cast_le.mpr (Int.add_one_le_of_lt hgt)) hu.le
      rw [nearestRank_eq_of_between hhigh hmul (hx.trans hn.symm), hx]
  unfold closest?
  dsimp only
  rcases hread with h | h <;> split_ifs <;> simp_all

theorem abs_closest?_sub_le {rank : ℕ} {x unit y : ℚ} (hu : 0 < unit) (hx : nearestRank x = rank)
    (h : closest? rank x unit = some y) (n : ℤ) (hn : nearestRank (n * unit) = rank) :
    |y - x| ≤ |n * unit - x| := by
  have hlow : ((x / unit).floor : ℚ) * unit ≤ x := (le_div_iff₀ hu).mp (Int.floor_le _)
  have hhigh : x ≤ ((x / unit).floor + 1 : ℤ) * unit := by
    rw [← div_le_iff₀ hu]
    push_cast
    exact (Int.lt_floor_add_one _).le
  unfold closest? at h
  dsimp only at h
  rcases le_or_gt n (x / unit).floor with hle | hgt
  · have hmul : (n : ℚ) * unit ≤ (x / unit).floor * unit :=
      mul_le_mul_of_nonneg_right (Int.cast_le.mpr hle) hu.le
    have hb := nearestRank_eq_of_between hmul hlow (hn.trans hx.symm)
    rw [abs_of_nonpos (show (n : ℚ) * unit - x ≤ 0 by linarith)]
    rw [if_pos (hb.trans hn)] at h
    split_ifs at h <;> rw [← Option.some.inj h, abs_le] <;> constructor <;> linarith
  · have hmul : ((x / unit).floor + 1 : ℤ) * unit ≤ (n : ℚ) * unit :=
      mul_le_mul_of_nonneg_right (Int.cast_le.mpr (Int.add_one_le_of_lt hgt)) hu.le
    have ha := nearestRank_eq_of_between hhigh hmul (hx.trans hn.symm)
    rw [abs_of_nonneg (show 0 ≤ (n : ℚ) * unit - x by linarith)]
    rw [if_pos (ha.trans hx), if_pos (ha.trans hx)] at h
    split_ifs at h <;> rw [← Option.some.inj h, abs_le] <;> constructor <;> linarith

def grid (m : Magnitude) (n : ℕ) : ℚ := power 10 (magnitude 10 m.value - n)

theorem grid_pos (m : Magnitude) (n : ℕ) : 0 < grid m n := power_pos 10 _

/-- Seventeen digits are enough: the nearest multiple of the last place is closer
    than any other double. -/
theorem exists_multiple_grid_sixteen {m : Magnitude} (hm : m.rank ≠ 0) :
    ∃ n : ℤ, nearestRank (n * grid m 16) = m.rank := by
  have hx := value_pos hm
  have hg := grid_pos m 16
  have hwide : 10 ^ 16 * grid m 16 ≤ m.value := by
    calc
      10 ^ 16 * grid m 16 = power 10 (magnitude 10 m.value) := by
        unfold grid
        rw [power_shift 10 16 (sub_add_cancel (magnitude 10 m.value) (16 : ℕ)).symm]
        norm_num
      _ ≤ m.value := power_magnitude_le 10 hx
  have hnear : |halfEven (m.value / grid m 16) * grid m 16 - m.value| ≤ grid m 16 / 2 :=
    abs_halfEven_mul_sub_le hg
  refine ⟨halfEven (m.value / grid m 16), nearestRank_of_near ?_ ?_⟩
  · rw [abs_le] at hnear
    linarith
  · change 4 * (octave : ℚ) * |_ - m.value| < m.value
    unfold octave
    norm_num at hwide ⊢
    linarith

theorem findSome?_range {α : Type} (f : ℕ → Option α) (n : ℕ) (a : α)
    (h : (List.range n).findSome? f = some a) : ∃ i < n, f i = some a ∧ ∀ j < i, f j = none := by
  induction n with
  | zero => simp at h
  | succ n ih =>
    rw [List.range_succ, List.findSome?_append] at h
    cases hb : (List.range n).findSome? f with
    | some b =>
      rw [hb] at h
      obtain ⟨i, hi, hfound, hbefore⟩ := ih (hb.trans h)
      exact ⟨i, by omega, hfound, hbefore⟩
    | none =>
      rw [hb] at h
      refine ⟨n, by omega, by simpa using h, fun j hj => ?_⟩
      exact List.findSome?_eq_none_iff.mp hb j (List.mem_range.mpr hj)

theorem exists_shortest_grid {m : Magnitude} (hm : m.rank ≠ 0) :
    ∃ n < 17, closest? m.rank m.value (grid m n) = some m.shortest ∧
      ∀ i < n, closest? m.rank m.value (grid m i) = none := by
  obtain ⟨k, hk⟩ := exists_multiple_grid_sixteen hm
  have hlast := closest?_isSome (grid_pos m 16) (nearestRank_value m) k hk
  have hsome : ((List.range 17).findSome? fun n => closest? m.rank m.value (grid m n)).isSome :=
    List.findSome?_isSome_iff.mpr ⟨16, List.mem_range.mpr (by decide), hlast⟩
  obtain ⟨y, hy⟩ := Option.isSome_iff_exists.mp hsome
  have he : m.shortest = y := congrArg (Option.getD · m.value) hy
  rw [he]
  exact findSome?_range _ 17 y hy

theorem nearestRank_shortest {m : Magnitude} (hm : m.rank ≠ 0) :
    nearestRank m.shortest = m.rank := by
  obtain ⟨n, _, h, _⟩ := exists_shortest_grid hm
  exact nearestRank_of_closest? h

theorem shortest_pos {m : Magnitude} (hm : m.rank ≠ 0) : 0 < m.shortest :=
  pos_of_nearestRank_ne_zero ((nearestRank_shortest hm).trans_ne hm)

theorem closest?_grid {m : Magnitude} (hm : m.rank ≠ 0) {n : ℕ} {y : ℚ}
    (h : closest? m.rank m.value (grid m n) = some y) :
    ∃ c : ℤ, 0 ≤ c ∧ c ≤ 10 ^ (n + 1) ∧ y = c * grid m n := by
  have hx := value_pos hm
  have hg := grid_pos m n
  have hfloor : 0 ≤ (m.value / grid m n).floor := Int.floor_nonneg.mpr (div_pos hx hg).le
  have hlt : (m.value / grid m n).floor < 10 ^ (n + 1) := by
    rw [floor_eq, Int.floor_lt, div_lt_iff₀ hg]
    calc
      m.value < power 10 (magnitude 10 m.value + 1) := lt_power_magnitude_succ 10 _
      _ = power 10 ((n + 1 : ℕ) + (magnitude 10 m.value - n)) := by
        congr 1
        push_cast
        omega
      _ = ((10 ^ (n + 1) : ℤ) : ℚ) * grid m n := by
        rw [power_add 10, power_natCast]
        push_cast
        rfl
  rcases closest?_eq_some h with h | h
  · exact ⟨_, hfloor, hlt.le, h⟩
  · exact ⟨_, by omega, by omega, h⟩

/-- A decimal of `k` digits that reads back has one on the grid of `k` digits
    that does and is no farther away: itself, or the power of ten below `m`. -/
theorem exists_multiple_grid {m : Magnitude} (hm : m.rank ≠ 0) {k : ℕ} {y : ℚ} (hy : Digits k y)
    (hread : nearestRank y = m.rank) : ∃ c : ℤ, nearestRank (c * grid m (k - 1)) = m.rank ∧
      |c * grid m (k - 1) - m.value| ≤ |y - m.value| := by
  have hpos := pos_of_nearestRank_ne_zero (hread.trans_ne hm)
  have hk := pos_of_digits hy hpos
  have hgrid : grid m (k - 1) = power 10 (magnitude 10 m.value - k + 1) := by
    unfold grid
    congr 1
    omega
  have hlow := power_magnitude_le 10 (value_pos hm)
  rw [hgrid]
  by_cases hle : power 10 (magnitude 10 m.value) ≤ y
  · obtain ⟨c, hc⟩ := exists_multiple_of_digits hy hle
    exact ⟨c, hc ▸ hread, hc ▸ le_rfl⟩
  · have hone : Digits k (power 10 (magnitude 10 m.value)) :=
      ⟨1, _, Nat.one_lt_pow hk.ne' (by decide), by rw [Nat.cast_one, one_mul]⟩
    obtain ⟨c, hc⟩ := exists_multiple_of_digits hone le_rfl
    refine ⟨c, ?_, ?_⟩
    · rw [← hc, nearestRank_eq_of_between (not_le.mp hle).le hlow
        (hread.trans (nearestRank_value m).symm), hread]
    · rw [← hc, abs_of_nonpos (by linarith), abs_of_nonpos (by linarith)]
      linarith

theorem digits_shortest {m : Magnitude} (hm : m.rank ≠ 0) {k : ℕ} {y : ℚ} (hy : Digits k y)
    (hread : nearestRank y = m.rank) : Digits k m.shortest := by
  have hk := pos_of_digits hy (pos_of_nearestRank_ne_zero (hread.trans_ne hm))
  obtain ⟨n, _, hfound, hbefore⟩ := exists_shortest_grid hm
  obtain ⟨c, hc, hcle, he⟩ := closest?_grid hm hfound
  have hn : n + 1 ≤ k := by
    by_contra hlt
    -- The grid with `k` digits comes before the one found, but a multiple on it reads back.
    obtain ⟨a, ha, _⟩ := exists_multiple_grid hm hy hread
    have hsome := closest?_isSome (grid_pos m (k - 1)) (nearestRank_value m) a ha
    rw [hbefore (k - 1) (by omega)] at hsome
    exact absurd hsome (by decide)
  rw [he]
  exact digits_of_multiple hk hc (hcle.trans (pow_le_pow_right₀ (by decide) hn))

/-- A decimal that reads back, with the fewest digits, and of those the closest. -/
structure IsShortest (m : Magnitude) (d : ℚ) : Prop where
  reads : nearestRank d = m.rank
  fewest : ∀ k y, Digits k y → nearestRank y = m.rank → Digits k d
  closest : ∀ y, nearestRank y = m.rank → (∀ k, Digits k d → Digits k y) →
    |d - m.value| ≤ |y - m.value|

theorem isShortest_shortest {m : Magnitude} (hm : m.rank ≠ 0) : IsShortest m m.shortest where
  reads := nearestRank_shortest hm
  fewest _ _ := digits_shortest hm
  closest y hread hdigits := by
    obtain ⟨n, _, hfound, _⟩ := exists_shortest_grid hm
    obtain ⟨c, hc, hcle, he⟩ := closest?_grid hm hfound
    have hy : Digits (n + 1) y := hdigits _ (he ▸ digits_of_multiple (Nat.succ_pos n) hc hcle)
    obtain ⟨a, ha, hnear⟩ := exists_multiple_grid hm hy hread
    exact (abs_closest?_sub_le (grid_pos m n) (nearestRank_value m) hfound a ha).trans hnear

/-- Two decimals of at most fifteen digits that read back as one normal double
    are less than a step of the smaller one apart. -/
theorem eq_of_digits_of_nearestRank_eq {k : ℕ} (hk : k ≤ 15) {a b : ℚ} (ha : Digits k a)
    (hb : Digits k b) (hnormal : power 2 (-1022) ≤ a) (hab : a ≤ b)
    (h : nearestRank a = nearestRank b) : a = b := by
  by_contra hne
  have hpos : 0 < a := (power_pos 2 _).trans_le hnormal
  have hstep := power_pos 10 (magnitude 10 a - k + 1)
  have hlow := power_magnitude_le 10 hpos
  obtain ⟨i, hi⟩ := exists_multiple_of_digits ha hlow
  obtain ⟨j, hj⟩ := exists_multiple_of_digits hb (hlow.trans hab)
  have hij : i < j := by
    by_contra hle
    have := mul_le_mul_of_nonneg_right (Int.cast_le (R := ℚ).mpr (not_lt.mp hle)) hstep.le
    rw [← hi, ← hj] at this
    exact hne (le_antisymm hab this)
  have hsep : power 10 (magnitude 10 a - k + 1) ≤ b - a := by
    have h1 : ((i + 1 : ℤ) : ℚ) ≤ j := Int.cast_le.mpr (Int.add_one_le_of_lt hij)
    have h2 := mul_le_mul_of_nonneg_right h1 hstep.le
    rw [← hj] at h2
    push_cast at h2
    linarith
  have hupper : a < 10 ^ 15 * power 10 (magnitude 10 a - k + 1) := by
    calc
      a < power 10 (magnitude 10 a + 1) := lt_power_magnitude_succ 10 a
      _ ≤ power 10 ((15 : ℕ) + (magnitude 10 a - k + 1)) :=
        power_le_power 10 (by push_cast; omega)
      _ = 10 ^ 15 * power 10 (magnitude 10 a - k + 1) := by
        rw [power_add 10, power_natCast]
        push_cast
        rfl
  have hclose := abs_sub_le_of_nearestRank_eq hpos (hpos.trans_le hab) h
  have hsa := octave_mul_spacing_le hnormal
  have hsb := octave_mul_spacing_le (hnormal.trans hab)
  rw [abs_of_nonpos (by linarith)] at hclose
  unfold octave at hsa hsb
  norm_num at hsa hsb hupper
  linarith

theorem valueAt_octave : valueAt octave = power 2 (-1022) := by
  rw [valueAt, if_neg (lt_irrefl _), Nat.mod_self, Nat.div_self octave_pos, add_zero, ← power_octave,
    ← power_add 2]
  norm_num

theorem shortest_eq_of_digits {m : Magnitude} (hm : octave < m.rank) {k : ℕ} (hk : k ≤ 15) {y : ℚ}
    (hy : Digits k y) (hread : nearestRank y = m.rank) : m.shortest = y := by
  have hne : m.rank ≠ 0 := (octave_pos.trans hm).ne'
  have hs := digits_shortest hne hy hread
  have hsread := nearestRank_shortest hne
  have hnormal : ∀ {z : ℚ}, nearestRank z = m.rank → power 2 (-1022) ≤ z := by
    intro z hz
    by_contra hlt
    have := nearestRank_mono (not_le.mp hlt).le
    rw [hz, ← valueAt_octave, nearestRank_valueAt] at this
    omega
  rcases le_total m.shortest y with h | h
  · exact eq_of_digits_of_nearestRank_eq hk hs hy (hnormal hsread) h (hsread.trans hread.symm)
  · exact (eq_of_digits_of_nearestRank_eq hk hy hs (hnormal hread) h (hread.trans hsread.symm)).symm

theorem le_shortest_iff {m : Magnitude} (hm : octave < m.rank) {k : ℕ} (hk : k ≤ 15) {y : ℚ}
    (hy : Digits k y) : y ≤ m.shortest ↔ nearestRank y ≤ m.rank := by
  have hread := nearestRank_shortest (octave_pos.trans hm).ne'
  constructor
  · intro h
    exact (nearestRank_mono h).trans_eq hread
  · intro h
    by_contra hlt
    have hge := nearestRank_mono (not_le.mp hlt).le
    rw [hread] at hge
    exact hlt (shortest_eq_of_digits hm hk hy (h.antisymm hge)).ge

theorem shortest_mono {m k : Magnitude} (hm : m.rank ≠ 0) (hk : k.rank ≠ 0) (h : m.rank ≤ k.rank) :
    m.shortest ≤ k.shortest := by
  rcases h.lt_or_eq with hlt | heq
  · by_contra hle
    have hrank := nearestRank_mono (not_le.mp hle).le
    rw [nearestRank_shortest hk, nearestRank_shortest hm] at hrank
    omega
  · cases m
    cases k
    cases heq
    exact le_rfl

section
variable {m : Magnitude} (hm : octave < m.rank) {k : ℕ} (hk : k ≤ 15) {x y : ℚ} (hy : Digits k y)
include hm hk hy

theorem le_shortest_of_le (h : y ≤ x) (hread : nearestRank x = m.rank) : y ≤ m.shortest := by
  have hsread := nearestRank_shortest (octave_pos.trans hm).ne'
  by_contra hlt
  have hb := nearestRank_eq_of_between (not_le.mp hlt).le h (hsread.trans hread.symm)
  exact hlt (shortest_eq_of_digits hm hk hy (hb.trans hsread)).ge

theorem shortest_le_of_le (h : x ≤ y) (hread : nearestRank x = m.rank) : m.shortest ≤ y := by
  have hsread := nearestRank_shortest (octave_pos.trans hm).ne'
  by_contra hlt
  have hb := nearestRank_eq_of_between h (not_le.mp hlt).le (hread.trans hsread.symm)
  exact hlt (shortest_eq_of_digits hm hk hy (hb.trans hread)).le

end

end Chronograph.Magnitude
