import Mathlib
import Chronograph.Proofs.Figure.Digits

set_option autoImplicit false

/-!
# The double that is written

The digits of a text are those of a double of their own, the one nearest to the
four digits of the shortest decimal. It is written with its first four digits,
ties going to the even one, and neither the double nor the digits depend on the
sign. Of zero the double is zero itself.
-/
namespace Chronograph.Figure
open Rounding Text.Decimal

/-- The double whose digits show `m`, unless it is infinite. -/
def written? (m : Magnitude) : Option Magnitude :=
  if m.rank = 0 then some m else Magnitude.nearest? (fourDigits m.shortest)

theorem written?_eq_some_iff {m k : Magnitude} (hm : m.rank ≠ 0) :
    written? m = some k ↔ Magnitude.nearestRank (fourDigits m.shortest) = k.rank := by
  rw [written?, if_neg hm, Magnitude.nearest?_eq_some_iff]

def ofWritten (negative : Bool) : Option Magnitude → Figure
  | some k => ofMagnitude negative k
  | none => infinite negative

theorem ofDecimal_eq_ofWritten (negative : Bool) (x : ℚ) :
    ofDecimal negative x = ofWritten negative (Magnitude.nearest? x) := by
  unfold ofDecimal
  cases Magnitude.nearest? x <;> rfl

theorem ofBinary64?_eq_ofWritten (negative : Bool) (m : Magnitude) :
    ofBinary64? (.finite negative m) = some (ofWritten negative (written? m)) := by
  by_cases hm : m.rank = 0
  · rw [written?, if_pos hm]
    exact if_pos hm
  · rw [written?, if_neg hm, ← ofDecimal_eq_ofWritten]
    exact rounded?_eq hm negative

theorem value_of_rank_eq_zero {m : Magnitude} (hm : m.rank = 0) : m.value = 0 := by
  rw [Magnitude.value, hm, Magnitude.valueAt_zero]

/-- The size that the digits of `m` write. -/
def size (m : Magnitude) : ℚ := toFour halfEven m.value

theorem size_of_rank_eq_zero {m : Magnitude} (hm : m.rank = 0) : size m = 0 := by
  rw [size, value_of_rank_eq_zero hm, toFour, zero_div, ← Int.cast_zero, halfEven_intCast, Int.cast_zero,
    zero_mul]

theorem size_pos {m : Magnitude} (hm : m.rank ≠ 0) : 0 < size m :=
  toFour_pos roundsWhole_halfEven (Magnitude.value_pos hm)

theorem size_mono {m k : Magnitude} (h : m.rank ≤ k.rank) : size m ≤ size k := by
  by_cases hm : m.rank = 0
  · rw [size_of_rank_eq_zero hm]
    by_cases hk : k.rank = 0
    · rw [size_of_rank_eq_zero hk]
    · exact (size_pos hk).le
  · exact toFour_mono roundsWhole_halfEven (Magnitude.value_pos hm)
      (Magnitude.valueAt_strictMono.monotone h)

theorem exists_ofMagnitude (m : Magnitude) : ∃ (k : ℕ) (e : ℤ), k < 10000 ∧
    k * power 10 (e - 3) = size m ∧ ∀ negative, ofMagnitude negative m = number negative k e := by
  by_cases hm : m.rank = 0
  · refine ⟨0, 0, by decide, ?_, fun negative => if_pos (value_of_rank_eq_zero hm)⟩
    rw [size_of_rank_eq_zero hm, Nat.cast_zero, zero_mul]
  · have hx := Magnitude.value_pos hm
    unfold ofMagnitude
    dsimp only
    rw [← place_four]
    rcases toFour_cases roundsWhole_halfEven hx with ⟨k, _, hhigh, hk, hsize⟩ | ⟨hk, hsize⟩
    · refine ⟨k, _, hhigh, hsize.symm, fun negative => ?_⟩
      rw [if_neg hx.ne', hk, Int.toNat_natCast, if_neg hhigh.ne]
    · refine ⟨1000, _, by decide, hsize.symm, fun negative => ?_⟩
      rw [if_neg hx.ne', hk]
      rfl

end Chronograph.Figure
