import Mathlib
import Chronograph.TimeUnit

set_option autoImplicit false

/-!
# The unit that suits a count

It is the longest unit that fits into the count, and the nanosecond for counts
that hold no unit. A unit is found again by its abbreviation, and holds 1000, 60
or 24 of the unit before it.
-/
namespace Chronograph.TimeUnit

theorem whole_pos_iff (u : TimeUnit) (n : ℤ) : 0 < u.whole n ↔ (u.nanos : ℤ) ≤ n := by
  have hu : (0 : ℤ) < u.nanos := Int.natCast_pos.mpr u.nanos_pos
  unfold whole
  rcases le_or_gt 0 n with hn | hn
  · rw [Int.tdiv_eq_ediv_of_nonneg hn, ← Int.add_one_le_iff, Int.le_ediv_iff_mul_le hu]
    omega
  · have hneg : n.tdiv u.nanos = -((-n).tdiv u.nanos) := by rw [Int.neg_tdiv, neg_neg]
    have hnonneg : 0 ≤ (-n).tdiv u.nanos := Int.tdiv_nonneg (by omega) hu.le
    omega

theorem whole_mono (u : TimeUnit) {m n : ℤ} (h : m ≤ n) : u.whole m ≤ u.whole n :=
  Int.tdiv_le_tdiv (Int.natCast_pos.mpr u.nanos_pos) h

theorem whole_nonneg (u : TimeUnit) {n : ℤ} (h : 0 ≤ n) : 0 ≤ u.whole n :=
  Int.tdiv_nonneg h (Int.natCast_nonneg _)

theorem mem_all (u : TimeUnit) : u ∈ all := by cases u <;> decide

theorem all_reverse_pairwise : all.reverse.Pairwise fun u v => v.nanos < u.nanos := by decide

theorem suited_of_nonpos {n : ℤ} (hn : n ≤ 0) : suited n = nanoseconds := by
  have hnone : all.reverse.find? (fun u => 0 < u.whole n) = none := by
    rw [List.find?_eq_none]
    intro u _ h
    have hu : (0 : ℤ) < u.nanos := Int.natCast_pos.mpr u.nanos_pos
    have hle := (whole_pos_iff u n).mp (of_decide_eq_true h)
    omega
  unfold suited
  rw [hnone]
  rfl

theorem find?_eq_suited {n : ℤ} (hn : 0 < n) :
    all.reverse.find? (fun u => 0 < u.whole n) = some (suited n) := by
  unfold suited
  cases h : all.reverse.find? fun u => 0 < u.whole n with
  | some u => rfl
  | none =>
    have hno := List.find?_eq_none.mp h nanoseconds (List.mem_reverse.mpr (mem_all _))
    have hone : 0 < nanoseconds.whole n := (whole_pos_iff nanoseconds n).mpr (Int.add_one_le_of_lt hn)
    exact absurd (decide_eq_true hone) hno

theorem nanos_suited_le {n : ℤ} (hn : 0 < n) : ((suited n).nanos : ℤ) ≤ n := by
  have hfits := List.find?_some (find?_eq_suited hn)
  rwa [decide_eq_true_iff, whole_pos_iff] at hfits

theorem lt_nanos_of_suited_lt {n : ℤ} (hn : 0 < n) {u : TimeUnit}
    (hu : (suited n).nanos < u.nanos) : n < u.nanos := by
  obtain ⟨_, longer, shorter, hall, hlonger⟩ :=
    List.find?_eq_some_iff_append.mp (find?_eq_suited hn)
  have hmem : u ∈ longer ++ suited n :: shorter := hall ▸ List.mem_reverse.mpr (mem_all u)
  have hsorted := all_reverse_pairwise
  rw [hall, List.pairwise_append, List.pairwise_cons] at hsorted
  rcases List.mem_append.mp hmem with h | h
  · have hnot := hlonger u h
    rw [Bool.not_eq_true', decide_eq_false_iff_not, whole_pos_iff] at hnot
    exact not_le.mp hnot
  · rcases List.mem_cons.mp h with rfl | h
    · exact absurd hu (lt_irrefl _)
    · exact absurd hu (hsorted.2.1.1 u h).not_gt

theorem nanos_injective : Function.Injective nanos := by
  intro u v h
  have hu := ofNanos?_nanos u
  rw [h, ofNanos?_nanos] at hu
  exact (Option.some.inj hu).symm

theorem nanos_suited_mono {n m : ℤ} (hn : 0 < n) (h : n ≤ m) :
    (suited n).nanos ≤ (suited m).nanos := by
  by_contra hlt
  have hm := lt_nanos_of_suited_lt (hn.trans_le h) (not_le.mp hlt)
  have := nanos_suited_le hn
  omega

def ofAbbreviation? (s : String) : Option TimeUnit := all.find? fun u => u.abbreviation = s

theorem ofAbbreviation?_abbreviation (u : TimeUnit) : ofAbbreviation? u.abbreviation = some u := by
  cases u <;> decide

/-- The shortest of the longer units. -/
def next? (u : TimeUnit) : Option TimeUnit := all.find? fun v => u.nanos < v.nanos

theorem lt_nanos_of_next? {u w : TimeUnit} (h : u.next? = some w) : u.nanos < w.nanos := by
  have hlonger := List.find?_some h
  rwa [decide_eq_true_iff] at hlonger

theorem exists_next? {u v : TimeUnit} (h : u.nanos < v.nanos) : ∃ w, u.next? = some w := by
  have hsome : (all.find? fun w => u.nanos < w.nanos).isSome :=
    List.find?_isSome.mpr ⟨v, mem_all v, decide_eq_true h⟩
  exact Option.isSome_iff_exists.mp hsome

theorem all_pairwise : all.Pairwise fun u v => u.nanos < v.nanos := by decide

theorem nanos_le_of_next? {u v w : TimeUnit} (h : u.next? = some w) (hv : u.nanos < v.nanos) :
    w.nanos ≤ v.nanos := by
  obtain ⟨_, shorter, longer, hall, hshorter⟩ := List.find?_eq_some_iff_append.mp h
  have hmem : v ∈ shorter ++ w :: longer := hall ▸ mem_all v
  have hsorted := all_pairwise
  rw [hall, List.pairwise_append, List.pairwise_cons] at hsorted
  rcases List.mem_append.mp hmem with hm | hm
  · have hnot := hshorter v hm
    simp [hv] at hnot
  · rcases List.mem_cons.mp hm with rfl | hm
    · exact le_rfl
    · exact (hsorted.2.1.1 v hm).le

theorem next?_ratio {u w : TimeUnit} (h : u.next? = some w) :
    ∃ r ∈ [1000, 60, 24], w.nanos = r * u.nanos := by
  cases u <;> simp [next?, all, nanos] at h <;> subst h <;> decide

theorem ratio_le {r : ℕ} (h : r ∈ [1000, 60, 24]) : r ≤ 1000 := by
  have hall : ∀ r ∈ [1000, 60, 24], r ≤ 1000 := by decide
  exact hall r h

end Chronograph.TimeUnit
