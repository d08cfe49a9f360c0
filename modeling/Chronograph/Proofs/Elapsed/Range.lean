import Mathlib
import Chronograph.Proofs.Elapsed.Order

set_option autoImplicit false

/-!
# Where the numbers of texts end

A count has no text once its quotient rounds past the largest double. Somewhat
below that the quotient has a double, but its four digits have none, and the
text says that it is infinite. Every other count is shown as a finite number.
The ends differ by sign: a count that is not positive is shown in nanoseconds,
and one that comes near its end in days.
-/
namespace Chronograph.Elapsed
open Rounding

/-- Halfway between the largest double and the power of two that would come next. -/
def bound : ℤ := 2 ^ 1024 - 2 ^ 970

theorem cast_bound : (bound : ℚ) = Magnitude.overflowBound := by
  have hpower : ∀ k : ℕ, power 2 k = ((2 ^ k : ℤ) : ℚ) := fun k => by
    rw [power_natCast, Nat.cast_pow, Int.cast_pow]
    rfl
  unfold bound Magnitude.overflowBound
  rw [show (1024 : ℤ) = (1024 : ℕ) from rfl, show (970 : ℤ) = (970 : ℕ) from rfl, hpower, hpower,
    Int.cast_sub]

theorem thousand_lt_overflowBound : 1000 < Magnitude.overflowBound := by
  calc
    (1000 : ℚ) < power 2 10 := by cbv
    _ ≤ power 2 1023 := power_le_power 2 (by decide)
    _ ≤ Magnitude.overflowBound := Magnitude.overflowBound_bounds.1

theorem bound_pos : 0 < bound := by
  have h : (0 : ℚ) < bound := by linarith [cast_bound, thousand_lt_overflowBound]
  exact_mod_cast h

/-- Halfway between the numbers of four digits on either side of the largest double. -/
def fourDigitBound : ℚ := 17975 * power 10 304

def near (x : ℚ) : ℚ := Magnitude.valueAt (Magnitude.nearestRank x)

theorem near_le_near_iff (x y : ℚ) :
    near x ≤ near y ↔ Magnitude.nearestRank x ≤ Magnitude.nearestRank y :=
  Magnitude.valueAt_strictMono.le_iff_le

theorem near_mono : Monotone near := fun _ _ h => (near_le_near_iff _ _).mpr (Magnitude.nearestRank_mono h)

theorem near_fourDigitBound_le_iff {x : ℚ} (hx : 1 ≤ x) {m : Magnitude}
    (hm : Magnitude.nearest? x = some m) :
    near fourDigitBound ≤ near x ↔ 1798 * power 10 305 ≤ fourDigits m.shortest := by
  rw [near_le_near_iff, Magnitude.nearest?_eq_some_iff.mp hm]
  exact (Figure.top_le_fourDigits_shortest_iff (octave_lt_rank hx hm)).symm

theorem suited_eq_days_or {n : ℤ} (hn : 0 < n) :
    TimeUnit.suited n = .days ∨ n < TimeUnit.days.nanos ∧ |exact n| ≤ 1000 := by
  by_cases hday : TimeUnit.suited n = .days
  · exact Or.inl hday
  · have hlonger : (TimeUnit.suited n).nanos < TimeUnit.days.nanos := by
      revert hday
      cases TimeUnit.suited n <;> decide
    obtain ⟨w, hw⟩ := TimeUnit.exists_next? hlonger
    obtain ⟨r, hmem, hr⟩ := TimeUnit.next?_ratio hw
    have hratio : (r : ℚ) ≤ 1000 := by exact_mod_cast TimeUnit.ratio_le hmem
    exact Or.inr ⟨TimeUnit.lt_nanos_of_suited_lt hn hlonger,
      (abs_exact_lt_ratio hn hw hr).le.trans hratio⟩

/-- Whatever only numbers above a thousand reach is reached in the unit that
    suits a count exactly when it is reached in days. -/
theorem reached_iff {P : ℚ → Prop} (hmono : Monotone P) (hsmall : ¬P 1000) {n : ℤ} (hn : 0 < n) :
    (P |exact n| ↔ P (n / TimeUnit.days.nanos)) ∧ (P |exact n| → TimeUnit.suited n = .days) := by
  rcases suited_eq_days_or hn with hday | ⟨hlt, hle⟩
  · rw [abs_exact_of_pos hn, hday]
    exact ⟨Iff.rfl, fun _ => rfl⟩
  · have hnot : ¬P |exact n| := fun h => hsmall (hmono hle h)
    have hpart : (n / TimeUnit.days.nanos : ℚ) ≤ 1000 := by
      have hd : (0 : ℚ) < TimeUnit.days.nanos := Nat.cast_pos.mpr (TimeUnit.nanos_pos _)
      have hltq : (n : ℚ) < TimeUnit.days.nanos := by exact_mod_cast hlt
      rw [div_le_iff₀ hd]
      linarith
    exact ⟨iff_of_false hnot fun h => hsmall (hmono hpart h), fun h => absurd h hnot⟩

theorem abs_exact_of_nonpos {n : ℤ} (hn : n ≤ 0) : |exact n| = -n := by
  have hcast : (n : ℚ) ≤ 0 := by exact_mod_cast hn
  unfold exact
  rw [TimeUnit.suited_of_nonpos hn, TimeUnit.nanos, Nat.cast_one, div_one, abs_of_nonpos hcast]

theorem text_eq_overflow_iff (n : ℤ) :
    text n = .error .overflow ↔ Magnitude.overflowBound ≤ |exact n| := by
  rw [← Magnitude.nearest?_eq_none_iff]
  cases hm : Magnitude.nearest? |exact n| with
  | none => exact iff_of_true (text_of_overflow hm) rfl
  | some m =>
    refine iff_of_false (fun h => ?_) (by simp)
    by_cases hn : n = 0
    · rw [hn, text_zero] at h
      cases h
    · rw [text_of_ne_zero hn hm] at h
      cases h

theorem overflowBound_le_abs_exact_iff (n : ℤ) : Magnitude.overflowBound ≤ |exact n| ↔
    bound * TimeUnit.days.nanos ≤ n ∨ n ≤ -bound := by
  have hpos := bound_pos
  rcases lt_or_ge 0 n with hn | hn
  · have hd : (0 : ℚ) < TimeUnit.days.nanos := Nat.cast_pos.mpr (TimeUnit.nanos_pos _)
    have hreach := (reached_iff (P := (Magnitude.overflowBound ≤ ·)) (fun _ _ h hle => le_trans hle h)
      thousand_lt_overflowBound.not_ge hn).1
    rw [hreach, le_div_iff₀ hd, or_iff_left (by omega), ← cast_bound, ← Int.cast_natCast,
      ← Int.cast_mul, Int.cast_le]
  · have hd : (0 : ℤ) < TimeUnit.days.nanos := Int.natCast_pos.mpr (TimeUnit.nanos_pos _)
    have hbd := mul_pos hpos hd
    rw [abs_exact_of_nonpos hn, or_iff_right (by omega), ← cast_bound, le_neg, ← Int.cast_neg,
      Int.cast_le]

theorem not_near_fourDigitBound_le : ¬near fourDigitBound ≤ near 1000 := by
  obtain ⟨m, hm⟩ := Option.ne_none_iff_exists'.mp
    ((Magnitude.nearest?_eq_none_iff 1000).not.mpr thousand_lt_overflowBound.not_ge)
  have hle : fourDigits m.shortest ≤ (1000 : ℕ) :=
    fourDigits_shortest_le_natCast (by norm_num) hm (by decide) (by norm_num)
  have hwide : ((1000 : ℕ) : ℚ) ≤ (9007199254740992 : ℕ) := by norm_num
  have htop := lt_of_le_power (hle.trans (hwide.trans natCast_le_power))
  have hp := power_pos 10 305
  rw [near_fourDigitBound_le_iff (by norm_num) hm, not_le]
  linarith

theorem near_fourDigitBound_reached_iff {n : ℤ} (hn : 0 < n) :
    (near fourDigitBound ≤ near |exact n| ↔ near fourDigitBound ≤ near (n / TimeUnit.days.nanos)) ∧
      (near fourDigitBound ≤ near |exact n| → TimeUnit.suited n = .days) :=
  reached_iff (fun _ _ h hle => le_trans hle (near_mono h)) not_near_fourDigitBound_le hn

theorem text_of_near_fourDigitBound_le {n : ℤ} (hn : n ≠ 0) {m : Magnitude}
    (hm : Magnitude.nearest? |exact n| = some m) (h : near fourDigitBound ≤ near |exact n|) :
    text n = .ok (if n < 0 then "-inf ns" else "inf d") := by
  have hone := one_le_abs_exact hn
  have hrank := octave_lt_rank hone hm
  have htop : fourDigits m.shortest = 1798 * power 10 305 :=
    (Figure.fourDigits_shortest_le hrank.ne_bot).antisymm ((near_fourDigitBound_le_iff hone hm).mp h)
  rw [text_of_ne_zero hn hm, htop, Figure.ofDecimal_top]
  rcases lt_or_gt_of_ne hn with hneg | hpos
  · rw [TimeUnit.suited_of_nonpos hneg.le, if_pos hneg, decide_eq_true hneg]
    decide
  · rw [(near_fourDigitBound_reached_iff hpos).2 h, if_neg hpos.not_gt, decide_eq_false hpos.not_gt]
    decide

theorem shownNumber?_infinite : shownNumber? "inf d" = none ∧ shownNumber? "-inf ns" = none := by
  constructor <;> cbv

theorem shownNumber?_of_not_near_fourDigitBound_le {n : ℤ} (hn : n ≠ 0) {m : Magnitude}
    (hm : Magnitude.nearest? |exact n| = some m) (h : ¬near fourDigitBound ≤ near |exact n|) :
    ∃ s x, text n = .ok s ∧ shownNumber? s = some x := by
  obtain ⟨s, htext, _, hnumber⟩ := shown_of_ne_zero hn hm
  rw [near_fourDigitBound_le_iff (one_le_abs_exact hn) hm, not_le] at h
  rw [if_pos h] at hnumber
  exact ⟨s, _, htext, hnumber⟩

/-- A text says a number unless its quotient comes past the numbers of four
    digits, and then it says that the number is infinite, on the count's side. -/
theorem text_cases {n : ℤ} {s : String} (hs : text n = .ok s) :
    (∃ x, shownNumber? s = some x) ∧ ¬(n ≠ 0 ∧ near fourDigitBound ≤ near |exact n|) ∨
      (n ≠ 0 ∧ near fourDigitBound ≤ near |exact n|) ∧ s = if n < 0 then "-inf ns" else "inf d" := by
  by_cases hn : n = 0
  · subst hn
    obtain ⟨shown, htext, _, hnumber⟩ := shown_zero
    rw [hs, Except.ok.injEq] at htext
    exact Or.inl ⟨⟨_, htext ▸ hnumber⟩, fun h => h.1 rfl⟩
  · cases hm : Magnitude.nearest? |exact n| with
    | none =>
      rw [text_of_overflow hm] at hs
      cases hs
    | some m =>
      by_cases h : near fourDigitBound ≤ near |exact n|
      · rw [text_of_near_fourDigitBound_le hn hm h, Except.ok.injEq] at hs
        exact Or.inr ⟨⟨hn, h⟩, hs.symm⟩
      · obtain ⟨t, x, htext, hnumber⟩ := shownNumber?_of_not_near_fourDigitBound_le hn hm h
        rw [hs, Except.ok.injEq] at htext
        exact Or.inl ⟨⟨x, htext ▸ hnumber⟩, fun h' => h h'.2⟩

/-- A count has no text from half a spacing above the largest double on, counted in
    days upward and in nanoseconds downward, and for no other reason. Its text says
    that it is infinite exactly where its double reaches that of `fourDigitBound`, and
    a finite number otherwise. -/
theorem text_eq_error_iff (n : ℤ) :
    (text n = .error .overflow ↔ bound * TimeUnit.days.nanos ≤ n ∨ n ≤ -bound) ∧
    (∀ e, text n = .error e → e = .overflow) ∧
    ∀ s, text n = .ok s →
      (s = "inf d" ↔ 0 < n ∧ near fourDigitBound ≤ near (n / TimeUnit.days.nanos)) ∧
      (s = "-inf ns" ↔ n < 0 ∧ near fourDigitBound ≤ near (-n)) ∧
      (s ≠ "inf d" → s ≠ "-inf ns" → ∃ x, shownNumber? s = some x) := by
  refine ⟨(text_eq_overflow_iff n).trans (overflowBound_le_abs_exact_iff n), fun e => text_error, ?_⟩
  intro s hs
  have hpos : 0 < n →
      (near fourDigitBound ≤ near |exact n| ↔ near fourDigitBound ≤ near (n / TimeUnit.days.nanos)) :=
    fun hn => (near_fourDigitBound_reached_iff hn).1
  have hneg : n < 0 → |exact n| = -n := fun hn => abs_exact_of_nonpos hn.le
  rcases text_cases hs with ⟨⟨x, hx⟩, hnot⟩ | ⟨⟨hn, hreach⟩, rfl⟩
  · have hfinite : s ≠ "inf d" ∧ s ≠ "-inf ns" := by
      constructor <;> rintro rfl <;> simp [shownNumber?_infinite] at hx
    refine ⟨iff_of_false hfinite.1 ?_, iff_of_false hfinite.2 ?_, fun _ _ => ⟨x, hx⟩⟩
    · rintro ⟨hn, h⟩
      exact hnot ⟨hn.ne', (hpos hn).mpr h⟩
    · rintro ⟨hn, h⟩
      exact hnot ⟨hn.ne, hneg hn ▸ h⟩
  · rcases lt_or_gt_of_ne hn with hlt | hgt
    · rw [if_pos hlt]
      rw [hneg hlt] at hreach
      exact ⟨iff_of_false (by decide) fun h => hlt.not_gt h.1, iff_of_true rfl ⟨hlt, hreach⟩,
        fun _ h => absurd rfl h⟩
    · rw [if_neg hgt.not_gt]
      exact ⟨iff_of_true rfl ⟨hgt, (hpos hgt).mp hreach⟩, iff_of_false (by decide) fun h => hgt.not_gt h.1,
        fun h => absurd rfl h⟩

example : text (-17975 * 10 ^ 304) = .ok "-inf ns" := by decide +kernel

end Chronograph.Elapsed
