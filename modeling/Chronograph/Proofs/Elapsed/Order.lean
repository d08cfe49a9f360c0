import Mathlib
import Chronograph.Proofs.Elapsed

set_option autoImplicit false

/-!
# The order of what is shown

A text says a number of a unit, so many nanoseconds. Of two counts the larger
one is never shown as less, whatever units they are shown in: each rounding
keeps the order, and just below the next unit a number is rounded at most to
that unit. So below a day a number runs from one to the length of the next unit,
and needs no exponent. Calendar durations keep the order as well.
-/
namespace Chronograph.Elapsed
open Rounding Text.Decimal

theorem duration_eq_ok_iff (n : ℤ) (d : Duration) : duration n = .ok d ↔ d.toMicroseconds = n / 1000 := by
  unfold duration
  rw [← Duration.ofMicroseconds?_eq_some_iff]
  cases Duration.ofMicroseconds? (n / 1000) <;> simp

theorem duration_eq_error_iff (n : ℤ) (e : Fault) : duration n = .error e ↔
    e = .overflow ∧ ¬(-86399999913600000000 ≤ n / 1000 ∧ n / 1000 ≤ 86399999999999999999) := by
  have hrange : ¬(-86399999913600000000 ≤ n / 1000 ∧ n / 1000 ≤ 86399999999999999999) ↔
      Duration.ofMicroseconds? (n / 1000) = none := by
    rw [Duration.ofMicroseconds?_eq_none_iff]
    omega
  unfold duration
  rw [hrange]
  cases Duration.ofMicroseconds? (n / 1000) <;> simp [eq_comm]

theorem duration_mono {m n : ℤ} (hm : 0 ≤ m) (h : m ≤ n) {d : Duration} (hd : duration n = .ok d) :
    ∃ d', duration m = .ok d' ∧ 0 ≤ d'.toMicroseconds ∧ d'.toMicroseconds ≤ d.toMicroseconds := by
  rw [duration_eq_ok_iff, ← Duration.ofMicroseconds?_eq_some_iff] at hd
  have hmax := (Duration.ofMicroseconds?_eq_none_iff (n / 1000)).not.mp (by simp [hd])
  rw [Duration.ofMicroseconds?_eq_some_iff] at hd
  cases hd' : Duration.ofMicroseconds? (m / 1000) with
  | none =>
    rw [Duration.ofMicroseconds?_eq_none_iff] at hd'
    omega
  | some d' =>
    rw [Duration.ofMicroseconds?_eq_some_iff] at hd'
    exact ⟨d', (duration_eq_ok_iff m d').mpr hd', by omega, by omega⟩

/-- What a text says in nanoseconds: its number times the length of its unit. -/
def denotation? (s : String) : Option ℚ :=
  match shownNumber? s, TimeUnit.ofAbbreviation? (shownUnit s) with
  | some x, some u => some (x * u.nanos)
  | _, _ => none

theorem denotation?_of_shown {s : String} {x : ℚ} {u : TimeUnit} (hx : shownNumber? s = some x)
    (hu : shownUnit s = u.abbreviation) : denotation? s = some (x * u.nanos) := by
  unfold denotation?
  rw [hx, hu, TimeUnit.ofAbbreviation?_abbreviation]

section
variable {x y : ℚ} {m k : Magnitude}

theorem fourDigits_shortest_mono (hx : 1 ≤ x) (h : x ≤ y) (hm : Magnitude.nearest? x = some m)
    (hk : Magnitude.nearest? y = some k) : fourDigits m.shortest ≤ fourDigits k.shortest := by
  have hrank : m.rank ≤ k.rank := by
    rw [← Magnitude.nearest?_eq_some_iff.mp hm, ← Magnitude.nearest?_eq_some_iff.mp hk]
    exact Magnitude.nearestRank_mono h
  have hm0 : m.rank ≠ 0 := (octave_lt_rank hx hm).ne_bot
  have hk0 : k.rank ≠ 0 := (octave_lt_rank (hx.trans h) hk).ne_bot
  exact fourDigits_mono (Magnitude.shortest_pos hm0) (Magnitude.shortest_mono hm0 hk0 hrank)

theorem one_le_fourDigits_shortest (hx : 1 ≤ x) (hm : Magnitude.nearest? x = some m) :
    1 ≤ fourDigits m.shortest := by
  have hone : (1 : ℚ) = power 10 0 := (power_zero 10).symm
  have hdigits : Magnitude.Digits 15 1 := ⟨1, 0, by decide, by rw [power_zero]; norm_num⟩
  have hle : 1 ≤ m.shortest := Magnitude.le_shortest_of_le (octave_lt_rank hx hm) (by decide) hdigits hx
    (Magnitude.nearest?_eq_some_iff.mp hm)
  have h := fourDigits_mono zero_lt_one hle
  rwa [hone, fourDigits_power, ← hone] at h

theorem fourDigits_shortest_le_natCast (hx : 1 ≤ x) (hm : Magnitude.nearest? x = some m) {r : ℕ}
    (hr : r < 10000) (h : x ≤ r) : fourDigits m.shortest ≤ r := by
  have hrank := octave_lt_rank hx hm
  have hr0 : 0 < r := by exact_mod_cast zero_lt_one.trans_le (hx.trans h)
  have hdigits : Magnitude.Digits 15 r := ⟨r, 0, by omega, by rw [power_zero, mul_one]⟩
  have hle : m.shortest ≤ r :=
    Magnitude.shortest_le_of_le hrank (by decide) hdigits h (Magnitude.nearest?_eq_some_iff.mp hm)
  rw [← fourDigits_natCast hr0 hr]
  exact fourDigits_mono (Magnitude.shortest_pos hrank.ne_bot) hle

end

theorem shownNumber?_eq {n : ℤ} {s : String} {x : ℚ} (hs : text n = .ok s)
    (hx : shownNumber? s = some x) : shownUnit s = (TimeUnit.suited n).abbreviation ∧
      (n = 0 → x = 0) ∧ (n ≠ 0 → ∃ m, Magnitude.nearest? |exact n| = some m ∧
        x = if n < 0 then -fourDigits m.shortest else fourDigits m.shortest) := by
  by_cases hn : n = 0
  · subst hn
    obtain ⟨shown, htext, hunit, hnumber⟩ := shown_zero
    have hround : roundFour (exact 0) = 0 := by cbv
    rw [htext, Except.ok.injEq] at hs
    subst hs
    rw [hnumber, hround, Option.some.injEq] at hx
    exact ⟨hunit, fun _ => hx.symm, fun h => absurd rfl h⟩
  · cases hm : Magnitude.nearest? |exact n| with
    | none =>
      rw [text_of_overflow hm] at hs
      cases hs
    | some m =>
      obtain ⟨shown, htext, hunit, hnumber⟩ := shown_of_ne_zero hn hm
      rw [htext, Except.ok.injEq] at hs
      subst hs
      rw [hnumber] at hx
      split at hx
      · exact ⟨hunit, fun h => absurd h hn, fun _ => ⟨m, rfl, (Option.some.inj hx).symm⟩⟩
      · cases hx

theorem abs_exact_of_pos {n : ℤ} (hn : 0 < n) : |exact n| = n / (TimeUnit.suited n).nanos :=
  abs_of_nonneg (not_lt.mp ((exact_neg_iff n).not.mpr hn.not_gt))

theorem abs_exact_lt_ratio {n : ℤ} (hn : 0 < n) {w : TimeUnit} {r : ℕ}
    (hnext : (TimeUnit.suited n).next? = some w) (hr : w.nanos = r * (TimeUnit.suited n).nanos) :
    |exact n| < r := by
  have hu : (0 : ℚ) < (TimeUnit.suited n).nanos := Nat.cast_pos.mpr (TimeUnit.nanos_pos _)
  have hlt := TimeUnit.lt_nanos_of_suited_lt hn (TimeUnit.lt_nanos_of_next? hnext)
  rw [hr] at hlt
  rw [abs_exact_of_pos hn, div_lt_iff₀ hu]
  exact_mod_cast hlt

section
variable {n m : ℤ} {s t : String} {x y : ℚ}

theorem exists_nearest?_of_shown (hs : text n = .ok s) (hx : shownNumber? s = some x) (hn : n ≠ 0) :
    ∃ k, Magnitude.nearest? |exact n| = some k ∧
      x = if n < 0 then -fourDigits k.shortest else fourDigits k.shortest :=
  (shownNumber?_eq hs hx).2.2 hn

theorem shown_nonpos (hs : text n = .ok s) (hx : shownNumber? s = some x) (hn : n ≤ 0) : x ≤ 0 := by
  rcases hn.lt_or_eq with hneg | hzero
  · obtain ⟨k, hk, rfl⟩ := exists_nearest?_of_shown hs hx hneg.ne
    have hrank := octave_lt_rank (one_le_abs_exact hneg.ne) hk
    rw [if_pos hneg, neg_nonpos]
    exact (fourDigits_pos (Magnitude.shortest_pos hrank.ne_bot)).le
  · exact ((shownNumber?_eq hs hx).2.1 hzero).le

theorem one_le_shown (hs : text n = .ok s) (hx : shownNumber? s = some x) (hn : 0 < n) : 1 ≤ x := by
  obtain ⟨k, hk, rfl⟩ := exists_nearest?_of_shown hs hx hn.ne'
  rw [if_neg hn.not_gt]
  exact one_le_fourDigits_shortest (one_le_abs_exact hn.ne') hk

theorem shown_mono_of_neg (hs : text n = .ok s) (ht : text m = .ok t) (hx : shownNumber? s = some x)
    (hy : shownNumber? t = some y) (h : n ≤ m) (hm : m < 0) : x ≤ y := by
  have hn := h.trans_lt hm
  obtain ⟨k, hk, rfl⟩ := exists_nearest?_of_shown hs hx hn.ne
  obtain ⟨l, hl, rfl⟩ := exists_nearest?_of_shown ht hy hm.ne
  have habs : |exact m| ≤ |exact n| := by
    rw [abs_exact, abs_exact, TimeUnit.suited_of_nonpos hn.le, TimeUnit.suited_of_nonpos hm.le]
    exact div_le_div_of_nonneg_right (Nat.cast_le.mpr (by omega)) (Nat.cast_nonneg _)
  rw [if_pos hn, if_pos hm, neg_le_neg_iff]
  exact fourDigits_shortest_mono (one_le_abs_exact hm.ne) habs hl hk

theorem shown_mono_of_pos (hs : text n = .ok s) (ht : text m = .ok t) (hx : shownNumber? s = some x)
    (hy : shownNumber? t = some y) (hn : 0 < n) (h : n ≤ m)
    (hunit : TimeUnit.suited n = TimeUnit.suited m) : x ≤ y := by
  have hm := hn.trans_le h
  obtain ⟨k, hk, rfl⟩ := exists_nearest?_of_shown hs hx hn.ne'
  obtain ⟨l, hl, rfl⟩ := exists_nearest?_of_shown ht hy hm.ne'
  have habs : |exact n| ≤ |exact m| := by
    rw [abs_exact_of_pos hn, abs_exact_of_pos hm, hunit]
    exact div_le_div_of_nonneg_right (Int.cast_le.mpr h) (Nat.cast_nonneg _)
  rw [if_neg hn.not_gt, if_neg hm.not_gt]
  exact fourDigits_shortest_mono (one_le_abs_exact hn.ne') habs hk hl

theorem shown_le_ratio (hs : text n = .ok s) (hx : shownNumber? s = some x) (hn : 0 < n) {w : TimeUnit}
    {r : ℕ} (hnext : (TimeUnit.suited n).next? = some w)
    (hr : w.nanos = r * (TimeUnit.suited n).nanos) (hmax : r < 10000) : x ≤ r := by
  obtain ⟨k, hk, rfl⟩ := exists_nearest?_of_shown hs hx hn.ne'
  rw [if_neg hn.not_gt]
  exact fourDigits_shortest_le_natCast (one_le_abs_exact hn.ne') hk hmax
    (abs_exact_lt_ratio hn hnext hr).le

theorem denotation_le (hs : text n = .ok s) (ht : text m = .ok t) (hx : shownNumber? s = some x)
    (hy : shownNumber? t = some y) (h : n ≤ m) :
    x * (TimeUnit.suited n).nanos ≤ y * (TimeUnit.suited m).nanos := by
  have hunit : ∀ k : ℤ, (0 : ℚ) ≤ (TimeUnit.suited k).nanos := fun _ => Nat.cast_nonneg _
  rcases le_or_gt n 0 with hn | hn
  · have hx0 := mul_nonpos_of_nonpos_of_nonneg (shown_nonpos hs hx hn) (hunit n)
    rcases lt_trichotomy m 0 with hm | rfl | hm
    · rw [TimeUnit.suited_of_nonpos hn, TimeUnit.suited_of_nonpos hm.le]
      exact mul_le_mul_of_nonneg_right (shown_mono_of_neg hs ht hx hy h hm) (Nat.cast_nonneg _)
    · rw [(shownNumber?_eq ht hy).2.1 rfl, zero_mul]
      exact hx0
    · exact hx0.trans (mul_nonneg (zero_le_one.trans (one_le_shown ht hy hm)) (hunit m))
  · have hm := hn.trans_le h
    rcases (TimeUnit.nanos_suited_mono hn h).lt_or_eq with hlonger | hsame
    · obtain ⟨w, hw⟩ := TimeUnit.exists_next? hlonger
      obtain ⟨r, hmem, hr⟩ := TimeUnit.next?_ratio hw
      have hmax := TimeUnit.ratio_le hmem
      calc
        x * (TimeUnit.suited n).nanos ≤ r * (TimeUnit.suited n).nanos :=
          mul_le_mul_of_nonneg_right (shown_le_ratio hs hx hn hw hr (by omega)) (hunit n)
        _ = w.nanos := by rw [hr, Nat.cast_mul]
        _ ≤ (TimeUnit.suited m).nanos := Nat.cast_le.mpr (TimeUnit.nanos_le_of_next? hw hlonger)
        _ ≤ y * (TimeUnit.suited m).nanos := le_mul_of_one_le_left (hunit m) (one_le_shown ht hy hm)
    · have he := TimeUnit.nanos_injective hsame
      rw [he]
      exact mul_le_mul_of_nonneg_right (shown_mono_of_pos hs ht hx hy hn h he) (hunit m)

end

theorem exponent_not_mem_chars (negative : Bool) (k : ℕ) {e : ℤ} (hlow : 0 ≤ e) (hhigh : e ≤ 3) :
    'e' ∉ (Figure.number negative k e).chars := by
  have hbody : 'e' ∉ Figure.unsignedChars k e := by
    intro h
    rw [Figure.unsignedChars_point k hlow hhigh] at h
    exact ne_of_mem_pointed (by decide) (by decide) Figure.isDigit_of_mem_split 'e' h rfl
  cases negative <;> simp [Figure.chars, hbody]

theorem exponent_not_mem_abbreviation (u : TimeUnit) : 'e' ∉ u.abbreviation.toList := by
  cases u <;> decide

theorem exists_text_of_next? {n : ℤ} (hn : 0 < n) {w : TimeUnit}
    (hnext : (TimeUnit.suited n).next? = some w) : ∃ s x, text n = .ok s ∧
      shownUnit s = (TimeUnit.suited n).abbreviation ∧ shownNumber? s = some x ∧
      'e' ∉ s.toList := by
  obtain ⟨r, hmem, hr⟩ := TimeUnit.next?_ratio hnext
  have hmax := TimeUnit.ratio_le hmem
  have hday : w.nanos ≤ 86400 * 10 ^ 9 := by cases w <;> decide
  have hlt := TimeUnit.lt_nanos_of_suited_lt hn (TimeUnit.lt_nanos_of_next? hnext)
  obtain ⟨m, hm⟩ := exists_nearest? (show -9007199254740992 ≤ n by omega)
    (show n < 64 * 86400 * 10 ^ 9 by omega)
  have hone := one_le_abs_exact hn.ne'
  have hle : fourDigits m.shortest ≤ 1000 := by
    have h := fourDigits_shortest_le_natCast hone hm (show r < 10000 by omega)
      (abs_exact_lt_ratio hn hnext hr).le
    exact h.trans (by exact_mod_cast hmax)
  have hge := one_le_fourDigits_shortest hone hm
  have htop : fourDigits m.shortest < 1798 * power 10 305 := by
    have hthousand : (1000 : ℚ) ≤ (9007199254740992 : ℕ) := by norm_num
    have hpos := power_pos 10 305
    linarith [lt_of_le_power (hle.trans (hthousand.trans natCast_le_power))]
  obtain ⟨k, e, hk, hk', he, hf⟩ := Figure.ofDecimal_fourDigits (le_shortest hone hm) htop (n < 0)
  obtain ⟨s, htext, hunit, hnumber⟩ := shown_of_ne_zero hn.ne' hm
  rw [if_pos htop] at hnumber
  refine ⟨s, _, htext, hunit, hnumber, ?_⟩
  have hmag := magnitude_significand hk hk' (e - 3)
  rw [← he] at hmag
  have hpos := zero_lt_one.trans_le hge
  have hlow : 0 ≤ magnitude 10 (fourDigits m.shortest) := by
    rwa [le_magnitude_iff 10 hpos, power_zero]
  have hhigh : magnitude 10 (fourDigits m.shortest) < 4 := by
    rw [magnitude_lt_iff 10 hpos]
    exact hle.trans_lt (by decide)
  rw [text_of_ne_zero hn.ne' hm, hf, Except.ok.injEq] at htext
  rw [← htext, String.toList_append, String.toList_append, Figure.text, String.toList_ofList]
  simp [exponent_not_mem_chars _ _ (show 0 ≤ e by omega) (show e ≤ 3 by omega),
    exponent_not_mem_abbreviation]

theorem exists_text_of_le {d n : ℤ} (hd : 0 ≤ d) (h : d ≤ n) {s : String} (hs : text n = .ok s) :
    ∃ t, text d = .ok t := by
  rcases hd.eq_or_lt with rfl | hd
  · exact ⟨_, text_zero⟩
  have hn := hd.trans_le h
  rcases (TimeUnit.nanos_suited_mono hd h).lt_or_eq with hlonger | hsame
  · obtain ⟨w, hw⟩ := TimeUnit.exists_next? hlonger
    obtain ⟨t, _, ht, _⟩ := exists_text_of_next? hd hw
    exact ⟨t, ht⟩
  · have habs : |exact d| ≤ |exact n| := by
      rw [abs_exact_of_pos hd, abs_exact_of_pos hn, TimeUnit.nanos_injective hsame]
      exact div_le_div_of_nonneg_right (Int.cast_le.mpr h) (Nat.cast_nonneg _)
    cases hm : Magnitude.nearest? |exact n| with
    | none =>
      rw [text_of_overflow hm] at hs
      cases hs
    | some m =>
      have hrank : Magnitude.nearestRank |exact d| < overflowRank :=
        (Magnitude.nearestRank_mono habs).trans_lt (Magnitude.nearest?_eq_some_iff.mp hm ▸ m.rank_lt)
      obtain ⟨k, hk⟩ : ∃ k, Magnitude.nearest? |exact d| = some k :=
        ⟨⟨_, hrank⟩, Magnitude.nearest?_eq_some_iff.mpr rfl⟩
      exact ⟨_, text_of_ne_zero hd.ne' hk⟩

/-- A larger count is never shown as less. A positive count that is not shown in
    days has a text whose number, without an exponent, runs from one to what the
    next unit holds of the one shown. -/
theorem denotation?_text_le :
    (∀ n m : ℤ, n ≤ m → ∀ s t x y, text n = .ok s → text m = .ok t → shownNumber? s = some x →
      shownNumber? t = some y → ∃ a b, denotation? s = some a ∧ denotation? t = some b ∧ a ≤ b) ∧
    (∀ (n : ℤ) (w : TimeUnit), 0 < n → (TimeUnit.suited n).next? = some w →
      ∃ r ∈ [1000, 60, 24], w.nanos = r * (TimeUnit.suited n).nanos ∧
        ∃ s x, text n = .ok s ∧ shownUnit s = (TimeUnit.suited n).abbreviation ∧
          shownNumber? s = some x ∧ 1 ≤ x ∧ x ≤ r ∧ 'e' ∉ s.toList) := by
  constructor
  · intro n m h s t x y hs ht hx hy
    exact ⟨_, _, denotation?_of_shown hx (shownNumber?_eq hs hx).1,
      denotation?_of_shown hy (shownNumber?_eq ht hy).1, denotation_le hs ht hx hy h⟩
  · intro n w hn hnext
    obtain ⟨r, hmem, hr⟩ := TimeUnit.next?_ratio hnext
    obtain ⟨s, x, hs, hunit, hx, he⟩ := exists_text_of_next? hn hnext
    have hmax : ∀ r ∈ [1000, 60, 24], r < 10000 := by decide
    exact ⟨r, hmem, hr, s, x, hs, hunit, hx, one_le_shown hs hx hn,
      shown_le_ratio hs hx hn hnext hr (hmax r hmem), he⟩

/-- A nanosecond less than a second is shown as 1000 ms, which is no more than the
    second itself. -/
theorem denotation?_text_le_second :
    text 999999999 = .ok "1000 ms" ∧ text 1000000000 = .ok "1.000 s" ∧
      (∃ a b, denotation? "1000 ms" = some a ∧ denotation? "1.000 s" = some b ∧ a ≤ b) ∧
      ∃ x, shownNumber? "1000 ms" = some x ∧ 1 ≤ x ∧ x ≤ 1000 ∧ 'e' ∉ "1000 ms".toList := by
  have hs : text 999999999 = .ok "1000 ms" := by decide +kernel
  have ht : text 1000000000 = .ok "1.000 s" := by decide +kernel
  have hx : shownNumber? "1000 ms" = some 1000 := by cbv
  have hy : shownNumber? "1.000 s" = some 1 := by cbv
  obtain ⟨hmono, hrange⟩ := denotation?_text_le
  obtain ⟨r, _, hr, s, x, htext, _, hnumber, hlow, hhigh, he⟩ :=
    hrange 999999999 .seconds (by decide) (by decide)
  obtain rfl : r = 1000 := by
    have hunit : TimeUnit.suited 999999999 = .milliseconds := by decide
    simp only [hunit, TimeUnit.nanos] at hr
    omega
  rw [hs, Except.ok.injEq] at htext
  subst htext
  exact ⟨hs, ht, hmono _ _ (by decide) _ _ _ _ hs ht hx hy, x, hnumber, hlow, by exact_mod_cast hhigh, he⟩

end Chronograph.Elapsed
