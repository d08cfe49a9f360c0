import Mathlib
import Chronograph.Figure
import Chronograph.Proofs.Text.Decimal

set_option autoImplicit false

/-!
# The text of a figure

A figure of at most four digits is read back as its number, and with four digits
its text is the one that shows that number.
-/
namespace Chronograph.Figure
open Rounding Text.Decimal

theorem isDigit_of_mem_digits {k : ℕ} {c : Char} (h : c ∈ digits k) : c.isDigit := by
  simp only [digits, List.map_cons, List.map_nil, List.mem_cons, List.not_mem_nil, or_false] at h
  rcases h with rfl | rfl | rfl | rfl <;> rw [Nat.isDigit_digitChar] <;>
    exact decide_eq_true (Nat.mod_lt _ (by decide))

theorem ofDigitChars_digits {k : ℕ} (h : k < 10000) : Nat.ofDigitChars 10 (digits k) 0 = k := by
  simp only [digits, List.map_cons, List.map_nil,
    Nat.ofDigitChars_cons_digitChar_of_lt_ten (Nat.mod_lt _ (show 0 < 10 by decide)),
    Nat.ofDigitChars_nil]
  omega

theorem digits_length (k : ℕ) : (digits k).length = 4 := rfl

theorem head_digits_ne {k : ℕ} (hlow : 1000 ≤ k) (hhigh : k < 10000) :
    ∃ first rest, digits k = first :: rest ∧ first ≠ '0' := by
  refine ⟨_, _, rfl, ?_⟩
  intro h
  rw [Nat.digitChar_eq_zero] at h
  omega

def exponentDigits (e : ℤ) : List Char :=
  List.replicate (2 - (Nat.toDigits 10 e.natAbs).length) '0' ++ Nat.toDigits 10 e.natAbs

theorem exponentChars_eq (e : ℤ) :
    exponentChars e = (if e < 0 then '-' else '+') :: exponentDigits e := rfl

theorem isDigit_of_mem_exponentDigits {e : ℤ} {c : Char} (h : c ∈ exponentDigits e) : c.isDigit := by
  rcases List.mem_append.mp h with h | h
  · rw [List.eq_of_mem_replicate h]
    decide
  · exact Nat.isDigit_of_mem_toDigits (by decide) (by decide) h

theorem ofDigitChars_exponentDigits (e : ℤ) :
    Nat.ofDigitChars 10 (exponentDigits e) 0 = e.natAbs := by
  unfold exponentDigits
  rw [Nat.ofDigitChars_append, Nat.ofDigitChars_replicate_zero, mul_zero,
    Nat.ofDigitChars_ten_toDigits]

theorem exponentDigits_length (e : ℤ) : 2 ≤ (exponentDigits e).length := by
  unfold exponentDigits
  rw [List.length_append, List.length_replicate]
  omega

theorem exponentDigits_head {e : ℤ} (h : (exponentDigits e).head? = some '0') :
    (exponentDigits e).length = 2 := by
  by_contra hne
  have hlen := exponentDigits_length e
  have hpad : exponentDigits e = Nat.toDigits 10 e.natAbs := by
    unfold exponentDigits at hne hlen ⊢
    rw [List.length_append, List.length_replicate] at hne hlen
    rw [show 2 - (Nat.toDigits 10 e.natAbs).length = 0 by omega]
    rfl
  have hvalue := ofDigitChars_exponentDigits e
  have hdigits : ∀ c ∈ exponentDigits e, c.isDigit := fun c => isDigit_of_mem_exponentDigits
  cases he : exponentDigits e with
  | nil => rw [he] at hlen; exact absurd hlen (by decide)
  | cons c t =>
    rw [he] at h hlen hne hvalue hdigits
    obtain rfl : c = '0' := Option.some.inj h
    rw [List.length_cons] at hlen hne
    have hlt := ofDigitChars_lt (s := t) fun d hd => hdigits d (List.mem_cons_of_mem _ hd)
    rw [ofDigitChars_cons, Nat.sub_self, mul_zero, zero_add] at hvalue
    rw [hvalue, ← Nat.length_toDigits_le_iff (by decide) (by omega), ← hpad, he,
      List.length_cons] at hlt
    omega

theorem signed_exponentDigits (e : ℤ) :
    signed (if e < 0 then '-' else '+') (Nat.ofDigitChars 10 (exponentDigits e) 0) = e := by
  rw [ofDigitChars_exponentDigits]
  by_cases h : e < 0
  · rw [if_pos h]
    change -(e.natAbs : ℤ) = e
    omega
  · rw [if_neg h]
    change (e.natAbs : ℤ) = e
    omega

theorem unsignedChars_point (k : ℕ) {e : ℤ} (hlow : 0 ≤ e) (hhigh : e ≤ 3) :
    unsignedChars k e =
      pointed ((digits k).take (e.toNat + 1)) ((digits k).drop (e.toNat + 1)) := by
  obtain rfl | rfl | rfl | rfl : e = 0 ∨ e = 1 ∨ e = 2 ∨ e = 3 := by omega
  all_goals rfl

theorem unsignedChars_small (k : ℕ) {e : ℤ} (hlow : -4 ≤ e) (hhigh : e < 0) :
    unsignedChars k e = pointed ['0'] (List.replicate (-e - 1).toNat '0' ++ digits k) := by
  obtain rfl | rfl | rfl | rfl : e = -4 ∨ e = -3 ∨ e = -2 ∨ e = -1 := by omega
  all_goals rfl

theorem unsignedChars_exponent (k : ℕ) {e : ℤ} (h : e < -4 ∨ 3 < e) :
    unsignedChars k e =
      pointed ((digits k).take 1) ((digits k).drop 1) ++ 'e' :: exponentChars e := by
  unfold unsignedChars
  rw [if_neg (by omega), if_neg (by omega), if_neg (by omega)]
  rfl

theorem isDigit_of_mem_small {k n : ℕ} :
    ∀ c ∈ ['0'] ++ (List.replicate n '0' ++ digits k), c.isDigit := by
  intro c hc
  rcases List.mem_append.mp hc with hc | hc
  · rw [List.mem_singleton.mp hc]
    decide
  · rcases List.mem_append.mp hc with hc | hc
    · rw [List.eq_of_mem_replicate hc]
      decide
    · exact isDigit_of_mem_digits hc

theorem isDigit_of_mem_split {k n : ℕ} :
    ∀ c ∈ (digits k).take n ++ (digits k).drop n, c.isDigit := by
  rw [List.take_append_drop]
  exact fun c => isDigit_of_mem_digits

theorem unsigned?_unsignedChars {k : ℕ} (hk : k < 10000) (e : ℤ) :
    unsigned? (unsignedChars k e) = some (k * power 10 (e - 3)) := by
  by_cases hexp : e < -4 ∨ 3 < e
  · have hne : (digits k).take 1 ≠ [] := List.cons_ne_nil _ _
    have hsign : (if e < 0 then '-' else '+') = '+' ∨ (if e < 0 then '-' else '+') = '-' := by
      split <;> simp
    have hshown := List.ne_nil_of_length_pos (lt_of_lt_of_le (by decide) (exponentDigits_length e))
    rw [unsignedChars_exponent k hexp, exponentChars_eq, unsigned?_exponent isDigit_of_mem_split hne
      hsign (fun c => isDigit_of_mem_exponentDigits) hshown, List.take_append_drop,
      ofDigitChars_digits hk, signed_exponentDigits]
    rfl
  · by_cases hpos : 0 ≤ e
    · have hne : (digits k).take (e.toNat + 1) ≠ [] := List.cons_ne_nil _ _
      rw [unsignedChars_point k hpos (by omega), unsigned?_pointed isDigit_of_mem_split hne,
        List.take_append_drop, ofDigitChars_digits hk, List.length_drop, digits_length]
      congr 3
      omega
    · rw [unsignedChars_small k (by omega) (by omega),
        unsigned?_pointed isDigit_of_mem_small (List.cons_ne_nil _ _), Nat.ofDigitChars_append,
        Nat.ofDigitChars_append, Nat.ofDigitChars_replicate_zero, List.length_append,
        List.length_replicate, digits_length]
      change some ((Nat.ofDigitChars 10 (digits k) (10 ^ _ * 0) : ℚ) * _) = _
      rw [mul_zero, ofDigitChars_digits hk]
      congr 3
      push_cast
      omega

theorem head_unsignedChars_ne (k : ℕ) (e : ℤ) : (unsignedChars k e).head? ≠ some '-' := by
  have hhead : ∀ c ∈ digits k, c ≠ '-' := fun c hc =>
    ne_of_isDigit (isDigit_of_mem_digits hc) (by decide)
  have hfirst : some ((k / 1000 % 10).digitChar) ≠ some '-' := fun h =>
    hhead _ List.mem_cons_self (Option.some.inj h)
  by_cases hexp : e < -4 ∨ 3 < e
  · rw [unsignedChars_exponent k hexp]
    exact hfirst
  · by_cases hpos : 0 ≤ e
    · rw [unsignedChars_point k hpos (by omega)]
      exact hfirst
    · rw [unsignedChars_small k (by omega) (by omega)]
      exact show some '0' ≠ some '-' by decide

theorem ne_space_of_mem_exponentChars (e : ℤ) : ∀ c ∈ exponentChars e, c ≠ ' ' := by
  intro c hc
  rw [exponentChars_eq] at hc
  rcases List.mem_cons.mp hc with rfl | hc
  · split <;> decide
  · exact ne_of_isDigit (isDigit_of_mem_exponentDigits hc) (by decide)

theorem ne_space_of_mem_unsignedChars (k : ℕ) (e : ℤ) : ∀ c ∈ unsignedChars k e, c ≠ ' ' := by
  by_cases hexp : e < -4 ∨ 3 < e
  · rw [unsignedChars_exponent k hexp]
    intro c hc
    rcases List.mem_append.mp hc with hc | hc
    · exact ne_of_mem_pointed (by decide) (by decide) isDigit_of_mem_split c hc
    · rcases List.mem_cons.mp hc with rfl | hc
      · decide
      · exact ne_space_of_mem_exponentChars e c hc
  · by_cases hpos : 0 ≤ e
    · rw [unsignedChars_point k hpos (by omega)]
      exact ne_of_mem_pointed (by decide) (by decide) isDigit_of_mem_split
    · rw [unsignedChars_small k (by omega) (by omega)]
      exact ne_of_mem_pointed (by decide) (by decide) isDigit_of_mem_small

theorem space_not_mem_chars (f : Figure) : ' ' ∉ f.chars := by
  cases f with
  | undefined => decide
  | infinite negative => cases negative <;> decide
  | number negative k e =>
    intro hc
    rcases List.mem_append.mp hc with hc | hc
    · cases negative
      · exact absurd hc List.not_mem_nil
      · exact absurd (List.mem_singleton.mp hc) (by decide)
    · exact ne_space_of_mem_unsignedChars k e ' ' hc rfl

theorem read?_chars {k : ℕ} (hk : k < 10000) (negative : Bool) (e : ℤ) :
    read? (number negative k e).chars = (number negative k e).value? := by
  have hvalue := unsigned?_unsignedChars hk e
  cases negative with
  | false =>
    change read? (unsignedChars k e) = _
    rw [read?_of_head (head_unsignedChars_ne k e), hvalue]
    rfl
  | true =>
    change read? ('-' :: unsignedChars k e) = _
    rw [read?, hvalue]
    rfl

theorem dropWhile_digits {k : ℕ} (hlow : 1000 ≤ k) (hhigh : k < 10000) :
    (digits k).dropWhile (· = '0') = digits k := by
  obtain ⟨first, rest, he, hne⟩ := head_digits_ne hlow hhigh
  rw [he, List.dropWhile_cons_of_neg (by simpa using hne)]

theorem fixed_unsignedChars {k : ℕ} (hlow : 1000 ≤ k) (hhigh : k < 10000) {e : ℤ} (hmin : -4 ≤ e)
    (hmax : e ≤ 3) : Fixed (unsignedChars k e) := by
  by_cases hpos : 0 ≤ e
  · refine ⟨_, _, unsignedChars_point k hpos hmax, isDigit_of_mem_split, List.cons_ne_nil _ _, ?_, ?_⟩
    · intro h
      obtain ⟨first, rest, he, hne⟩ := head_digits_ne hlow hhigh
      rw [he, List.take_succ_cons] at h
      exact absurd (Option.some.inj h) hne
    · rw [List.take_append_drop, dropWhile_digits hlow hhigh, digits_length]
  · refine ⟨_, _, unsignedChars_small k hmin (by omega), isDigit_of_mem_small,
      List.cons_ne_nil _ _, fun _ => rfl, ?_⟩
    have hzeros : ∀ c ∈ ['0'] ++ List.replicate (-e - 1).toNat '0', (decide (c = '0')) = true := by
      intro c hc
      rcases List.mem_append.mp hc with hc | hc
      · exact decide_eq_true (List.mem_singleton.mp hc)
      · exact decide_eq_true (List.eq_of_mem_replicate hc)
    rw [← List.append_assoc, List.dropWhile_append_of_pos hzeros, dropWhile_digits hlow hhigh,
      digits_length]

theorem scientific_unsignedChars {k : ℕ} (hlow : 1000 ≤ k) (hhigh : k < 10000) {e : ℤ}
    (h : e < -4 ∨ 3 < e) : Scientific (unsignedChars k e) := by
  obtain ⟨first, rest, he, hne⟩ := head_digits_ne hlow hhigh
  have hrest : rest.length = 3 := by
    have := digits_length k
    rw [he] at this
    exact Nat.succ.inj this
  refine ⟨first, rest, if e < 0 then '-' else '+', exponentDigits e, ?_, ?_, hne, hrest, ?_,
    fun c => isDigit_of_mem_exponentDigits, exponentDigits_length e, exponentDigits_head⟩
  · rw [unsignedChars_exponent k h, he, pointed_of_length hrest, exponentChars_eq]
    rfl
  · rw [← he]
    exact fun c => isDigit_of_mem_digits
  · split <;> simp

/-- The text of a figure of four digits is the one that shows its number. -/
theorem shows_chars {k : ℕ} (hlow : 1000 ≤ k) (hhigh : k < 10000) (negative : Bool) (e : ℤ) :
    Shows (if negative then -(k * power 10 (e - 3)) else k * power 10 (e - 3))
      (number negative k e).chars := by
  have hpos : 0 < (k : ℚ) * power 10 (e - 3) :=
    mul_pos (Nat.cast_pos.mpr (by omega)) (power_pos 10 _)
  have habs : |if negative then -(k * power 10 (e - 3)) else (k : ℚ) * power 10 (e - 3)| =
      k * power 10 (e - 3) := by
    cases negative
    · exact abs_of_pos hpos
    · exact (abs_neg _).trans (abs_of_pos hpos)
  have hm : magnitude 10 (k * power 10 (e - 3)) = e := by
    rw [magnitude_significand hlow hhigh]
    omega
  refine ⟨read?_chars hhigh negative e, unsignedChars k e, ?_, ?_⟩
  · cases negative
    · exact Or.inl rfl
    · exact Or.inr rfl
  · have hsize : power 10 (-4) ≤ k * power 10 (e - 3) ∧ k * power 10 (e - 3) < power 10 4 ↔
        -4 ≤ e ∧ e < 4 := by
      rw [← le_magnitude_iff 10 hpos, ← magnitude_lt_iff 10 hpos, hm]
    rw [habs]
    split
    · rename_i h
      exact fixed_unsignedChars hlow hhigh (hsize.mp h).1 (Int.le_of_lt_add_one (hsize.mp h).2)
    · rename_i h
      rw [hsize] at h
      exact scientific_unsignedChars hlow hhigh (by omega)

end Chronograph.Figure
