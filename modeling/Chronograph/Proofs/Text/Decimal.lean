import Mathlib
import Chronograph.Proofs.Rounding

set_option autoImplicit false

/-!
# Decimal texts

A reader of decimal numbers, and the form of those that show four significant
digits: fixed notation for numbers from a ten-thousandth to below ten thousand,
an exponent for all others. Main statement: a number has at most one text of
this form.
-/
namespace Chronograph.Text.Decimal
open Rounding

/-- The number that a row of digits writes; there must be a digit. -/
def natural? (s : List Char) : Option ℕ :=
  if s ≠ [] ∧ s.all Char.isDigit then some (Nat.ofDigitChars 10 s 0) else none

def fixed? (s : List Char) : Option ℚ :=
  match natural? (s.takeWhile (· ≠ '.')), s.dropWhile (· ≠ '.') with
  | some n, [] => some n
  | some n, _ :: fraction => (natural? fraction).map fun m : ℕ => n + m * power 10 (-fraction.length)
  | none, _ => none

def exponent? : List Char → Option ℤ
  | [] => some 0
  | 'e' :: '+' :: s => (natural? s).map fun n : ℕ => (n : ℤ)
  | 'e' :: '-' :: s => (natural? s).map fun n : ℕ => -(n : ℤ)
  | _ => none

def unsigned? (s : List Char) : Option ℚ :=
  match fixed? (s.takeWhile (· ≠ 'e')), exponent? (s.dropWhile (· ≠ 'e')) with
  | some x, some e => some (x * power 10 e)
  | _, _ => none

/-- The number that a text writes, if it writes one. -/
def read? : List Char → Option ℚ
  | '-' :: s => (unsigned? s).map fun x => -x
  | s => unsigned? s

def pointed (whole fraction : List Char) : List Char :=
  whole ++ if fraction = [] then [] else '.' :: fraction

/-- Fixed notation with four significant digits: there are digits after a point,
    and the only zero in front of another digit is the one before it. -/
def Fixed (s : List Char) : Prop :=
  ∃ whole fraction : List Char, s = pointed whole fraction ∧
    (∀ c ∈ whole ++ fraction, c.isDigit) ∧ whole ≠ [] ∧ (whole.head? = some '0' → whole = ['0']) ∧
    ((whole ++ fraction).dropWhile (· = '0')).length = 4

/-- One digit before the point and three after it, and an exponent with a sign
    and at least two digits, of which the first is zero only if there are two. -/
def Scientific (s : List Char) : Prop :=
  ∃ (first : Char) (rest : List Char) (sign : Char) (shown : List Char),
    s = first :: '.' :: rest ++ 'e' :: sign :: shown ∧ (∀ c ∈ first :: rest, c.isDigit) ∧
    first ≠ '0' ∧ rest.length = 3 ∧ (sign = '+' ∨ sign = '-') ∧ (∀ c ∈ shown, c.isDigit) ∧
    2 ≤ shown.length ∧ (shown.head? = some '0' → shown.length = 2)

/-- The text shows `x` in four digits, in the notation that the size of `x` asks for. -/
def Shows (x : ℚ) (s : List Char) : Prop :=
  read? s = some x ∧ ∃ body, (s = body ∨ s = '-' :: body) ∧
    if power 10 (-4) ≤ |x| ∧ |x| < power 10 4 then Fixed body else Scientific body

theorem toNat_sub_lt {c : Char} (h : c.isDigit) : c.toNat - '0'.toNat < 10 := by
  simp only [Char.isDigit, Bool.and_eq_true, decide_eq_true_eq, UInt32.le_iff_toNat_le] at h
  change c.toNat - 48 < 10
  have : c.toNat ≤ 57 := h.2
  omega

theorem eq_of_toNat_sub_eq {c d : Char} (hc : c.isDigit) (hd : d.isDigit)
    (h : c.toNat - '0'.toNat = d.toNat - '0'.toNat) : c = d := by
  simp only [Char.isDigit, Bool.and_eq_true, decide_eq_true_eq, UInt32.le_iff_toNat_le] at hc hd
  have h1 : 48 ≤ c.toNat := hc.1
  have h2 : 48 ≤ d.toNat := hd.1
  change c.toNat - 48 = d.toNat - 48 at h
  apply Char.ext
  apply UInt32.toNat_inj.mp
  change c.toNat = d.toNat
  omega

theorem ofDigitChars_cons (c : Char) (s : List Char) : Nat.ofDigitChars 10 (c :: s) 0 =
    10 ^ s.length * (c.toNat - '0'.toNat) + Nat.ofDigitChars 10 s 0 := by
  rw [Nat.ofDigitChars_cons, mul_zero, zero_add]
  exact Nat.ofDigitChars_eq_ofDigitChars_zero

theorem ofDigitChars_lt {s : List Char} (h : ∀ c ∈ s, c.isDigit) :
    Nat.ofDigitChars 10 s 0 < 10 ^ s.length := by
  induction s with
  | nil => decide
  | cons c s ih =>
    have hs := ih fun d hd => h d (List.mem_cons_of_mem _ hd)
    have hc := toNat_sub_lt (h c List.mem_cons_self)
    rw [ofDigitChars_cons, List.length_cons, pow_succ]
    calc
      10 ^ s.length * (c.toNat - '0'.toNat) + Nat.ofDigitChars 10 s 0
          < 10 ^ s.length * (c.toNat - '0'.toNat) + 10 ^ s.length := by omega
      _ = 10 ^ s.length * (c.toNat - '0'.toNat + 1) := by rw [Nat.mul_succ]
      _ ≤ 10 ^ s.length * 10 := Nat.mul_le_mul_left _ hc

theorem le_ofDigitChars {c : Char} {s : List Char} (hc : c.isDigit) (h : c ≠ '0') :
    10 ^ s.length ≤ Nat.ofDigitChars 10 (c :: s) 0 := by
  have hpos : 0 < c.toNat - '0'.toNat := by
    rw [Nat.pos_iff_ne_zero]
    intro hz
    exact h (eq_of_toNat_sub_eq hc (by decide) (hz.trans (by decide)))
  rw [ofDigitChars_cons]
  exact (Nat.le_mul_of_pos_right _ hpos).trans (Nat.le_add_right _ _)

theorem eq_of_ofDigitChars_eq {s t : List Char} (hs : ∀ c ∈ s, c.isDigit) (ht : ∀ c ∈ t, c.isDigit)
    (hl : s.length = t.length) (h : Nat.ofDigitChars 10 s 0 = Nat.ofDigitChars 10 t 0) : s = t := by
  induction s generalizing t with
  | nil => exact (List.length_eq_zero_iff.mp hl.symm).symm
  | cons c s ih =>
    cases t with
    | nil => cases hl
    | cons d t =>
      have hsd : ∀ c ∈ s, c.isDigit := fun a ha => hs a (List.mem_cons_of_mem _ ha)
      have htd : ∀ c ∈ t, c.isDigit := fun a ha => ht a (List.mem_cons_of_mem _ ha)
      have hlen : s.length = t.length := Nat.succ.inj hl
      have hslt := ofDigitChars_lt hsd
      have htlt := ofDigitChars_lt htd
      rw [ofDigitChars_cons, ofDigitChars_cons, hlen] at h
      rw [hlen] at hslt
      have hhead : c.toNat - '0'.toNat = d.toNat - '0'.toNat := by
        have := congrArg (· / 10 ^ t.length) h
        simpa only [Nat.mul_add_div (Nat.pow_pos (show 0 < 10 by decide)), Nat.div_eq_of_lt hslt,
          Nat.div_eq_of_lt htlt, add_zero] using this
      rw [hhead] at h
      rw [eq_of_toNat_sub_eq (hs c List.mem_cons_self) (ht d List.mem_cons_self) hhead,
        ih hsd htd hlen (Nat.add_left_cancel h)]

theorem natural?_of_digits {s : List Char} (hne : s ≠ []) (h : ∀ c ∈ s, c.isDigit) :
    natural? s = some (Nat.ofDigitChars 10 s 0) :=
  if_pos ⟨hne, List.all_eq_true.mpr h⟩

theorem ne_of_isDigit {c d : Char} (hc : c.isDigit) (hd : d.isDigit = false) : c ≠ d := by
  rintro rfl
  rw [hd] at hc
  exact absurd hc (by decide)

theorem takeWhile_digits {s t : List Char} {d : Char} (h : ∀ c ∈ s, c.isDigit)
    (hd : d.isDigit = false) : (s ++ d :: t).takeWhile (· ≠ d) = s ∧
      (s ++ d :: t).dropWhile (· ≠ d) = d :: t := by
  have hs : ∀ c ∈ s, (decide (c ≠ d)) = true := fun c hc =>
    decide_eq_true (ne_of_isDigit (h c hc) hd)
  rw [List.takeWhile_append_of_pos hs, List.dropWhile_append_of_pos hs]
  simp

theorem fixed?_pointed {whole fraction : List Char} (h : ∀ c ∈ whole ++ fraction, c.isDigit)
    (hne : whole ≠ []) : fixed? (pointed whole fraction) =
      some (Nat.ofDigitChars 10 (whole ++ fraction) 0 * power 10 (-fraction.length)) := by
  have hw : ∀ c ∈ whole, c.isDigit := fun c hc => h c (List.mem_append_left _ hc)
  have hf : ∀ c ∈ fraction, c.isDigit := fun c hc => h c (List.mem_append_right _ hc)
  have hn := natural?_of_digits hne hw
  unfold fixed? pointed
  by_cases hempty : fraction = []
  · have hall : ∀ c ∈ whole, (decide (c ≠ '.')) = true := fun c hc =>
      decide_eq_true (ne_of_isDigit (hw c hc) (by decide))
    rw [if_pos hempty, List.append_nil, List.takeWhile_eq_self_iff.mpr hall,
      List.dropWhile_eq_nil_iff.mpr hall, hn]
    simp [hempty, power_zero]
  · obtain ⟨htake, hdrop⟩ := takeWhile_digits (t := fraction) hw (show '.'.isDigit = false by decide)
    rw [if_neg hempty, htake, hdrop, hn]
    simp only
    have hshift : power 10 fraction.length * power 10 (-fraction.length) = 1 := by
      rw [← power_add 10, add_neg_cancel, power_zero]
    have hjoin : (Nat.ofDigitChars 10 (whole ++ fraction) 0 : ℚ) =
        power 10 fraction.length * Nat.ofDigitChars 10 whole 0 + Nat.ofDigitChars 10 fraction 0 := by
      rw [Nat.ofDigitChars_append, Nat.ofDigitChars_eq_ofDigitChars_zero, power_natCast]
      push_cast
      rfl
    rw [natural?_of_digits hempty hf, Option.map_some, hjoin]
    congr 1
    linear_combination (Nat.ofDigitChars 10 whole 0 : ℚ) * (-hshift)

def signed (sign : Char) (n : ℕ) : ℤ := if sign = '-' then -n else n

theorem ne_of_mem_pointed {whole fraction : List Char} {d : Char} (hd : d.isDigit = false)
    (hpoint : '.' ≠ d) (h : ∀ c ∈ whole ++ fraction, c.isDigit) :
    ∀ c ∈ pointed whole fraction, c ≠ d := by
  intro c hc
  unfold pointed at hc
  rcases List.mem_append.mp hc with hc | hc
  · exact ne_of_isDigit (h c (List.mem_append_left _ hc)) hd
  · split at hc
    · exact absurd hc List.not_mem_nil
    · rcases List.mem_cons.mp hc with rfl | hc
      · exact hpoint
      · exact ne_of_isDigit (h c (List.mem_append_right _ hc)) hd

theorem unsigned?_pointed {whole fraction : List Char} (h : ∀ c ∈ whole ++ fraction, c.isDigit)
    (hne : whole ≠ []) : unsigned? (pointed whole fraction) =
      some (Nat.ofDigitChars 10 (whole ++ fraction) 0 * power 10 (-fraction.length)) := by
  have hall : ∀ c ∈ pointed whole fraction, (decide (c ≠ 'e')) = true := fun c hc =>
    decide_eq_true (ne_of_mem_pointed (by decide) (by decide) h c hc)
  unfold unsigned?
  rw [List.takeWhile_eq_self_iff.mpr hall, List.dropWhile_eq_nil_iff.mpr hall,
    fixed?_pointed h hne]
  simp only [exponent?, power_zero, mul_one]

theorem unsigned?_exponent {whole fraction shown : List Char} {sign : Char}
    (h : ∀ c ∈ whole ++ fraction, c.isDigit) (hne : whole ≠ []) (hsign : sign = '+' ∨ sign = '-')
    (hs : ∀ c ∈ shown, c.isDigit) (hsne : shown ≠ []) :
    unsigned? (pointed whole fraction ++ 'e' :: sign :: shown) =
      some (Nat.ofDigitChars 10 (whole ++ fraction) 0 *
        power 10 (signed sign (Nat.ofDigitChars 10 shown 0) - fraction.length)) := by
  have hall : ∀ c ∈ pointed whole fraction, (decide (c ≠ 'e')) = true := fun c hc =>
    decide_eq_true (ne_of_mem_pointed (by decide) (by decide) h c hc)
  have hexp : exponent? ('e' :: sign :: shown) =
      some (signed sign (Nat.ofDigitChars 10 shown 0)) := by
    rcases hsign with rfl | rfl
    · simp only [exponent?, natural?_of_digits hsne hs, Option.map_some]
      rfl
    · simp only [exponent?, natural?_of_digits hsne hs, Option.map_some]
      rfl
  have htake : ('e' :: sign :: shown).takeWhile (· ≠ 'e') = [] := by simp
  have hdrop : ('e' :: sign :: shown).dropWhile (· ≠ 'e') = 'e' :: sign :: shown := by simp
  unfold unsigned?
  rw [List.takeWhile_append_of_pos hall, List.dropWhile_append_of_pos hall, htake, hdrop,
    List.append_nil, fixed?_pointed h hne, hexp]
  simp only
  rw [mul_assoc, ← power_add 10]
  congr 3
  omega

theorem ofDigitChars_four_bounds {s : List Char} (h : ∀ c ∈ s, c.isDigit)
    (hlen : (s.dropWhile (· = '0')).length = 4) :
    1000 ≤ Nat.ofDigitChars 10 s 0 ∧ Nat.ofDigitChars 10 s 0 < 10000 := by
  have hzeros : s.takeWhile (· = '0') = List.replicate (s.takeWhile (· = '0')).length '0' :=
    List.eq_replicate_of_mem fun c hc => by simpa using List.mem_takeWhile_imp hc
  have hvalue : Nat.ofDigitChars 10 s 0 = Nat.ofDigitChars 10 (s.dropWhile (· = '0')) 0 := by
    conv_lhs => rw [← List.takeWhile_append_dropWhile (p := (· = '0')) (l := s), hzeros]
    rw [Nat.ofDigitChars_append, Nat.ofDigitChars_replicate_zero, mul_zero]
  have hd : ∀ c ∈ s.dropWhile (· = '0'), c.isDigit := fun c hc =>
    h c ((List.dropWhile_suffix _).subset hc)
  rw [hvalue]
  cases he : s.dropWhile (· = '0') with
  | nil => rw [he] at hlen; cases hlen
  | cons c t =>
    have hc : c ≠ '0' := by
      have := List.head_dropWhile_not (· = '0') (l := s) (by rw [he]; exact List.cons_ne_nil _ _)
      simpa [he] using this
    rw [he] at hlen hd
    have ht : t.length = 3 := Nat.succ.inj hlen
    have hlow := le_ofDigitChars (s := t) (hd c List.mem_cons_self) hc
    have hhigh := ofDigitChars_lt hd
    rw [ht] at hlow
    rw [hlen] at hhigh
    exact ⟨hlow, hhigh⟩

theorem length_whole {whole fraction : List Char} (hne : whole ≠ [])
    (hzero : whole.head? = some '0' → whole = ['0'])
    (hlen : ((whole ++ fraction).dropWhile (· = '0')).length = 4) :
    whole.length = if fraction.length ≤ 3 then 4 - fraction.length else 1 := by
  cases whole with
  | nil => exact absurd rfl hne
  | cons c rest =>
    by_cases hc : c = '0'
    · have hrest : rest = [] := by
        have := hzero (by rw [List.head?_cons, hc])
        exact (List.cons.inj this).2
      subst hc hrest
      have hsuffix := (List.dropWhile_suffix (l := fraction) (· = '0')).length_le
      have hdrop : (['0'] ++ fraction).dropWhile (· = '0') = fraction.dropWhile (· = '0') := rfl
      rw [hdrop] at hlen
      rw [List.length_singleton, if_neg (by omega)]
    · have hdrop : ((c :: rest) ++ fraction).dropWhile (· = '0') = (c :: rest) ++ fraction := by
        simp [hc]
      rw [hdrop, List.length_append] at hlen
      rw [List.length_cons] at hlen ⊢
      rw [if_pos (by omega)]
      omega

theorem fixed_unique {s t : List Char} (hs : Fixed s) (ht : Fixed t)
    (h : unsigned? s = unsigned? t) : s = t := by
  obtain ⟨whole, fraction, rfl, hd, hne, hzero, hlen⟩ := hs
  obtain ⟨whole', fraction', rfl, hd', hne', hzero', hlen'⟩ := ht
  rw [unsigned?_pointed hd hne, unsigned?_pointed hd' hne'] at h
  obtain ⟨hvalue, hplace⟩ := significand_unique (ofDigitChars_four_bounds hd hlen)
    (ofDigitChars_four_bounds hd' hlen') (Option.some.inj h)
  have hfraction : fraction.length = fraction'.length := by omega
  have hwhole : whole.length = whole'.length := by
    rw [length_whole hne hzero hlen, length_whole hne' hzero' hlen', hfraction]
  have hrow : whole ++ fraction = whole' ++ fraction' := by
    refine eq_of_ofDigitChars_eq hd hd' ?_ hvalue
    rw [List.length_append, List.length_append, hwhole, hfraction]
  obtain ⟨rfl, rfl⟩ := List.append_inj hrow hwhole
  rfl

theorem pointed_of_length {rest : List Char} {n : ℕ} (h : rest.length = n + 1) {first : Char} :
    first :: '.' :: rest = pointed [first] rest := by
  unfold pointed
  rw [if_neg (List.ne_nil_of_length_eq_add_one h)]
  rfl

theorem scientific_row_bounds {first : Char} {rest : List Char}
    (hd : ∀ c ∈ first :: rest, c.isDigit) (hfirst : first ≠ '0') (hlen : rest.length = 3) :
    1000 ≤ Nat.ofDigitChars 10 (first :: rest) 0 ∧ Nat.ofDigitChars 10 (first :: rest) 0 < 10000 := by
  apply ofDigitChars_four_bounds hd
  rw [List.dropWhile_cons_of_neg (by simpa using hfirst), List.length_cons, hlen]

theorem length_le_of_ofDigitChars_eq {s t : List Char} (hs : ∀ c ∈ s, c.isDigit)
    (ht : ∀ c ∈ t, c.isDigit) (hmin : 2 ≤ s.length) (hzero : t.head? = some '0' → t.length = 2)
    (h : Nat.ofDigitChars 10 s 0 = Nat.ofDigitChars 10 t 0) : t.length ≤ s.length := by
  by_contra hlt
  cases t with
  | nil => exact hlt (Nat.zero_le _)
  | cons c t =>
    rw [List.length_cons] at hlt hzero
    have hc : c ≠ '0' := by
      rintro rfl
      have := hzero rfl
      omega
    have hlow := le_ofDigitChars (s := t) (ht c List.mem_cons_self) hc
    have hhigh := ofDigitChars_lt hs
    have hpow : 10 ^ s.length ≤ 10 ^ t.length := Nat.pow_le_pow_right (by decide) (by omega)
    omega

/-- The exponent of a number that asks for one is not zero, so its sign is determined. -/
theorem scientific_unique {s t : List Char} {x : ℚ} (hs : Scientific s) (ht : Scientific t)
    (hx : ¬(power 10 (-4) ≤ x ∧ x < power 10 4)) (h : unsigned? s = some x)
    (h' : unsigned? t = some x) : s = t := by
  obtain ⟨first, rest, sign, shown, rfl, hd, hfirst, hlen, hsign, he, hmin, hzero⟩ := hs
  obtain ⟨first', rest', sign', shown', rfl, hd', hfirst', hlen', hsign', he', hmin', hzero'⟩ := ht
  have hb := scientific_row_bounds hd hfirst hlen
  have hb' := scientific_row_bounds hd' hfirst' hlen'
  rw [pointed_of_length hlen, unsigned?_exponent hd (List.cons_ne_nil _ _) hsign he
    (List.ne_nil_of_length_pos (by omega)), hlen] at h
  rw [pointed_of_length hlen', unsigned?_exponent hd' (List.cons_ne_nil _ _) hsign' he'
    (List.ne_nil_of_length_pos (by omega)), hlen'] at h'
  obtain ⟨hrow, hexp⟩ := significand_unique hb hb' (Option.some.inj (h.trans h'.symm))
  have hnonzero : signed sign (Nat.ofDigitChars 10 shown 0) ≠ 0 := by
    intro hz
    rw [hz] at h
    have hm : magnitude 10 x = 0 := by
      rw [← Option.some.inj h]
      exact (magnitude_significand hb.1 hb.2 _).trans (by decide)
    have hpos : 0 < x := by
      rw [← Option.some.inj h]
      exact mul_pos (Nat.cast_pos.mpr ((show 0 < 1000 by decide).trans_le hb.1))
        (power_pos 10 _)
    exact hx ⟨(le_magnitude_iff 10 hpos _).mp (by omega),
      (magnitude_lt_iff 10 hpos _).mp (by omega)⟩
  obtain ⟨rfl, hshown⟩ :
      sign = sign' ∧ Nat.ofDigitChars 10 shown 0 = Nat.ofDigitChars 10 shown' 0 := by
    unfold signed at hexp hnonzero
    rcases hsign with rfl | rfl <;> rcases hsign' with rfl | rfl <;> simp at hexp hnonzero ⊢ <;>
      omega
  have hlength := le_antisymm (length_le_of_ofDigitChars_eq he' he hmin' hzero hshown.symm)
    (length_le_of_ofDigitChars_eq he he' hmin hzero' hshown)
  have hrows := eq_of_ofDigitChars_eq hd hd' (by rw [List.length_cons, List.length_cons, hlen, hlen'])
    hrow
  rw [eq_of_ofDigitChars_eq he he' hlength hshown, (List.cons.inj hrows).1, (List.cons.inj hrows).2]

theorem fixed_value {s : List Char} (h : Fixed s) :
    ∃ x, 0 < x ∧ unsigned? s = some x ∧ s.head? ≠ some '-' := by
  obtain ⟨whole, fraction, rfl, hd, hne, _, hlen⟩ := h
  have hb := ofDigitChars_four_bounds hd hlen
  refine ⟨_, ?_, unsigned?_pointed hd hne, ?_⟩
  · exact mul_pos (Nat.cast_pos.mpr (by omega)) (power_pos 10 _)
  · cases whole with
    | nil => exact absurd rfl hne
    | cons c rest =>
      intro h
      have hc := hd c (List.mem_append_left _ List.mem_cons_self)
      exact ne_of_isDigit hc (show '-'.isDigit = false by decide) (Option.some.inj h)

theorem scientific_value {s : List Char} (h : Scientific s) :
    ∃ x, 0 < x ∧ unsigned? s = some x ∧ s.head? ≠ some '-' := by
  obtain ⟨first, rest, sign, shown, rfl, hd, hfirst, hlen, hsign, he, hmin, _⟩ := h
  have hb := scientific_row_bounds hd hfirst hlen
  rw [pointed_of_length hlen]
  have hvalue := unsigned?_exponent (show ∀ c ∈ [first] ++ rest, c.isDigit from hd)
    (List.cons_ne_nil _ _) hsign he (List.ne_nil_of_length_pos (by omega))
  refine ⟨_, ?_, hvalue, ?_⟩
  · exact mul_pos (Nat.cast_pos.mpr ((show 0 < 1000 by decide).trans_le hb.1)) (power_pos 10 _)
  · intro h
    have hc := hd first List.mem_cons_self
    exact ne_of_isDigit hc (show '-'.isDigit = false by decide) (Option.some.inj h)

theorem read?_of_head {s : List Char} (h : s.head? ≠ some '-') : read? s = unsigned? s := by
  cases s with
  | nil => rfl
  | cons c s =>
    have hc : c ≠ '-' := fun e => h (congrArg some e)
    simp [read?, hc]

theorem shows_body {x : ℚ} {s : List Char} (h : Shows x s) :
    ∃ body, s = (if x < 0 then '-' :: body else body) ∧ unsigned? body = some |x| ∧
      if power 10 (-4) ≤ |x| ∧ |x| < power 10 4 then Fixed body else Scientific body := by
  obtain ⟨hread, body, hs, hform⟩ := h
  obtain ⟨y, hy, hvalue, hhead⟩ :
      ∃ y, 0 < y ∧ unsigned? body = some y ∧ body.head? ≠ some '-' := by
    split at hform
    · exact fixed_value hform
    · exact scientific_value hform
  refine ⟨body, ?_, ?_, hform⟩
  · rcases hs with rfl | rfl
    · rw [read?_of_head hhead, hvalue] at hread
      rw [if_neg (by rw [← Option.some.inj hread]; exact not_lt.mpr hy.le)]
    · rw [read?, hvalue, Option.map_some] at hread
      rw [if_pos (by rw [← Option.some.inj hread]; exact neg_lt_zero.mpr hy)]
  · rcases hs with rfl | rfl
    · rw [read?_of_head hhead, hvalue] at hread
      rw [hvalue, ← Option.some.inj hread, abs_of_pos hy]
    · rw [read?, hvalue, Option.map_some] at hread
      rw [hvalue, ← Option.some.inj hread, abs_neg, abs_of_pos hy]

theorem shows_unique {x : ℚ} {s t : List Char} (hs : Shows x s) (ht : Shows x t) : s = t := by
  obtain ⟨body, rfl, hvalue, hform⟩ := shows_body hs
  obtain ⟨body', rfl, hvalue', hform'⟩ := shows_body ht
  have heq : body = body' := by
    split at hform
    · rename_i hx
      rw [if_pos hx] at hform'
      exact fixed_unique hform hform' (hvalue.trans hvalue'.symm)
    · rename_i hx
      rw [if_neg hx] at hform'
      exact scientific_unique hform hform' hx hvalue hvalue'
  rw [heq]

end Chronograph.Text.Decimal
