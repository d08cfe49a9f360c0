import Mathlib
import Chronograph.Proofs.Figure.Written

set_option autoImplicit false

/-!
# The order of figures

A text denotes a number, or one of the infinities. Of two doubles the larger one
has no text that denotes less: the shortest decimals, their four digits, the
doubles nearest to these and the digits of those all keep the order. A double and
its opposite differ in the sign of their texts only.
-/
namespace Chronograph.Figure
open Rounding Text.Decimal

/-- What a text denotes, the infinities included. -/
def denoted? (s : String) : Option (WithBot (WithTop ℚ)) :=
  if s = "inf" then some ⊤ else if s = "-inf" then some ⊥
  else (read? s.toList).map fun x => ((x : WithTop ℚ) : WithBot (WithTop ℚ))

theorem denoted?_of_read? {s : String} {x : ℚ} (h : read? s.toList = some x) :
    denoted? s = some ((x : WithTop ℚ) : WithBot (WithTop ℚ)) := by
  have hinf : s ≠ "inf" := by
    rintro rfl
    rw [show read? "inf".toList = none by decide] at h
    cases h
  have hneg : s ≠ "-inf" := by
    rintro rfl
    rw [show read? "-inf".toList = none by decide] at h
    cases h
  rw [denoted?, if_neg hinf, if_neg hneg, h]
  rfl

def denoted (negative : Bool) : Option Magnitude → WithBot (WithTop ℚ)
  | some k => ((if negative then -size k else size k : ℚ) : WithTop ℚ)
  | none => if negative then ⊥ else ⊤

theorem denoted?_ofWritten (negative : Bool) (k : Option Magnitude) :
    denoted? (ofWritten negative k).text = some (denoted negative k) := by
  cases k with
  | none => cases negative <;> rfl
  | some k =>
    obtain ⟨d, e, hd, hsize, hform⟩ := exists_ofMagnitude k
    apply denoted?_of_read?
    change read? (ofMagnitude negative k).text.toList = _
    rw [text, String.toList_ofList, hform, read?_chars hd, ← hsize]
    rfl

theorem written?_mono {m k : Magnitude} (h : m.rank ≤ k.rank) {b : Magnitude} (hb : written? k = some b) :
    ∃ a, written? m = some a ∧ a.rank ≤ b.rank := by
  by_cases hm : m.rank = 0
  · exact ⟨m, if_pos hm, by omega⟩
  · have hk : k.rank ≠ 0 := by omega
    have hmono := Magnitude.nearestRank_mono (fourDigits_mono (Magnitude.shortest_pos hm)
      (Magnitude.shortest_mono hm hk h))
    rw [(written?_eq_some_iff hk).mp hb] at hmono
    exact ⟨⟨_, hmono.trans_lt b.rank_lt⟩, (written?_eq_some_iff hm).mpr rfl, hmono⟩

section
variable {m k : Magnitude} (h : m.rank ≤ k.rank)
include h

theorem denoted_false_mono :
    denoted false (written? m) ≤ denoted false (written? k) := by
  cases hb : written? k with
  | none => exact le_top
  | some b =>
    obtain ⟨a, ha, hle⟩ := written?_mono h hb
    rw [ha]
    exact WithBot.coe_le_coe.mpr (WithTop.coe_le_coe.mpr (size_mono hle))

theorem denoted_true_anti :
    denoted true (written? k) ≤ denoted true (written? m) := by
  cases hb : written? k with
  | none => exact bot_le
  | some b =>
    obtain ⟨a, ha, hle⟩ := written?_mono h hb
    rw [ha]
    exact WithBot.coe_le_coe.mpr (WithTop.coe_le_coe.mpr (neg_le_neg (size_mono hle)))

end

theorem denoted_of_rank_eq_zero {m : Magnitude} (hm : m.rank = 0) (negative : Bool) :
    denoted negative (written? m) = 0 := by
  rw [written?, if_pos hm, denoted, size_of_rank_eq_zero hm, neg_zero, ite_self]
  rfl

theorem denoted_true_le_false (m k : Magnitude) :
    denoted true (written? m) ≤ denoted false (written? k) := by
  have hzero : Magnitude.zero.rank = 0 := rfl
  have hneg := denoted_true_anti (m := .zero) (Nat.zero_le m.rank)
  have hpos := denoted_false_mono (m := .zero) (Nat.zero_le k.rank)
  rw [denoted_of_rank_eq_zero hzero] at hneg hpos
  exact hneg.trans hpos

theorem denoted_le {negative negative' : Bool} {m k : Magnitude}
    (h : (if negative then -m.value else m.value) ≤ if negative' then -k.value else k.value) :
    denoted negative (written? m) ≤ denoted negative' (written? k) := by
  have hvalue := fun r s => Magnitude.valueAt_strictMono.le_iff_le (a := r) (b := s)
  cases negative <;> cases negative'
  · exact denoted_false_mono ((hvalue _ _).mp h)
  · -- The larger one is not positive and the smaller one not negative: both are zero.
    have hnonneg : ∀ m : Magnitude, 0 ≤ m.value := fun m => by
      rw [← Magnitude.valueAt_zero]
      exact (hvalue _ _).mpr (Nat.zero_le _)
    have hrank : ∀ m : Magnitude, m.value ≤ 0 → m.rank = 0 := fun m hm => by
      rw [← Magnitude.valueAt_zero] at hm
      exact Nat.le_zero.mp ((hvalue _ _).mp hm)
    change m.value ≤ -k.value at h
    have hm := hrank m (by linarith [hnonneg k])
    have hk := hrank k (by linarith [hnonneg m])
    rw [denoted_of_rank_eq_zero hm, denoted_of_rank_eq_zero hk]
  · exact denoted_true_le_false m k
  · exact denoted_true_anti ((hvalue _ _).mp (neg_le_neg_iff.mp h))

theorem exists_finite_of_value? {v : Binary64} {x : ℚ} (h : v.value? = some x) :
    ∃ negative m, v = .finite negative m ∧ x = if negative then -m.value else m.value := by
  cases v with
  | undefined => cases h
  | infinite _ => cases h
  | finite negative m => cases negative <;> exact ⟨_, m, rfl, (Option.some.inj h).symm⟩

theorem text_opposite (k : Option Magnitude) : (ofWritten true k).text = "-" ++ (ofWritten false k).text := by
  have hchars : (ofWritten true k).chars = '-' :: (ofWritten false k).chars := by
    cases k with
    | none => rfl
    | some k =>
      obtain ⟨d, e, _, _, hform⟩ := exists_ofMagnitude k
      change (ofMagnitude true k).chars = '-' :: (ofMagnitude false k).chars
      rw [hform, hform]
      rfl
  rw [text, text, hchars, ← String.toList_inj, String.toList_append]
  simp only [String.toList_ofList]
  rfl

/-- Every finite double has a text that denotes a number or an infinity, and the text of a
    larger one never denotes less. The text of a double with a negative sign is that of
    its opposite after a `-`. -/
theorem denoted?_text_mono :
    (∀ (v w : Binary64) (x y : ℚ), v.value? = some x → w.value? = some y → x ≤ y →
      ∃ f g a b, ofBinary64? v = some f ∧ ofBinary64? w = some g ∧
        denoted? f.text = some a ∧ denoted? g.text = some b ∧ a ≤ b) ∧
    ∀ m : Magnitude, ∃ f g, ofBinary64? (.finite false m) = some f ∧
      ofBinary64? (.finite true m) = some g ∧ g.text = "-" ++ f.text := by
  constructor
  · intro v w x y hv hw h
    obtain ⟨negative, m, rfl, rfl⟩ := exists_finite_of_value? hv
    obtain ⟨negative', k, rfl, rfl⟩ := exists_finite_of_value? hw
    exact ⟨_, _, _, _, ofBinary64?_eq_ofWritten negative m, ofBinary64?_eq_ofWritten negative' k,
      denoted?_ofWritten _ _, denoted?_ofWritten _ _, denoted_le h⟩
  · intro m
    exact ⟨_, _, ofBinary64?_eq_ofWritten false m, ofBinary64?_eq_ofWritten true m, text_opposite _⟩

def nearTenThousandth : Magnitude := ⟨4547006753084062314, by decide⟩

def largest : Magnitude := ⟨overflowRank - 1, by decide⟩

theorem written?_largest : written? largest = none := by
  have hmiddle : Magnitude.nearestRank (17975 * power 10 304) ≤ largest.rank :=
    Nat.le_sub_one_of_lt nearestRank_middle_lt_overflowRank
  have htop := (top_le_fourDigits_shortest_iff (m := largest) (by decide)).mpr hmiddle
  rw [written?, if_neg (by decide), Magnitude.nearest?_eq_none_iff]
  exact overflowBound_between.2.trans htop

theorem denoted?_text_mono_ends :
    Binary64.value? (.finite false nearTenThousandth) = some nearTenThousandth.value ∧
      Binary64.value? (.finite false largest) = some largest.value ∧
      nearTenThousandth.value ≤ largest.value ∧
      (number false 1000 (-4)).text = "0.0001000" ∧ (infinite false).text = "inf" ∧
      ∃ a b, denoted? "0.0001000" = some a ∧ denoted? "inf" = some b ∧ a ≤ b := by
  have hsmall : ofBinary64? (.finite false nearTenThousandth) = some (number false 1000 (-4)) := by
    decide +kernel
  have hlarge : ofBinary64? (.finite false largest) = some (infinite false) := by
    rw [ofBinary64?_eq_ofWritten, written?_largest]
    rfl
  have hle : nearTenThousandth.value ≤ largest.value :=
    Magnitude.valueAt_strictMono.le_iff_le.mpr (by decide)
  obtain ⟨f, g, a, b, hf, hg, ha, hb, hab⟩ := denoted?_text_mono.1 (.finite false nearTenThousandth)
    (.finite false largest) _ _ rfl rfl hle
  rw [hsmall, Option.some.injEq] at hf
  rw [hlarge, Option.some.injEq] at hg
  subst hf hg
  exact ⟨rfl, rfl, hle, rfl, rfl, a, b, ha, hb, hab⟩

end Chronograph.Figure
