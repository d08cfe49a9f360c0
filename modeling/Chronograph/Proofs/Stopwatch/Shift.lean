import Mathlib
import Chronograph.Proofs.Stopwatch.Alike

set_option autoImplicit false

/-!
# Stopwatches on a clock that is shifted

A running watch keeps the reading at which its segment began, and uses it only in
a difference. So the same commands on a clock whose readings are all moved by one
amount are answered the same. What a watch keeps while it stands need not be moved:
a new one begins at zero on every clock.
-/
namespace Chronograph
variable {σ : Type}

/-- Reading the clock succeeds in related surroundings, with the second reading by
    `d` more than the first, and leaves related ones. -/
def Clock.Shifts (c : Clock σ) (d : ℤ) (S : σ → σ → Prop) : Prop := ∀ s t, S s t →
  ∃ now s' t', c.read s = (.ok now, s') ∧ c.read t = (.ok (now + d), t') ∧ S s' t'

namespace Stopwatch

/-- The same watch, except that an open segment began at a reading that is `d` more. -/
structure Shifted (d : ℤ) (w v : Stopwatch) : Prop where
  state : w.state = v.state
  accumulated : w.accumulated = v.accumulated
  segmentStart : w.state = .running → v.segmentStart = w.segmentStart + d

variable {S : σ → σ → Prop} {c : Clock σ} {d : ℤ} {w v : Stopwatch} {s t : σ}

theorem shifted_new (d : ℤ) : Shifted d {} {} := ⟨rfl, rfl, nofun⟩

theorem start_shifted (hc : c.Shifts d S) (h : Shifted d w v) (hst : S s t) :
    Paired (fun p q => Shifted d p.1 q.1 ∧ S p.2 q.2) (w.start c s) (v.start c t) := by
  obtain ⟨now, s', t', hs, ht, hsetting⟩ := hc s t hst
  unfold start
  rw [← h.state]
  cases w.state.moveTo .running with
  | error e => exact ⟨rfl, h, hst⟩
  | ok state =>
    simp only [hs, ht]
    exact ⟨rfl, ⟨rfl, h.accumulated, fun _ => rfl⟩, hsetting⟩

theorem stop_shifted (hc : c.Shifts d S) (h : Shifted d w v) (hst : S s t) :
    Paired (fun p q => Shifted d p.1 q.1 ∧ S p.2 q.2) (w.stop c s) (v.stop c t) := by
  cases hw : w.state with
  | stopped =>
    rw [stop_stopped c w s hw, stop_stopped c v t (h.state ▸ hw)]
    exact ⟨rfl, h, hst⟩
  | running =>
    obtain ⟨now, s', t', hs, ht, hsetting⟩ := hc s t hst
    have hstart := h.segmentStart hw
    unfold stop State.moveTo
    rw [← h.state, hw, if_neg State.noConfusion]
    simp only [hs, ht]
    refine ⟨rfl, ⟨rfl, ?_, nofun⟩, hsetting⟩
    rw [h.accumulated, hstart, add_sub_add_right_eq_sub]

theorem elapsed_shifted (hc : c.Shifts d S) (h : Shifted d w v) (hst : S s t) :
    Paired S (w.elapsed c s) (v.elapsed c t) := by
  cases hw : w.state with
  | stopped =>
    rw [elapsed_stopped c w s hw, elapsed_stopped c v t (h.state ▸ hw), h.accumulated]
    exact ⟨rfl, hst⟩
  | running =>
    obtain ⟨now, s', t', hs, ht, hsetting⟩ := hc s t hst
    have hstart := h.segmentStart hw
    unfold elapsed
    rw [← h.state, hw]
    simp only [hs, ht]
    refine ⟨?_, hsetting⟩
    rw [h.accumulated, hstart, add_sub_add_right_eq_sub]

theorem query_shifted (hc : c.Shifts d S) (h : Shifted d w v) (hst : S s t) (q : Query) :
    Paired S (w.query c q s) (v.query c q t) := by
  obtain ⟨hend, hsetting⟩ := elapsed_shifted hc h hst
  unfold query
  rcases hs : w.elapsed c s with ⟨_ | n, s'⟩ <;> rcases ht : v.elapsed c t with ⟨_ | m, t'⟩ <;>
    rw [hs, ht] at hend hsetting <;> cases hend
  · exact ⟨rfl, hsetting⟩
  · exact ⟨congrArg (q.report · n) h.state, hsetting⟩

theorem command_shifted (hc : c.Shifts d S) (h : Shifted d w v) (hst : S s t) (q : Command) :
    Paired (fun p q => Shifted d p.1 q.1 ∧ S p.2 q.2) (w.command c s q) (v.command c t q) := by
  unfold command
  cases q with
  | start =>
    obtain ⟨hend, hleft⟩ := start_shifted hc h hst
    rcases hs : w.start c s with ⟨_ | _, w', s'⟩ <;> rcases ht : v.start c t with ⟨_ | _, v', t'⟩ <;>
      rw [hs, ht] at hend hleft <;> cases hend <;> exact ⟨rfl, hleft⟩
  | stop =>
    obtain ⟨hend, hleft⟩ := stop_shifted hc h hst
    rcases hs : w.stop c s with ⟨_ | _, w', s'⟩ <;> rcases ht : v.stop c t with ⟨_ | _, v', t'⟩ <;>
      rw [hs, ht] at hend hleft <;> cases hend <;> exact ⟨rfl, hleft⟩
  | reset => exact ⟨rfl, ⟨rfl, rfl, nofun⟩, hst⟩
  | state => exact ⟨congrArg (fun state => (.ok (.state state) : Except Fault Report)) h.state, h, hst⟩
  | query q =>
    obtain ⟨hend, hsetting⟩ := query_shifted hc h hst q
    exact ⟨hend, h, hsetting⟩

end Stopwatch
end Chronograph
