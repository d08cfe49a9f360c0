import Mathlib
import Chronograph.Stopwatch

set_option autoImplicit false

/-!
# Stopwatches that cannot be told apart

A reset leaves the start of the last segment where it is, and only a running
watch looks there. So two standing watches that differ in nothing else answer
alike and stay alike, as long as the readings of the starts succeed: a start
whose reading fails would leave a watch that runs from where it last began.
-/
namespace Chronograph
variable {σ α : Type}

/-- Both give the same, and leave surroundings that are related. -/
def Paired (S : σ → σ → Prop) (p q : α × σ) : Prop := p.1 = q.1 ∧ S p.2 q.2

/-- Reading the clock in related surroundings gives the same, and leaves related ones. -/
def Clock.Agrees (c : Clock σ) (S : σ → σ → Prop) : Prop :=
  ∀ s t, S s t → Paired S (c.read s) (c.read t)

theorem Clock.agrees_eq (c : Clock σ) : c.Agrees Eq := by
  rintro s _ rfl
  exact ⟨rfl, rfl⟩

namespace Stopwatch

/-- The same watch, where the start of a segment that is not open may be `stale`. -/
structure Like (stale : Prop) (w v : Stopwatch) : Prop where
  state : w.state = v.state
  accumulated : w.accumulated = v.accumulated
  segmentStart : w.state = .running ∨ ¬stale → w.segmentStart = v.segmentStart

theorem like_refl (stale : Prop) (w : Stopwatch) : Like stale w w := ⟨rfl, rfl, fun _ => rfl⟩

theorem eq_of_like {stale : Prop} {w v : Stopwatch} (h : Like stale w v)
    (hw : w.state = .running ∨ ¬stale) : w = v := by
  obtain ⟨state, accumulated, segmentStart⟩ := w
  obtain ⟨rfl, rfl, hstart⟩ := h
  cases hstart hw
  rfl

theorem like_reset {stale : Prop} (h : stale) (w : Stopwatch) : Like stale w.reset {} where
  state := rfl
  accumulated := rfl
  segmentStart hw := absurd h (hw.resolve_left nofun)

section
variable {S : σ → σ → Prop} {c : Clock σ} {stale : Prop} {w v : Stopwatch} {s t : σ}

theorem start_like (hc : c.Agrees S) (h : Like stale w v) (hst : S s t)
    (hread : stale → ∃ now, (c.read s).1 = .ok now) :
    Paired (fun p q => Like stale p.1 q.1 ∧ S p.2 q.2) (w.start c s) (v.start c t) := by
  obtain ⟨hend, hsetting⟩ := hc s t hst
  unfold start
  rw [← h.state]
  cases w.state.moveTo .running with
  | error e => exact ⟨rfl, h, hst⟩
  | ok state =>
    rcases hs : c.read s with ⟨e | now, s'⟩ <;> rcases ht : c.read t with ⟨e' | now', t'⟩ <;>
      rw [hs, ht] at hend hsetting <;> cases hend
    · have hfresh : ¬stale := by
        intro hstale
        obtain ⟨now, hnow⟩ := hread hstale
        rw [hs] at hnow
        cases hnow
      exact ⟨rfl, ⟨rfl, h.accumulated, fun _ => h.segmentStart (Or.inr hfresh)⟩, hsetting⟩
    · exact ⟨rfl, ⟨rfl, h.accumulated, fun _ => rfl⟩, hsetting⟩

/-- A stop looks at the start of the segment, but only a running watch can stop. -/
theorem stop_like (hc : c.Agrees S) (h : Like stale w v) (hst : S s t) :
    Paired (fun p q => Like stale p.1 q.1 ∧ S p.2 q.2) (w.stop c s) (v.stop c t) := by
  cases hw : w.state with
  | stopped =>
    rw [stop_stopped c w s hw, stop_stopped c v t (h.state ▸ hw)]
    exact ⟨rfl, h, hst⟩
  | running =>
    obtain rfl := eq_of_like h (Or.inl hw)
    obtain ⟨hend, hsetting⟩ := hc s t hst
    unfold stop State.moveTo
    rw [hw, if_neg State.noConfusion]
    rcases hs : c.read s with ⟨e | now, s'⟩ <;> rcases ht : c.read t with ⟨e' | now', t'⟩ <;>
      rw [hs, ht] at hend hsetting <;> cases hend <;> exact ⟨rfl, like_refl _ _, hsetting⟩

theorem elapsed_like (hc : c.Agrees S) (h : Like stale w v) (hst : S s t) :
    Paired S (w.elapsed c s) (v.elapsed c t) := by
  cases hw : w.state with
  | stopped =>
    rw [elapsed_stopped c w s hw, elapsed_stopped c v t (h.state ▸ hw), h.accumulated]
    exact ⟨rfl, hst⟩
  | running =>
    obtain rfl := eq_of_like h (Or.inl hw)
    obtain ⟨hend, hsetting⟩ := hc s t hst
    unfold elapsed
    rw [hw]
    rcases hs : c.read s with ⟨e | now, s'⟩ <;> rcases ht : c.read t with ⟨e' | now', t'⟩ <;>
      rw [hs, ht] at hend hsetting <;> cases hend <;> exact ⟨rfl, hsetting⟩

theorem query_like (hc : c.Agrees S) (h : Like stale w v) (hst : S s t) (q : Query) :
    Paired S (w.query c q s) (v.query c q t) := by
  obtain ⟨hend, hsetting⟩ := elapsed_like hc h hst
  unfold query
  rcases hs : w.elapsed c s with ⟨e | n, s'⟩ <;> rcases ht : v.elapsed c t with ⟨e' | n', t'⟩ <;>
    rw [hs, ht] at hend hsetting <;> cases hend
  · exact ⟨rfl, hsetting⟩
  · exact ⟨congrArg (q.report · n) h.state, hsetting⟩

theorem command_like (hc : c.Agrees S) (h : Like stale w v) (hst : S s t)
    (hread : stale → ∃ now, (c.read s).1 = .ok now) (q : Command) :
    Paired (fun p q => Like stale p.1 q.1 ∧ S p.2 q.2) (w.command c s q) (v.command c t q) := by
  unfold command
  cases q with
  | start =>
    obtain ⟨hend, hleft⟩ := start_like hc h hst hread
    rcases hs : w.start c s with ⟨e | _, w', s'⟩ <;> rcases ht : v.start c t with ⟨e' | _, v', t'⟩ <;>
      rw [hs, ht] at hend hleft <;> cases hend <;> exact ⟨rfl, hleft⟩
  | stop =>
    obtain ⟨hend, hleft⟩ := stop_like hc h hst
    rcases hs : w.stop c s with ⟨e | _, w', s'⟩ <;> rcases ht : v.stop c t with ⟨e' | _, v', t'⟩ <;>
      rw [hs, ht] at hend hleft <;> cases hend <;> exact ⟨rfl, hleft⟩
  | reset => exact ⟨rfl, ⟨rfl, rfl, fun hw => h.segmentStart (hw.imp_left nofun)⟩, hst⟩
  | state => exact ⟨congrArg (fun state => (.ok (.state state) : Except Fault Report)) h.state, h, hst⟩
  | query q =>
    obtain ⟨hend, hsetting⟩ := query_like hc h hst q
    exact ⟨hend, h, hsetting⟩

end
end Stopwatch
end Chronograph
