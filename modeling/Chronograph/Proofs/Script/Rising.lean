import Mathlib
import Chronograph.Proofs.Script.Bench

set_option autoImplicit false

/-!
# Clocks that do not fall

A clock rises if from here on its readings neither fail nor fall, as those of a clock
that moves by hand never do. Whatever is done on a bench, a clock on it goes on to rise,
and shows at least what it showed before. By how much it moved is added up over what is
done one after the other.
-/
namespace Chronograph

/-- From here on the readings neither fail nor fall. -/
def Timepiece.Rises : Timepiece → Prop
  | manual _ => True
  | tape t => ∀ k, t.taken ≤ k → ∃ now later, t.reading k = .ok now ∧ t.reading (k + 1) = .ok later ∧
      now ≤ later

structure Timepiece.Onward (t u : Timepiece) : Prop where
  rises : u.Rises
  le : ∀ now later, t.read.1 = .ok now → u.read.1 = .ok later → now ≤ later

namespace Timepiece
variable {t : Timepiece}

theorem exists_read (h : t.Rises) : ∃ now, t.read.1 = .ok now := by
  cases t with
  | manual c => exact ⟨c.now, rfl⟩
  | tape t =>
    obtain ⟨now, _, hnow, _⟩ := h t.taken le_rfl
    exact ⟨now, hnow⟩

theorem onward_refl (h : t.Rises) : t.Onward t :=
  ⟨h, fun _ _ hnow hlater => (Except.ok.inj (hnow.symm.trans hlater)).le⟩

theorem onward_read (h : t.Rises) : t.Onward t.read.2 := by
  cases t with
  | manual c =>
    refine ⟨trivial, fun now later hnow hlater => ?_⟩
    cases hnow
    cases hlater
    exact c.le_read
  | tape t =>
    refine ⟨fun k hk => h k (Nat.le_of_succ_le hk), fun now later hnow hlater => ?_⟩
    obtain ⟨m, n, hm, hn, hle⟩ := h t.taken le_rfl
    cases hm.symm.trans hnow
    cases hn.symm.trans hlater
    exact hle

theorem onward_adjust (h : t.Rises) {change : ManualClock → Except Fault ManualClock}
    (hchange : ∀ c d, change c = .ok d → c.now ≤ d.now) : t.Onward (t.adjust change).2 := by
  cases t with
  | manual c =>
    unfold adjust
    dsimp only
    cases hd : change c with
    | ok d =>
      refine ⟨trivial, fun now later hnow hlater => ?_⟩
      cases hnow
      cases hlater
      exact hchange c d hd
    | error e => exact onward_refl h
  | tape t => exact onward_refl h

theorem onward_command (h : t.Rises) (c : Command) : t.Onward (t.command c).2 := by
  unfold command
  cases c with
  | read =>
    have hread := onward_read h
    rcases hr : t.read with ⟨_ | _, u⟩ <;> rw [hr] at hread <;> exact hread
  | advance n => exact onward_adjust h fun _ _ => ManualClock.le_of_advance
  | advanceBy days seconds microseconds =>
    dsimp only
    cases Duration.ofParts? days seconds microseconds with
    | some d => exact onward_adjust h fun _ _ => ManualClock.le_of_advance
    | none => exact onward_refl h
  | step => cases t <;> exact onward_refl h
  | setStep n =>
    refine onward_adjust h fun c d hd => ?_
    unfold ManualClock.setStep at hd
    split at hd <;> cases hd
    exact le_rfl

end Timepiece

namespace Script.Bench
variable {a b c : Bench} {id : ClockId} {d e : ℤ}

structure Rises (id : ClockId) (b : Bench) : Prop where
  gave : b.Gave id
  clock : ∃ t, b.clocks.get? id = some t ∧ t.Rises

/-- The clock goes on rising, and has moved by at least `d`. -/
def Passes (id : ClockId) (d : ℤ) (a b : Bench) : Prop := a.Rises id → b.Rises id ∧
  ∀ now later, ((clock id).read a).1 = .ok now → ((clock id).read b).1 = .ok later → now + d ≤ later

theorem exists_reading (h : a.Rises id) : ∃ now, ((clock id).read a).1 = .ok now := by
  obtain ⟨t, ht, hrises⟩ := h.clock
  obtain ⟨now, hnow⟩ := Timepiece.exists_read hrises
  exact ⟨now, (read_eq_of_get? ht).trans hnow⟩

theorem passes_of_clock (hgave : a.Gave id → b.Gave id)
    (hclock : ∀ t, a.clocks.get? id = some t → t.Rises → ∃ u, b.clocks.get? id = some u ∧ t.Onward u) :
    Passes id 0 a b := by
  rintro ⟨ha, t, ht, hrises⟩
  obtain ⟨u, hu, honward⟩ := hclock t ht hrises
  refine ⟨⟨hgave ha, u, hu, honward.rises⟩, ?_⟩
  intro now later hnow hlater
  rw [read_eq_of_get? ht] at hnow
  rw [read_eq_of_get? hu] at hlater
  have := honward.le now later hnow hlater
  omega

theorem passes_refl (a : Bench) : Passes id 0 a a :=
  passes_of_clock (fun h => h) fun t ht hrises => ⟨t, ht, Timepiece.onward_refl hrises⟩

theorem passes_trans (hab : Passes id d a b) (hbc : Passes id e b c) : Passes id (d + e) a c := by
  intro ha
  obtain ⟨hb, hd⟩ := hab ha
  obtain ⟨hc, he⟩ := hbc hb
  refine ⟨hc, fun now later hnow hlater => ?_⟩
  obtain ⟨between, hbetween⟩ := exists_reading hb
  have := hd now between hnow hbetween
  have := he between later hbetween hlater
  omega

theorem exists_onward_onClock {α : Type} (k : ClockId) {f : Timepiece → Except Fault α × Timepiece}
    (hf : ∀ t : Timepiece, t.Rises → t.Onward (f t).2) (t : Timepiece) (ht : a.clocks.get? id = some t)
    (hrises : t.Rises) : ∃ u, (a.onClock k f).2.clocks.get? id = some u ∧ t.Onward u := by
  rw [get?_onClock, ht]
  refine ⟨_, rfl, ?_⟩
  dsimp only
  split
  · exact hf t hrises
  · exact Timepiece.onward_refl hrises

theorem passes_onClock {α : Type} (a : Bench) (k : ClockId) {f : Timepiece → Except Fault α × Timepiece}
    (hf : ∀ t : Timepiece, t.Rises → t.Onward (f t).2) : Passes id 0 a (a.onClock k f).2 :=
  passes_of_clock (gave_of_versions (onClock_clockVersions a k f)) (exists_onward_onClock k hf)

theorem passes_readFrom (h : ReadFrom a b) : Passes id 0 a b := by
  obtain ⟨hversions, hclocks⟩ := h
  refine passes_of_clock (gave_of_versions hversions) fun t ht hrises => ?_
  rcases hclocks with hclocks | ⟨k, hclocks⟩ <;> rw [hclocks]
  · exact ⟨t, ht, Timepiece.onward_refl hrises⟩
  · exact exists_onward_onClock k (fun _ => Timepiece.onward_read) t ht hrises

theorem passes_addClock (a : Bench) (name : String) (t : Timepiece) :
    Passes id 0 a (a.addClock name t) := by
  intro h
  refine passes_of_clock (fun hgave => (gave_addClock_iff a name t id).mpr (Or.inr hgave)) ?_ h
  intro u hu hrises
  rw [get?_addClock, if_neg]
  · exact ⟨u, hu, Timepiece.onward_refl hrises⟩
  · rintro rfl
    exact not_gave_next a name h.gave

theorem passes_perform (a : Bench) (op : Operation) : Passes id 0 a (a.perform op).2 := by
  by_cases hop : op.watch? = none
  · cases op with
    | makeClock name start step =>
      unfold perform
      dsimp only
      cases ManualClock.make start step with
      | ok c => exact passes_addClock a name _
      | error e => exact passes_refl a
    | makeTape name t => exact passes_addClock a name _
    | clock name c =>
      rcases perform_clock a name c with he | ⟨k, he⟩ <;> rw [he]
      · exact passes_refl a
      · exact passes_onClock a k fun t ht => Timepiece.onward_command ht c
    | makeWatch _ _ _ | watch _ _ | elapsedIn _ _ | clockOf _ => cases hop
  · exact passes_readFrom (readFrom_perform a hop)

end Script.Bench
end Chronograph
