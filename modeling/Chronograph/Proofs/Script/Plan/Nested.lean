import Mathlib
import Chronograph.Proofs.Script.Plan
import Chronograph.Proofs.Script.Rising

set_option autoImplicit false

/-!
# Measurements inside measurements

On a clock whose readings neither fail nor fall a measurement takes at least as
long as all those directly inside it together, whatever else is done to the
clock meanwhile, and whichever way any of them ends.
-/
namespace Chronograph.Script
open Measurement
variable {M V : Type} {id k : ClockId}

def sumOn (id : ClockId) (times : List (ClockId × ℤ)) : ℤ :=
  ((times.filter fun p => p.1 = id).map Prod.snd).sum

theorem sumOn_append (times later : List (ClockId × ℤ)) :
    sumOn id (times ++ later) = sumOn id times + sumOn id later := by
  simp [sumOn]

theorem sumOn_single (k : ClockId) (n : ℤ) : sumOn id [(k, n)] = if k = id then n else 0 := by
  unfold sumOn
  split <;> simp [*]

def Span.Holds (id : ClockId) (s : Span) : Prop :=
  s.clock = id → 0 ≤ s.nanos ∧ sumOn id s.inside ≤ s.nanos

/-- The clock moves by at least what was measured on it, and the measurements hold
    what is inside them. -/
structure Chronicle.Fits (id : ClockId) (c : Chronicle V) (a b : Bench) : Prop where
  passes : Bench.Passes id (sumOn id c.direct) a b
  nonneg : a.Rises id → 0 ≤ sumOn id c.direct
  spans : a.Rises id → ∀ s ∈ c.spans, s.Holds id

namespace Chronicle
variable {a b x y : Bench} {c : Chronicle V}

theorem fits_told (events : List (Event V)) (calls : List (Label × Bench)) (h : Bench.Passes id 0 a b) :
    Fits id { heard := events, calls } a b :=
  ⟨h, fun _ => le_rfl, fun _ _ hs => absurd hs List.not_mem_nil⟩

theorem fits_append {later : Chronicle V} (hc : c.Fits id a b) (hlater : later.Fits id b x) :
    (c ++ later).Fits id a x := by
  have hsum : sumOn id (c ++ later).direct = sumOn id c.direct + sumOn id later.direct :=
    sumOn_append _ _
  refine ⟨?_, ?_, ?_⟩
  · rw [hsum]
    exact Bench.passes_trans hc.passes hlater.passes
  · intro ha
    rw [hsum]
    exact add_nonneg (hc.nonneg ha) (hlater.nonneg (hc.passes ha).1)
  · intro ha s hs
    rcases List.mem_append.mp hs with hs | hs
    · exact hc.spans ha s hs
    · exact hlater.spans (hc.passes ha).1 s hs

theorem fits_onward (hab : Bench.Passes id 0 a b) (hc : c.Fits id b x) (hxy : Bench.Passes id 0 x y) :
    c.Fits id a y := by
  refine ⟨?_, fun ha => hc.nonneg (hab ha).1, fun ha => hc.spans (hab ha).1⟩
  have hpasses := Bench.passes_trans hab (Bench.passes_trans hc.passes hxy)
  rwa [add_zero, zero_add] at hpasses

/-- What was measured between two readings of its clock, from the first to the last,
    is at least what was measured on it in between. -/
theorem fits_closed {n : ℤ} (hab : Bench.Passes id 0 a b) (hc : c.Fits id b x)
    (hxy : Bench.Passes id 0 x y) {first : ℤ} (hfirst : ((Bench.clock k).read a).1 = .ok first)
    (hn : ∀ last, ((Bench.clock k).read x).1 = .ok last → n = last - first) :
    (c.closed k (some n)).Fits id a y := by
  have honward := fits_onward hab hc hxy
  have hinside : a.Rises id → k = id → 0 ≤ n ∧ sumOn id c.direct ≤ n := by
    rintro ha rfl
    obtain ⟨hb, hle⟩ := hab ha
    obtain ⟨hx, hsum⟩ := hc.passes hb
    obtain ⟨now, hnow⟩ := Bench.exists_reading hb
    obtain ⟨last, hlast⟩ := Bench.exists_reading hx
    have := hle first now hfirst hnow
    have := hsum now last hnow hlast
    have := hc.nonneg hb
    have := hn last hlast
    omega
  refine ⟨?_, ?_, ?_⟩
  · intro ha
    refine ⟨(honward.passes ha).1, fun now later hnow hlater => ?_⟩
    change now + sumOn id [(k, n)] ≤ later
    rw [sumOn_single]
    split
    · rename_i he
      subst he
      obtain ⟨hb, _⟩ := hab ha
      obtain ⟨hx, _⟩ := hc.passes hb
      obtain ⟨last, hlast⟩ := Bench.exists_reading hx
      cases hfirst.symm.trans hnow
      have := (hxy hx).2 last later hlast hlater
      have := hn last hlast
      omega
    · have := honward.nonneg ha
      have := (honward.passes ha).2 now later hnow hlater
      omega
  · intro ha
    change 0 ≤ sumOn id [(k, n)]
    rw [sumOn_single]
    split
    · exact (hinside ha ‹_›).1
    · exact le_rfl
  · intro ha s hs
    rcases List.mem_append.mp hs with hs | hs
    · exact honward.spans ha s hs
    · rw [List.mem_singleton.mp hs]
      exact hinside ha

end Chronicle

namespace Bench

instance : IsPreorder Bench (Passes id 0) where
  refl := passes_refl
  trans _ _ _ hab hbc := by
    have h := passes_trans hab hbc
    rwa [add_zero] at h

theorem rises_addClock (b : Bench) (name : String) {t : Timepiece} (h : t.Rises) :
    (b.addClock name t).Rises (.named name (nextVersion b.clockVersions name)) :=
  ⟨(gave_addClock_iff b name t _).mpr (Or.inl rfl), t, by rw [get?_addClock, if_pos rfl], h⟩

theorem passes_read (k : ClockId) (b : Bench) : Passes id 0 b ((clock k).read b).2 :=
  passes_onClock b k fun _ => Timepiece.onward_read

end Bench

namespace Scene
variable {s : Scene M V}

def Fits (id : ClockId) (s : Scene M V) : Prop :=
  ∀ w, (s.chronicle w).Fits id w.setting.bench (s.routine.run w).2.setting.bench

theorem fits_closed (hs : s.Fits id) {w : World (Stage M)} {e : Bench} {time : Option ℤ}
    (hread : ∀ first, ((Stage.clock k).read w.setting).1 = .ok first →
      Bench.Passes id 0 (s.routine.run ((Stage.clock k).after w)).2.setting.bench e ∧
        ∀ n last, time = some n →
          ((Stage.clock k).read (s.routine.run ((Stage.clock k).after w)).2.setting).1 = .ok last →
            n = last - first)
    (hunread : ∀ f, ((Stage.clock k).read w.setting).1 = .error f →
      time = none ∧ e = ((Stage.clock k).after w).setting.bench) :
    ((s.started k w).closed k time).Fits id w.setting.bench e := by
  have hpasses : Bench.Passes id 0 w.setting.bench ((Stage.clock k).after w).setting.bench :=
    Bench.passes_read k w.setting.bench
  unfold started Chronicle.after
  cases hr : ((Stage.clock k).read w.setting).1 with
  | error f =>
    obtain ⟨rfl, rfl⟩ := hunread f hr
    rw [started_failed hr]
    exact Chronicle.fits_told [] [] hpasses
  | ok first =>
    obtain ⟨hleft, htime⟩ := hread first hr
    rw [started_eq hr]
    have hrun := hs ((Stage.clock k).after w)
    cases time with
    | none => exact Chronicle.fits_onward hpasses hrun hleft
    | some n => exact Chronicle.fits_closed hpasses hrun hleft hr fun last => htime n last rfl

theorem fits_measured (hs : s.Fits id) (m : Method) (w : World (Stage M)) :
    (s.measured m k w).Fits id w.setting.bench
      (m.measure s.routine (Stage.clock k) w).2.setting.bench := by
  refine fits_closed hs (fun first hfirst =>
    ⟨measure_left (Stage.on_read (Bench.passes_read k)) m hfirst, ?_⟩) fun f hf => ?_
  · intro n last hn hlast
    rcases hm : m.measure s.routine (Stage.clock k) w with ⟨e | reported, u⟩ <;> rw [hm] at hn <;>
      cases hn
    exact nanos_of_measure hm hfirst hlast
  · rw [measure_unread m s.routine hf]
    exact ⟨rfl, rfl⟩

theorem fits_logged (hs : s.Fits id) (layer : Layer) : (s.logged layer).Fits id := by
  intro w
  have hread := Stage.on_read (M := M) (P := Bench.Passes id 0) (Bench.passes_read layer.clock)
  unfold logged addLayer
  dsimp only
  split
  · refine fits_closed hs (fun first hfirst => ⟨logged_left hread layer.entry hfirst, ?_⟩) fun f hf => ?_
    · intro n last hn hlast
      rcases hm : Method.captured.measure s.routine (Stage.clock layer.clock) w with
        ⟨e | reported, u⟩ <;> rw [hm] at hn <;> cases hn
      exact nanos_of_measure hm hfirst hlast
    · rw [measure_unread .captured s.routine hf, logged_unread s.routine layer.entry hf]
      exact ⟨rfl, rfl⟩
  · change ((s.started layer.clock w).closed layer.clock none).Fits id w.setting.bench _
    refine fits_closed hs (fun first hfirst => ⟨logged_left hread layer.entry hfirst, nofun⟩)
      fun f hf => ⟨rfl, ?_⟩
    rw [logged_unread s.routine layer.entry hf]
    rfl

theorem fits_label (l : Label) {run : Task (Stage M) V} {chronicle : World (Stage M) → Chronicle V}
    (h : ∀ w, (chronicle w).Fits id w.setting.bench (run w).2.setting.bench) :
    (l.scene run chronicle).Fits id :=
  List.foldlRecOn l.layers logged h fun _ hs layer _ => fits_logged hs layer

end Scene

open Stage in
theorem fits_during (watch : String) {body : Task (Stage M) V}
    {chronicle : World (Stage M) → Chronicle V}
    (h : ∀ w, (chronicle w).Fits id w.setting.bench (body w).2.setting.bench) (w : World (Stage M)) :
    (Chronicle.after (enter watch) chronicle w).Fits id w.setting.bench
      (during watch body w).2.setting.bench := by
  have hread : ∀ a b, Bench.ReadFrom a b → Bench.Passes id 0 a b := fun _ _ => Bench.passes_readFrom
  have henter := keeps_enter hread watch w
  unfold Chronicle.after
  rcases hentered : enter watch w with ⟨e | _, v⟩ <;> rw [hentered] at henter
  · rw [during_of_unentered body hentered]
    exact Chronicle.fits_told [] [] henter
  · exact Chronicle.fits_onward henter (h v) (during_left hread hentered body)

theorem Plan.fits (p : Plan M V) :
    ∀ w, (p.chronicle w).Fits id w.setting.bench (p.run w).2.setting.bench := by
  have htold : ∀ (e : Event V) (calls : List (Label × Bench)) (b : Bench),
      (Chronicle.told e calls).Fits id b b :=
    fun e calls b => Chronicle.fits_told [e] calls (Bench.passes_refl b)
  induction p with
  | ends outcome => exact fun w => Chronicle.fits_told [] [] (Bench.passes_refl w.setting.bench)
  | occur e next ih => exact fun w => Chronicle.fits_append (htold _ _ w.setting.bench) (ih _ _)
  | operate op next ih =>
    intro w
    have hop := Task.keeps_act (P := Stage.On (M := M) (Bench.Passes id 0))
      (f := Stage.onBench (·.perform op)) (fun s => Bench.passes_perform s.bench op) w
    exact Chronicle.fits_append (Chronicle.fits_told _ _ hop) (ih _ _)
  | during watch body next ihBody ih =>
    intro w
    have hduring := fits_during watch ihBody w
    exact Chronicle.fits_append (Chronicle.fits_append hduring (htold _ _ _)) (ih _ _)
  | call label body next ihBody ih =>
    intro w
    have hrun := Scene.fits_label label ihBody w
    rw [Label.scene_routine] at hrun
    exact Chronicle.fits_append (Chronicle.fits_append hrun (htold _ _ _)) (ih _ _)
  | measure method clock label body next ihBody ih =>
    intro w
    have hmeasured := Scene.fits_measured (k := clock) (Scene.fits_label label ihBody) method w
    rw [Label.scene_routine] at hmeasured
    exact Chronicle.fits_append (Chronicle.fits_append hmeasured (htold _ _ _)) (ih _ _)
  | setLevel logger level next ih => exact fun w => ih _
  | mention logger next ih => exact fun w => ih _
  | find name next ih => exact fun w => Chronicle.fits_append (htold _ _ w.setting.bench) (ih _ _)
  | revise change next ih => exact fun w => ih _ (Stage.revise change w).2

/-- On a clock that rises, every completed measurement in a run takes no negative
    time, and at least as long as those directly inside it together; so does a
    measurement of the whole run. -/
theorem Plan.spans_hold (p : Plan M V) (w : World (Stage M)) (id : ClockId)
    (hrises : w.setting.bench.Rises id) :
    (∀ s ∈ (p.chronicle w).spans, s.clock = id → 0 ≤ s.nanos ∧ sumOn id s.inside ≤ s.nanos) ∧
      ∀ (m : Method) (label : Label) (reported : Reported V) (v : World (Stage M)),
        m.measure (label.routine p.run) (Stage.clock id) w = (.ok reported, v) →
          0 ≤ reported.nanos ∧
            sumOn id ((label.scene p.run p.chronicle).started id w).direct ≤ reported.nanos := by
  refine ⟨(p.fits w).spans hrises, fun m label reported v hm => ?_⟩
  have hscene : (label.scene p.run p.chronicle).Fits id := Scene.fits_label label p.fits
  have hmeasured := Scene.fits_measured (k := id) hscene m w
  refine hmeasured.spans hrises ⟨id, reported.nanos, _⟩ ?_ rfl
  unfold Scene.measured
  rw [Label.scene_routine, hm]
  exact List.mem_append_right _ (List.mem_singleton.mpr rfl)

/-- It moves by three with each reading. -/
def steppingClock : ClockId := .named "clock" 0

def steppingWorld : World (Stage Unit) where
  setting := { bench := ({} : Bench).addClock "clock" (.manual { now := 100, step := 3 }), memory := () }

/-- A measurement that captures a failure, a logged call around a measurement, and a call that
    is logged twice of a callable without a title: there only the outer layer completes. -/
def nestedCalls : Plan Unit Unit :=
  .measure .captured steppingClock { title := some "failing" }
    (.operate (.clock "clock" (.advance 5)) fun _ =>
      .occur (.foreign "ValueError" "failed") fun f => .ends (.error (.failure f)))
    fun _ => .call { title := some "outer", layers := [{ clock := steppingClock }] }
      (.measure .duration steppingClock { title := some "inner" }
        (.operate (.clock "clock" (.advance 7)) fun _ => .ends (.ok ())) fun _ => .ends (.ok ()))
      fun _ => .call { layers := [{ clock := steppingClock }, { clock := steppingClock }] }
        (.ends (.ok ())) fun _ => .ends (.ok ())

theorem Plan.spans_hold_nestedCalls : steppingWorld.setting.bench.Rises steppingClock ∧
    (nestedCalls.chronicle steppingWorld).spans =
      [⟨steppingClock, 8, []⟩, ⟨steppingClock, 10, []⟩, ⟨steppingClock, 16, [(steppingClock, 10)]⟩,
        ⟨steppingClock, 9, []⟩] ∧
      (∀ s ∈ (nestedCalls.chronicle steppingWorld).spans, s.clock = steppingClock →
        0 ≤ s.nanos ∧ sumOn steppingClock s.inside ≤ s.nanos) ∧
        ∃ reported v,
          Method.duration.measure (({} : Label).routine nestedCalls.run) (Stage.clock steppingClock)
            steppingWorld = (.ok reported, v) ∧ reported.nanos = 45 ∧
              sumOn steppingClock ((({} : Label).scene nestedCalls.run nestedCalls.chronicle).started
                steppingClock steppingWorld).direct ≤ 45 := by
  have hrises : steppingWorld.setting.bench.Rises steppingClock :=
    Bench.rises_addClock {} "clock" (t := .manual { now := 100, step := 3 }) trivial
  have hrun : (nestedCalls.chronicle steppingWorld).spans =
      [⟨steppingClock, 8, []⟩, ⟨steppingClock, 10, []⟩, ⟨steppingClock, 16, [(steppingClock, 10)]⟩,
        ⟨steppingClock, 9, []⟩] ∧
      timeOf (Method.duration.measure (({} : Label).routine nestedCalls.run)
        (Stage.clock steppingClock) steppingWorld).1 = some 45 := by
    decide +kernel
  obtain ⟨hspans, hwhole⟩ := nestedCalls.spans_hold steppingWorld steppingClock hrises
  refine ⟨hrises, hrun.1, hspans, ?_⟩
  rcases hm : Method.duration.measure (({} : Label).routine nestedCalls.run)
      (Stage.clock steppingClock) steppingWorld with ⟨e | reported, v⟩ <;> rw [hm] at hrun
  · cases hrun.2
  · have hnanos : reported.nanos = 45 := Option.some.inj hrun.2
    exact ⟨reported, v, rfl, hnanos, hnanos ▸ (hwhole _ _ _ _ hm).2⟩

end Chronograph.Script
