import Mathlib
import Chronograph.Proofs.Elapsed.Order
import Chronograph.Proofs.Script.Independence
import Chronograph.Proofs.Script.Plan.Dressed
import Chronograph.Proofs.Script.Plan.Nested

set_option autoImplicit false

/-!
# Timed calls do not show

On clocks at rest a reading leaves nothing behind, so the callables of a plan can be
wrapped, where the times of their calls can be shown, without a difference to
anything but the journal. There each timed call adds a record at most.
-/
namespace Chronograph
namespace Script
open Measurement
variable {M α V : Type}

namespace Bench
variable {a b z : Bench} {id : ClockId}

/-- The clock is on the bench, and what it moves by from there to `z` can be shown. -/
structure Shows (id : ClockId) (b z : Bench) : Prop where
  rises : b.Rises id
  text : ∃ first last s, ((clock id).read b).1 = .ok first ∧ ((clock id).read z).1 = .ok last ∧
    Elapsed.text (last - first) = .ok s

def Rests (a b : Bench) : Prop := a.AtRest → b.AtRest

instance : IsPreorder Bench Rests where
  refl _ h := h
  trans _ _ _ hab hbc h := hbc (hab h)

theorem rests_readFrom (h : ReadFrom a b) : Rests a b := by
  intro ha id t ht
  exact ha id t ((atRest_readFrom ha h).1 ▸ ht)

theorem rests_read (id : ClockId) (a : Bench) : Rests a ((clock id).read a).2 := fun h =>
  (read_of_atRest h id).symm ▸ h

theorem passes_of_fits {c : Chronicle V} (h : c.Fits id a b) : Passes id 0 a b := by
  intro ha
  obtain ⟨hb, hle⟩ := h.passes ha
  refine ⟨hb, fun now later hnow hlater => ?_⟩
  have := hle now later hnow hlater
  have := h.nonneg ha
  omega

theorem exists_text_of_shows (h : Shows id a z) (hab : Passes id 0 a b) (hbz : Passes id 0 b z)
    {first last : ℤ} (hfirst : ((clock id).read a).1 = .ok first)
    (hlast : ((clock id).read b).1 = .ok last) :
    ∃ s, Elapsed.text (last - first) = .ok s := by
  obtain ⟨hrises, first', end', s, hfirst', hend, hs⟩ := h
  cases hfirst.symm.trans hfirst'
  obtain ⟨hb, hle⟩ := hab hrises
  have := hle first last hfirst hlast
  have := (hbz hb).2 last end' hlast hend
  exact Elapsed.exists_text_of_le (by omega) (show last - first ≤ end' - first by omega) hs

end Bench

theorem Stage.agree_enter (J : Journal → Journal → Prop) (watch : String) :
    Task.Agree Eq J (enter watch : Task (Stage M) Unit) (enter watch) :=
  Task.agree_bind (Task.agree_act (by rintro a _ rfl; exact ⟨rfl, rfl⟩)) fun h =>
    Task.agree_act h.agrees_eq.start

theorem after_of_atRest {w : World (Stage M)} (h : w.setting.bench.AtRest) (id : ClockId) :
    (Stage.clock id).after w = w := by
  have hleft : ((Stage.clock id).read w.setting).2 = w.setting :=
    congrArg (Stage.mk · w.setting.memory) (Bench.read_of_atRest h id)
  unfold Clock.after
  rw [hleft]

/-- No clock is made to move by itself, and every call is among `calls`. -/
structure Chronicle.Calm (calls : List (Label × Bench)) (c : Chronicle V) : Prop where
  still : ∀ op r, .operated op r ∈ c.heard → op.Still
  calls : c.calls ⊆ calls

namespace Chronicle
variable {calls : List (Label × Bench)} {c d : Chronicle V}

theorem calm_append (h : (c ++ d).Calm calls) : c.Calm calls ∧ d.Calm calls :=
  ⟨⟨fun op r hop => h.still op r (List.mem_append_left _ hop),
      fun _ hcall => h.calls (List.mem_append_left _ hcall)⟩,
    ⟨fun op r hop => h.still op r (List.mem_append_right _ hop),
      fun _ hcall => h.calls (List.mem_append_right _ hcall)⟩⟩

theorem calm_of_closed {k : ClockId} {time : Option ℤ} (h : (c.closed k time).Calm calls) :
    c.Calm calls :=
  ⟨closed_heard c k time ▸ h.still, closed_calls c k time ▸ h.calls⟩

end Chronicle

section
variable {timed : Label → Layer → Prop} {calls : List (Label × Bench)} {z : Bench}
  {w v : World (Stage M)} {label : Label} {s s' : Scene M V} {k : ClockId}

abbrev World.Retold (timed : Label → Layer → Prop) (calls : List (Label × Bench)) :
    World (Stage M) → World (Stage M) → Prop :=
  World.Alike Eq (Script.Retold timed calls)

/-- A run from `w` on clocks that are at rest, which do not fall from its end to `z`. -/
structure Quiet (calls : List (Label × Bench)) (z : Bench) (w : World (Stage M))
    (x : Except Raised α × World (Stage M)) (c : Chronicle V) : Prop where
  rest : w.setting.bench.AtRest
  calm : c.Calm calls
  onward : ∀ id, Bench.Passes id 0 x.2.setting.bench z

/-- Two runs end the same and leave the clocks at rest, and what is heard in both is the same. -/
structure Unseen (timed : Label → Layer → Prop) (calls : List (Label × Bench))
    (x y : Except Raised α × World (Stage M)) (c d : Chronicle V) : Prop where
  paired : Paired (World.Retold timed calls) x y
  rest : x.2.setting.bench.AtRest
  heard : c.heard = d.heard

/-- Scenes of one callable that run the same on clocks at rest, where its call is among `calls`. -/
structure Scene.Dressed (timed : Label → Layer → Prop) (calls : List (Label × Bench))
    (z : Bench) (label : Label) (s s' : Scene M V) : Prop where
  title : s.routine.title = s'.routine.title
  subject : s.routine.title.getD Routine.wrapperTitle = label.title.getD Routine.wrapperTitle
  fits : ∀ id, s.Fits id
  unseen : ∀ w v, World.Retold timed calls w v → (label, w.setting.bench) ∈ calls →
    Quiet calls z w (s.routine.run w) (s.chronicle w) →
      Unseen timed calls (s.routine.run w) (s'.routine.run v) (s.chronicle w) (s'.chronicle v)

namespace Scene

theorem exists_readings (hs : s.Fits k) (hk : w.setting.bench.Rises k) :
    ∃ first last, ((Stage.clock k).read w.setting).1 = .ok first ∧
      ((Stage.clock k).read (s.routine.run ((Stage.clock k).after w)).2.setting).1 = .ok last := by
  obtain ⟨hk', _⟩ := Bench.passes_read k w.setting.bench hk
  obtain ⟨first, hfirst⟩ := Bench.exists_reading hk
  have hpasses := Bench.passes_of_fits (hs ((Stage.clock k).after w))
  obtain ⟨last, hlast⟩ := Bench.exists_reading (hpasses hk').1
  exact ⟨first, last, hfirst, hlast⟩

theorem started_of_read (s : Scene M V) (hrest : w.setting.bench.AtRest) {first : ℤ}
    (hr : ((Stage.clock k).read w.setting).1 = .ok first) : s.started k w = s.chronicle w := by
  unfold started Chronicle.after
  rw [started_eq hr, after_of_atRest hrest]

theorem started_of_unread (s : Scene M V) {e : Fault}
    (hr : ((Stage.clock k).read w.setting).1 = .error e) :
    s.started k w = {} := by
  unfold started Chronicle.after
  rw [started_failed hr]
  rfl

theorem exists_logged_eq (s : Scene M V) (layer : Layer) (w : World (Stage M)) :
    ∃ time, (s.logged layer).chronicle w = (s.started layer.clock w).closed layer.clock time := by
  unfold logged
  split
  · exact ⟨_, rfl⟩
  · exact ⟨none, rfl⟩

/-- What runs both scenes after a reading, and only reads after them. -/
theorem unseen_between (h : s.Dressed timed calls z label s') (hwv : World.Retold timed calls w v)
    (hcall : (label, w.setting.bench) ∈ calls) {t t' : Task (Stage M) α} {time time' : Option ℤ}
    (hunread : ∀ e, ((Stage.clock k).read w.setting).1 = .error e →
      t w = Task.fail e ((Stage.clock k).after w) ∧ t' v = Task.fail e ((Stage.clock k).after v))
    (hpaired : Paired (World.Retold timed calls) (s.routine.run ((Stage.clock k).after w))
      (s'.routine.run ((Stage.clock k).after v)) → Paired (World.Retold timed calls) (t w) (t' v))
    (hleft : ∀ (P : Bench → Bench → Prop) [IsPreorder Bench P], (∀ b, P b ((Bench.clock k).read b).2) →
      ∀ first, ((Stage.clock k).read w.setting).1 = .ok first →
        P (s.routine.run ((Stage.clock k).after w)).2.setting.bench (t w).2.setting.bench)
    (hquiet : Quiet calls z w (t w) ((s.started k w).closed k time)) :
    Unseen timed calls (t w) (t' v) ((s.started k w).closed k time)
      ((s'.started k v).closed k time') := by
  have hrest := hquiet.rest
  have hcalm := Chronicle.calm_of_closed hquiet.calm
  have hrest' : v.setting.bench.AtRest := hwv.setting ▸ hrest
  rw [after_of_atRest hrest, after_of_atRest hrest'] at hpaired hunread
  simp only [after_of_atRest hrest] at hleft
  cases hr : ((Stage.clock k).read w.setting).1 with
  | error e =>
    obtain ⟨ht, ht'⟩ := hunread e hr
    rw [ht, ht']
    refine ⟨Task.agree_fail e _ _ hwv, hrest, ?_⟩
    rw [Chronicle.closed_heard, Chronicle.closed_heard, started_of_unread s hr,
      started_of_unread s' (hwv.setting ▸ hr)]
  | ok first =>
    rw [started_of_read s hrest hr] at hcalm
    have honward : ∀ id, Bench.Passes id 0 (s.routine.run w).2.setting.bench z := fun id =>
      trans_of (Bench.Passes id 0) (hleft _ (Bench.passes_read k) first hr) (hquiet.onward id)
    obtain ⟨hinner, hinnerRest, hheard⟩ := h.unseen w v hwv hcall ⟨hrest, hcalm, honward⟩
    refine ⟨hpaired hinner, hleft Bench.Rests (Bench.rests_read k) first hr hinnerRest, ?_⟩
    rw [Chronicle.closed_heard, Chronicle.closed_heard, started_of_read s hrest hr,
      started_of_read s' hrest' (hwv.setting ▸ hr), hheard]

theorem dressed_keep (h : s.Dressed timed calls z label s') (layer : Layer) :
    (s.logged layer).Dressed timed calls z label (s'.logged layer) := by
  refine ⟨?_, h.subject, fun id => fits_logged (h.fits id) layer, ?_⟩
  · simp only [logged, addLayer, Routine.logged_title, h.title]
  intro w v hwv hcall hquiet
  obtain ⟨time, htime⟩ := exists_logged_eq s layer w
  obtain ⟨time', htime'⟩ := exists_logged_eq s' layer v
  rw [htime] at hquiet ⊢
  rw [htime']
  refine unseen_between h hwv hcall (fun e he => ?_) (fun hrun => ?_) (fun P _ hP first => ?_) hquiet
  · exact ⟨logged_unread _ layer.entry he, logged_unread _ layer.entry (hwv.setting ▸ he)⟩
  · exact paired_logged congruent_retold (Clock.agrees_eq _) layer.entry layer.address h.title hwv hrun
  · exact logged_left (Stage.on_read hP) layer.entry

/-- A layer that is put in adds a record at most: what it takes from the time before it
    to the time after it is not more than the clock moves by until `z`. -/
theorem dressed_add (h : s.Dressed timed calls z label s')
    (hshows : ∀ l b layer, (l, b) ∈ calls → timed l layer → Bench.Shows layer.clock b z)
    {layer : Layer} (htimed : timed label layer) (htitle : s.routine.title.isSome) :
    s.Dressed timed calls z label (s'.logged layer) := by
  obtain ⟨title, htitle⟩ := Option.isSome_iff_exists.mp htitle
  have htitle' : s'.routine.title = some title := h.title.symm.trans htitle
  have hsubject : title = label.title.getD Routine.wrapperTitle := by
    rw [← h.subject, htitle, Option.getD_some]
  refine ⟨?_, h.subject, h.fits, fun w v hwv hcall hquiet => ?_⟩
  · simp only [logged, addLayer, Routine.logged_title, htitle, htitle', Option.getD_some]
  obtain ⟨⟨hend, hleft⟩, hrest, hheard⟩ := h.unseen w v hwv hcall hquiet
  have hshow := hshows label w.setting.bench layer hcall htimed
  have hpasses := Bench.passes_of_fits (h.fits layer.clock w)
  obtain ⟨first, hfirst⟩ := Bench.exists_reading hshow.rises
  obtain ⟨last, hlast⟩ := Bench.exists_reading (hpasses hshow.rises).1
  obtain ⟨text, htext⟩ := Bench.exists_text_of_shows hshow hpasses (hquiet.onward layer.clock) hfirst hlast
  have hafter : (Stage.clock layer.clock).after v = v := after_of_atRest (hwv.setting ▸ hquiet.rest) _
  have hfirst' : ((Stage.clock layer.clock).read v.setting).1 = .ok first := hwv.setting ▸ hfirst
  rcases hrun : s'.routine.run v with ⟨ending, u⟩
  rw [hrun] at hend hleft
  have hafter' : (Stage.clock layer.clock).after u = u := after_of_atRest (hleft.setting ▸ hrest) _
  have hlast' : ((Stage.clock layer.clock).read u.setting).1 = .ok last := hleft.setting ▸ hlast
  have hlogged : (addLayer s'.routine layer).run v = _ :=
    logged_eq layer.entry hfirst' (hafter ▸ hrun) hlast'
  obtain ⟨j, hfinish, hj⟩ := exists_finishLogged_eq layer.entry title htext ending u
  rw [htitle', hafter', hfinish] at hlogged
  refine ⟨?_, hrest, ?_⟩
  · change Paired _ _ ((addLayer s'.routine layer).run v)
    rw [hlogged]
    refine ⟨hend, hleft.setting, ?_, hleft.raised⟩
    rcases hj with rfl | ⟨failedWith, rfl⟩
    · exact hleft.journal
    · rw [hsubject]
      exact Journal.padded_add_extra hleft.journal (.mk _ hcall htimed htext)
  · obtain ⟨time, htime⟩ := exists_logged_eq s' layer v
    rw [htime, Chronicle.closed_heard, started_of_read s' (hwv.setting ▸ hquiet.rest) hfirst', hheard]

theorem dressed_label {label' : Label} (hlabel : label.Dressed timed label')
    (hshows : ∀ l b layer, (l, b) ∈ calls → timed l layer → Bench.Shows layer.clock b z)
    {run run' : Task (Stage M) V} {chronicle chronicle' : World (Stage M) → Chronicle V}
    (hfits : ∀ id w, (chronicle w).Fits id w.setting.bench (run w).2.setting.bench)
    (hbody : ∀ w v, World.Retold timed calls w v → Quiet calls z w (run w) (chronicle w) →
      Unseen timed calls (run w) (run' v) (chronicle w) (chronicle' v)) :
    (label.scene run chronicle).Dressed timed calls z label (label'.scene run' chronicle') := by
  have hlayers : ∀ (title : Option String) (layers layers' : List Layer) (s s' : Scene M V),
      Layered (timed label) title layers layers' → s.routine.title = title →
        s.Dressed timed calls z label s' →
          (layers.foldl logged s).Dressed timed calls z label (layers'.foldl logged s') := by
    intro title layers layers' s s' hlayered
    induction hlayered generalizing s s' with
    | nil title => exact fun _ hs => hs
    | keep layer _ ih =>
      rintro rfl hs
      exact ih _ _ rfl (dressed_keep hs layer)
    | add hsome htimed _ ih =>
      rintro rfl hs
      exact ih _ _ rfl (dressed_add hs hshows htimed hsome)
  exact hlayers _ _ _ _ _ hlabel.layers rfl
    ⟨hlabel.title, rfl, hfits, fun w v hwv _ hquiet => hbody w v hwv hquiet⟩

theorem unseen_measured (h : s.Dressed timed calls z label s')
    (hname : Journal.Interchanges (Script.Retold timed calls) s.routine.name s'.routine.name)
    (hwv : World.Retold timed calls w v) (hcall : (label, w.setting.bench) ∈ calls) (m : Method)
    (k : ClockId) (hquiet : Quiet calls z w (m.measure s.routine (Stage.clock k) w) (s.measured m k w)) :
    Unseen timed calls (m.measure s.routine (Stage.clock k) w) (m.measure s'.routine (Stage.clock k) v)
      (s.measured m k w) (s'.measured m k v) := by
  refine unseen_between h hwv hcall (fun e he => ?_) (fun hrun => ?_) (fun P _ hP first => ?_) hquiet
  · exact ⟨measure_unread m _ he, measure_unread m _ (hwv.setting ▸ he)⟩
  · exact paired_measure hname (Clock.agrees_eq _) m hwv hrun
  · exact measure_left (Stage.on_read hP) m

end Scene

theorem unseen_during (watch : String) {body body' : Task (Stage M) V}
    {chronicle chronicle' : World (Stage M) → Chronicle V}
    (hbody : ∀ w v, World.Retold timed calls w v → Quiet calls z w (body w) (chronicle w) →
      Unseen timed calls (body w) (body' v) (chronicle w) (chronicle' v))
    (hwv : World.Retold timed calls w v)
    (hquiet : Quiet calls z w (Stage.during watch body w)
      (Chronicle.after (Stage.enter watch) chronicle w)) :
    Unseen timed calls (Stage.during watch body w) (Stage.during watch body' v)
      (Chronicle.after (Stage.enter watch) chronicle w)
      (Chronicle.after (Stage.enter watch) chronicle' v) := by
  obtain ⟨hrest, hcalm, honward⟩ := hquiet
  have hrests : ∀ a b, Bench.ReadFrom a b → Bench.Rests a b := fun _ _ => Bench.rests_readFrom
  have hpasses : ∀ id a b, Bench.ReadFrom a b → Bench.Passes id 0 a b :=
    fun _ _ _ => Bench.passes_readFrom
  have hentered := Stage.agree_enter (Script.Retold timed calls) watch w v hwv
  have hrest' := Stage.keeps_enter hrests watch w hrest
  unfold Chronicle.after at hcalm ⊢
  rcases hw : Stage.enter watch w with ⟨e | _, x⟩ <;>
    rcases hv : Stage.enter watch v with ⟨e' | _, y⟩ <;> rw [hw, hv] at hentered <;>
    obtain ⟨hend, hleft⟩ := hentered <;> cases hend <;> rw [hw] at hrest' hcalm
  · rw [Stage.during_of_unentered body hw, Stage.during_of_unentered body' hv]
    exact ⟨⟨rfl, hleft⟩, hrest', rfl⟩
  · obtain ⟨h, hheld, hstart⟩ := Stage.exists_held_of_enter hw
    obtain ⟨h', hheld', hstart'⟩ := Stage.exists_held_of_enter hv
    rw [← hwv.setting, hheld, Option.some.injEq] at hheld'
    subst hheld'
    obtain ⟨⟨hend, hbodyLeft⟩, hbodyRest, hheard⟩ := hbody x y hleft ⟨hrest', hcalm, fun id =>
      trans_of (Bench.Passes id 0) (Stage.during_left (hpasses id) hw body) (honward id)⟩
    refine ⟨?_, Stage.during_left hrests hw body hbodyRest, hheard⟩
    rw [Stage.during_of_entered body hheld hstart,
      Stage.during_of_entered body' (hwv.setting ▸ hheld) hstart', ← hend]
    exact Task.agree_bind (Held.agree_leave (Stage.held h).agrees_eq) (fun _ => Task.agree_settle _)
      _ _ hbodyLeft

theorem unseen_resume {t t' : Task (Stage M) α} {c c' : Chronicle V}
    {next next' : Except Raised α → Plan M V}
    (hquiet : Quiet calls z w (t.resume (fun r => (next r).run) w)
      (c ++ (next (t w).1).chronicle (t w).2))
    (hstep : Quiet calls z w (t w) c → Unseen timed calls (t w) (t' v) c c')
    (hnext : ∀ r w v, World.Retold timed calls w v →
      Quiet calls z w ((next r).run w) ((next r).chronicle w) →
        Unseen timed calls ((next r).run w) ((next' r).run v) ((next r).chronicle w)
          ((next' r).chronicle v)) :
    Unseen timed calls (t.resume (fun r => (next r).run) w) (t'.resume (fun r => (next' r).run) v)
      (c ++ (next (t w).1).chronicle (t w).2) (c' ++ (next' (t' v).1).chronicle (t' v).2) := by
  obtain ⟨hrest, hcalm, honward⟩ := hquiet
  obtain ⟨hcalm, hcalmNext⟩ := Chronicle.calm_append hcalm
  obtain ⟨⟨hend, hleft⟩, hrest', hheard⟩ := hstep ⟨hrest, hcalm, fun id =>
    trans_of (Bench.Passes id 0) (Bench.passes_of_fits ((next (t w).1).fits (t w).2)) (honward id)⟩
  unfold Task.resume at honward ⊢
  rw [← hend]
  obtain ⟨hpaired, hrestNext, hheardNext⟩ := hnext _ _ _ hleft ⟨hrest', hcalmNext, honward⟩
  exact ⟨hpaired, hrestNext, congrArg₂ (· ++ ·) hheard hheardNext⟩

theorem unseen_told {x y : Except Raised α × World (Stage M)} {c d : Chronicle V}
    (answer : Except Raised α → Event V) (h : Unseen timed calls x y c d)
    (told told' : List (Label × Bench)) :
    Unseen timed calls x y (c ++ .told (answer x.1) told) (d ++ .told (answer y.1) told') := by
  obtain ⟨hpaired, hrest, hheard⟩ := h
  exact ⟨hpaired, hrest, congrArg₂ (· ++ ·) hheard (by rw [hpaired.1]; rfl)⟩

theorem Plan.unseen_of_dressed {p p' : Plan M V} (h : p.Dressed timed p')
    (hshows : ∀ l b layer, (l, b) ∈ calls → timed l layer → Bench.Shows layer.clock b z) :
    ∀ w v, World.Retold timed calls w v → Quiet calls z w (p.run w) (p.chronicle w) →
      Unseen timed calls (p.run w) (p'.run v) (p.chronicle w) (p'.chronicle v) := by
  induction h with
  | ends outcome => exact fun w v hwv hquiet => ⟨⟨rfl, hwv⟩, hquiet.rest, rfl⟩
  | occur e h ih =>
    intro w v hwv hquiet
    obtain ⟨hrest, hcalm, honward⟩ := hquiet
    have hfailure : (Task.occurrence e w).1 = (Task.occurrence e v).1 := by
      unfold Task.occurrence
      rw [hwv.raised]
    obtain ⟨hpaired, hrest', hheard⟩ := ih (Task.occurrence e w).1 (Task.occurrence e w).2
      (Task.occurrence e v).2 ⟨hwv.setting, hwv.journal, congrArg (· + 1) hwv.raised⟩
      ⟨hrest, (Chronicle.calm_append hcalm).2, honward⟩
    unfold run chronicle
    rw [← hfailure]
    exact ⟨hpaired, hrest', congrArg (List.cons _) hheard⟩
  | operate op h ih =>
    intro w v hwv hquiet
    refine unseen_resume hquiet (fun hop => ?_) ih
    have hpaired := Task.agree_act (S := Eq) (J := Script.Retold timed calls)
      (f := Stage.onBench (·.perform op)) (g := Stage.onBench (·.perform op))
      (by rintro a _ rfl; exact ⟨rfl, rfl⟩) w v hwv
    have hstill := hop.calm.still op _ (List.mem_singleton_self _)
    refine ⟨hpaired, ?_, by rw [hpaired.1]⟩
    exact Task.keeps_act (P := Stage.On Bench.Rests) (f := Stage.onBench (·.perform op))
      (fun s hs => Bench.atRest_perform hs hstill) w hop.rest
  | during watch hbody h ihBody ih =>
    intro w v hwv hquiet
    refine unseen_resume hquiet (fun hquiet => ?_) ih
    obtain ⟨hrest, hcalm, honward⟩ := hquiet
    exact unseen_told (.left watch)
      (unseen_during watch ihBody hwv ⟨hrest, (Chronicle.calm_append hcalm).1, honward⟩) [] []
  | call hlabel hbody h ihBody ih =>
    intro w v hwv hquiet
    refine unseen_resume hquiet (fun hquiet => ?_) ih
    obtain ⟨hrest, hcalm, honward⟩ := hquiet
    have hcall := hcalm.calls (List.mem_append_right _ (List.mem_singleton_self _))
    have hscene := Scene.dressed_label hlabel hshows (fun _ => fits _) ihBody
    have hrun := hscene.unseen w v hwv hcall
    rw [Label.scene_routine, Label.scene_routine] at hrun
    rw [← hlabel.title]
    exact unseen_told (.called _) (hrun ⟨hrest, (Chronicle.calm_append hcalm).1, honward⟩) _ _
  | measure method clock hlabel hbody h ihBody ih =>
    intro w v hwv hquiet
    refine unseen_resume hquiet (fun hquiet => ?_) ih
    obtain ⟨hrest, hcalm, honward⟩ := hquiet
    have hcall := hcalm.calls (List.mem_append_right _ (List.mem_singleton_self _))
    have hscene := Scene.dressed_label hlabel hshows (fun _ => fits _) ihBody
    have hname := hlabel.interchanges hcall
    rw [← Label.routine_name _ (run _), ← Label.scene_routine _ _ (chronicle _),
      ← Label.routine_name _ (run _), ← Label.scene_routine _ _ (chronicle _)] at hname
    have hrun := Scene.unseen_measured hscene hname hwv hcall method clock
    rw [Label.scene_routine, Label.scene_routine] at hrun
    exact unseen_told (.measured method clock)
      (hrun ⟨hrest, (Chronicle.calm_append hcalm).1, honward⟩) _ _
  | setLevel logger level h ih =>
    intro w v hwv hquiet
    have hjournal := congruent_retold.setLevel logger level _ _ hwv.journal
    exact ih _ _ ⟨hwv.setting, hjournal, hwv.raised⟩ ⟨hquiet.rest, hquiet.calm, hquiet.onward⟩
  | mention logger h ih =>
    intro w v hwv hquiet
    have hjournal := congruent_retold.mention logger _ _ hwv.journal
    exact ih _ _ ⟨hwv.setting, hjournal, hwv.raised⟩ ⟨hquiet.rest, hquiet.calm, hquiet.onward⟩
  | find name h ih =>
    intro w v hwv hquiet
    obtain ⟨hrest, hcalm, honward⟩ := hquiet
    obtain ⟨hpaired, hrest', hheard⟩ := ih (w.setting.bench.clockId? name) w v hwv
      ⟨hrest, (Chronicle.calm_append hcalm).2, honward⟩
    unfold run chronicle
    rw [← hwv.setting]
    exact ⟨hpaired, hrest', congrArg (List.cons _) hheard⟩
  | revise change h ih =>
    intro w v hwv hquiet
    have hrevised : World.Retold timed calls (Stage.revise change w).2 (Stage.revise change v).2 :=
      ⟨congrArg (fun s => (⟨s.bench, change s.memory⟩ : Stage M)) hwv.setting, hwv.journal, hwv.raised⟩
    have hnext := ih w.setting.memory _ _ hrevised ⟨hquiet.rest, hquiet.calm, hquiet.onward⟩
    unfold run chronicle
    rwa [← hwv.setting]

theorem own_of_layers {f : Failure} {state : State} (hf : f.fault = .alreadyIn state)
    (hrest : w.setting.bench.AtRest) (layers : List Layer) (s : Scene M V) (hs : ∀ id, s.Fits id)
    (hrises : ∀ layer ∈ layers, w.setting.bench.Rises layer.clock)
    (h : ((layers.foldl Scene.logged s).routine.run w).1 = .error (.failure f)) :
    (s.routine.run w).1 = .error (.failure f) := by
  induction layers generalizing s with
  | nil => exact h
  | cons layer rest ih =>
    have hlogged := ih (s.logged layer) (fun id => Scene.fits_logged (hs id) layer)
      (fun l hl => hrises l (List.mem_cons_of_mem _ hl)) h
    have hlayer := hrises layer List.mem_cons_self
    obtain ⟨first, last, hfirst, hlast⟩ := Scene.exists_readings (hs layer.clock) hlayer
    rw [← after_of_atRest hrest layer.clock]
    exact own_of_logged hf hfirst hlast hlogged

end

/-- A call or a measurement of the callable, on clocks that are on the bench, gives
    the failure: it is raised, or captured. -/
inductive Label.Gives (l : Label) (run : Task (Stage M) V) (w : World (Stage M)) (f : Failure) : Prop
  | called (h : ((l.routine run).run w).1 = .error (.failure f))
  | raised (m : Method) {id : ClockId} (hid : w.setting.bench.Rises id)
    (h : (m.measure (l.routine run) (Stage.clock id) w).1 = .error (.failure f))
  | captured (m : Method) {id : ClockId} (hid : w.setting.bench.Rises id) {n : ℤ}
    (h : (m.measure (l.routine run) (Stage.clock id) w).1 = .ok (.timed (.failure n f)))

theorem Plan.own_of_gives (body : Plan M V) {l : Label} {w : World (Stage M)}
    (hrest : w.setting.bench.AtRest) (hrises : ∀ layer ∈ l.layers, w.setting.bench.Rises layer.clock)
    {f : Failure} {state : State} (hf : f.fault = .alreadyIn state) (h : l.Gives body.run w f) :
    (body.run w).1 = .error (.failure f) := by
  have hfits : ∀ id, (l.scene body.run body.chronicle).Fits id := fun id => Scene.fits_label l body.fits
  refine own_of_layers hf hrest l.layers ⟨⟨l.title, l.description, body.run⟩, body.chronicle⟩
    (fun _ => body.fits) hrises ?_
  change ((l.scene body.run body.chronicle).routine.run w).1 = .error (.failure f)
  have hscene := Label.scene_routine l body.run body.chronicle
  cases h with
  | called h => rwa [hscene]
  | @raised m id hid h =>
    obtain ⟨first, last, hfirst, hlast⟩ := Scene.exists_readings (hfits id) hid
    rw [← hscene] at h
    rw [← after_of_atRest hrest id]
    exact own_of_measure hf hfirst hlast (Or.inl h)
  | @captured m id hid n h =>
    obtain ⟨first, last, hfirst, hlast⟩ := Scene.exists_readings (hfits id) hid
    rw [← hscene] at h
    rw [← after_of_atRest hrest id]
    exact own_of_measure hf hfirst hlast (Or.inr ⟨n, h⟩)

/-- On clocks at rest callables can be timed wherever the time up to the end can be
    shown: the plan ends the same, is answered the same and leaves the same bench and
    memory, and the journal has records of the timed calls besides. There only a
    measurement of a callable with an empty title can be told under another name.
    What fails as a watch would is a callable, and no call or measurement of it. -/
theorem Plan.run_dressed {timed : Label → Layer → Prop} {p p' : Plan M V}
    (h : p.Dressed timed p') (w : World (Stage M)) (hrest : w.setting.bench.AtRest)
    (hstill : ∀ op r, .operated op r ∈ (p.chronicle w).heard → op.Still)
    (hshows : ∀ l b layer, (l, b) ∈ (p.chronicle w).calls → timed l layer →
      Bench.Shows layer.clock b (p.run w).2.setting.bench) :
    ((p'.run w).1 = (p.run w).1 ∧ (p'.chronicle w).heard = (p.chronicle w).heard ∧
      (p'.run w).2.setting = (p.run w).2.setting ∧ (p'.run w).2.raised = (p.run w).2.raised ∧
        Journal.Padded (Noted timed (p.chronicle w).calls) (Renamed timed (p.chronicle w).calls)
          (p.run w).2.journal (p'.run w).2.journal) ∧
    ∀ (body : Plan M V) (l : Label) (v : World (Stage M)), v.setting.bench.AtRest →
      (∀ layer ∈ l.layers, v.setting.bench.Rises layer.clock) → ∀ (f : Failure) (state : State),
        f.fault = .alreadyIn state → l.Gives body.run v f → (body.run v).1 = .error (.failure f) := by
  refine ⟨?_, fun body l v hv hrises f state hf => own_of_gives body hv hrises hf⟩
  obtain ⟨⟨hend, hleft⟩, _, hheard⟩ := unseen_of_dressed h hshows w w
    ⟨rfl, ⟨rfl, woven_refl .same _⟩, rfl⟩
    ⟨hrest, ⟨hstill, List.Subset.refl _⟩, fun _ => Bench.passes_refl _⟩
  exact ⟨hend.symm, hheard.symm, hleft.setting.symm, hleft.raised.symm, hleft.journal⟩

def manualClock : ClockId := .named "clock" 0

def manualWorld : World (Stage Unit) where
  setting := { bench := ({} : Bench).addClock "clock" (.manual {}), memory := () }

def manualLayer : Layer := { clock := manualClock }

/-- A callable that calls itself once, and in the end starts a watch that is running. -/
def selfCall (layers : List Layer) : Plan Unit ℤ :=
  .operate (.makeWatch "watch" (some "clock") true) fun _ =>
    .call { title := some "again", layers }
      (.call { title := some "again", layers }
        (.operate (.clock "clock" (.advance 40)) fun _ => .operate (.watch "watch" .start) fun r =>
          .ends (r.map fun _ => 0)) .ends)
      fun _ => .operate (.watch "watch" (.query .nanos)) fun r => .ends (r.map fun
        | .count n => n
        | _ => 0)

theorem dressed_manualLayer (title description : String) :
    ({ title := some title, description } : Label).Dressed (fun _ layer => layer = manualLayer)
      { title := some title, description, layers := [manualLayer] } := by
  refine ⟨rfl, rfl, .add rfl ?_ (.nil _)⟩
  rfl

theorem atRest_manualWorld : manualWorld.setting.bench.AtRest :=
  Bench.atRest_addClock (a := {}) nofun "clock" (t := .manual {}) rfl

theorem Plan.run_dressed_selfCall :
    (selfCall []).Dressed (fun _ layer => layer = manualLayer) (selfCall [manualLayer]) ∧
      manualWorld.setting.bench.AtRest ∧
      (∀ op r, .operated op r ∈ ((selfCall []).chronicle manualWorld).heard → op.Still) ∧
      (∀ l b layer, (l, b) ∈ ((selfCall []).chronicle manualWorld).calls → layer = manualLayer →
        Bench.Shows layer.clock b ((selfCall []).run manualWorld).2.setting.bench) ∧
      ((selfCall [manualLayer]).run manualWorld).1 = ((selfCall []).run manualWorld).1 ∧
        ((selfCall []).run manualWorld).1 = .ok 40 ∧
          ((selfCall [manualLayer]).run manualWorld).2.setting = ((selfCall []).run manualWorld).2.setting ∧
            ((selfCall [manualLayer]).run manualWorld).2.journal.records.length = 2 := by
  have hlabel := dressed_manualLayer "again" "<callable>"
  have hdressed : (selfCall []).Dressed (fun _ layer => layer = manualLayer) (selfCall [manualLayer]) :=
    .operate _ fun _ => .call hlabel
      (.call hlabel (.operate _ fun _ => .operate _ fun _ => .ends _) fun _ => .ends _)
      fun _ => .operate _ fun _ => .ends _
  have hheard : ((selfCall []).chronicle manualWorld).heard =
    [.operated (.makeWatch "watch" (some "clock") true) (.ok (.state .running)),
      .operated (.clock "clock" (.advance 40)) (.ok .done),
      .operated (.watch "watch" .start) (.error (.failure ⟨0, .alreadyIn .running⟩)),
      .called (some "again") (.error (.failure ⟨0, .alreadyIn .running⟩)),
      .called (some "again") (.error (.failure ⟨0, .alreadyIn .running⟩)),
      .operated (.watch "watch" (.query .nanos)) (.ok (.count 40))] := by rfl
  have hstill : ∀ op r, .operated op r ∈ ((selfCall []).chronicle manualWorld).heard → op.Still := by
    intro op r hop
    simp only [hheard, List.mem_cons, Event.operated.injEq, reduceCtorEq, List.not_mem_nil, false_or,
      or_false] at hop
    rcases hop with ⟨rfl, _⟩ | ⟨rfl, _⟩ | ⟨rfl, _⟩ | ⟨rfl, _⟩ <;> trivial
  have hcalls : ((selfCall []).chronicle manualWorld).calls.map (fun c => (c.2.clocks, c.2.clockVersions)) =
      [(manualWorld.setting.bench.clocks, manualWorld.setting.bench.clockVersions),
        (manualWorld.setting.bench.clocks, manualWorld.setting.bench.clockVersions)] := by rfl
  have hshows : ∀ l b layer, (l, b) ∈ ((selfCall []).chronicle manualWorld).calls → layer = manualLayer →
      Bench.Shows layer.clock b ((selfCall []).run manualWorld).2.setting.bench := by
    rintro l b _ hb rfl
    have hsame := List.mem_map_of_mem (f := fun c => (c.2.clocks, c.2.clockVersions)) hb
    rw [hcalls] at hsame
    simp only [List.mem_cons, List.not_mem_nil, or_false, or_self, Prod.mk.injEq] at hsame
    obtain ⟨hclocks, hversions⟩ := hsame
    have hrises : manualWorld.setting.bench.Rises manualClock :=
      Bench.rises_addClock {} "clock" (t := .manual {}) trivial
    have hmanual : b.clocks.get? manualClock = some (.manual {}) := hclocks ▸ rfl
    obtain ⟨s, _, hs, _⟩ := Elapsed.exists_text_of_next? (show (0 : ℤ) < 40 - 0 by decide)
      (w := .microseconds) (by decide)
    have hpasses : Bench.Passes manualClock 0 manualWorld.setting.bench b :=
      Bench.passes_readFrom ⟨hversions, Or.inl hclocks⟩
    exact ⟨(hpasses hrises).1, 0, 40, s, Bench.read_eq_of_get? hmanual, rfl, hs⟩
  obtain ⟨⟨hend, _, hsetting, _⟩, _⟩ := run_dressed hdressed manualWorld atRest_manualWorld hstill hshows
  exact ⟨hdressed, atRest_manualWorld, hstill, hshows, hend, by cbv, hsetting, by decide +kernel⟩

def emptyTitle (layers : List Layer) : Plan Unit Unit :=
  .measure .duration manualClock { title := some "", description := "<bare>", layers } (.ends (.ok ()))
    fun _ => .ends (.ok ())

/-- The measurement is told under the description of the wrapper, so the record of the
    bare callable is lost, whatever counts as put in. -/
theorem Plan.run_dressed_emptyTitle :
    (emptyTitle []).Dressed (fun _ layer => layer = manualLayer) (emptyTitle [manualLayer]) ∧
      manualWorld.setting.bench.AtRest ∧
      (∀ op r, .operated op r ∈ ((emptyTitle []).chronicle manualWorld).heard → op.Still) ∧
      (∀ l b layer, (l, b) ∈ ((emptyTitle []).chronicle manualWorld).calls → layer = manualLayer →
        Bench.Shows layer.clock b ((emptyTitle []).run manualWorld).2.setting.bench) ∧
      ∀ extra, ¬Journal.Padded extra Eq ((emptyTitle []).run manualWorld).2.journal
        ((emptyTitle [manualLayer]).run manualWorld).2.journal := by
  have hdressed : (emptyTitle []).Dressed (fun _ layer => layer = manualLayer) (emptyTitle [manualLayer]) :=
    .measure _ _ (dressed_manualLayer "" "<bare>") (.ends _) fun _ => .ends _
  have hrun : ((emptyTitle []).run manualWorld).2.journal.records.map Record.subject = ["<bare>"] ∧
      ((emptyTitle [manualLayer]).run manualWorld).2.journal.records.map Record.subject =
        ["", "<function  at 0x0>"] ∧
      ((Bench.clock manualClock).read ((emptyTitle []).run manualWorld).2.setting.bench).1 = .ok 0 := by
    decide +kernel
  obtain ⟨hbare, hwrapped, hlast⟩ := hrun
  refine ⟨hdressed, atRest_manualWorld, ?_, ?_, fun extra hpadded => ?_⟩
  · intro op r hop
    change _ ∈ (Chronicle.closed _ manualClock _).heard ++ [.measured _ _ _] ++ [] at hop
    rw [Chronicle.closed_heard] at hop
    cases List.mem_singleton.mp hop
  · rintro l b _ hb rfl
    change _ ∈ (Chronicle.closed _ manualClock _).calls ++ [(_, manualWorld.setting.bench)] ++ [] at hb
    rw [Chronicle.closed_calls] at hb
    cases List.mem_singleton.mp hb
    exact ⟨Bench.rises_addClock {} "clock" (t := .manual {}) trivial, 0, 0, _, rfl, hlast,
      Elapsed.text_zero⟩
  · obtain ⟨bare, hmem, hsubject⟩ := List.mem_map.mp (hbare ▸ List.mem_singleton_self "<bare>")
    obtain ⟨r, hr, rfl⟩ := exists_same_of_woven hpadded.records bare hmem
    have hlost := List.mem_map_of_mem (f := Record.subject) hr
    rw [hwrapped, hsubject] at hlost
    exact absurd hlost (by decide)

end Script
end Chronograph
