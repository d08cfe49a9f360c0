import Mathlib
import Chronograph.Proofs.Script.Plan
import Chronograph.Proofs.Script.Shift

set_option autoImplicit false

/-!
# Only differences of readings matter

A plan that is not told its readings cannot tell by how much its clocks are shifted,
each by an amount of its own: it ends the same, is answered the same but for readings,
and leaves the same records. A measurement reads its clock twice and gives only the
difference.
-/
namespace Chronograph.Script
open Measurement
variable {M α V : Type} {δ η : Shift} {w v : World (Stage M)}

/-- The same event, except for what a reading was answered and what a clock was made to show. -/
inductive Event.Shifted : Event V → Event V → Prop
  | same (e : Event V) : Shifted e e
  | operated {op op' : Operation} (hop : op.Shifted op') {r s : Except Raised Reply}
    (h : op.Answered r s) : Shifted (.operated op r) (.operated op' s)

/-- The same plan, except that its clocks may be made to show other readings. It goes
    on the same way whatever a reading is answered. -/
inductive Plan.Shifted : Plan M V → Plan M V → Prop
  | ends (outcome : Except Raised V) : Shifted (.ends outcome) (.ends outcome)
  | occur (e : Fault) {next next' : Failure → Plan M V} (h : ∀ f, Shifted (next f) (next' f)) :
    Shifted (.occur e next) (.occur e next')
  | operate {op op' : Operation} (hop : op.Shifted op') {next next' : Except Raised Reply → Plan M V}
    (h : ∀ r s, op.Answered r s → Shifted (next r) (next' s)) :
    Shifted (.operate op next) (.operate op' next')
  | during (watch : String) {body body' : Plan M V} {next next' : Except Raised V → Plan M V}
    (hbody : Shifted body body') (h : ∀ r, Shifted (next r) (next' r)) :
    Shifted (.during watch body next) (.during watch body' next')
  | call (label : Label) {body body' : Plan M V} {next next' : Except Raised V → Plan M V}
    (hbody : Shifted body body') (h : ∀ r, Shifted (next r) (next' r)) :
    Shifted (.call label body next) (.call label body' next')
  | measure (method : Method) (clock : ClockId) (label : Label) {body body' : Plan M V}
    {next next' : Except Raised (Reported V) → Plan M V} (hbody : Shifted body body')
    (h : ∀ r, Shifted (next r) (next' r)) :
    Shifted (.measure method clock label body next) (.measure method clock label body' next')
  | setLevel (logger : Logger) (level : Int) {next next' : Plan M V} (h : Shifted next next') :
    Shifted (.setLevel logger level next) (.setLevel logger level next')
  | mention (logger : Logger) {next next' : Plan M V} (h : Shifted next next') :
    Shifted (.mention logger next) (.mention logger next')
  | find (name : Option String) {next next' : Option ClockId → Plan M V}
    (h : ∀ k, Shifted (next k) (next' k)) : Shifted (.find name next) (.find name next')
  | revise (change : M → M) {next next' : M → Plan M V} (h : ∀ m, Shifted (next m) (next' m)) :
    Shifted (.revise change next) (.revise change next')

abbrev World.Shifted (δ : Shift) : World (Stage M) → World (Stage M) → Prop :=
  World.Alike (Stage.Like (Bench.Shifted δ)) Eq

/-- Two runs end the same, and leave worlds that are shifted as before. -/
structure Ran (δ : Shift) (x y : Except Raised α × World (Stage M)) : Prop where
  ending : x.1 = y.1
  left : ∃ η, δ.Kept η ∧ World.Shifted η x.2 y.2

theorem ran_of_paired {x y : Except Raised α × World (Stage M)} (h : Paired (World.Shifted δ) x y) :
    Ran δ x y :=
  ⟨h.1, δ, Shift.kept_refl δ, h.2⟩

theorem ran_of_kept {x y : Except Raised α × World (Stage M)} (hkept : δ.Kept η) (h : Ran η x y) :
    Ran δ x y := by
  obtain ⟨hend, ε, hkept', hleft⟩ := h
  exact ⟨hend, ε, Shift.kept_trans hkept hkept', hleft⟩

def Heard (c d : Chronicle V) : Prop := List.Forall₂ Event.Shifted c.heard d.heard

structure Scene.Shifted (s s' : Scene M V) : Prop where
  title : s.routine.title = s'.routine.title
  description : s.routine.description = s'.routine.description
  ran : ∀ δ w v, World.Shifted δ w v → Ran δ (s.routine.run w) (s'.routine.run v)
  heard : ∀ δ w v, World.Shifted δ w v → Heard (s.chronicle w) (s'.chronicle v)

theorem shifted_after (h : World.Shifted δ w v) (k : ClockId) :
    (∃ d first, δ.clocks k = some d ∧ ((Stage.clock k).read w.setting).1 = .ok first ∧
        ((Stage.clock k).read v.setting).1 = .ok (first + d) ∧
        World.Shifted δ ((Stage.clock k).after w) ((Stage.clock k).after v)) ∨
      ∃ e, ((Stage.clock k).read w.setting).1 = .error e ∧
        ((Stage.clock k).read v.setting).1 = .error e ∧
        World.Shifted δ ((Stage.clock k).after w) ((Stage.clock k).after v) := by
  cases hk : δ.clocks k with
  | some d =>
    obtain ⟨first, a, b, ha, hb, hleft⟩ := Bench.clock_shifts hk _ _ h.setting.bench
    refine Or.inl ⟨d, first, rfl, congrArg Prod.fst ha, congrArg Prod.fst hb, ⟨?_, h.setting.memory⟩,
      h.journal, h.raised⟩
    change Bench.Shifted δ ((Bench.clock k).read w.setting.bench).2 ((Bench.clock k).read v.setting.bench).2
    rwa [ha, hb]
  | none =>
    obtain ⟨ha, hb⟩ := h.setting.bench.absent k hk
    have hw := Bench.read_of_absent ha
    have hv := Bench.read_of_absent hb
    refine Or.inr ⟨.unknownName, congrArg Prod.fst hw, congrArg Prod.fst hv, ⟨?_, h.setting.memory⟩,
      h.journal, h.raised⟩
    change Bench.Shifted δ ((Bench.clock k).read w.setting.bench).2 ((Bench.clock k).read v.setting.bench).2
    rw [hw, hv]
    exact h.setting.bench

namespace Scene
variable {s s' : Scene M V} {k : ClockId}

/-- What runs a scene between two readings of a clock ends the same: both readings
    are shifted by the same amount. -/
theorem ran_bracketed (h : s.Shifted s') (hw : World.Shifted δ w v) {t t' : Task (Stage M) α}
    {close : ℤ → Except Raised V → World (Stage M) → World (Stage M) → Except Raised α × World (Stage M)}
    (ht : Brackets (Stage.clock k) s.routine close t)
    (ht' : Brackets (Stage.clock k) s'.routine close t')
    (hclose : ∀ η n ending x x' y y', World.Shifted η x x' → World.Shifted η y y' →
      Paired (World.Shifted η) (close n ending x y) (close n ending x' y')) : Ran δ (t w) (t' v) := by
  rcases shifted_after hw k with ⟨d, first, hd, hstart, hstart', hafter⟩ | ⟨e, hstart, hstart', hafter⟩
  · obtain ⟨hend, η, hkept, hleft⟩ := h.ran δ _ _ hafter
    rcases shifted_after hleft k with ⟨d', last, hd', hlast, hlast', hlater⟩ | ⟨e, hlast, _, _⟩
    · cases (hkept.clocks k d hd).symm.trans hd'
      have hrun := ht.eq w first last _ _ hstart rfl hlast
      have hrun' := ht'.eq v (first + d) (last + d) _ _ hstart' rfl hlast'
      rw [hrun, hrun', add_sub_add_right_eq_sub, ← hend]
      exact ran_of_kept hkept (ran_of_paired (hclose η _ _ _ _ _ _ hleft hlater))
    · obtain ⟨last, _, _, hread, _⟩ := Bench.clock_shifts (hkept.clocks k d hd) _ _ hleft.setting.bench
      cases (congrArg Prod.fst hread).symm.trans hlast
  · rw [ht.unread w e hstart, ht'.unread v e hstart']
    exact ran_of_paired (Task.agree_fail e _ _ hafter)

theorem heard_started (h : s.Shifted s') (hw : World.Shifted δ w v) (k : ClockId) :
    Heard (s.started k w) (s'.started k v) := by
  unfold started Chronicle.after
  rcases shifted_after hw k with ⟨d, first, hd, hstart, hstart', hafter⟩ | ⟨e, hstart, hstart', hafter⟩
  · rw [started_eq hstart, started_eq hstart']
    exact h.heard δ _ _ hafter
  · rw [started_failed hstart, started_failed hstart']
    exact .nil

theorem heard_measured (h : s.Shifted s') (hw : World.Shifted δ w v) (m : Method) (k : ClockId) :
    Heard (s.measured m k w) (s'.measured m k v) := by
  unfold measured Heard
  rw [Chronicle.closed_heard, Chronicle.closed_heard]
  exact heard_started h hw k

theorem shifted_logged (h : s.Shifted s') (layer : Layer) : (s.logged layer).Shifted (s'.logged layer) := by
  refine ⟨?_, ?_, fun δ w v hw => ?_, fun δ w v hw => ?_⟩
  · simp only [logged, addLayer, Routine.logged_title, h.title]
  · simp only [logged, addLayer, Routine.logged_description, h.title]
  · have hlogged := brackets_logged (Stage.clock layer.clock) s'.routine layer.entry layer.address
    rw [← h.title] at hlogged
    exact ran_bracketed h hw (brackets_logged _ _ layer.entry _) hlogged fun η n ending x x' y y' =>
      paired_finishLogged Journal.congruent_eq layer.entry _ n ending
  · unfold logged
    dsimp only
    rw [← h.title]
    split
    · exact heard_measured h hw .captured layer.clock
    · exact heard_started h hw layer.clock

theorem ran_measured (h : s.Shifted s') (hw : World.Shifted δ w v) (m : Method) (k : ClockId) :
    Ran δ (m.measure s.routine (Stage.clock k) w) (m.measure s'.routine (Stage.clock k) v) := by
  have hname : s.routine.name = s'.routine.name := by
    unfold Routine.name
    rw [h.title, h.description]
  have hmeasured := brackets_measure (Stage.clock k) s'.routine m
  rw [← hname] at hmeasured
  exact ran_bracketed h hw (brackets_measure _ _ m) hmeasured fun η n ending x x' y y' =>
    paired_finish Journal.congruent_eq m _ n ending

theorem shifted_label (l : Label) {run run' : Task (Stage M) V}
    {chronicle chronicle' : World (Stage M) → Chronicle V}
    (h : ∀ δ w v, World.Shifted δ w v → Ran δ (run w) (run' v) ∧ Heard (chronicle w) (chronicle' v)) :
    (l.scene run chronicle).Shifted (l.scene run' chronicle') :=
  List.foldl_rel (r := Scene.Shifted)
    ⟨rfl, rfl, fun δ w v hw => (h δ w v hw).1, fun δ w v hw => (h δ w v hw).2⟩
    fun layer _ _ _ hs => shifted_logged hs layer

end Scene

theorem shifted_during (watch : String) {body body' : Task (Stage M) V}
    {chronicle chronicle' : World (Stage M) → Chronicle V}
    (h : ∀ δ w v, World.Shifted δ w v → Ran δ (body w) (body' v) ∧ Heard (chronicle w) (chronicle' v))
    (hw : World.Shifted δ w v) :
    Ran δ (Stage.during watch body w) (Stage.during watch body' v) ∧
      Heard (Chronicle.after (Stage.enter watch) chronicle w)
        (Chronicle.after (Stage.enter watch) chronicle' v) := by
  unfold Chronicle.after
  rcases Bench.shifted_held? hw.setting.bench watch with ⟨ha, hb⟩ | ⟨place, k, hplace, ha, hb⟩
  · have hentered : Stage.enter watch w = Task.fail .unknownName w :=
      Task.bind_error _ (Stage.watchNamed_of_none ha)
    have hentered' : Stage.enter watch v = Task.fail .unknownName v :=
      Task.bind_error _ (Stage.watchNamed_of_none hb)
    rw [Stage.during_of_unentered body hentered, Stage.during_of_unentered body' hentered', hentered,
      hentered']
    exact ⟨ran_of_paired (Task.agree_fail _ _ _ hw), .nil⟩
  · have hentered : Stage.enter watch w = Task.act (Stage.held (Bench.held place k)).start w :=
      Task.bind_ok _ (Stage.watchNamed_of_held ha)
    have hentered' : Stage.enter watch v = Task.act (Stage.held (Bench.held place k)).start v :=
      Task.bind_ok _ (Stage.watchNamed_of_held hb)
    rw [hentered, hentered']
    have hagrees := Stage.held_agrees (M := M) (Bench.held_agrees hplace)
    obtain ⟨hend, hleft⟩ := Task.agree_act (J := Eq) hagrees.start w v hw
    rcases hs : Task.act (Stage.held (Bench.held place k)).start w with ⟨e | _, x⟩ <;>
      rcases hs' : Task.act (Stage.held (Bench.held place k)).start v with ⟨e' | _, y⟩ <;>
      rw [hs, hs'] at hend hleft <;> cases hend
    · rw [Stage.during_of_unentered body (hentered.trans hs),
        Stage.during_of_unentered body' (hentered'.trans hs')]
      exact ⟨ran_of_paired ⟨rfl, hleft⟩, .nil⟩
    · obtain ⟨⟨hend, η, hkept, hleft⟩, hheard⟩ := h δ x y hleft
      have hagrees := Stage.held_agrees (M := M) (Bench.held_agrees (hkept.watches place k hplace))
      have hleave := Held.agree_leave (J := Eq) hagrees
      rw [Stage.during_of_entered body ha hs, Stage.during_of_entered body' hb hs', ← hend]
      exact ⟨ran_of_kept hkept (ran_of_paired
        (Task.agree_bind hleave (fun _ => Task.agree_settle _) _ _ hleft)), hheard⟩

theorem exists_answered (hw : World.Shifted δ w v) {op op' : Operation} (hop : op.Shifted op') :
    ∃ η, δ.Kept η ∧ World.Shifted η (Task.act (Stage.onBench (·.perform op)) w).2
        (Task.act (Stage.onBench (·.perform op')) v).2 ∧
      op.Answered (Task.act (Stage.onBench (·.perform op)) w).1
        (Task.act (Stage.onBench (·.perform op')) v).1 := by
  obtain ⟨η, hkept, hleft, heq | ⟨hreading, m, n, hm, hn⟩⟩ :=
    Bench.exists_shifted_perform hw.setting.bench hop
  · obtain ⟨hend, hworld⟩ := Task.paired_act (S := Stage.Like (Bench.Shifted η)) (J := Eq)
      (f := Stage.onBench (·.perform op)) (g := Stage.onBench (·.perform op')) hw.journal hw.raised
      ⟨heq, hleft, hw.setting.memory⟩
    exact ⟨η, hkept, hworld, Or.inl hend⟩
  · refine ⟨η, hkept, ?_⟩
    have hact := Task.act_ok (f := Stage.onBench (·.perform op)) (Prod.ext hm rfl)
    have hact' := Task.act_ok (f := Stage.onBench (·.perform op')) (Prod.ext hn rfl)
    rw [hact, hact']
    exact ⟨⟨⟨hleft, hw.setting.memory⟩, hw.journal, hw.raised⟩, Or.inr ⟨hreading, m, n, rfl, rfl⟩⟩

namespace Plan
variable {p p' : Plan M V}

def Follows (p p' : Plan M V) : Prop := ∀ δ w v, World.Shifted δ w v →
  Ran δ (p.run w) (p'.run v) ∧ Heard (p.chronicle w) (p'.chronicle v)

theorem heard_append {c c' d d' : Chronicle V} (h : Heard c c') (h' : Heard d d') :
    Heard (c ++ d) (c' ++ d') :=
  List.rel_append h h'

theorem follows_resume {t t' : Task (Stage M) α} (h : Ran δ (t w) (t' v))
    {next next' : Except Raised α → Plan M V}
    (hnext : ∀ r, (next r).Follows (next' r)) :
    Ran δ (t.resume (fun r => (next r).run) w) (t'.resume (fun r => (next' r).run) v) ∧
      Heard ((next (t w).1).chronicle (t w).2) ((next' (t' v).1).chronicle (t' v).2) := by
  obtain ⟨hend, η, hkept, hleft⟩ := h
  unfold Task.resume
  rw [← hend]
  obtain ⟨hran, hheard⟩ := hnext _ η _ _ hleft
  exact ⟨ran_of_kept hkept hran, hheard⟩

theorem follows (h : p.Shifted p') : p.Follows p' := by
  induction h with
  | ends outcome => exact fun δ w v hw => ⟨ran_of_paired ⟨rfl, hw⟩, .nil⟩
  | occur e h ih =>
    intro δ w v hw
    have hfailure : (Task.occurrence e w).1 = (Task.occurrence e v).1 := by
      unfold Task.occurrence
      rw [hw.raised]
    obtain ⟨hran, hheard⟩ := ih (Task.occurrence e v).1 δ (Task.occurrence e w).2 (Task.occurrence e v).2
      ⟨hw.setting, hw.journal, congrArg (· + 1) hw.raised⟩
    unfold run chronicle
    rw [hfailure]
    exact ⟨hran, .cons (.same _) hheard⟩
  | operate hop h ih =>
    intro δ w v hw
    obtain ⟨η, hkept, hleft, hanswered⟩ := exists_answered hw hop
    obtain ⟨hran, hheard⟩ := ih _ _ hanswered η _ _ hleft
    exact ⟨ran_of_kept hkept hran, .cons (.operated hop hanswered) hheard⟩
  | during watch hbody h ihBody ih =>
    intro δ w v hw
    obtain ⟨hran, hinside⟩ := shifted_during watch ihBody hw
    obtain ⟨hnext, hheard⟩ := follows_resume hran ih
    refine ⟨hnext, heard_append (heard_append hinside (.cons ?_ .nil)) hheard⟩
    rw [hran.ending]
    exact .same _
  | call label hbody h ihBody ih =>
    intro δ w v hw
    have hscene := Scene.shifted_label label ihBody
    have hran := hscene.ran δ w v hw
    rw [Label.scene_routine, Label.scene_routine] at hran
    obtain ⟨hnext, hheard⟩ := follows_resume hran ih
    refine ⟨hnext, heard_append (heard_append (hscene.heard δ w v hw) (.cons ?_ .nil)) hheard⟩
    rw [hran.ending]
    exact .same _
  | measure method clock label hbody h ihBody ih =>
    intro δ w v hw
    have hscene := Scene.shifted_label label ihBody
    have hran := Scene.ran_measured hscene hw method clock
    rw [Label.scene_routine, Label.scene_routine] at hran
    obtain ⟨hnext, hheard⟩ := follows_resume hran ih
    refine ⟨hnext, heard_append (heard_append (Scene.heard_measured hscene hw method clock)
      (.cons ?_ .nil)) hheard⟩
    rw [hran.ending]
    exact .same _
  | setLevel logger level h ih =>
    exact fun δ w v hw => ih δ _ _ ⟨hw.setting, congrArg (·.setLevel logger level) hw.journal, hw.raised⟩
  | mention logger h ih =>
    exact fun δ w v hw => ih δ _ _ ⟨hw.setting, congrArg (·.mention logger) hw.journal, hw.raised⟩
  | find name h ih =>
    intro δ w v hw
    have hfound : w.setting.bench.clockId? name = v.setting.bench.clockId? name := by
      unfold Bench.clockId?
      rw [hw.setting.bench.clockVersions]
    obtain ⟨hran, hheard⟩ := ih (v.setting.bench.clockId? name) δ w v hw
    unfold run chronicle
    rw [hfound]
    exact ⟨hran, .cons (.same _) hheard⟩
  | revise change h ih =>
    intro δ w v hw
    have hleft : World.Shifted δ (Stage.revise change w).2 (Stage.revise change v).2 :=
      ⟨⟨hw.setting.bench, congrArg change hw.setting.memory⟩, hw.journal, hw.raised⟩
    unfold run chronicle
    rw [hw.setting.memory]
    exact ih v.setting.memory δ _ _ hleft

/-- A plan whose clocks are shifted, each by an amount of its own, ends the same, is
    answered the same but for readings, and leaves the same records. -/
theorem run_shifted (h : p.Shifted p') (hw : World.Shifted δ w v) :
    (p.run w).1 = (p'.run v).1 ∧
      List.Forall₂ Event.Shifted (p.chronicle w).heard (p'.chronicle v).heard ∧
        (p.run w).2.journal = (p'.run v).2.journal ∧ (p.run w).2.raised = (p'.run v).2.raised ∧
          ∃ η, δ.Kept η ∧ Stage.Like (Bench.Shifted η) (p.run w).2.setting (p'.run v).2.setting := by
  obtain ⟨⟨hend, η, hkept, hleft⟩, hheard⟩ := follows h δ w v hw
  exact ⟨hend, hheard, hleft.journal, hleft.raised, η, hkept, hleft.setting⟩

/-- A failing measurement on a clock that is made to show `start`, while a watch runs there. -/
def failingFrom (start : ℤ) : Plan Unit ℤ :=
  .operate (.makeClock "clock" start 2) fun _ =>
    .operate (.makeWatch "watch" (some "clock") true) fun _ =>
      .operate (.clock "clock" .read) fun _ =>
        .measure .valued (.named "clock" 0) { title := some "failing" }
          (.occur (.foreign "ValueError" "no") fun f => .ends (.error (.failure f)))
          fun _ => .operate (.watch "watch" (.query .nanos)) fun r => .ends (r.map fun
            | .count n => n
            | _ => 0)

def liveWorld (t : Timepiece) : World (Stage Unit) where
  setting := { bench := Bench.opened t, memory := () }

theorem run_shifted_failingFrom :
    ∃ δ, World.Shifted δ (liveWorld live) (liveWorld (live.shift 1000)) ∧
      (failingFrom 5).Shifted (failingFrom (5 + 70)) ∧
        ((failingFrom (5 + 70)).run (liveWorld (live.shift 1000))).1 =
            ((failingFrom 5).run (liveWorld live)).1 ∧
          ((failingFrom 5).run (liveWorld live)).1 = .ok 6 := by
  have hplan : (failingFrom 5).Shifted (failingFrom (5 + 70)) := by
    refine .operate (.makeClock "clock" 5 2 70) fun _ _ _ => ?_
    refine .operate (.makeWatch "watch" (some "clock") true) fun _ _ _ => ?_
    refine .operate (.clock "clock" .read) fun _ _ _ => ?_
    refine .measure .valued _ _ (.occur _ fun f => .ends _) fun _ => ?_
    refine .operate (.ask (.watch "watch" (.query .nanos)) nofun) fun r s h => ?_
    obtain rfl | ⟨⟨_, h⟩, _⟩ := h
    · exact .ends _
    · cases h
  have hworld : World.Shifted (Shift.opened 1000) (liveWorld live) (liveWorld (live.shift 1000)) :=
    ⟨⟨Bench.shifted_opened (t := live) trivial 1000, rfl⟩, rfl, rfl⟩
  exact ⟨_, hworld, hplan, (run_shifted hplan hworld).1.symm, by cbv⟩

end Plan
end Chronograph.Script
