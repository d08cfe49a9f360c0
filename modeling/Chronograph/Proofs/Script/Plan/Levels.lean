import Mathlib
import Chronograph.Proofs.Script.Plan.Course
import Chronograph.Proofs.Script.Plan.Transparent

set_option autoImplicit false

/-!
# Levels do not show

The levels of loggers decide which records are kept, and nothing else. Two runs of a
plan, each with levels of its own, end the same, are answered the same, do the same
to the bench and make up the same records, so what fails while a record is made up
fails in both. Of these records a journal keeps those of a positive level that
reaches the threshold which is in force at that moment.
-/
namespace Chronograph.Script
open Measurement
variable {M α V : Type}

/-- The same plan, except that levels may be set in one that are not set in the other. -/
inductive Plan.Relevelled : Plan M V → Plan M V → Prop
  | ends (outcome : Except Raised V) : Relevelled (.ends outcome) (.ends outcome)
  | occur (e : Fault) {next next' : Failure → Plan M V} (h : ∀ f, Relevelled (next f) (next' f)) :
    Relevelled (.occur e next) (.occur e next')
  | operate (op : Operation) {next next' : Except Raised Reply → Plan M V}
    (h : ∀ r, Relevelled (next r) (next' r)) : Relevelled (.operate op next) (.operate op next')
  | during (watch : String) {body body' : Plan M V} {next next' : Except Raised V → Plan M V}
    (hbody : Relevelled body body') (h : ∀ r, Relevelled (next r) (next' r)) :
    Relevelled (.during watch body next) (.during watch body' next')
  | call (label : Label) {body body' : Plan M V} {next next' : Except Raised V → Plan M V}
    (hbody : Relevelled body body') (h : ∀ r, Relevelled (next r) (next' r)) :
    Relevelled (.call label body next) (.call label body' next')
  | measure (method : Method) (clock : ClockId) (label : Label) {body body' : Plan M V}
    {next next' : Except Raised (Reported V) → Plan M V} (hbody : Relevelled body body')
    (h : ∀ r, Relevelled (next r) (next' r)) :
    Relevelled (.measure method clock label body next) (.measure method clock label body' next')
  | mention (logger : Logger) {next next' : Plan M V} (h : Relevelled next next') :
    Relevelled (.mention logger next) (.mention logger next')
  | find (name : Option String) {next next' : Option ClockId → Plan M V}
    (h : ∀ k, Relevelled (next k) (next' k)) : Relevelled (.find name next) (.find name next')
  | revise (change : M → M) {next next' : M → Plan M V} (h : ∀ m, Relevelled (next m) (next' m)) :
    Relevelled (.revise change next) (.revise change next')
  | left (logger : Logger) (level : Int) {p p' : Plan M V} (h : Relevelled p p') :
    Relevelled (.setLevel logger level p) p'
  | right (logger : Logger) (level : Int) {p p' : Plan M V} (h : Relevelled p p') :
    Relevelled p (.setLevel logger level p')

/-- The same world, whatever its levels are and whatever was kept so far. -/
abbrev World.Beside : World (Stage M) → World (Stage M) → Prop := World.Alike Eq fun _ _ => True

theorem congruent_beside : Journal.Congruent fun _ _ => True :=
  ⟨fun _ _ _ _ => trivial, fun _ _ _ _ => trivial, fun _ _ _ _ _ => trivial⟩

namespace Act

def setsLevel : Act V → Bool
  | .setLevel _ _ => true
  | _ => false

def record? : Act V → Option Record
  | .finish round => round.record?
  | _ => none

end Act

def unlevelled (acts : List (Act V)) : List (Act V) := acts.filter fun act => !act.setsLevel

theorem unlevelled_append (acts later : List (Act V)) :
    unlevelled (acts ++ later) = unlevelled acts ++ unlevelled later :=
  List.filter_append ..

theorem unlevelled_records (acts : List (Act V)) :
    (unlevelled acts).filterMap Act.record? = acts.filterMap Act.record? := by
  unfold unlevelled
  rw [List.filterMap_filter]
  refine List.filterMap_congr fun act _ => ?_
  cases act <;> rfl

structure Scene.InStep (s s' : Scene M V) : Prop where
  routine : s.routine.Agree Eq (fun _ _ => True) s'.routine
  chronicle : ∀ w v, World.Beside w v → s.chronicle w = s'.chronicle v

structure Episode.InStep (s s' : Episode M V) : Prop where
  routine : s.routine.Agree Eq (fun _ _ => True) s'.routine
  course : ∀ w v, World.Beside w v → unlevelled (s.course w) = unlevelled (s'.course v)

section
variable {w v : World (Stage M)} {t t' : Task (Stage M) α}

theorem chronicle_after {c c' : World (Stage M) → Chronicle V} (ht : t.Agree Eq (fun _ _ => True) t')
    (hc : ∀ w v, World.Beside w v → c w = c' v) (hwv : World.Beside w v) :
    Chronicle.after t c w = Chronicle.after t' c' v := by
  obtain ⟨hend, hleft⟩ := ht w v hwv
  unfold Chronicle.after
  rcases hw : t w with ⟨e | a, x⟩ <;> rcases hv : t' v with ⟨e' | a', y⟩ <;>
    rw [hw, hv] at hend hleft <;> cases hend
  exact hc x y hleft

namespace Scene
variable {s s' : Scene M V}

theorem started_beside (h : s.InStep s') (hwv : World.Beside w v) (k : ClockId) :
    s.started k w = s'.started k v :=
  chronicle_after (agree_started (Clock.agrees_eq _)) h.chronicle hwv

theorem measured_beside (h : s.InStep s') (hwv : World.Beside w v) (m : Method) (k : ClockId) :
    s.measured m k w = s'.measured m k v := by
  have hmeasured := agree_measure congruent_beside (Clock.agrees_eq (Stage.clock k)) m h.routine w v hwv
  unfold measured
  rw [started_beside h hwv, hmeasured.1]

theorem inStep_logged (h : s.InStep s') (layer : Layer) :
    (s.logged layer).InStep (s'.logged layer) := by
  refine ⟨h.routine.logged congruent_beside (Clock.agrees_eq _) layer.entry layer.address,
    fun w v hwv => ?_⟩
  unfold logged
  dsimp only
  rw [← h.routine.title]
  split
  · exact measured_beside h hwv .captured layer.clock
  · exact started_beside h hwv layer.clock

theorem inStep_label (l : Label) {run run' : Task (Stage M) V}
    {chronicle chronicle' : World (Stage M) → Chronicle V}
    (hrun : run.Agree Eq (fun _ _ => True) run')
    (h : ∀ w v, World.Beside w v → chronicle w = chronicle' v) :
    (l.scene run chronicle).InStep (l.scene run' chronicle') :=
  List.foldl_rel (r := Scene.InStep) ⟨⟨rfl, rfl, hrun⟩, h⟩ fun layer _ _ _ hs => inStep_logged hs layer

end Scene

namespace Episode
variable {s s' : Episode M V}

theorem around_beside (h : s.InStep s') (hwv : World.Beside w v) (k : ClockId) (caller : Caller)
    (given : Given) :
    unlevelled (s.around k caller given w) = unlevelled (s'.around k caller given v) := by
  have hafter : World.Beside ((Stage.clock k).after w) ((Stage.clock k).after v) := by
    refine ⟨?_, trivial, hwv.raised⟩
    unfold Clock.after
    rw [hwv.setting]
  obtain ⟨hend, hleft⟩ := h.routine.run _ _ hafter
  -- The rounds are the same as well: both readings and the ending are.
  refine congrArg (List.cons _) ?_
  rw [← hwv.setting]
  cases ((Stage.clock k).read w.setting).1 with
  | error e => rfl
  | ok first =>
    dsimp only
    rw [← hend, ← hleft.setting]
    change unlevelled (s.course _ ++ _) = unlevelled (s'.course _ ++ _)
    rw [unlevelled_append, unlevelled_append, h.course _ _ hafter]

theorem measured_beside (h : s.InStep s') (hwv : World.Beside w v) (m : Method) (k : ClockId) :
    unlevelled (s.measured m k w) = unlevelled (s'.measured m k v) := by
  have hmeasured := agree_measure congruent_beside (Clock.agrees_eq (Stage.clock k)) m h.routine w v hwv
  unfold measured
  rw [← hmeasured.1, ← h.routine.name]
  exact around_beside h hwv k _ _

theorem inStep_logged (h : s.InStep s') (layer : Layer) :
    (s.logged layer).InStep (s'.logged layer) := by
  have hlogged := h.routine.logged congruent_beside (Clock.agrees_eq (Stage.clock layer.clock)) layer.entry
    layer.address
  refine ⟨hlogged, fun w v hwv => ?_⟩
  have hend : ((addLayer s.routine layer).run w).1 = ((addLayer s'.routine layer).run v).1 :=
    (hlogged.run w v hwv).1
  unfold logged
  dsimp only
  rw [← hend, ← h.routine.title]
  exact around_beside h hwv layer.clock _ _

theorem inStep_label (l : Label) {run run' : Task (Stage M) V}
    {course course' : World (Stage M) → List (Act V)}
    (hrun : run.Agree Eq (fun _ _ => True) run')
    (h : ∀ w v, World.Beside w v → unlevelled (course w) = unlevelled (course' v)) :
    (l.episode run course).InStep (l.episode run' course') :=
  List.foldl_rel (r := Episode.InStep) ⟨⟨rfl, rfl, hrun⟩, h⟩ fun layer _ _ _ hs => inStep_logged hs layer

end Episode

theorem within_beside (watch : String) {course course' : World (Stage M) → List (Act V)}
    (hwv : World.Beside w v)
    (h : ∀ w v, World.Beside w v → unlevelled (course w) = unlevelled (course' v)) :
    unlevelled (Stage.within watch course w) = unlevelled (Stage.within watch course' v) := by
  obtain ⟨hend, hleft⟩ := Stage.agree_enter (fun _ _ => True) watch w v hwv
  refine congrArg (List.cons _) ?_
  rw [← hwv.setting]
  rcases hw : Stage.enter watch w with ⟨e | _, x⟩ <;> rcases hv : Stage.enter watch v with ⟨e' | _, y⟩ <;>
    rw [hw, hv] at hend hleft <;> cases hend
  cases w.setting.bench.place? watch with
  | none => rfl
  | some p =>
    change unlevelled (course x ++ _) = unlevelled (course' y ++ _)
    rw [unlevelled_append, unlevelled_append, h x y hleft]

theorem agree_during (watch : String) {body body' : Task (Stage M) V}
    (h : body.Agree Eq (fun _ _ => True) body') :
    (Stage.during watch body).Agree Eq (fun _ _ => True) (Stage.during watch body') :=
  Task.agree_bind (Task.agree_act (by rintro a _ rfl; exact ⟨rfl, rfl⟩)) fun held =>
    Held.agree_during held.agrees_eq h

/-- Two runs end the same and leave the same, up to the journal, and in both the same
    happens and the same is done. -/
structure Abreast (x y : Except Raised α × World (Stage M)) (c d : Chronicle V) (acts acts' : List (Act V)) :
    Prop where
  paired : Paired World.Beside x y
  chronicle : c = d
  course : unlevelled acts = unlevelled acts'

theorem abreast_resume {c c' : Chronicle V} {acts acts' : List (Act V)}
    {next next' : Except Raised α → Plan M V} (h : Abreast (t w) (t' v) c c' acts acts')
    (hnext : ∀ r w v, World.Beside w v → Abreast ((next r).run w) ((next' r).run v)
      ((next r).chronicle w) ((next' r).chronicle v) ((next r).course w) ((next' r).course v)) :
    Abreast (t.resume (fun r => (next r).run) w) (t'.resume (fun r => (next' r).run) v)
      (c ++ (next (t w).1).chronicle (t w).2) (c' ++ (next' (t' v).1).chronicle (t' v).2)
      (acts ++ (next (t w).1).course (t w).2) (acts' ++ (next' (t' v).1).course (t' v).2) := by
  obtain ⟨⟨hend, hleft⟩, rfl, hcourse⟩ := h
  unfold Task.resume
  rw [← hend]
  obtain ⟨hpaired, hchronicle, hlater⟩ := hnext (t w).1 _ _ hleft
  refine ⟨hpaired, congrArg (c ++ ·) hchronicle, ?_⟩
  rw [unlevelled_append, unlevelled_append, hcourse, hlater]

theorem Plan.abreast {p p' : Plan M V} (h : p.Relevelled p') :
    ∀ w v, World.Beside w v → Abreast (p.run w) (p'.run v) (p.chronicle w) (p'.chronicle v)
      (p.course w) (p'.course v) := by
  induction h with
  | ends outcome => exact fun w v hwv => ⟨⟨rfl, hwv⟩, rfl, rfl⟩
  | @occur e next next' h ih =>
    intro w v hwv
    have hfailure : (Task.occurrence e w).1 = (Task.occurrence e v).1 := by
      unfold Task.occurrence
      rw [hwv.raised]
    obtain ⟨hpaired, hchronicle, hcourse⟩ := ih (Task.occurrence e w).1 (Task.occurrence e w).2
      (Task.occurrence e v).2 ⟨hwv.setting, trivial, congrArg (· + 1) hwv.raised⟩
    unfold run chronicle course
    rw [← hfailure]
    exact ⟨hpaired, congrArg (Chronicle.told _ ++ ·) hchronicle, hcourse⟩
  | operate op h ih =>
    intro w v hwv
    have hpaired := Task.agree_act (S := Eq) (J := fun _ _ => True)
      (f := Stage.onBench (·.perform op)) (g := Stage.onBench (·.perform op))
      (by rintro a _ rfl; exact ⟨rfl, rfl⟩) w v hwv
    have hstep : Abreast (Task.act (Stage.onBench (·.perform op)) w)
        (Task.act (Stage.onBench (·.perform op)) v)
        (.told (.operated op (Task.act (Stage.onBench (·.perform op)) w).1))
        (.told (.operated op (Task.act (Stage.onBench (·.perform op)) v).1))
        [(.operate op : Act V)] [.operate op] :=
      ⟨hpaired, by rw [hpaired.1], rfl⟩
    exact abreast_resume hstep ih
  | during watch hbody h ihBody ih =>
    intro w v hwv
    have hagree : Task.Agree Eq (fun _ _ => True) _ _ := fun w v hwv => (ihBody w v hwv).paired
    have hpaired := agree_during watch hagree w v hwv
    refine abreast_resume ⟨hpaired, ?_, within_beside watch hwv fun w v hwv => (ihBody w v hwv).course⟩ ih
    rw [hpaired.1, chronicle_after (Stage.agree_enter _ watch)
      (fun w v hwv => (ihBody w v hwv).chronicle) hwv]
  | call label hbody h ihBody ih =>
    intro w v hwv
    have hagree : Task.Agree Eq (fun _ _ => True) _ _ := fun w v hwv => (ihBody w v hwv).paired
    have hscene := Scene.inStep_label label hagree fun w v hwv => (ihBody w v hwv).chronicle
    have hepisode := Episode.inStep_label label hagree fun w v hwv => (ihBody w v hwv).course
    have hpaired := hscene.routine.run w v hwv
    rw [Label.scene_routine, Label.scene_routine] at hpaired
    refine abreast_resume ⟨hpaired, ?_, hepisode.course w v hwv⟩ ih
    rw [hpaired.1, hscene.chronicle w v hwv, hwv.setting]
  | measure method clock label hbody h ihBody ih =>
    intro w v hwv
    have hagree : Task.Agree Eq (fun _ _ => True) _ _ := fun w v hwv => (ihBody w v hwv).paired
    have hscene := Scene.inStep_label label hagree fun w v hwv => (ihBody w v hwv).chronicle
    have hepisode := Episode.inStep_label label hagree fun w v hwv => (ihBody w v hwv).course
    have hpaired := agree_measure congruent_beside (Clock.agrees_eq (Stage.clock clock)) method
      hscene.routine w v hwv
    rw [Label.scene_routine, Label.scene_routine] at hpaired
    refine abreast_resume ⟨hpaired, ?_, Episode.measured_beside hepisode hwv method clock⟩ ih
    rw [hpaired.1, Scene.measured_beside hscene hwv method clock, hwv.setting]
  | mention logger h ih =>
    intro w v hwv
    obtain ⟨hpaired, hchronicle, hcourse⟩ := ih { w with journal := w.journal.mention logger }
      { v with journal := v.journal.mention logger } ⟨hwv.setting, trivial, hwv.raised⟩
    exact ⟨hpaired, hchronicle, congrArg (List.cons _) hcourse⟩
  | find name h ih =>
    intro w v hwv
    obtain ⟨hpaired, hchronicle, hcourse⟩ := ih (w.setting.bench.clockId? name) w v hwv
    unfold run chronicle course
    rw [← hwv.setting]
    exact ⟨hpaired, congrArg (Chronicle.told _ ++ ·) hchronicle, hcourse⟩
  | revise change h ih =>
    intro w v hwv
    have hrevised : World.Beside (Stage.revise change w).2 (Stage.revise change v).2 :=
      ⟨congrArg (fun s => (⟨s.bench, change s.memory⟩ : Stage M)) hwv.setting, trivial, hwv.raised⟩
    have hnext := ih w.setting.memory _ _ hrevised
    unfold run chronicle course
    rwa [← hwv.setting]
  -- A level that is set on one side changes the journal there, and journals are not compared.
  | left logger level h ih =>
    intro w v hwv
    obtain ⟨hpaired, hchronicle, hcourse⟩ := ih { w with journal := w.journal.setLevel logger level } v
      ⟨hwv.setting, trivial, hwv.raised⟩
    exact ⟨hpaired, hchronicle, hcourse⟩
  | right logger level h ih =>
    intro w v hwv
    obtain ⟨hpaired, hchronicle, hcourse⟩ := ih w { v with journal := v.journal.setLevel logger level }
      ⟨hwv.setting, trivial, hwv.raised⟩
    exact ⟨hpaired, hchronicle, hcourse⟩

end

/-- The records that are made up, each with the threshold in force for its logger. -/
def offered (j : Journal) : List (Act V) → List (Record × ℤ)
  | [] => []
  | act :: rest =>
    (act.record?.map fun r => (r, j.threshold r.logger)).toList ++ offered (act.note j) rest

def reaches (offer : Record × ℤ) : Bool := 0 < offer.1.level && offer.2 ≤ offer.1.level

theorem offered_records (j : Journal) (acts : List (Act V)) :
    (offered j acts).map Prod.fst = acts.filterMap Act.record? := by
  induction acts generalizing j with
  | nil => rfl
  | cons act rest ih =>
    unfold offered
    rw [List.map_append, ih, List.filterMap_cons]
    cases act.record? <;> rfl

theorem note_records (act : Act V) (j : Journal) : (act.note j).records = j.records ++
    ((act.record?.map fun r => (r, j.threshold r.logger)).toList.filter reaches).map Prod.fst := by
  cases act with
  | finish round =>
    change (j.receive round.record?).records = j.records ++
      ((round.record?.map fun r => (r, j.threshold r.logger)).toList.filter reaches).map Prod.fst
    cases round.record? with
    | none => exact (List.append_nil _).symm
    | some r =>
      refine (Journal.add_records j r).trans (congrArg (j.records ++ ·) ?_)
      have hreaches : reaches (r, j.threshold r.logger) = j.keeps r := rfl
      simp only [Option.map_some, Option.toList_some, List.filter_cons, hreaches, List.filter_nil]
      split <;> rfl
  | mention logger =>
    exact (Journal.mention_records j logger).trans (List.append_nil _).symm
  | read _ | operate _ | enter _ | leave _ _ | setLevel _ _ => exact (List.append_nil _).symm

theorem foldl_note_records (acts : List (Act V)) (j : Journal) : (acts.foldl Act.note j).records =
    j.records ++ ((offered j acts).filter reaches).map Prod.fst := by
  induction acts generalizing j with
  | nil => exact (List.append_nil _).symm
  | cons act rest ih =>
    unfold offered
    rw [List.foldl_cons, ih, note_records, List.filter_append, List.map_append, List.append_assoc]

/-- Levels show in the journal alone: two runs of a plan at different levels end the
    same, in both the same happens and the same is done, and the same records are made
    up. Each journal keeps those that reach the threshold in force. -/
theorem Plan.run_relevelled {p p' : Plan M V} (h : p.Relevelled p') {w v : World (Stage M)}
    (hsetting : w.setting = v.setting) (hraised : w.raised = v.raised) :
    ((p'.run v).1 = (p.run w).1 ∧ p'.chronicle v = p.chronicle w ∧
      (p'.run v).2.setting = (p.run w).2.setting ∧ (p'.run v).2.raised = (p.run w).2.raised ∧
        unlevelled (p'.course v) = unlevelled (p.course w)) ∧
    (p.run w).2.journal.records =
      w.journal.records ++ ((offered w.journal (p.course w)).filter reaches).map Prod.fst ∧
    (p'.run v).2.journal.records =
      v.journal.records ++ ((offered v.journal (p'.course v)).filter reaches).map Prod.fst ∧
    (offered v.journal (p'.course v)).map Prod.fst = (offered w.journal (p.course w)).map Prod.fst := by
  obtain ⟨⟨hend, hleft⟩, hchronicle, hcourse⟩ := abreast h w v ⟨hsetting, trivial, hraised⟩
  refine ⟨⟨hend.symm, hchronicle.symm, hleft.setting.symm, hleft.raised.symm, hcourse.symm⟩, ?_, ?_, ?_⟩
  · rw [(p.leads w).journal, foldl_note_records]
  · rw [(p'.leads v).journal, foldl_note_records]
  · rw [offered_records, offered_records, ← unlevelled_records, ← hcourse, unlevelled_records]

/-- A call that cannot be logged, because its callable has no title, wrapped once more,
    and then one that can. -/
def untitledCall (level : Int) : Plan Unit ℤ :=
  .setLevel .own level
    (.call { layers :=
        [{ manualLayer with entry := { logger := .named "other", level := 30 } }, manualLayer] }
      (.ends (.ok 7)) fun ending => .call { title := some "titled", layers := [manualLayer] }
        (.operate (.clock "clock" (.advance 7)) fun _ => .ends (.ok 8)) fun _ => .ends ending)

theorem Plan.run_relevelled_untitledCall :
    (untitledCall 50).Relevelled (untitledCall 10) ∧
      ((untitledCall 10).run manualWorld).1 = ((untitledCall 50).run manualWorld).1 ∧
      ((untitledCall 50).run manualWorld).1 = .error (.failure ⟨0, .notOffered⟩) ∧
      (offered manualWorld.journal ((untitledCall 10).course manualWorld)).map Prod.fst =
        (offered manualWorld.journal ((untitledCall 50).course manualWorld)).map Prod.fst ∧
      ((untitledCall 10).run manualWorld).2.journal.records.map Record.message =
        [Routine.wrapperTitle ++ " failed with AttributeError after 0.000 ns", "titled took 7.000 ns"] := by
  have hrelevelled : (untitledCall 50).Relevelled (untitledCall 10) :=
    .left _ _ (.right _ _ (.call _ (.ends _) fun _ =>
      .call _ (.operate _ fun _ => .ends _) fun _ => .ends _))
  have hrun : ((untitledCall 50).run manualWorld).1 = .error (.failure ⟨0, .notOffered⟩) ∧
      ((untitledCall 10).run manualWorld).2.journal.records.map Record.message =
        [Routine.wrapperTitle ++ " failed with AttributeError after 0.000 ns",
          "titled took 7.000 ns"] := by
    decide +kernel
  obtain ⟨⟨hend, _⟩, _, _, hmade⟩ :=
    run_relevelled hrelevelled (w := manualWorld) (v := manualWorld) rfl rfl
  exact ⟨hrelevelled, hend, hrun.1, hmade, hrun.2⟩

end Chronograph.Script
