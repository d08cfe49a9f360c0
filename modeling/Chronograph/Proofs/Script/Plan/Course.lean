import Mathlib
import Chronograph.Proofs.Measurement.Round
import Chronograph.Proofs.Script.Plan

set_option autoImplicit false

/-!
# The course of a run

The course of a run is all that is done in it, in order: the readings of
measurements and logged calls, the operations, the starts and stops around
bodies, the rounds that come to their end, and the levels that are set. What the
run leaves is what its acts leave one after the other, on the bench and in the
journal apart: no act needs the journal to act on the bench, or the bench to
write in the journal.
-/
namespace Chronograph.Script
open Measurement
variable {M α V : Type}

inductive Act (V : Type)
  | read (clock : ClockId)
  | operate (op : Operation)
  | enter (watch : String)
  /-- The body has ended, and its watch is to stand. -/
  | leave (place : WatchId) (clock : ClockId)
  | finish (round : Round V)
  | setLevel (logger : Logger) (level : Int)
  | mention (logger : Logger)

namespace Act

def move (b : Bench) : Act V → Bench
  | .read k => ((Bench.clock k).read b).2
  | .operate op => (b.perform op).2
  | .enter watch => match b.held? watch with
    | some h => (h.start b).2
    | none => b
  | .leave place k => match ((Bench.held place k).get b).state with
    | .running => ((Bench.held place k).stop b).2
    | .stopped => b
  | .finish _ | .setLevel _ _ | .mention _ => b

def note (j : Journal) : Act V → Journal
  | .finish round => j.receive round.record?
  | .setLevel logger level => j.setLevel logger level
  | .mention logger => j.mention logger
  | .read _ | .operate _ | .enter _ | .leave _ _ => j

end Act

namespace Bench

def place? (b : Bench) (name : String) : Option (WatchId × ClockId) :=
  (b.watchId? name).bind fun id => (b.clockIdOf? id).map fun k => (id, k)

theorem held?_eq (b : Bench) (name : String) :
    b.held? name = (b.place? name).map fun p => held p.1 p.2 := by
  unfold held? place?
  cases b.watchId? name with
  | none => rfl
  | some id => cases h : b.clockIdOf? id <;> simp [h]

end Bench

def Stage.within (watch : String) (course : World (Stage M) → List (Act V)) (w : World (Stage M)) :
    List (Act V) :=
  .enter watch :: match enter watch w, w.setting.bench.place? watch with
    | (.ok _, v), some (place, k) => course v ++ [.leave place k]
    | _, _ => []

/-- A routine with the courses of its runs. -/
structure Episode (M V : Type) where
  routine : Routine (Stage M) V
  course : World (Stage M) → List (Act V)

namespace Episode

/-- What is done in a round, if the call gives `given`. -/
def around (s : Episode M V) (k : ClockId) (caller : Caller) (given : Given) (w : World (Stage M)) :
    List (Act V) :=
  .read k :: match ((Stage.clock k).read w.setting).1 with
    | .error _ => []
    | .ok first =>
      let left := s.routine.run ((Stage.clock k).after w)
      s.course ((Stage.clock k).after w) ++ if caller.rereads left.1 then
          [.read k, .finish ⟨caller, first, left.1, some ((Stage.clock k).read left.2.setting).1, given⟩]
        else [.finish ⟨caller, first, left.1, none, given⟩]

def measured (s : Episode M V) (method : Method) (clock : ClockId) (w : World (Stage M)) : List (Act V) :=
  s.around clock (.measured method s.routine.name)
    (.ofReported (method.measure s.routine (Stage.clock clock) w).1) w

def logged (s : Episode M V) (layer : Layer) : Episode M V where
  routine := addLayer s.routine layer
  course w := s.around layer.clock (.logged layer.entry s.routine.title)
    (.ofEnding ((addLayer s.routine layer).run w).1) w

end Episode

def Label.episode (l : Label) (run : Task (Stage M) V) (course : World (Stage M) → List (Act V)) :
    Episode M V :=
  l.layers.foldl Episode.logged ⟨⟨l.title, l.description, run⟩, course⟩

def Plan.course : Plan M V → World (Stage M) → List (Act V)
  | .ends _ => fun _ => []
  | .occur e next => fun w => (next (Task.occurrence e w).1).course (Task.occurrence e w).2
  | .operate op next => fun w =>
    let left := Task.act (Stage.onBench (·.perform op)) w
    .operate op :: (next left.1).course left.2
  | .during watch body next => fun w =>
    let left := Stage.during watch body.run w
    Stage.within watch body.course w ++ (next left.1).course left.2
  | .call label body next => fun w =>
    let left := (label.routine body.run).run w
    (label.episode body.run body.course).course w ++ (next left.1).course left.2
  | .measure method clock label body next => fun w =>
    let left := method.measure (label.routine body.run) (Stage.clock clock) w
    (label.episode body.run body.course).measured method clock w ++ (next left.1).course left.2
  | .setLevel logger level next => fun w =>
    .setLevel logger level :: next.course { w with journal := w.journal.setLevel logger level }
  | .mention logger next => fun w =>
    .mention logger :: next.course { w with journal := w.journal.mention logger }
  | .find name next => fun w => (next (w.setting.bench.clockId? name)).course w
  | .revise change next => fun w => (next w.setting.memory).course (Stage.revise change w).2

/-- The acts, one after the other, lead from one world to the other. -/
structure Leads (acts : List (Act V)) (w v : World (Stage M)) : Prop where
  bench : v.setting.bench = acts.foldl Act.move w.setting.bench
  journal : v.journal = acts.foldl Act.note w.journal
  rounds : ∀ r, .finish r ∈ acts → r.Faithful

section
variable {acts later : List (Act V)} {u v w : World (Stage M)} {k : ClockId}

theorem leads_nil (hbench : v.setting.bench = w.setting.bench) (hjournal : v.journal = w.journal) :
    Leads ([] : List (Act V)) w v :=
  ⟨hbench, hjournal, fun _ h => absurd h List.not_mem_nil⟩

theorem leads_append (h : Leads acts w v) (hlater : Leads later v u) : Leads (acts ++ later) w u := by
  refine ⟨?_, ?_, fun r hr => ?_⟩
  · rw [List.foldl_append, ← h.bench, hlater.bench]
  · rw [List.foldl_append, ← h.journal, hlater.journal]
  · exact (List.mem_append.mp hr).elim (h.rounds r) (hlater.rounds r)

theorem leads_cons {act : Act V} (h : Leads [act] w v) (hlater : Leads later v u) :
    Leads (act :: later) w u :=
  leads_append h hlater

theorem leads_read (k : ClockId) (w : World (Stage M)) :
    Leads [(.read k : Act V)] w ((Stage.clock k).after w) :=
  ⟨rfl, rfl, fun _ h => absurd (List.mem_singleton.mp h) nofun⟩

theorem leads_act {act : Act V} {f : Stage M → Except Fault α × Stage M}
    (hmove : ∀ s, act.move s.bench = (f s).2.bench) (hnote : ∀ j, act.note j = j)
    (hact : ∀ r, act ≠ .finish r) (w : World (Stage M)) : Leads [act] w (Task.act f w).2 := by
  have hleft : (Task.act f w).2.setting = (f w.setting).2 ∧ (Task.act f w).2.journal = w.journal := by
    unfold Task.act
    rcases f w.setting with ⟨e | a, s⟩ <;> exact ⟨rfl, rfl⟩
  refine ⟨?_, hleft.2.trans (hnote _).symm, fun r hr => ?_⟩
  · rw [hleft.1]
    exact (hmove w.setting).symm
  · exact absurd (List.mem_singleton.mp hr).symm (hact r)

theorem leads_finish {round : Round V} (hround : round.Faithful)
    (hbench : v.setting.bench = w.setting.bench)
    (hjournal : v.journal = w.journal.receive round.record?) : Leads [.finish round] w v := by
  refine ⟨hbench, hjournal, fun r hr => ?_⟩
  cases List.mem_singleton.mp hr
  exact hround

namespace Episode
variable {s : Episode M V}

theorem leads_around (hs : ∀ w, Leads (s.course w) w (s.routine.run w).2) {caller : Caller}
    {given : Except Raised α → Given} {t : Task (Stage M) α}
    (ht : Encloses (Stage.clock k) s.routine caller given t) (w : World (Stage M)) :
    Leads (s.around k caller (given (t w).1) w) w (t w).2 := by
  unfold around
  cases hread : ((Stage.clock k).read w.setting).1 with
  | error e =>
    rw [ht.unread w e hread]
    exact leads_cons (leads_read k w) (leads_nil rfl rfl)
  | ok first =>
    refine leads_cons (leads_read k w) (leads_append (hs _) ?_)
    rcases hrun : s.routine.run ((Stage.clock k).after w) with ⟨ending, v⟩
    cases hrereads : caller.rereads ending with
    | false =>
      rw [if_neg Bool.false_ne_true]
      have hleft := ht.unclosed w first ending v hread hrun hrereads
      exact leads_finish ⟨hrereads.symm, nofun⟩ (congrArg (·.setting.bench) hleft) (congrArg _ hleft)
    | true =>
      rw [if_pos rfl]
      obtain ⟨hsetting, hjournal⟩ := ht.closed w first ending v hread hrun hrereads
      refine leads_cons (leads_read k v) (leads_finish ⟨hrereads.symm, ?_⟩ (congrArg _ hsetting) hjournal)
      intro last text hlast hsubject htext
      exact ht.given w first ending v last text hread hrun hrereads (Option.some.inj hlast) hsubject htext

theorem leads_logged (hs : ∀ w, Leads (s.course w) w (s.routine.run w).2) (layer : Layer)
    (w : World (Stage M)) : Leads ((s.logged layer).course w) w ((s.logged layer).routine.run w).2 :=
  leads_around hs (encloses_logged (Stage.clock layer.clock) s.routine layer.entry) w

theorem leads_measured (hs : ∀ w, Leads (s.course w) w (s.routine.run w).2) (m : Method)
    (w : World (Stage M)) : Leads (s.measured m k w) w (m.measure s.routine (Stage.clock k) w).2 :=
  leads_around hs (encloses_measure (Stage.clock k) s.routine m) w

end Episode

theorem Label.episode_routine (l : Label) (run : Task (Stage M) V)
    (course : World (Stage M) → List (Act V)) :
    (l.episode run course).routine = l.routine run :=
  (List.foldl_hom Episode.routine fun _ _ => rfl).symm

theorem leads_label (l : Label) {run : Task (Stage M) V} {course : World (Stage M) → List (Act V)}
    (h : ∀ w, Leads (course w) w (run w).2) :
    ∀ w, Leads ((l.episode run course).course w) w ((l.episode run course).routine.run w).2 :=
  List.foldlRecOn (motive := fun s => ∀ w, Leads (s.course w) w (s.routine.run w).2) l.layers
    Episode.logged h fun _ hs layer _ => Episode.leads_logged hs layer

theorem leads_leave (place : WatchId) (k : ClockId) (w : World (Stage M)) :
    Leads [(.leave place k : Act V)] w ((Stage.held (Bench.held place k)).leave w).2 := by
  refine leads_act (fun s => ?_) (fun _ => rfl) (fun _ => by rintro ⟨⟩) w
  change (match ((Bench.held place k).get s.bench).state with
    | .running => ((Bench.held place k).stop s.bench).2
    | .stopped => s.bench) = Stage.bench (Prod.snd (match ((Bench.held place k).get s.bench).state with
    | .running => (Stage.held (Bench.held place k)).stop s
    | .stopped => (.ok (), s)))
  cases ((Bench.held place k).get s.bench).state with
  | running => rw [Stage.held_stop]; rfl
  | stopped => rfl

open Stage in
theorem leads_within (watch : String) {body : Task (Stage M) V}
    {course : World (Stage M) → List (Act V)} (h : ∀ w, Leads (course w) w (body w).2)
    (w : World (Stage M)) : Leads (within watch course w) w (during watch body w).2 := by
  unfold within
  -- There is no such watch, or it cannot be started, or the body is run and the watch is left.
  cases hplace : w.setting.bench.place? watch with
  | none =>
    have hheld : w.setting.bench.held? watch = none := by rw [Bench.held?_eq, hplace]; rfl
    have hentered : enter watch w = Task.fail .unknownName w :=
      Task.bind_error _ (watchNamed_of_none hheld)
    rw [during_of_unentered body hentered, hentered]
    refine ⟨?_, rfl, fun r hr => absurd (List.mem_singleton.mp hr) nofun⟩
    change w.setting.bench = Act.move w.setting.bench (.enter watch : Act V)
    simp only [Act.move, hheld]
  | some p =>
    obtain ⟨place, k⟩ := p
    have hheld : w.setting.bench.held? watch = some (Bench.held place k) := by
      rw [Bench.held?_eq, hplace]
      rfl
    have hstart : enter watch w = Task.act (held (Bench.held place k)).start w :=
      Task.bind_ok _ (watchNamed_of_held hheld)
    have henter : Leads [(.enter watch : Act V)] w (enter watch w).2 := by
      rw [hstart]
      unfold Task.act
      rw [held_start]
      refine ⟨?_, ?_, fun r hr => absurd (List.mem_singleton.mp hr) nofun⟩
      · simp only [List.foldl_cons, List.foldl_nil, Act.move, hheld, onBench]
        rcases (Bench.held place k).start w.setting.bench with ⟨e | _, b⟩ <;> rfl
      · simp only [onBench]
        rcases (Bench.held place k).start w.setting.bench with ⟨e | _, b⟩ <;> rfl
    rcases hentered : enter watch w with ⟨e | _, v⟩ <;> rw [hentered] at henter
    · rw [during_of_unentered body hentered]
      exact henter
    · rw [during_of_entered body hheld (hstart ▸ hentered)]
      refine leads_cons henter (leads_append (h v) ?_)
      have hleave := leads_leave (V := V) place k (body v).2
      rcases hl : (held (Bench.held place k)).leave (body v).2 with ⟨e | _, u⟩ <;> rw [hl] at hleave
      · rw [Task.bind_error _ hl]
        exact hleave
      · rw [Task.bind_ok _ hl]
        exact hleave

/-- A run leaves what its acts leave one after the other. -/
theorem Plan.leads (p : Plan M V) : ∀ w, Leads (p.course w) w (p.run w).2 := by
  induction p with
  | ends outcome => exact fun w => leads_nil rfl rfl
  | occur e next ih =>
    intro w
    have hnext := ih (Task.occurrence e w).1 (Task.occurrence e w).2
    exact ⟨hnext.bench, hnext.journal, hnext.rounds⟩
  | operate op next ih =>
    intro w
    have hperform : Leads [(.operate op : Act V)] w (Task.act (Stage.onBench (·.perform op)) w).2 :=
      leads_act (fun _ => rfl) (fun _ => rfl) (fun _ => by rintro ⟨⟩) w
    exact leads_cons hperform (ih _ _)
  | during watch body next ihBody ih =>
    exact fun w => leads_append (leads_within watch ihBody w) (ih _ _)
  | call label body next ihBody ih =>
    intro w
    have hrun := leads_label label ihBody w
    rw [Label.episode_routine] at hrun
    exact leads_append hrun (ih _ _)
  | measure method clock label body next ihBody ih =>
    intro w
    have hmeasured := Episode.leads_measured (k := clock) (leads_label label ihBody) method w
    rw [Label.episode_routine] at hmeasured
    exact leads_append hmeasured (ih _ _)
  | setLevel logger level next ih =>
    intro w
    have hset : Leads [(.setLevel logger level : Act V)] w
        { w with journal := w.journal.setLevel logger level } :=
      ⟨rfl, rfl, fun r hr => absurd (List.mem_singleton.mp hr) nofun⟩
    exact leads_cons hset (ih _)
  | mention logger next ih =>
    intro w
    have hmention : Leads [(.mention logger : Act V)] w
        { w with journal := w.journal.mention logger } :=
      ⟨rfl, rfl, fun r hr => absurd (List.mem_singleton.mp hr) nofun⟩
    exact leads_cons hmention (ih _)
  | find name next ih => exact fun w => ih _ w
  | revise change next ih =>
    intro w
    have hnext := ih w.setting.memory (Stage.revise change w).2
    exact ⟨hnext.bench, hnext.journal, hnext.rounds⟩

end
end Chronograph.Script
