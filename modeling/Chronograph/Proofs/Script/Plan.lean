import Mathlib
import Chronograph.Proofs.Script.Alike
import Chronograph.Proofs.Script.Bench

set_option autoImplicit false

/-!
# Plans

A plan is any program over a stage that ends: it operates clocks and watches,
calls and measures callables, which are plans again, and goes on by what it was
answered and by what it keeps in the memory of the stage, failures included. So it
may catch failures, branch on results and call itself as deep as it likes. Its
chronicle tells what it was answered on the way, and which measurements were
completed, each with those directly inside it.
-/
namespace Chronograph
variable {σ α β : Type}

/-- Goes on after `t`, whichever way it ended. -/
def Task.resume (t : Task σ α) (next : Except Raised α → Task σ β) : Task σ β := fun w =>
  next (t w).1 (t w).2

namespace Script
variable {M V : Type}

inductive Plan (M V : Type)
  | ends (outcome : Except Raised V)
  /-- A failure comes into being; it is not raised by this. -/
  | occur (e : Fault) (next : Failure → Plan M V)
  | operate (op : Operation) (next : Except Raised Reply → Plan M V)
  | during (watch : String) (body : Plan M V) (next : Except Raised V → Plan M V)
  | call (label : Label) (body : Plan M V) (next : Except Raised V → Plan M V)
  | measure (method : Method) (clock : ClockId) (label : Label) (body : Plan M V)
      (next : Except Raised (Reported V) → Plan M V)
  | setLevel (logger : Logger) (level : Int) (next : Plan M V)
  | mention (logger : Logger) (next : Plan M V)
  | find (name : Option String) (next : Option ClockId → Plan M V)
  /-- The memory is changed; what comes next is told what it was before. -/
  | revise (change : M → M) (next : M → Plan M V)

namespace Stage

def enter (watch : String) : Task (Stage M) Unit := do
  Task.act (← watchNamed watch).start

def during (watch : String) (body : Task (Stage M) V) : Task (Stage M) V := do
  (← watchNamed watch).during body

end Stage

def Plan.run : Plan M V → Task (Stage M) V
  | .ends outcome => Task.settle outcome
  | .occur e next => fun w => (next (Task.occurrence e w).1).run (Task.occurrence e w).2
  | .operate op next => (Task.act (Stage.onBench (·.perform op))).resume fun r => (next r).run
  | .during watch body next => (Stage.during watch body.run).resume fun r => (next r).run
  | .call label body next => (label.routine body.run).run.resume fun r => (next r).run
  | .measure method clock label body next =>
    (method.measure (label.routine body.run) (Stage.clock clock)).resume fun r => (next r).run
  | .setLevel logger level next => do
    Task.write (·.setLevel logger level)
    next.run
  | .mention logger next => do
    Task.write (·.mention logger)
    next.run
  | .find name next => fun w => (next (w.setting.bench.clockId? name)).run w
  | .revise change next => fun w => (next w.setting.memory).run (Stage.revise change w).2

inductive Event (V : Type)
  | occurred (f : Failure)
  | operated (op : Operation) (ending : Except Raised Reply)
  | left (watch : String) (ending : Except Raised V)
  | called (title : Option String) (ending : Except Raised V)
  | measured (method : Method) (clock : ClockId) (ending : Except Raised (Reported V))
  | found (name : Option String) (clock : Option ClockId)

/-- A completed measurement, with the clocks and times of those directly inside it. -/
structure Span where
  clock : ClockId
  nanos : ℤ
  inside : List (ClockId × ℤ)
  deriving Repr, DecidableEq

/-- What happened in a run: the answers and the completed measurements, both in the
    order in which they came, which of these are inside no other, and the callables
    that were called or measured, each with the bench at that time. -/
structure Chronicle (V : Type) where
  heard : List (Event V) := []
  spans : List Span := []
  direct : List (ClockId × ℤ) := []
  calls : List (Label × Bench) := []

namespace Chronicle

instance : Append (Chronicle V) :=
  ⟨fun c d => ⟨c.heard ++ d.heard, c.spans ++ d.spans, c.direct ++ d.direct, c.calls ++ d.calls⟩⟩

def told (e : Event V) (calls : List (Label × Bench) := []) : Chronicle V := { heard := [e], calls }

/-- A measurement was completed in which all this happened; without a time it was not. -/
def closed (c : Chronicle V) (clock : ClockId) : Option ℤ → Chronicle V
  | some n => { c with spans := c.spans ++ [⟨clock, n, c.direct⟩], direct := [(clock, n)] }
  | none => c

theorem closed_heard (c : Chronicle V) (clock : ClockId) (time : Option ℤ) :
    (c.closed clock time).heard = c.heard := by
  cases time <;> rfl

theorem closed_calls (c : Chronicle V) (clock : ClockId) (time : Option ℤ) :
    (c.closed clock time).calls = c.calls := by
  cases time <;> rfl

def after {α : Type} (t : Task (Stage M) α) (c : World (Stage M) → Chronicle V) (w : World (Stage M)) :
    Chronicle V :=
  match t w with
  | (.ok _, v) => c v
  | (.error _, _) => {}

end Chronicle

def timeOf : Except Raised (Reported V) → Option ℤ
  | .ok r => some r.nanos
  | .error _ => none

/-- A routine with what happens in its runs. -/
structure Scene (M V : Type) where
  routine : Routine (Stage M) V
  chronicle : World (Stage M) → Chronicle V

namespace Scene

def started (s : Scene M V) (clock : ClockId) : World (Stage M) → Chronicle V :=
  Chronicle.after (Measurement.started (Stage.clock clock)) s.chronicle

def measured (s : Scene M V) (method : Method) (clock : ClockId) (w : World (Stage M)) : Chronicle V :=
  (s.started clock w).closed clock (timeOf (method.measure s.routine (Stage.clock clock) w).1)

/-- A logged run takes the time that a measurement would tell that captures failures;
    without a title it is not completed. -/
def logged (s : Scene M V) (layer : Layer) : Scene M V where
  routine := addLayer s.routine layer
  chronicle := if s.routine.title.isSome then s.measured .captured layer.clock else s.started layer.clock

end Scene

def Label.scene (l : Label) (run : Task (Stage M) V) (chronicle : World (Stage M) → Chronicle V) :
    Scene M V :=
  l.layers.foldl Scene.logged ⟨⟨l.title, l.description, run⟩, chronicle⟩

def Plan.chronicle : Plan M V → World (Stage M) → Chronicle V
  | .ends _ => fun _ => {}
  | .occur e next => fun w => .told (.occurred (Task.occurrence e w).1) ++
    (next (Task.occurrence e w).1).chronicle (Task.occurrence e w).2
  | .operate op next => fun w =>
    let left := Task.act (Stage.onBench (·.perform op)) w
    .told (.operated op left.1) ++ (next left.1).chronicle left.2
  | .during watch body next => fun w =>
    let left := Stage.during watch body.run w
    .after (Stage.enter watch) body.chronicle w ++ .told (.left watch left.1) ++
      (next left.1).chronicle left.2
  | .call label body next => fun w =>
    let left := (label.routine body.run).run w
    (label.scene body.run body.chronicle).chronicle w ++
      .told (.called label.title left.1) [(label, w.setting.bench)] ++ (next left.1).chronicle left.2
  | .measure method clock label body next => fun w =>
    let left := method.measure (label.routine body.run) (Stage.clock clock) w
    (label.scene body.run body.chronicle).measured method clock w ++
      .told (.measured method clock left.1) [(label, w.setting.bench)] ++
        (next left.1).chronicle left.2
  | .setLevel logger level next => fun w =>
    next.chronicle { w with journal := w.journal.setLevel logger level }
  | .mention logger next => fun w => next.chronicle { w with journal := w.journal.mention logger }
  | .find name next => fun w => .told (.found name (w.setting.bench.clockId? name)) ++
    (next (w.setting.bench.clockId? name)).chronicle w
  | .revise change next => fun w => (next w.setting.memory).chronicle (Stage.revise change w).2

namespace Stage
variable {watch : String} {w v : World (Stage M)} {h : Held Bench}

theorem watchNamed_of_held (hheld : w.setting.bench.held? watch = some h) :
    watchNamed watch w = (.ok (held h), w) := by
  simp only [watchNamed, known, Task.act, hheld, Option.map_some]

theorem watchNamed_of_none (hheld : w.setting.bench.held? watch = none) :
    watchNamed watch w = Task.fail .unknownName w := by
  simp only [watchNamed, known, Task.act, hheld, Option.map_none]

theorem exists_held_of_enter (hentered : enter watch w = (.ok (), v)) :
    ∃ h, w.setting.bench.held? watch = some h ∧ Task.act (held h).start w = (.ok (), v) := by
  unfold enter at hentered
  cases hheld : w.setting.bench.held? watch with
  | none =>
    rw [Task.bind_error _ (watchNamed_of_none hheld)] at hentered
    cases hentered
  | some h =>
    rw [Task.bind_ok _ (watchNamed_of_held hheld)] at hentered
    exact ⟨h, rfl, hentered⟩

theorem during_of_unentered {e : Raised} (body : Task (Stage M) V)
    (hentered : enter watch w = (.error e, v)) : during watch body w = (.error e, v) := by
  unfold enter at hentered
  unfold during
  cases hheld : w.setting.bench.held? watch with
  | none =>
    rw [Task.bind_error _ (watchNamed_of_none hheld)] at hentered
    cases hentered
    exact Task.bind_error _ (watchNamed_of_none hheld)
  | some h =>
    rw [Task.bind_ok _ (watchNamed_of_held hheld)] at hentered ⊢
    exact Task.bind_error _ hentered

theorem during_of_entered (body : Task (Stage M) V) (hheld : w.setting.bench.held? watch = some h)
    (hstart : Task.act (held h).start w = (.ok (), v)) :
    during watch body w = ((held h).leave >>= fun _ => Task.settle (body v).1) (body v).2 := by
  unfold during
  rw [Task.bind_ok _ (watchNamed_of_held hheld)]
  exact Task.bind_ok _ hstart

section
variable {P : Bench → Bench → Prop}

def On (P : Bench → Bench → Prop) (s t : Stage M) : Prop := P s.bench t.bench

instance [IsPreorder Bench P] : IsPreorder (Stage M) (On P) where
  refl s := refl_of P s.bench
  trans _ _ _ := trans_of P

theorem on_read {k : ClockId} (hP : ∀ b, P b ((Bench.clock k).read b).2) (s : Stage M) :
    On P s ((clock k).read s).2 := hP s.bench

theorem keeps_start (hP : ∀ a b, Bench.ReadFrom a b → P a b) (place : WatchId) (k : ClockId) :
    Task.Keeps (On P) (Task.act (held (Bench.held place k) : Held (Stage M)).start) := by
  refine Task.keeps_act fun s => ?_
  rw [held_start]
  exact hP _ _ (Bench.readFrom_start s.bench k ((Bench.held place k).get s.bench))

theorem keeps_leave (hP : ∀ a b, Bench.ReadFrom a b → P a b) (place : WatchId) (k : ClockId) :
    Task.Keeps (On P) (held (Bench.held place k) : Held (Stage M)).leave := by
  refine Task.keeps_act fun s => ?_
  cases ((held (Bench.held place k)).get s).state with
  | running =>
    rw [held_stop]
    exact hP _ _ (Bench.readFrom_stop s.bench k ((Bench.held place k).get s.bench))
  | stopped => exact hP _ _ ⟨rfl, Or.inl rfl⟩

theorem keeps_enter (hP : ∀ a b, Bench.ReadFrom a b → P a b) (watch : String) :
    Task.Keeps (On P) (enter watch : Task (Stage M) Unit) := by
  intro w
  unfold enter
  cases hheld : w.setting.bench.held? watch with
  | none =>
    rw [Task.bind_error _ (watchNamed_of_none hheld)]
    exact hP _ _ ⟨rfl, Or.inl rfl⟩
  | some h =>
    obtain ⟨place, k, _, rfl, _, _⟩ := Bench.exists_held hheld
    rw [Task.bind_ok _ (watchNamed_of_held hheld)]
    exact keeps_start hP place k w

theorem during_left [IsPreorder Bench P] (hP : ∀ a b, Bench.ReadFrom a b → P a b)
    (hentered : enter watch w = (.ok (), v)) (body : Task (Stage M) V) :
    P (body v).2.setting.bench (during watch body w).2.setting.bench := by
  obtain ⟨h, hheld, hstart⟩ := exists_held_of_enter hentered
  rw [during_of_entered body hheld hstart]
  obtain ⟨place, k, _, rfl, _, _⟩ := Bench.exists_held hheld
  exact Task.keeps_bind (P := On P) (keeps_leave hP place k) (fun _ => Task.keeps_settle _) (body v).2

end

end Stage

theorem Label.scene_routine (l : Label) (run : Task (Stage M) V)
    (chronicle : World (Stage M) → Chronicle V) : (l.scene run chronicle).routine = l.routine run :=
  (List.foldl_hom Scene.routine fun _ _ => rfl).symm

end Script
end Chronograph
