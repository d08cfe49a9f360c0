import Mathlib
import Chronograph.Proofs.Script.Plan
import Chronograph.Proofs.Stopwatch.During

set_option autoImplicit false

/-!
# Scripts as plans

Every script is a plan: each step is written as a passage of one, which goes on by
how it ended. A passage runs as a task does when this holds whatever comes after
it, so passages are put together as the tasks are. Main statement: the plan of a
script leaves the world that running the script leaves, so what is true of the
runs of all plans is true of the runs of all scripts.
-/
namespace Chronograph

section
variable {σ α β : Type}

theorem Task.map_apply (f : α → β) (t : Task σ α) (w : World σ) :
    (do return f (← t) : Task σ β) w = ((t w).1.map f, (t w).2) := by
  rcases ht : t w with ⟨e | a, v⟩
  · exact Task.bind_error _ ht
  · exact Task.bind_ok _ ht

theorem Held.during_map (h : Held σ) (f : α → β) (body : Task σ α) :
    (h.during do return f (← body)) = (do return f (← h.during body)) := by
  funext w
  rw [Task.map_apply]
  cases hstart : (h.start w.setting).1 with
  | error e =>
    rw [during_of_unstarted _ hstart, during_of_unstarted body hstart]
    rfl
  | ok =>
    rw [during_of_started _ hstart (Task.map_apply f body _), during_of_started body hstart rfl]
    rcases hleave : h.leave (body (h.entered w)).2 with ⟨e | _, v⟩
    · rw [Task.bind_error _ hleave, Task.bind_error _ hleave]
      rfl
    · rw [Task.bind_ok _ hleave, Task.bind_ok _ hleave]
      rfl

theorem Held.stopped_of_during {h : Held σ} (lawful : h.Lawful) {body : Task σ α} {w v : World σ}
    {a : α} (hduring : h.during body w = (.ok a, v)) : (h.get v.setting).state = .stopped := by
  cases hstart : (h.start w.setting).1 with
  | error e =>
    rw [during_of_unstarted body hstart] at hduring
    cases hduring
  | ok =>
    have hstate := (closes_during body hstart rfl).state lawful
    rwa [hduring] at hstate

end

namespace Script
variable {M V α β : Type}

theorem Stage.during_map (watch : String) (f : α → β) (body : Task (Stage M) α) :
    (during watch do return f (← body)) = (do return f (← during watch body)) := by
  funext w
  rw [Task.map_apply]
  unfold during
  rcases hnamed : watchNamed watch w with ⟨e | h, v⟩
  · rw [Task.bind_error _ hnamed, Task.bind_error _ hnamed]
    rfl
  · rw [Task.bind_ok _ hnamed, Task.bind_ok _ hnamed, Held.during_map, Task.map_apply]

theorem Stage.during_state {watch : String} (body : Task (Stage M) V) (next : State → V → α) :
    (do
      let h ← watchNamed watch
      let v ← h.during body
      let state ← Task.view fun s => (h.get s).state
      return next state v) = (do return next .stopped (← during watch body)) := by
  funext w
  unfold during
  cases hheld : w.setting.bench.held? watch with
  | none =>
    have hnamed := watchNamed_of_none hheld
    rw [Task.bind_error _ hnamed, Task.bind_error _ (Task.bind_error _ hnamed)]
  | some h =>
    obtain ⟨place, k, _, rfl, _, _⟩ := Bench.exists_held hheld
    have hnamed := watchNamed_of_held hheld
    rw [Task.bind_ok _ hnamed]
    rcases hduring : (held (Bench.held place k)).during body w with ⟨e | v, w'⟩
    · rw [Task.bind_error _ hduring, Task.bind_error _ ((Task.bind_ok _ hnamed).trans hduring)]
    · rw [Task.bind_ok _ hduring, Task.bind_ok _ ((Task.bind_ok _ hnamed).trans hduring)]
      have hstate := Held.stopped_of_during (held_lawful (Bench.held_lawful place k)) hduring
      change (Except.ok (next ((held (Bench.held place k)).get w'.setting).state v), w') = _
      rw [hstate]
      rfl

def Passage (M V α : Type) := (Except Raised α → Plan M V) → Plan M V

namespace Passage

instance : Monad (Passage M V) where
  pure a := fun next => next (.ok a)
  bind p f := fun next => p fun
    | .ok a => f a next
    | .error e => next (.error e)

def settle (outcome : Except Raised α) : Passage M V α := fun next => next outcome

def fail (e : Fault) : Passage M V α := fun next => .occur e fun f => next (.error (.failure f))

def outcome (p : Passage M V α) : Passage M V (Except Raised α) := fun next => p fun r => next (.ok r)

def attempt (p : Passage M V α) : Passage M V (Except Failure α) := do
  match ← p.outcome with
  | .ok a => return .ok a
  | .error (.failure f) => return .error f
  | .error (.interrupt i) => settle (.error (.interrupt i))

def operate (op : Operation) : Passage M V Reply := fun next => .operate op next

def during (watch : String) (body : Passage M V V) : Passage M V V := fun next =>
  .during watch (body .ends) next

def call (label : Label) (body : Passage M V V) : Passage M V V := fun next =>
  .call label (body .ends) next

def measure (method : Method) (clock : ClockId) (label : Label) (body : Passage M V V) :
    Passage M V (Reported V) := fun next => .measure method clock label (body .ends) next

def setLevel (logger : Logger) (level : Int) : Passage M V Unit := fun next =>
  .setLevel logger level (next (.ok ()))

def mention (logger : Logger) : Passage M V Unit := fun next => .mention logger (next (.ok ()))

def revise (change : M → M) : Passage M V Unit := fun next => .revise change fun _ => next (.ok ())

def recalled (f : M → α) : Passage M V α := fun next => .revise id fun m => next (.ok (f m))

def given : Option α → Passage M V α
  | some a => return a
  | none => fail .unknownName

def clockNamed (name : Option String) : Passage M V ClockId := fun next => .find name fun id =>
  given id next

/-- The passage runs as the task does, whatever comes after it. -/
def RunsAs (p : Passage M V α) (t : Task (Stage M) α) : Prop :=
  ∀ next : Except Raised α → Plan M V, (p next).run = t.resume fun r => (next r).run

variable {p : Passage M V α} {t : Task (Stage M) α}

theorem runsAs_pure (a : α) : (pure a : Passage M V α).RunsAs (pure a) := fun _ => rfl

theorem runsAs_settle (r : Except Raised α) : (settle r : Passage M V α).RunsAs (Task.settle r) :=
  fun _ => rfl

theorem runsAs_fail (e : Fault) : (fail e : Passage M V α).RunsAs (Task.fail e) := fun _ => rfl

theorem runsAs_bind {f : α → Passage M V β} {g : α → Task (Stage M) β} (hp : p.RunsAs t)
    (hf : ∀ a, (f a).RunsAs (g a)) : (p >>= f).RunsAs (t >>= g) := by
  intro next
  funext w
  refine (congrFun (hp _) w).trans ?_
  unfold Task.resume
  rcases ht : t w with ⟨e | a, v⟩
  · rw [Task.bind_error g ht]
  · rw [Task.bind_ok g ht]
    exact congrFun (hf a next) v

theorem runsAs_outcome (hp : p.RunsAs t) : p.outcome.RunsAs t.outcome := fun _ => hp _

theorem runsAs_attempt (hp : p.RunsAs t) : p.attempt.RunsAs t.attempt := by
  intro next
  funext w
  refine (congrFun (hp _) w).trans ?_
  unfold Task.resume Task.attempt
  rcases t w with ⟨(f | i) | a, v⟩ <;> rfl

theorem runsAs_operate (op : Operation) :
    (operate op : Passage M V Reply).RunsAs (Task.act (Stage.onBench (·.perform op))) := fun _ => rfl

theorem run_ends {p : Passage M V V} {t : Task (Stage M) V} (hp : p.RunsAs t) : (p .ends).run = t :=
  hp .ends

theorem runsAs_during {p : Passage M V V} {t : Task (Stage M) V} (watch : String) (hp : p.RunsAs t) :
    (during watch p).RunsAs (Stage.during watch t) := by
  intro next
  rw [← run_ends hp]
  rfl

theorem runsAs_call {p : Passage M V V} {t : Task (Stage M) V} (label : Label) (hp : p.RunsAs t) :
    (call label p).RunsAs (label.routine t).run := by
  intro next
  rw [← run_ends hp]
  rfl

theorem runsAs_measure {p : Passage M V V} {t : Task (Stage M) V} (method : Method) (clock : ClockId)
    (label : Label) (hp : p.RunsAs t) :
    (measure method clock label p).RunsAs (method.measure (label.routine t) (Stage.clock clock)) := by
  intro next
  rw [← run_ends hp]
  rfl

theorem runsAs_setLevel (logger : Logger) (level : ℤ) :
    (setLevel logger level : Passage M V Unit).RunsAs (Task.write (·.setLevel logger level)) :=
  fun _ => rfl

theorem runsAs_mention (logger : Logger) :
    (mention logger : Passage M V Unit).RunsAs (Task.write (·.mention logger)) := fun _ => rfl

theorem runsAs_revise (change : M → M) :
    (revise change : Passage M V Unit).RunsAs (Stage.revise change) := fun _ => rfl

theorem runsAs_recalled (f : M → α) :
    (recalled f : Passage M V α).RunsAs (Task.view fun s => f s.memory) := fun _ => rfl

/-- What is looked for on the stage and told to `p` is known to it, or it fails. -/
theorem runsAs_given {f : Stage M → Option α} (hp : ∀ next : Except Raised α → Plan M V, ∀ w,
    (p next).run w = (given (f w.setting) next : Plan M V).run w) : p.RunsAs (Stage.known f) := by
  intro next
  funext w
  rw [hp next w]
  cases hf : f w.setting <;> simp only [Task.resume, Stage.known, Task.act, hf] <;> rfl

theorem runsAs_known (f : M → Option α) :
    (recalled f >>= given : Passage M V α).RunsAs (Stage.known fun s => f s.memory) :=
  runsAs_given fun _ _ => rfl

theorem runsAs_clockNamed (name : Option String) :
    (clockNamed name : Passage Notes V ClockId).RunsAs (Script.clockNamed name) :=
  runsAs_given fun _ _ => rfl

end Passage

/-- The flow of a body as the value that the body ends in. -/
def Flow.packed : Flow → Value
  | next => .list []
  | ended v => .list [v]

def Flow.unpacked : Value → Flow
  | .list [v] => ended v
  | _ => next

theorem Flow.unpacked_packed (flow : Flow) : Flow.unpacked flow.packed = flow := by
  cases flow <;> rfl

namespace Passage

def note (a : Answer) : Passage Notes V Unit := revise (.answer a)

def plain (p : Passage Notes V Reply) : Passage Notes V Flow := do
  match ← p.outcome with
  | .ok reply =>
    note (.plain (.replied reply))
    return .next
  | .error e =>
    note (.plain (.failed e false))
    settle (.error e)

def gather (p : Passage Notes V α) : Passage Notes V (List Answer × Except Raised α) := do
  let before ← recalled (·.answers)
  revise (.setAnswers [])
  let ending ← p.outcome
  let inside ← recalled (·.answers)
  revise (.setAnswers before)
  return (inside, ending)

def nested (p : Passage Notes V (Ending × Flow)) : Passage Notes V Flow := do
  match ← gather p with
  | (body, .ok (ending, flow)) =>
    note (.nested body ending)
    return flow
  | (body, .error e) =>
    note (.nested body (.failed e false))
    settle (.error e)

def raised (kind message : String) : Passage M V α :=
  match Interruption.ofKind? kind with
  | some cause => settle (.error (.interrupt ⟨cause, message⟩))
  | none => fail (.foreign kind message)

def layersOf : List Timing → Passage Notes V (List Layer)
  | [] => return []
  | timing :: rest => do
    let id ← clockNamed timing.clock
    mention timing.entry.logger
    return ⟨id, timing.entry, timing.address⟩ :: (← layersOf rest)

def compose (heading : Heading) (body : List Step) : Passage Notes V Program := do
  let layers ← layersOf heading.timings
  return ⟨⟨heading.title, heading.description, layers⟩, body⟩

def resultNamed (name : String) : Passage Notes V Result :=
  recalled (·.results.get? name) >>= given

def unwrap : Timed α → Passage M V α
  | .value _ a => return a
  | .failure _ f => settle (.error (.failure f))

def unwrapped (name : String) : Passage Notes V Flow := do
  match ← (resultNamed name).outcome with
  | .ok (.timed t) => match ← (unwrap t).outcome with
    | .ok v =>
      note (.plain (.replied (.value v)))
      return .next
    | .error e =>
      note (.plain (.failed e true))
      settle (.error e)
  | .ok (.count _) => plain (fail .notOffered)
  | .error e => plain (settle (.error e))

def duringFlow (watch : String) (body : Passage Notes Value Flow) : Passage Notes Value Flow := do
  return .unpacked (← during watch do return (← body).packed)

mutual
def step (calls : Program → Value → Passage Notes Value Value) (frame : Value) :
    Step → Passage Notes Value Flow
  | .operate op => plain (operate op)
  | .during watch body => nested do
    return (.replied (.state .stopped), ← duringFlow watch (steps calls frame body))
  | .attempt body => nested do
    match ← (steps calls frame body).attempt with
    | .ok flow => return (.replied .done, flow)
    | .error f => return (.caught f.fault, .next)
  | .raise kind message => plain (raised kind message)
  | .raiseState name => plain (match State.ofName? name with
    | some state => fail (.alreadyIn state)
    | none => fail (.unknownState name))
  | .giveBack v => do
    note (.plain .left)
    return .ended v
  | .giveArguments => do
    note (.plain .left)
    return .ended frame
  | .measure method clockName heading body keep => nested do
    let id ← clockNamed clockName
    let program ← compose heading body
    let result ← measure method id program.toLabel do
      return (← steps calls (frameOf [] []) body).value
    revise (.keep keep result)
    return (.replied (.measured result (clockName = none)), .next)
  | .unwrap name => unwrapped name
  | .equal a b => plain do
    let first ← resultNamed a
    let second ← resultNamed b
    return .flag (first.same second)
  | .define name heading body => plain do
    let program ← compose heading body
    revise (.define name program)
    return .done
  | .call name arguments options => nested do
    let program ← recalled (·.programs.get? name) >>= given
    let v ← calls program (frameOf arguments options)
    return (.replied (.value v), .next)
  | .setLevel logger level => plain do
    setLevel logger level
    return .done
def steps (calls : Program → Value → Passage Notes Value Value) (frame : Value) :
    List Step → Passage Notes Value Flow
  | [] => return .next
  | first :: rest => do
    match ← step calls frame first with
    | .next => steps calls frame rest
    | .ended v => return .ended v
end

def callWithin : ℕ → Program → Value → Passage Notes Value Value
  | 0, _, _ => fail .tooDeep
  | depth + 1, program, frame => call program.toLabel do
    return (← steps (callWithin depth) frame program.body).value

def script : List Step → Passage Notes Value Unit
  | [] => return ()
  | first :: rest => do
    let _ ← (step (callWithin callDepth) (frameOf [] []) first).outcome
    script rest

theorem runsAs_noted (a : Answer) (r : Except Raised α) :
    (note a >>= fun _ => settle r : Passage Notes V α).RunsAs (Script.note a >>= fun _ => Task.settle r) :=
  runsAs_bind (runsAs_revise _) fun _ => runsAs_settle r

theorem runsAs_plain {p : Passage Notes V Reply} {t : Task (Stage Notes) Reply} (hp : p.RunsAs t) :
    (plain p).RunsAs (Script.plain t) := by
  refine runsAs_bind (runsAs_outcome hp) fun ending => ?_
  cases ending with
  | ok reply => exact runsAs_noted _ (.ok _)
  | error e => exact runsAs_noted _ (.error _)

theorem runsAs_gather {p : Passage Notes V α} {t : Task (Stage Notes) α} (hp : p.RunsAs t) :
    (gather p).RunsAs (Script.gather t) :=
  runsAs_bind (runsAs_recalled _) fun _ => runsAs_bind (runsAs_revise _) fun _ =>
    runsAs_bind (runsAs_outcome hp) fun _ => runsAs_bind (runsAs_recalled _) fun _ =>
      runsAs_bind (runsAs_revise _) fun _ => runsAs_pure _

theorem runsAs_nested {p : Passage Notes V (Ending × Flow)} {t : Task (Stage Notes) (Ending × Flow)}
    (hp : p.RunsAs t) : (nested p).RunsAs (Script.nested t) := by
  refine runsAs_bind (runsAs_gather hp) fun gathered => ?_
  rcases gathered with ⟨body, e | ⟨ending, flow⟩⟩
  · exact runsAs_noted _ (.error _)
  · exact runsAs_noted _ (.ok _)

theorem runsAs_raised (kind message : String) :
    (raised kind message : Passage M V α).RunsAs (Script.raised kind message) := by
  unfold raised Script.raised
  cases Interruption.ofKind? kind with
  | some cause => exact runsAs_settle _
  | none => exact runsAs_fail _

theorem runsAs_layersOf (timings : List Timing) :
    (layersOf timings : Passage Notes V (List Layer)).RunsAs (Script.layersOf timings) := by
  induction timings with
  | nil => exact runsAs_pure _
  | cons timing rest ih =>
    exact runsAs_bind (runsAs_clockNamed _) fun _ => runsAs_bind (runsAs_mention _) fun _ =>
      runsAs_bind ih fun _ => runsAs_pure _

theorem runsAs_compose (heading : Heading) (body : List Step) :
    (compose heading body : Passage Notes V Program).RunsAs (Script.compose heading body) :=
  runsAs_bind (runsAs_layersOf _) fun _ => runsAs_pure _

theorem runsAs_resultNamed (name : String) :
    (resultNamed name : Passage Notes V Result).RunsAs (Script.resultNamed name) := runsAs_known _

theorem runsAs_unwrap (timed : Timed α) : (unwrap timed : Passage M V α).RunsAs timed.unwrap := by
  cases timed with
  | value n a => exact runsAs_pure a
  | failure n f => exact runsAs_settle _

theorem runsAs_unwrapped (name : String) :
    (unwrapped name : Passage Notes V Flow).RunsAs (Script.unwrapped name) := by
  refine runsAs_bind (runsAs_outcome (runsAs_resultNamed name)) fun found => ?_
  rcases found with e | n | timed
  · exact runsAs_plain (runsAs_settle _)
  · exact runsAs_plain (runsAs_fail _)
  · refine runsAs_bind (runsAs_outcome (runsAs_unwrap timed)) fun ending => ?_
    cases ending with
    | ok v => exact runsAs_noted _ (.ok _)
    | error e => exact runsAs_noted _ (.error _)

theorem runsAs_duringFlow {p : Passage Notes Value Flow} {t : Task (Stage Notes) Flow} (watch : String)
    (hp : p.RunsAs t) : (duringFlow watch p).RunsAs (Stage.during watch t) := by
  have hruns : (duringFlow watch p).RunsAs
      (do return Flow.unpacked (← Stage.during watch do return (← t).packed)) :=
    runsAs_bind (runsAs_during watch (runsAs_bind hp fun _ => runsAs_pure _)) fun _ => runsAs_pure _
  have hflow : (do return Flow.unpacked (← Stage.during watch do return (← t).packed)) =
      Stage.during watch t := by
    funext w
    rw [Task.map_apply, Stage.during_map, Task.map_apply]
    rcases Stage.during watch t w with ⟨e | flow, v⟩
    · rfl
    · exact congrArg (Except.ok ·, v) flow.unpacked_packed
  rwa [hflow] at hruns

section
variable {calls : Program → Value → Passage Notes Value Value}
  {tasks : Program → Value → Task (Stage Notes) Value}

mutual
theorem runsAs_step (hcalls : ∀ program frame, (calls program frame).RunsAs (tasks program frame))
    (frame : Value) : ∀ s : Step, (step calls frame s).RunsAs (runStep tasks frame s)
  | .operate op => runsAs_plain (runsAs_operate op)
  | .during watch body => by
    refine runsAs_nested ?_
    rw [Stage.during_state]
    exact runsAs_bind (runsAs_duringFlow watch (runsAs_steps hcalls frame body)) fun _ => runsAs_pure _
  | .attempt body => by
    have hbody := runsAs_steps hcalls frame body
    refine runsAs_nested (runsAs_bind (runsAs_attempt hbody) fun ending => ?_)
    cases ending with
    | ok flow => exact runsAs_pure _
    | error f => exact runsAs_pure _
  | .raise kind message => runsAs_plain (runsAs_raised kind message)
  | .raiseState name => by
    unfold step runStep
    refine runsAs_plain ?_
    cases State.ofName? name with
    | some state => exact runsAs_fail _
    | none => exact runsAs_fail _
  | .giveBack v => runsAs_noted _ (.ok _)
  | .giveArguments => runsAs_noted _ (.ok _)
  | .measure method clockName heading body keep => by
    refine runsAs_nested (runsAs_bind (runsAs_clockNamed clockName) fun id =>
      runsAs_bind (runsAs_compose heading body) fun program => runsAs_bind ?_ fun _ =>
        runsAs_bind (runsAs_revise _) fun _ => runsAs_pure _)
    exact runsAs_measure method id program.toLabel
      (runsAs_bind (runsAs_steps hcalls (frameOf [] []) body) fun _ => runsAs_pure _)
  | .unwrap name => runsAs_unwrapped name
  | .equal a b => runsAs_plain (runsAs_bind (runsAs_resultNamed a) fun _ =>
      runsAs_bind (runsAs_resultNamed b) fun _ => runsAs_pure _)
  | .define name heading body => runsAs_plain (runsAs_bind (runsAs_compose heading body) fun _ =>
      runsAs_bind (runsAs_revise _) fun _ => runsAs_pure _)
  | .call name arguments options => runsAs_nested (runsAs_bind (runsAs_known _) fun program =>
      runsAs_bind (hcalls program _) fun _ => runsAs_pure _)
  | .setLevel logger level =>
    runsAs_plain (runsAs_bind (runsAs_setLevel logger level) fun _ => runsAs_pure _)
theorem runsAs_steps (hcalls : ∀ program frame, (calls program frame).RunsAs (tasks program frame))
    (frame : Value) : ∀ ss : List Step, (steps calls frame ss).RunsAs (runSteps tasks frame ss)
  | [] => runsAs_pure _
  | first :: rest => by
    refine runsAs_bind (runsAs_step hcalls frame first) fun flow => ?_
    cases flow with
    | next => exact runsAs_steps hcalls frame rest
    | ended v => exact runsAs_pure _
end

end

theorem runsAs_callWithin (depth : ℕ) (program : Program) (frame : Value) :
    (callWithin depth program frame).RunsAs (Script.callWithin depth program frame) := by
  induction depth generalizing program frame with
  | zero => exact runsAs_fail _
  | succ depth ih =>
    have hbody := runsAs_steps ih frame program.body
    exact runsAs_call program.toLabel (runsAs_bind hbody fun _ => runsAs_pure _)

theorem runsAs_script (steps : List Step) : (script steps).RunsAs (perform steps) := by
  induction steps with
  | nil => exact runsAs_pure _
  | cons first rest ih =>
    exact runsAs_bind (runsAs_outcome (runsAs_step (runsAs_callWithin callDepth) _ first)) fun _ => ih

end Passage

/-- A script as a plan, which keeps the notes in the memory of the stage. -/
def scriptPlan (steps : List Step) : Plan Notes Value := Passage.script steps fun _ => .ends (.ok .null)

/-- The plan of a script, run from any world, leaves the world that performing the
    script leaves. -/
theorem run_scriptPlan (steps : List Step) (w : World (Stage Notes)) :
    ((scriptPlan steps).run w).2 = (perform steps w).2 := by
  unfold scriptPlan
  rw [Passage.runsAs_script steps]
  rfl

theorem run_eq_scriptPlan (live : Timepiece) (steps : List Step) :
    run live steps =
      (((scriptPlan steps).run (opening live)).2.setting.memory.answers,
        ((scriptPlan steps).run (opening live)).2.journal) := by
  rw [run_scriptPlan]
  rfl

end Script
end Chronograph
