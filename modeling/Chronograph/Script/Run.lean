import Chronograph.Script.Notes

set_option autoImplicit false

/-!
# Running scripts

Steps are run by recursion on the script; a call by name leaves the script, so
calls within calls are counted and there is a limit to them. An error ends the
step of the script in which it comes up, and the next step is run.
-/
namespace Chronograph.Script
open Stage (known revise watchNamed)

def raised {σ α : Type} (kind message : String) : Task σ α :=
  match Interruption.ofKind? kind with
  | some cause => Task.interrupt ⟨cause, message⟩
  | none => Task.fail (.foreign kind message)

def clockNamed (name : Option String) : Task (Stage Notes) ClockId :=
  known fun s => s.bench.clockId? name

/-- The loggings of a program with the clocks that their names stand for now; their
    loggers are mentioned by this. -/
def layersOf : List Timing → Task (Stage Notes) (List Layer)
  | [] => return []
  | timing :: rest => do
    let id ← clockNamed timing.clock
    Task.write (·.mention timing.entry.logger)
    return ⟨id, timing.entry, timing.address⟩ :: (← layersOf rest)

def compose (heading : Heading) (body : List Step) : Task (Stage Notes) Program := do
  let layers ← layersOf heading.timings
  return ⟨⟨heading.title, heading.description, layers⟩, body⟩

def resultNamed (name : String) : Task (Stage Notes) Result :=
  known fun s => s.memory.results.get? name

def unwrapped (name : String) : Task (Stage Notes) Flow := do
  match ← (resultNamed name).outcome with
  | .ok (.timed t) => match ← t.unwrap.outcome with
    | .ok v =>
      note (.plain (.replied (.value v)))
      return .next
    | .error e =>
      note (.plain (.failed e true))
      Task.settle (.error e)
  | .ok (.count _) => plain (Task.fail .notOffered)
  | .error e => plain (Task.settle (.error e))

/-- What a program can ask for as its arguments: a list of those given by place
    and a record of those given by name. -/
def frameOf (arguments : List Value) (options : List (String × Value)) : Value :=
  .list [.list arguments, .record options]

mutual
/-- Runs a step of a program that was called with `frame`; `calls` runs the
    programs that are called by name. -/
def runStep (calls : Program → Value → Task (Stage Notes) Value) (frame : Value) :
    Step → Task (Stage Notes) Flow
  | .operate op => plain (Task.act (Stage.onBench (·.perform op)))
  | .during watch body => nested do
    let h ← watchNamed watch
    let flow ← h.during (runSteps calls frame body)
    let state ← Task.view fun s => (h.get s).state
    return (.replied (.state state), flow)
  | .attempt body => nested do
    match ← (runSteps calls frame body).attempt with
    | .ok flow => return (.replied .done, flow)
    | .error f => return (.caught f.fault, .next)
  | .raise kind message => plain (raised kind message)
  | .raiseState name => plain (match State.ofName? name with
    | some state => Task.fail (.alreadyIn state)
    | none => Task.fail (.unknownState name))
  | .giveBack v => do
    note (.plain .left)
    return .ended v
  | .giveArguments => do
    note (.plain .left)
    return .ended frame
  | .measure method clockName heading body keep => nested do
    let id ← clockNamed clockName
    let program ← compose heading body
    let run := do return (← runSteps calls (frameOf [] []) body).value
    let result ← method.measure (program.routine run) (Stage.clock id)
    revise (.keep keep result)
    return (.replied (.measured result (clockName = none)), .next)
  | .unwrap name => unwrapped name
  | .equal a b => plain do
    let first ← resultNamed a
    let second ← resultNamed b
    return .flag (first.same second)
  | .define name heading body => plain do
    let program ← compose heading body
    revise (.define name program)
    return .done
  | .call name arguments options => nested do
    let program ← known fun s => s.memory.programs.get? name
    let v ← calls program (frameOf arguments options)
    return (.replied (.value v), .next)
  | .setLevel logger level => plain do
    Task.write (·.setLevel logger level)
    return .done
def runSteps (calls : Program → Value → Task (Stage Notes) Value) (frame : Value) :
    List Step → Task (Stage Notes) Flow
  | [] => return .next
  | step :: rest => do
    match ← runStep calls frame step with
    | .next => runSteps calls frame rest
    | .ended v => return .ended v
end

/-- Runs a program that is called with `frame`, with calls in it nested at most
    so deep. -/
def callWithin : Nat → Program → Value → Task (Stage Notes) Value
  | 0, _, _ => Task.fail .tooDeep
  | depth + 1, program, frame =>
    (program.routine do return (← runSteps (callWithin depth) frame program.body).value).run

def callDepth : Nat := 1000

def perform : List Step → Task (Stage Notes) Unit
  | [] => return ()
  | step :: rest => do
    let _ ← (runStep (callWithin callDepth) (frameOf [] []) step).outcome
    perform rest

def opening (live : Timepiece) : World (Stage Notes) where
  setting := { bench := { clocks := Registry.empty.insert .live live }, memory := {} }

def run (live : Timepiece) (steps : List Step) : List Answer × Journal :=
  let world := (perform steps (opening live)).2
  (world.setting.memory.answers, world.journal)

end Chronograph.Script
