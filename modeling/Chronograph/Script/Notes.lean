import Chronograph.Script.Answer
import Chronograph.Script.Stage
import Chronograph.Script.Step

set_option autoImplicit false

/-!
# Notes

A script notes the programs and the results that were given names, and the
answers so far. A step notes its answer when it ends, whichever way it ends; the
answers of a body are set apart while the body runs and then noted inside the
answer of the step that ran it.
-/
namespace Chronograph.Script
open Stage (revise)

/-- A program as it was given a name, with the clocks that its loggings had then. -/
structure Program extends Label where
  body : List Step

structure Notes where
  programs : Registry String Program := {}
  results : Registry String Result := {}
  /-- Of the body that is being run. -/
  answers : List Answer := []

namespace Notes

def define (name : String) (program : Program) (n : Notes) : Notes :=
  { n with programs := n.programs.insert name program }

def keep (result : Option String) (r : Result) (n : Notes) : Notes :=
  match result with
  | none => n
  | some name => { n with results := n.results.insert name r }

def answer (a : Answer) (n : Notes) : Notes := { n with answers := n.answers ++ [a] }

def setAnswers (answers : List Answer) (n : Notes) : Notes := { n with answers }

end Notes

/-- Whether the steps after this one are run, or the program has ended. -/
inductive Flow
  | next
  | ended (v : Value)

def Flow.value : Flow → Value
  | next => .null
  | ended v => v

def note (a : Answer) : Task (Stage Notes) Unit := revise (.answer a)

def plain (t : Task (Stage Notes) Reply) : Task (Stage Notes) Flow := do
  match ← t.outcome with
  | .ok reply =>
    note (.plain (.replied reply))
    return .next
  | .error e =>
    note (.plain (.failed e false))
    Task.settle (.error e)

/-- How `t` ended, and the answers that were noted in it. -/
def gather {α : Type} (t : Task (Stage Notes) α) :
    Task (Stage Notes) (List Answer × Except Raised α) := do
  let before ← Task.view (·.memory.answers)
  revise (.setAnswers [])
  let ending ← t.outcome
  let inside ← Task.view (·.memory.answers)
  revise (.setAnswers before)
  return (inside, ending)

def nested (t : Task (Stage Notes) (Ending × Flow)) : Task (Stage Notes) Flow := do
  match ← gather t with
  | (body, .ok (ending, flow)) =>
    note (.nested body ending)
    return flow
  | (body, .error e) =>
    note (.nested body (.failed e false))
    Task.settle (.error e)

end Chronograph.Script
