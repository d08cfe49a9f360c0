import Chronograph.Text.Quoted

set_option autoImplicit false

/-!
# What can go wrong

The causes of failure, each with the kind and the message under which it is
reported. A failure can be caught and measured; an interrupt is neither, it
ends whatever is running.
-/
namespace Chronograph

inductive State
  | stopped | running
  deriving Repr, DecidableEq

namespace State

def name : State → String
  | stopped => "stopped"
  | running => "running"

def ofName? (name : String) : Option State := [stopped, running].find? fun s => s.name = name

theorem ofName?_name (s : State) : ofName? s.name = some s := by cases s <;> decide

end State

inductive Fault
  /-- A stopwatch was asked to enter the state that it is in. -/
  | alreadyIn (state : State)
  | backwards
  | negativeStep
  /-- A number that does not fit its format. -/
  | overflow
  | infiniteFigure
  | unknownLength (nanos : Int)
  | unknownUnit (name : String)
  | unknownState (name : String)
  | clockFailure
  | clockExhausted
  /-- Something was asked of a thing that does not have it. -/
  | notOffered
  /-- A name that nothing was given. -/
  | unknownName
  | tooDeep
  | foreign (kind message : String)
  deriving Repr, DecidableEq

namespace Fault

def kind : Fault → String
  | alreadyIn _ => "IllegalStateError"
  | backwards | negativeStep | unknownLength _ | unknownState _ => "ValueError"
  | overflow => "OverflowError"
  | infiniteFigure => "InvalidOperation"
  | unknownUnit _ => "KeyError"
  | clockFailure | clockExhausted => "RuntimeError"
  | notOffered => "AttributeError"
  | unknownName => "BadInput"
  | tooDeep => "RecursionError"
  | foreign kind _ => kind

def message : Fault → String
  | alreadyIn state => "This stopwatch is already " ++ state.name ++ "."
  | backwards => "Cannot advance clock backwards"
  | negativeStep => "auto_increment_ns must be non-negative"
  | overflow => "the number is out of range"
  | infiniteFigure => "the number is infinite"
  | unknownLength nanos => toString nanos ++ " is not a valid TimeUnit"
  | unknownUnit name => name
  | unknownState name => String.ofList (Text.Quoted.quote name.toList) ++ " is not a valid State"
  | clockFailure => "clock failure"
  | clockExhausted => "clock exhausted"
  | notOffered => "there is no such attribute"
  | unknownName => "no such name"
  | tooDeep => "maximum recursion depth exceeded"
  | foreign _ message => message

end Fault

/-- What ends a program without being caught or measured. -/
inductive Interruption
  | keyboard | exit | closing | bare
  deriving Repr, DecidableEq

structure Interrupt where
  cause : Interruption
  message : String
  deriving Repr, DecidableEq

namespace Interruption

def kind : Interruption → String
  | keyboard => "KeyboardInterrupt"
  | exit => "SystemExit"
  | closing => "GeneratorExit"
  | bare => "BaseException"

def ofKind? (kind : String) : Option Interruption :=
  [keyboard, exit, closing, bare].find? fun i => i.kind = kind

end Interruption
end Chronograph
