import Chronograph.Script.Bench

set_option autoImplicit false

/-!
# Steps

The steps of a script: operations on the bench, and what runs the programs that
are written out in it. A program is a list of steps with the titles that a
routine has; it may be written as logged, once or more than once.
-/
namespace Chronograph.Script

structure Timing where
  clock : Option String
  entry : Entry := {}
  address : String := "0x0"
  deriving Repr, DecidableEq

/-- The titles of a program and its loggings, the outermost last. -/
structure Heading where
  title : Option String
  description : String := "<callable>"
  timings : List Timing := []
  deriving Repr, DecidableEq

inductive Step
  | operate (op : Operation)
  | during (watch : String) (body : List Step)
  | attempt (body : List Step)
  | raise (kind message : String)
  /-- Fails as a watch would that is in the state of that name. -/
  | raiseState (name : String)
  /-- Ends the program that is run, with a value. -/
  | giveBack (v : Value)
  /-- Ends the program that is run, with what it was called with. -/
  | giveArguments
  | measure (method : Method) (clock : Option String) (heading : Heading) (body : List Step)
      (keep : Option String)
  | unwrap (result : String)
  | equal (a b : String)
  | define (name : String) (heading : Heading) (body : List Step)
  | call (name : String) (arguments : List Value) (options : List (String × Value))
  | setLevel (logger : Logger) (level : Int)

end Chronograph.Script
