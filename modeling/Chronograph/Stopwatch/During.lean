import Chronograph.Stopwatch.Held
import Chronograph.Task

set_option autoImplicit false

/-!
# A stopwatch that runs during a task

The watch is started before the task and stopped after it, however the task
ends, unless the task left it standing. If it cannot be started the task does
not run; if it cannot be stopped, that failure takes the place of the task's end.
-/
namespace Chronograph.Held
variable {σ α : Type}

def leave (h : Held σ) : Task σ Unit := Task.act fun s =>
  match (h.get s).state with
  | .running => h.stop s
  | .stopped => (.ok (), s)

def during (h : Held σ) (body : Task σ α) : Task σ α := do
  Task.act h.start
  let ending ← body.outcome
  h.leave
  Task.settle ending

end Chronograph.Held
