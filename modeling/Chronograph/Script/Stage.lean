import Chronograph.Script.Bench
import Chronograph.Stopwatch.During

set_option autoImplicit false

/-!
# The stage

A stage has a bench and a memory of any kind. Clocks and watches on the bench are
used on the stage, where a callable may be wrapped in loggings by such clocks. Main
statement: a watch that is held lawfully on the bench is so on the stage.
-/
namespace Chronograph.Script

structure Stage (M : Type) where
  bench : Bench := {}
  memory : M

namespace Stage
variable {M α : Type}

def onBench (f : Bench → α × Bench) (s : Stage M) : α × Stage M :=
  let r := f s.bench
  (r.1, { s with bench := r.2 })

def clock (id : ClockId) : Clock (Stage M) := ⟨onBench (Bench.clock id).read⟩

def held (h : Held Bench) : Held (Stage M) where
  clock := ⟨onBench h.clock.read⟩
  get s := h.get s.bench
  set w s := { s with bench := h.set w s.bench }

theorem held_lawful {h : Held Bench} (lawful : h.Lawful) : (held h : Held (Stage M)).Lawful where
  get_set w s := lawful.get_set w s.bench
  get_read s := lawful.get_read s.bench

/-- What must be there under the name that was asked for. -/
def known (f : Stage M → Option α) : Task (Stage M) α := Task.act fun s =>
  match f s with
  | some a => (.ok a, s)
  | none => (.error .unknownName, s)

def revise (change : M → M) : Task (Stage M) Unit :=
  Task.change fun s => { s with memory := change s.memory }

def watchNamed (name : String) : Task (Stage M) (Held (Stage M)) :=
  known fun s => (s.bench.held? name).map held

end Stage

structure Layer where
  clock : ClockId
  entry : Entry := {}
  address : String := "0x0"
  deriving Repr, DecidableEq

/-- The titles of a callable, and what it is wrapped in, the outermost last. -/
structure Label where
  title : Option String := none
  description : String := "<callable>"
  layers : List Layer := []
  deriving Repr, DecidableEq

section
variable {M V : Type}

def addLayer (r : Routine (Stage M) V) (layer : Layer) : Routine (Stage M) V :=
  r.logged (Stage.clock layer.clock) layer.entry layer.address

def Label.routine (l : Label) (run : Task (Stage M) V) : Routine (Stage M) V :=
  l.layers.foldl addLayer ⟨l.title, l.description, run⟩

end
end Chronograph.Script
