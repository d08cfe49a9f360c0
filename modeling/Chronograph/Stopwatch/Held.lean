import Chronograph.Stopwatch

set_option autoImplicit false

/-!
# Stopwatches in their surroundings

A watch is often kept in the same surroundings as the clock that it reads. What
is done to it there is what is done to the watch and the clock, with the watch
put back. Nothing is said of surroundings that are not lawful.
-/
namespace Chronograph

/-- A place for a stopwatch in `σ`, and the clock that the watch there reads. -/
structure Held (σ : Type) where
  clock : Clock σ
  get : σ → Stopwatch
  set : Stopwatch → σ → σ

namespace Held
variable {σ : Type}

structure Lawful (h : Held σ) : Prop where
  get_set : ∀ w s, h.get (h.set w s) = w
  get_read : ∀ s, h.get (h.clock.read s).2 = h.get s

/-- Puts back the watch that an action on watch and surroundings leaves. -/
def keep {α : Type} (h : Held σ) : α × Stopwatch × σ → α × σ
  | (a, w, s) => (a, h.set w s)

def start (h : Held σ) (s : σ) : Except Fault Unit × σ := h.keep ((h.get s).start h.clock s)

def stop (h : Held σ) (s : σ) : Except Fault Unit × σ := h.keep ((h.get s).stop h.clock s)

def command (h : Held σ) (c : Stopwatch.Command) (s : σ) : Except Fault Stopwatch.Report × σ :=
  h.keep ((h.get s).command h.clock s c)

end Held
end Chronograph
