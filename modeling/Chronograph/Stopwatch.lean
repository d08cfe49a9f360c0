import Chronograph.Clock
import Chronograph.Elapsed

set_option autoImplicit false

/-!
# Stopwatches

A stopwatch adds up the lengths of its segments, each from a start to the next
stop. Starting and stopping change the state before the clock is read, so a
reading that fails leaves the new state behind, with the total and the start of
the segment as they were. A running watch reads its clock for each query and
keeps nothing of it; a standing one does not read. Resetting never reads, and
leaves the start of the last segment where it is.
-/
namespace Chronograph

def State.moveTo (current target : State) : Except Fault State :=
  if current = target then .error (.alreadyIn current) else .ok target

structure Stopwatch where
  state : State := .stopped
  accumulated : Int := 0
  segmentStart : Int := 0
  deriving Repr, DecidableEq

namespace Stopwatch
variable {σ : Type}

def start (c : Clock σ) (w : Stopwatch) (s : σ) : Except Fault Unit × Stopwatch × σ :=
  match w.state.moveTo .running with
  | .error e => (.error e, w, s)
  | .ok state => match c.read s with
    | (.error e, s) => (.error e, { w with state }, s)
    | (.ok now, s) => (.ok (), { w with state, segmentStart := now }, s)

def stop (c : Clock σ) (w : Stopwatch) (s : σ) : Except Fault Unit × Stopwatch × σ :=
  match w.state.moveTo .stopped with
  | .error e => (.error e, w, s)
  | .ok state => match c.read s with
    | (.error e, s) => (.error e, { w with state }, s)
    | (.ok now, s) =>
      (.ok (), { w with state, accumulated := w.accumulated + (now - w.segmentStart) }, s)

def reset (w : Stopwatch) : Stopwatch := { w with state := .stopped, accumulated := 0 }

def elapsed (c : Clock σ) (w : Stopwatch) (s : σ) : Except Fault Int × σ :=
  match w.state with
  | .stopped => (.ok w.accumulated, s)
  | .running => match c.read s with
    | (.error e, s) => (.error e, s)
    | (.ok now, s) => (.ok (w.accumulated + (now - w.segmentStart)), s)

inductive Report
  | done
  | state (state : State)
  | count (n : Int)
  | duration (d : Duration)
  | text (text : String)
  deriving Repr, DecidableEq

inductive Query
  | nanos
  | whole (u : TimeUnit)
  | duration
  | text
  | description
  deriving Repr, DecidableEq

/-- The answer that a total gives to a query on a watch in that state. -/
def Query.report (state : State) (n : Int) : Query → Except Fault Report
  | .nanos => .ok (.count n)
  | .whole u => .ok (.count (u.whole n))
  | .duration => (Elapsed.duration n).map .duration
  | .text => (Elapsed.text n).map .text
  | .description => (Elapsed.text n).map fun text =>
    .text ("Stopwatch(state=" ++ state.name ++ ", elapsed='" ++ text ++ "')")

def query (c : Clock σ) (q : Query) (w : Stopwatch) (s : σ) : Except Fault Report × σ :=
  match w.elapsed c s with
  | (.error e, s) => (.error e, s)
  | (.ok n, s) => (q.report w.state n, s)

inductive Command
  | start
  | stop
  | reset
  | state
  | query (q : Query)
  deriving Repr, DecidableEq

def command (c : Clock σ) (w : Stopwatch) (s : σ) : Command → Except Fault Report × Stopwatch × σ
  | .start => match w.start c s with
    | (.ok _, w, s) => (.ok .done, w, s)
    | (.error e, w, s) => (.error e, w, s)
  | .stop => match w.stop c s with
    | (.ok _, w, s) => (.ok .done, w, s)
    | (.error e, w, s) => (.error e, w, s)
  | .reset => (.ok .done, w.reset, s)
  | .state => (.ok (.state w.state), w, s)
  | .query q => match w.query c q s with
    | (r, s) => (r, w, s)

theorem start_running (c : Clock σ) (w : Stopwatch) (s : σ) (h : w.state = .running) :
    w.start c s = (.error (.alreadyIn .running), w, s) := by simp [start, State.moveTo, h]

theorem stop_stopped (c : Clock σ) (w : Stopwatch) (s : σ) (h : w.state = .stopped) :
    w.stop c s = (.error (.alreadyIn .stopped), w, s) := by simp [stop, State.moveTo, h]

theorem elapsed_stopped (c : Clock σ) (w : Stopwatch) (s : σ) (h : w.state = .stopped) :
    w.elapsed c s = (.ok w.accumulated, s) := by simp [elapsed, h]

section
variable {c : Clock σ} {w : Stopwatch} {s t : σ} {now : Int} {e : Fault}

theorem start_read (h : w.state = .stopped) (hread : c.read s = (.ok now, t)) :
    w.start c s = (.ok (), { w with state := .running, segmentStart := now }, t) := by
  simp [start, State.moveTo, h, hread]

theorem start_unread (h : w.state = .stopped) (hread : c.read s = (.error e, t)) :
    w.start c s = (.error e, { w with state := .running }, t) := by
  simp [start, State.moveTo, h, hread]

theorem stop_read (h : w.state = .running) (hread : c.read s = (.ok now, t)) :
    w.stop c s = (.ok (), { w with
      state := .stopped
      accumulated := w.accumulated + (now - w.segmentStart) }, t) := by
  simp [stop, State.moveTo, h, hread]

theorem stop_unread (h : w.state = .running) (hread : c.read s = (.error e, t)) :
    w.stop c s = (.error e, { w with state := .stopped }, t) := by
  simp [stop, State.moveTo, h, hread]

theorem elapsed_read (h : w.state = .running) (hread : c.read s = (.ok now, t)) :
    w.elapsed c s = (.ok (w.accumulated + (now - w.segmentStart)), t) := by
  simp [elapsed, h, hread]

theorem elapsed_unread (h : w.state = .running) (hread : c.read s = (.error e, t)) :
    w.elapsed c s = (.error e, t) := by
  simp [elapsed, h, hread]

end

end Stopwatch
end Chronograph
