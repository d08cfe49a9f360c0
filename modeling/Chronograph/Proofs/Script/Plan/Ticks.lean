import Mathlib
import Chronograph.Proofs.Elapsed.Order
import Chronograph.Proofs.Script.Plan.Course
import Chronograph.Proofs.Script.Refusal

set_option autoImplicit false

/-!
# Accounts of a clock that moves by hand

A clock that moves by hand goes through readings, moves that it accepts, and new
steps. Whoever reads it, a reading shows where the clock began, further by all moves
before it and by the steps of all readings before it, each as it was set at that
reading. So a measurement tells the moves that were accepted while its callable ran,
the step of its own first reading, and the steps of the readings that the callable
took, with all that it runs.
-/
namespace Chronograph

/-- What a clock that moves by hand goes through. -/
inductive Tick
  | reading (now : ℤ)
  | advanced (n : ℤ)
  | stepped (step : ℕ)
  deriving Repr, DecidableEq

namespace Tick

def reading? : Tick → Option ℤ
  | reading now => some now
  | advanced _ | stepped _ => none

def moved : List Tick → ℤ
  | [] => 0
  | advanced n :: rest => n + moved rest
  | reading _ :: rest | stepped _ :: rest => moved rest

/-- The sum over the readings of the step that was set at each. -/
def incremented : ℕ → List Tick → ℤ
  | _, [] => 0
  | step, reading _ :: rest => step + incremented step rest
  | step, advanced _ :: rest => incremented step rest
  | _, stepped step :: rest => incremented step rest

end Tick

namespace ManualClock

/-- The clock goes through all this, and comes to be the other. -/
inductive Through : ManualClock → List Tick → ManualClock → Prop
  | nil (c : ManualClock) : Through c [] c
  | reading (c : ManualClock) {d : ManualClock} {ticks : List Tick} (h : Through c.read.2 ticks d) :
    Through c (.reading c.read.1 :: ticks) d
  | advanced {b c d : ManualClock} {n : ℤ} {ticks : List Tick} (hc : b.advance n = .ok c)
    (h : Through c ticks d) : Through b (.advanced n :: ticks) d
  | stepped {b c d : ManualClock} {n : ℤ} {ticks : List Tick} (hc : b.setStep n = .ok c)
    (h : Through c ticks d) : Through b (.stepped n.toNat :: ticks) d

variable {c d e : ManualClock} {n : ℤ} {ticks later : List Tick}

theorem eq_of_advance (h : c.advance n = .ok d) : d = { c with now := c.now + n } := by
  unfold advance at h
  split at h <;> cases h
  rfl

theorem eq_of_setStep (h : c.setStep n = .ok d) : d = { c with step := n.toNat } := by
  unfold setStep at h
  split at h <;> cases h
  rfl

theorem through_append (h : c.Through ticks d) (hlater : d.Through later e) :
    c.Through (ticks ++ later) e := by
  induction h with
  | nil => exact hlater
  | reading c _ ih => exact .reading c (ih hlater)
  | advanced hc _ ih => exact .advanced hc (ih hlater)
  | stepped hc _ ih => exact .stepped hc (ih hlater)

theorem exists_through_append (h : c.Through (ticks ++ later) e) :
    ∃ d, c.Through ticks d ∧ d.Through later e := by
  induction ticks generalizing c with
  | nil => exact ⟨c, .nil c, h⟩
  | cons tick rest ih =>
    cases h with
    | reading _ h =>
      obtain ⟨d, hd, he⟩ := ih h
      exact ⟨d, .reading c hd, he⟩
    | advanced hc h =>
      obtain ⟨d, hd, he⟩ := ih h
      exact ⟨d, .advanced hc hd, he⟩
    | stepped hc h =>
      obtain ⟨d, hd, he⟩ := ih h
      exact ⟨d, .stepped hc hd, he⟩

/-- Where the clock comes to: each reading is charged with the step that was set at it. -/
theorem now_of_through (h : c.Through ticks d) :
    d.now = c.now + Tick.moved ticks + Tick.incremented c.step ticks := by
  induction h with
  | nil => simp [Tick.moved, Tick.incremented]
  | reading c _ ih =>
    simp only [Tick.moved, Tick.incremented, ih, read]
    omega
  | advanced hc _ ih =>
    simp only [Tick.moved, Tick.incremented, ih, eq_of_advance hc]
    omega
  | stepped hc _ ih => simp only [Tick.moved, Tick.incremented, ih, eq_of_setStep hc]

theorem reading_of_through {now : ℤ} (h : c.Through (ticks ++ .reading now :: later) e) :
    now = c.now + Tick.moved ticks + Tick.incremented c.step ticks := by
  obtain ⟨d, hd, he⟩ := exists_through_append h
  cases he with
  | reading _ _ => exact now_of_through hd

theorem le_of_through (h : c.Through ticks d) : ∀ now ∈ ticks.filterMap Tick.reading?, c.now ≤ now := by
  induction h with
  | nil => exact fun _ hnow => absurd hnow List.not_mem_nil
  | reading c _ ih =>
    intro now hnow
    rcases List.mem_cons.mp hnow with rfl | hnow
    · exact le_refl _
    · exact (le_read c).trans (ih now hnow)
  | advanced hc _ ih => exact fun now hnow => (le_of_advance hc).trans (ih now hnow)
  | stepped hc _ ih =>
    intro now hnow
    have hle := ih now hnow
    rwa [eq_of_setStep hc] at hle

theorem readings_rise (h : c.Through ticks d) : (ticks.filterMap Tick.reading?).Pairwise (· ≤ ·) := by
  induction h with
  | nil => exact .nil
  | reading c h ih => exact .cons (fun now hnow => (le_read c).trans (le_of_through h now hnow)) ih
  | advanced _ _ ih | stepped _ _ ih => exact ih

end ManualClock

namespace Timepiece

def Command.change? : Command → Option Tick
  | .advance n => some (.advanced n)
  | .advanceBy days seconds microseconds =>
    (Duration.ofParts? days seconds microseconds).map fun d => .advanced (d.toMicroseconds * 1000)
  | .setStep n => some (.stepped n.toNat)
  | .read | .step => none

def changes (t : Timepiece) (q : Command) : List Tick :=
  if (t.command q).1.isOk then q.change?.toList else []

theorem changes_read (t : Timepiece) : t.changes .read = [] := ite_self _

theorem through_changes (c : ManualClock) {q : Command} (hq : q ≠ .read) :
    ∃ d, ((manual c).command q).2 = .manual d ∧ c.Through ((manual c).changes q) d := by
  have hadjust (change : ManualClock → Except Fault ManualClock) (tick : Tick)
      (htick : ∀ d, change c = .ok d → c.Through [tick] d) :
      ∃ d, ((manual c).adjust change).2 = .manual d ∧
        c.Through (if ((manual c).adjust change).1.isOk then [tick] else []) d := by
    cases hd : change c with
    | ok d =>
      rw [adjust_accepted change hd]
      exact ⟨d, rfl, htick d hd⟩
    | error e =>
      rw [adjust_refused change hd]
      exact ⟨c, rfl, .nil c⟩
  unfold changes
  cases q with
  | read => exact absurd rfl hq
  | advance n => exact hadjust (·.advance n) (.advanced n) fun d hd => .advanced hd (.nil d)
  | advanceBy days seconds microseconds =>
    cases hx : Duration.ofParts? days seconds microseconds with
    | none =>
      simp only [command, Command.change?, hx]
      exact ⟨c, rfl, .nil c⟩
    | some x =>
      simp only [command, Command.change?, hx]
      exact hadjust (·.advanceBy x) (.advanced (x.toMicroseconds * 1000)) fun d hd =>
        .advanced hd (.nil d)
  | step => exact ⟨c, rfl, .nil c⟩
  | setStep n => exact hadjust (·.setStep n) (.stepped n.toNat) fun d hd => .stepped hd (.nil d)

end Timepiece

namespace Stopwatch
variable {σ : Type}

def taken (c : Clock σ) (w : Stopwatch) (s : σ) (q : Command) : List (Except Fault ℤ) :=
  (w.command c.kept (s, []) q).2.2.2

theorem taken_cases (c : Clock σ) (w : Stopwatch) (s : σ) (q : Command) :
    (w.taken c s q = [] ∧ (w.command c s q).2.2 = s) ∨
      (w.taken c s q = [(c.read s).1] ∧ (w.command c s q).2.2 = (c.read s).2) := by
  unfold taken
  cases q with
  | reset => exact Or.inl ⟨rfl, rfl⟩
  | state => exact Or.inl ⟨rfl, rfl⟩
  | start =>
    cases h : w.state
    · rw [command_start h, command_start h]
      exact Or.inr ⟨rfl, rfl⟩
    · rw [command_start_running h, command_start_running h]
      exact Or.inl ⟨rfl, rfl⟩
  | stop =>
    cases h : w.state
    · rw [command_stop_stopped h, command_stop_stopped h]
      exact Or.inl ⟨rfl, rfl⟩
    · rw [command_stop h, command_stop h]
      exact Or.inr ⟨rfl, rfl⟩
  | query q =>
    cases h : w.state
    · rw [command_query_stopped h, command_query_stopped h]
      exact Or.inl ⟨rfl, rfl⟩
    · rw [command_query_running h, command_query_running h]
      exact Or.inr ⟨rfl, rfl⟩

theorem command_start_left (c : Clock σ) (w : Stopwatch) (s : σ) :
    (w.command c s .start).2 = (w.start c s).2 := by
  unfold command
  rcases w.start c s with ⟨_ | _, v, t⟩ <;> rfl

theorem command_stop_left (c : Clock σ) (w : Stopwatch) (s : σ) :
    (w.command c s .stop).2 = (w.stop c s).2 := by
  unfold command
  rcases w.stop c s with ⟨_ | _, v, t⟩ <;> rfl

end Stopwatch

namespace Script
open Measurement
variable {M V : Type}

namespace Bench

def askTaken (b : Bench) (name : String) (q : Stopwatch.Command) : List (ClockId × Except Fault ℤ) :=
  match b.place? name with
  | some (place, k) => (((held place k).get b).taken (clock k) b q).map (k, ·)
  | none => []

end Bench

/-- The readings that an operation takes, with the clock of each. -/
def Operation.taken (b : Bench) : Operation → List (ClockId × Except Fault ℤ)
  | .clock name .read => (b.clockId? (some name)).toList.map fun k => (k, ((Bench.clock k).read b).1)
  | .makeWatch _ clockName true =>
    match b.clockId? clockName with
    | some k => (({} : Stopwatch).taken (Bench.clock k) b .start).map (k, ·)
    | none => []
  | .watch name q => b.askTaken name q
  | .elapsedIn name unit =>
    match TimeUnit.ofName? unit with
    | some u => b.askTaken name (.query (.whole u))
    | none => []
  | .clock _ _ | .makeWatch _ _ false | .makeClock _ _ _ | .makeTape _ _ | .clockOf _ => []

namespace Act

def taken (b : Bench) : Act V → List (ClockId × Except Fault ℤ)
  | .read k => [(k, ((Bench.clock k).read b).1)]
  | .operate op => op.taken b
  | .enter watch => b.askTaken watch .start
  | .leave place k => (((Bench.held place k).get b).taken (Bench.clock k) b .stop).map (k, ·)
  | .finish _ | .setLevel _ _ | .mention _ => []

/-- What the clock accepts besides. -/
def changes (id : ClockId) (b : Bench) : Act V → List Tick
  | .operate (.clock name q) =>
    if b.clockId? (some name) = some id then (b.clocks.get? id).elim [] (·.changes q) else []
  | _ => []

def ticks (id : ClockId) (b : Bench) (act : Act V) : List Tick :=
  ((act.taken b).filterMap fun p => if p.1 = id then p.2.toOption.map .reading else none) ++
    act.changes id b

end Act

/-- What the clock goes through in a course from that bench on. -/
def ticks (id : ClockId) : Bench → List (Act V) → List Tick
  | _, [] => []
  | b, act :: rest => act.ticks id b ++ ticks id (act.move b) rest

namespace Bench
variable {a b : Bench} {id : ClockId} {c d : ManualClock} {acts : List (Act V)}

/-- From one bench to the other these readings were taken, and no clock changed but by them. -/
inductive Took (a b : Bench) : List (ClockId × Except Fault ℤ) → Prop
  | none (hversions : b.clockVersions = a.clockVersions) (hclocks : b.clocks = a.clocks) : Took a b []
  | one (k : ClockId) (hversions : b.clockVersions = a.clockVersions)
    (hclocks : b.clocks = ((clock k).read a).2.clocks) : Took a b [(k, ((clock k).read a).1)]

theorem took_read (k : ClockId) (a : Bench) : Took a ((clock k).read a).2 [(k, ((clock k).read a).1)] :=
  .one k (onClock_clockVersions a k _) rfl

theorem took_taken (k : ClockId) (a : Bench) (w : Stopwatch) (q : Stopwatch.Command)
    (hversions : b.clockVersions = (w.command (clock k) a q).2.2.clockVersions)
    (hclocks : b.clocks = (w.command (clock k) a q).2.2.clocks) :
    Took a b ((w.taken (clock k) a q).map (k, ·)) := by
  rcases Stopwatch.taken_cases (clock k) w a q with ⟨htaken, hleft⟩ | ⟨htaken, hleft⟩ <;>
    rw [htaken] <;> rw [hleft] at hversions hclocks
  · exact .none hversions hclocks
  · exact .one k (hversions.trans (onClock_clockVersions a k _)) hclocks

theorem place?_of_held {name : String} {h : Held Bench} (hheld : a.held? name = some h) :
    ∃ place k, a.place? name = some (place, k) ∧ h = held place k := by
  rw [held?_eq] at hheld
  obtain ⟨⟨place, k⟩, hplace, rfl⟩ := Option.map_eq_some_iff.mp hheld
  exact ⟨place, k, hplace, rfl⟩

theorem place?_of_unheld {name : String} (hheld : a.held? name = none) : a.place? name = none := by
  rw [held?_eq] at hheld
  exact Option.map_eq_none_iff.mp hheld

theorem took_ask (a : Bench) (name : String) (q : Stopwatch.Command) :
    Took a (a.ask name q).2 (a.askTaken name q) := by
  cases hheld : a.held? name with
  | none =>
    simp only [ask, askTaken, hheld, place?_of_unheld hheld]
    exact .none rfl rfl
  | some h =>
    obtain ⟨place, k, hplace, rfl⟩ := place?_of_held hheld
    rw [ask_eq hheld]
    simp only [askTaken, hplace]
    exact took_taken k a _ q rfl rfl

theorem took_makeWatch (a : Bench) (name : String) (k : ClockId) :
    Took a (a.makeWatch name k true).2 ((({} : Stopwatch).taken (clock k) a .start).map (k, ·)) := by
  have hstart := Stopwatch.command_start_left (clock k) {} a
  unfold makeWatch
  dsimp only
  rcases hs : ({} : Stopwatch).start (clock k) a with ⟨_ | _, w, b⟩ <;> rw [hs] at hstart <;>
    exact took_taken k a {} .start (by rw [hstart]; rfl) (by rw [hstart]; rfl)

theorem took_perform (a : Bench) {op : Operation} (hop : op.watch? ≠ none) :
    Took a (a.perform op).2 (op.taken a) := by
  unfold perform Operation.taken
  cases op with
  | makeClock name start step => exact absurd rfl hop
  | makeTape name t => exact absurd rfl hop
  | clock name c => exact absurd rfl hop
  | makeWatch name clockName running =>
    cases running with
    | false =>
      dsimp only
      cases a.clockId? clockName <;> exact .none rfl rfl
    | true =>
      dsimp only
      cases a.clockId? clockName with
      | none => exact .none rfl rfl
      | some k => exact took_makeWatch a name k
  | watch name c => exact took_ask a name c
  | elapsedIn name unit =>
    dsimp only
    cases TimeUnit.ofName? unit with
    | none => exact .none rfl rfl
    | some u => exact took_ask a name _
  | clockOf name =>
    dsimp only
    cases (a.watchId? name).bind a.clockIdOf? <;> exact .none rfl rfl

structure Turns (b : Bench) (id : ClockId) (c : ManualClock) : Prop where
  gave : b.Gave id
  clock : b.clocks.get? id = some (.manual c)

theorem turns_took {taken : List (ClockId × Except Fault ℤ)} (h : a.Turns id c) (htook : Took a b taken) :
    ∃ d, b.Turns id d ∧
      c.Through (taken.filterMap fun p => if p.1 = id then p.2.toOption.map .reading else none) d := by
  cases htook with
  | none hversions hclocks =>
    exact ⟨c, ⟨gave_of_versions hversions h.gave, hclocks ▸ h.clock⟩, .nil c⟩
  | one k hversions hclocks =>
    have hclock : b.clocks.get? id =
        (a.clocks.get? id).map fun t => if k = id then t.read.2 else t := by
      rw [hclocks]
      exact get?_onClock a k id Timepiece.read
    rw [h.clock] at hclock
    by_cases hk : k = id
    · subst hk
      simp only [List.filterMap_cons, List.filterMap_nil, if_true, read_eq_of_get? h.clock]
      rw [Option.map_some, if_pos rfl] at hclock
      exact ⟨c.read.2, ⟨gave_of_versions hversions h.gave, hclock⟩, .reading c (.nil _)⟩
    · simp only [List.filterMap_cons, List.filterMap_nil, if_neg hk]
      rw [Option.map_some, if_neg hk] at hclock
      exact ⟨c, ⟨gave_of_versions hversions h.gave, hclock⟩, .nil c⟩

theorem turns_addClock (h : a.Turns id c) (name : String) (t : Timepiece) :
    (a.addClock name t).Turns id c := by
  refine ⟨(gave_addClock_iff a name t id).mpr (Or.inr h.gave), ?_⟩
  rw [get?_addClock, if_neg ?_, h.clock]
  rintro rfl
  exact not_gave_next a name h.gave

theorem turns_command (h : a.Turns id c) {k : ClockId} {q : Timepiece.Command} (hq : q ≠ .read) :
    ∃ d, (a.onClock k (·.command q)).2.Turns id d ∧
      c.Through (if k = id then (Timepiece.manual c).changes q else []) d := by
  have hclock := get?_onClock a k id (·.command q)
  rw [h.clock, Option.map_some] at hclock
  have hgave := gave_of_versions (onClock_clockVersions a k (·.command q)) h.gave
  by_cases hk : k = id
  · obtain ⟨d, hd, hthrough⟩ := Timepiece.through_changes c hq
    rw [if_pos hk, hd] at hclock
    rw [if_pos hk]
    exact ⟨d, ⟨hgave, hclock⟩, hthrough⟩
  · rw [if_neg hk] at hclock
    rw [if_neg hk]
    exact ⟨c, ⟨hgave, hclock⟩, .nil c⟩

theorem took_clockRead (a : Bench) (name : String) :
    Took a (a.perform (.clock name .read)).2 (Operation.taken a (.clock name .read)) := by
  cases hid : a.clockId? (some name) with
  | none =>
    simp only [perform, Operation.taken, hid]
    exact .none rfl rfl
  | some k =>
    have hturn (t : Timepiece) : (t.command .read).2 = t.read.2 := by
      unfold Timepiece.command
      rcases t.read with ⟨_ | _, u⟩ <;> rfl
    have hread : (a.onClock k (·.command .read)).2 = ((clock k).read a).2 := by
      cases ht : a.clocks.get? k <;> simp only [clock, onClock, ht, hturn]
    rw [perform_clock_eq hid, hread]
    simp only [Operation.taken, hid]
    exact took_read k a

end Bench

section
open Bench
variable {b : Bench} {id : ClockId} {c : ManualClock} {w : World (Stage M)}

/-- An act of which the clock accepts nothing changes it by its readings. -/
theorem turns_taken (h : b.Turns id c) (act : Act V) (htook : Took b (act.move b) (act.taken b))
    (hchanges : act.changes id b = []) :
    ∃ d, (act.move b).Turns id d ∧ c.Through (act.ticks id b) d := by
  obtain ⟨d, hd, hthrough⟩ := turns_took h htook
  unfold Act.ticks
  rw [hchanges, List.append_nil]
  exact ⟨d, hd, hthrough⟩

theorem turns_operate (h : b.Turns id c) (op : Operation) :
    ∃ d, (b.perform op).2.Turns id d ∧ c.Through ((.operate op : Act V).ticks id b) d := by
  cases op with
  | makeWatch name clockName running =>
    exact turns_taken h (.operate (.makeWatch name clockName running)) (took_perform b nofun) rfl
  | watch name q => exact turns_taken h (.operate (.watch name q)) (took_perform b nofun) rfl
  | elapsedIn name unit => exact turns_taken h (.operate (.elapsedIn name unit)) (took_perform b nofun) rfl
  | clockOf name => exact turns_taken h (.operate (.clockOf name)) (took_perform b nofun) rfl
  | makeClock name start step =>
    unfold Bench.perform
    dsimp only
    cases ManualClock.make start step with
    | ok t => exact ⟨c, turns_addClock h name _, .nil c⟩
    | error e => exact ⟨c, h, .nil c⟩
  | makeTape name t => exact ⟨c, turns_addClock h name _, .nil c⟩
  | clock name q =>
    by_cases hq : q = .read
    · subst hq
      refine turns_taken h (.operate (.clock name .read)) (took_clockRead b name) ?_
      simp only [Act.changes, h.clock, Option.elim_some, Timepiece.changes_read, ite_self]
    · -- Any other command takes no reading, and changes the clock that it names alone.
      have htaken : (Operation.clock name q).taken b = [] := by
        cases q with
        | read => exact absurd rfl hq
        | advance _ | advanceBy _ _ _ | step | setStep _ => rfl
      have hticks : (.operate (.clock name q) : Act V).ticks id b =
          if b.clockId? (some name) = some id then (Timepiece.manual c).changes q else [] := by
        simp only [Act.ticks, Act.taken, Act.changes, htaken, h.clock, List.filterMap_nil, List.nil_append,
          Option.elim_some]
      rw [hticks]
      cases hid : b.clockId? (some name) with
      | none =>
        simp only [Bench.perform, hid, reduceCtorEq, if_false]
        exact ⟨c, h, .nil c⟩
      | some k =>
        rw [perform_clock_eq hid]
        simp only [Option.some.injEq]
        exact turns_command h hq

theorem turns_move (h : b.Turns id c) (act : Act V) :
    ∃ d, (act.move b).Turns id d ∧ c.Through (act.ticks id b) d := by
  cases act with
  | operate op => exact turns_operate h op
  | read k => exact turns_taken h _ (took_read k b) rfl
  | enter watch =>
    refine turns_taken h _ ?_ rfl
    cases hheld : b.held? watch with
    | none =>
      simp only [Act.move, Act.taken, askTaken, hheld, place?_of_unheld hheld]
      exact .none rfl rfl
    | some held =>
      obtain ⟨place, k, hplace, rfl⟩ := place?_of_held hheld
      have hstart := Stopwatch.command_start_left (clock k) ((Bench.held place k).get b) b
      simp only [Act.move, Act.taken, askTaken, hheld, hplace]
      exact took_taken k b _ .start (by rw [hstart]; rfl) (by rw [hstart]; rfl)
  | leave place k =>
    refine turns_taken h _ ?_ rfl
    cases hstate : ((Bench.held place k).get b).state with
    | running =>
      have hstop := Stopwatch.command_stop_left (clock k) ((Bench.held place k).get b) b
      simp only [Act.move, Act.taken, hstate]
      exact took_taken k b _ .stop (by rw [hstop]; rfl) (by rw [hstop]; rfl)
    | stopped =>
      -- A watch that stands is not told to stop, but if it were it would not read either.
      have hstop := Stopwatch.command_stop_stopped hstate (clock k) b
      simp only [Act.move, Act.taken, hstate]
      exact took_taken k b _ .stop (by rw [hstop]) (by rw [hstop])
  | finish round => exact turns_taken h _ (.none rfl rfl) rfl
  | setLevel logger level => exact turns_taken h _ (.none rfl rfl) rfl
  | mention logger => exact turns_taken h _ (.none rfl rfl) rfl

theorem turns_course (h : b.Turns id c) (acts : List (Act V)) :
    ∃ d, (acts.foldl Act.move b).Turns id d ∧ c.Through (ticks id b acts) d := by
  induction acts generalizing b c with
  | nil => exact ⟨c, h, .nil c⟩
  | cons act rest ih =>
    obtain ⟨d, hd, hthrough⟩ := turns_move h act
    obtain ⟨e, he, hlater⟩ := ih hd
    exact ⟨e, he, ManualClock.through_append hthrough hlater⟩

theorem turns_makeClock {start step : ℤ} (hc : ManualClock.make start step = .ok c) (b : Bench)
    (name : String) : (b.perform (.makeClock name start step)).2.Turns
      (.named name (nextVersion b.clockVersions name)) c := by
  unfold Bench.perform
  simp only [hc]
  exact ⟨(gave_addClock_iff b name _ _).mpr (Or.inl rfl), by rw [get?_addClock, if_pos rfl]⟩

/-- A measurement on the clock reads it before its callable and after it. -/
theorem nanos_of_turns (h : w.setting.bench.Turns id c) {s : Episode M V}
    (hs : ∀ w, Leads (s.course w) w (s.routine.run w).2) {m : Method} {reported : Reported V}
    (hreported : (m.measure s.routine (Stage.clock id) w).1 = .ok reported) :
    reported.nanos = c.step + Tick.moved (ticks id ((Stage.clock id).after w).setting.bench
        (s.course ((Stage.clock id).after w))) +
      Tick.incremented c.step (ticks id ((Stage.clock id).after w).setting.bench
        (s.course ((Stage.clock id).after w))) := by
  have hfirst : ((Stage.clock id).read w.setting).1 = .ok c.now := read_eq_of_get? h.clock
  have hafter : ((Stage.clock id).after w).setting.bench.Turns id c.read.2 := by
    obtain ⟨d, hd, hthrough⟩ := turns_took h (took_read id w.setting.bench)
    simp only [List.filterMap_cons, List.filterMap_nil, if_true, read_eq_of_get? h.clock] at hthrough
    cases hthrough with
    | reading _ hrest =>
      cases hrest
      exact hd
  obtain ⟨d, hd, hthrough⟩ := turns_course hafter (s.course ((Stage.clock id).after w))
  rw [← (hs ((Stage.clock id).after w)).bench] at hd
  have hlast : ((Stage.clock id).read (s.routine.run ((Stage.clock id).after w)).2.setting).1 = .ok d.now :=
    read_eq_of_get? hd.clock
  rw [nanos_of_measure (Prod.ext hreported rfl) hfirst hlast, ManualClock.now_of_through hthrough]
  simp only [ManualClock.read]
  omega

/-- A run leaves the clock where it goes through what is done to it. Every reading shows
    where it began, further by what it was moved and by the steps of the readings
    before; so no reading falls. A measurement of the plan tells the moves during its
    run, the step of the first reading, and the steps of the readings in its run. -/
theorem Plan.accounts (p : Plan M V) (h : w.setting.bench.Turns id c) :
    (∃ d, (p.run w).2.setting.bench.Turns id d ∧
      c.Through (ticks id w.setting.bench (p.course w)) d) ∧
    (∀ before now later, ticks id w.setting.bench (p.course w) = before ++ .reading now :: later →
      now = c.now + Tick.moved before + Tick.incremented c.step before) ∧
    ((ticks id w.setting.bench (p.course w)).filterMap Tick.reading?).Pairwise (· ≤ ·) ∧
    ∀ (label : Label) (m : Method) (reported : Reported V),
      (m.measure (label.routine p.run) (Stage.clock id) w).1 = .ok reported →
        let inside := ticks id ((Stage.clock id).after w).setting.bench
          ((label.episode p.run p.course).course ((Stage.clock id).after w))
        reported.nanos = c.step + Tick.moved inside + Tick.incremented c.step inside := by
  obtain ⟨d, hd, hthrough⟩ := turns_course h (p.course w)
  refine ⟨⟨d, ?_, hthrough⟩, fun before now later heq => ?_, ManualClock.readings_rise hthrough, ?_⟩
  · rwa [(p.leads w).bench]
  · rw [heq] at hthrough
    exact ManualClock.reading_of_through hthrough
  · intro label m reported hreported
    rw [← Label.episode_routine label p.run p.course] at hreported
    exact nanos_of_turns h (leads_label label p.leads) hreported

end

def changedStep : Plan Unit ℤ :=
  .operate (.makeWatch "watch" (some "clock") true) fun _ =>
    .operate (.clock "clock" (.advance 3)) fun _ => .operate (.clock "clock" (.advance (-4))) fun _ =>
      .operate (.clock "clock" (.setStep 10)) fun _ =>
        .measure .valued (.named "clock" 0) { title := some "inner" }
          (.operate (.watch "watch" (.query .nanos)) fun _ => .ends (.error (.interrupt ⟨.exit, "end"⟩)))
          fun _ => .operate (.clock "clock" .read) fun _ => .ends (.ok 1)

def steppedWorld : World (Stage Unit) where
  setting := { bench := (({} : Bench).perform (.makeClock "clock" 5 2)).2, memory := () }

/-- The whole takes 37: a step of 2 before it, a move of 3, and the steps of four readings in it. -/
theorem Plan.accounts_changedStep :
    steppedWorld.setting.bench.Turns (.named "clock" 0) ⟨5, 2⟩ ∧
      ticks (.named "clock" 0) steppedWorld.setting.bench (changedStep.course steppedWorld) =
        [.reading 5, .advanced 3, .stepped 10, .reading 10, .reading 20, .reading 30] ∧
      ∃ reported, (Method.captured.measure (({ title := some "whole" } : Label).routine changedStep.run)
        (Stage.clock (.named "clock" 0)) steppedWorld).1 = .ok reported ∧ reported.nanos = 37 := by
  have h : steppedWorld.setting.bench.Turns (.named "clock" 0) ⟨5, 2⟩ := turns_makeClock rfl {} "clock"
  obtain ⟨text, _, htext, _⟩ := Elapsed.exists_text_of_next? (show (0 : ℤ) < 42 - 5 by decide)
    (w := .microseconds) (by decide)
  have hfirst : ((Stage.clock (.named "clock" 0)).read steppedWorld.setting).1 = .ok 5 := rfl
  have hrun : (changedStep.run ((Stage.clock (.named "clock" 0)).after steppedWorld)).1 = .ok 1 := by rfl
  have hlast : ((Stage.clock (.named "clock" 0)).read
      (changedStep.run ((Stage.clock (.named "clock" 0)).after steppedWorld)).2.setting).1 = .ok 42 := by
    rfl
  have hmeasured := measure_eq (r := ({ title := some "whole" } : Label).routine changedStep.run) .captured
    hfirst (Prod.ext hrun rfl) hlast
  have hreported := (congrArg Prod.fst hmeasured).trans (entered_of_text htext _ _)
  refine ⟨h, by rfl, _, hreported, ?_⟩
  rw [(changedStep.accounts h).2.2.2 _ _ _ hreported]
  rfl

end Script
end Chronograph
