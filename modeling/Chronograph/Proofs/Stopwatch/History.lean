import Mathlib
import Chronograph.Stopwatch

set_option autoImplicit false

/-!
# Whole runs of a stopwatch

A run gives commands to a fresh watch. Its history holds the calls, latest
first, each with the readings that it took and the answer it got. What the watch
holds at any point, and what each call reads and answers, is told by the calls
before it alone. Nothing is assumed of the clock: readings may fall, and may fail
with any fault.
-/
namespace Chronograph
variable {σ : Type}

/-- The clock, with its readings kept, latest first. -/
def Clock.kept (c : Clock σ) : Clock (σ × List (Except Fault Int)) where
  read s := ((c.read s.1).1, (c.read s.1).2, (c.read s.1).1 :: s.2)

namespace Stopwatch

structure Call where
  command : Command
  readings : List (Except Fault Int)
  answer : Except Fault Report

namespace Call

/-- The watch itself refuses before it reads; a clock may fail with the same fault. -/
def refused (e : Call) : Bool :=
  match e.readings, e.answer with
  | [], .error (.alreadyIn _) => true
  | _, _ => false

/-- A start or a stop that was not refused, although its reading may have failed. -/
def accepted (e : Call) : Bool := (e.command = .start || e.command = .stop) && !e.refused

def reading? (e : Call) : Option Int :=
  match e.readings with
  | [.ok now] => some now
  | _ => none

end Call

def latestMove (calls : List Call) : Option Command :=
  (calls.find? fun e => e.accepted || e.command = .reset).map Call.command

/-- The latest reading of a start; resets do not count. -/
def latestStart (calls : List Call) : Int :=
  (calls.findSome? fun e => if e.command = .start then e.reading? else none).getD 0

def closed? : List Call → Option Int
  | [] => none
  | e :: before => if e.command = .stop then e.reading?.map (· - latestStart before) else none

def segments (calls : List Call) : List Int :=
  (calls.tails.takeWhile fun t => t.head?.map Call.command ≠ some .reset).filterMap closed?

def total (calls : List Call) : Int := (segments calls).sum

def Running (calls : List Call) : Prop := latestMove calls = some .start

def Reads (before : List Call) (e : Call) : Prop :=
  e.accepted ∨ (∃ q, e.command = .query q) ∧ Running before

/-- The law of one call after the calls `before`. -/
structure Lawful (before : List Call) (e : Call) : Prop where
  refused_start : e.command = .start → (e.refused ↔ Running before)
  refused_stop : e.command = .stop → (e.refused ↔ ¬Running before)
  illegal : e.command = .start ∨ e.command = .stop →
    (∀ state, .error (.alreadyIn state) ∉ e.readings) →
    ((∃ state, e.answer = .error (.alreadyIn state)) ↔ e.refused)
  reports_stopped : ∀ q, e.command = .query q → ¬Running before →
    e.answer = q.report .stopped (total before)
  reports_running : ∀ q, e.command = .query q → Running before → ∀ now, e.readings = [.ok now] →
    e.answer = q.report .running (total before + (now - latestStart before))
  reads_once : Reads before e → e.readings.length = 1
  reads_never : ¬Reads before e → e.readings = []

structure Run (σ : Type) where
  calls : List Call
  watch : Stopwatch
  setting : σ

def Run.step (c : Clock σ) (r : Run σ) (q : Command) : Run σ :=
  match r.watch.command c.kept (r.setting, []) q with
  | (answer, watch, setting, readings) => ⟨⟨q, readings, answer⟩ :: r.calls, watch, setting⟩

def run (c : Clock σ) (s : σ) (commands : List Command) : Run σ :=
  commands.foldl (Run.step c) ⟨[], {}, s⟩

/-- What a history tells about the watch, and that its calls were lawful. -/
structure Told (calls : List Call) (w : Stopwatch) : Prop where
  state : w.state = .running ↔ Running calls
  accumulated : w.accumulated = total calls
  segmentStart : w.segmentStart = latestStart calls
  lawful : ∀ e before, e :: before <:+ calls → Lawful before e

theorem command_start {w : Stopwatch} (h : w.state = .stopped) (c : Clock σ) (s : σ) :
    w.command c s .start = ((c.read s).1.map fun _ => .done,
      { w with
        state := .running
        segmentStart := (c.read s).1.toOption.getD w.segmentStart }, (c.read s).2) := by
  unfold command start State.moveTo
  rw [h, if_neg (by decide)]
  rcases hr : c.read s with ⟨_ | _, t⟩ <;> simp [Except.map, Except.toOption]

theorem command_stop {w : Stopwatch} (h : w.state = .running) (c : Clock σ) (s : σ) :
    w.command c s .stop = ((c.read s).1.map fun _ => .done,
      { w with
        state := .stopped
        accumulated := w.accumulated +
          ((c.read s).1.toOption.map (· - w.segmentStart)).getD 0 }, (c.read s).2) := by
  unfold command stop State.moveTo
  rw [h, if_neg (by decide)]
  rcases hr : c.read s with ⟨_ | _, t⟩ <;> simp [Except.map, Except.toOption]

theorem command_start_running {w : Stopwatch} (h : w.state = .running) (c : Clock σ) (s : σ) :
    w.command c s .start = (.error (.alreadyIn .running), w, s) := by
  unfold command
  simp only [start_running c w s h]

theorem command_stop_stopped {w : Stopwatch} (h : w.state = .stopped) (c : Clock σ) (s : σ) :
    w.command c s .stop = (.error (.alreadyIn .stopped), w, s) := by
  unfold command
  simp only [stop_stopped c w s h]

theorem command_query_stopped {w : Stopwatch} (h : w.state = .stopped) (c : Clock σ) (s : σ)
    (q : Query) : w.command c s (.query q) = (q.report .stopped w.accumulated, w, s) := by
  unfold command query
  simp only [elapsed_stopped c w s h, h]

theorem command_query_running {w : Stopwatch} (h : w.state = .running) (c : Clock σ) (s : σ)
    (q : Query) : w.command c s (.query q) =
      ((c.read s).1.bind fun now => q.report .running (w.accumulated + (now - w.segmentStart)),
        w, (c.read s).2) := by
  unfold command query elapsed
  rw [h]
  rcases hr : c.read s with ⟨_ | _, t⟩ <;> simp [Except.bind]

theorem command_kept (c : Clock σ) (w : Stopwatch) (s : σ) (q : Command) :
    ∃ readings, w.command c.kept (s, []) q =
      ((w.command c s q).1, (w.command c s q).2.1, (w.command c s q).2.2, readings) := by
  cases q with
  | reset => exact ⟨_, rfl⟩
  | state => exact ⟨_, rfl⟩
  | start =>
    cases h : w.state
    · rw [command_start h, command_start h]
      exact ⟨_, rfl⟩
    · rw [command_start_running h, command_start_running h]
      exact ⟨_, rfl⟩
  | stop =>
    cases h : w.state
    · rw [command_stop_stopped h, command_stop_stopped h]
      exact ⟨_, rfl⟩
    · rw [command_stop h, command_stop h]
      exact ⟨_, rfl⟩
  | query q =>
    cases h : w.state
    · rw [command_query_stopped h, command_query_stopped h]
      exact ⟨_, rfl⟩
    · rw [command_query_running h, command_query_running h]
      exact ⟨_, rfl⟩

theorem command_surroundings (c : Clock σ) (w : Stopwatch) (s : σ) (q : Command) :
    (w.command c s q).2.2 = s ∨ (w.command c s q).2.2 = (c.read s).2 := by
  cases q with
  | reset => exact Or.inl rfl
  | state => exact Or.inl rfl
  | start =>
    cases h : w.state
    · simp [command_start h]
    · simp [command_start_running h]
  | stop =>
    cases h : w.state
    · simp [command_stop_stopped h]
    · simp [command_stop h]
  | query q =>
    cases h : w.state
    · simp [command_query_stopped h]
    · simp [command_query_running h]

theorem start_surroundings (c : Clock σ) (w : Stopwatch) (s : σ) :
    (w.start c s).2.2 = s ∨ (w.start c s).2.2 = (c.read s).2 := by
  have h := command_surroundings c w s .start
  unfold command at h
  rcases hs : w.start c s with ⟨_ | _, _, t⟩ <;> rw [hs] at h <;> exact h

theorem stop_surroundings (c : Clock σ) (w : Stopwatch) (s : σ) :
    (w.stop c s).2.2 = s ∨ (w.stop c s).2.2 = (c.read s).2 := by
  have h := command_surroundings c w s .stop
  unfold command at h
  rcases hs : w.stop c s with ⟨_ | _, _, t⟩ <;> rw [hs] at h <;> exact h

theorem running_cons (e : Call) (calls : List Call) : Running (e :: calls) ↔
    if e.accepted || e.command = .reset then e.command = .start else Running calls := by
  unfold Running latestMove
  rw [List.find?_cons]
  cases h : e.accepted || e.command = .reset <;> simp

theorem latestStart_cons (e : Call) (calls : List Call) : latestStart (e :: calls) =
    if e.command = .start then e.reading?.getD (latestStart calls) else latestStart calls := by
  unfold latestStart
  rw [List.findSome?_cons]
  by_cases h : e.command = .start
  · rw [if_pos h, if_pos h]
    cases e.reading? <;> rfl
  · rw [if_neg h, if_neg h]

theorem total_cons (e : Call) (calls : List Call) : total (e :: calls) =
    if e.command = .reset then 0
    else total calls + (if e.command = .stop then
      (e.reading?.map (· - latestStart calls)).getD 0 else 0) := by
  unfold total segments
  rw [List.tails_cons, List.takeWhile_cons]
  by_cases hreset : e.command = .reset
  · simp [hreset]
  · by_cases hstop : e.command = .stop
    · cases hr : e.reading? <;> simp [hstop, closed?, hr, add_comm]
    · simp [hreset, hstop, closed?]

theorem reading?_single (q : Command) (reading : Except Fault Int) (answer : Except Fault Report) :
    Call.reading? ⟨q, [reading], answer⟩ = reading.toOption := by
  cases reading <;> rfl

theorem lawful_accepted {before : List Call} {q : Command}
    (hq : q = .start ∧ ¬Running before ∨ q = .stop ∧ Running before) (reading : Except Fault Int) :
    Lawful before ⟨q, [reading], reading.map fun _ => .done⟩ := by
  have hreads : Reads before ⟨q, [reading], reading.map fun _ => .done⟩ := by
    rcases hq with ⟨rfl, _⟩ | ⟨rfl, _⟩ <;> exact Or.inl rfl
  refine ⟨?_, ?_, ?_, ?_, ?_, fun _ => rfl, fun hn => absurd hreads hn⟩
  · rintro rfl
    exact iff_of_false Bool.false_ne_true (by simpa using hq)
  · rintro rfl
    exact iff_of_false Bool.false_ne_true (by simpa using hq)
  · rintro _ hfault
    refine iff_of_false ?_ Bool.false_ne_true
    rintro ⟨state, hanswer⟩
    cases reading with
    | ok now => cases hanswer
    | error fault =>
      cases hanswer
      exact hfault state List.mem_cons_self
  · rintro q rfl
    simp at hq
  · rintro q rfl
    simp at hq

theorem lawful_refused {before : List Call} {q : Command}
    (hq : q = .start ∧ Running before ∨ q = .stop ∧ ¬Running before) (state : State) :
    Lawful before ⟨q, [], .error (.alreadyIn state)⟩ := by
  have hreads : ¬Reads before ⟨q, [], .error (.alreadyIn state)⟩ := by
    rcases hq with ⟨rfl, _⟩ | ⟨rfl, _⟩ <;> rintro (h | ⟨⟨_, h⟩, _⟩) <;> cases h
  refine ⟨?_, ?_, ?_, ?_, ?_, fun h => absurd h hreads, fun _ => rfl⟩
  · rintro rfl
    exact iff_of_true rfl (by simpa using hq)
  · rintro rfl
    exact iff_of_true rfl (by simpa using hq)
  · exact fun _ _ => iff_of_true ⟨state, rfl⟩ rfl
  · rintro q rfl
    simp at hq
  · rintro q rfl
    simp at hq

theorem lawful_query_stopped {before : List Call} (h : ¬Running before) (q : Query) :
    Lawful before ⟨.query q, [], q.report .stopped (total before)⟩ := by
  have hreads : ¬Reads before ⟨.query q, [], q.report .stopped (total before)⟩ := by
    rintro (h' | ⟨_, h'⟩)
    · cases h'
    · exact h h'
  refine ⟨?_, ?_, ?_, ?_, ?_, fun h => absurd h hreads, fun _ => rfl⟩
  · rintro ⟨⟩
  · rintro ⟨⟩
  · rintro (h | h) <;> cases h
  · rintro _ ⟨⟩ _
    rfl
  · rintro _ _ hrunning
    exact absurd hrunning h

theorem lawful_query_running {before : List Call} (h : Running before) (q : Query)
    (reading : Except Fault Int) : Lawful before ⟨.query q, [reading],
      reading.bind fun now => q.report .running (total before + (now - latestStart before))⟩ := by
  refine ⟨?_, ?_, ?_, ?_, ?_, fun _ => rfl, fun hn => absurd (Or.inr ⟨⟨q, rfl⟩, h⟩) hn⟩
  · rintro ⟨⟩
  · rintro ⟨⟩
  · rintro (h | h) <;> cases h
  · rintro _ _ hstopped
    exact absurd h hstopped
  · rintro _ ⟨⟩ _ now hreading
    cases hreading
    rfl

theorem lawful_other {before : List Call} {q : Command} (hq : q = .reset ∨ q = .state)
    (answer : Except Fault Report) : Lawful before ⟨q, [], answer⟩ := by
  refine ⟨?_, ?_, ?_, ?_, ?_, ?_, fun _ => rfl⟩
  · rintro rfl
    simp at hq
  · rintro rfl
    simp at hq
  · rintro (rfl | rfl) <;> simp at hq
  · rintro q rfl
    simp at hq
  · rintro q rfl
    simp at hq
  · rcases hq with rfl | rfl <;> rintro (h | ⟨⟨_, h⟩, _⟩) <;> cases h

theorem told_cons {calls : List Call} {w v : Stopwatch} {e : Call} (h : Told calls w)
    (hstate : v.state = .running ↔ Running (e :: calls)) (htotal : v.accumulated = total (e :: calls))
    (hstart : v.segmentStart = latestStart (e :: calls)) (he : Lawful calls e) :
    Told (e :: calls) v := by
  refine ⟨hstate, htotal, hstart, ?_⟩
  intro d before hd
  rcases List.suffix_cons_iff.mp hd with heq | hsuffix
  · cases heq
    exact he
  · exact h.lawful d before hsuffix

theorem told_unmoved {calls : List Call} {w : Stopwatch} {e : Call} (h : Told calls w)
    (haccepted : e.accepted = false) (hreset : e.command ≠ .reset)
    (hreading : e.command = .start ∨ e.command = .stop → e.reading? = none)
    (he : Lawful calls e) : Told (e :: calls) w := by
  refine told_cons h ?_ ?_ ?_ he
  · rw [running_cons, haccepted, h.state]
    simp [hreset]
  · rw [total_cons, if_neg hreset, h.accumulated]
    by_cases hstop : e.command = .stop
    · rw [if_pos hstop, hreading (Or.inr hstop)]
      exact (add_zero _).symm
    · rw [if_neg hstop, add_zero]
  · rw [latestStart_cons, h.segmentStart]
    by_cases hstart : e.command = .start
    · rw [if_pos hstart, hreading (Or.inl hstart)]
      rfl
    · rw [if_neg hstart]

theorem step_eq (c : Clock σ) (r : Run σ) (q : Command) : ∃ readings, r.step c q =
    ⟨⟨q, readings, (r.watch.command c r.setting q).1⟩ :: r.calls,
      (r.watch.command c r.setting q).2.1, (r.watch.command c r.setting q).2.2⟩ := by
  obtain ⟨readings, h⟩ := command_kept c r.watch r.setting q
  unfold Run.step
  rw [h]
  exact ⟨readings, rfl⟩

theorem told_start {calls : List Call} {w : Stopwatch} (h : Told calls w)
    (hw : w.state = .stopped) (reading : Except Fault Int) :
    Told (⟨.start, [reading], reading.map fun _ => .done⟩ :: calls)
      { w with
        state := .running
        segmentStart := reading.toOption.getD w.segmentStart } := by
  have hstopped : ¬Running calls := by
    rw [← h.state, hw]
    decide
  refine told_cons h ?_ ?_ ?_ (lawful_accepted (Or.inl ⟨rfl, hstopped⟩) reading)
  · rw [running_cons]
    exact iff_of_true rfl rfl
  · rw [total_cons, h.accumulated]
    exact (add_zero _).symm
  · rw [latestStart_cons, if_pos rfl, reading?_single, h.segmentStart]

theorem told_stop {calls : List Call} {w : Stopwatch} (h : Told calls w)
    (hw : w.state = .running) (reading : Except Fault Int) :
    Told (⟨.stop, [reading], reading.map fun _ => .done⟩ :: calls)
      { w with
        state := .stopped
        accumulated := w.accumulated + (reading.toOption.map (· - w.segmentStart)).getD 0 } := by
  refine told_cons h ?_ ?_ ?_ (lawful_accepted (Or.inr ⟨rfl, h.state.mp hw⟩) reading)
  · rw [running_cons]
    exact iff_of_false State.noConfusion Command.noConfusion
  · rw [total_cons, if_neg Command.noConfusion, if_pos rfl, reading?_single, h.accumulated,
      h.segmentStart]
  · rw [latestStart_cons, if_neg Command.noConfusion, h.segmentStart]

theorem told_reset {calls : List Call} {w : Stopwatch} (h : Told calls w) :
    Told (⟨.reset, [], .ok .done⟩ :: calls) w.reset := by
  refine told_cons h ?_ ?_ ?_ (lawful_other (Or.inl rfl) _)
  · rw [running_cons]
    exact iff_of_false State.noConfusion Command.noConfusion
  · rw [total_cons, if_pos rfl]
    rfl
  · rw [latestStart_cons, if_neg Command.noConfusion, ← h.segmentStart]
    rfl

theorem told_step (c : Clock σ) (r : Run σ) (q : Command) (h : Told r.calls r.watch) :
    Told (r.step c q).calls (r.step c q).watch := by
  have hrunning := h.state
  unfold Run.step
  cases q with
  | reset => exact told_reset h
  | state =>
    exact told_unmoved h rfl Command.noConfusion (fun hc => by simp at hc)
      (lawful_other (Or.inr rfl) _)
  | start =>
    cases hw : r.watch.state
    · rw [command_start hw]
      exact told_start h hw _
    · rw [command_start_running hw]
      exact told_unmoved h rfl Command.noConfusion (fun _ => rfl)
        (lawful_refused (Or.inl ⟨rfl, hrunning.mp hw⟩) _)
  | stop =>
    cases hw : r.watch.state
    · rw [command_stop_stopped hw]
      refine told_unmoved h rfl Command.noConfusion (fun _ => rfl)
        (lawful_refused (Or.inr ⟨rfl, ?_⟩) _)
      rw [← hrunning, hw]
      decide
    · rw [command_stop hw]
      exact told_stop h hw _
  | query q =>
    cases hw : r.watch.state
    · rw [command_query_stopped hw, h.accumulated]
      refine told_unmoved h rfl Command.noConfusion (fun hc => by simp at hc)
        (lawful_query_stopped ?_ q)
      rw [← hrunning, hw]
      decide
    · rw [command_query_running hw, h.accumulated, h.segmentStart]
      exact told_unmoved h rfl Command.noConfusion (fun hc => by simp at hc)
        (lawful_query_running (hrunning.mp hw) q _)

theorem told_fresh : Told [] {} where
  state := iff_of_false State.noConfusion fun h => Option.some_ne_none _ h.symm
  accumulated := rfl
  segmentStart := rfl
  lawful _ _ h := absurd (List.suffix_nil.mp h) (List.cons_ne_nil _ _)

/-- At the end of any run, and so at any point of it, the history tells the
    state, the total and the start of the segment, and every call was lawful. -/
theorem run_told (c : Clock σ) (s : σ) (commands : List Command) :
    (run c s commands).calls.map Call.command = commands.reverse ∧
      Told (run c s commands).calls (run c s commands).watch := by
  induction commands using List.reverseRecOn with
  | nil => exact ⟨rfl, told_fresh⟩
  | append_singleton commands q ih =>
    have hstep : run c s (commands ++ [q]) = (run c s commands).step c q := by
      unfold run
      rw [List.foldl_append]
      rfl
    obtain ⟨readings, hcalls⟩ := step_eq c (run c s commands) q
    constructor
    · rw [hstep, hcalls, List.map_cons, ih.1, List.reverse_append]
      rfl
    · rw [hstep]
      exact told_step c _ q ih.2

end Stopwatch
end Chronograph
