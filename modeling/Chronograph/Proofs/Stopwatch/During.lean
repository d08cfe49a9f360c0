import Mathlib
import Chronograph.Proofs.Task

set_option autoImplicit false

/-!
# What a watch is left as

A watch that was started for a task stands after it, whatever the task did to the
watch and however it ended; a watch that could not be started runs, and the task
did not. A watch that the task left standing is not touched again. One that it
left running is stopped by one reading, and only if that fails does the task's own
end not come through.
-/
namespace Chronograph.Held
variable {σ τ α : Type} {h : Held σ} {v w : World σ} {r : ℤ} {e : Fault} {ending : Except Raised α}

/-- The world after a reading, with another watch in the place. -/
def after (h : Held σ) (watch : Stopwatch) (w : World σ) : World σ :=
  { w with setting := h.set watch (h.clock.read w.setting).2 }

theorem get_after (lawful : h.Lawful) (watch : Stopwatch) (w : World σ) :
    h.get (h.after watch w).setting = watch := lawful.get_set _ _

def entered (h : Held σ) (w : World σ) : World σ := { w with setting := (h.start w.setting).2 }

section
variable {s t : σ}

theorem start_running (hstate : (h.get s).state = .running) :
    h.start s = (.error (.alreadyIn .running), h.set (h.get s) s) := by
  unfold start
  rw [Stopwatch.start_running _ _ _ hstate]
  rfl

theorem start_read (hstate : (h.get s).state = .stopped) (hread : h.clock.read s = (.ok r, t)) :
    h.start s = (.ok (), h.set { h.get s with state := .running, segmentStart := r } t) := by
  unfold start
  rw [Stopwatch.start_read hstate hread]
  rfl

/-- A watch that fails to start runs all the same. -/
theorem start_unread (hstate : (h.get s).state = .stopped) (hread : h.clock.read s = (.error e, t)) :
    h.start s = (.error e, h.set { h.get s with state := .running } t) := by
  unfold start
  rw [Stopwatch.start_unread hstate hread]
  rfl

theorem stop_read (hstate : (h.get s).state = .running) (hread : h.clock.read s = (.ok r, t)) :
    h.stop s = (.ok (), h.set { h.get s with
      state := .stopped
      accumulated := (h.get s).accumulated + (r - (h.get s).segmentStart) } t) := by
  unfold stop
  rw [Stopwatch.stop_read hstate hread]
  rfl

theorem stop_unread (hstate : (h.get s).state = .running) (hread : h.clock.read s = (.error e, t)) :
    h.stop s = (.error e, h.set { h.get s with state := .stopped } t) := by
  unfold stop
  rw [Stopwatch.stop_unread hstate hread]
  rfl

end

theorem leave_stopped (hstate : (h.get v.setting).state = .stopped) : h.leave v = (.ok (), v) := by
  unfold leave
  refine Task.act_ok ?_
  simp only [hstate]

theorem leave_read (hstate : (h.get v.setting).state = .running)
    (hread : (h.clock.read v.setting).1 = .ok r) : h.leave v =
      (.ok (), h.after { h.get v.setting with
        state := .stopped
        accumulated := (h.get v.setting).accumulated + (r - (h.get v.setting).segmentStart) } v) := by
  unfold leave
  refine Task.act_ok ?_
  simp only [hstate]
  exact stop_read hstate (Prod.ext hread rfl)

theorem leave_unread (hstate : (h.get v.setting).state = .running)
    (hread : (h.clock.read v.setting).1 = .error e) :
    h.leave v = Task.fail e (h.after { h.get v.setting with state := .stopped } v) := by
  unfold leave
  refine Task.act_error ?_
  simp only [hstate]
  exact stop_unread hstate (Prod.ext hread rfl)

theorem during_of_unstarted (body : Task σ α) (hstart : (h.start w.setting).1 = .error e) :
    h.during body w = Task.fail e (h.entered w) :=
  Task.bind_error _ (Task.act_error (Prod.ext hstart rfl))

theorem during_of_started (body : Task σ α) (hstart : (h.start w.setting).1 = .ok ())
    (hbody : body (h.entered w) = (ending, v)) :
    h.during body w = (h.leave >>= fun _ => Task.settle ending) v := by
  have hact : Task.act h.start w = (.ok (), h.entered w) := Task.act_ok (Prod.ext hstart rfl)
  unfold during
  rw [Task.bind_ok _ hact, Task.bind_ok _ (Task.outcome_eq hbody)]

/-- How a task ends that was run while its watch ran, by the watch that its body left. -/
structure Closes (h : Held σ) (ending : Except Raised α) (v : World σ)
    (result : Except Raised α × World σ) : Prop where
  stopped : (h.get v.setting).state = .stopped → result = (ending, v)
  read : ∀ r, (h.get v.setting).state = .running → (h.clock.read v.setting).1 = .ok r →
    result = (ending, h.after { h.get v.setting with
      state := .stopped
      accumulated := (h.get v.setting).accumulated + (r - (h.get v.setting).segmentStart) } v)
  unread : ∀ e, (h.get v.setting).state = .running → (h.clock.read v.setting).1 = .error e →
    result = Task.fail e (h.after { h.get v.setting with state := .stopped } v)

theorem closes_during (body : Task σ α) (hstart : (h.start w.setting).1 = .ok ())
    (hbody : body (h.entered w) = (ending, v)) : h.Closes ending v (h.during body w) := by
  rw [during_of_started body hstart hbody]
  exact ⟨fun hstate => Task.bind_ok _ (leave_stopped hstate),
    fun r hstate hread => Task.bind_ok _ (leave_read hstate hread),
    fun e hstate hread => Task.bind_error _ (leave_unread hstate hread)⟩

theorem Closes.state (lawful : h.Lawful) {result : Except Raised α × World σ}
    (hcloses : h.Closes ending v result) : (h.get result.2.setting).state = .stopped := by
  cases hstate : (h.get v.setting).state with
  | stopped => rw [hcloses.stopped hstate, hstate]
  | running =>
    cases hread : (h.clock.read v.setting).1 with
    | ok r => rw [hcloses.read r hstate hread, get_after lawful]
    | error e =>
      rw [hcloses.unread e hstate hread]
      exact congrArg Stopwatch.state (get_after lawful _ v)

/-- How a task fails that was not run because its watch could not be started: the watch
    ran already, or the clock failed. -/
structure Refuses (h : Held σ) (w : World σ) (e : Fault) (result : Except Raised α × World σ) : Prop where
  running : (h.get w.setting).state = .running ↔ result = Task.fail (.alreadyIn .running) w
  unread : (h.get w.setting).state = .stopped → (h.clock.read w.setting).1 = .error e ∧
    result = Task.fail e (h.after { h.get w.setting with state := .running } w)

theorem read_error_of_start (hstate : (h.get w.setting).state = .stopped)
    (hstart : (h.start w.setting).1 = .error e) : (h.clock.read w.setting).1 = .error e ∧
      h.entered w = h.after { h.get w.setting with state := .running } w := by
  unfold entered
  cases hread : (h.clock.read w.setting).1 with
  | ok r =>
    rw [start_read hstate (Prod.ext hread rfl)] at hstart
    cases hstart
  | error e' =>
    rw [start_unread hstate (Prod.ext hread rfl)] at hstart ⊢
    cases hstart
    exact ⟨rfl, rfl⟩

theorem refuses_during (lawful : h.Lawful) (hplace : h.set (h.get w.setting) w.setting = w.setting)
    (body : Task σ α) (hstart : (h.start w.setting).1 = .error e) :
    h.Refuses w e (h.during body w) ∧ (h.get (h.during body w).2.setting).state = .running := by
  rw [during_of_unstarted body hstart]
  cases hstate : (h.get w.setting).state with
  | running =>
    have hstarted := start_running hstate
    have hentered : h.entered w = w := by
      unfold entered
      rw [hstarted, hplace]
    rw [hstarted, Except.error.injEq] at hstart
    subst hstart
    rw [hentered]
    refine ⟨⟨iff_of_true hstate rfl, fun hother => ?_⟩, hstate⟩
    cases hstate.symm.trans hother
  | stopped =>
    obtain ⟨hread, hentered⟩ := read_error_of_start hstate hstart
    rw [hentered]
    have hget := get_after lawful { h.get w.setting with state := .running } w
    refine ⟨⟨iff_of_false (by rw [hstate]; decide) fun heq => ?_, fun _ => ⟨hread, rfl⟩⟩,
      congrArg Stopwatch.state hget⟩
    have hsame := congrArg (fun result => (h.get result.2.setting).state) heq
    have hstopped : State.running = .stopped :=
      (congrArg Stopwatch.state hget).symm.trans (hsame.trans hstate)
    cases hstopped

/-- However a task ends that is run while a watch runs, the watch stands after it if it
    could be started, and runs otherwise. A watch that could not be started keeps the
    task from running: nothing changes if it ran already, and else the clock failed. A
    watch that its task leaves standing is left as it is, with the task's end; one that
    is left running is stopped, and its clock's failure comes in the place of that end. -/
theorem during_ends (h : Held σ) (lawful : h.Lawful) (body : Task σ α) (w : World σ)
    (hplace : h.set (h.get w.setting) w.setting = w.setting) :
    ((h.get (h.during body w).2.setting).state = .stopped ↔ (h.start w.setting).1 = .ok ()) ∧
    ((h.get (h.during body w).2.setting).state = .running ↔ ∃ e, (h.start w.setting).1 = .error e) ∧
    (∀ e, (h.start w.setting).1 = .error e → h.Refuses w e (h.during body w)) ∧
    (∀ ending v, (h.start w.setting).1 = .ok () → body (h.entered w) = (ending, v) →
      h.Closes ending v (h.during body w)) := by
  refine ⟨?_, ?_, fun e hstart => (refuses_during lawful hplace body hstart).1,
    fun ending v hstart hbody => closes_during body hstart hbody⟩
  all_goals
    cases hstart : (h.start w.setting).1 with
    | ok =>
      have hstate := (closes_during body hstart rfl).state lawful
      simp [hstate]
    | error e =>
      have hstate := (refuses_during lawful hplace body hstart).2
      simp [hstate]

def beside (c : Clock τ) : Held (Stopwatch × τ) where
  clock := ⟨fun s => ((c.read s.2).1, s.1, (c.read s.2).2)⟩
  get := Prod.fst
  set w s := (w, s.2)

theorem beside_lawful (c : Clock τ) : (beside c).Lawful where
  get_set _ _ := rfl
  get_read _ := rfl

def besideTape : Held (Stopwatch × Tape) := beside ⟨Tape.read⟩

def reentered : Task (Stopwatch × Tape) Unit := do
  Task.act besideTape.stop
  besideTape.during (Task.interrupt ⟨.keyboard, "again"⟩)

/-- The interrupt is lost to a clock that fails when the inner task leaves the watch; the
    outer one finds the watch standing, with what was added before. A clock that fails at
    first leaves the watch running. -/
theorem during_ends_reentered :
    (besideTape.Lawful ∧ besideTape.set ({}, Tape.ofList [some 3, some 10, some 20]).1
        ({}, Tape.ofList [some 3, some 10, some 20]) = ({}, Tape.ofList [some 3, some 10, some 20])) ∧
    ((besideTape.during reentered { setting := ({}, Tape.ofList [some 3, some 10, some 20]) }).1 =
        .error (.failure ⟨0, .clockExhausted⟩) ∧
      (besideTape.during reentered { setting := ({}, Tape.ofList [some 3, some 10, some 20]) }).2.setting.1 =
        ⟨.stopped, 7, 20⟩) ∧
    (besideTape.during reentered { setting := ({}, Tape.ofList [none]) }).2.setting.1 = ⟨.running, 0, 0⟩ := by
  have lawful : besideTape.Lawful := beside_lawful _
  obtain ⟨_, _, _, hcloses⟩ := during_ends besideTape lawful reentered
    { setting := ({}, Tape.ofList [some 3, some 10, some 20]) } rfl
  obtain ⟨_, _, hrefuses, _⟩ := during_ends besideTape lawful reentered
    { setting := ({}, Tape.ofList [none]) } rfl
  rw [(hcloses _ _ rfl rfl).stopped rfl, ((hrefuses .clockFailure rfl).unread rfl).2]
  exact ⟨⟨lawful, rfl⟩, ⟨rfl, rfl⟩, rfl⟩

end Chronograph.Held
