import Mathlib
import Chronograph.Proofs.Measurement.Method
import Chronograph.Script.Run

set_option autoImplicit false

/-!
# Scripts on benches that are related

A relation between benches is kept by scripts if it is kept by each operation,
by what runs a body while a watch runs, and by reading a clock. Then a script
gives the same answers on both benches, fails alike, and leaves related benches,
whatever it measures, catches or calls.
-/
namespace Chronograph.Script
open Chronograph.Task Chronograph.Script.Stage

structure Stage.Like {M : Type} (B : Bench → Bench → Prop) (s t : Stage M) : Prop where
  bench : B s.bench t.bench
  memory : s.memory = t.memory

/-- No operation tells related benches apart or sets them apart, and neither does
    the use of a clock or of a watch. -/
structure Bench.Congruent (B : Bench → Bench → Prop) : Prop where
  perform : ∀ op a b, B a b → Paired B (a.perform op) (b.perform op)
  clockId? : ∀ name a b, B a b → a.clockId? name = b.clockId? name
  held? : ∀ name a b, B a b → a.held? name = b.held? name
  agrees : ∀ name a b h, B a b → a.held? name = some h → h.Agrees B
  clock : ∀ id, (Bench.clock id).Agrees B

section
variable {M α V : Type} {B : Bench → Bench → Prop} {J : Journal → Journal → Prop}

namespace Stage

theorem paired_onBench {f : Bench → α × Bench} (hf : ∀ a b, B a b → Paired B (f a) (f b))
    {s t : Stage M} (h : s.Like B t) : Paired (Like B) (s.onBench f) (t.onBench f) := by
  obtain ⟨hend, hbench⟩ := hf _ _ h.bench
  exact ⟨hend, hbench, h.memory⟩

theorem clock_agrees (hB : Bench.Congruent B) (id : ClockId) :
    (clock id : Clock (Stage M)).Agrees (Like B) :=
  fun _ _ h => paired_onBench (hB.clock id) h

theorem held_start (h : Held Bench) (s : Stage M) : (held h).start s = s.onBench h.start := by
  unfold Held.start Stopwatch.start held onBench
  dsimp only
  cases (h.get s.bench).state.moveTo .running with
  | error e => rfl
  | ok state => rcases hr : h.clock.read s.bench with ⟨_ | _, b⟩ <;> simp [Held.keep]

theorem held_stop (h : Held Bench) (s : Stage M) : (held h).stop s = s.onBench h.stop := by
  unfold Held.stop Stopwatch.stop held onBench
  dsimp only
  cases (h.get s.bench).state.moveTo .stopped with
  | error e => rfl
  | ok state => rcases hr : h.clock.read s.bench with ⟨_ | _, b⟩ <;> simp [Held.keep]

theorem held_agrees {h : Held Bench} (hh : h.Agrees B) : (held h : Held (Stage M)).Agrees (Like B) where
  start s t hst := by
    rw [held_start, held_start]
    exact paired_onBench hh.start hst
  stop s t hst := by
    rw [held_stop, held_stop]
    exact paired_onBench hh.stop hst
  state s t hst := hh.state _ _ hst.bench

theorem agree_known {f : Stage M → Option α} (hf : ∀ s t, s.Like B t → f s = f t) :
    Agree (Like B) J (known f) (known f) := by
  refine agree_act fun s t h => ?_
  rw [hf s t h]
  cases f t <;> exact ⟨rfl, h⟩

theorem eq_some_of_known {f : Stage M → Option α} {w : World (Stage M)} {a : α}
    (h : (known f w).1 = .ok a) : f w.setting = some a := by
  cases hf : f w.setting with
  | none =>
    simp only [known, act, hf] at h
    cases h
  | some b =>
    simp only [known, act, hf] at h
    exact congrArg some (Except.ok.inj h)

end Stage

theorem agree_revise {change : M → M} : Agree (Like B) J (revise change) (revise change) :=
  agree_change fun _ _ h => ⟨h.bench, congrArg change h.memory⟩

theorem agree_note (a : Answer) : Agree (Like B) J (note a) (note a) := agree_revise

theorem agree_plain {t u : Task (Stage Notes) Reply} (h : Agree (Like B) J t u) :
    Agree (Like B) J (plain t) (plain u) := by
  refine agree_bind (agree_outcome h) fun ending => ?_
  cases ending with
  | ok reply => exact agree_bind (agree_note _) fun _ => agree_pure _
  | error e => exact agree_bind (agree_note _) fun _ => agree_settle _

/-- The world without the answers so far. -/
def unanswered (w : World (Stage Notes)) : World (Stage Notes) :=
  { w with setting := { w.setting with memory := w.setting.memory.setAnswers [] } }

theorem gather_alike {t u : Task (Stage Notes) α} (h : Agree (Like B) J t u) {w v : World (Stage Notes)}
    (hwv : (unanswered w).Alike (Like B) J (unanswered v)) :
    (gather t w).1 = (gather u v).1 ∧
      (unanswered (gather t w).2).Alike (Like B) J (unanswered (gather u v).2) := by
  obtain ⟨hend, hworld⟩ := h _ _ hwv
  have hmemory := hworld.setting.memory
  exact ⟨congrArg Except.ok (Prod.ext (congrArg Notes.answers hmemory) hend),
    ⟨hworld.setting.bench, congrArg (·.setAnswers []) hmemory⟩, hworld.journal, hworld.raised⟩

theorem agree_gather {t u : Task (Stage Notes) α} (h : Agree (Like B) J t u) :
    Agree (Like B) J (gather t) (gather u) :=
  agree_bind (agree_view fun _ _ h => congrArg Notes.answers h.memory) fun _ =>
    agree_bind agree_revise fun _ => agree_bind (agree_outcome h) fun _ =>
      agree_bind (agree_view fun _ _ h => congrArg Notes.answers h.memory) fun _ =>
        agree_bind agree_revise fun _ => agree_pure _

theorem agree_nested {t u : Task (Stage Notes) (Ending × Flow)} (h : Agree (Like B) J t u) :
    Agree (Like B) J (nested t) (nested u) := by
  refine agree_bind (agree_gather h) fun gathered => ?_
  rcases gathered with ⟨body, e | ⟨ending, flow⟩⟩
  · exact agree_bind (agree_note _) fun _ => agree_settle _
  · exact agree_bind (agree_note _) fun _ => agree_pure flow

theorem agree_raised (kind message : String) :
    Agree (Like B) J (raised kind message : Task (Stage M) α) (raised kind message) := by
  unfold raised
  cases Interruption.ofKind? kind with
  | some cause => exact agree_interrupt _
  | none => exact agree_fail _

theorem agree_clockNamed (hB : Bench.Congruent B) (name : Option String) :
    Agree (Like B) J (clockNamed name) (clockNamed name) :=
  agree_known fun _ _ h => hB.clockId? name _ _ h.bench

theorem agree_layersOf (hB : Bench.Congruent B) (hJ : Journal.Congruent J) (timings : List Timing) :
    Agree (Like B) J (layersOf timings) (layersOf timings) := by
  induction timings with
  | nil => exact agree_pure _
  | cons timing rest ih =>
    exact agree_bind (agree_clockNamed hB timing.clock) fun id =>
      agree_bind (agree_write (hJ.mention _)) fun _ => agree_bind ih fun layers => agree_pure _

theorem agree_compose (hB : Bench.Congruent B) (hJ : Journal.Congruent J) (heading : Heading)
    (body : List Step) : Agree (Like B) J (compose heading body) (compose heading body) :=
  agree_bind (agree_layersOf hB hJ _) fun _ => agree_pure _

theorem agree_routine (hB : Bench.Congruent B) (hJ : Journal.Congruent J) (l : Label)
    {t u : Task (Stage M) V} (h : Agree (Like B) J t u) : (l.routine t).Agree (Like B) J (l.routine u) :=
  List.foldl_rel (r := Routine.Agree (Like B) J) ⟨rfl, rfl, h⟩ fun layer _ _ _ hrq =>
    hrq.logged hJ (Stage.clock_agrees hB layer.clock) layer.entry layer.address

theorem agree_resultNamed (name : String) :
    Agree (Like B) J (resultNamed name) (resultNamed name) :=
  agree_known fun _ _ h => congrArg (·.results.get? name) h.memory

theorem agree_unwrap (t : Timed Value) :
    Agree (Like B) J (t.unwrap : Task (Stage M) Value) t.unwrap := by
  cases t with
  | value n a => exact agree_pure a
  | failure n f => exact agree_settle _

theorem agree_unwrapped (name : String) :
    Agree (Like B) J (unwrapped name) (unwrapped name) := by
  refine agree_bind (agree_outcome (agree_resultNamed name)) fun found => ?_
  rcases found with e | n | t
  · exact agree_plain (agree_settle _)
  · exact agree_plain (agree_fail _)
  · refine agree_bind (agree_outcome (agree_unwrap t)) fun ending => ?_
    cases ending with
    | ok v => exact agree_bind (agree_note _) fun _ => agree_pure _
    | error e => exact agree_bind (agree_note _) fun _ => agree_settle _

def CallsAgree (B : Bench → Bench → Prop) (J : Journal → Journal → Prop)
    (calls : Program → Value → Task (Stage Notes) Value) : Prop :=
  ∀ program frame, Agree (Like B) J (calls program frame) (calls program frame)

mutual
theorem agree_runStep (hB : Bench.Congruent B) (hJ : Journal.Congruent J)
    {calls : Program → Value → Task (Stage Notes) Value} (hcalls : CallsAgree B J calls) (frame : Value) :
    ∀ step, Agree (Like B) J (runStep calls frame step) (runStep calls frame step)
  | .operate op => by
    unfold runStep
    exact agree_plain (agree_act fun _ _ h => Stage.paired_onBench (hB.perform op) h)
  | .during watch body => by
    have hbody := agree_runSteps hB hJ hcalls frame body
    have hnamed : Agree (Like B) J (watchNamed watch : Task (Stage Notes) _) (watchNamed watch) :=
      agree_known fun _ _ h => congrArg (Option.map held) (hB.held? watch _ _ h.bench)
    unfold runStep
    refine agree_nested (agree_bind_of hnamed fun h hfound => ?_)
    obtain ⟨w, v, hwv, hfound⟩ := hfound
    obtain ⟨x, hx, rfl⟩ := Option.map_eq_some_iff.mp (eq_some_of_known hfound)
    have hh := held_agrees (M := Notes) (hB.agrees watch _ _ x hwv.setting.bench hx)
    exact agree_bind (Held.agree_during hh hbody) fun flow =>
      agree_bind (agree_view hh.state) fun _ => agree_pure _
  | .attempt body => by
    have hbody := agree_runSteps hB hJ hcalls frame body
    unfold runStep
    refine agree_nested (agree_bind (agree_attempt hbody) fun ending => ?_)
    cases ending with
    | ok flow => exact agree_pure _
    | error f => exact agree_pure _
  | .raise kind message => by
    unfold runStep
    exact agree_plain (agree_raised kind message)
  | .raiseState name => by
    unfold runStep
    cases State.ofName? name with
    | some state => exact agree_plain (agree_fail _)
    | none => exact agree_plain (agree_fail _)
  | .giveBack v => by
    unfold runStep
    exact agree_bind (agree_note _) fun _ => agree_pure _
  | .giveArguments => by
    unfold runStep
    exact agree_bind (agree_note _) fun _ => agree_pure _
  | .measure method clockName heading body keep => by
    have hbody := agree_runSteps hB hJ hcalls (frameOf [] []) body
    unfold runStep
    exact agree_nested (agree_bind (agree_clockNamed hB clockName) fun id =>
      agree_bind (agree_compose hB hJ heading body) fun program =>
        agree_bind (Measurement.agree_measure hJ (Stage.clock_agrees hB id) method
          (agree_routine hB hJ program.toLabel (agree_bind hbody fun _ => agree_pure _))) fun result =>
            agree_bind agree_revise fun _ => agree_pure _)
  | .unwrap name => by
    unfold runStep
    exact agree_unwrapped name
  | .equal a b => by
    unfold runStep
    exact agree_plain (agree_bind (agree_resultNamed a) fun _ =>
      agree_bind (agree_resultNamed b) fun _ => agree_pure _)
  | .define name heading body => by
    unfold runStep
    exact agree_plain (agree_bind (agree_compose hB hJ heading body) fun program =>
      agree_bind agree_revise fun _ => agree_pure _)
  | .call name arguments options => by
    unfold runStep
    exact agree_nested (agree_bind (agree_known fun _ _ h => congrArg (·.programs.get? name) h.memory)
      fun program => agree_bind (hcalls program _) fun _ => agree_pure _)
  | .setLevel logger level => by
    unfold runStep
    exact agree_plain (agree_bind (agree_write (hJ.setLevel logger level)) fun _ => agree_pure _)
theorem agree_runSteps (hB : Bench.Congruent B) (hJ : Journal.Congruent J)
    {calls : Program → Value → Task (Stage Notes) Value} (hcalls : CallsAgree B J calls) (frame : Value) :
    ∀ steps, Agree (Like B) J (runSteps calls frame steps) (runSteps calls frame steps)
  | [] => by
    unfold runSteps
    exact agree_pure _
  | step :: rest => by
    have hstep := agree_runStep hB hJ hcalls frame step
    have hrest := agree_runSteps hB hJ hcalls frame rest
    unfold runSteps
    refine agree_bind hstep fun flow => ?_
    cases flow with
    | next => exact hrest
    | ended v => exact agree_pure _
end

theorem agree_callWithin (hB : Bench.Congruent B) (hJ : Journal.Congruent J) (depth : ℕ) :
    CallsAgree B J (callWithin depth) := by
  induction depth with
  | zero => exact fun _ _ => agree_fail _
  | succ depth ih =>
    exact fun program frame => (agree_routine hB hJ program.toLabel
      (agree_bind (agree_runSteps hB hJ ih frame program.body) fun _ => agree_pure _)).run

/-- A whole script answers the same on related benches, and leaves related ones. -/
theorem agree_perform (hB : Bench.Congruent B) (hJ : Journal.Congruent J) (steps : List Step) :
    Agree (Like B) J (perform steps) (perform steps) := by
  induction steps with
  | nil => exact agree_pure _
  | cons step rest ih =>
    exact agree_bind (agree_outcome
      (agree_runStep hB hJ (agree_callWithin hB hJ callDepth) _ step)) fun _ => ih

end
end Chronograph.Script
