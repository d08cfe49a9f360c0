import Mathlib
import Chronograph.Proofs.Elapsed
import Chronograph.Proofs.Script.Bench

set_option autoImplicit false

/-!
# Refusals leave no trace

On clocks that move by hand an operation is refused in two cases only: a watch is
asked to enter the state that it is in, or a clock is to move by a negative
amount. It is refused before anything is read or written, so that the operations
that were refused can be left out: all others are answered as they were, and
leave the same bench.
-/
namespace Chronograph

namespace Timepiece

/-- A clock is told to move by less than nothing, at once or with each reading. -/
def Command.Negative : Command → Prop
  | .advance n | .setStep n => n < 0
  | .advanceBy days seconds microseconds =>
    ∃ d, Duration.ofParts? days seconds microseconds = some d ∧ d.toMicroseconds < 0
  | .read | .step => False

theorem command_negative (c : ManualClock) {q : Command} (h : q.Negative) :
    ∃ e, e.kind = "ValueError" ∧ (manual c).command q = (.error e, manual c) := by
  cases q with
  | read => cases h
  | step => cases h
  | advance n =>
    have hchange : c.advance n = .error .backwards := if_pos h
    exact ⟨.backwards, rfl, adjust_refused (·.advance n) hchange⟩
  | setStep n =>
    have hchange : c.setStep n = .error .negativeStep := if_pos h
    exact ⟨.negativeStep, rfl, adjust_refused (·.setStep n) hchange⟩
  | advanceBy days seconds microseconds =>
    obtain ⟨d, hd, hneg⟩ := h
    have hchange : c.advanceBy d = .error .backwards :=
      if_pos (show d.toMicroseconds * 1000 < 0 by omega)
    refine ⟨.backwards, rfl, ?_⟩
    simp only [command, hd]
    exact adjust_refused (·.advanceBy d) hchange

/-- Every other amount is accepted, unless it is no duration. -/
theorem command_unrefused (c : ManualClock) {q : Command} (h : ¬q.Negative) {e : Fault}
    (he : ((manual c).command q).1 = .error e) : e = .overflow := by
  cases q with
  | read => cases he
  | step => cases he
  | advance n =>
    have hchange : c.advance n = .ok { c with now := c.now + n } := if_neg h
    rw [command, adjust_accepted (·.advance n) hchange] at he
    cases he
  | setStep n =>
    have hchange : c.setStep n = .ok { c with step := n.toNat } := if_neg h
    rw [command, adjust_accepted (·.setStep n) hchange] at he
    cases he
  | advanceBy days seconds microseconds =>
    cases hd : Duration.ofParts? days seconds microseconds with
    | none =>
      simp only [command, hd] at he
      cases he
      rfl
    | some d =>
      have hnonneg : ¬d.toMicroseconds * 1000 < 0 := by
        intro hneg
        exact h ⟨d, hd, by omega⟩
      have hchange : c.advanceBy d = .ok { c with now := c.now + d.toMicroseconds * 1000 } :=
        if_neg hnonneg
      simp only [command, hd, adjust_accepted (·.advanceBy d) hchange] at he
      cases he

theorem exists_command_manual (c : ManualClock) (q : Command) :
    ∃ d, ((manual c).command q).2 = .manual d := by
  have hadjust : ∀ change, ∃ d, ((manual c).adjust change).2 = .manual d := by
    intro change
    cases hd : change c with
    | ok d => exact ⟨d, by rw [adjust_accepted change hd]⟩
    | error e => exact ⟨c, by rw [adjust_refused change hd]⟩
  cases q with
  | read => exact ⟨c.read.2, rfl⟩
  | advance n => exact hadjust (·.advance n)
  | advanceBy days seconds microseconds =>
    unfold command
    dsimp only
    cases Duration.ofParts? days seconds microseconds with
    | some d => exact hadjust (·.advanceBy d)
    | none => exact ⟨c, rfl⟩
  | step => exact ⟨c, rfl⟩
  | setStep n => exact hadjust (·.setStep n)

end Timepiece

namespace Stopwatch
variable {σ : Type} {c : Clock σ} {w : Stopwatch} {s : σ} {e : Fault}

def Command.Enters : Command → State → Prop
  | .start, .running | .stop, .stopped => True
  | _, _ => False

theorem report_error {state : State} {n : ℤ} {q : Query} (h : q.report state n = .error e) :
    e = .overflow := by
  have htext : ∀ f : String → Report, (Elapsed.text n).map f = .error e → e = .overflow := by
    intro f hf
    cases ht : Elapsed.text n with
    | ok text =>
      rw [ht] at hf
      cases hf
    | error e' =>
      rw [ht] at hf
      cases hf
      exact Elapsed.text_error ht
  cases q with
  | nanos => cases h
  | whole u => cases h
  | duration =>
    unfold Query.report Elapsed.duration at h
    cases hd : Duration.ofMicroseconds? (n / 1000) <;> simp only [hd] at h <;> cases h
    rfl
  | text => exact htext _ h
  | description => exact htext _ h

theorem command_repeated (c : Clock σ) (s : σ) {q : Command} (h : q.Enters w.state) :
    w.command c s q = (.error (.alreadyIn w.state), w, s) := by
  cases hw : w.state <;> rw [hw] at h <;> cases q <;> simp only [Command.Enters] at h
  · exact command_stop_stopped hw c s
  · exact command_start_running hw c s

/-- Every other command fails only with its reading, or with a number out of range. -/
theorem command_unrepeated {q : Command} (h : ¬q.Enters w.state) (he : (w.command c s q).1 = .error e) :
    (c.read s).1 = .error e ∨ e = .overflow := by
  have hread : ∀ f : ℤ → Report, (c.read s).1.map f = .error e → (c.read s).1 = .error e := by
    intro f hf
    cases hr : (c.read s).1 <;> rw [hr] at hf <;> cases hf
    rfl
  cases hw : w.state <;> rw [hw] at h <;> cases q <;> simp only [Command.Enters, not_true] at h
  case stopped.start =>
    rw [command_start hw] at he
    exact Or.inl (hread _ he)
  case running.stop =>
    rw [command_stop hw] at he
    exact Or.inl (hread _ he)
  case stopped.query q =>
    rw [command_query_stopped hw] at he
    exact Or.inr (report_error he)
  case running.query q =>
    rw [command_query_running hw] at he
    cases hr : (c.read s).1 with
    | error e' =>
      rw [hr] at he
      cases he
      exact Or.inl rfl
    | ok now =>
      rw [hr] at he
      exact Or.inr (report_error he)
  all_goals cases he

end Stopwatch

namespace Script

/-- The answer is that of an illegal state or of a wrong value. -/
def refused : Except Fault Reply → Bool
  | .error e => e.kind = "IllegalStateError" || e.kind = "ValueError"
  | .ok _ => false

/-- Whatever is made and moved by it is a clock that moves by hand. -/
def Operation.ByHand : Operation → Prop
  | .makeTape _ _ => False
  | _ => True

namespace Bench
variable {a b : Bench} {op : Operation}

def ByHand (b : Bench) : Prop := ∀ id t, b.clocks.get? id = some t → ∃ c, t = .manual c

inductive Repeats (b : Bench) : Operation → State → Prop
  | mk {name : String} {h : Held Bench} {q : Stopwatch.Command} (hheld : b.held? name = some h)
    (henters : q.Enters (h.get b).state) : Repeats b (.watch name q) (h.get b).state

inductive Negative (b : Bench) : Operation → Prop
  | make (name : String) (start : ℤ) {step : ℤ} (h : step < 0) : Negative b (.makeClock name start step)
  | clock {name : String} {id : ClockId} {t : Timepiece} {q : Timepiece.Command}
    (hid : b.clockId? (some name) = some id) (ht : b.clocks.get? id = some t) (h : q.Negative) :
    Negative b (.clock name q)

def left (b : Bench) (ops : List Operation) : Bench := ops.foldl (fun b op => (b.perform op).2) b

/-- The operations that are not refused. -/
def accepted (b : Bench) (ops : List Operation) : List Operation :=
  ((ops.zip (b.answers ops)).filter fun p => !refused p.2).map Prod.fst

inductive Treated (b : Bench) (op : Operation) : Prop
  | repeated (state : State) (h : b.Repeats op state) (heq : b.perform op = (.error (.alreadyIn state), b))
  | negative (e : Fault) (h : b.Negative op) (hkind : e.kind = "ValueError")
    (heq : b.perform op = (.error e, b))
  | accepted (hrepeats : ∀ state, ¬b.Repeats op state) (hnegative : ¬b.Negative op)
    (h : refused (b.perform op).1 = false)

theorem set_get {name : String} {h : Held Bench} (hheld : a.held? name = some h) :
    h.set (h.get a) a = a := by
  obtain ⟨id, k, w, rfl, _, hw⟩ := exists_held hheld
  simp [held, hw, Registry.insert_of_get? hw]

theorem read_error (ha : a.ByHand) {id : ClockId} {e : Fault} (h : ((clock id).read a).1 = .error e) :
    e = .unknownName := by
  cases ht : a.clocks.get? id with
  | none =>
    simp only [clock, onClock, ht] at h
    cases h
    rfl
  | some t =>
    obtain ⟨c, rfl⟩ := ha id t ht
    rw [read_eq_of_get? ht] at h
    cases h

theorem refused_map {α : Type} {r : Except Fault α} {f : α → Reply}
    (h : ∀ e, r = .error e → e = .unknownName ∨ e = .overflow) : refused (r.map f) = false := by
  cases r with
  | ok a => rfl
  | error e => rcases h e rfl with rfl | rfl <;> rfl

theorem treated_ask (ha : a.ByHand) (name : String) (q : Stopwatch.Command) :
    a.Treated (.watch name q) := by
  cases hheld : a.held? name with
  | none =>
    refine .accepted ?_ nofun ?_
    · rintro _ ⟨hother, _⟩
      cases hheld.symm.trans hother
    · simp only [perform, ask, hheld]
      rfl
  | some h =>
    have hask := ask_eq hheld q
    by_cases henters : q.Enters (h.get a).state
    · refine .repeated _ (.mk hheld henters) ?_
      change a.ask name q = _
      rw [hask, Held.command, Stopwatch.command_repeated h.clock a henters]
      exact congrArg (Prod.mk _) (set_get hheld)
    · refine .accepted ?_ nofun ?_
      · rintro _ ⟨hother, hrepeats⟩
        cases hheld.symm.trans hother
        exact henters hrepeats
      · change refused (a.ask name q).1 = false
        rw [hask]
        refine refused_map fun e he => ?_
        obtain ⟨id, k, w, rfl, _, _⟩ := exists_held hheld
        exact (Stopwatch.command_unrepeated henters he).imp_left (read_error ha)

theorem treated_clock (ha : a.ByHand) (name : String) (q : Timepiece.Command) :
    a.Treated (.clock name q) := by
  cases hid : a.clockId? (some name) with
  | none =>
    refine .accepted nofun ?_ ?_
    · rintro (_ | ⟨hother, _, _⟩)
      cases hid.symm.trans hother
    · simp only [perform, hid]
      rfl
  | some id =>
    have hperform := perform_clock_eq hid q
    cases ht : a.clocks.get? id with
    | none =>
      refine .accepted nofun ?_ ?_
      · rintro (_ | ⟨hother, hclock, _⟩)
        cases hid.symm.trans hother
        cases ht.symm.trans hclock
      · rw [hperform, onClock, ht]
        rfl
    | some t =>
      obtain ⟨c, rfl⟩ := ha id t ht
      by_cases hq : q.Negative
      · obtain ⟨e, hkind, hcommand⟩ := Timepiece.command_negative c hq
        refine .negative e (.clock hid ht hq) hkind ?_
        rw [hperform, onClock_of_unturned id fun t' ht' => ?_, onClock_fst ht, hcommand]
        · rfl
        · cases ht.symm.trans ht'
          rw [hcommand]
      · refine .accepted nofun ?_ ?_
        · rintro (_ | ⟨_, _, hneg⟩)
          exact hq hneg
        · rw [hperform, onClock_fst ht]
          exact refused_map fun e he => Or.inr (Timepiece.command_unrefused c hq he)

theorem treated_makeClock (a : Bench) (name : String) (start step : ℤ) :
    a.Treated (.makeClock name start step) := by
  by_cases hstep : step < 0
  · have hmake : ManualClock.make start step = .error .negativeStep := if_pos hstep
    refine .negative .negativeStep (.make name start hstep) rfl ?_
    simp only [perform, hmake]
  · have hmake : ManualClock.make start step = .ok ⟨start, step.toNat⟩ := if_neg hstep
    refine .accepted nofun ?_ ?_
    · intro hneg
      cases hneg with
      | make _ _ h => exact hstep h
    · simp only [perform, hmake]
      rfl

theorem treated_makeWatch (ha : a.ByHand) (name : String) (clockName : Option String) (running : Bool) :
    a.Treated (.makeWatch name clockName running) := by
  refine .accepted nofun nofun ?_
  unfold perform
  dsimp only
  cases a.clockId? clockName with
  | none => rfl
  | some id =>
    cases running with
    | false => rfl
    | true =>
      have hstart : ∀ e, (({} : Stopwatch).command (clock id) a .start).1 = .error e →
          ((clock id).read a).1 = .error e ∨ e = .overflow :=
        fun _ => Stopwatch.command_unrepeated not_false
      unfold Stopwatch.command at hstart
      unfold makeWatch
      dsimp only
      rcases hs : ({} : Stopwatch).start (clock id) a with ⟨e | _, w, b⟩
      · rw [hs] at hstart
        rcases hstart e rfl with hread | rfl
        · rw [read_error ha hread]
          rfl
        · rfl
      · rfl

theorem treated (ha : a.ByHand) (hop : op.ByHand) : a.Treated op := by
  cases op with
  | makeClock name start step => exact treated_makeClock a name start step
  | makeTape name t => cases hop
  | clock name q => exact treated_clock ha name q
  | makeWatch name clockName running => exact treated_makeWatch ha name clockName running
  | watch name q => exact treated_ask ha name q
  | elapsedIn name unit =>
    refine .accepted nofun nofun ?_
    unfold perform
    dsimp only
    cases TimeUnit.ofName? unit with
    | none => rfl
    | some u =>
      -- A query is never refused, so of the three cases the last is left.
      cases treated_ask ha name (.query (.whole u)) with
      | repeated _ h _ =>
        obtain ⟨_, henters⟩ := h
        cases henters
      | negative _ h _ _ => cases h
      | accepted _ _ h => exact h
  | clockOf name =>
    refine .accepted nofun nofun ?_
    unfold perform
    dsimp only
    cases (a.watchId? name).bind a.clockIdOf? <;> rfl

theorem repeats_unique {state other : State} (h : a.Repeats op state) (h' : a.Repeats op other) :
    state = other := by
  obtain ⟨hheld, _⟩ := h
  obtain ⟨hheld', _⟩ := h'
  cases hheld.symm.trans hheld'
  rfl

theorem perform_refused (ha : a.ByHand) (hop : op.ByHand) (h : refused (a.perform op).1 = true) :
    (a.perform op).2 = a := by
  cases treated ha hop with
  | repeated _ _ heq => rw [heq]
  | negative _ _ _ heq => rw [heq]
  | accepted _ _ haccepted => cases haccepted.symm.trans h

theorem illegal_iff (ha : a.ByHand) (hop : op.ByHand) (e : Fault) :
    (a.perform op).1 = .error e ∧ e.kind = "IllegalStateError" ↔
      ∃ state, a.Repeats op state ∧ e = .alreadyIn state ∧
        e.message = "This stopwatch is already " ++ state.name ++ "." := by
  constructor
  · rintro ⟨he, hkind⟩
    cases treated ha hop with
    | repeated state h heq =>
      rw [heq] at he
      cases he
      exact ⟨state, h, rfl, rfl⟩
    | negative _ _ hvalue heq =>
      rw [heq] at he
      cases he
      rw [hvalue] at hkind
      exact absurd hkind (by decide)
    | accepted _ _ haccepted =>
      rw [he] at haccepted
      simp [refused, hkind] at haccepted
  · rintro ⟨state, hrepeats, rfl, _⟩
    cases treated ha hop with
    | repeated other h heq =>
      obtain rfl := repeats_unique hrepeats h
      exact ⟨congrArg Prod.fst heq, rfl⟩
    | negative _ h _ _ =>
      cases hrepeats
      cases h
    | accepted hnone _ _ => exact absurd hrepeats (hnone state)

theorem wrong_iff (ha : a.ByHand) (hop : op.ByHand) :
    (∃ e, (a.perform op).1 = .error e ∧ e.kind = "ValueError") ↔ a.Negative op := by
  constructor
  · rintro ⟨e, he, hkind⟩
    cases treated ha hop with
    | repeated _ _ heq =>
      rw [heq] at he
      cases he
      exact absurd hkind (show ¬"IllegalStateError" = "ValueError" by decide)
    | negative _ h _ _ => exact h
    | accepted _ _ haccepted =>
      rw [he] at haccepted
      simp [refused, hkind] at haccepted
  · intro hnegative
    cases treated ha hop with
    | repeated _ h _ =>
      cases h
      cases hnegative
    | negative e _ hkind heq => exact ⟨e, congrArg Prod.fst heq, hkind⟩
    | accepted _ hnone _ => exact absurd hnegative hnone

theorem byHand_addClock (ha : a.ByHand) (name : String) (c : ManualClock) :
    (a.addClock name (.manual c)).ByHand := by
  intro id t ht
  rw [get?_addClock] at ht
  split at ht
  · exact ⟨c, (Option.some.inj ht).symm⟩
  · exact ha id t ht

theorem byHand_onClock {α : Type} (ha : a.ByHand) (id : ClockId)
    {f : Timepiece → Except Fault α × Timepiece} (hf : ∀ c, ∃ d, (f (.manual c)).2 = .manual d) :
    (a.onClock id f).2.ByHand := by
  intro other u hu
  rw [get?_onClock] at hu
  obtain ⟨t, ht, rfl⟩ := Option.map_eq_some_iff.mp hu
  obtain ⟨c, rfl⟩ := ha other t ht
  split
  · exact hf c
  · exact ⟨c, rfl⟩

theorem byHand_perform (ha : a.ByHand) (hop : op.ByHand) : (a.perform op).2.ByHand := by
  by_cases hwatch : op.watch? = none
  · cases op with
    | makeClock name start step =>
      unfold perform
      dsimp only
      cases ManualClock.make start step with
      | ok c => exact byHand_addClock ha name c
      | error e => exact ha
    | makeTape name t => cases hop
    | clock name q =>
      rcases perform_clock a name q with he | ⟨id, he⟩ <;> rw [he]
      · exact ha
      · exact byHand_onClock ha id fun c => Timepiece.exists_command_manual c q
    | makeWatch _ _ _ | watch _ _ | elapsedIn _ _ | clockOf _ => cases hwatch
  · obtain ⟨_, hclocks | ⟨id, hclocks⟩⟩ := readFrom_perform a hwatch
    · exact fun id t ht => ha id t (hclocks ▸ ht)
    · have hread := byHand_onClock (f := Timepiece.read) ha id fun c => ⟨c.read.2, rfl⟩
      exact fun id t ht => hread id t (hclocks ▸ ht)

theorem byHand_left (ha : a.ByHand) {ops : List Operation} (hops : ∀ op ∈ ops, op.ByHand) :
    (a.left ops).ByHand :=
  List.foldlRecOn ops _ ha fun _ hb op hop => byHand_perform hb (hops op hop)

theorem accepted_cons (b : Bench) (op : Operation) (rest : List Operation) :
    b.accepted (op :: rest) = (if refused (b.perform op).1 then [] else [op]) ++
      (b.perform op).2.accepted rest := by
  unfold accepted
  rw [answers, List.zip_cons_cons, List.filter_cons]
  cases refused (b.perform op).1 <;> rfl

theorem answers_of_accepted (ha : a.ByHand) {ops : List Operation} (hops : ∀ op ∈ ops, op.ByHand) :
    a.answers (a.accepted ops) = (a.answers ops).filter (fun r => !refused r) ∧
      a.left (a.accepted ops) = a.left ops := by
  -- A refused operation goes, and the next one finds the same bench with and without it.
  induction ops generalizing a with
  | nil => exact ⟨rfl, rfl⟩
  | cons op rest ih =>
    have hop := hops op List.mem_cons_self
    obtain ⟨hanswers, hleft⟩ := ih (byHand_perform ha hop) fun q hq => hops q (List.mem_cons_of_mem op hq)
    rw [accepted_cons, answers, List.filter_cons]
    cases hr : refused (a.perform op).1 with
    | true =>
      have hsame := perform_refused ha hop hr
      rw [hsame] at hanswers hleft ⊢
      refine ⟨hanswers, hleft.trans ?_⟩
      change a.left rest = (a.perform op).2.left rest
      rw [hsame]
    | false => exact ⟨congrArg (List.cons _) hanswers, hleft⟩

/-- Wherever it comes, an operation is refused as an illegal state exactly if it asks a
    watch to enter the state that it is in, which it names, and as a wrong value exactly
    if a clock is to move by a negative amount. Without all that is refused, the rest is
    answered as it was and leaves the same clocks and watches. -/
theorem refusals_traceless (b : Bench) (hb : b.ByHand) (ops : List Operation)
    (hops : ∀ op ∈ ops, op.ByHand) :
    (∀ before op after, ops = before ++ op :: after →
      (∀ e, ((b.left before).perform op).1 = .error e ∧ e.kind = "IllegalStateError" ↔
        ∃ state, (b.left before).Repeats op state ∧ e = .alreadyIn state ∧
          e.message = "This stopwatch is already " ++ state.name ++ ".") ∧
      ((∃ e, ((b.left before).perform op).1 = .error e ∧ e.kind = "ValueError") ↔
        (b.left before).Negative op)) ∧
    b.answers (b.accepted ops) = (b.answers ops).filter (fun r => !refused r) ∧
      b.left (b.accepted ops) = b.left ops := by
  refine ⟨?_, answers_of_accepted hb hops⟩
  rintro before op after rfl
  have hbefore := byHand_left hb fun q hq => hops q (List.mem_append_left _ hq)
  have hop := hops op (List.mem_append_right before List.mem_cons_self)
  exact ⟨illegal_iff hbefore hop, wrong_iff hbefore hop⟩

def someRefused : List Operation :=
  [.makeClock "clock" 5 3, .makeWatch "watch" (some "clock") true, .makeClock "clock" 9 (-1),
    .watch "watch" .start, .clock "clock" (.advance 40), .clock "clock" (.advanceBy 0 (-1) 0),
    .watch "watch" .stop, .clock "clock" (.setStep (-2)), .watch "watch" .stop, .clock "clock" .read,
    .watch "watch" (.query .nanos)]

theorem refusals_traceless_someRefused :
    ({} : Bench).ByHand ∧ (∀ op ∈ someRefused, op.ByHand) ∧
      ({} : Bench).answers (({} : Bench).accepted someRefused) =
        (({} : Bench).answers someRefused).filter (fun r => !refused r) ∧
      ({} : Bench).answers someRefused =
        [.ok .done, .ok (.state .running), .error .negativeStep, .error (.alreadyIn .running), .ok .done,
          .error .backwards, .ok (.state .stopped), .error .negativeStep, .error (.alreadyIn .stopped),
          .ok (.count 51), .ok (.count 43)] := by
  have hempty : ({} : Bench).ByHand := nofun
  have hops : ∀ op ∈ someRefused, op.ByHand := by simp [someRefused, Operation.ByHand]
  exact ⟨hempty, hops, (refusals_traceless {} hempty someRefused hops).2.1, by cbv⟩

end Bench
end Script
end Chronograph
