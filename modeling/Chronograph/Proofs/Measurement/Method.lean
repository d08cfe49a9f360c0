import Mathlib
import Chronograph.Proofs.Measurement.Unread
import Chronograph.Proofs.Task

set_option autoImplicit false

/-!
# Measurements as a whole

The four measurements are told apart by their method. What a measurement gives
and leaves is said here by three things alone: the reading before the routine,
how the routine ended and what it left, and the reading after it. A logged run
is described in the same way.
-/
namespace Chronograph
variable {σ α β V : Type}

def Reported.nanos : Reported V → ℤ
  | .count n => n
  | .timed t => t.nanos

namespace Method

def captures : Method → Bool
  | .duration | .valued => false
  | .captured | .capturedStopped => true

def reported (n : ℤ) (a : V) : Method → Reported V
  | .duration => .count n
  | .valued | .captured | .capturedStopped => .timed (.value n a)

end Method

namespace Task

/-- What `t` does to the surroundings is a step of `P`. -/
def Keeps (P : σ → σ → Prop) (t : Task σ α) : Prop := ∀ w, P w.setting (t w).2.setting

section
variable {P : σ → σ → Prop}

instance lawfulMonad : LawfulMonad (Task σ) := LawfulMonad.mk' _
  (by
    intro α t
    funext w
    change (match t w with
      | (.ok a, w) => (.ok a, w)
      | (.error e, w) => (.error e, w)) = t w
    rcases t w with ⟨_ | _, v⟩ <;> rfl)
  (fun _ _ => rfl)
  (by
    intro α β γ t f g
    funext w
    rcases ht : t w with ⟨e | a, v⟩
    · rw [bind_error g (bind_error f ht), bind_error _ ht]
    · rw [bind_ok _ ht]
      rcases hf : f a v with ⟨e | b, u⟩
      · rw [bind_error g ((bind_ok f ht).trans hf), bind_error g hf]
      · rw [bind_ok g ((bind_ok f ht).trans hf), bind_ok g hf])

theorem bind_left (t : Task σ α) {next : α → Task σ β} [Std.Refl P] (hnext : ∀ a, Keeps P (next a))
    (w : World σ) : P (t w).2.setting ((t >>= next) w).2.setting := by
  rcases ht : t w with ⟨e | a, v⟩
  · rw [bind_error next ht]
    exact refl_of P _
  · rw [bind_ok next ht]
    exact hnext a v

variable [IsPreorder σ P]

theorem keeps_bind {t : Task σ α} {next : α → Task σ β} (ht : Keeps P t)
    (hnext : ∀ a, Keeps P (next a)) : Keeps P (t >>= next) := fun w =>
  trans_of P (ht w) (bind_left t hnext w)

theorem keeps_pure (a : α) : Keeps P (pure a : Task σ α) := fun w => refl_of P w.setting

theorem keeps_settle (r : Except Raised α) : Keeps P (settle r : Task σ α) :=
  fun w => refl_of P w.setting

omit [IsPreorder σ P] in
theorem keeps_act {f : σ → Except Fault α × σ} (hf : ∀ s, P s (f s).2) : Keeps P (act f) := by
  intro w
  have hs := hf w.setting
  unfold act
  rcases hr : f w.setting with ⟨e | a, s⟩ <;> rw [hr] at hs <;> exact hs

omit [IsPreorder σ P] in
theorem bind_congr {t u : Task σ α} {w : World σ} (h : t w = u w) (next : α → Task σ β) :
    (t >>= next) w = (u >>= next) w := by
  rcases hu : u w with ⟨e | a, v⟩
  · rw [bind_error next (h.trans hu), bind_error next hu]
  · rw [bind_ok next (h.trans hu), bind_ok next hu]

omit [IsPreorder σ P] in
theorem attempt_congr {t u : Task σ α} {w : World σ} (h : t w = u w) : t.attempt w = u.attempt w := by
  unfold attempt
  rw [h]

theorem attempt_world (t : Task σ α) (w : World σ) : (t.attempt w).2 = (t w).2 := by
  unfold attempt
  rcases t w with ⟨(f | i) | a, v⟩ <;> rfl

end
end Task

namespace Measurement
open Chronograph.Task
variable {c : Clock σ} {r : Routine σ V} {v w : World σ} {first last : ℤ} {ending : Except Raised V}
  {address : String}

section
variable {P : σ → σ → Prop} [IsPreorder σ P]

theorem keeps_enter (entry : Entry) (subject : Option String) (failedWith : Option Fault) (n : ℤ) :
    Keeps P (enter entry subject failedWith n) := by
  intro w
  unfold enter
  cases subject with
  | none => exact refl_of P w.setting
  | some subject => cases Elapsed.text n <;> exact refl_of P w.setting

theorem keeps_elapsed (hc : ∀ s, P s (c.read s).2) (watch : Stopwatch) : Keeps P (elapsed c watch) := by
  refine keeps_act fun s => ?_
  have hs := hc s
  unfold Stopwatch.elapsed
  cases watch.state with
  | stopped => exact refl_of P s
  | running => rcases hr : c.read s with ⟨_ | _, s'⟩ <;> rw [hr] at hs <;> exact hs

theorem keeps_stopping (hc : ∀ s, P s (c.read s).2) (watch : Stopwatch) :
    Keeps P (stopping c watch) := by
  intro w
  have hs := hc w.setting
  unfold stopping Stopwatch.stop
  cases watch.state.moveTo .stopped with
  | error e => exact refl_of P w.setting
  | ok state => rcases hr : c.read w.setting with ⟨_ | _, s'⟩ <;> rw [hr] at hs <;> exact hs

theorem keeps_concluded (hc : ∀ s, P s (c.read s).2) (watch : Stopwatch) (a : V) :
    Keeps P (r.concluded c watch a) :=
  keeps_bind (keeps_elapsed hc watch) fun n => keeps_bind (keeps_enter {} _ none n) fun _ => keeps_pure _

theorem keeps_abandoned (hc : ∀ s, P s (c.read s).2) (watch : Stopwatch) (f : Failure) :
    Keeps P (r.abandoned c watch f) :=
  keeps_bind (keeps_elapsed hc watch) fun n => keeps_bind (keeps_enter {} _ _ n) fun _ => keeps_pure _

/-- After its routine a measurement only reads the clock. -/
theorem measure_left (hc : ∀ s, P s (c.read s).2) (m : Method)
    (hstart : (c.read w.setting).1 = .ok first) :
    P (r.run (c.after w)).2.setting (m.measure r c w).2.setting := by
  have hstarted := started_eq hstart
  have hconcluded := keeps_concluded (P := P) (r := r) hc ⟨.running, 0, first⟩
  have habandoned := keeps_abandoned (P := P) (r := r) hc ⟨.running, 0, first⟩
  cases m with
  | duration =>
    simp only [Method.measure, Routine.duration, bind_assoc, bind_ok _ hstarted]
    exact bind_left r.run (fun _ => keeps_bind (keeps_elapsed hc _) fun n =>
      keeps_bind (keeps_enter {} _ none n) fun _ => keeps_pure _) _
  | valued =>
    simp only [Method.measure, Routine.valued, bind_assoc, bind_ok _ hstarted]
    exact bind_left r.run (fun a => keeps_bind (hconcluded a) fun _ => keeps_pure _) _
  | captured =>
    simp only [Method.measure, Routine.captured, bind_assoc, bind_ok _ hstarted]
    rw [← attempt_world]
    refine bind_left r.run.attempt (fun ending => ?_) _
    cases ending with
    | ok a => exact keeps_bind (hconcluded a) fun _ => keeps_pure _
    | error f => exact keeps_bind (habandoned f) fun _ => keeps_pure _
  | capturedStopped =>
    simp only [Method.measure, Routine.capturedStopped, bind_assoc, bind_ok _ hstarted]
    rw [← attempt_world]
    refine bind_left r.run.attempt (fun ending => ?_) _
    cases ending with
    | ok a =>
      simp only [bind_assoc]
      refine keeps_bind (keeps_stopping hc _) fun stopped => ?_
      rcases stopped with ⟨f | _, watch⟩
      · exact keeps_bind (keeps_abandoned hc watch f) fun _ => keeps_pure _
      · exact keeps_bind (keeps_concluded hc watch a) fun _ => keeps_pure _
    | error f => exact keeps_bind (habandoned f) fun _ => keeps_pure _

theorem logged_left (hc : ∀ s, P s (c.read s).2) (entry : Entry)
    (hstart : (c.read w.setting).1 = .ok first) :
    P (r.run (c.after w)).2.setting ((r.logged c entry address).run w).2.setting := by
  unfold Routine.logged
  dsimp only
  rw [bind_ok _ (started_eq hstart), ← attempt_world]
  refine bind_left r.run.attempt (fun ending => ?_) _
  cases ending with
  | ok a =>
    exact keeps_bind (keeps_elapsed hc _) fun n =>
      keeps_bind (keeps_enter entry _ _ n) fun _ => keeps_pure _
  | error f =>
    exact keeps_bind (keeps_elapsed hc _) fun n =>
      keeps_bind (keeps_enter entry _ _ n) fun _ => keeps_settle _

end

/-- A run is entered, and then ends as `outcome`. Without a subject, or with a time
    that cannot be shown, it fails instead. -/
def entered (entry : Entry) (subject : Option String) (failedWith : Option Fault) (n : ℤ)
    (outcome : Except Raised α) : Task σ α := do
  enter entry subject failedWith n
  Task.settle outcome

theorem eq_of_entered {entry : Entry} {subject : Option String} {failedWith : Option Fault} {n : ℤ}
    {a b : α} (h : (entered entry subject failedWith n (.ok a) v).1 = .ok b) : b = a := by
  unfold entered enter at h
  cases subject with
  | none => cases h
  | some subject =>
    cases ht : Elapsed.text n with
    | error e =>
      rw [ht] at h
      cases h
    | ok text =>
      rw [ht] at h
      cases h
      rfl

theorem map_recorded {t : Task σ α} {f : α → β} {subject : String}
    {failedWith : Option Fault} {n : ℤ} {a : α} (h : t w = recorded subject failedWith n a v) :
    (t >>= fun a => pure (f a)) w = entered {} (some subject) failedWith n (.ok (f a)) v := by
  unfold recorded at h
  unfold entered enter
  cases ht : Elapsed.text n with
  | ok text =>
    rw [ht] at h
    exact bind_ok _ h
  | error e =>
    rw [ht] at h
    exact bind_error _ h

/-- The end of a measurement: its routine ended so and left `v`, the time came to `n`,
    and `after` is the world after the last reading. -/
def finish (m : Method) (name : String) (n : ℤ) (ending : Except Raised V) (v after : World σ) :
    Except Raised (Reported V) × World σ :=
  match ending with
  | .ok a => entered {} (some name) none n (.ok (m.reported n a)) after
  | .error (.failure f) =>
    if m.captures then entered {} (some name) (some f.fault) n (.ok (.timed (.failure n f))) after
    else (.error (.failure f), v)
  | .error (.interrupt i) => (.error (.interrupt i), v)

theorem measure_eq (m : Method) (hstart : (c.read w.setting).1 = .ok first)
    (hrun : r.run (c.after w) = (ending, v)) (hlast : (c.read v.setting).1 = .ok last) :
    m.measure r c w = finish m r.name (last - first) ending v (c.after v) := by
  unfold Method.measure
  rcases ending with (f | i) | a
  · cases m with
    | duration => exact bind_error _ (Routine.raised_uncaptured hstart hrun).1
    | valued => exact bind_error _ (Routine.raised_uncaptured hstart hrun).2
    | captured => exact map_recorded (Routine.captured_of_failure hstart hrun hlast)
    | capturedStopped => exact map_recorded (Routine.capturedStopped_of_failure hstart hrun hlast)
  · cases m with
    | duration => exact bind_error _ (Routine.raised_uncaptured hstart hrun).1
    | valued => exact bind_error _ (Routine.raised_uncaptured hstart hrun).2
    | captured => exact bind_error _ (Routine.interrupt_uncaptured hstart hrun).1
    | capturedStopped => exact bind_error _ (Routine.interrupt_uncaptured hstart hrun).2
  · cases m with
    | duration => exact map_recorded (Routine.duration_of_value hstart hrun hlast)
    | valued => exact map_recorded (Routine.valued_of_value hstart hrun hlast)
    | captured => exact map_recorded (Routine.captured_of_value hstart hrun hlast)
    | capturedStopped => exact map_recorded (Routine.capturedStopped_of_value hstart hrun hlast)

theorem nanos_of_measure {m : Method} {reported : Reported V} {u : World σ}
    (h : m.measure r c w = (.ok reported, u)) (hstart : (c.read w.setting).1 = .ok first)
    (hlast : (c.read (r.run (c.after w)).2.setting).1 = .ok last) : reported.nanos = last - first := by
  have hend := congrArg Prod.fst h
  rw [measure_eq m hstart rfl hlast] at hend
  unfold finish at hend
  split at hend
  · rw [eq_of_entered hend]
    cases m <;> rfl
  · split at hend
    · rw [eq_of_entered hend]
      rfl
    · cases hend
  · cases hend

def finishLogged (entry : Entry) (title : Option String) (n : ℤ) (ending : Except Raised V)
    (v after : World σ) : Except Raised V × World σ :=
  match ending with
  | .ok a => entered entry title none n (.ok a) after
  | .error (.failure f) => entered entry title (some f.fault) n (.error (.failure f)) after
  | .error (.interrupt i) => (.error (.interrupt i), v)

theorem logged_eq (entry : Entry) (hstart : (c.read w.setting).1 = .ok first)
    (hrun : r.run (c.after w) = (ending, v)) (hlast : (c.read v.setting).1 = .ok last) :
    (r.logged c entry address).run w = finishLogged entry r.title (last - first) ending v (c.after v) := by
  unfold Routine.logged
  dsimp only
  rw [bind_ok _ (started_eq hstart)]
  rcases ending with (f | i) | a
  · rw [bind_ok _ (attempt_failure hrun)]
    exact bind_ok _ (elapsed_running hlast)
  · exact bind_error _ (attempt_interrupt hrun)
  · rw [bind_ok _ (attempt_value hrun)]
    exact bind_ok _ (elapsed_running hlast)

section
variable {S : σ → σ → Prop} {J : Journal → Journal → Prop} {x y : World σ}

theorem agree_entered (hJ : Journal.Congruent J) (entry : Entry) (subject : Option String)
    (failedWith : Option Fault) (n : ℤ) (outcome : Except Raised α) :
    Agree S J (entered entry subject failedWith n outcome)
      (entered entry subject failedWith n outcome) :=
  agree_bind (agree_enter hJ entry subject failedWith n) fun _ => agree_settle outcome

theorem paired_finish (hJ : Journal.Congruent J) (m : Method) (name : String) (n : ℤ)
    (ending : Except Raised V) (hleft : v.Alike S J x) (hafter : w.Alike S J y) :
    Paired (World.Alike S J) (finish m name n ending v w) (finish m name n ending x y) := by
  unfold finish
  split
  · exact agree_entered hJ {} _ _ n _ w y hafter
  · split
    · exact agree_entered hJ {} _ _ n _ w y hafter
    · exact ⟨rfl, hleft⟩
  · exact ⟨rfl, hleft⟩

theorem paired_finishLogged (hJ : Journal.Congruent J) (entry : Entry) (title : Option String) (n : ℤ)
    (ending : Except Raised V) (hleft : v.Alike S J x) (hafter : w.Alike S J y) :
    Paired (World.Alike S J) (finishLogged entry title n ending v w)
      (finishLogged entry title n ending x y) := by
  unfold finishLogged
  split
  · exact agree_entered hJ entry title _ n _ w y hafter
  · exact agree_entered hJ entry title _ n _ w y hafter
  · exact ⟨rfl, hleft⟩

end

theorem measure_unread (m : Method) (r : Routine σ V) {e : Fault}
    (h : (c.read w.setting).1 = .error e) :
    m.measure r c w = Task.fail e (c.after w) := by
  have hstarted := started_failed h
  cases m with
  | duration => exact bind_error _ (bind_error _ hstarted)
  | valued => exact bind_error _ (bind_error _ hstarted)
  | captured => exact bind_error _ (Routine.captures_unstarted r h).1
  | capturedStopped => exact bind_error _ (Routine.captures_unstarted r h).2

theorem logged_unread (r : Routine σ V) (entry : Entry) {e : Fault}
    (h : (c.read w.setting).1 = .error e) :
    (r.logged c entry address).run w = Task.fail e (c.after w) := bind_error _ (started_failed h)

theorem measure_frozen (m : Method) (r : Routine σ V) (c : Clock σ) (w : World σ) :
    m.measure { r with run := fun _ => r.run (c.after w) } c w = m.measure r c w := by
  cases hread : (c.read w.setting).1 with
  | error e => rw [measure_unread m _ hread, measure_unread m r hread]
  | ok first =>
    have hstarted := started_eq hread
    cases m with
    | duration =>
      refine bind_congr ?_ _
      unfold Routine.duration
      rw [bind_ok _ hstarted, bind_ok _ hstarted]
      exact bind_congr rfl _
    | valued =>
      refine bind_congr ?_ _
      unfold Routine.valued
      rw [bind_ok _ hstarted, bind_ok _ hstarted]
      exact bind_congr rfl _
    | captured =>
      refine bind_congr ?_ _
      unfold Routine.captured
      rw [bind_ok _ hstarted, bind_ok _ hstarted]
      exact bind_congr (attempt_congr rfl) _
    | capturedStopped =>
      refine bind_congr ?_ _
      unfold Routine.capturedStopped
      rw [bind_ok _ hstarted, bind_ok _ hstarted]
      exact bind_congr (attempt_congr rfl) _

theorem logged_frozen (r : Routine σ V) (c : Clock σ) (entry : Entry) (address : String) (w : World σ) :
    (({ r with run := fun _ => r.run (c.after w) } : Routine σ V).logged c entry address).run w =
      (r.logged c entry address).run w := by
  cases hread : (c.read w.setting).1 with
  | error e => rw [logged_unread _ entry hread, logged_unread r entry hread]
  | ok first =>
    unfold Routine.logged
    dsimp only
    rw [bind_ok _ (started_eq hread), bind_ok _ (started_eq hread)]
    exact bind_congr (attempt_congr rfl) _

section
variable {S : σ → σ → Prop} {J : Journal → Journal → Prop} {q : Routine σ V} {x y : World σ}

theorem agree_measure_named (hname : Journal.Interchanges J r.name q.name) (hc : c.Agrees S) (m : Method)
    (hrun : Agree S J r.run q.run) : Agree S J (m.measure r c) (m.measure q c) := by
  cases m with
  | duration => exact agree_bind (Routine.agree_duration hname hc hrun) fun _ => agree_pure _
  | valued => exact agree_bind (Routine.agree_valued hname hc hrun) fun _ => agree_pure _
  | captured => exact agree_bind (Routine.agree_captured hname hc hrun) fun _ => agree_pure _
  | capturedStopped => exact agree_bind (Routine.agree_capturedStopped hname hc hrun) fun _ => agree_pure _

theorem agree_measure (hJ : Journal.Congruent J) (hc : c.Agrees S) (m : Method)
    (h : r.Agree S J q) : Agree S J (m.measure r c) (m.measure q c) :=
  agree_measure_named (h.name ▸ hJ.interchanges r.name) hc m h.run

/-- It is enough that the routines agree in the worlds in which they are run. -/
theorem paired_measure (hname : Journal.Interchanges J r.name q.name) (hc : c.Agrees S) (m : Method)
    (hxy : x.Alike S J y) (hrun : Paired (World.Alike S J) (r.run (c.after x)) (q.run (c.after y))) :
    Paired (World.Alike S J) (m.measure r c x) (m.measure q c y) := by
  rw [← measure_frozen m r c x, ← measure_frozen m q c y]
  exact agree_measure_named (r := { r with run := fun _ => r.run (c.after x) })
    (q := { q with run := fun _ => q.run (c.after y) }) hname hc m (fun _ _ _ => hrun) x y hxy

theorem paired_logged (hJ : Journal.Congruent J) (hc : c.Agrees S) (entry : Entry) (address : String)
    (htitle : r.title = q.title) (hxy : x.Alike S J y)
    (hrun : Paired (World.Alike S J) (r.run (c.after x)) (q.run (c.after y))) :
    Paired (World.Alike S J) ((r.logged c entry address).run x) ((q.logged c entry address).run y) := by
  rw [← logged_frozen r c entry address x, ← logged_frozen q c entry address y]
  exact Routine.agree_logged (r := { r with run := fun _ => r.run (c.after x) })
    (q := { q with run := fun _ => q.run (c.after y) }) hJ hc htitle entry (fun _ _ _ => hrun) x y hxy

end

/-- The task runs the routine between two readings of the clock, and then ends by the
    time between them. A first reading that fails is all that happens. -/
structure Brackets (c : Clock σ) (r : Routine σ V)
    (close : ℤ → Except Raised V → World σ → World σ → Except Raised α × World σ)
    (t : Task σ α) : Prop where
  unread : ∀ w e, (c.read w.setting).1 = .error e → t w = Task.fail e (c.after w)
  eq : ∀ w first last ending v, (c.read w.setting).1 = .ok first → r.run (c.after w) = (ending, v) →
    (c.read v.setting).1 = .ok last → t w = close (last - first) ending v (c.after v)

theorem brackets_measure (c : Clock σ) (r : Routine σ V) (m : Method) :
    Brackets c r (finish m r.name) (m.measure r c) :=
  ⟨fun _ _ h => measure_unread m r h, fun _ _ _ _ _ hstart hrun hlast => measure_eq m hstart hrun hlast⟩

theorem brackets_logged (c : Clock σ) (r : Routine σ V) (entry : Entry) (address : String) :
    Brackets c r (finishLogged entry r.title) (r.logged c entry address).run :=
  ⟨fun _ _ h => logged_unread r entry h,
    fun _ _ _ _ _ hstart hrun hlast => logged_eq entry hstart hrun hlast⟩

theorem exists_finishLogged_eq (entry : Entry) (title : String) {n : ℤ} {text : String}
    (h : Elapsed.text n = .ok text) (ending : Except Raised V) (v : World σ) :
    ∃ j, finishLogged entry (some title) n ending v v = (ending, { v with journal := j }) ∧
      (j = v.journal ∨
        ∃ failedWith, j = v.journal.add ⟨entry.logger, entry.level, title, failedWith, text⟩) := by
  unfold finishLogged entered enter
  rcases ending with (f | i) | a
  · simp only [h]
    exact ⟨_, rfl, Or.inr ⟨_, rfl⟩⟩
  · exact ⟨_, rfl, Or.inl rfl⟩
  · simp only [h]
    exact ⟨_, rfl, Or.inr ⟨_, rfl⟩⟩

theorem settled_of_entered {entry : Entry} {subject : Option String} {failedWith : Option Fault} {n : ℤ}
    {outcome : Except Raised α} {f : Failure} {state : State} (hf : f.fault = .alreadyIn state)
    (h : (entered entry subject failedWith n outcome w).1 = .error (.failure f)) :
    outcome = .error (.failure f) := by
  unfold entered enter at h
  cases subject with
  | none =>
    cases h
    cases hf
  | some subject =>
    cases ht : Elapsed.text n with
    | ok text =>
      rw [ht] at h
      exact h
    | error e =>
      rw [ht] at h
      cases h
      cases hf.symm.trans (Elapsed.text_error ht)

/-- No measurement fails as a watch would, or captures such a failure, unless its
    routine failed so. -/
theorem own_of_measure {m : Method} {f : Failure} {state : State}
    (hf : f.fault = .alreadyIn state) (hstart : (c.read w.setting).1 = .ok first)
    (hlast : (c.read (r.run (c.after w)).2.setting).1 = .ok last)
    (h : (m.measure r c w).1 = .error (.failure f) ∨
      ∃ n, (m.measure r c w).1 = .ok (.timed (.failure n f))) :
    (r.run (c.after w)).1 = .error (.failure f) := by
  rw [measure_eq m hstart rfl hlast] at h
  unfold finish at h
  split at h
  · rcases h with h | ⟨k, h⟩
    · cases settled_of_entered hf h
    · have hreported := eq_of_entered h
      cases m <;> cases hreported
  · rename_i g hg
    rw [hg]
    split at h
    · rcases h with h | ⟨k, h⟩
      · cases settled_of_entered hf h
      · cases eq_of_entered h
        rfl
    · rcases h with h | ⟨k, h⟩ <;> cases h
      rfl
  · rcases h with h | ⟨k, h⟩ <;> cases h

theorem own_of_logged {entry : Entry} {f : Failure} {state : State} (hf : f.fault = .alreadyIn state)
    (hstart : (c.read w.setting).1 = .ok first)
    (hlast : (c.read (r.run (c.after w)).2.setting).1 = .ok last)
    (h : ((r.logged c entry address).run w).1 = .error (.failure f)) :
    (r.run (c.after w)).1 = .error (.failure f) := by
  rw [logged_eq entry hstart rfl hlast] at h
  unfold finishLogged at h
  split at h
  · cases settled_of_entered hf h
  · rename_i g hg
    rw [hg]
    exact settled_of_entered hf h
  · cases h

end Measurement

namespace Routine
open Measurement

/-- A logged call is a measurement that captures the failure, with what it captured
    taken out again: the same readings, the same record, the same end, whatever the
    clock and the callable do. A title must not be empty, or else the measurement
    would be entered under the description. -/
theorem logged_eq_unwrap {Arguments : Type} (title description : String) (htitle : title ≠ "")
    (body : Arguments → Task σ V) (c : Clock σ) (address : String) (arguments : Arguments) :
    ((⟨some title, description, body arguments⟩ : Routine σ V).logged c {} address).run = (do
      let t ← (⟨some title, description, body arguments⟩ : Routine σ V).captured c
      t.unwrap) := by
  have hname : (⟨some title, description, body arguments⟩ : Routine σ V).name = title := if_neg htitle
  unfold logged captured
  simp only [bind_assoc]
  -- From the end of the callable on, both read, enter and end in the same order.
  refine congrArg _ (funext fun watch => congrArg _ (funext fun ending => ?_))
  cases ending with
  | ok a => simp only [concluded, hname, bind_assoc, pure_bind, Timed.unwrap]
  | error f => simp only [abandoned, hname, bind_assoc, pure_bind, Timed.unwrap]

def giveBack (n : ℕ) : Task Tape ℕ := pure n

/-- The second reading fails, and its failure is the end of both. -/
theorem logged_eq_unwrap_giveBack :
    "giveBack" ≠ "" ∧
      ((⟨some "giveBack", "<giveBack>", giveBack 7⟩ : Routine Tape ℕ).logged ⟨Tape.read⟩ {} "0x0").run = (do
        let t ← (⟨some "giveBack", "<giveBack>", giveBack 7⟩ : Routine Tape ℕ).captured ⟨Tape.read⟩
        t.unwrap) ∧
      (((⟨some "giveBack", "<giveBack>", giveBack 7⟩ : Routine Tape ℕ).logged ⟨Tape.read⟩ {} "0x0").run
        { setting := Tape.ofList [some 5, none] }).1 = .error (.failure ⟨0, .clockFailure⟩) :=
  ⟨by decide, logged_eq_unwrap "giveBack" "<giveBack>" (by decide) giveBack ⟨Tape.read⟩ "0x0" 7, by cbv⟩

end Routine
end Chronograph
