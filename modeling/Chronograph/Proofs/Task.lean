import Mathlib
import Chronograph.Measurement
import Chronograph.Proofs.Stopwatch.Alike
import Chronograph.Stopwatch.During

set_option autoImplicit false

/-!
# Tasks in worlds that are alike

Two worlds are alike when their surroundings are related, their journals are
related, and as many failures arose in both. Two tasks agree when from worlds
that are alike they end alike and leave worlds that are alike. What is made of
tasks that agree agrees: one after the other, caught, measured, or run while a
watch runs.
-/
namespace Chronograph
variable {σ α β : Type}

structure World.Alike (S : σ → σ → Prop) (J : Journal → Journal → Prop) (w v : World σ) : Prop where
  setting : S w.setting v.setting
  journal : J w.journal v.journal
  raised : w.raised = v.raised

namespace Task

theorem outcome_eq {t : Task σ α} {w v : World σ} {r : Except Raised α} (h : t w = (r, v)) :
    t.outcome w = (.ok r, v) := by
  unfold outcome
  rw [h]

theorem act_ok {f : σ → Except Fault α × σ} {w : World σ} {a : α} {s : σ}
    (h : f w.setting = (.ok a, s)) : act f w = (.ok a, { w with setting := s }) := by
  unfold act
  rw [h]

theorem act_error {f : σ → Except Fault α × σ} {w : World σ} {e : Fault} {s : σ}
    (h : f w.setting = (.error e, s)) : act f w = fail e { w with setting := s } := by
  unfold act
  rw [h]

def Agree (S : σ → σ → Prop) (J : Journal → Journal → Prop) (t u : Task σ α) : Prop :=
  ∀ w v, w.Alike S J v → Paired (World.Alike S J) (t w) (u v)

section
variable {S : σ → σ → Prop} {J : Journal → Journal → Prop}

theorem agree_pure (a : α) : Agree S J (pure a : Task σ α) (pure a) := fun _ _ h => ⟨rfl, h⟩

theorem agree_settle (r : Except Raised α) : Agree S J (settle r : Task σ α) (settle r) :=
  fun _ _ h => ⟨rfl, h⟩

theorem agree_bind_of {t u : Task σ α} {f g : α → Task σ β} (ht : Agree S J t u)
    (hf : ∀ a, (∃ w v, w.Alike S J v ∧ (t w).1 = .ok a) → Agree S J (f a) (g a)) :
    Agree S J (t >>= f) (u >>= g) := by
  intro w v h
  obtain ⟨hend, hworld⟩ := ht w v h
  rcases hw : t w with ⟨e | a, w'⟩ <;> rcases hv : u v with ⟨e' | a', v'⟩ <;>
    rw [hw, hv] at hend hworld <;> cases hend
  · rw [bind_error f hw, bind_error g hv]
    exact ⟨rfl, hworld⟩
  · rw [bind_ok f hw, bind_ok g hv]
    exact hf a ⟨w, v, h, congrArg Prod.fst hw⟩ w' v' hworld

theorem agree_bind {t u : Task σ α} {f g : α → Task σ β} (ht : Agree S J t u)
    (hf : ∀ a, Agree S J (f a) (g a)) : Agree S J (t >>= f) (u >>= g) :=
  agree_bind_of ht fun a _ => hf a

theorem agree_outcome {t u : Task σ α} (ht : Agree S J t u) : Agree S J t.outcome u.outcome := by
  intro w v h
  obtain ⟨hend, hworld⟩ := ht w v h
  exact ⟨congrArg Except.ok hend, hworld⟩

theorem agree_attempt {t u : Task σ α} (ht : Agree S J t u) : Agree S J t.attempt u.attempt := by
  intro w v h
  obtain ⟨hend, hworld⟩ := ht w v h
  unfold attempt
  rcases hw : t w with ⟨(e | i) | a, w'⟩ <;> rcases hv : u v with ⟨(e' | i') | a', v'⟩ <;>
    rw [hw, hv] at hend hworld <;> cases hend <;> exact ⟨rfl, hworld⟩

theorem agree_fail (e : Fault) : Agree S J (fail e : Task σ α) (fail e) := by
  intro w v h
  unfold fail occurrence
  exact ⟨by rw [h.raised], h.setting, h.journal, congrArg (· + 1) h.raised⟩

theorem agree_interrupt (i : Interrupt) : Agree S J (interrupt i : Task σ α) (interrupt i) :=
  fun _ _ h => ⟨rfl, h⟩

theorem paired_act {f g : σ → Except Fault α × σ} {w v : World σ} (hJ : J w.journal v.journal)
    (hraised : w.raised = v.raised) (hf : Paired S (f w.setting) (g v.setting)) :
    Paired (World.Alike S J) (act f w) (act g v) := by
  obtain ⟨hend, hsetting⟩ := hf
  unfold act
  rcases hw : f w.setting with ⟨e | a, s⟩ <;> rcases hv : g v.setting with ⟨e' | a', t⟩ <;>
    rw [hw, hv] at hend hsetting <;> cases hend
  · exact agree_fail e _ _ ⟨hsetting, hJ, hraised⟩
  · exact ⟨rfl, hsetting, hJ, hraised⟩

theorem agree_act {f g : σ → Except Fault α × σ} (hf : ∀ s t, S s t → Paired S (f s) (g t)) :
    Agree S J (act f) (act g) :=
  fun _ _ h => paired_act h.journal h.raised (hf _ _ h.setting)

theorem agree_view {f g : σ → α} (hf : ∀ s t, S s t → f s = g t) : Agree S J (view f) (view g) :=
  fun _ _ h => ⟨congrArg Except.ok (hf _ _ h.setting), h⟩

theorem agree_change {f g : σ → σ} (hf : ∀ s t, S s t → S (f s) (g t)) :
    Agree S J (change f) (change g) :=
  fun _ _ h => ⟨rfl, hf _ _ h.setting, h.journal, h.raised⟩

theorem agree_write {f g : Journal → Journal} (hf : ∀ j k, J j k → J (f j) (g k)) :
    Agree S J (write f : Task σ Unit) (write g) :=
  fun _ _ h => ⟨rfl, h.setting, hf _ _ h.journal, h.raised⟩

end
end Task

/-- Nothing that is written sets related journals apart. -/
structure Journal.Congruent (J : Journal → Journal → Prop) : Prop where
  add : ∀ r j k, J j k → J (j.add r) (k.add r)
  mention : ∀ l j k, J j k → J (j.mention l) (k.mention l)
  setLevel : ∀ l level j k, J j k → J (j.setLevel l level) (k.setLevel l level)

theorem Journal.congruent_eq : Journal.Congruent Eq where
  add := by rintro r j _ rfl; rfl
  mention := by rintro l j _ rfl; rfl
  setLevel := by rintro l level j _ rfl; rfl

/-- Journals stay related when runs are entered in one under the first name and in the
    other under the second. -/
def Journal.Interchanges (J : Journal → Journal → Prop) (name name' : String) : Prop :=
  ∀ failedWith text j k, J j k → J (j.add ⟨.own, ownLevel, name, failedWith, text⟩)
    (k.add ⟨.own, ownLevel, name', failedWith, text⟩)

theorem Journal.Congruent.interchanges {J : Journal → Journal → Prop} (hJ : Journal.Congruent J)
    (name : String) : Journal.Interchanges J name name :=
  fun _ _ => hJ.add _

structure Held.Agrees (h : Held σ) (S : σ → σ → Prop) : Prop where
  start : ∀ s t, S s t → Paired S (h.start s) (h.start t)
  stop : ∀ s t, S s t → Paired S (h.stop s) (h.stop t)
  state : ∀ s t, S s t → (h.get s).state = (h.get t).state

theorem Held.agrees_eq (h : Held σ) : h.Agrees Eq where
  start := by rintro s _ rfl; exact ⟨rfl, rfl⟩
  stop := by rintro s _ rfl; exact ⟨rfl, rfl⟩
  state := by rintro s _ rfl; rfl

structure Routine.Agree (S : σ → σ → Prop) (J : Journal → Journal → Prop) (r q : Routine σ α) :
    Prop where
  title : r.title = q.title
  description : r.description = q.description
  run : Task.Agree S J r.run q.run

section
variable {S : σ → σ → Prop} {J : Journal → Journal → Prop} {c : Clock σ}
open Chronograph.Task

theorem Held.agree_leave {h : Held σ} (hh : h.Agrees S) : Agree S J h.leave h.leave := by
  refine agree_act fun s t hst => ?_
  rw [hh.state s t hst]
  cases (h.get t).state with
  | running => exact hh.stop s t hst
  | stopped => exact ⟨rfl, hst⟩

theorem Held.agree_during {h : Held σ} (hh : h.Agrees S) {t u : Task σ α} (ht : Agree S J t u) :
    Agree S J (h.during t) (h.during u) :=
  agree_bind (agree_act hh.start) fun _ => agree_bind (agree_outcome ht) fun r =>
    agree_bind (agree_leave hh) fun _ => agree_settle r

namespace Measurement

theorem agree_started (hc : c.Agrees S) : Agree S J (started c) (started c) := by
  refine agree_act fun s t h => ?_
  obtain ⟨hend, hwatch, hsetting⟩ := Stopwatch.start_like hc (Stopwatch.like_refl False {}) h False.elim
  rcases hs : ({} : Stopwatch).start c s with ⟨e | a, w, s'⟩ <;>
    rcases ht : ({} : Stopwatch).start c t with ⟨e' | a', w', t'⟩ <;>
    rw [hs, ht] at hend hwatch hsetting <;> cases hend
  · exact ⟨rfl, hsetting⟩
  · exact ⟨congrArg Except.ok (Stopwatch.eq_of_like hwatch (Or.inr not_false)), hsetting⟩

theorem agree_elapsed (hc : c.Agrees S) (w : Stopwatch) : Agree S J (elapsed c w) (elapsed c w) :=
  agree_act fun _ _ h => Stopwatch.elapsed_like hc (Stopwatch.like_refl False w) h

theorem agree_stopping (hc : c.Agrees S) (w : Stopwatch) : Agree S J (stopping c w) (stopping c w) := by
  intro x y h
  obtain ⟨hend, hwatch, hsetting⟩ := Stopwatch.stop_like hc (Stopwatch.like_refl False w) h.setting
  unfold stopping occurrence
  rcases hx : w.stop c x.setting with ⟨e | a, w', s⟩ <;>
    rcases hy : w.stop c y.setting with ⟨e' | a', w'', t⟩ <;>
    rw [hx, hy] at hend hwatch hsetting <;> cases hend <;>
    obtain rfl := Stopwatch.eq_of_like hwatch (Or.inr not_false)
  · exact ⟨by rw [h.raised], hsetting, h.journal, congrArg (· + 1) h.raised⟩
  · exact ⟨rfl, hsetting, h.journal, h.raised⟩

theorem agree_enter (hJ : Journal.Congruent J) (entry : Entry) (subject : Option String)
    (failedWith : Option Fault) (n : ℤ) :
    Agree S J (enter entry subject failedWith n) (enter entry subject failedWith n) := by
  unfold enter
  cases subject with
  | none => exact agree_fail _
  | some subject =>
    cases Elapsed.text n with
    | error e => exact agree_fail e
    | ok text => exact agree_write (hJ.add _)

theorem agree_enter_named {name name' : String} (hname : Journal.Interchanges J name name')
    (failedWith : Option Fault) (n : ℤ) :
    Agree S J (enter {} (some name) failedWith n) (enter {} (some name') failedWith n) := by
  unfold enter
  dsimp only
  cases Elapsed.text n with
  | error e => exact agree_fail e
  | ok text => exact agree_write (hname _ text)

end Measurement

namespace Routine
open Measurement
variable {r q : Routine σ α}

theorem Agree.name (h : r.Agree S J q) : r.name = q.name := by
  unfold Routine.name
  rw [h.title, h.description]

section
variable (hname : Journal.Interchanges J r.name q.name) (hc : c.Agrees S)
  (hrun : Task.Agree S J r.run q.run)
include hname hc

theorem agree_concluded (w : Stopwatch) (a : α) :
    Task.Agree S J (r.concluded c w a) (q.concluded c w a) :=
  agree_bind (agree_elapsed hc w) fun n =>
    agree_bind (agree_enter_named hname none n) fun _ => agree_pure _

theorem agree_abandoned (w : Stopwatch) (f : Failure) :
    Task.Agree S J (r.abandoned c w f) (q.abandoned c w f) :=
  agree_bind (agree_elapsed hc w) fun n =>
    agree_bind (agree_enter_named hname (some f.fault) n) fun _ => agree_pure _

include hrun

theorem agree_duration : Task.Agree S J (r.duration c) (q.duration c) :=
  agree_bind (agree_started hc) fun w => agree_bind hrun fun _ =>
    agree_bind (agree_elapsed hc w) fun n =>
      agree_bind (agree_enter_named hname none n) fun _ => agree_pure n

theorem agree_valued : Task.Agree S J (r.valued c) (q.valued c) :=
  agree_bind (agree_started hc) fun w => agree_bind hrun fun a => agree_concluded hname hc w a

theorem agree_captured : Task.Agree S J (r.captured c) (q.captured c) := by
  refine agree_bind (agree_started hc) fun w => agree_bind (agree_attempt hrun) fun ending => ?_
  cases ending with
  | ok a => exact agree_concluded hname hc w a
  | error f => exact agree_abandoned hname hc w f

theorem agree_capturedStopped : Task.Agree S J (r.capturedStopped c) (q.capturedStopped c) := by
  refine agree_bind (agree_started hc) fun w => agree_bind (agree_attempt hrun) fun ending => ?_
  cases ending with
  | error f => exact agree_abandoned hname hc w f
  | ok a =>
    refine agree_bind (agree_stopping hc w) fun stopped => ?_
    rcases stopped with ⟨f | _, w'⟩
    · exact agree_abandoned hname hc w' f
    · exact agree_concluded hname hc w' a

end

theorem agree_logged (hJ : Journal.Congruent J) (hc : c.Agrees S) (htitle : r.title = q.title)
    (entry : Entry) {address : String} (hrun : Task.Agree S J r.run q.run) :
    Task.Agree S J (r.logged c entry address).run (q.logged c entry address).run := by
  unfold logged
  rw [htitle]
  refine agree_bind (agree_started hc) fun w => agree_bind (agree_attempt hrun) fun ending => ?_
  cases ending with
  | ok a =>
    exact agree_bind (agree_elapsed hc w) fun n =>
      agree_bind (agree_enter hJ entry _ none n) fun _ => agree_pure a
  | error f =>
    exact agree_bind (agree_elapsed hc w) fun n =>
      agree_bind (agree_enter hJ entry _ (some f.fault) n) fun _ => agree_settle _

theorem Agree.logged (hJ : Journal.Congruent J) (hc : c.Agrees S) (h : r.Agree S J q) (entry : Entry)
    (address : String) : (r.logged c entry address).Agree S J (q.logged c entry address) :=
  ⟨by simp only [logged_title, h.title], by simp only [logged_description, h.title],
    agree_logged hJ hc h.title entry h.run⟩

end Routine
end
end Chronograph
