import Mathlib
import Chronograph.Proofs.Script.Bench
import Chronograph.Proofs.Script.Renewal
import Chronograph.Proofs.Stopwatch.Shift

set_option autoImplicit false

/-!
# Benches whose clocks are shifted

Each clock on a bench is shifted by an amount of its own, and a clock that comes up may
be shifted by any. The watches that run are shifted with the clocks they were made for,
so a bench is told together with the clock of each watch. An operation leaves benches
that are shifted as before, and is answered the same on both, but for readings.
-/
namespace Chronograph

def Tape.shift (d : ℤ) (t : Tape) : Tape := { t with reading := fun k => (t.reading k).map (· + d) }

def Timepiece.shift (d : ℤ) : Timepiece → Timepiece
  | manual c => manual { c with now := c.now + d }
  | tape t => tape (t.shift d)

namespace Timepiece
variable {t : Timepiece} {d : ℤ}

theorem read_shift (d : ℤ) (t : Timepiece) :
    (t.shift d).read = (t.read.1.map (· + d), t.read.2.shift d) := by
  cases t with
  | manual c =>
    exact Prod.ext rfl (congrArg manual (ManualClock.mk.injEq .. ▸ ⟨add_right_comm _ _ _, rfl⟩))
  | tape t => rfl

theorem adjust_shift (d : ℤ) (t : Timepiece) {change : ManualClock → Except Fault ManualClock}
    (hchange : ∀ c : ManualClock, change { c with now := c.now + d } =
      (change c).map fun c => { c with now := c.now + d }) :
    (t.shift d).adjust change = ((t.adjust change).1, (t.adjust change).2.shift d) := by
  cases t with
  | manual c =>
    unfold adjust shift
    dsimp only
    rw [hchange]
    cases change c <;> rfl
  | tape t => rfl

theorem advance_shift (d : ℤ) (c : ManualClock) (n : ℤ) :
    ({ c with now := c.now + d } : ManualClock).advance n =
      (c.advance n).map fun c => { c with now := c.now + d } := by
  unfold ManualClock.advance
  split
  · rfl
  · simp [Except.map, add_right_comm]

theorem command_shift (d : ℤ) (t : Timepiece) {c : Command} (hc : c ≠ .read) :
    (t.shift d).command c = ((t.command c).1, (t.command c).2.shift d) := by
  unfold command
  cases c with
  | read => exact absurd rfl hc
  | advance n => exact adjust_shift d t fun c => advance_shift d c n
  | advanceBy days seconds microseconds =>
    dsimp only
    cases Duration.ofParts? days seconds microseconds with
    | some p => exact adjust_shift d t fun c => advance_shift d c _
    | none => rfl
  | step => cases t <;> rfl
  | setStep n =>
    refine adjust_shift d t fun c => ?_
    unfold ManualClock.setStep
    split <;> rfl

theorem exists_reading (h : t.Sound) : ∃ now, (t.command .read).1 = .ok (some now) := by
  obtain ⟨now, hnow⟩ := (sound_read h).1
  refine ⟨now, ?_⟩
  unfold command
  rcases hr : t.read with ⟨_ | _, u⟩ <;> rw [hr] at hnow <;> cases hnow
  rfl

theorem command_read_shift (d : ℤ) (t : Timepiece) :
    (t.shift d).command .read =
      ((t.command .read).1.map (Option.map (· + d)), (t.command .read).2.shift d) := by
  unfold command
  rw [read_shift]
  rcases t.read with ⟨_ | _, u⟩ <;> rfl

end Timepiece

namespace Script

/-- The same operation, except that a clock may be made to show `d` more. -/
inductive Operation.Shifted : Operation → Operation → Prop
  | clock (name : String) (c : Timepiece.Command) : Shifted (.clock name c) (.clock name c)
  | makeWatch (name : String) (clock : Option String) (running : Bool) :
    Shifted (.makeWatch name clock running) (.makeWatch name clock running)
  | ask (op : Operation) (h : op.asked? ≠ none) : Shifted op op
  | makeClock (name : String) (start step d : ℤ) :
    Shifted (.makeClock name start step) (.makeClock name (start + d) step)
  | makeTape (name : String) {t : Tape} (h : (Timepiece.tape t).Sound) (d : ℤ) :
    Shifted (.makeTape name t) (.makeTape name (t.shift d))

/-- The same answer, or two readings. -/
def Operation.Answered {ε : Type} (op : Operation) (r s : Except ε Reply) : Prop :=
  r = s ∨ (∃ name, op = .clock name .read) ∧ ∃ m n, r = .ok (.count m) ∧ s = .ok (.count n)

/-- By how much the clocks on a bench are shifted, and the clock that each watch on
    it was made for. -/
structure Shift where
  clocks : ClockId → Option ℤ
  watches : WatchId → Option ClockId

/-- What was there is as it was; clocks and watches may have come up since. -/
structure Shift.Kept (δ η : Shift) : Prop where
  clocks : ∀ id d, δ.clocks id = some d → η.clocks id = some d
  watches : ∀ id k, δ.watches id = some k → η.watches id = some k

variable {δ η : Shift} {a b : Bench} {d : ℤ}

theorem Shift.kept_refl (δ : Shift) : δ.Kept δ := ⟨fun _ _ h => h, fun _ _ h => h⟩

theorem Shift.kept_trans {ε : Shift} (h : δ.Kept η) (h' : η.Kept ε) : δ.Kept ε :=
  ⟨fun id d hd => h'.clocks id d (h.clocks id d hd), fun id k hk => h'.watches id k (h.watches id k hk)⟩

/-- The same clocks but for their shifts, which never fail to be read, and on them
    the same watches. -/
structure Bench.Shifted (δ : Shift) (a b : Bench) : Prop where
  clockVersions : a.clockVersions = b.clockVersions
  watchVersions : a.watchVersions = b.watchVersions
  gave : ∀ id, a.Gave id ↔ ∃ d, δ.clocks id = some d
  gaveWatch : ∀ id k, δ.watches id = some k → id.version < nextVersion a.watchVersions id.name
  absent : ∀ id, δ.clocks id = none → a.clocks.get? id = none ∧ b.clocks.get? id = none
  present : ∀ id d, δ.clocks id = some d →
    ∃ t, t.Sound ∧ a.clocks.get? id = some t ∧ b.clocks.get? id = some (t.shift d)
  unmade : ∀ id, δ.watches id = none → a.watches.get? id = none ∧ b.watches.get? id = none
  made : ∀ id k, δ.watches id = some k → ∃ d w v, δ.clocks k = some d ∧
    a.watches.get? id = some (k, w) ∧ b.watches.get? id = some (k, v) ∧ w.Shifted d v

namespace Bench
variable {id : ClockId} {w v : Stopwatch}

theorem shifted_onClock {α : Type} (h : Shifted δ a b) (k : ClockId)
    {f g : Timepiece → Except Fault α × Timepiece}
    (hfg : ∀ t d, t.Sound → (f t).2.Sound ∧ (g (t.shift d)).2 = (f t).2.shift d) :
    Shifted δ (a.onClock k f).2 (b.onClock k g).2 where
  clockVersions := by rw [onClock_clockVersions, onClock_clockVersions, h.clockVersions]
  watchVersions := by rw [onClock_watchVersions, onClock_watchVersions, h.watchVersions]
  gave id := by
    rw [← h.gave id]
    have hversions := onClock_clockVersions a k f
    exact ⟨gave_of_versions hversions.symm, gave_of_versions hversions⟩
  gaveWatch := by
    rw [onClock_watchVersions]
    exact h.gaveWatch
  absent id hid := by
    obtain ⟨ha, hb⟩ := h.absent id hid
    rw [get?_onClock, get?_onClock, ha, hb]
    exact ⟨rfl, rfl⟩
  present id d hid := by
    obtain ⟨t, hsound, ha, hb⟩ := h.present id d hid
    obtain ⟨hleft, hshift⟩ := hfg t d hsound
    rw [get?_onClock, get?_onClock, ha, hb]
    by_cases he : k = id
    · exact ⟨_, hleft, by simp [he], by simp [he, hshift]⟩
    · exact ⟨t, hsound, by simp [he], by simp [he]⟩
  unmade := by
    rw [onClock_watches, onClock_watches]
    exact h.unmade
  made := by
    rw [onClock_watches, onClock_watches]
    exact h.made

theorem clock_shifts (hd : δ.clocks id = some d) : (clock id).Shifts d (Shifted δ) := by
  intro a b h
  obtain ⟨t, hsound, ha, hb⟩ := h.present id d hd
  obtain ⟨now, hnow⟩ := (Timepiece.sound_read hsound).1
  refine ⟨now, _, _, Prod.ext ((read_eq_of_get? ha).trans hnow) rfl, Prod.ext ?_ rfl, ?_⟩
  · rw [read_eq_of_get? hb, Timepiece.read_shift, hnow]
    rfl
  · exact shifted_onClock h id fun t d ht =>
      ⟨(Timepiece.sound_read ht).2, congrArg Prod.snd (Timepiece.read_shift d t)⟩

theorem read_of_absent (h : a.clocks.get? id = none) : (clock id).read a = (.error .unknownName, a) := by
  simp [clock, onClock, h]

theorem exists_shifted_addClock (h : Shifted δ a b) (name : String) {t : Timepiece} (ht : t.Sound)
    (d : ℤ) :
    ∃ η, δ.Kept η ∧ Shifted η (a.addClock name t) (b.addClock name (t.shift d)) := by
  have hfresh : ∀ e, δ.clocks (.named name (nextVersion a.clockVersions name)) ≠ some e :=
    fun e he => not_gave_next a name ((h.gave _).mpr ⟨e, he⟩)
  have hkept : δ.Kept { δ with
      clocks :=
        Function.update δ.clocks (.named name (nextVersion a.clockVersions name)) (some d) } := by
    refine ⟨fun id e he => ?_, fun _ _ hk => hk⟩
    dsimp only
    rwa [Function.update_of_ne]
    rintro rfl
    exact hfresh e he
  refine ⟨_, hkept, { h with clockVersions := ?_, gave := ?_, absent := ?_, present := ?_, made := ?_ }⟩
  · simp only [addClock, h.clockVersions]
  · intro id
    rw [gave_addClock_iff, h.gave id]
    dsimp only
    rw [Function.update_apply]
    split <;> simp [*]
  · intro id hid
    dsimp only at hid
    rw [Function.update_apply] at hid
    split at hid
    · cases hid
    · rw [get?_addClock, get?_addClock, ← h.clockVersions, if_neg (Ne.symm ‹_›), if_neg (Ne.symm ‹_›)]
      exact h.absent id hid
  · intro id e hid
    dsimp only at hid
    rw [Function.update_apply] at hid
    rw [get?_addClock, get?_addClock, ← h.clockVersions]
    split at hid
    · rename_i he
      cases hid
      rw [if_pos he.symm, if_pos he.symm]
      exact ⟨t, ht, rfl, rfl⟩
    · rw [if_neg (Ne.symm ‹_›), if_neg (Ne.symm ‹_›)]
      exact h.present id e hid
  · intro id k hid
    obtain ⟨e, w, v, hk, hw⟩ := h.made id k hid
    exact ⟨e, w, v, hkept.clocks k e hk, hw⟩

theorem exists_shifted_addWatch (h : Shifted δ a b) (name : String) {k : ClockId}
    (hd : δ.clocks k = some d) (hw : w.Shifted d v) :
    ∃ η, δ.Kept η ∧ Shifted η (a.addWatch name k w) (b.addWatch name k v) := by
  have hfresh : ∀ l, δ.watches ⟨name, nextVersion a.watchVersions name⟩ ≠ some l :=
    fun l hl => lt_irrefl _ (h.gaveWatch _ l hl)
  have hkept : δ.Kept { δ with
      watches := Function.update δ.watches ⟨name, nextVersion a.watchVersions name⟩ (some k) } := by
    refine ⟨fun _ _ he => he, fun id l hl => ?_⟩
    dsimp only
    rwa [Function.update_of_ne]
    rintro rfl
    exact hfresh l hl
  refine ⟨_, hkept, { h with watchVersions := ?_, gaveWatch := ?_, unmade := ?_, made := ?_ }⟩
  · simp only [addWatch, h.watchVersions]
  · intro id l hid
    dsimp only at hid
    rw [Function.update_apply] at hid
    split at hid
    · rename_i he
      subst he
      simp [addWatch, nextVersion]
    · exact lt_nextVersion_insert (h.gaveWatch id l hid) name
  · intro id hid
    dsimp only at hid
    rw [Function.update_apply] at hid
    split at hid
    · cases hid
    · rw [get?_addWatch, get?_addWatch, ← h.watchVersions, if_neg (Ne.symm ‹_›), if_neg (Ne.symm ‹_›)]
      exact h.unmade id hid
  · intro id l hid
    dsimp only at hid
    rw [Function.update_apply] at hid
    rw [get?_addWatch, get?_addWatch, ← h.watchVersions]
    split at hid
    · rename_i he
      cases hid
      rw [if_pos he.symm, if_pos he.symm]
      exact ⟨d, w, v, hd, rfl, rfl, hw⟩
    · rw [if_neg (Ne.symm ‹_›), if_neg (Ne.symm ‹_›)]
      exact h.made id l hid

theorem shifted_set (h : Shifted δ a b) {place : WatchId} {k : ClockId}
    (hplace : δ.watches place = some k) (hd : δ.clocks k = some d) (hw : w.Shifted d v) :
    Shifted δ ((held place k).set w a) ((held place k).set v b) := by
  refine { h with unmade := fun other hother => ?_, made := fun other l hother => ?_ }
  · rw [get?_set, get?_set, if_neg, if_neg]
    · exact h.unmade other hother
    · rintro rfl
      exact Option.some_ne_none _ (hplace.symm.trans hother)
    · rintro rfl
      exact Option.some_ne_none _ (hplace.symm.trans hother)
  · rw [get?_set, get?_set]
    split
    · rename_i he
      subst he
      cases hplace.symm.trans hother
      exact ⟨d, w, v, hd, rfl, rfl, hw⟩
    · exact h.made other l hother

theorem shifted_get (h : Shifted δ a b) {place : WatchId} {k : ClockId}
    (hplace : δ.watches place = some k) :
    ∃ d, δ.clocks k = some d ∧ ((held place k).get a).Shifted d ((held place k).get b) := by
  obtain ⟨d, w, v, hd, ha, hb, hw⟩ := h.made place k hplace
  exact ⟨d, hd, by simpa [held, ha, hb] using hw⟩

theorem shifted_clockIdOf? (h : Shifted δ a b) (place : WatchId) :
    a.clockIdOf? place = δ.watches place ∧ b.clockIdOf? place = δ.watches place := by
  unfold clockIdOf?
  cases hplace : δ.watches place with
  | none =>
    obtain ⟨ha, hb⟩ := h.unmade place hplace
    rw [ha, hb]
    exact ⟨rfl, rfl⟩
  | some k =>
    obtain ⟨_, _, _, _, ha, hb, _⟩ := h.made place k hplace
    rw [ha, hb]
    exact ⟨rfl, rfl⟩

theorem shifted_held? (h : Shifted δ a b) (name : String) :
    (a.held? name = none ∧ b.held? name = none) ∨ ∃ place k, δ.watches place = some k ∧
      a.held? name = some (held place k) ∧ b.held? name = some (held place k) := by
  unfold held? watchId?
  rw [← h.watchVersions]
  cases a.watchVersions.get? name with
  | none => exact Or.inl ⟨rfl, rfl⟩
  | some version =>
    obtain ⟨ha, hb⟩ := shifted_clockIdOf? h ⟨name, version⟩
    cases hplace : δ.watches ⟨name, version⟩ with
    | none => exact Or.inl (by simp [ha, hb, hplace])
    | some k => exact Or.inr ⟨⟨name, version⟩, k, hplace, by simp [ha, hplace], by simp [hb, hplace]⟩

theorem shifted_keep {α : Type} {place : WatchId} {k : ClockId} (hplace : δ.watches place = some k)
    (hd : δ.clocks k = some d) {p q : α × Stopwatch × Bench}
    (h : Paired (fun x y => x.1.Shifted d y.1 ∧ Shifted δ x.2 y.2) p q) :
    Paired (Shifted δ) ((held place k).keep p) ((held place k).keep q) :=
  ⟨h.1, shifted_set h.2.2 hplace hd h.2.1⟩

theorem held_agrees {place : WatchId} {k : ClockId} (hplace : δ.watches place = some k) :
    (held place k).Agrees (Shifted δ) := by
  refine ⟨fun a b h => ?_, fun a b h => ?_, fun a b h => ?_⟩ <;>
    obtain ⟨d, hd, hw⟩ := shifted_get h hplace
  · exact shifted_keep hplace hd (Stopwatch.start_shifted (clock_shifts hd) hw h)
  · exact shifted_keep hplace hd (Stopwatch.stop_shifted (clock_shifts hd) hw h)
  · exact hw.state

theorem shifted_ask (h : Shifted δ a b) (name : String) (c : Stopwatch.Command) :
    Paired (Shifted δ) (a.ask name c) (b.ask name c) := by
  rcases shifted_held? h name with ⟨ha, hb⟩ | ⟨place, k, hplace, ha, hb⟩
  · unfold ask
    rw [ha, hb]
    exact ⟨rfl, h⟩
  · obtain ⟨d, hd, hw⟩ := shifted_get h hplace
    have hleft : Paired (Shifted δ) ((held place k).command c a) ((held place k).command c b) :=
      shifted_keep hplace hd (Stopwatch.command_shifted (clock_shifts hd) hw h c)
    rw [ask_eq ha, ask_eq hb, hleft.1, (held_agrees hplace).state _ _ hleft.2]
    exact ⟨rfl, hleft.2⟩

theorem exists_shifted_makeWatch (h : Shifted δ a b) (name : String) {k : ClockId}
    (hd : δ.clocks k = some d) (running : Bool) :
    (a.makeWatch name k running).1 = (b.makeWatch name k running).1 ∧
      ∃ η, δ.Kept η ∧ Shifted η (a.makeWatch name k running).2 (b.makeWatch name k running).2 := by
  unfold makeWatch
  cases running with
  | false => exact ⟨rfl, exists_shifted_addWatch h name hd (Stopwatch.shifted_new d)⟩
  | true =>
    obtain ⟨hend, hwatch, hleft⟩ := Stopwatch.start_shifted (clock_shifts hd) (Stopwatch.shifted_new d) h
    dsimp only
    rcases ha : ({} : Stopwatch).start (clock k) a with ⟨e | _, w, a'⟩ <;>
      rcases hb : ({} : Stopwatch).start (clock k) b with ⟨e' | _, v, b'⟩ <;>
      rw [ha, hb] at hend hwatch hleft <;> cases hend
    · exact ⟨rfl, δ, Shift.kept_refl δ, hleft⟩
    · refine ⟨?_, exists_shifted_addWatch hleft name hd hwatch⟩
      exact congrArg (fun state => (.ok (.state state) : Except Fault Reply)) hwatch.state

theorem shifted_clock (h : Shifted δ a b) (name : String) (c : Timepiece.Command) :
    Shifted δ (a.perform (.clock name c)).2 (b.perform (.clock name c)).2 ∧
      (Operation.clock name c).Answered (a.perform (.clock name c)).1 (b.perform (.clock name c)).1 := by
  have hids : a.clockId? (some name) = b.clockId? (some name) := by
    unfold clockId?
    rw [h.clockVersions]
  cases hid : a.clockId? (some name) with
  | none =>
    rw [hid] at hids
    unfold perform
    simp only [hid, ← hids]
    exact ⟨h, Or.inl rfl⟩
  | some id =>
    obtain ⟨d, hd⟩ := (h.gave id).mp (gave_of_clockId? hid)
    obtain ⟨t, hsound, ha, hb⟩ := h.present id d hd
    rw [perform_clock_eq hid, perform_clock_eq (hids ▸ hid)]
    by_cases hc : c = .read
    · subst hc
      refine ⟨shifted_onClock h id fun u e hu => ⟨Timepiece.sound_command hu .read, ?_⟩,
        Or.inr ⟨⟨name, rfl⟩, ?_⟩⟩
      · rw [Timepiece.command_read_shift]
      · obtain ⟨now, hnow⟩ := Timepiece.exists_reading hsound
        dsimp only
        rw [onClock_fst ha, onClock_fst hb, Timepiece.command_read_shift, hnow]
        exact ⟨now, now + d, rfl, rfl⟩
    · refine ⟨shifted_onClock h id fun u e hu => ⟨Timepiece.sound_command hu c, ?_⟩, Or.inl ?_⟩
      · rw [Timepiece.command_shift e u hc]
      · dsimp only
        rw [onClock_fst ha, onClock_fst hb, Timepiece.command_shift d t hc]

theorem shifted_perform (h : Shifted δ a b) {op : Operation} (hop : op.asked? ≠ none) :
    Paired (Shifted δ) (a.perform op) (b.perform op) := by
  unfold perform
  cases op with
  | makeClock _ _ _ | makeTape _ _ | clock _ _ | makeWatch _ _ _ => exact absurd rfl hop
  | watch name c => exact shifted_ask h name c
  | elapsedIn name unit =>
    dsimp only
    cases TimeUnit.ofName? unit with
    | none => exact ⟨rfl, h⟩
    | some u => exact shifted_ask h name _
  | clockOf name =>
    have hclock : (a.watchId? name).bind a.clockIdOf? = (b.watchId? name).bind b.clockIdOf? := by
      have hplace := shifted_clockIdOf? h
      rw [funext fun place => (hplace place).1.trans (hplace place).2.symm, watchId?, watchId?,
        h.watchVersions]
    dsimp only
    rw [← hclock]
    cases (a.watchId? name).bind a.clockIdOf? <;> exact ⟨rfl, h⟩

/-- Operations that are shifted leave shifted benches, and are answered the same but
    for readings. -/
theorem exists_shifted_perform (h : Shifted δ a b) {op op' : Operation} (hop : op.Shifted op') :
    ∃ η, δ.Kept η ∧ Shifted η (a.perform op).2 (b.perform op').2 ∧
      op.Answered (a.perform op).1 (b.perform op').1 := by
  cases hop with
  | clock name c => exact ⟨δ, Shift.kept_refl δ, shifted_clock h name c⟩
  | makeClock name start step d =>
    unfold perform ManualClock.make ManualClock.setStep
    by_cases hstep : step < 0
    · simp only [if_pos hstep]
      exact ⟨δ, Shift.kept_refl δ, h, Or.inl rfl⟩
    · simp only [if_neg hstep]
      obtain ⟨η, hkept, hleft⟩ :=
        exists_shifted_addClock h name (t := .manual { now := start, step := step.toNat }) trivial d
      exact ⟨η, hkept, hleft, Or.inl rfl⟩
  | makeTape name ht d =>
    obtain ⟨η, hkept, hleft⟩ := exists_shifted_addClock h name ht d
    exact ⟨η, hkept, hleft, Or.inl rfl⟩
  | makeWatch name clockName running =>
    have hids : a.clockId? clockName = b.clockId? clockName := by
      unfold clockId?
      rw [h.clockVersions]
    unfold perform
    dsimp only
    rw [← hids]
    cases hid : a.clockId? clockName with
    | none => exact ⟨δ, Shift.kept_refl δ, h, Or.inl rfl⟩
    | some k =>
      obtain ⟨d, hd⟩ := (h.gave k).mp (gave_of_clockId? hid)
      obtain ⟨hend, η, hkept, hleft⟩ := exists_shifted_makeWatch h name hd running
      exact ⟨η, hkept, hleft, Or.inl hend⟩
  | ask op hop =>
    obtain ⟨hend, hleft⟩ := shifted_perform h hop
    exact ⟨δ, Shift.kept_refl δ, hleft, Or.inl hend⟩

def opened (live : Timepiece) : Bench := { clocks := Registry.empty.insert .live live }

end Bench

def Shift.opened (d : ℤ) : Shift where
  clocks
    | .live => some d
    | .named _ _ => none
  watches _ := none

theorem Bench.shifted_opened {t : Timepiece} (ht : t.Sound) (d : ℤ) :
    Shifted (Shift.opened d) (opened t) (opened (t.shift d)) where
  clockVersions := rfl
  watchVersions := rfl
  gave id := by
    cases id with
    | live => exact ⟨fun _ => ⟨d, rfl⟩, fun _ => trivial⟩
    | named name version => exact ⟨fun h => absurd h (Nat.not_lt_zero version), nofun⟩
  gaveWatch := nofun
  absent id h := by
    cases id with
    | live => cases h
    | named name version => exact ⟨rfl, rfl⟩
  present id e h := by
    cases id with
    | live =>
      cases h
      exact ⟨t, ht, rfl, rfl⟩
    | named name version => cases h
  unmade _ _ := ⟨rfl, rfl⟩
  made := nofun

end Script
end Chronograph
