import Mathlib
import Chronograph.Proofs.Script.Alike
import Chronograph.Proofs.Script.Bench
import Chronograph.Script.Live

set_option autoImplicit false

/-!
# A reset renews the watch

After a reset a watch may still hold the start of an old segment, but no script
can tell it from a new watch as long as the readings of its clock do not fail.
-/
namespace Chronograph

/-- No reading from here on fails; the readings may fall. -/
def Timepiece.Sound : Timepiece → Prop
  | manual _ => True
  | tape t => ∀ k, t.taken ≤ k → ∃ now, t.reading k = .ok now

namespace Timepiece
variable {t : Timepiece}

theorem sound_read (h : t.Sound) : (∃ now, t.read.1 = .ok now) ∧ t.read.2.Sound := by
  cases t with
  | manual c => exact ⟨⟨_, rfl⟩, trivial⟩
  | tape t => exact ⟨h t.taken le_rfl, fun k hk => h k (Nat.le_of_succ_le hk)⟩

theorem sound_adjust (h : t.Sound) (change : ManualClock → Except Fault ManualClock) :
    (t.adjust change).2.Sound := by
  unfold adjust
  cases t with
  | manual c =>
    dsimp only
    cases change c <;> exact trivial
  | tape t => exact h

theorem sound_command (h : t.Sound) (c : Command) : (t.command c).2.Sound := by
  unfold command
  cases c with
  | read =>
    have hread := (sound_read h).2
    rcases hr : t.read with ⟨_ | _, t'⟩ <;> rw [hr] at hread <;> exact hread
  | advance n => exact sound_adjust h _
  | advanceBy days seconds microseconds =>
    dsimp only
    cases Duration.ofParts? days seconds microseconds with
    | some d => exact sound_adjust h _
    | none => exact h
  | step => cases t <;> exact h
  | setStep n => exact sound_adjust h _

end Timepiece

namespace Script
namespace Bench
variable {a b : Bench} {sound : ClockId → Prop}

/-- Every clock has a version that was given out, and those that must be sound are. -/
structure Tended (sound : ClockId → Prop) (b : Bench) : Prop where
  made : ∀ name version t, b.clocks.get? (.named name version) = some t →
    version < nextVersion b.clockVersions name
  sound : ∀ id, sound id → ∃ t, b.clocks.get? id = some t ∧ t.Sound

theorem tended_onClock {α : Type} (h : Tended sound a) (id : ClockId)
    {f : Timepiece → Except Fault α × Timepiece} (hf : ∀ t : Timepiece, t.Sound → (f t).2.Sound) :
    Tended sound (a.onClock id f).2 := by
  refine ⟨?_, ?_⟩
  · intro name version u hu
    rw [get?_onClock] at hu
    obtain ⟨t, ht, _⟩ := Option.map_eq_some_iff.mp hu
    rw [onClock_clockVersions]
    exact h.made name version t ht
  · intro other hother
    obtain ⟨t, ht, hsound⟩ := h.sound other hother
    refine ⟨_, by rw [get?_onClock, ht]; rfl, ?_⟩
    dsimp only
    split
    · exact hf t hsound
    · exact hsound

theorem tended_readFrom (h : Tended sound a) (hread : ReadFrom a b) : Tended sound b := by
  obtain ⟨hversions, hclocks | ⟨id, hclocks⟩⟩ := hread
  · exact ⟨by rw [hversions, hclocks]; exact h.made, by rw [hclocks]; exact h.sound⟩
  · have hleft := tended_onClock h id fun t ht => (Timepiece.sound_read ht).2
    have hkept := onClock_clockVersions a id Timepiece.read
    exact ⟨by rw [hversions, hclocks, ← hkept]; exact hleft.made, by rw [hclocks]; exact hleft.sound⟩

theorem tended_addClock (h : Tended sound a) (name : String) (t : Timepiece) :
    Tended sound (a.addClock name t) := by
  refine ⟨?_, ?_⟩
  · intro other version u hu
    rw [get?_addClock] at hu
    split at hu
    · rename_i he
      cases he
      simp [addClock, nextVersion]
    · exact lt_nextVersion_insert (h.made other version u hu) name
  · intro id hid
    obtain ⟨u, hu, hsound⟩ := h.sound id hid
    have he : ClockId.named name (nextVersion a.clockVersions name) ≠ id := by
      rintro rfl
      exact lt_irrefl _ (h.made name _ u hu)
    exact ⟨u, by rw [get?_addClock, if_neg he, hu], hsound⟩

theorem tended_perform (h : Tended sound a) (op : Operation) : Tended sound (a.perform op).2 := by
  by_cases hop : op.watch? = none
  · cases op with
    | makeClock name start step =>
      unfold perform
      dsimp only
      cases ManualClock.make start step with
      | ok c => exact tended_addClock h name _
      | error e => exact h
    | makeTape name t => exact tended_addClock h name _
    | clock name c =>
      rcases perform_clock a name c with he | ⟨id, he⟩ <;> rw [he]
      · exact h
      · exact tended_onClock h id fun t ht => Timepiece.sound_command ht c
    | makeWatch _ _ _ | watch _ _ | elapsedIn _ _ | clockOf _ => cases hop
  · exact tended_readFrom h (readFrom_perform a hop)

def Indistinct (stale : WatchId → Option ClockId) (sound : ClockId → Prop) (a b : Bench) : Prop :=
  Alike (fun _ => True) stale a b ∧ Tended sound a

theorem readable_of_tended {stale : WatchId → Option ClockId} (h : Tended sound a)
    (hsound : ∀ id clockId, stale id = some clockId → sound clockId) : Readable stale a := by
  intro id clockId hid
  obtain ⟨t, ht, hsound⟩ := h.sound clockId (hsound id clockId hid)
  obtain ⟨now, hnow⟩ := (Timepiece.sound_read hsound).1
  exact ⟨now, by simp [clock, onClock, ht, hnow]⟩

theorem congruent_indistinct (stale : WatchId → Option ClockId) (sound : ClockId → Prop)
    (hsound : ∀ id clockId, stale id = some clockId → sound clockId) :
    Bench.Congruent (Indistinct stale sound) where
  perform op a b h := by
    obtain ⟨hend, hleft⟩ := alike_perform h.1 (readable_of_tended h.2 hsound) fun _ _ => trivial
    exact ⟨hend, hleft, tended_perform h.2 op⟩
  clockId? name a b h := by
    unfold clockId?
    rw [h.1.clockVersions]
  held? name a b h := alike_held? h.1 trivial
  agrees name a b x h hheld := by
    obtain ⟨id, clockId, rfl, hfits⟩ := exists_fits h.1 trivial hheld
    refine ⟨?_, ?_, fun a b h => (alike_get h.1 trivial clockId).state⟩
    · rintro a b ⟨h, ha⟩
      obtain ⟨hend, hleft⟩ := alike_start h (readable_of_tended ha hsound) hfits
      exact ⟨hend, hleft, tended_readFrom ha (readFrom_start a clockId ((held id clockId).get a))⟩
    · rintro a b ⟨h, ha⟩
      obtain ⟨hend, hleft⟩ := alike_stop h hfits
      exact ⟨hend, hleft, tended_readFrom ha (readFrom_stop a clockId ((held id clockId).get a))⟩
  clock id a b h := by
    obtain ⟨hend, hleft⟩ := alike_onClock h.1 id Timepiece.read
    exact ⟨hend, hleft, tended_onClock h.2 id fun t ht => (Timepiece.sound_read ht).2⟩

end Bench

/-- The world with a new watch in the place of the one that is there. -/
def withNew (id : WatchId) (clockId : ClockId) (w : World (Stage Notes)) : World (Stage Notes) :=
  { w with setting := { w.setting with bench := (Bench.held id clockId).set {} w.setting.bench } }

theorem tended_played (live : Timepiece) (steps : List Step) :
    Bench.Tended (fun _ => False) (played live steps).setting.bench := by
  have hcongruent := Bench.congruent_indistinct (fun _ => none) (fun _ => False) nofun
  have htended : Bench.Tended (fun _ => False) (opening live).setting.bench := by
    refine ⟨?_, fun _ => False.elim⟩
    intro name version t ht
    simp [opening, Registry.get?_insert_of_ne] at ht
  have halike : World.Alike (Stage.Like (Bench.Indistinct (fun _ => none) fun _ => False)) Eq
      (opening live) (opening live) :=
    ⟨⟨⟨Bench.alike_refl _ _ nofun nofun, htended⟩, rfl⟩, rfl, rfl⟩
  obtain ⟨_, hleft⟩ := agree_perform hcongruent Journal.congruent_eq steps _ _ halike
  exact hleft.setting.bench.2

def staleAt (id : WatchId) (clockId : ClockId) (other : WatchId) : Option ClockId :=
  if other = id then some clockId else none

theorem perform_reset {b : Bench} {name : String} {id : WatchId} {clockId : ClockId} {w : Stopwatch}
    (hid : b.watchId? name = some id) (hw : b.watches.get? id = some (clockId, w)) :
    b.perform (.watch name .reset) = (.ok (.state .stopped), (Bench.held id clockId).set w.reset b) := by
  have hheld : b.held? name = some (Bench.held id clockId) := by
    simp [Bench.held?, Bench.clockIdOf?, hid, hw]
  have hget : (Bench.held id clockId).get b = w := by simp [Bench.held, hw]
  have hcommand : (Bench.held id clockId).command .reset b =
      (.ok .done, (Bench.held id clockId).set w.reset b) := by
    unfold Held.command Held.keep
    rw [hget]
    rfl
  change b.ask name .reset = _
  rw [Bench.ask_eq hheld, hcommand, (Bench.held_lawful id clockId).get_set]
  rfl

theorem indistinct_reset {b : Bench} (hb : b.Tended fun _ => False) {name : String} {id : WatchId}
    {clockId : ClockId} {w : Stopwatch} {t : Timepiece} (hid : b.watchId? name = some id)
    (hw : b.watches.get? id = some (clockId, w)) (ht : b.clocks.get? clockId = some t)
    (hsound : t.Sound) : Bench.Indistinct (staleAt id clockId) (· = clockId)
      ((Bench.held id clockId).set w.reset b) ((Bench.held id clockId).set {} b) := by
  have hmade : id.version < Bench.nextVersion b.watchVersions id.name := by
    unfold Bench.watchId? at hid
    obtain ⟨version, hversion, rfl⟩ := Option.map_eq_some_iff.mp hid
    simp [Bench.nextVersion, hversion]
  have halike : Bench.Alike (fun _ => True) (staleAt id clockId) b b := by
    refine Bench.alike_refl _ _ ?_ ?_
    · intro other k hk
      obtain rfl : other = id := by by_contra hne; simp [staleAt, hne] at hk
      exact hmade
    · intro other k p hk hp
      obtain rfl : other = id := by by_contra hne; simp [staleAt, hne] at hk
      obtain rfl : (clockId, w) = p := Option.some.inj (hw ▸ hp)
      simpa [staleAt] using hk
  refine ⟨Bench.alike_set halike ?_ (Stopwatch.like_reset ?_ w), hb.made, ?_⟩
  · intro k hk
    simpa [staleAt] using hk
  · simp [staleAt]
  · rintro _ rfl
    exact ⟨t, ht, hsound⟩

/-- Every script answers the same in both worlds, failures and bodies included, and
    leaves the same clocks and the same journal. -/
def Indistinguishable (w v : World (Stage Notes)) : Prop := ∀ later : List Step,
  (gather (perform later) w).1 = (gather (perform later) v).1 ∧
    (gather (perform later) w).2.setting.bench.clocks =
      (gather (perform later) v).2.setting.bench.clocks ∧
    (gather (perform later) w).2.journal = (gather (perform later) v).2.journal

/-- After any history a watch that is reset is as good as a new one on its clock. -/
theorem indistinguishable_reset (live : Timepiece) (history : List Step) {name : String} {id : WatchId}
    {clockId : ClockId} {w : Stopwatch} {t : Timepiece}
    (hid : (played live history).setting.bench.watchId? name = some id)
    (hw : (played live history).setting.bench.watches.get? id = some (clockId, w))
    (ht : (played live history).setting.bench.clocks.get? clockId = some t) (hsound : t.Sound) :
    Indistinguishable (perform [.operate (.watch name .reset)] (played live history)).2
      (withNew id clockId (played live history)) := by
  intro later
  have hcongruent := Bench.congruent_indistinct (staleAt id clockId) (· = clockId) fun other k hk => by
    unfold staleAt at hk
    split at hk <;> simp_all
  have hopened : World.Alike (Stage.Like (Bench.Indistinct (staleAt id clockId) (· = clockId))) Eq
      (unanswered (perform [.operate (.watch name .reset)] (played live history)).2)
      (unanswered (withNew id clockId (played live history))) := by
    obtain ⟨answer, _, hreset⟩ := runStep_operate (callWithin callDepth) (frameOf [] [])
      (.watch name .reset) (played live history)
    rw [perform_cons, hreset, perform_reset hid hw]
    exact ⟨⟨indistinct_reset (tended_played live history) hid hw ht hsound, rfl⟩, rfl, rfl⟩
  obtain ⟨hend, hleft⟩ :=
    gather_alike (agree_perform hcongruent Journal.congruent_eq later) hopened
  exact ⟨hend, hleft.setting.bench.1.clocks, hleft.journal⟩

def fallingTape : Tape where
  reading k := .ok (100 - 10 * k)

def stoppedWatch : List Step :=
  [.operate (.makeTape "tape" fallingTape), .operate (.makeWatch "watch" (some "tape") true),
    .operate (.watch "watch" .stop)]

def failingBody : List Step :=
  [.during "watch" [.operate (.watch "watch" (.query .nanos)), .raise "ValueError" "no"],
    .operate (.watch "watch" (.query .nanos))]

def valueError : Raised := .failure ⟨0, .foreign "ValueError" "no"⟩

theorem indistinguishable_reset_fallingTape :
    (played live stoppedWatch).setting.bench.watches.get? ⟨"watch", 0⟩ =
        some (.named "tape" 0, ⟨.stopped, -10, 100⟩) ∧
      Indistinguishable (perform [.operate (.watch "watch" .reset)] (played live stoppedWatch)).2
        (withNew ⟨"watch", 0⟩ (.named "tape" 0) (played live stoppedWatch)) ∧
      (gather (perform failingBody)
          (perform [.operate (.watch "watch" .reset)] (played live stoppedWatch)).2).1 =
        .ok ([.nested [.plain (.replied (.count (-10))), .plain (.failed valueError false)]
          (.failed valueError false), .plain (.replied (.count (-20)))], .ok ()) := by
  have hw : (played live stoppedWatch).setting.bench.watches.get? ⟨"watch", 0⟩ =
      some (.named "tape" 0, ⟨.stopped, -10, 100⟩) := by decide
  have hid : (played live stoppedWatch).setting.bench.watchId? "watch" = some ⟨"watch", 0⟩ := by decide
  have ht : (played live stoppedWatch).setting.bench.clocks.get? (.named "tape" 0) =
      some (.tape { fallingTape with taken := 2 }) := rfl
  have hsound : (Timepiece.tape { fallingTape with taken := 2 }).Sound := fun k _ => ⟨_, rfl⟩
  exact ⟨hw, indistinguishable_reset live stoppedWatch hid hw ht hsound, by cbv⟩

end Script
end Chronograph
