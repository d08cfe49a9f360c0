import Mathlib
import Chronograph.Proofs.Stopwatch.Alike
import Chronograph.Proofs.Stopwatch.History
import Chronograph.Proofs.Task
import Chronograph.Script.Run

set_option autoImplicit false

/-!
# What an operation does to a bench

What is asked of a watch reads at most the clock that the watch was made for, and
does no more than that to any clock. Two benches are alike when they have the same
clocks, and the same watches under the names that are compared; in some places the
watches may differ in the start of a segment that is not open. An operation on
such a name, or on a clock, gives the same on both and leaves them alike. Run as a
script, operations answer what they do one after the other.
-/
namespace Chronograph.Script

def Operation.watch? : Operation → Option String
  | .makeWatch name _ _ | .watch name _ | .elapsedIn name _ | .clockOf name => some name
  | .makeClock _ _ _ | .makeTape _ _ | .clock _ _ => none

/-- The name of the watch that is asked; one that is made is not asked. -/
def Operation.asked? : Operation → Option String
  | .watch name _ | .elapsedIn name _ | .clockOf name => some name
  | .makeClock _ _ _ | .makeTape _ _ | .clock _ _ | .makeWatch _ _ _ => none

/-- A report, where a command that reports nothing is answered by the watch's state. -/
def Reply.told (state : State) : Stopwatch.Report → Reply
  | .done => .state state
  | report => .ofReport report

def Reply.ofCount? : Option ℤ → Reply
  | some n => .count n
  | none => .done

namespace Bench
variable {α : Type} {a b : Bench}

theorem lt_nextVersion_insert {versions : Registry String ℕ} {other : String} {version : ℕ}
    (h : version < nextVersion versions other) (name : String) :
    version < nextVersion (versions.insert name (nextVersion versions name)) other := by
  rw [nextVersion, Registry.get?_insert]
  by_cases he : name = other
  · subst he
    rw [if_pos rfl]
    exact Nat.lt_succ_of_lt h
  · rw [if_neg he]
    exact h

/-- The clock was put on the bench: the live one always was. -/
def Gave (b : Bench) : ClockId → Prop
  | .live => True
  | .named name version => version < nextVersion b.clockVersions name

theorem gave_of_versions {id : ClockId} (h : b.clockVersions = a.clockVersions) (ha : a.Gave id) :
    b.Gave id := by
  unfold Gave at ha ⊢
  rwa [h]

theorem gave_of_clockId? {name : Option String} {id : ClockId} (h : a.clockId? name = some id) :
    a.Gave id := by
  cases name with
  | none =>
    cases h
    trivial
  | some name =>
    obtain ⟨version, hversion, rfl⟩ := Option.map_eq_some_iff.mp h
    simp [Gave, nextVersion, hversion]

theorem not_gave_next (a : Bench) (name : String) :
    ¬a.Gave (.named name (nextVersion a.clockVersions name)) := lt_irrefl _

theorem gave_addClock_iff (a : Bench) (name : String) (t : Timepiece) (id : ClockId) :
    (a.addClock name t).Gave id ↔ id = .named name (nextVersion a.clockVersions name) ∨ a.Gave id := by
  cases id with
  | live => simp [Gave]
  | named other version =>
    by_cases he : name = other
    · subst he
      simp only [Gave, addClock, ClockId.named.injEq, true_and]
      rw [nextVersion, Registry.get?_insert_self]
      exact Nat.lt_succ_iff.trans le_iff_eq_or_lt
    · simp [Gave, addClock, nextVersion, Registry.get?_insert, he, Ne.symm he]

theorem ask_eq {name : String} {h : Held Bench} (hheld : a.held? name = some h) (c : Stopwatch.Command) :
    a.ask name c = ((h.command c a).1.map (Reply.told (h.get (h.command c a).2).state),
      (h.command c a).2) := by
  unfold ask
  rw [hheld]
  dsimp only
  rcases h.command c a with ⟨_ | report, b⟩
  · rfl
  · cases report <;> rfl

theorem get?_onClock (a : Bench) (id other : ClockId) (f : Timepiece → Except Fault α × Timepiece) :
    (a.onClock id f).2.clocks.get? other =
      (a.clocks.get? other).map fun t => if id = other then (f t).2 else t := by
  unfold onClock
  cases ht : a.clocks.get? id with
  | none =>
    by_cases he : id = other
    · simp [← he, ht]
    · simp [he]
  | some t =>
    by_cases he : id = other
    · simp [← he, ht]
    · simp [Registry.get?_insert, he]

theorem onClock_fst {id : ClockId} {t : Timepiece} (h : a.clocks.get? id = some t)
    (f : Timepiece → Except Fault α × Timepiece) : (a.onClock id f).1 = (f t).1 := by
  simp [onClock, h]

theorem read_eq_of_get? {id : ClockId} {t : Timepiece} (h : a.clocks.get? id = some t) :
    ((clock id).read a).1 = t.read.1 := onClock_fst h _

theorem onClock_of_unturned (id : ClockId) {f : Timepiece → Except Fault α × Timepiece}
    (h : ∀ t, a.clocks.get? id = some t → (f t).2 = t) : (a.onClock id f).2 = a := by
  unfold onClock
  cases ht : a.clocks.get? id with
  | none => rfl
  | some t =>
    dsimp only
    rw [h t ht, Registry.insert_of_get? ht]

theorem perform_clock (a : Bench) (name : String) (c : Timepiece.Command) :
    (a.perform (.clock name c)).2 = a ∨
      ∃ id, (a.perform (.clock name c)).2 = (a.onClock id (·.command c)).2 := by
  unfold perform
  dsimp only
  cases a.clockId? (some name) with
  | none => exact Or.inl rfl
  | some id =>
    refine Or.inr ⟨id, ?_⟩
    dsimp only
    rcases a.onClock id (·.command c) with ⟨_ | _ | _, b⟩ <;> rfl

theorem perform_clock_eq {name : String} {id : ClockId} (hid : a.clockId? (some name) = some id)
    (c : Timepiece.Command) : a.perform (.clock name c) =
      ((a.onClock id (·.command c)).1.map Reply.ofCount?, (a.onClock id (·.command c)).2) := by
  unfold perform
  simp only [hid]
  rcases a.onClock id (·.command c) with ⟨_ | _ | _, b⟩ <;> rfl

theorem get?_addClock (a : Bench) (name : String) (t : Timepiece) (id : ClockId) :
    (a.addClock name t).clocks.get? id =
      if .named name (nextVersion a.clockVersions name) = id then some t else a.clocks.get? id :=
  Registry.get?_insert _ _ _ _

theorem get?_addWatch (a : Bench) (name : String) (clockId : ClockId) (w : Stopwatch) (id : WatchId) :
    (a.addWatch name clockId w).watches.get? id =
      if ⟨name, nextVersion a.watchVersions name⟩ = id then some (clockId, w) else a.watches.get? id :=
  Registry.get?_insert _ _ _ _

theorem get?_set (a : Bench) (id : WatchId) (clockId : ClockId) (w : Stopwatch) (other : WatchId) :
    ((held id clockId).set w a).watches.get? other =
      if id = other then some (clockId, w) else a.watches.get? other :=
  Registry.get?_insert _ _ _ _

/-- The clocks of `a`, of which one may have been read. -/
def ReadFrom (a b : Bench) : Prop := b.clockVersions = a.clockVersions ∧
  (b.clocks = a.clocks ∨ ∃ id, b.clocks = ((clock id).read a).2.clocks)

theorem onClock_clockVersions (b : Bench) (id : ClockId)
    (f : Timepiece → Except Fault α × Timepiece) : (b.onClock id f).2.clockVersions = b.clockVersions := by
  unfold onClock
  cases b.clocks.get? id <;> rfl

theorem onClock_watchVersions (b : Bench) (id : ClockId)
    (f : Timepiece → Except Fault α × Timepiece) : (b.onClock id f).2.watchVersions = b.watchVersions := by
  unfold onClock
  cases b.clocks.get? id <;> rfl

theorem readFrom_of_eq {id : ClockId} (h : b = a ∨ b = ((clock id).read a).2) : ReadFrom a b := by
  rcases h with rfl | rfl
  · exact ⟨rfl, Or.inl rfl⟩
  · exact ⟨onClock_clockVersions a id _, Or.inr ⟨id, rfl⟩⟩

theorem readFrom_start (a : Bench) (clockId : ClockId) (w : Stopwatch) :
    ReadFrom a (w.start (clock clockId) a).2.2 :=
  readFrom_of_eq (Stopwatch.start_surroundings (clock clockId) w a)

theorem readFrom_stop (a : Bench) (clockId : ClockId) (w : Stopwatch) :
    ReadFrom a (w.stop (clock clockId) a).2.2 :=
  readFrom_of_eq (Stopwatch.stop_surroundings (clock clockId) w a)

theorem exists_held {name : String} {h : Held Bench} (hheld : a.held? name = some h) :
    ∃ id clockId w, h = held id clockId ∧ id.name = name ∧ a.watches.get? id = some (clockId, w) := by
  unfold held? watchId? clockIdOf? at hheld
  simp only [Option.bind_eq_some_iff, Option.map_eq_some_iff] at hheld
  obtain ⟨_, ⟨version, _, rfl⟩, _, ⟨p, hp, rfl⟩, rfl⟩ := hheld
  exact ⟨_, p.1, p.2, rfl, rfl, hp⟩

theorem readFrom_ask (a : Bench) (name : String) (c : Stopwatch.Command) :
    ReadFrom a (a.ask name c).2 := by
  cases hheld : a.held? name with
  | none =>
    unfold ask
    rw [hheld]
    exact ⟨rfl, Or.inl rfl⟩
  | some h =>
    obtain ⟨id, clockId, _, rfl, _, _⟩ := exists_held hheld
    have hread := readFrom_of_eq
      (Stopwatch.command_surroundings (clock clockId) ((held id clockId).get a) a c)
    rw [ask_eq hheld]
    exact hread

theorem readFrom_makeWatch (a : Bench) (name : String) (clockId : ClockId) (running : Bool) :
    ReadFrom a (a.makeWatch name clockId running).2 := by
  unfold makeWatch
  cases running with
  | false => exact ⟨rfl, Or.inl rfl⟩
  | true =>
    have hread := readFrom_start a clockId {}
    dsimp only
    rcases hs : ({} : Stopwatch).start (clock clockId) a with ⟨_ | _, w, b⟩ <;> rw [hs] at hread <;>
      exact hread

theorem readFrom_perform (a : Bench) {op : Operation} (hop : op.watch? ≠ none) :
    ReadFrom a (a.perform op).2 := by
  unfold perform
  cases op with
  | makeClock name start step => exact absurd rfl hop
  | makeTape name t => exact absurd rfl hop
  | clock name c => exact absurd rfl hop
  | makeWatch name clockName running =>
    dsimp only
    cases a.clockId? clockName with
    | none => exact ⟨rfl, Or.inl rfl⟩
    | some id => exact readFrom_makeWatch a name id running
  | watch name c => exact readFrom_ask a name c
  | elapsedIn name unit =>
    dsimp only
    cases TimeUnit.ofName? unit with
    | none => exact ⟨rfl, Or.inl rfl⟩
    | some u => exact readFrom_ask a name _
  | clockOf name =>
    dsimp only
    cases (a.watchId? name).bind a.clockIdOf? <;> exact ⟨rfl, Or.inl rfl⟩

/-- The same clocks and, under the names that are compared, the same watches. A
    place may be stale together with the clock that its watch was made for. -/
structure Alike (names : String → Prop) (stale : WatchId → Option ClockId) (a b : Bench) : Prop where
  clocks : a.clocks = b.clocks
  clockVersions : a.clockVersions = b.clockVersions
  watchVersions : ∀ name, names name → a.watchVersions.get? name = b.watchVersions.get? name
  watches : ∀ id, names id.name →
    Option.Rel (fun p q => p.1 = q.1 ∧ p.2.Like (stale id ≠ none) q.2)
      (a.watches.get? id) (b.watches.get? id)
  made : ∀ id clockId, stale id = some clockId → id.version < nextVersion a.watchVersions id.name
  clock : ∀ id clockId p, stale id = some clockId → a.watches.get? id = some p → p.1 = clockId

def Readable (stale : WatchId → Option ClockId) (a : Bench) : Prop :=
  ∀ id clockId, stale id = some clockId → ∃ now, ((clock clockId).read a).1 = .ok now

section
variable {names : String → Prop} {stale : WatchId → Option ClockId}

theorem alike_refl (names : String → Prop) (a : Bench)
    (hmade : ∀ id clockId, stale id = some clockId → id.version < nextVersion a.watchVersions id.name)
    (hclock : ∀ id clockId p, stale id = some clockId → a.watches.get? id = some p → p.1 = clockId) :
    Alike names stale a a := by
  refine ⟨rfl, rfl, fun _ _ => rfl, fun id _ => ?_, hmade, hclock⟩
  cases a.watches.get? id with
  | none => exact .none
  | some p => exact .some ⟨rfl, Stopwatch.like_refl _ _⟩

theorem alike_onClock (h : Alike names stale a b) (id : ClockId)
    (f : Timepiece → Except Fault α × Timepiece) :
    Paired (Alike names stale) (a.onClock id f) (b.onClock id f) := by
  unfold onClock
  rw [← h.clocks]
  cases a.clocks.get? id with
  | none => exact ⟨rfl, h⟩
  | some t => exact ⟨rfl, { h with clocks := rfl }⟩

theorem clock_agrees (id : ClockId) : (clock id).Agrees (Alike names stale) :=
  fun _ _ h => alike_onClock h id _

theorem alike_addClock (h : Alike names stale a b) (name : String) (t : Timepiece) :
    Alike names stale (a.addClock name t) (b.addClock name t) := by
  unfold addClock
  rw [← h.clockVersions, ← h.clocks]
  exact { h with clocks := rfl, clockVersions := rfl }

theorem alike_addWatch (h : Alike names stale a b) (name : String) (clockId : ClockId) (w : Stopwatch) :
    Alike names stale (a.addWatch name clockId w) (b.addWatch name clockId w) := by
  -- Under a name that is not compared the two benches may give out different versions.
  have hversion : names name → nextVersion a.watchVersions name = nextVersion b.watchVersions name := by
    intro hname
    unfold nextVersion
    rw [h.watchVersions name hname]
  refine { h with watchVersions := ?_, watches := ?_, made := ?_, clock := ?_ }
  · intro other hother
    simp only [addWatch, Registry.get?_insert]
    split
    · rename_i he
      subst he
      rw [hversion hother]
    · exact h.watchVersions other hother
  · intro id hid
    rw [get?_addWatch, get?_addWatch]
    by_cases he : name = id.name
    · rw [← hversion (he ▸ hid)]
      split
      · exact .some ⟨rfl, Stopwatch.like_refl _ w⟩
      · exact h.watches id hid
    · have hne : ∀ version, (⟨name, version⟩ : WatchId) ≠ id := by
        rintro version rfl
        exact he rfl
      rw [if_neg (hne _), if_neg (hne _)]
      exact h.watches id hid
  · exact fun id k hk => lt_nextVersion_insert (h.made id k hk) name
  · intro id k p hk hp
    rw [get?_addWatch] at hp
    split at hp
    · rename_i he
      subst he
      exact absurd (h.made _ k hk) (lt_irrefl _)
    · exact h.clock id k p hk hp

theorem alike_watch (h : Alike names stale a b) (id : WatchId) (hname : names id.name) :
    (a.watches.get? id = none ∧ b.watches.get? id = none) ∨
      ∃ clockId w v, a.watches.get? id = some (clockId, w) ∧ b.watches.get? id = some (clockId, v) ∧
        w.Like (stale id ≠ none) v := by
  have hwatch := h.watches id hname
  rcases ha : a.watches.get? id with _ | ⟨clockId, w⟩ <;>
    rcases hb : b.watches.get? id with _ | ⟨other, v⟩ <;> rw [ha, hb] at hwatch <;> cases hwatch
  · exact Or.inl ⟨rfl, rfl⟩
  · rename_i hlike
    obtain ⟨rfl, hlike⟩ := hlike
    exact Or.inr ⟨clockId, w, v, rfl, rfl, hlike⟩

theorem alike_get (h : Alike names stale a b) {id : WatchId} (hname : names id.name) (clockId : ClockId) :
    ((held id clockId).get a).Like (stale id ≠ none) ((held id clockId).get b) := by
  unfold held
  dsimp only
  rcases alike_watch h id hname with ⟨ha, hb⟩ | ⟨_, w, v, ha, hb, hlike⟩ <;> rw [ha, hb]
  · exact Stopwatch.like_refl _ _
  · exact hlike

theorem alike_set (h : Alike names stale a b) {id : WatchId} {clockId : ClockId}
    (hstale : ∀ k, stale id = some k → clockId = k) {w v : Stopwatch}
    (hw : w.Like (stale id ≠ none) v) :
    Alike names stale ((held id clockId).set w a) ((held id clockId).set v b) := by
  refine { h with watches := ?_, clock := ?_ }
  · intro other hname
    rw [get?_set, get?_set]
    split
    · rename_i he
      subst he
      exact .some ⟨rfl, hw⟩
    · exact h.watches other hname
  · intro other k p hk hp
    rw [get?_set] at hp
    split at hp
    · rename_i he
      subst he
      cases hp
      exact hstale k hk
    · exact h.clock other k p hk hp

theorem alike_keep {id : WatchId} {clockId : ClockId} (hstale : ∀ k, stale id = some k → clockId = k)
    {p q : α × Stopwatch × Bench}
    (h : Paired (fun x y => x.1.Like (stale id ≠ none) y.1 ∧ Alike names stale x.2 y.2) p q) :
    Paired (Alike names stale) ((held id clockId).keep p) ((held id clockId).keep q) :=
  ⟨h.1, alike_set h.2.2 hstale h.2.1⟩

structure Fits (names : String → Prop) (stale : WatchId → Option ClockId) (id : WatchId)
    (clockId : ClockId) : Prop where
  name : names id.name
  clock : ∀ k, stale id = some k → clockId = k

theorem alike_watchId? (h : Alike names stale a b) {name : String} (hname : names name) :
    a.watchId? name = b.watchId? name := by
  unfold watchId?
  rw [h.watchVersions name hname]

theorem alike_clockIdOf? (h : Alike names stale a b) (id : WatchId) (hname : names id.name) :
    a.clockIdOf? id = b.clockIdOf? id := by
  unfold clockIdOf?
  rcases alike_watch h id hname with ⟨ha, hb⟩ | ⟨_, w, v, ha, hb, _⟩ <;> rw [ha, hb]
  rfl

theorem alike_held? (h : Alike names stale a b) {name : String} (hname : names name) :
    a.held? name = b.held? name := by
  unfold held?
  rw [← alike_watchId? h hname]
  unfold watchId?
  cases a.watchVersions.get? name with
  | none => rfl
  | some version => simp [alike_clockIdOf? h ⟨name, version⟩ hname]

theorem exists_fits (h : Alike names stale a b) {name : String} (hname : names name) {x : Held Bench}
    (hheld : a.held? name = some x) : ∃ id clockId, x = held id clockId ∧ Fits names stale id clockId := by
  obtain ⟨id, clockId, w, rfl, rfl, hw⟩ := exists_held hheld
  exact ⟨id, clockId, rfl, hname, fun k hk => h.clock id k _ hk hw⟩

theorem readable_of_fits (hread : Readable stale a) {id : WatchId} {clockId : ClockId}
    (hfits : Fits names stale id clockId) (hstale : stale id ≠ none) :
    ∃ now, ((clock clockId).read a).1 = .ok now := by
  obtain ⟨k, hk⟩ := Option.ne_none_iff_exists'.mp hstale
  obtain rfl := hfits.clock k hk
  exact hread id clockId hk

theorem alike_start (h : Alike names stale a b) (hread : Readable stale a) {id : WatchId}
    {clockId : ClockId} (hfits : Fits names stale id clockId) :
    Paired (Alike names stale) ((held id clockId).start a) ((held id clockId).start b) :=
  alike_keep hfits.clock (Stopwatch.start_like (clock_agrees clockId) (alike_get h hfits.name clockId) h
    (readable_of_fits hread hfits))

theorem alike_stop (h : Alike names stale a b) {id : WatchId} {clockId : ClockId}
    (hfits : Fits names stale id clockId) :
    Paired (Alike names stale) ((held id clockId).stop a) ((held id clockId).stop b) :=
  alike_keep hfits.clock (Stopwatch.stop_like (clock_agrees clockId) (alike_get h hfits.name clockId) h)

theorem alike_command (h : Alike names stale a b) (hread : Readable stale a) {id : WatchId}
    {clockId : ClockId} (hfits : Fits names stale id clockId) (c : Stopwatch.Command) :
    Paired (Alike names stale) ((held id clockId).command c a) ((held id clockId).command c b) :=
  alike_keep hfits.clock (Stopwatch.command_like (clock_agrees clockId) (alike_get h hfits.name clockId) h
    (readable_of_fits hread hfits) c)

theorem alike_ask (h : Alike names stale a b) (hread : Readable stale a) {name : String}
    (hname : names name) (c : Stopwatch.Command) :
    Paired (Alike names stale) (a.ask name c) (b.ask name c) := by
  have hheld := alike_held? h hname
  cases ha : a.held? name with
  | none =>
    rw [ha] at hheld
    unfold ask
    rw [ha, ← hheld]
    exact ⟨rfl, h⟩
  | some x =>
    obtain ⟨id, clockId, rfl, hfits⟩ := exists_fits h hname ha
    obtain ⟨hend, hleft⟩ := alike_command h hread hfits c
    rw [ask_eq ha, ask_eq (hheld ▸ ha), hend, (alike_get hleft hfits.name clockId).state]
    exact ⟨rfl, hleft⟩

theorem alike_makeWatch (h : Alike names stale a b) (name : String) (clockId : ClockId)
    (running : Bool) :
    Paired (Alike names stale) (a.makeWatch name clockId running) (b.makeWatch name clockId running) := by
  unfold makeWatch
  cases running with
  | false => exact ⟨rfl, alike_addWatch h name clockId {}⟩
  | true =>
    obtain ⟨hend, hwatch, hleft⟩ := Stopwatch.start_like (clock_agrees clockId)
      (Stopwatch.like_refl False {}) h False.elim
    dsimp only
    rcases ha : ({} : Stopwatch).start (clock clockId) a with ⟨e | _, w, a'⟩ <;>
      rcases hb : ({} : Stopwatch).start (clock clockId) b with ⟨e' | _, w', b'⟩ <;>
      rw [ha, hb] at hend hwatch hleft <;> cases hend
    · exact ⟨rfl, hleft⟩
    · obtain rfl := Stopwatch.eq_of_like hwatch (Or.inr not_false)
      exact ⟨rfl, alike_addWatch hleft name clockId w⟩

theorem alike_perform (h : Alike names stale a b) (hread : Readable stale a) {op : Operation}
    (hop : ∀ name, op.asked? = some name → names name) :
    Paired (Alike names stale) (a.perform op) (b.perform op) := by
  have hid : ∀ name, a.clockId? name = b.clockId? name := by
    intro name
    unfold clockId?
    rw [h.clockVersions]
  unfold perform
  cases op with
  | makeClock name start step =>
    dsimp only
    cases ManualClock.make start step with
    | ok c => exact ⟨rfl, alike_addClock h name _⟩
    | error e => exact ⟨rfl, h⟩
  | makeTape name t => exact ⟨rfl, alike_addClock h name _⟩
  | clock name c =>
    dsimp only
    rw [← hid]
    cases a.clockId? (some name) with
    | none => exact ⟨rfl, h⟩
    | some id =>
      obtain ⟨hend, hleft⟩ := alike_onClock h id (·.command c)
      dsimp only
      rcases ha : a.onClock id (·.command c) with ⟨e | _ | n, a'⟩ <;>
        rcases hb : b.onClock id (·.command c) with ⟨e' | _ | n', b'⟩ <;>
        rw [ha, hb] at hend hleft <;> cases hend <;> exact ⟨rfl, hleft⟩
  | makeWatch name clockName running =>
    dsimp only
    rw [← hid]
    cases a.clockId? clockName with
    | none => exact ⟨rfl, h⟩
    | some id => exact alike_makeWatch h name id running
  | watch name c => exact alike_ask h hread (hop name rfl) c
  | elapsedIn name unit =>
    dsimp only
    cases TimeUnit.ofName? unit with
    | none => exact ⟨rfl, h⟩
    | some u => exact alike_ask h hread (hop name rfl) _
  | clockOf name =>
    have hclock : (a.watchId? name).bind a.clockIdOf? = (b.watchId? name).bind b.clockIdOf? := by
      rw [← alike_watchId? h (hop name rfl)]
      unfold watchId?
      cases a.watchVersions.get? name with
      | none => rfl
      | some version => exact alike_clockIdOf? h ⟨name, version⟩ (hop name rfl)
    dsimp only
    rw [← hclock]
    cases (a.watchId? name).bind a.clockIdOf? <;> exact ⟨rfl, h⟩

end

/-- What the operations answer, each done on the bench that the one before it left. -/
def answers (b : Bench) : List Operation → List (Except Fault Reply)
  | [] => []
  | op :: rest => (b.perform op).1 :: (b.perform op).2.answers rest

end Bench

def Answer.reply? : Answer → Option (Except Fault Reply)
  | .plain (.replied reply) => some (.ok reply)
  | .plain (.failed (.failure f) _) => some (.error f.fault)
  | _ => none

theorem runStep_operate (calls : Program → Value → Task (Stage Notes) Value) (frame : Value)
    (op : Operation) (w : World (Stage Notes)) :
    ∃ answer, answer.reply? = some (w.setting.bench.perform op).1 ∧
      (runStep calls frame (.operate op) w).2 =
        { setting := ⟨(w.setting.bench.perform op).2, w.setting.memory.answer answer⟩
          journal := w.journal
          raised := w.raised + match (w.setting.bench.perform op).1 with
            | .ok _ => 0
            | .error _ => 1 } := by
  unfold runStep plain
  rcases hop : w.setting.bench.perform op with ⟨e | reply, b⟩
  · have hact : Task.act (Stage.onBench (·.perform op)) w = (.error (.failure ⟨w.raised, e⟩),
        { w with setting := { w.setting with bench := b }, raised := w.raised + 1 }) := by
      simp only [Task.act, Stage.onBench, hop]
      rfl
    rw [Task.bind_ok _ (Task.outcome_eq hact)]
    exact ⟨_, rfl, rfl⟩
  · have hact : Task.act (Stage.onBench (·.perform op)) w =
        (.ok reply, { w with setting := { w.setting with bench := b } }) := by
      simp only [Task.act, Stage.onBench, hop]
    rw [Task.bind_ok _ (Task.outcome_eq hact)]
    exact ⟨_, rfl, rfl⟩

theorem perform_cons (step : Step) (rest : List Step) (w : World (Stage Notes)) :
    perform (step :: rest) w =
      perform rest (runStep (callWithin callDepth) (frameOf [] []) step w).2 := rfl

theorem answers_perform (ops : List Operation) (w : World (Stage Notes)) :
    (perform (ops.map .operate) w).2.setting.memory.answers.map Answer.reply? =
      w.setting.memory.answers.map Answer.reply? ++ (w.setting.bench.answers ops).map some := by
  induction ops generalizing w with
  | nil => exact (List.append_nil _).symm
  | cons op rest ih =>
    obtain ⟨answer, hanswer, hleft⟩ := runStep_operate (callWithin callDepth) (frameOf [] []) op w
    rw [List.map_cons, perform_cons, ih, hleft]
    simp [hanswer, Bench.answers, Notes.answer]

def played (live : Timepiece) (steps : List Step) : World (Stage Notes) :=
  (perform steps (opening live)).2

theorem run_eq (live : Timepiece) (steps : List Step) :
    run live steps = ((played live steps).setting.memory.answers, (played live steps).journal) := rfl

/-- Run as a script, operations answer what they do one after the other. -/
theorem run_operations (live : Timepiece) (ops : List Operation) :
    (run live (ops.map .operate)).1.map Answer.reply? =
      ((opening live).setting.bench.answers ops).map some := by
  rw [run_eq]
  exact answers_perform ops (opening live)

end Chronograph.Script
