import Mathlib
import Chronograph.Proofs.Script.Bench

set_option autoImplicit false

/-!
# Watches on clocks at rest are independent

A reading of a clock that moves only by hand changes nothing at all. So on such
clocks what is asked of one watch makes no difference to any other, and a query
makes none to what comes after it.
-/
namespace Chronograph

def Timepiece.AtRest : Timepiece → Prop
  | manual c => c.step = 0
  | tape _ => False

namespace Timepiece
variable {t : Timepiece}

theorem read_of_atRest (h : t.AtRest) : t.read.2 = t := by
  cases t with
  | manual c =>
    obtain ⟨now, step⟩ := c
    cases h
    simp [read, ManualClock.read]
  | tape t => cases h

theorem command_of_atRest (h : t.AtRest) {q : Command} (hq : q = .read ∨ q = .step) :
    (t.command q).2 = t := by
  rcases hq with rfl | rfl
  · have hread := read_of_atRest h
    unfold command
    rcases hr : t.read with ⟨_ | _, u⟩ <;> rw [hr] at hread <;> exact hread
  · cases t <;> rfl

theorem atRest_adjust (h : t.AtRest) {change : ManualClock → Except Fault ManualClock}
    (hchange : ∀ c d : ManualClock, c.step = 0 → change c = .ok d → d.step = 0) :
    (t.adjust change).2.AtRest := by
  cases t with
  | manual c =>
    unfold adjust
    dsimp only
    cases hd : change c with
    | ok d => exact hchange c d h hd
    | error e => exact h
  | tape t => cases h

theorem atRest_advance (h : t.AtRest) (n : ℤ) : (t.adjust (·.advance n)).2.AtRest := by
  refine atRest_adjust h fun c d hc hd => ?_
  unfold ManualClock.advance at hd
  split at hd <;> cases hd
  exact hc

theorem setStep_nonpos {c d : ManualClock} {n : ℤ} (hn : n ≤ 0) (h : c.setStep n = .ok d) :
    d.step = 0 := by
  unfold ManualClock.setStep at h
  split at h <;> cases h
  exact Int.toNat_of_nonpos hn

theorem atRest_command (h : t.AtRest) {c : Command} (hc : ∀ n, c = .setStep n → n ≤ 0) :
    (t.command c).2.AtRest := by
  unfold command
  cases c with
  | read => exact (command_of_atRest h (Or.inl rfl)).symm ▸ h
  | advance n => exact atRest_advance h n
  | advanceBy days seconds microseconds =>
    dsimp only
    cases Duration.ofParts? days seconds microseconds with
    | some d => exact atRest_advance h _
    | none => exact h
  | step => cases t <;> exact h
  | setStep n => exact atRest_adjust h fun _ _ _ hd => setStep_nonpos (hc n rfl) hd

end Timepiece

namespace Script

def Operation.Still : Operation → Prop
  | .makeClock _ _ step => step ≤ 0
  | .makeTape _ _ => False
  | .clock _ (.setStep n) => n ≤ 0
  | _ => True

/-- What asks for something and is not meant to change anything. -/
def Operation.IsQuery : Operation → Prop
  | .watch _ (.query _) | .watch _ .state | .elapsedIn _ _ | .clockOf _ => True
  | .clock _ .read | .clock _ .step => True
  | _ => False

namespace Bench
variable {a b c : Bench}

def AtRest (b : Bench) : Prop := ∀ id t, b.clocks.get? id = some t → t.AtRest

theorem read_of_atRest (h : AtRest a) (id : ClockId) : ((clock id).read a).2 = a :=
  onClock_of_unturned id fun t ht => Timepiece.read_of_atRest (h id t ht)

theorem atRest_readFrom (h : AtRest a) (hread : ReadFrom a b) :
    b.clocks = a.clocks ∧ b.clockVersions = a.clockVersions := by
  obtain ⟨hversions, hclocks | ⟨id, hclocks⟩⟩ := hread
  · exact ⟨hclocks, hversions⟩
  · rw [read_of_atRest h id] at hclocks
    exact ⟨hclocks, hversions⟩

theorem atRest_addClock (h : AtRest a) (name : String) {t : Timepiece} (ht : t.AtRest) :
    AtRest (a.addClock name t) := by
  intro id u hu
  rw [get?_addClock] at hu
  split at hu
  · exact Option.some.inj hu ▸ ht
  · exact h id u hu

theorem atRest_onClock {α : Type} (h : AtRest a) (id : ClockId)
    {f : Timepiece → Except Fault α × Timepiece} (hf : ∀ t : Timepiece, t.AtRest → (f t).2.AtRest) :
    AtRest (a.onClock id f).2 := by
  intro other u hu
  rw [get?_onClock] at hu
  obtain ⟨t, ht, rfl⟩ := Option.map_eq_some_iff.mp hu
  have hrest := h other t ht
  split
  · exact hf t hrest
  · exact hrest

theorem atRest_perform (h : AtRest a) {op : Operation} (hop : op.Still) : AtRest (a.perform op).2 := by
  by_cases hwatch : op.watch? = none
  · cases op with
    | makeClock name start step =>
      unfold perform
      dsimp only
      cases hc : ManualClock.make start step with
      | ok c => exact atRest_addClock h name (Timepiece.setStep_nonpos hop hc)
      | error e => exact h
    | makeTape name t => cases hop
    | clock name c =>
      have hstill : ∀ n, c = .setStep n → n ≤ 0 := by
        rintro n rfl
        exact hop
      rcases perform_clock a name c with he | ⟨id, he⟩ <;> rw [he]
      · exact h
      · exact atRest_onClock h id fun t ht => Timepiece.atRest_command ht hstill
    | makeWatch _ _ _ | watch _ _ | elapsedIn _ _ | clockOf _ => cases hwatch
  · obtain ⟨hclocks, _⟩ := atRest_readFrom h (readFrom_perform a hwatch)
    intro id t ht
    exact h id t (hclocks ▸ ht)

section
variable {names : String → Prop}

/-- The same clocks, and the same watches under the names that are compared. -/
abbrev Same (names : String → Prop) : Bench → Bench → Prop := Alike names fun _ => none

theorem same_of_eq (hclocks : a.clocks = b.clocks) (hclockVersions : a.clockVersions = b.clockVersions)
    (hwatchVersions : ∀ name, names name → a.watchVersions.get? name = b.watchVersions.get? name)
    (hwatches : ∀ id, names id.name → a.watches.get? id = b.watches.get? id) : Same names a b := by
  refine ⟨hclocks, hclockVersions, hwatchVersions, fun id hid => ?_, nofun, nofun⟩
  rw [hwatches id hid]
  cases b.watches.get? id with
  | none => exact .none
  | some p => exact .some ⟨rfl, Stopwatch.like_refl _ _⟩

theorem same_watch (h : Same names a b) (id : WatchId) (hid : names id.name) :
    a.watches.get? id = b.watches.get? id := by
  rcases alike_watch h id hid with ⟨ha, hb⟩ | ⟨_, w, v, ha, hb, hlike⟩ <;> rw [ha, hb]
  rw [Stopwatch.eq_of_like hlike (Or.inr fun h => h rfl)]

theorem same_trans (hab : Same names a b) (hbc : Same names b c) : Same names a c :=
  same_of_eq (hab.clocks.trans hbc.clocks) (hab.clockVersions.trans hbc.clockVersions)
    (fun name hname => (hab.watchVersions name hname).trans (hbc.watchVersions name hname))
    fun id hid => (same_watch hab id hid).trans (same_watch hbc id hid)

theorem same_refl (names : String → Prop) (a : Bench) : Same names a a :=
  alike_refl names a nofun nofun

theorem same_set {id : WatchId} {clockId : ClockId} {w v : Stopwatch}
    (hw : a.watches.get? id = some (clockId, w)) (h : ¬names id.name ∨ v = w) :
    Same names ((held id clockId).set v a) a := by
  rcases h with hid | rfl
  · refine same_of_eq rfl rfl (fun _ _ => rfl) fun other hother => ?_
    have hne : id ≠ other := by
      rintro rfl
      exact hid hother
    rw [get?_set, if_neg hne]
  · have hset : (held id clockId).set v a = a := by simp [held, Registry.insert_of_get? hw]
    rw [hset]
    exact same_refl names a

theorem same_addWatch {name : String} (hname : ¬names name) (clockId : ClockId) (w : Stopwatch) :
    Same names (a.addWatch name clockId w) a := by
  refine same_of_eq rfl rfl ?_ ?_
  · intro other hother
    have hne : name ≠ other := by
      rintro rfl
      exact hname hother
    exact Registry.get?_insert_of_ne _ _ _ hne _
  · intro id hid
    rw [get?_addWatch, if_neg]
    rintro rfl
    exact hname hid

theorem same_ask (h : AtRest a) {name : String} {q : Stopwatch.Command}
    (hq : ¬names name ∨ q = .state ∨ ∃ query, q = .query query) : Same names (a.ask name q).2 a := by
  cases hheld : a.held? name with
  | none =>
    unfold ask
    rw [hheld]
    exact same_refl names a
  | some x =>
    obtain ⟨id, clockId, w, rfl, rfl, hw⟩ := exists_held hheld
    have hget : (held id clockId).get a = w := by simp [held, hw]
    have hleft : (w.command (clock clockId) a q).2.2 = a := by
      rcases Stopwatch.command_surroundings (clock clockId) w a q with hs | hs
      · exact hs
      · rw [hs, read_of_atRest h]
    have hset : (a.ask id.name q).2 = (held id clockId).set (w.command (clock clockId) a q).2.1 a := by
      rw [ask_eq hheld]
      unfold Held.command Held.keep
      rw [hget]
      change (held id clockId).set _ (w.command (clock clockId) a q).2.2 = _
      rw [hleft]
      rfl
    rw [hset]
    refine same_set hw (hq.imp_right ?_)
    rintro (rfl | ⟨query, rfl⟩) <;> rfl

theorem same_makeWatch (h : AtRest a) {name : String} (hname : ¬names name) (clockId : ClockId)
    (running : Bool) : Same names (a.makeWatch name clockId running).2 a := by
  unfold makeWatch
  cases running with
  | false => exact same_addWatch hname clockId {}
  | true =>
    have hleft : (({} : Stopwatch).start (clock clockId) a).2.2 = a := by
      rcases Stopwatch.start_surroundings (clock clockId) {} a with hs | hs
      · exact hs
      · rw [hs, read_of_atRest h]
    dsimp only
    rcases hs : ({} : Stopwatch).start (clock clockId) a with ⟨_ | _, w, b⟩ <;> rw [hs] at hleft <;>
      obtain rfl := hleft
    · exact same_refl names b
    · exact same_addWatch hname clockId w

/-- What is asked of a clock at rest, or made of or asked of a watch under a name
    that is not compared, or only a query, leaves everything that is compared. -/
theorem same_perform (h : AtRest a) {op : Operation}
    (hop : op.IsQuery ∨ ∃ name, op.watch? = some name ∧ ¬names name) :
    Same names (a.perform op).2 a := by
  have hname : ∀ name, op.watch? = some name → op.IsQuery ∨ ¬names name := by
    intro name hwatch
    refine hop.imp_right ?_
    rintro ⟨other, hother, hnames⟩
    cases hwatch.symm.trans hother
    exact hnames
  cases op with
  | makeClock name start step => rcases hop with h | ⟨_, h, _⟩ <;> cases h
  | makeTape name t => rcases hop with h | ⟨_, h, _⟩ <;> cases h
  | clock name q =>
    have hq : q = .read ∨ q = .step := by
      rcases hop with hquery | ⟨_, hwatch, _⟩
      · cases q <;> simp [Operation.IsQuery] at hquery ⊢
      · cases hwatch
    have hleft : (a.perform (.clock name q)).2 = a := by
      rcases perform_clock a name q with he | ⟨id, he⟩
      · exact he
      · rw [he, onClock_of_unturned id fun t ht => Timepiece.command_of_atRest (h id t ht) hq]
    rw [hleft]
    exact same_refl names a
  | makeWatch name clockName running =>
    unfold perform
    dsimp only
    cases a.clockId? clockName with
    | none => exact same_refl names a
    | some id => exact same_makeWatch h ((hname name rfl).resolve_left fun hquery => hquery) id running
  | watch name q =>
    refine same_ask h ?_
    rcases hname name rfl with hquery | hnames
    · cases q <;> simp [Operation.IsQuery] at hquery ⊢
    · exact Or.inl hnames
  | elapsedIn name unit =>
    unfold perform
    dsimp only
    cases TimeUnit.ofName? unit with
    | none => exact same_refl names a
    | some u => exact same_ask h (Or.inr (Or.inr ⟨_, rfl⟩))
  | clockOf name =>
    unfold perform
    dsimp only
    cases (a.watchId? name).bind a.clockIdOf? <;> exact same_refl names a

end

end Bench

def staying {α : Type} (marked : List (α × Bool)) : List α :=
  marked.filterMap fun entry => if entry.2 then some entry.1 else none

/-- Whether an operation may be marked so: nothing stays that asks a watch that is
    not kept, and nothing goes but what is done with such a watch and queries. -/
structure Thinned (kept : String → Prop) (op : Operation) (stays : Bool) : Prop where
  asked : stays → ∀ name, op.asked? = some name → kept name
  gone : stays = false → op.IsQuery ∨ ∃ name, op.watch? = some name ∧ ¬kept name

theorem staying_answers_same {kept : String → Prop} (marked : List (Operation × Bool))
    (hstill : ∀ p ∈ marked, p.1.Still) (hthinned : ∀ p ∈ marked, Thinned kept p.1 p.2) {a b : Bench}
    (h : Bench.Same kept a b) (ha : a.AtRest) :
    staying ((a.answers (marked.map Prod.fst)).zip (marked.map Prod.snd)) = b.answers (staying marked) := by
  -- Throughout, the two benches are the same to what is kept, and the fuller one is at rest.
  induction marked generalizing a b with
  | nil => rfl
  | cons p rest ih =>
    obtain ⟨op, stays⟩ := p
    have hop : op.Still := hstill _ List.mem_cons_self
    have hp : Thinned kept op stays := hthinned _ List.mem_cons_self
    have hrest := @ih (fun p hp => hstill p (List.mem_cons_of_mem _ hp))
      (fun p hp => hthinned p (List.mem_cons_of_mem _ hp))
    have hnext := Bench.atRest_perform ha hop
    cases stays with
    | true =>
      obtain ⟨hend, hleft⟩ := Bench.alike_perform h nofun (hp.asked rfl)
      exact congrArg₂ List.cons hend (hrest hleft hnext)
    | false =>
      have hleft := Bench.same_perform ha (hp.gone rfl)
      exact hrest (Bench.same_trans hleft h) hnext

/-- On clocks at rest, whatever is done with some of the watches may be left out,
    and any of the queries too: what stays is answered as it was. -/
theorem staying_answers (b : Bench) (hb : b.AtRest) (kept : String → Prop)
    (marked : List (Operation × Bool)) (hstill : ∀ p ∈ marked, p.1.Still)
    (hthinned : ∀ p ∈ marked, Thinned kept p.1 p.2) :
    staying ((b.answers (marked.map Prod.fst)).zip (marked.map Prod.snd)) =
      b.answers (staying marked) :=
  staying_answers_same marked hstill hthinned (Bench.same_refl kept b) hb

def sharedClock : List (Operation × Bool) :=
  [(.makeClock "clock" 5 0, true), (.makeWatch "first" (some "clock") true, true),
    (.makeWatch "second" (some "clock") true, false), (.clock "clock" (.advance 40), true),
    (.watch "second" .start, false), (.watch "first" (.query .nanos), false), (.watch "first" .start, true),
    (.watch "second" .stop, false), (.clock "clock" (.advance (-1)), true), (.watch "first" .stop, true),
    (.clock "clock" .read, false), (.watch "first" (.query .nanos), true)]

theorem staying_answers_sharedClock :
    staying ((({} : Bench).answers (sharedClock.map Prod.fst)).zip (sharedClock.map Prod.snd)) =
        ({} : Bench).answers (staying sharedClock) ∧
      ({} : Bench).answers (staying sharedClock) =
        [.ok .done, .ok (.state .running), .ok .done, .error (.alreadyIn .running), .error .backwards,
          .ok (.state .stopped), .ok (.count 40)] := by
  have hrest : ({} : Bench).AtRest := by
    intro id t ht
    cases ht
  have hstill : ∀ p ∈ sharedClock, p.1.Still := by
    simp [sharedClock, Operation.Still]
  have hthinned : ∀ p ∈ sharedClock, Thinned (· ≠ "second") p.1 p.2 := by
    intro p hp
    constructor <;> revert p <;> simp [sharedClock, Operation.asked?, Operation.watch?, Operation.IsQuery]
  exact ⟨staying_answers {} hrest (· ≠ "second") sharedClock hstill hthinned, by cbv⟩

end Script
end Chronograph
