import Mathlib
import Chronograph.Proofs.Script.Plan.Levels

set_option autoImplicit false

/-!
# The journal tells the completed calls

A measurement or a logged call is completed if its callable came to a value, or to a
failure that the caller catches. At the default level, of callables that have a
name, and in times that can be shown, the journal tells of every completed call and of
nothing else, in the order in which they came to their ends. It tells the time
between the two readings of the call, which is the time that the call itself gives.
-/
namespace Chronograph

namespace Round
variable {V : Type} {r : Round V}

def completed (r : Round V) : Bool := r.caller.rereads r.ending

def text? (r : Round V) : Option String :=
  match r.last with
  | some (.ok last) => (Elapsed.text (last - r.first)).toOption
  | _ => none

/-- A call at the default level of a callable that has a name, where the clock does not
    fail and the time can be shown. -/
structure Showable (r : Round V) : Prop where
  entry : r.caller.entry = {}
  subject : r.caller.subject.isSome = true
  text : r.last.isSome = true → r.text?.isSome = true

instance (r : Round V) : Decidable r.Showable :=
  decidable_of_iff (r.caller.entry = {} ∧ r.caller.subject.isSome = true ∧
      (r.last.isSome = true → r.text?.isSome = true))
    ⟨fun ⟨hentry, hsubject, htext⟩ => ⟨hentry, hsubject, htext⟩, fun h => ⟨h.entry, h.subject, h.text⟩⟩

structure Shown (r : Round V) (name : String) (n : ℤ) (text : String) : Prop where
  name : r.caller.subject = some name
  last : r.last = some (.ok (r.first + n))
  text : Elapsed.text n = .ok text
  given : r.given = r.caller.given n r.ending

/-- The message about a callable of that name that ended so. -/
inductive Message (name text : String) : Except Raised V → String → Prop
  | took (a : V) : Message name text (.ok a) (name ++ " took " ++ text)
  | failed (f : Failure) :
    Message name text (.error (.failure f)) (name ++ " failed with " ++ f.fault.kind ++ " after " ++ text)

/-- The record tells of the call, under the own logger and at the default level. -/
structure Tells (r : Round V) (record : Record) : Prop where
  logger : record.logger = .own
  level : record.level = 10
  message : ∃ name n text, r.Shown name n text ∧ Message name text r.ending record.message

theorem exists_text (h : r.text?.isSome = true) :
    ∃ last text, r.last = some (.ok last) ∧ Elapsed.text (last - r.first) = .ok text := by
  unfold text? at h
  rcases hlast : r.last with _ | (e | last) <;> rw [hlast] at h
  · cases h
  · cases h
  · dsimp only at h
    cases htext : Elapsed.text (last - r.first) with
    | error e =>
      rw [htext] at h
      cases h
    | ok text => exact ⟨last, text, rfl, htext⟩

theorem level_of_record? {record : Record} (h : r.record? = some record) :
    record.level = r.caller.entry.level := by
  unfold record? Caller.record? Entry.record? at h
  simp only [Option.bind_eq_some_iff, Option.map_eq_some_iff] at h
  obtain ⟨_, _, _, _, _, _, _, _, rfl⟩ := h
  rfl

theorem record?_of_not_completed (hfaithful : r.Faithful) (h : r.completed = false) :
    r.record? = none := by
  have hlast : r.last = none := Option.isNone_iff_eq_none.mp (by
    rw [← Option.not_isSome, hfaithful.last]
    exact congrArg not h)
  unfold record?
  rw [hlast]
  rfl

theorem exists_tells (hfaithful : r.Faithful) (hshow : r.Showable) (h : r.completed = true) :
    ∃ record, r.record? = some record ∧ r.Tells record := by
  obtain ⟨last, text, hlast, htext⟩ := exists_text (hshow.text (hfaithful.last.trans h))
  obtain ⟨name, hname⟩ := Option.isSome_iff_exists.mp hshow.subject
  have hshown : r.Shown name (last - r.first) text :=
    ⟨hname, by rw [hlast, add_sub_cancel], htext, hfaithful.given last text hlast hshow.subject htext⟩
  have hrecord (failedWith : Option Fault)
      (hverdict : r.caller.verdict r.first r.ending (.ok last) = some (failedWith, last - r.first)) :
      r.record? = some ⟨.own, 10, name, failedWith.map Fault.kind, text⟩ := by
    unfold record? Caller.record? Entry.record?
    rw [hlast, Option.bind_some, hverdict, Option.bind_some, hname, hshow.entry, Option.bind_some, htext]
    rfl
  unfold completed at h
  rcases hending : r.ending with (f | i) | a
  · have hmade := hrecord (some f.fault) (by rw [hending]; rfl)
    exact ⟨_, hmade, rfl, rfl, name, _, text, hshown, hending ▸ .failed f⟩
  · rw [hending] at h
    cases h
  · have hmade := hrecord none (by rw [hending]; rfl)
    exact ⟨_, hmade, rfl, rfl, name, _, text, hshown, hending ▸ .took a⟩

theorem tells_records {rounds : List (Round V)} (hfaithful : ∀ r ∈ rounds, r.Faithful)
    (hshow : ∀ r ∈ rounds, r.Showable) :
    List.Forall₂ Tells (rounds.filter completed) (rounds.filterMap record?) := by
  induction rounds with
  | nil => exact .nil
  | cons r rest ih =>
    obtain ⟨hr, hrest⟩ := List.forall_mem_cons.mp hfaithful
    obtain ⟨hrshow, hrestShow⟩ := List.forall_mem_cons.mp hshow
    cases h : r.completed with
    | true =>
      obtain ⟨record, hrecord, htells⟩ := exists_tells hr hrshow h
      rw [List.filter_cons_of_pos h, List.filterMap_cons_some hrecord]
      exact .cons htells (ih hrest hrestShow)
    | false =>
      rw [List.filter_cons_of_neg (by rw [h]; exact Bool.false_ne_true),
        List.filterMap_cons_none (record?_of_not_completed hr h)]
      exact ih hrest hrestShow

end Round

namespace Script
variable {M V : Type}

def Act.round? : Act V → Option (Round V)
  | .finish round => some round
  | _ => none

/-- The calls that come to their end, in that order. -/
def rounds (acts : List (Act V)) : List (Round V) := acts.filterMap Act.round?

theorem rounds_records (acts : List (Act V)) :
    (rounds acts).filterMap Round.record? = acts.filterMap Act.record? := by
  unfold rounds
  rw [List.filterMap_filterMap]
  refine List.filterMap_congr fun act _ => ?_
  cases act <;> rfl

theorem mem_rounds {acts : List (Act V)} {r : Round V} (h : r ∈ rounds acts) : .finish r ∈ acts := by
  obtain ⟨act, hact, hround⟩ := List.mem_filterMap.mp h
  cases act with
  | finish round => exact Option.some.inj hround ▸ hact
  | read _ | operate _ | enter _ | leave _ _ | setLevel _ _ | mention _ => cases hround

/-- The journal tells of every completed call, in the order of their ends, and of nothing
    else. -/
theorem Plan.records_tell (p : Plan M V) (w : World (Stage M))
    (hshow : ∀ r ∈ rounds (p.course w), r.Showable)
    (hthreshold : ∀ offer ∈ offered w.journal (p.course w), offer.2 ≤ 10) :
    ∃ records, (p.run w).2.journal.records = w.journal.records ++ records ∧
      List.Forall₂ Round.Tells ((rounds (p.course w)).filter Round.completed) records := by
  have hfaithful : ∀ r ∈ rounds (p.course w), r.Faithful := fun r hr => (p.leads w).rounds r (mem_rounds hr)
  have htells := Round.tells_records hfaithful hshow
  refine ⟨_, ?_, htells⟩
  -- All that is made up is at the default level, so nothing is lost at the threshold.
  have hreaches : ∀ offer ∈ offered w.journal (p.course w), reaches offer = true := by
    intro offer hoffer
    have hmade : offer.1 ∈ (rounds (p.course w)).filterMap Round.record? := by
      rw [rounds_records, ← offered_records w.journal]
      exact List.mem_map_of_mem hoffer
    obtain ⟨r, hr, hrecord⟩ := List.mem_filterMap.mp hmade
    have hlevel : offer.1.level = 10 := by
      rw [Round.level_of_record? hrecord, (hshow r hr).entry]
      rfl
    have hle := hthreshold offer hoffer
    simp only [reaches, hlevel, hle, decide_true, Bool.and_true]
    rfl
  rw [(p.leads w).journal, foldl_note_records, List.filter_eq_self.mpr hreaches, offered_records,
    rounds_records]

/-- A failure that passes two logged calls before it is captured, and one that is not
    captured; then a wrapper that has no title to go by but an empty one. -/
def nestedFailures : Plan Unit ℤ :=
  .measure .captured manualClock { title := some "outer", layers := [manualLayer] }
    (.call { title := some "inner", layers := [manualLayer] }
      (.operate (.clock "clock" (.advance 40)) fun _ => .occur (.foreign "ValueError" "no") fun f =>
        .ends (.error (.failure f))) .ends)
    fun _ => .measure .duration manualClock { title := some "last" }
      (.occur (.foreign "ValueError" "no") fun f => .ends (.error (.failure f)))
      fun _ => .measure .valued manualClock { title := some "", layers := [manualLayer] } (.ends (.ok 1))
        fun r => .ends (r.map Reported.nanos)

theorem Plan.records_tell_nestedFailures :
    (∀ r ∈ rounds (nestedFailures.course manualWorld), r.Showable) ∧
      (∀ offer ∈ offered manualWorld.journal (nestedFailures.course manualWorld), offer.2 ≤ 10) ∧
      (rounds (nestedFailures.course manualWorld)).length = 6 ∧
      (∃ records, (nestedFailures.run manualWorld).2.journal.records =
          manualWorld.journal.records ++ records ∧
        List.Forall₂ Round.Tells
          ((rounds (nestedFailures.course manualWorld)).filter Round.completed) records) ∧
      (nestedFailures.run manualWorld).2.journal.records.map Record.message =
        ["inner failed with ValueError after 40.00 ns", "outer failed with ValueError after 40.00 ns",
          "outer failed with ValueError after 40.00 ns", " took 0.000 ns",
          "<function  at 0x0> took 0.000 ns"] := by
  have hshow : ∀ r ∈ rounds (nestedFailures.course manualWorld), r.Showable := by decide +kernel
  have hthreshold : ∀ offer ∈ offered manualWorld.journal (nestedFailures.course manualWorld),
      offer.2 ≤ 10 := by decide +kernel
  exact ⟨hshow, hthreshold, by decide +kernel, records_tell nestedFailures manualWorld hshow hthreshold,
    by decide +kernel⟩

end Script
end Chronograph
