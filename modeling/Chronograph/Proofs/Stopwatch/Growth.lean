import Mathlib
import Chronograph.Proofs.Elapsed.Order
import Chronograph.Proofs.Stopwatch.History

set_option autoImplicit false

/-!
# How the measured time grows

On a clock whose readings neither fail nor fall the time that a watch has
measured never shrinks between resets, and it grows no more than the readings
do. What moves the clock between two readings is part of the clock here. The
time that is spoken of is that up to the latest reading, which is what a query
reports once it has taken its own.
-/
namespace Chronograph
variable {σ : Type}

def Clock.next (c : Clock σ) (s : σ) : σ := (c.read s).2

/-- From `s` on readings succeed, and each is at least the one before it. -/
def Clock.Rises (c : Clock σ) (s : σ) : Prop :=
  ∀ k : ℕ, ∃ now later, (c.read (c.next^[k] s)).1 = .ok now ∧
    (c.read (c.next^[k + 1] s)).1 = .ok later ∧ now ≤ later

namespace Stopwatch

instance (calls : List Call) : Decidable (Running calls) := inferInstanceAs (Decidable (_ = _))

def latest? (calls : List Call) : Option ℤ := calls.findSome? Call.reading?

def earliest? (calls : List Call) : Option ℤ := calls.reverse.findSome? Call.reading?

/-- The total, and on a running watch what the open segment came to by the latest reading. -/
def measured (calls : List Call) : ℤ :=
  total calls + if Running calls then (latest? calls).getD 0 - latestStart calls else 0

theorem latest?_cons (e : Call) (calls : List Call) :
    latest? (e :: calls) = e.reading?.or (latest? calls) := by
  cases h : e.reading? <;> simp [latest?, h]

theorem earliest?_cons (e : Call) (calls : List Call) :
    earliest? (e :: calls) = (earliest? calls).or e.reading? := by
  cases h : e.reading? <;> simp [earliest?, List.findSome?_append, h]

theorem earliest?_eq_none_iff (calls : List Call) : earliest? calls = none ↔ latest? calls = none := by
  simp [earliest?, latest?, List.findSome?_eq_none_iff]

structure Rising (before : List Call) (e : Call) : Prop where
  lawful : Lawful before e
  succeeds : ∀ reading ∈ e.readings, ∃ now, reading = .ok now ∧ ∀ r, latest? before = some r → r ≤ now

structure Idle (e : Call) : Prop where
  command : e.command ≠ .reset
  accepted : e.accepted = false
  reading : e.reading? = none

inductive Reading (before : List Call) (e : Call) (now : ℤ) : Prop
  | start (command : e.command = .start) (accepted : e.accepted) (stopped : ¬Running before)
  | stop (command : e.command = .stop) (accepted : e.accepted) (running : Running before)
  | query (q : Query) (command : e.command = .query q) (readings : e.readings = [.ok now])
      (running : Running before)

section
variable {before : List Call} {e : Call}

theorem reading?_of_not_reads (h : Rising before e) (hr : ¬Reads before e) : e.reading? = none := by
  simp [Call.reading?, h.lawful.reads_never hr]

theorem exists_reading? (h : Rising before e) (hr : Reads before e) : ∃ now, e.readings = [.ok now] ∧
    e.reading? = some now ∧ ∀ r, latest? before = some r → r ≤ now := by
  obtain ⟨reading, hreading⟩ := List.length_eq_one_iff.mp (h.lawful.reads_once hr)
  obtain ⟨now, rfl, hle⟩ := h.succeeds reading (by simp [hreading])
  exact ⟨now, hreading, by simp [Call.reading?, hreading], hle⟩

theorem not_reads_of_refused (before : List Call) (hq : ∀ q, e.command ≠ .query q) (hr : e.refused) :
    ¬Reads before e := by
  rintro (h | ⟨⟨q, h⟩, _⟩)
  · simp [Call.accepted, hr] at h
  · exact hq q h

theorem rising_cases (h : Rising before e) : e.command = .reset ∨ Idle e ∨
    ∃ now, e.reading? = some now ∧ (∀ r, latest? before = some r → r ≤ now) ∧ Reading before e now := by
  cases hc : e.command with
  | reset => exact Or.inl rfl
  | state =>
    have hreads : ¬Reads before e := by simp [Reads, Call.accepted, hc]
    exact Or.inr (Or.inl ⟨by simp [hc], by simp [Call.accepted, hc], reading?_of_not_reads h hreads⟩)
  | start =>
    by_cases hrun : Running before
    · have href := (h.lawful.refused_start hc).mpr hrun
      have hreads := not_reads_of_refused before (by simp [hc]) href
      exact Or.inr (Or.inl ⟨by simp [hc], by simp [Call.accepted, href], reading?_of_not_reads h hreads⟩)
    · have href := (h.lawful.refused_start hc).not.mpr hrun
      have hacc : e.accepted := by simp [Call.accepted, hc, href]
      obtain ⟨now, _, hnow, hle⟩ := exists_reading? h (Or.inl hacc)
      exact Or.inr (Or.inr ⟨now, hnow, hle, .start hc hacc hrun⟩)
  | stop =>
    by_cases hrun : Running before
    · have href := (h.lawful.refused_stop hc).not.mpr (not_not.mpr hrun)
      have hacc : e.accepted := by simp [Call.accepted, hc, href]
      obtain ⟨now, _, hnow, hle⟩ := exists_reading? h (Or.inl hacc)
      exact Or.inr (Or.inr ⟨now, hnow, hle, .stop hc hacc hrun⟩)
    · have href := (h.lawful.refused_stop hc).mpr hrun
      have hreads := not_reads_of_refused before (by simp [hc]) href
      exact Or.inr (Or.inl ⟨by simp [hc], by simp [Call.accepted, href], reading?_of_not_reads h hreads⟩)
  | query q =>
    have hacc : e.accepted = false := by simp [Call.accepted, hc]
    by_cases hrun : Running before
    · obtain ⟨now, hreadings, hnow, hle⟩ := exists_reading? h (Or.inr ⟨⟨q, hc⟩, hrun⟩)
      exact Or.inr (Or.inr ⟨now, hnow, hle, .query q hc hreadings hrun⟩)
    · have hreads : ¬Reads before e := by simp [Reads, hacc, hrun]
      exact Or.inr (Or.inl ⟨by simp [hc], hacc, reading?_of_not_reads h hreads⟩)

theorem idle_cons (before : List Call) (h : Idle e) : (Running (e :: before) ↔ Running before) ∧
    total (e :: before) = total before ∧ latestStart (e :: before) = latestStart before ∧
    latest? (e :: before) = latest? before ∧ earliest? (e :: before) = earliest? before := by
  refine ⟨?_, ?_, ?_, ?_, ?_⟩
  · simp [running_cons, h.accepted, h.command]
  · simp [total_cons, h.command, h.reading]
  · simp [latestStart_cons, h.reading]
  · simp [latest?_cons, h.reading]
  · simp [earliest?_cons, h.reading]

theorem measured_idle (before : List Call) (h : Idle e) : measured (e :: before) = measured before := by
  obtain ⟨hrun, htotal, hstart, hlatest, _⟩ := idle_cons before h
  simp only [measured, hrun, htotal, hstart, hlatest]

theorem latest?_of_reading (before : List Call) {now : ℤ} (hnow : e.reading? = some now) :
    latest? (e :: before) = some now := by
  simp [latest?_cons, hnow]

/-- A start measures nothing yet; a stop or a query measures what passed since
    the reading before it. -/
theorem measured_reading {now : ℤ} (hnow : e.reading? = some now) (hr : Reading before e now) :
    measured (e :: before) = measured before +
      if Running before then now - (latest? before).getD 0 else 0 := by
  have hlatest := latest?_of_reading before hnow
  cases hr with
  | start hc hacc hrun =>
    have hrun' : Running (e :: before) := by simp [running_cons, hacc, hc]
    simp [measured, hrun, hrun', hlatest, total_cons, latestStart_cons, hc, hnow]
  | stop hc hacc hrun =>
    have hrun' : ¬Running (e :: before) := by simp [running_cons, hacc, hc]
    simp [measured, hrun, hrun', total_cons, hc, hnow]
    omega
  | query q hc hreadings hrun =>
    have hrun' : Running (e :: before) := by simp [running_cons, Call.accepted, hc, hrun]
    simp [measured, hrun, hrun', hlatest, total_cons, latestStart_cons, hc]
    omega

end

/-- What a history on a clock that rises keeps to: an open segment began by the
    latest reading, the total is not negative, and without a reading nothing began. -/
structure Settled (calls : List Call) : Prop where
  opened : Running calls → ∃ r, latest? calls = some r ∧ latestStart calls ≤ r
  nonneg : 0 ≤ total calls
  unread : latest? calls = none → total calls = 0

theorem settled_nil : Settled [] where
  opened h := by simp [Running, latestMove] at h
  nonneg := le_rfl
  unread _ := rfl

section
variable {before : List Call} {e : Call}

theorem settled_reset (hc : e.command = .reset) : Settled (e :: before) where
  opened h := by simp [running_cons, hc] at h
  nonneg := by simp [total_cons, hc]
  unread _ := by simp [total_cons, hc]

theorem settled_idle (hs : Settled before) (h : Idle e) : Settled (e :: before) := by
  obtain ⟨hrun, htotal, hstart, hlatest, _⟩ := idle_cons before h
  exact ⟨by simpa only [hrun, hlatest, hstart] using hs.opened, htotal ▸ hs.nonneg,
    by simpa only [hlatest, htotal] using hs.unread⟩

theorem settled_reading (hs : Settled before) {now : ℤ} (hnow : e.reading? = some now)
    (hle : ∀ r, latest? before = some r → r ≤ now) (hr : Reading before e now) :
    Settled (e :: before) := by
  have hlatest := latest?_of_reading before hnow
  have hne : latest? (e :: before) ≠ none := by simp [hlatest]
  cases hr with
  | start hc hacc hrun =>
    refine ⟨fun _ => ⟨now, hlatest, ?_⟩, ?_, fun h => absurd h hne⟩
    · simp [latestStart_cons, hc, hnow]
    · simpa [total_cons, hc] using hs.nonneg
  | stop hc hacc hrun =>
    obtain ⟨r, hr, hstart⟩ := hs.opened hrun
    refine ⟨?_, ?_, fun h => absurd h hne⟩
    · simp [running_cons, hacc, hc]
    · have := hs.nonneg
      have := hle r hr
      simp only [total_cons, hc, hnow, reduceCtorEq, ↓reduceIte, Option.map_some, Option.getD_some]
      omega
  | query q hc hreadings hrun =>
    obtain ⟨r, hr, hstart⟩ := hs.opened hrun
    refine ⟨fun _ => ⟨now, hlatest, ?_⟩, ?_, fun h => absurd h hne⟩
    · simpa [latestStart_cons, hc] using hstart.trans (hle r hr)
    · simpa [total_cons, hc] using hs.nonneg

theorem settled_cons (hs : Settled before) (h : Rising before e) : Settled (e :: before) := by
  rcases rising_cases h with hc | hidle | ⟨now, hnow, hle, hr⟩
  · exact settled_reset hc
  · exact settled_idle hs hidle
  · exact settled_reading hs hnow hle hr

end

theorem settled_of_rising {calls : List Call}
    (h : ∀ e before, e :: before <:+ calls → Rising before e) : Settled calls := by
  induction calls with
  | nil => exact settled_nil
  | cons e calls ih =>
    have hcalls := ih fun d before hd => h d before (hd.trans (List.suffix_cons e calls))
    exact settled_cons hcalls (h e calls List.suffix_rfl)

theorem measured_nonneg {calls : List Call} (hs : Settled calls) : 0 ≤ measured calls := by
  have hnonneg := hs.nonneg
  unfold measured
  split
  · rename_i hrun
    obtain ⟨r, hr, hstart⟩ := hs.opened hrun
    simp only [hr, Option.getD_some]
    omega
  · omega

theorem measured_of_unread {calls : List Call} (hs : Settled calls) (h : latest? calls = none) :
    measured calls = 0 := by
  have hrun : ¬Running calls := by
    intro hrun
    obtain ⟨r, hr, _⟩ := hs.opened hrun
    simp [h] at hr
  simp [measured, hrun, hs.unread h]

/-- From an earlier to a later point the measured time grew, and by no more than
    the readings did; if there was none before, by no more than from the first on. -/
structure Grown (earlier later : List Call) : Prop where
  le : measured earlier ≤ measured later
  read : ∀ r, latest? earlier = some r → ∃ last, latest? later = some last ∧
    measured later - measured earlier ≤ last - r
  unread : latest? earlier = none → (latest? later = none → measured later = 0) ∧
    ∀ first last, earliest? later = some first → latest? later = some last →
      measured later ≤ last - first

theorem grown_refl {calls : List Call} (hs : Settled calls) : Grown calls calls := by
  refine ⟨le_rfl, fun r hr => ⟨r, hr, by omega⟩, fun h => ⟨measured_of_unread hs, ?_⟩⟩
  intro first last _ hlast
  simp [h] at hlast

theorem grown_idle {earlier later : List Call} {e : Call} (h : Grown earlier later) (hidle : Idle e) :
    Grown earlier (e :: later) := by
  obtain ⟨_, _, _, hlatest, hearliest⟩ := idle_cons later hidle
  have hmeasured := measured_idle later hidle
  exact ⟨by rw [hmeasured]; exact h.le, by simpa only [hmeasured, hlatest] using h.read,
    by simpa only [hmeasured, hlatest, hearliest] using h.unread⟩

theorem grown_reading {earlier later : List Call} {e : Call} (h : Grown earlier later)
    (hs : Settled later) {now : ℤ} (hnow : e.reading? = some now)
    (hle : ∀ r, latest? later = some r → r ≤ now) (hr : Reading later e now) :
    Grown earlier (e :: later) := by
  have hlatest := latest?_of_reading later hnow
  -- What is added is at most the difference to the reading before, which was there if the watch ran.
  have hadd : measured later ≤ measured (e :: later) ∧ ∀ r, latest? later = some r →
      measured (e :: later) - measured later ≤ now - r := by
    rw [measured_reading hnow hr]
    split
    · rename_i hrun
      obtain ⟨r, hr, _⟩ := hs.opened hrun
      have := hle r hr
      simp only [hr, Option.getD_some, Option.some.injEq]
      constructor <;> intros <;> omega
    · constructor
      · omega
      · intro r hr
        have := hle r hr
        omega
  have hfirst : latest? later = none → measured (e :: later) = 0 := by
    intro hnone
    have hrun : ¬Running later := by
      intro hrun
      obtain ⟨r, hr, _⟩ := hs.opened hrun
      simp [hnone] at hr
    rw [measured_reading hnow hr, if_neg hrun, measured_of_unread hs hnone, add_zero]
  refine ⟨h.le.trans hadd.1, ?_, ?_⟩
  · intro r hr
    obtain ⟨last, hlast, hgrown⟩ := h.read r hr
    have := hadd.2 last hlast
    exact ⟨now, hlatest, by omega⟩
  · intro hnone
    obtain ⟨hunread, hbound⟩ := h.unread hnone
    refine ⟨fun h => by simp [hlatest] at h, ?_⟩
    intro first last hf hl
    obtain rfl : now = last := by simpa [hlatest] using hl
    cases hlater : latest? later with
    | none =>
      have hzero := hfirst hlater
      rw [← earliest?_eq_none_iff] at hlater
      rw [earliest?_cons, hlater, hnow] at hf
      cases hf
      omega
    | some r =>
      obtain ⟨f, hearliest⟩ := Option.ne_none_iff_exists'.mp
        ((earliest?_eq_none_iff later).not.mpr (by simp [hlater]))
      rw [earliest?_cons, hearliest, Option.some_or, Option.some.injEq] at hf
      have := hadd.2 r hlater
      have := hbound f r hearliest hlater
      omega

theorem grown_append {before between : List Call}
    (h : ∀ e rest, e :: rest <:+ between ++ before → Rising rest e)
    (hreset : ∀ e ∈ between, e.command ≠ .reset) : Grown before (between ++ before) := by
  induction between with
  | nil => exact grown_refl (settled_of_rising h)
  | cons e between ih =>
    have hrest : ∀ d rest, d :: rest <:+ between ++ before → Rising rest d := fun d rest hd =>
      h d rest (hd.trans (List.suffix_cons e _))
    have hgrown := ih hrest fun d hd => hreset d (List.mem_cons_of_mem e hd)
    rcases rising_cases (h e _ List.suffix_rfl) with hc | hidle | ⟨now, hnow, hle, hr⟩
    · exact absurd hc (hreset e List.mem_cons_self)
    · exact grown_idle hgrown hidle
    · exact grown_reading hgrown (settled_of_rising hrest) hnow hle hr

theorem step_reads (c : Clock σ) (r : Run σ) (q : Command) :
    ∃ e, (r.step c q).calls = e :: r.calls ∧
      (e.readings = [] ∧ (r.step c q).setting = r.setting ∨
        e.readings = [(c.read r.setting).1] ∧ (r.step c q).setting = c.next r.setting) := by
  have hreads := command_surroundings c.kept r.watch (r.setting, []) q
  unfold Run.step
  rcases hcommand : r.watch.command c.kept (r.setting, []) q with ⟨answer, watch, setting, readings⟩
  rw [hcommand] at hreads
  refine ⟨⟨q, readings, answer⟩, rfl, ?_⟩
  rcases hreads with hnone | hone
  · exact Or.inl ⟨congrArg Prod.snd hnone, congrArg Prod.fst hnone⟩
  · exact Or.inr ⟨congrArg Prod.snd hone, congrArg Prod.fst hone⟩

/-- A run on a clock that rises: every call is as it must be, and the next
    reading will be at least the latest one. -/
structure Steady (c : Clock σ) (s : σ) (r : Run σ) : Prop where
  rising : ∀ e before, e :: before <:+ r.calls → Rising before e
  setting : ∃ k, r.setting = c.next^[k] s
  reaches : ∀ now, latest? r.calls = some now → ∃ later, (c.read r.setting).1 = .ok later ∧ now ≤ later

theorem steady_step {c : Clock σ} {s : σ} (hc : c.Rises s) {r : Run σ} (h : Steady c s r)
    (hr : Told r.calls r.watch) (q : Command) : Steady c s (r.step c q) := by
  obtain ⟨k, hk⟩ := h.setting
  obtain ⟨now, later, hnow, hlater, hle⟩ := hc k
  obtain ⟨e, hcalls, hreads⟩ := step_reads c r q
  have hlawful : Lawful r.calls e := (told_step c r q hr).lawful e r.calls (hcalls ▸ List.suffix_rfl)
  rw [← hk] at hnow
  have hrising : Rising r.calls e := by
    refine ⟨hlawful, fun reading hmem => ⟨now, ?_, ?_⟩⟩
    · rcases hreads with ⟨hnone, _⟩ | ⟨hone, _⟩
      · simp [hnone] at hmem
      · simpa [hone, hnow] using hmem
    · intro n hn
      obtain ⟨m, hm, hnm⟩ := h.reaches n hn
      rw [hnow, Except.ok.injEq] at hm
      exact hm ▸ hnm
  refine ⟨?_, ?_, ?_⟩
  · intro d before hd
    rw [hcalls] at hd
    rcases List.suffix_cons_iff.mp hd with heq | hsuffix
    · cases heq
      exact hrising
    · exact h.rising d before hsuffix
  · rcases hreads with ⟨_, hsetting⟩ | ⟨_, hsetting⟩
    · exact ⟨k, hsetting.trans hk⟩
    · exact ⟨k + 1, by rw [hsetting, hk, Function.iterate_succ_apply']⟩
  · intro n hn
    rw [hcalls, latest?_cons] at hn
    rcases hreads with ⟨hnone, hsetting⟩ | ⟨hone, hsetting⟩
    · rw [hsetting]
      exact h.reaches n (by simpa [Call.reading?, hnone] using hn)
    · rw [hsetting, hk, ← Function.iterate_succ_apply' c.next]
      refine ⟨later, hlater, ?_⟩
      simp only [Call.reading?, hone, hnow, Option.some_or, Option.some.injEq] at hn
      exact hn ▸ hle

theorem run_steady {c : Clock σ} {s : σ} (hc : c.Rises s) (commands : List Command) :
    Steady c s (run c s commands) := by
  induction commands using List.reverseRecOn with
  | nil =>
    exact ⟨fun e before h => absurd (List.suffix_nil.mp h) (List.cons_ne_nil _ _), ⟨0, rfl⟩,
      fun now h => by simp [run, latest?] at h⟩
  | append_singleton commands q ih =>
    have hstep : run c s (commands ++ [q]) = (run c s commands).step c q := by simp [run]
    rw [hstep]
    exact steady_step hc ih (run_told c s commands).2 q

theorem query_reports {before : List Call} {e : Call} {q : Query} (h : Rising before e)
    (hq : e.command = .query q) : ∃ state, e.answer = q.report state (measured (e :: before)) := by
  rcases rising_cases h with hc | hidle | ⟨now, hnow, _, hr⟩
  · simp [hq] at hc
  · have hrun : ¬Running before := by
      intro hrun
      obtain ⟨now, _, hnow, _⟩ := exists_reading? h (Or.inr ⟨⟨q, hq⟩, hrun⟩)
      simp [hidle.reading] at hnow
    refine ⟨.stopped, ?_⟩
    rw [measured_idle before hidle, h.lawful.reports_stopped q hq hrun]
    simp [measured, hrun]
  · cases hr with
    | start hc _ _ => simp [hq] at hc
    | stop hc _ _ => simp [hq] at hc
    | query p hp hreadings hrun =>
      refine ⟨.running, ?_⟩
      rw [measured_reading hnow (.query p hp hreadings hrun), if_pos hrun,
        h.lawful.reports_running q hq hrun now hreadings]
      simp [measured, hrun]
      congr 1
      omega

theorem report_duration_iff (state : State) (n : ℤ) (d : Duration) :
    Query.report state n .duration = .ok (.duration d) ↔ Elapsed.duration n = .ok d := by
  cases h : Elapsed.duration n <;> simp [Query.report, Except.map, h]

theorem report_duration_error_iff (state : State) (n : ℤ) (e : Fault) :
    Query.report state n .duration = .error e ↔ Elapsed.duration n = .error e := by
  cases h : Elapsed.duration n <;> simp [Query.report, Except.map, h]

/-- Two queries of one kind with no reset between them. The later one never
    reports less. In nanoseconds it reports more by at most the difference of the
    latest readings at the two points; if there was none at the first point, then
    nothing was measured there, and later at most what passed since the first
    reading of all. -/
theorem run_query_mono {c : Clock σ} {s : σ} (hc : c.Rises s) (commands : List Command) (e₁ e₂ : Call)
    (before between : List Call)
    (hcalls : e₂ :: (between ++ e₁ :: before) <:+ (run c s commands).calls)
    (hreset : ∀ e ∈ between, e.command ≠ .reset) :
    (e₁.command = .query .nanos → e₂.command = .query .nanos → ∃ n₁ n₂,
      e₁.answer = .ok (.count n₁) ∧ e₂.answer = .ok (.count n₂) ∧ 0 ≤ n₁ ∧ n₁ ≤ n₂ ∧
      (∀ r₁, latest? (e₁ :: before) = some r₁ →
        ∃ r₂, latest? (e₂ :: (between ++ e₁ :: before)) = some r₂ ∧ n₂ - n₁ ≤ r₂ - r₁) ∧
      (latest? (e₁ :: before) = none → n₁ = 0 ∧
        (latest? (e₂ :: (between ++ e₁ :: before)) = none → n₂ = 0) ∧
        ∀ first last, earliest? (e₂ :: (between ++ e₁ :: before)) = some first →
          latest? (e₂ :: (between ++ e₁ :: before)) = some last → n₂ ≤ last - first)) ∧
    (∀ u, e₁.command = .query (.whole u) → e₂.command = .query (.whole u) → ∃ n₁ n₂,
      e₁.answer = .ok (.count n₁) ∧ e₂.answer = .ok (.count n₂) ∧ 0 ≤ n₁ ∧ n₁ ≤ n₂) ∧
    (∀ d₂, e₁.command = .query .duration → e₂.command = .query .duration →
      e₂.answer = .ok (.duration d₂) → ∃ d₁, e₁.answer = .ok (.duration d₁) ∧
        0 ≤ d₁.toMicroseconds ∧ d₁.toMicroseconds ≤ d₂.toMicroseconds) := by
  have hrising : ∀ e rest, e :: rest <:+ e₂ :: (between ++ e₁ :: before) → Rising rest e :=
    fun e rest h => (run_steady hc commands).rising e rest (h.trans hcalls)
  have hlater := hrising e₂ _ List.suffix_rfl
  have hearlier : ∀ e rest, e :: rest <:+ e₁ :: before → Rising rest e := fun e rest h =>
    hrising e rest ((h.trans (List.suffix_append between _)).trans (List.suffix_cons e₂ _))
  have hfirst := hearlier e₁ _ List.suffix_rfl
  have hnonneg := measured_nonneg (settled_of_rising hearlier)
  have hgrown : ∀ q, e₂.command = .query q →
      Grown (e₁ :: before) (e₂ :: (between ++ e₁ :: before)) := by
    intro q hq
    have hnoreset : ∀ e ∈ e₂ :: between, e.command ≠ .reset := by simpa [hq] using hreset
    exact grown_append hrising hnoreset
  refine ⟨?_, ?_, ?_⟩
  · intro h₁ h₂
    obtain ⟨_, hanswer₁⟩ := query_reports hfirst h₁
    obtain ⟨_, hanswer₂⟩ := query_reports hlater h₂
    have h := hgrown _ h₂
    refine ⟨_, _, hanswer₁, hanswer₂, hnonneg, h.le, h.read, fun hnone => ⟨?_, h.unread hnone⟩⟩
    exact measured_of_unread (settled_of_rising hearlier) hnone
  · intro u h₁ h₂
    obtain ⟨_, hanswer₁⟩ := query_reports hfirst h₁
    obtain ⟨_, hanswer₂⟩ := query_reports hlater h₂
    exact ⟨_, _, hanswer₁, hanswer₂, u.whole_nonneg hnonneg, u.whole_mono (hgrown _ h₂).le⟩
  · intro d₂ h₁ h₂ hd
    obtain ⟨_, hanswer₁⟩ := query_reports hfirst h₁
    obtain ⟨_, hanswer₂⟩ := query_reports hlater h₂
    rw [hanswer₂, report_duration_iff] at hd
    obtain ⟨d₁, hd₁, hpos, hle⟩ := Elapsed.duration_mono hnonneg (hgrown _ h₂).le hd
    exact ⟨d₁, by rw [hanswer₁, report_duration_iff, hd₁], hpos, hle⟩

def threeStep : Clock ℤ where
  read s := (.ok s, s + 3)

theorem threeStep_rises (s : ℤ) : threeStep.Rises s := by
  intro k
  refine ⟨_, _, rfl, rfl, ?_⟩
  rw [Function.iterate_succ_apply']
  change threeStep.next^[k] s ≤ threeStep.next^[k] s + 3
  omega

/-- Three nanoseconds at the first query and nine at the second, in another
    segment, while the readings went from 13 to 22. -/
theorem run_query_mono_threeStep :
    (run threeStep 10 [.start, .query .nanos, .stop, .start, .query .nanos]).calls =
      [⟨.query .nanos, [.ok 22], .ok (.count 9)⟩, ⟨.start, [.ok 19], .ok .done⟩,
        ⟨.stop, [.ok 16], .ok .done⟩, ⟨.query .nanos, [.ok 13], .ok (.count 3)⟩,
        ⟨.start, [.ok 10], .ok .done⟩] ∧
      (0 : ℤ) ≤ 3 ∧ (3 : ℤ) ≤ 9 ∧ (9 : ℤ) - 3 ≤ 22 - 13 := by
  have hcalls : (run threeStep 10 [.start, .query .nanos, .stop, .start, .query .nanos]).calls =
      [⟨.query .nanos, [.ok 22], .ok (.count 9)⟩, ⟨.start, [.ok 19], .ok .done⟩,
        ⟨.stop, [.ok 16], .ok .done⟩, ⟨.query .nanos, [.ok 13], .ok (.count 3)⟩,
        ⟨.start, [.ok 10], .ok .done⟩] := rfl
  obtain ⟨hnanos, _⟩ := run_query_mono (threeStep_rises 10)
    [.start, .query .nanos, .stop, .start, .query .nanos] ⟨.query .nanos, [.ok 13], .ok (.count 3)⟩
    ⟨.query .nanos, [.ok 22], .ok (.count 9)⟩ [⟨.start, [.ok 10], .ok .done⟩]
    [⟨.start, [.ok 19], .ok .done⟩, ⟨.stop, [.ok 16], .ok .done⟩] (hcalls ▸ List.suffix_rfl) (by simp)
  obtain ⟨n₁, n₂, h₁, h₂, hpos, hle, hread, _⟩ := hnanos rfl rfl
  cases h₁
  cases h₂
  obtain ⟨r₂, hr₂, hbound⟩ := hread 13 rfl
  cases hr₂
  exact ⟨hcalls, hpos, hle, hbound⟩

end Stopwatch
end Chronograph
