import Mathlib
import Chronograph.Proofs.Script.Plan

set_option autoImplicit false

/-!
# Dressed plans

A plan is dressed by wrapping callables of it. A wrapper takes over the title of what
it wraps, so a measurement names the callable as before, unless the title is empty:
then it goes by the description, and a wrapper has one of its own. The journal of a
dressed plan has the records of the wrappers besides.
-/
namespace Chronograph

/-- The first list with entries of the `extra` kind put in, and the others replaced. -/
inductive Woven {α : Type} (extra : α → Prop) (same : α → α → Prop) : List α → List α → Prop
  | nil : Woven extra same [] []
  | keep {a b : α} (hab : same a b) {xs ys : List α} (h : Woven extra same xs ys) :
    Woven extra same (a :: xs) (b :: ys)
  | add {b : α} (hb : extra b) {xs ys : List α} (h : Woven extra same xs ys) :
    Woven extra same xs (b :: ys)

section
variable {α : Type} {extra : α → Prop} {same : α → α → Prop}

theorem woven_refl (hsame : ∀ a, same a a) (xs : List α) : Woven extra same xs xs := by
  induction xs with
  | nil => exact .nil
  | cons a rest ih => exact .keep (hsame a) ih

theorem woven_append {xs ys xs' ys' : List α} (h : Woven extra same xs ys)
    (h' : Woven extra same xs' ys') : Woven extra same (xs ++ xs') (ys ++ ys') := by
  induction h with
  | nil => exact h'
  | keep hab _ ih => exact .keep hab ih
  | add hb _ ih => exact .add hb ih

theorem exists_same_of_woven {xs ys : List α} (h : Woven extra same xs ys) :
    ∀ a ∈ xs, ∃ b ∈ ys, same a b := by
  induction h with
  | nil => exact fun _ ha => absurd ha List.not_mem_nil
  | keep hab _ ih =>
    intro a ha
    rcases List.mem_cons.mp ha with rfl | ha
    · exact ⟨_, List.mem_cons_self, hab⟩
    · obtain ⟨b, hb, hsame⟩ := ih a ha
      exact ⟨b, List.mem_cons_of_mem _ hb, hsame⟩
  | add _ _ ih =>
    intro a ha
    obtain ⟨b, hb, hsame⟩ := ih a ha
    exact ⟨b, List.mem_cons_of_mem _ hb, hsame⟩

end

namespace Journal
variable {extra : Record → Prop} {same : Record → Record → Prop} {j k : Journal} {r r' : Record}

theorem climb_of_levels (h : j.levels = k.levels) (steps : ℕ) (l : Logger) :
    j.climb steps l = k.climb steps l := by
  have hlevel : j.level = k.level := funext fun l => by rw [level, level, h]
  have hparent : j.parent? = k.parent? := funext fun l => by rw [parent?, parent?, h]
  induction steps generalizing l with
  | zero => rfl
  | succ steps ih => simp only [climb, hlevel, hparent, ih]

theorem keeps_of_levels (h : j.levels = k.levels) (hlogger : r.logger = r'.logger)
    (hlevel : r.level = r'.level) : j.keeps r = k.keeps r' := by
  rw [keeps, keeps, threshold, threshold, climb_of_levels h, hlogger, hlevel]

structure Padded (extra : Record → Prop) (same : Record → Record → Prop) (j k : Journal) : Prop where
  levels : j.levels = k.levels
  records : Woven extra same j.records k.records

/-- A record and the one in its place are kept or dropped together. -/
theorem padded_add_same (h : Padded extra same j k) (hsame : same r r') (hlogger : r.logger = r'.logger)
    (hlevel : r.level = r'.level) : Padded extra same (j.add r) (k.add r') := by
  refine ⟨by rw [add_levels, add_levels, h.levels], ?_⟩
  rw [add_records, add_records, keeps_of_levels h.levels hlogger hlevel]
  refine woven_append h.records ?_
  split
  · exact .keep hsame .nil
  · exact .nil

theorem padded_add_extra (h : Padded extra same j k) (hr : extra r) : Padded extra same j (k.add r) := by
  refine ⟨h.levels.trans (add_levels k r).symm, ?_⟩
  rw [add_records, ← List.append_nil j.records]
  refine woven_append h.records ?_
  split
  · exact .add hr .nil
  · exact .nil

theorem congruent_padded (extra : Record → Prop) (hsame : ∀ r, same r r) :
    Congruent (Padded extra same) where
  add r j k h := padded_add_same h (hsame r) rfl rfl
  mention l j k h := by
    unfold mention
    rw [h.levels]
    cases k.levels.get? l with
    | some level => exact h
    | none => exact ⟨congrArg (·.insert l ownLevel) h.levels, h.records⟩
  setLevel l level j k h := ⟨congrArg (·.insert l level) h.levels, h.records⟩

end Journal

namespace Script
variable {M V : Type} {timed : Label → Layer → Prop}

/-- More layers around a callable with that title. A layer is put in only around what has
    a title; each layer hands on the title inside it, or has one of its own. -/
inductive Layered (timed : Layer → Prop) : Option String → List Layer → List Layer → Prop
  | nil (title : Option String) : Layered timed title [] []
  | keep {title : Option String} (layer : Layer) {xs ys : List Layer}
    (h : Layered timed (some (title.getD Routine.wrapperTitle)) xs ys) :
    Layered timed title (layer :: xs) (layer :: ys)
  | add {title : Option String} (htitle : title.isSome) {layer : Layer} (hlayer : timed layer)
    {xs ys : List Layer} (h : Layered timed title xs ys) : Layered timed title xs (layer :: ys)

namespace Label

/-- What a measurement calls the callable. -/
def name (l : Label) : String := (l.routine (pure () : Task (Stage Unit) Unit)).name

/-- The same callable, with layers put in where `timed` allows. -/
structure Dressed (timed : Label → Layer → Prop) (l l' : Label) : Prop where
  title : l.title = l'.title
  description : l.description = l'.description
  layers : Layered (timed l) l.title l.layers l'.layers

theorem routine_name (l : Label) (run : Task (Stage M) V) : (l.routine run).name = l.name := by
  have hsame : (l.routine run).title = (l.routine (pure () : Task (Stage Unit) Unit)).title ∧
      (l.routine run).description = (l.routine (pure () : Task (Stage Unit) Unit)).description :=
    List.foldl_rel (r := fun (r : Routine (Stage M) V) (q : Routine (Stage Unit) Unit) =>
      r.title = q.title ∧ r.description = q.description) ⟨rfl, rfl⟩ fun layer _ r q hrq => by
        simp only [addLayer, Routine.logged_title, Routine.logged_description, hrq.1, and_self]
  unfold name Routine.name
  rw [hsame.1, hsame.2]

theorem title_layered {r : Routine (Stage M) V} {title : String} (h : r.title = some title)
    (layers : List Layer) : (layers.foldl addLayer r).title = some title :=
  List.foldlRecOn (motive := fun r : Routine (Stage M) V => r.title = some title) layers addLayer h
    fun r hr layer _ => by simp only [addLayer, Routine.logged_title, hr, Option.getD_some]

theorem name_of_title {r : Routine (Stage M) V} {title : String} (h : r.title = some title)
    (hne : title ≠ "") : r.name = title := by
  unfold Routine.name
  rw [h]
  exact if_neg hne

theorem name_of_untitled {l : Label} (h : l.title = none) {layer : Layer} {rest : List Layer}
    (hlayers : l.layers = layer :: rest) : l.name = Routine.wrapperTitle := by
  unfold name routine
  rw [hlayers, List.foldl_cons]
  refine name_of_title (title_layered ?_ rest) (by decide)
  simp only [addLayer, Routine.logged_title, h, Option.getD_none]

theorem Dressed.name {l l' : Label} (h : l.Dressed timed l') (hne : l.title ≠ some "") :
    l.name = l'.name := by
  have hlayers := h.layers
  cases htitle : l.title with
  | some title =>
    have hname : title ≠ "" := fun he => hne (htitle.trans (congrArg some he))
    have hleft : l.name = title := name_of_title (title_layered htitle l.layers) hname
    have hright : l'.name = title :=
      name_of_title (title_layered (h.title.symm.trans htitle) l'.layers) hname
    rw [hleft, hright]
  | none =>
    rw [htitle] at hlayers
    generalize hxs : l.layers = xs at hlayers
    generalize hys : l'.layers = ys at hlayers
    cases hlayers with
    | nil =>
      unfold Label.name routine
      rw [hxs, hys, h.title, h.description]
    | keep layer hrest =>
      rw [name_of_untitled htitle hxs, name_of_untitled (h.title.symm.trans htitle) hys]
    | add hsome => cases hsome

end Label

/-- The same plan, with callables that are dressed. -/
inductive Plan.Dressed (timed : Label → Layer → Prop) : Plan M V → Plan M V → Prop
  | ends (outcome : Except Raised V) : Dressed timed (.ends outcome) (.ends outcome)
  | occur (e : Fault) {next next' : Failure → Plan M V} (h : ∀ f, Dressed timed (next f) (next' f)) :
    Dressed timed (.occur e next) (.occur e next')
  | operate (op : Operation) {next next' : Except Raised Reply → Plan M V}
    (h : ∀ r, Dressed timed (next r) (next' r)) : Dressed timed (.operate op next) (.operate op next')
  | during (watch : String) {body body' : Plan M V} {next next' : Except Raised V → Plan M V}
    (hbody : Dressed timed body body') (h : ∀ r, Dressed timed (next r) (next' r)) :
    Dressed timed (.during watch body next) (.during watch body' next')
  | call {label label' : Label} (hlabel : label.Dressed timed label') {body body' : Plan M V}
    {next next' : Except Raised V → Plan M V} (hbody : Dressed timed body body')
    (h : ∀ r, Dressed timed (next r) (next' r)) :
    Dressed timed (.call label body next) (.call label' body' next')
  | measure (method : Method) (clock : ClockId) {label label' : Label}
    (hlabel : label.Dressed timed label') {body body' : Plan M V}
    {next next' : Except Raised (Reported V) → Plan M V} (hbody : Dressed timed body body')
    (h : ∀ r, Dressed timed (next r) (next' r)) :
    Dressed timed (.measure method clock label body next) (.measure method clock label' body' next')
  | setLevel (logger : Logger) (level : Int) {next next' : Plan M V} (h : Dressed timed next next') :
    Dressed timed (.setLevel logger level next) (.setLevel logger level next')
  | mention (logger : Logger) {next next' : Plan M V} (h : Dressed timed next next') :
    Dressed timed (.mention logger next) (.mention logger next')
  | find (name : Option String) {next next' : Option ClockId → Plan M V}
    (h : ∀ k, Dressed timed (next k) (next' k)) : Dressed timed (.find name next) (.find name next')
  | revise (change : M → M) {next next' : M → Plan M V} (h : ∀ m, Dressed timed (next m) (next' m)) :
    Dressed timed (.revise change next) (.revise change next')

/-- What is entered when one of the calls is timed. -/
inductive Noted (timed : Label → Layer → Prop) (calls : List (Label × Bench)) : Record → Prop
  | mk {label : Label} {bench : Bench} {layer : Layer} {text : String} {n : ℤ}
    (failedWith : Option String) (hcalled : (label, bench) ∈ calls) (htimed : timed label layer)
    (htext : Elapsed.text n = .ok text) :
    Noted timed calls ⟨layer.entry.logger, layer.entry.level,
      label.title.getD Routine.wrapperTitle, failedWith, text⟩

/-- The same record, unless it is of a measurement of a callable with an empty title: that
    one may be named by the description of its wrapper. -/
inductive Renamed (timed : Label → Layer → Prop) (calls : List (Label × Bench)) : Record → Record → Prop
  | same (r : Record) : Renamed timed calls r r
  | wrapped {label label' : Label} {bench : Bench} (hcalled : (label, bench) ∈ calls)
    (htitle : label.title = some "") (hlabel : label.Dressed timed label')
    (failedWith : Option String) (text : String) : Renamed timed calls
      ⟨.own, Journal.ownLevel, label.name, failedWith, text⟩
      ⟨.own, Journal.ownLevel, label'.name, failedWith, text⟩

abbrev Retold (timed : Label → Layer → Prop) (calls : List (Label × Bench)) :
    Journal → Journal → Prop :=
  Journal.Padded (Noted timed calls) (Renamed timed calls)

variable {calls : List (Label × Bench)}

theorem congruent_retold : Journal.Congruent (Retold timed calls) :=
  Journal.congruent_padded _ .same

theorem Label.Dressed.interchanges {label label' : Label} {bench : Bench}
    (h : label.Dressed timed label') (hcalled : (label, bench) ∈ calls) :
    Journal.Interchanges (Retold timed calls) label.name label'.name := by
  by_cases htitle : label.title = some ""
  · exact fun failedWith text j k hjk =>
      Journal.padded_add_same hjk (.wrapped hcalled htitle h failedWith text) rfl rfl
  · rw [← h.name htitle]
    exact congruent_retold.interchanges label.name

end Script
end Chronograph
