set_option autoImplicit false

/-!
# Named things

A registry is a finite map, kept as the list of its entries in the order in
which their keys were first given. Main statements: what `get?` finds after an
`insert`, at the key and at every other one, and that putting what is there
changes nothing.
-/
namespace Chronograph

structure Registry (κ α : Type) where
  entries : List (κ × α) := []
  deriving Repr, DecidableEq

namespace Registry
variable {κ α : Type} [DecidableEq κ]

def empty : Registry κ α := ⟨[]⟩

def find (key : κ) : List (κ × α) → Option α
  | [] => none
  | (k, a) :: rest => if k = key then some a else find key rest

/-- An entry keeps its place when its value is replaced. -/
def place (key : κ) (a : α) : List (κ × α) → List (κ × α)
  | [] => [(key, a)]
  | (k, b) :: rest => if k = key then (key, a) :: rest else (k, b) :: place key a rest

def get? (r : Registry κ α) (key : κ) : Option α := find key r.entries

def insert (r : Registry κ α) (key : κ) (a : α) : Registry κ α := ⟨place key a r.entries⟩

theorem find_place_self (key : κ) (a : α) (entries : List (κ × α)) :
    find key (place key a entries) = some a := by
  induction entries with
  | nil => simp [place, find]
  | cons entry rest ih =>
    obtain ⟨k, b⟩ := entry
    by_cases h : k = key <;> simp [place, find, h, ih]

theorem find_place_of_ne (key other : κ) (h : key ≠ other) (a : α) (entries : List (κ × α)) :
    find other (place key a entries) = find other entries := by
  induction entries with
  | nil => simp [place, find, h]
  | cons entry rest ih =>
    obtain ⟨k, b⟩ := entry
    by_cases hk : k = key
    · subst k; simp [place, find, h]
    · simp [place, find, hk, ih]

@[simp] theorem get?_empty (key : κ) : (empty : Registry κ α).get? key = none := rfl

@[simp] theorem get?_insert_self (r : Registry κ α) (key : κ) (a : α) :
    (r.insert key a).get? key = some a := find_place_self key a r.entries

theorem get?_insert_of_ne (r : Registry κ α) (key other : κ) (h : key ≠ other) (a : α) :
    (r.insert key a).get? other = r.get? other := find_place_of_ne key other h a r.entries

theorem get?_insert (r : Registry κ α) (key other : κ) (a : α) :
    (r.insert key a).get? other = if key = other then some a else r.get? other := by
  split
  · rename_i h
    rw [← h, get?_insert_self]
  · rename_i h
    exact get?_insert_of_ne r key other h a

theorem place_of_find {key : κ} {a : α} {entries : List (κ × α)} (h : find key entries = some a) :
    place key a entries = entries := by
  induction entries with
  | nil => cases h
  | cons entry rest ih =>
    obtain ⟨k, b⟩ := entry
    by_cases hk : k = key
    · simp [find, hk] at h
      simp [place, hk, h]
    · simp [find, hk] at h
      simp [place, hk, ih h]

theorem insert_of_get? {r : Registry κ α} {key : κ} {a : α} (h : r.get? key = some a) :
    r.insert key a = r := congrArg Registry.mk (place_of_find h)

end Registry
end Chronograph
