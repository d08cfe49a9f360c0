set_option autoImplicit false

/-!
# Loggers

Records are entered under loggers. One is the library's own; the others are told
apart by name. A dotted name stands below the names that end before its dots,
where of two dots side by side only the second counts once it was reached. So
the names above a name need not hold those above the nearest of them. Main
statement: the loggers above another have shorter names, so that none is above
itself.
-/
namespace Chronograph

inductive Logger
  | own
  | named (name : String)
  deriving Repr, DecidableEq

namespace Logger

def ownName : String := "default"

def name : Logger → String
  | own => ownName
  | named name => name

def ofName (name : String) : Logger := if name = ownName then own else named name

/-- What is left of a name, given backwards, at its dots, the last dot first; the
    character before a dot is not looked at again. -/
def stems : List Char → List (List Char)
  | [] => []
  | [c] => if c = '.' then [[]] else []
  | c :: d :: rest => if c = '.' then (d :: rest) :: stems rest else stems (d :: rest)

/-- The loggers above this one, the nearest first. The library's own stands apart. -/
def above : Logger → List Logger
  | own => []
  | named name => (stems name.toList.reverse).map fun stem => named (String.ofList stem.reverse)

theorem length_lt_of_mem_stems (backwards stem : List Char) (h : stem ∈ stems backwards) :
    stem.length < backwards.length := by
  fun_induction stems backwards with
  | case1 => exact absurd h List.not_mem_nil
  | case2 =>
    rw [List.mem_singleton.mp h]
    exact Nat.zero_lt_one
  | case3 => exact absurd h List.not_mem_nil
  | case4 d rest ih =>
    rcases List.mem_cons.mp h with h | h
    · subst h
      exact Nat.lt_succ_self _
    · exact Nat.lt_succ_of_lt (Nat.lt_succ_of_lt (ih h))
  | case5 c d rest _ ih => exact Nat.lt_succ_of_lt (ih h)

theorem not_mem_above (l : Logger) : l ∉ l.above := by
  cases l with
  | own => exact List.not_mem_nil
  | named name =>
    intro h
    obtain ⟨stem, hm, he⟩ := List.mem_map.mp h
    have hl := length_lt_of_mem_stems _ stem hm
    have hn : String.ofList stem.reverse = name := Logger.named.inj he
    subst hn
    simp at hl

end Logger
end Chronograph
