set_option autoImplicit false

/-!
# Values

What the programs of a script are given and give back. Two values are the same
when their parts are: a truth value is the number one or zero, and the order of
a record's fields does not matter.
-/
namespace Chronograph.Script

inductive Value
  | null
  | truth (b : Bool)
  | number (n : Int)
  | text (s : String)
  | list (items : List Value)
  | record (fields : List (String × Value))
  deriving Inhabited

namespace Value

def number? : Value → Option Int
  | truth b => some (if b then 1 else 0)
  | number n => some n
  | _ => none

def field? (key : String) : List (String × Value) → Option Value
  | [] => none
  | (k, v) :: rest => if k = key then some v else field? key rest

mutual
def same : Value → Value → Bool
  | .null, .null => true
  | .text a, .text b => a == b
  | .list as, .list bs => sameItems as bs
  | .record as, .record bs => as.length == bs.length && sameFields as bs
  | a, b => match a.number?, b.number? with
    | some m, some n => m == n
    | _, _ => false
def sameItems : List Value → List Value → Bool
  | [], [] => true
  | a :: as, b :: bs => same a b && sameItems as bs
  | _, _ => false
/-- Each field on the left is there on the right, with the same value. -/
def sameFields : List (String × Value) → List (String × Value) → Bool
  | [], _ => true
  | (key, a) :: rest, bs => match field? key bs with
    | some b => same a b && sameFields rest bs
    | none => false
end

end Value
end Chronograph.Script
