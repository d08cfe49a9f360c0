import Chronograph.Binary64.Basic

set_option autoImplicit false

/-!
# The shortest decimal of a double

A decimal reads back as a double when that double is the nearest one to it. The
shortest decimal is sought with one digit, then with two, and so on: on each
decimal grid only the two multiples around the value can read back if any does.
Seventeen digits always suffice. The statements are about reading back only;
that no shorter decimal reads back rests on the order of the search.
-/
namespace Chronograph.Magnitude
open Rounding

/-- Of the two multiples of `unit` around `x` one that reads back as `rank`: the
    nearer if both do, and of two that are equally near the even multiple. -/
def closest? (rank : Nat) (x unit : Rat) : Option Rat :=
  let low := (x / unit).floor
  let below : Rat := low * unit
  let above : Rat := (low + 1 : Int) * unit
  if nearestRank below = rank then
    if nearestRank above = rank then
      if x - below < above - x then some below
      else if above - x < x - below then some above
      else if low % 2 = 0 then some below else some above
    else some below
  else if nearestRank above = rank then some above
  else none

/-- The decimal with the fewest digits that reads back as `m`, and of those the
    one closest to it. -/
def shortest (m : Magnitude) : Rat :=
  let x := m.value
  ((List.range 17).findSome? fun n : Nat => closest? m.rank x (power 10 (magnitude 10 x - n))).getD x

theorem nearestRank_of_closest? {rank : Nat} {x unit y : Rat}
    (h : closest? rank x unit = some y) : nearestRank y = rank := by
  unfold closest? at h
  dsimp only at h
  split at h
  · rename_i hb
    split at h
    · rename_i ha
      split at h
      · exact Option.some.inj h ▸ hb
      · split at h
        · exact Option.some.inj h ▸ ha
        · split at h
          · exact Option.some.inj h ▸ hb
          · exact Option.some.inj h ▸ ha
    · exact Option.some.inj h ▸ hb
  · split at h
    · rename_i ha
      exact Option.some.inj h ▸ ha
    · simp at h

end Chronograph.Magnitude
