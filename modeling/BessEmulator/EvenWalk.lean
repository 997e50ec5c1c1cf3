import Mathlib.Tactic

/-!
# An even walk

A clock that moves on by one, read where a whole number of intervals has passed since a
window opened: the readings walk through the window at that interval.
-/
namespace EvenWalk

/-- A time at which the clock is read. -/
def Due (window : Int × Int) (interval t : Int) : Prop :=
  window.1 ≤ t ∧ t ≤ window.2 ∧ (t - window.1) % interval = 0

instance (window : Int × Int) (interval : Int) : DecidablePred (Due window interval) :=
  fun t => inferInstanceAs (Decidable (window.1 ≤ t ∧ t ≤ window.2 ∧ (t - window.1) % interval = 0))

variable {start interval : Int} {window : Int × Int}

end EvenWalk
