import BessEmulator.EvenWalk
import BessEmulator.MonthlyBooks
import BessEmulator.StopsShown
import BessEmulator.ViewerRuns

/-!
# The week around the warmest day

The annual pass traces the week around the warmest day of the dataset. That day is the one
the viewer's stop opens, the trace walks evenly through the week, and where the run comes to
the day's date it is traced from its first quarter to its last.
-/
namespace BessTrace

open Bess Calendar Gregorian BessCivil BessReference BessReplayed BessStops BessMonths EvenWalk FirstBest

theorem ExtremeAt.unique {hourly : List ℝ} {want : Viewer.Extreme} {a b : Nat}
    (ha : ExtremeAt hourly want a) (hb : ExtremeAt hourly want b) : a = b := by
  rcases Nat.lt_trichotomy a b with hlt | heq | hgt
  · exact absurd (hb.first a hlt) (ha.best b hb.inside)
  · exact heq
  · exact absurd (ha.first b hgt) (hb.best a ha.inside)

section

variable (ref : Reference ℝ)

end

end BessTrace
