import BessEmulator.Ranking

/-!
# One local day's dispatch plan

Prices are read in the total order of `total_cmp`. The plan is two words, a
bit a slot; a day of more than 32 slots is refused, a shift by 32 or more has
no answer.
-/
namespace Bess

/-- Charge and discharge hours of one local day, as bits over the day's slots. -/
structure DayPlan where
  charge : BitVec 32
  discharge : BitVec 32
  deriving DecidableEq

def bits {n : Nat} (slots : List (Fin n)) : BitVec 32 :=
  slots.foldl (fun acc s => acc ||| 1#32 <<< s.val) 0#32

section

variable {P : Type} [LinearOrder P]

/-- The comparator of the charge ranking. -/
def cheaper (prices : List P) (a b : Fin prices.length) : Ordering :=
  (compare (prices.get a) (prices.get b)).then (compare a.val b.val)

/-- The comparator of the discharge ranking. -/
def dearer (prices : List P) (a b : Fin prices.length) : Ordering :=
  (compare (prices.get b) (prices.get a)).then (compare a.val b.val)

/-- `sort_unstable_by`. A comparator that ties no two slots leaves it one answer. -/
def sortUnstableBy {α : Type} (compare : α → α → Ordering) (slots : List α) : List α :=
  slots.insertionSort fun a b => (compare a b).isLE

/-- Rank one day's prices: the cheapest slots charge, the dearest discharge. -/
def DayPlan.rank (prices : List P) (chargeHours dischargeHours : Nat) : Option DayPlan :=
  if prices.length ≤ 32 then
    let slots := List.finRange prices.length
    let slots := sortUnstableBy (cheaper prices) slots
    let charge := bits (slots.take chargeHours)
    let slots := sortUnstableBy (dearer prices) slots
    let discharge := bits (slots.take dischargeHours)
    some { charge, discharge }
  else none

end

/-- The bit of a word a shift brings down; a shift by its width or more panics. -/
def shifted (word : BitVec 32) (slot : Nat) : Option Bool :=
  if slot < 32 then some (word >>> slot &&& 1#32 = 1#32) else none

namespace DayPlan

/-- True when slot `slot` of the day charges. -/
def charges (plan : DayPlan) (slot : Nat) : Option Bool := shifted plan.charge slot

/-- True when slot `slot` of the day discharges. -/
def discharges (plan : DayPlan) (slot : Nat) : Option Bool := shifted plan.discharge slot

end DayPlan

end Bess
