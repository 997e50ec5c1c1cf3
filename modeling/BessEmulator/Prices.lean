import BessEmulator.Bisect
import BessEmulator.DayPlan
import BessEmulator.ReferenceYear
import BessEmulator.Traits

/-!
# The price year

Hourly prices with a table of the hours local days start at, the planner over
it, and the bench's period label. Where the code would index out of range,
subtract below zero, divide by zero or shift by a word's width there is no
answer.
-/
namespace Bess

def checkDayLengths : Nat → List Nat → Except String Unit
  | d, first :: second :: rest =>
    let len := second - first
    if 23 ≤ len ∧ len ≤ 25 then checkDayLengths (d + 1) (second :: rest)
    else .error s!"local day {d} is {len} hours long"
  | _, _ => .ok ()

/-- The table starts at 0, ends at `hours`, and every day has 23 to 25 hours. -/
def checkDayStarts (dayStarts : List Nat) (hours : Nat) : Except String Unit :=
  match dayStarts.head?, dayStarts.getLast? with
  | some first, some last =>
    if first ≠ 0 ∨ last ≠ hours then
      .error s!"day table spans {first}..{last}, series has {hours} hours"
    else checkDayLengths 0 dayStarts
  | _, _ => .error "day table is empty"

/-- One price year: hourly prices and a local-day table that describes them. -/
structure PriceYear (P : Type) where
  year : Nat
  startOffsetH : Int
  eurMwh : List P
  dayStarts : List Nat
  described : checkDayStarts dayStarts eurMwh.length = .ok ()

/-- `start..end` of a list; none when it does not lie in the list. -/
def sliceAt {α : Type} (xs : List α) (hours : Nat × Nat) : Option (List α) :=
  if hours.1 ≤ hours.2 ∧ hours.2 ≤ xs.length then
    some ((xs.drop hours.1).take (hours.2 - hours.1))
  else none

/-- `usize` subtraction. -/
def checkedSub (a b : Nat) : Option Nat := if b ≤ a then some (a - b) else none

namespace PriceYear

variable {P : Type}

def fromParts (year : Nat) (startOffsetH : Int) (eurMwh : List P) (dayStarts : List Nat) :
    Except String (PriceYear P) :=
  match h : checkDayStarts dayStarts eurMwh.length with
  | .ok () => .ok ⟨year, startOffsetH, eurMwh, dayStarts, h⟩
  | .error e => .error e

/-- Number of hourly prices. -/
def len (y : PriceYear P) : Nat := y.eurMwh.length

/-- Number of local days. -/
def days (y : PriceYear P) : Nat := y.dayStarts.length - 1

/-- The series index that a UTC reference hour reads. -/
def indexAtUtcHour (y : PriceYear P) (utcHour : Nat) : Option Nat :=
  if y.len = 0 then none else some ((utcHour + y.startOffsetH) % y.len).toNat

/-- The local day an hour belongs to. -/
def dayOf (y : PriceYear P) (idx : Nat) : Option Nat :=
  if idx < y.len then checkedSub (Bisect.partitionPoint (fun s => s ≤ idx) y.dayStarts) 1
  else none

/-- The hour indices of a local day, from the first up to the second. -/
def dayHours (y : PriceYear P) (d : Nat) : Option (Nat × Nat) :=
  match y.dayStarts[d]?, y.dayStarts[d + 1]? with
  | some first, some second => some (first, second)
  | _, _ => none

/-- The local day of an hour and its slot of that day, as the planner and the
bench both look it up. -/
def slotOf (y : PriceYear P) (idx : Nat) : Option (Nat × Nat) :=
  (y.dayOf idx).bind fun day =>
    (y.dayHours day).bind fun hours =>
      (checkedSub idx hours.1).map fun slot => (day, slot)

/-- The index a timestamp reads. -/
def indexAt (y : PriceYear P) (unixTimeS : Int) : Option Nat :=
  y.indexAtUtcHour (referenceHour unixTimeS y.year)

end PriceYear

/-- One plan a local day, made at construction. -/
structure DayAheadEms (F P : Type) where
  powerW : F
  prices : PriceYear P
  plans : List DayPlan

namespace DayAheadEms

variable {F P : Type}

def planDay [LinearOrder P] (prices : PriceYear P) (chargeHours dischargeHours d : Nat) : Option DayPlan :=
  (prices.dayHours d).bind fun hours =>
    (sliceAt prices.eurMwh hours).bind fun day => DayPlan.rank day chargeHours dischargeHours

def fromPriceYear [LinearOrder P] (prices : PriceYear P) (powerW : F)
    (chargeHours dischargeHours : Nat) : Option (DayAheadEms F P) :=
  ((List.range prices.days).mapM (planDay prices chargeHours dischargeHours)).map fun plans =>
    { powerW, prices, plans }

variable [Scalar F]

/-- What the plan asks for in an hour of the series. -/
def targetAt (ems : DayAheadEms F P) (idx : Nat) : Option F :=
  (ems.prices.slotOf idx).bind fun at_ =>
    ems.plans[at_.1]?.bind fun plan =>
      (plan.charges at_.2).bind fun charges =>
        if charges then some (-ems.powerW)
        else (plan.discharges at_.2).map fun discharges => if discharges then ems.powerW else 0

def siteTargetW (ems : DayAheadEms F P) (unixTimeS : Int) : Option F :=
  (ems.prices.indexAt unixTimeS).bind ems.targetAt

/-- The planner as the kernel's layer; zero stands where the code would panic. -/
def emsStrategy (ems : DayAheadEms F P) : EmsStrategy F :=
  ⟨fun unixTimeS _ => (ems.siteTargetW unixTimeS).getD 0⟩

end DayAheadEms

/-- The local day and quarter a period settles in. -/
def label {P : Type} (year : PriceYear P) (startUnixS : Int) : Option (Nat × Nat) :=
  (year.indexAt startUnixS).bind fun idx =>
    (year.slotOf idx).map fun at_ =>
      let quarterOfHour := (startUnixS % 3600).tdiv RevenueMeter.PERIOD_S
      (at_.1, at_.2 * 4 + quarterOfHour.toNat)

end Bess
