import BessEmulator.Word64

/-!
# ISO 8601 durations

The subset a scenario needs: `PnW`, or `PnD` followed by `T` and any of `nH`,
`nM`, `nS`, in whole seconds. Months and years are refused, weeks stand alone.
-/
namespace Bess

inductive DurationError where
  | missingP (text : String)
  | negative (text : String)
  | fraction (text : String)
  | monthsOrYears (text : String)
  | missingT (text : String)
  | weeksCombined (text : String)
  | empty (text : String)
  | malformed (text : String)
  | overflow (text : String)
  deriving DecidableEq, Repr

namespace Duration

/-- Units a date part may name, in order, each with its seconds. -/
def DATE_UNITS : List (Char × Nat) := [('W', 604800), ('D', 86400)]

def TIME_UNITS : List (Char × Nat) := [('H', 3600), ('M', 60), ('S', 1)]

/-- One part, read left to right: `units` are those that may still come,
`digits` those read since the last one. -/
def add (text : String) : List Char → List (Char × Nat) → List Char → Nat →
    Except DurationError Nat
  | [], _, digits, total => if digits.isEmpty then .ok total else .error (.malformed text)
  | c :: part, units, digits, total =>
    if c.isDigit then add text part units (digits ++ [c]) total
    else
      match units.dropWhile fun u => u.1 ≠ c with
      | [] => .error (.malformed text)
      | (_, scale) :: units =>
        if digits.isEmpty then .error (.malformed text)
        else
          match U64.ofDigits digits with
          | none => .error (.overflow text)
          | some n =>
            match (U64.checkedMul n scale).bind (U64.checkedAdd total) with
            | none => .error (.overflow text)
            | some total => add text part units [] total

/-- What follows the `P`: a date part, and a time part behind a `T`. -/
def parseRest (text : String) (rest : List Char) : Except DurationError Nat :=
  let date := rest.takeWhile fun c => c ≠ 'T'
  let time := (rest.dropWhile fun c => c ≠ 'T').tail?
  if rest.any fun c => c = '.' ∨ c = ',' then .error (.fraction text)
  else if date.any fun c => c = 'Y' ∨ c = 'M' then .error (.monthsOrYears text)
  else if date.any fun c => c = 'H' ∨ c = 'S' then .error (.missingT text)
  else if date.contains 'W' && (date.contains 'D' || time.isSome) then .error (.weeksCombined text)
  else if date.isEmpty && time.all List.isEmpty then .error (.empty text)
  else if time = some [] then .error (.malformed text)
  else
    match add text date DATE_UNITS [] 0 with
    | .error e => .error e
    | .ok total =>
      match time with
      | none => .ok total
      | some time => add text time TIME_UNITS [] total

/-- `duration::parse`: a duration in whole seconds. -/
def parse (text : String) : Except DurationError Nat :=
  match text.toList with
  | '-' :: _ => .error (.negative text)
  | 'P' :: rest => parseRest text rest
  | _ => .error (.missingP text)

/-- Whatever a part adds, the total stays a word. -/
theorem add_lt {text : String} {part : List Char} {units : List (Char × Nat)}
    {digits : List Char} {total s : Nat} (ht : total < U64.SIZE)
    (h : add text part units digits total = .ok s) : s < U64.SIZE := by
  induction part generalizing units digits total with
  | nil =>
    rw [add] at h
    split at h
    · cases h
      exact ht
    · cases h
  | cons c part ih =>
    rw [add] at h
    split at h
    · exact ih ht h
    · split at h
      · cases h
      · split at h
        · cases h
        · split at h
          · cases h
          · split at h
            · cases h
            · rename_i hsum
              obtain ⟨m, -, hadd⟩ := Option.bind_eq_some_iff.mp hsum
              exact ih (U64.checked_lt hadd) h

theorem parse_lt {text : String} {s : Nat} (h : parse text = .ok s) : s < U64.SIZE := by
  rw [parse] at h
  split at h
  · cases h
  · dsimp only [parseRest] at h
    split_ifs at h
    split at h
    · cases h
    · rename_i hdate
      have hfits := add_lt U64.size_pos hdate
      split at h
      · cases h
        exact hfits
      · exact add_lt hfits h
  · cases h

example : parse "P9DT6H" = .ok (9 * 86400 + 6 * 3600) := by decide

end Duration

end Bess
