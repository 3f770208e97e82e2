import GdxDispatch.Core.Calendar
import GdxDispatch.Forecasting.ObservedRecurring

/-! Forward projection of overhead: `services/overhead_projection.py`.

    Each obligation is smoothed to an amount a month by its cadence, from its start to its end; a fixed number of payments
    gives the end by another table. Scheduled changes step the amount. Decimals are exact, days are day numbers and months
    are counted on one line. -/

namespace Gdx.Overhead

/-! ### Obligations -/

structure ScheduledChange where
  effectiveDate : Option ℤ
  amount : ℚ
  deriving DecidableEq

/-- What the projection reads of an `OverheadObligation`; a cadence is one of the column's enumeration. -/
structure OverheadObligation where
  id : ℕ
  label : String
  category : String
  amount : ℚ
  cadence : StreamCadence
  startDate : Option ℤ
  endDate : Option ℤ
  termTotalOccurrences : Option ℕ
  scheduledChanges : List ScheduledChange

/-- `_OCCURRENCES_PER_YEAR`. -/
def occurrencesPerYear : StreamCadence → ℚ
  | .weekly => 52
  | .biweekly => 26
  | .monthly => 12
  | .quarterly => 4
  | .semiannual => 2
  | .annual => 1

/-- `_MONTHS_PER_OCCURRENCE`: the cadences below a month round up to one. -/
def monthsPerOccurrence : StreamCadence → ℤ
  | .weekly => 1
  | .biweekly => 1
  | .monthly => 1
  | .quarterly => 3
  | .semiannual => 6
  | .annual => 12

/-- `_month_index`. -/
def monthIndex (year month : ℤ) : ℤ := year * 12 + (month - 1)

def addMonths (year month n : ℤ) : ℤ × ℤ :=
  let idx := monthIndex year month + n
  (idx / 12, idx % 12 + 1)

/-- `_month_index` of a day's year and month. -/
def dayMonth (day : ℤ) : ℤ := monthIndex (civil day).1 (civil day).2.1

def monthlyEquivalent (amount : ℚ) (cadence : StreamCadence) : ℚ := amount * occurrencesPerYear cadence / 12

/-- `effective_end_date`: the end date, else the month of the last payment of a fixed term. -/
def effectiveEndDate (ob : OverheadObligation) : Option ℤ :=
  match ob.endDate with
  | some day => some day
  | none =>
    match ob.termTotalOccurrences, ob.startDate with
    | some term, some start =>
      if term = 0 then none
      else
        let ym := addMonths (civil start).1 (civil start).2.1 (((term : ℤ) - 1) * monthsPerOccurrence ob.cadence)
        some (dayNumber ym.1 ym.2 1)
    | _, _ => none

/-- One change of the loop: it takes over when its month is not after the target and after the best one's. -/
def stepChange (target : ℤ) (best : Option ℤ × ℚ) (change : ScheduledChange) : Option ℤ × ℚ :=
  match change.effectiveDate with
  | none => best
  | some eff =>
    if dayMonth eff ≤ target ∧ best.1.all (fun b => decide (b < dayMonth eff)) = true then (some (dayMonth eff), change.amount)
    else best

/-- `_scheduled_amount`. -/
def scheduledAmount (ob : OverheadObligation) (year month : ℤ) : ℚ :=
  (ob.scheduledChanges.foldl (stepChange (monthIndex year month)) (none, ob.amount)).2

def isActiveInMonth (ob : OverheadObligation) (year month : ℤ) : Bool :=
  match ob.startDate with
  | none => false
  | some start =>
    dayMonth start ≤ monthIndex year month ∧
      (effectiveEndDate ob).all fun day => decide (monthIndex year month ≤ dayMonth day)

def amountForMonth (ob : OverheadObligation) (year month : ℤ) : ℚ :=
  if isActiveInMonth ob year month then monthlyEquivalent (scheduledAmount ob year month) ob.cadence else 0

/-! ### The projection -/

/-- `_q`: cents, a half away from zero. -/
def quantizeCents (v : ℚ) : ℤ := if 0 ≤ v * 100 then ⌊v * 100 + 1 / 2⌋ else -⌊-(v * 100) + 1 / 2⌋

/-- What one obligation adds to one month. -/
structure Line where
  id : ℕ
  label : String
  category : String
  amount : ℚ

/-- The amounts of a month, and which obligations they are of. -/
def monthLines (obligations : List OverheadObligation) (ym : ℤ × ℤ) : List Line :=
  obligations.map fun ob =>
    ⟨ob.id, ob.label, if ob.category = "" then "other" else ob.category, amountForMonth ob ym.1 ym.2⟩

structure MonthTotal where
  year : ℤ
  month : ℤ
  total : ℤ
  byCategory : List (String × ℤ)
  deriving DecidableEq

structure StepDown where
  year : ℤ
  month : ℤ
  drop : ℤ
  ended : List String
  deriving DecidableEq

structure Projection where
  months : List MonthTotal
  categories : List String
  stepDowns : List StepDown
  currentMonthlyTotal : ℤ
  horizonTotal : ℤ
  deriving DecidableEq

def counted (lines : List Line) : List Line := lines.filter fun l => l.amount ≠ 0

def sorted (names : List String) : List String := names.insertionSort (· ≤ ·)

def linesTotal (lines : List Line) : ℚ := ((counted lines).map Line.amount).sum

def monthTotal (ym : ℤ × ℤ) (lines : List Line) : MonthTotal where
  year := ym.1
  month := ym.2
  total := quantizeCents (linesTotal lines)
  byCategory := (sorted ((counted lines).map Line.category).dedup).map fun cat =>
    (cat, quantizeCents (((counted lines).filter fun l => l.category = cat).map Line.amount).sum)

/-- Where the total falls and some obligation of the month before is gone. -/
def stepDown (ym : ℤ × ℤ) (previous lines : List Line) : Option StepDown :=
  let ended := ((counted previous).map Line.id).filter fun id => id ∉ (counted lines).map Line.id
  if linesTotal lines < linesTotal previous ∧ ended ≠ [] then
    some ⟨ym.1, ym.2, quantizeCents (linesTotal previous - linesTotal lines),
      sorted ((lines.filter fun l => l.id ∈ ended).map Line.label)⟩
  else none

/-- What the months read, of lines month by month. -/
def projectLines (months : List ((ℤ × ℤ) × List Line)) : Projection :=
  let totals := months.map fun m => monthTotal m.1 m.2
  { months := totals
    categories := sorted (months.flatMap fun m => (counted m.2).map Line.category).dedup
    stepDowns := (months.zip months.tail).filterMap fun p => stepDown p.2.1 p.1.2 p.2.2
    currentMonthlyTotal := (totals.head?.map MonthTotal.total).getD 0
    horizonTotal := (totals.getLast?.map MonthTotal.total).getD 0 }

def project (obligations : List OverheadObligation) (anchorYear anchorMonth : ℤ) (horizonMonths : ℕ) : Projection :=
  projectLines ((List.range (max horizonMonths 1)).map fun offset =>
    let ym := addMonths anchorYear anchorMonth offset
    (ym, monthLines obligations ym))

end Gdx.Overhead
