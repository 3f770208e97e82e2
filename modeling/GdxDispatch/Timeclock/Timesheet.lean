import GdxDispatch.Core.PayPeriods
import GdxDispatch.Timeclock.Entries

/-! Timesheets of a pay period (`core/timesheet_hours.py`).

    Breaks have a table of their own and no link to a shift, so an ended break is given to the first shift of its person
    whose window holds its start. A timesheet reads the entries of the period's days in UTC and one day more on each side,
    and keeps those of the shop's own days. -/

namespace Gdx.Timeclock

open Lib PayPeriods

/-! ### Breaks -/

/-- A row of the breaks table. Starts are the server's own clock, and an ended break's minutes are never negative. -/
structure TimeclockBreak where
  userId : Text
  timeEntryId : Option ℕ
  startedAt : ℤ
  durationMinutes : Option ℕ
  deriving DecidableEq

def isTimeOff (entryType : EntryType) : Bool := entryType = .timeOff

/-- `min` and `max` of texts. -/
def leastText : List Text → Option Text
  | [] => none
  | t :: ts => some (ts.foldl (fun best s => if s < best then s else best) t)

def greatestText : List Text → Option Text
  | [] => none
  | t :: ts => some (ts.foldl (fun best s => if best < s then s else best) t)

/-- `date(started_at)`, as text. -/
def TimeclockBreak.startDate (b : TimeclockBreak) : Text := (isoformat (utcDay b.startedAt)).toList

/-- The dates between which breaks are read, from the least and the greatest of the entries' texts. -/
def inSpan (entries : List TimeclockEntry) (windowHi : Option Text) (now : ℤ) (b : TimeclockBreak) : Bool :=
  let lo := leastText (entries.map fun e => e.clockInAt.text)
  let hi := greatestText (entries.map fun e =>
    match e.clockOutAt with
    | some out => out.text
    | none => windowHi.getD (utcStamp now).text)
  match lo, hi with
  | some lo, some hi => !(b.startDate < lo.take 10) && !(hi.take 10 < b.startDate)
  | _, _ => true

/-- The end of a shift's window: an open shift runs until now. -/
def TimeclockEntry.windowEnd (e : TimeclockEntry) (now : ℤ) : ℤ := (e.clockOutAt.map asAware).getD now

/-- A break that started inside the shift's window. -/
def TimeclockEntry.covers (e : TimeclockEntry) (now : ℤ) (b : TimeclockBreak) : Bool :=
  e.technicianId = b.userId && asAware e.clockInAt ≤ b.startedAt && b.startedAt ≤ e.windowEnd now

/-- The shift a break comes off: the linked one, or the first whose window holds it. -/
def breakTarget (shifts : List TimeclockEntry) (now : ℤ) (b : TimeclockBreak) : Option ℕ :=
  match b.timeEntryId.filter fun id => shifts.any (·.id = id) with
  | some id => some id
  | none => (shifts.find? fun e => e.covers now b).map (·.id)

/-- `break_minutes_by_entry`, the dict read with 0 for a missing entry. -/
def breakMinutesByEntry (entries : List TimeclockEntry) (breaks : List TimeclockBreak) (windowHi : Option Text)
    (now : ℤ) (id : ℕ) : ℕ :=
  let shifts := entries.filter fun e => !isTimeOff e.entryType
  let techIds := (shifts.map (·.technicianId)).filter (· ≠ [])
  let rows := breaks.filter fun b =>
    techIds.contains b.userId && b.durationMinutes.isSome && inSpan shifts windowHi now b
  ((rows.filter fun b => breakTarget shifts now b = some id).map fun b => b.durationMinutes.getD 0).sum

/-! ### The timesheet -/

def IMPLAUSIBLE_SHIFT_MINUTES : ℤ := MAX_SHIFT_MINUTES

def FLAG_OPEN : String := "open_shift"
def FLAG_UNKNOWN : String := "unknown_duration"
def FLAG_IMPLAUSIBLE : String := "implausible"

/-- The one reason a shift needs a look. -/
def flagFor (clockOut : Option Stamp) (minutes : Option ℤ) (clockIn : Stamp) (now : ℤ) : Option String :=
  match clockOut with
  | none => if MAX_SHIFT_MINUTES * MINUTE < now - asAware clockIn then some FLAG_OPEN else none
  | some _ =>
    match minutes with
    | none => some FLAG_UNKNOWN
    | some m => if IMPLAUSIBLE_SHIFT_MINUTES < m then some FLAG_IMPLAUSIBLE else none

/-- One clock entry in its shop day. -/
structure Shift where
  entryId : ℕ
  day : ℤ
  clockIn : Text
  clockOut : Option Text
  minutes : Option ℤ
  breakMinutes : ℕ
  entryType : EntryType
  notes : Option Text
  flag : Option String
  deriving DecidableEq

structure Timecard where
  techId : Text
  name : Text
  shifts : List Shift
  deriving DecidableEq

structure PeriodTimesheet where
  period : PayPeriod
  timezone : Text
  timecards : List Timecard
  timeOffCountsTowardOvertime : Bool
  deriving DecidableEq

/-- `_ROW_CAP`: the most entries one timesheet reads. -/
def ROW_CAP : ℕ := 5000

/-- `_short_id`. -/
def shortId (techId : Text) : Text := "Unknown (".toList ++ techId.take 8 ++ "…)".toList

/-- What a timesheet is asked for. Flags are read at `now`, by default the clock's own time. -/
structure TimesheetRequest where
  period : PayPeriod
  tzName : Text
  zone : ShopZone
  names : Text → Option Text
  techId : Option Text
  now : Option ℤ
  clock : ℤ
  timeOffCountsTowardOvertime : Bool
  lower : Text → Text

namespace TimesheetRequest
variable (r : TimesheetRequest)

def loText : Text := (isoformat (r.period.start - 1)).toList

def hiText : Text := (isoformat (r.period.endDay + 2)).toList

/-- The request is for this technician, or for everyone. -/
def asksFor (e : TimeclockEntry) : Bool :=
  match r.techId with
  | none => true
  | some tech => tech.isEmpty || e.technicianId = tech

/-- The rows the query asks for, before its limit. -/
def wanted (e : TimeclockEntry) : Bool :=
  e.deletedAt.isNone && !(e.clockInAt.text < r.loText) && e.clockInAt.text < r.hiText && r.asksFor e

def rows (entries : List TimeclockEntry) : List TimeclockEntry :=
  ((entries.filter r.wanted).mergeSort fun a b => !(b.clockInAt.text < a.clockInAt.text)).take ROW_CAP

/-- The shop day of an entry's clock-in. -/
def shopDay (e : TimeclockEntry) : ℤ := r.zone.day (asAware e.clockInAt)

def kept (e : TimeclockEntry) : Bool := r.period.contains (r.shopDay e) && e.technicianId ≠ []

def shift (breakMinutes : ℕ → ℕ) (e : TimeclockEntry) : Shift where
  entryId := e.id
  day := r.shopDay e
  clockIn := e.clockInAt.text
  clockOut := e.clockOutAt.map Stamp.text
  minutes := e.minutes
  breakMinutes := breakMinutes e.id
  entryType := e.entryType
  notes := e.notes
  flag := flagFor e.clockOutAt e.minutes e.clockInAt (r.now.getD r.clock)

def newCard (techId : Text) : Timecard :=
  ⟨techId, ((r.names techId).filter (· ≠ [])).getD (shortId techId), []⟩

end TimesheetRequest

/-- `cards[tid].shifts.append`, on the card of the technician or a new one. -/
def addShift (fresh : Timecard) (shift : Shift) : List Timecard → List Timecard
  | [] => [{ fresh with shifts := fresh.shifts ++ [shift] }]
  | card :: cards =>
    if card.techId = fresh.techId then { card with shifts := card.shifts ++ [shift] } :: cards
    else card :: addShift fresh shift cards

/-- `build_timesheet`, without the vacation balances. -/
def buildTimesheet (r : TimesheetRequest) (entries : List TimeclockEntry) (breaks : List TimeclockBreak) :
    PeriodTimesheet :=
  let rows := r.rows entries
  let minutes := breakMinutesByEntry rows breaks (some r.hiText) r.clock
  let cards := (rows.filter r.kept).foldl (fun cards e => addShift (r.newCard e.technicianId) (r.shift minutes e) cards) []
  let key := fun c : Timecard => (r.lower c.name, c.techId)
  { period := r.period
    timezone := r.tzName
    timecards := cards.mergeSort fun a b =>
      (key a).1 < (key b).1 || ((key a).1 = (key b).1 && !((key b).2 < (key a).2))
    timeOffCountsTowardOvertime := r.timeOffCountsTowardOvertime }

def PeriodTimesheet.shifts (sheet : PeriodTimesheet) : List Shift := sheet.timecards.flatMap (·.shifts)

/-- How often an entry stands on a timesheet. -/
def PeriodTimesheet.timesFiled (sheet : PeriodTimesheet) (id : ℕ) : ℕ := (sheet.shifts.filter (·.entryId = id)).length

end Gdx.Timeclock
