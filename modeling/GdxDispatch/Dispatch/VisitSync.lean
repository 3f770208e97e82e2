import GdxDispatch.Core.ShopCalendar

/-! A job's visits: the pure planner.

    A visit is an appointment of a job. The four planners read visits as plain values and return the
    rows as the plan leaves them, with the actions that lead there, or a refusal.

        OPEN ──arrive──▶ ON SITE ──close──▶ CLOSED        Current = OPEN or ON SITE
          │                                               Live    = anything but CANCELLED
          └──cancel──▶ CANCELLED -/

namespace Gdx
open Lib

/-! ### Visits -/

/-- A stored row's id, or the key the planner gives a row it inserts. -/
inductive VisitId where
  | stored (id : ℕ)
  | new (n : ℕ)
  deriving DecidableEq, Repr

/-- `str(id)`. -/
def VisitId.text : VisitId → Text
  | .stored id => numeral id
  | .new n => "('new', ".toList ++ numeral n ++ ")".toList

structure VisitRow where
  id : VisitId
  techId : Option Text
  startAt : ℤ
  endAt : Option ℤ
  status : Option Text
  arrivedAt : Option ℤ
  title : Option Text
  customerId : Option ℕ
  customerName : Option Text
  deriving DecidableEq, Repr

inductive VisitState where
  | open | onSite | closed | cancelled
  deriving DecidableEq, Repr

/-- `(v.status or "").lower()`. -/
def lowerStatus (v : VisitRow) : Text := (v.status.getD []).map Char.toLower

def visitState (v : VisitRow) : VisitState :=
  if lowerStatus v = "completed".toList then .closed
  else if lowerStatus v = "cancelled".toList then (if v.arrivedAt.isSome then .closed else .cancelled)
  else if v.arrivedAt.isSome ∨ lowerStatus v = "arrived".toList then .onSite
  else .open

def isCurrent (v : VisitRow) : Bool := visitState v == .open || visitState v == .onSite

def isLive (v : VisitRow) : Bool := visitState v != .cancelled

/-- The shop day of the earliest Current visit. -/
def currentDay (z : ShopZone) (visits : List VisitRow) : Option ℤ :=
  (((visits.filter isCurrent).map (·.startAt)).min?).map z.day

/-! ### Actions, refusals, requests -/

/-- The visit fields a request carries; the outer `none` is an absent key. -/
structure VisitFields where
  title : Option (Option Text)
  customerId : Option (Option ℕ)
  customerName : Option (Option Text)
  deriving DecidableEq, Repr

def VisitFields.empty : VisitFields := ⟨none, none, none⟩

inductive VisitAction where
  | insert (key : VisitId) (techId : Option Text) (startAt endAt : ℤ) (reason : String)
  | move (visitId : VisitId) (startAt endAt : ℤ) (reason : String)
  | reassign (visitId : VisitId) (techId : Option Text) (reason : String)
  | retire (visitId : VisitId) (reason : String)
  | close (visitId : VisitId) (status : Text) (reason : String)
  | copyFields (visitId : VisitId) (changes : VisitFields)
  deriving DecidableEq, Repr

inductive RefusalCode where
  | needsAnswer | crewOnSite | ontoBookedDay | twoOpenVisits | doubleBooked | jobFinished | noDays
  | tooManyDays | pastDay | visitNotFound | visitNotOpen | badLength | lastOpenVisit
  deriving DecidableEq, Repr

structure RefusalDetail where
  question : Option String := none
  visitId : Option Text := none
  visitIds : List Text := []
  techIds : List (Option Text) := []
  day : Option String := none
  deriving DecidableEq, Repr

structure Refusal where
  code : RefusalCode
  message : String
  detail : RefusalDetail := {}
  deriving DecidableEq, Repr

/-- `if c: _refuse(...)`. -/
def refuseIf (c : Prop) [Decidable c] (refusal : Refusal) : Except Refusal Unit :=
  if c then .error refusal else .ok ()

theorem refuseIf_ok {c : Prop} [Decidable c] {refusal : Refusal} (h : refuseIf c refusal = .ok ()) : ¬ c := by
  unfold refuseIf at h
  split_ifs at h with hc
  exact hc

inductive JobState where
  | live | completed | cancelled
  deriving DecidableEq, Repr

def JobState.text : JobState → String
  | .live => "live"
  | .completed => "completed"
  | .cancelled => "cancelled"

def FINISHED_STAGES : List JobState := [.completed, .cancelled]

/-- One request against a job's visits. In `scheduledAt` the outer `none` means not in the request
    and the inner one cleared. -/
structure VisitEdit where
  jobState : JobState := .live
  storedScheduledAt : Option ℤ := none
  scheduledAt : Option (Option ℤ) := none
  crewBefore : List Text := []
  crewAfter : Option (List Text) := none
  fields : VisitFields := .empty
  cancel : Bool := false
  finishDay : Option ℤ := none
  reopen : Bool := false
  reopenDay : Option ℤ := none
  rebookClosedDay : Option Bool := none
  durationMinutes : ℤ := 60
  firstDayMinutes : Option ℤ := none

structure VisitPlan where
  actions : List VisitAction := []
  refusal : Option Refusal := none
  scheduledAt : Option (Option ℤ) := none
  visits : List VisitRow := []

/-! ### The rows as the plan has left them so far -/

structure Work where
  rows : List VisitRow
  actions : List VisitAction
  new : ℕ

/-- `rows[row.id] = row`: in place when the key is there, else at the end. -/
def setRow : List VisitRow → VisitRow → List VisitRow
  | [], row => [row]
  | v :: rows, row => if v.id = row.id then row :: rows else v :: setRow rows row

def Work.ofVisits (visits : List VisitRow) : Work := ⟨visits.foldl setRow [], [], 0⟩

/-- The order of `(start_at, str(id))`. -/
def visitLe (v u : VisitRow) : Prop :=
  v.startAt < u.startAt ∨ (v.startAt = u.startAt ∧ v.id.text ≤ u.id.text)

instance (v u : VisitRow) : Decidable (visitLe v u) := inferInstanceAs (Decidable (_ ∨ _))

def Work.liveRows (w : Work) : List VisitRow := w.rows.insertionSort visitLe

/-- The rows of a day, of one tech or slot when given, in one of the states when given. -/
def Work.on (z : ShopZone) (w : Work) (day : ℤ) (tech : Option (Option Text))
    (states : Option (List VisitState)) : List VisitRow :=
  w.liveRows.filter fun v =>
    z.day v.startAt == day && tech.all (v.techId == ·) && states.all (·.contains (visitState v))

def Work.retire (w : Work) (v : VisitRow) (reason : String) : Work :=
  { w with rows := w.rows.filter (·.id ≠ v.id), actions := w.actions ++ [.retire v.id reason] }

def Work.close (w : Work) (v : VisitRow) (status : Text) (reason : String) : Work :=
  { w with
    rows := setRow w.rows { v with status := some status }
    actions := w.actions ++ [.close v.id status reason] }

def Work.reassign (w : Work) (v : VisitRow) (tech : Option Text) (reason : String) : Work :=
  { w with
    rows := setRow w.rows { v with techId := tech }
    actions := w.actions ++ [.reassign v.id tech reason] }

def Work.move (w : Work) (v : VisitRow) (start stop : ℤ) (reason : String) : Work :=
  { w with
    rows := setRow w.rows { v with startAt := start, endAt := some stop }
    actions := w.actions ++ [.move v.id start stop reason] }

/-- The row an insert adds. -/
def newRow (n : ℕ) (tech : Option Text) (start stop : ℤ) (fields : VisitFields) : VisitRow where
  id := .new n
  techId := tech
  startAt := start
  endAt := some stop
  status := some "scheduled".toList
  arrivedAt := none
  title := fields.title.join
  customerId := fields.customerId.join
  customerName := fields.customerName.join

def Work.insert (w : Work) (tech : Option Text) (start stop : ℤ) (fields : VisitFields)
    (reason : String) : Work where
  rows := setRow w.rows (newRow (w.new + 1) tech start stop fields)
  actions := w.actions ++ [.insert (.new (w.new + 1)) tech start stop reason]
  new := w.new + 1

def visitLength (v : VisitRow) (defaultMinutes : ℤ) : ℤ :=
  match v.endAt with
  | some stop => stop - v.startAt
  | none => minutes defaultMinutes

/-! ### The planner's rules -/

/-- F1 on one row: close ON SITE and OPEN on or before the finish day, retire later OPEN. -/
def finishRow (z : ShopZone) (finishDay : Option ℤ) (reason : String) (w : Work) (v : VisitRow) : Work :=
  match visitState v with
  | .onSite => w.close v "completed".toList reason
  | .open =>
    if finishDay.any (· < z.day v.startAt) then w.retire v reason
    else w.close v "completed".toList reason
  | _ => w

def finish (z : ShopZone) (w : Work) (finishDay : Option ℤ) (reason : String) : Work :=
  w.liveRows.foldl (finishRow z finishDay reason) w

/-- Old rows marked "arrived" with no time. -/
def statusOnlyArrivals (visits : List VisitRow) : List VisitRow :=
  visits.filter fun v => isCurrent v && v.arrivedAt.isNone && lowerStatus v == "arrived".toList

/-- X1 on one row: retire OPEN, close ON SITE as cancelled with its arrival kept. -/
def cancelRow (reason : String) (w : Work) (v : VisitRow) : Work :=
  match visitState v with
  | .open => w.retire v reason
  | .onSite => w.close v "cancelled".toList reason
  | _ => w

def cancel (w : Work) (reason : String) : Except Refusal Work :=
  let oldRows := statusOnlyArrivals w.liveRows
  if oldRows ≠ [] then
    .error {
      code := .needsAnswer
      message := "A visit is marked arrived with no time recorded. On the Appointments " ++
        "page, enter its arrival time or undo the arrival, then try again."
      detail := { question := some "status_only_arrival", visitIds := oldRows.map (·.id.text) } }
  else .ok (w.liveRows.foldl (cancelRow reason) w)

/-- A field's new value, when the request has one and it differs. -/
def changed {α : Type} [DecidableEq α] (asked : Option (Option α)) (held : Option α) : Option (Option α) :=
  asked.filter (· ≠ held)

/-- E1 on one row: title and customer onto an OPEN stored visit. -/
def copyFieldsRow (fields : VisitFields) (w : Work) (v : VisitRow) : Work :=
  match v.id with
  | .new _ => w
  | .stored _ =>
    if visitState v ≠ .open then w
    else
      let changes : VisitFields := ⟨changed fields.title v.title,
        changed fields.customerId v.customerId, changed fields.customerName v.customerName⟩
      if changes = .empty then w
      else { w with
        rows := setRow w.rows { v with
          title := changes.title.getD v.title
          customerId := changes.customerId.getD v.customerId
          customerName := changes.customerName.getD v.customerName }
        actions := w.actions ++ [.copyFields v.id changes] }

def copyFields (w : Work) (fields : VisitFields) : Work :=
  if fields = .empty then w else w.liveRows.foldl (copyFieldsRow fields) w

def WHERE : String := "Change it on the Appointments page instead."

/-- The techs of a list of rows, sorted and without repeats. -/
def techsOf (rows : List VisitRow) : List Text :=
  (rows.filterMap (·.techId)).dedup.insertionSort (· ≤ ·)

/-- R1, R3, R4. -/
def checkRefusals (z : ShopZone) (w : Work) (n : ℤ) (target : Option ℤ) : Except Refusal Unit :=
  let current := w.liveRows.filter isCurrent
  let onSite := current.filter fun v => visitState v == .onSite
  if onSite ≠ [] then
    .error {
      code := .crewOnSite
      message := "A crew member is on site for this job. Close that day first " ++
        "(Complete on the Appointments page), then change the date."
      detail := { visitIds := onSite.map (·.id.text) } }
  else match target with
    | none => .ok ()
    | some target =>
      let tDay := z.day target
      let later := (current.map fun v => z.day v.startAt).filter (· ≠ n)
      match later.min?.filter (· ≤ tDay) with
      | some first =>
        .error {
          code := .ontoBookedDay
          message := "The job is also booked on " ++ isoformat first ++ "; the date cannot move " ++
            "onto or past it. " ++ WHERE
          detail := { day := some (isoformat first) } }
      | none =>
        let held := (w.on z n none (some [.open])).filterMap (·.techId)
        let doubled := (techsOf (w.on z n none (some [.open]))).filter (held.count · > 1)
        refuseIf (doubled ≠ []) {
          code := .twoOpenVisits
          message := "A technician holds two open visits on " ++ isoformat n ++
            "; which one should move is not clear. " ++ WHERE
          detail := { techIds := doubled.map some } }

/-- R2, read after the crew change. -/
def checkDoubleBook (z : ShopZone) (w : Work) (n target : ℤ) : Except Refusal Unit :=
  let tDay := z.day target
  let moving := w.on z n none (some [.open])
  let movingIds := moving.map (·.id)
  let clash := (techsOf moving).filter fun tech =>
    ((w.on z tDay (some (some tech)) none).filter fun v => isLive v && !movingIds.contains v.id) ≠ []
  refuseIf (clash ≠ []) {
    code := .doubleBooked
    message := "A technician already has a visit on " ++ isoformat tDay ++ ". " ++ WHERE
    detail := { techIds := clash.map some, day := some (isoformat tDay) } }

/-- C5-C7: one tech leaves the crew. -/
def crewRemove (z : ShopZone) (n : ℤ) (crew : List Text) (w : Work) (tech : Text) : Work :=
  match w.on z n (some (some tech)) (some [.open]) with
  | [] => w
  | first :: rest =>
    if crew ≠ [] then (first :: rest).foldl (fun w v => w.retire v "crew_removed") w
    else
      -- C6: the crew is now empty; the job keeps its booking
      let unassignedLive := (w.on z n (some none) none).filter isLive
      let w := if unassignedLive ≠ [] then w.retire first "crew_removed"
        else w.reassign first none "crew_removed"
      rest.foldl (fun w v => w.retire v "crew_removed") w

/-- C1-C3: one tech joins the crew. -/
def crewAdd (z : ShopZone) (n : ℤ) (nStart nLength : Option ℤ) (fields : VisitFields) (mins : ℤ)
    (wasEmpty : Bool) (w : Work) (tech : Text) : Work :=
  if (w.on z n (some (some tech)) none).any isLive then w
  else
    match (if wasEmpty then w.on z n (some none) (some [.open]) else []) with
    | slot :: _ => w.reassign slot (some tech) "crew_added"
    | [] =>
      match nStart with
      | none => w
      | some start =>
        let length := (nLength.filter (· ≠ 0)).getD (minutes mins)
        w.insert (some tech) start (start + length) fields "crew_added"

def removeTech (z : ShopZone) (n : Option ℤ) (s : List Text × Work) (tech : Text) : List Text × Work :=
  (s.1.erase tech, n.elim s.2 fun n => crewRemove z n (s.1.erase tech) s.2 tech)

def addTech (z : ShopZone) (n nStart nLength : Option ℤ) (fields : VisitFields) (mins : ℤ)
    (s : List Text × Work) (tech : Text) : List Text × Work :=
  (s.1 ++ [tech], n.elim s.2 fun n => crewAdd z n nStart nLength fields mins s.1.isEmpty s.2 tech)

/-- C1-C7, removals first, one tech at a time. Returns the crew it leaves. -/
def crewChange (z : ShopZone) (w : Work) (n : Option ℤ) (before after : List Text)
    (fields : VisitFields) (mins : ℤ) : List Text × Work :=
  let onN := n.elim [] fun n => (w.on z n none none).filter isCurrent
  let nStart := (onN.map (·.startAt)).min?
  let nLength := (onN.filterMap fun v => v.endAt.map (· - v.startAt)).max?
  let removed := (before.filter (· ∉ after)).foldl (removeTech z n) (before, w)
  (after.filter (· ∉ before)).foldl (addTech z n nStart nLength fields mins) removed

/-- E4/E5: one OPEN visit per crew tech with no Live visit on the target day. -/
def book (z : ShopZone) (w : Work) (crew : List Text) (target : ℤ) (fields : VisitFields)
    (edit : VisitEdit) (reopen : Bool) : Except Refusal Work :=
  let tDay := z.day target
  let slots := if crew = [] then [none] else crew.map some
  let closedHere := slots.filter fun t => (w.on z tDay (some t) none).any isLive
  if reopen ∧ closedHere ≠ [] ∧ edit.rebookClosedDay = none then
    .error {
      code := .needsAnswer
      message := "Already has a closed visit on " ++ isoformat tDay ++ ". Book that day again?"
      detail := { question := some "rebook_closed_day", techIds := closedHere
                  day := some (isoformat tDay) } }
  else .ok (slots.foldl (fun w tech =>
    if tech ∈ closedHere ∧ ¬ (reopen ∧ edit.rebookClosedDay = some true) then w
    else w.insert tech target (target + minutes edit.durationMinutes) fields "date_set") w)

/-- E7: the OPEN visits on the job's first day take the named length. -/
def setFirstDayLength (z : ShopZone) (w : Work) (length : ℤ) : Work :=
  match currentDay z w.liveRows with
  | none => w
  | some first => (w.on z first none (some [.open])).foldl (fun w v =>
      if visitLength v 0 ≠ length then w.move v v.startAt (v.startAt + length) "length_set" else w) w

/-- R2, second clause: nothing landed on the target although the job has other booked days. -/
def checkLanded (z : ShopZone) (w booked : Work) (n : Option ℤ) (crew : List Text) (target : ℤ) :
    Except Refusal Unit :=
  refuseIf (n.isSome ∧ booked.actions.length = w.actions.length ∧ booked.liveRows.any isCurrent) {
    code := .doubleBooked
    message := "Everyone left on the job already has a visit on " ++ isoformat (z.day target) ++
      ". " ++ WHERE
    detail := { techIds := crew.map some, day := some (isoformat (z.day target)) } }

/-- The date part of a live job's edit, once the crew has changed (E2-E6). -/
def moveDate (z : ShopZone) (w : Work) (n : Option ℤ) (crew : List Text) (edit : VisitEdit) :
    Option ℤ → Except Refusal Work
  | none =>
    .ok ((w.liveRows.filter fun v => visitState v == .open).foldl (fun w v => w.retire v "date_cleared") w)
  | some target =>
    match n.filter fun n => (w.on z n none none).any isCurrent with
    | some n => do
      checkDoubleBook z w n target
      return (w.on z n none (some [.open])).foldl (fun w v =>
        w.move v target (target + visitLength v edit.durationMinutes) "date_moved") w
    | none => do
      let booked ← book z w crew target edit.fields edit false
      checkLanded z w booked n crew target
      return booked

/-- The crew and the rows once the request's crew change, if it has one, is made. -/
def changeCrew (z : ShopZone) (w : Work) (n : Option ℤ) (edit : VisitEdit) : List Text × Work :=
  match edit.crewAfter with
  | none => (edit.crewBefore, w)
  | some after => crewChange z w n edit.crewBefore after edit.fields edit.durationMinutes

/-- R0: X1 on a cancelled job, F1 otherwise. -/
def settleReopened (z : ShopZone) (w : Work) (edit : VisitEdit) : Except Refusal Work :=
  if edit.jobState = .cancelled then cancel w "job_reopened"
  else .ok (finish z w edit.reopenDay "job_reopened")

/-- A job that is reopened: R0, then its crew and its booking. -/
def reopenJob (z : ShopZone) (w : Work) (edit : VisitEdit) (scheduledAt : Option (Option ℤ)) :
    Except Refusal Work := do
  let w ← settleReopened z w edit
  let crewed := changeCrew z w none edit
  match scheduledAt with
  | some (some target) => book z crewed.2 crewed.1 target edit.fields edit true
  | _ => return crewed.2

/-- E7 when the request names a first-day length. -/
def nameFirstDay (z : ShopZone) (w : Work) (firstDayMinutes : Option ℤ) : Work :=
  match firstDayMinutes.filter (· ≠ 0) with
  | some mins => setFirstDayLength z w (minutes mins)
  | none => w

/-- The edit of a live job whose date stays. -/
def editCrew (z : ShopZone) (w : Work) (edit : VisitEdit) : Work :=
  copyFields (nameFirstDay z (changeCrew z w (currentDay z w.liveRows) edit).2 edit.firstDayMinutes) edit.fields

/-- The edit of a live job that changes its date: refusals, crew, date, first-day length, fields. -/
def editDate (z : ShopZone) (w : Work) (edit : VisitEdit) (target : Option ℤ) : Except Refusal Work := do
  let n := currentDay z w.liveRows
  n.forM fun n => checkRefusals z w n target
  let crewed := changeCrew z w n edit
  let w ← moveDate z crewed.2 n crewed.1 edit target
  return copyFields (nameFirstDay z w edit.firstDayMinutes) edit.fields

/-- The edit of a live job. A date unchanged to the minute is not rewritten. -/
def editLive (z : ShopZone) (w : Work) (edit : VisitEdit) (scheduledAt : Option (Option ℤ)) :
    Except Refusal (Work × Option (Option ℤ)) :=
  match scheduledAt.filter (· ≠ edit.storedScheduledAt.map toMinute) with
  | some target => do
    let w ← editDate z w edit target
    return (w, some target)
  | none => .ok (editCrew z w edit, none)

/-- `_plan`: the rows and the job's new date, or a refusal. -/
def planEdit (z : ShopZone) (w : Work) (edit : VisitEdit) : Except Refusal (Work × Option (Option ℤ)) := do
  let scheduledAt := edit.scheduledAt.map (·.map toMinute)
  if edit.finishDay.isSome then
    return (copyFields (finish z w edit.finishDay "job_completed") edit.fields, scheduledAt)
  else if edit.reopen then
    let w ← reopenJob z w edit scheduledAt
    return (w, scheduledAt)
  else if edit.cancel then
    let w ← cancel w "job_cancelled"
    return (copyFields w edit.fields, scheduledAt)
  else if edit.jobState ∈ FINISHED_STAGES then
    return (copyFields w edit.fields, scheduledAt)
  else editLive z w edit scheduledAt

def planVisitSync (z : ShopZone) (visits : List VisitRow) (edit : VisitEdit) : VisitPlan :=
  match planEdit z (.ofVisits visits) edit with
  | .error refusal => { refusal := some refusal, visits := visits }
  | .ok (w, scheduledAt) => { actions := w.actions, scheduledAt := scheduledAt, visits := w.liveRows }

/-! ### The office's own visits -/

/-- The cap on one booking. -/
def MAX_DAYS : ℕ := 20

def checkOpenJob (jobState : JobState) : Except Refusal Unit :=
  refuseIf (jobState ∈ FINISHED_STAGES) {
    code := .jobFinished
    message := "The job is " ++ jobState.text ++ ". Re-open it before booking or changing a day." }

def techsHolding (z : ShopZone) (w : Work) (day : ℤ) (techs : List (Option Text)) (skip : Option VisitId) :
    List (Option Text) :=
  techs.filter fun t => (w.on z day (some t) none).any fun v => isLive v && some v.id != skip

def runPlan (visits : List VisitRow) (run : Except Refusal Work) : VisitPlan :=
  match run with
  | .error refusal => { refusal := some refusal, visits := visits }
  | .ok w => { actions := w.actions, visits := w.liveRows }

/-- Book every slot on one day, unless one of them already holds a visit there. -/
def addDay (z : ShopZone) (startTime : ClockTime) (durationMinutes : ℤ) (slots : List (Option Text))
    (fields : VisitFields) (w : Work) (day : ℤ) : Except Refusal Work :=
  let holding := techsHolding z w day slots none
  if holding ≠ [] then
    .error {
      code := .doubleBooked
      message := (if holding ≠ [none] then "A technician already has"
        else "The job already has an unassigned") ++ " a visit of this job on " ++ isoformat day ++ "."
      detail := { techIds := holding.filter (·.isSome), day := some (isoformat day) } }
  else
    let start := z.shopInstant day startTime
    .ok (slots.foldl (fun w tech =>
      w.insert tech start (start + minutes durationMinutes) fields "visits_booked") w)

/-- The days in order; a day that comes twice is refused. -/
def addDays (z : ShopZone) (startTime : ClockTime) (durationMinutes : ℤ) (slots : List (Option Text))
    (fields : VisitFields) : Work → List ℤ → List ℤ → Except Refusal Work
  | w, _, [] => .ok w
  | w, seen, day :: days =>
    if day ∈ seen then
      .error {
        code := .doubleBooked
        message := isoformat day ++ " is in the request twice."
        detail := { techIds := slots.filter (·.isSome), day := some (isoformat day) } }
    else do
      let w ← addDay z startTime durationMinutes slots fields w day
      addDays z startTime durationMinutes slots fields w (day :: seen) days

def planAddVisits (z : ShopZone) (visits : List VisitRow) (today : ℤ) (jobState : JobState)
    (days : List ℤ) (startTime : ClockTime) (durationMinutes : ℤ) (techIds : List (Option Text))
    (fields : VisitFields) : VisitPlan :=
  runPlan visits do
    checkOpenJob jobState
    refuseIf (days = []) { code := .noDays, message := "Pick at least one day." }
    refuseIf (MAX_DAYS < days.length)
      { code := .tooManyDays, message := "A booking holds at most 20 days." }
    (days.filter (· < today)).min?.forM fun past => .error {
      code := .pastDay
      message := isoformat past ++ " has already passed. Book today or a later day."
      detail := { day := some (isoformat past) } }
    let slots := if techIds = [] then [none] else techIds.eraseDups
    addDays z startTime durationMinutes slots fields (.ofVisits visits) []
      (days.insertionSort (· ≤ ·))

def findOpen (w : Work) (visitId : VisitId) : Except Refusal VisitRow :=
  match w.rows.find? (·.id == visitId) with
  | none => .error { code := .visitNotFound, message := "That visit is not on this job." }
  | some v =>
    if visitState v ≠ .open then
      .error {
        code := .visitNotOpen
        message := "Someone has arrived for this visit, or it is closed. Complete it or undo " ++
          "the arrival instead."
        detail := { visitId := some visitId.text } }
    else .ok v

/-- The writes of a move once its checks have passed: the tech first, then the times. -/
def moveVisit (w : Work) (v : VisitRow) (tech : Option Text) (start stop : ℤ) : Work :=
  let w := if tech ≠ v.techId then w.reassign v tech "visit_edited" else w
  let v := { v with techId := tech }
  if start ≠ toMinute v.startAt ∨ some stop ≠ v.endAt.map toMinute then
    w.move v start stop "visit_edited"
  else w

def planMoveVisit (z : ShopZone) (visits : List VisitRow) (today : ℤ) (jobState : JobState)
    (visitId : VisitId) (startAt endAt : ℤ) (techId : Option (Option Text)) : VisitPlan :=
  runPlan visits do
    let w := Work.ofVisits visits
    checkOpenJob jobState
    let v ← findOpen w visitId
    let start := toMinute startAt
    let stop := toMinute endAt
    refuseIf (stop ≤ start) { code := .badLength, message := "The visit has to end after it starts." }
    let tech := techId.getD v.techId
    let day := z.day start
    refuseIf (day < today ∧ day ≠ z.day v.startAt) {
      code := .pastDay
      message := isoformat day ++ " has already passed. Move the visit to today or a later day."
      detail := { day := some (isoformat day) } }
    refuseIf (techsHolding z w day [tech] (some v.id) ≠ []) {
      code := .doubleBooked
      message := "That technician already has a visit of this job on " ++ isoformat day ++ "."
      detail := { techIds := [tech].filter (·.isSome), day := some (isoformat day) } }
    return moveVisit w v tech start stop

def planRemoveVisit (visits : List VisitRow) (jobState : JobState) (visitId : VisitId) : VisitPlan :=
  runPlan visits do
    let w := Work.ofVisits visits
    checkOpenJob jobState
    let v ← findOpen w visitId
    let w := w.retire v "visit_removed"
    refuseIf (¬ w.liveRows.any isCurrent) {
      code := .lastOpenVisit
      message := "This is the job's last booked day. Move it instead, or clear the " ++
        "job's date to take it off the schedule."
      detail := { visitId := some visitId.text } }
    return w

end Gdx
