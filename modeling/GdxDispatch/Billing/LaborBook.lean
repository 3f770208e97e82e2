import GdxDispatch.Billing.Api

/-! The labor of one job: its closeouts, the invoices that bill it, and the service-lane labor lines.

    Follows `core/closeout_billing.py` (the closeout's own hours, claimed by an invoice and netted over a
    run of restatements) and `core/billing_lanes.py` (the lines built from attested hours, with a first
    hour charged once for the job). Hours are rationals, prices are whole cents. -/

namespace Gdx

open Lib

/-! ### Rows -/

/-- A row of `job_closeouts`. -/
structure CloseoutRow where
  id : ℕ
  hoursWorked : ℚ
  techsOnSite : Option ℤ
  closedAt : Option ℤ
  superseded : Bool
  supersedesId : Option ℕ
  isRestatement : Option Bool
  billedInvoiceId : Option ℕ
  manHoursBilled : Option ℚ
deriving DecidableEq, Repr

/-- An invoice line as the labor builder writes and reads it. -/
structure LaborLine where
  description : Text
  quantity : ℚ
  unitPrice : ℤ
  lineTotal : ℤ
  attested : Bool
  deleted : Bool
deriving DecidableEq, Repr

inductive LaborInvoiceStatus where
  | open
  | void
deriving DecidableEq, Repr

/-- An invoice of the job: whether it is live, and its lines. -/
structure LaborInvoice where
  id : ℕ
  createdAt : Option ℤ
  status : LaborInvoiceStatus
  deleted : Bool
  lines : List LaborLine
deriving DecidableEq, Repr

/-- What the tenant's line template may print. -/
structure LaborVars where
  manHours : ℚ
  hours : ℚ
  techs : ℤ
  firstHourPrice : ℤ
  hourlyRate : ℤ

/-- The row of `pricing_settings`. The template is what `str.format` makes of the variables, `none` when
    it is blank or cannot be formatted. -/
structure PricingSettings where
  firstHourPrice : Option ℚ
  hourlyRate : Option ℚ
  template : LaborVars → Option Text
  updatedAt : Option ℤ

inductive PricingLane where
  | service | install | office
deriving DecidableEq, Repr

/-- One job: its closeouts, newest first, its invoices, the times it was uncompleted, and the pricing
    settings in force. -/
structure LaborBook where
  lane : PricingLane
  completed : Bool
  closeouts : List CloseoutRow
  invoices : List LaborInvoice
  uncompletedAt : List ℤ
  settings : Option PricingSettings
  nextCloseout : ℕ
  nextInvoice : ℕ

/-! ### The closeout's own hours -/

/-- `roundup_to_half`. -/
def roundupToHalf (hours : ℚ) : ℚ := (⌈hours * 2⌉ : ℚ) / 2

/-- `max(1, int(techs_on_site or 1))`. -/
def crewOf (techs : Option ℤ) : ℤ :=
  let t := techs.getD 1
  max 1 (if t = 0 then 1 else t)

/-- `closeout_man_hours`. -/
def closeoutManHours (c : CloseoutRow) : ℚ :=
  if c.hoursWorked ≤ 0 then 0 else roundupToHalf c.hoursWorked * crewOf c.techsOnSite

def LaborInvoice.live (i : LaborInvoice) : Bool := !i.deleted && i.status ≠ .void

/-- The id is in `_live_invoice_ids`. -/
def LaborBook.isLive (s : LaborBook) (invoiceId : ℕ) : Bool :=
  s.invoices.any fun i => i.id = invoiceId && i.live

def LaborBook.closeout? (s : LaborBook) (id : ℕ) : Option CloseoutRow :=
  s.closeouts.find? fun c => c.id = id

/-- `get_current_closeout`. -/
def LaborBook.current (s : LaborBook) : Option CloseoutRow := s.closeouts.find? fun c => !c.superseded

/-- What `Numeric(8, 2)` stores of an hour count. -/
def hoursColumn (hours : ℚ) : ℚ := (roundHalfUp (hours * 100) : ℚ) / 100

/-- The current closeout as a request holds it: read from the table, or, in the request that records it, with its hours
    as they were sent. -/
def LaborBook.held (s : LaborBook) (sent : Option ℚ) : Option CloseoutRow :=
  s.current.map fun c =>
    { c with hoursWorked := (sent.filter fun hours => hoursColumn hours = c.hoursWorked).getD c.hoursWorked }

/-- `closeout_hours_holder`, read from the table. -/
def closeoutHoursHolder (s : LaborBook) (c : CloseoutRow) : Option ℕ :=
  match s.closeout? c.id with
  | none => none
  | some row => row.billedInvoiceId.filter s.isLive

/-- `_restates`: the flag, or the audit trail for a row from before the flag. -/
def restates (s : LaborBook) (c prior : CloseoutRow) : Bool :=
  match c.isRestatement with
  | some flag => flag
  | none =>
    match prior.closedAt, c.closedAt with
    | some after, some «until» => !s.uncompletedAt.any fun t => after < t && t ≤ «until»
    | _, _ => false

/-- The loop of `_restated_run`. Every turn adds a new id of the table to the ones seen, so the number of
    closeouts bounds it. -/
def restatedFrom (s : LaborBook) : ℕ → List ℕ → CloseoutRow → List CloseoutRow
  | 0, _, _ => []
  | fuel + 1, seen, cur =>
    match cur.supersedesId with
    | none => []
    | some priorId =>
      if priorId ∈ seen then []
      else
        match s.closeout? priorId with
        | none => []
        | some prior =>
          if restates s cur prior then prior :: restatedFrom s fuel (priorId :: seen) prior else []

def restatedRun (s : LaborBook) (c : CloseoutRow) : List CloseoutRow :=
  restatedFrom s s.closeouts.length [] c

/-- `_claim_man_hours`, read from the table. -/
def claimManHours (s : LaborBook) (c : CloseoutRow) : ℚ :=
  match (s.closeout? c.id).bind CloseoutRow.manHoursBilled with
  | some billed => billed
  | none => closeoutManHours c

/-- What live invoices hold of some closeouts. -/
def billedOver (s : LaborBook) (rows : List CloseoutRow) : ℚ :=
  ((rows.filter fun r => (closeoutHoursHolder s r).isSome).map (claimManHours s)).sum

def closeoutHoursBilledBefore (s : LaborBook) (c : CloseoutRow) : ℚ := billedOver s (restatedRun s c)

def closeoutManHoursToBill (s : LaborBook) (c : CloseoutRow) : ℚ :=
  max 0 (closeoutManHours c - closeoutHoursBilledBefore s c)

/-- A change to the closeout with an id. -/
def LaborBook.updateCloseout (s : LaborBook) (id : ℕ) (f : CloseoutRow → CloseoutRow) : LaborBook :=
  { s with closeouts := s.closeouts.map fun c => if c.id = id then f c else c }

/-- `claim_closeout_hours`: stamp the closeout unless a live invoice holds it or nothing is left. -/
def claimCloseoutHours (s : LaborBook) (invoiceId : ℕ) (closeout : Option CloseoutRow) :
    LaborBook × Bool :=
  match closeout with
  | none => (s, false)
  | some c =>
    let toBill := closeoutManHoursToBill s c
    if toBill ≤ 0 then (s, false)
    else
      match s.closeout? c.id with
      | none => (s, false)
      | some row =>
        if row.billedInvoiceId.any s.isLive then (s, false)
        else
          (s.updateCloseout c.id fun r =>
            { r with billedInvoiceId := some invoiceId, manHoursBilled := some toBill }, true)

/-- `release_closeout_hours`: the stamps that name the invoice are cleared. -/
def releaseCloseoutHours (s : LaborBook) (invoiceId : ℕ) : LaborBook :=
  { s with closeouts := s.closeouts.map fun c =>
      if c.billedInvoiceId = some invoiceId then { c with billedInvoiceId := none } else c }

/-! ### Labor lines -/

/-- A day row: its id, when it started and its minutes. -/
structure DayRow where
  id : ℕ
  clockIn : ℤ
  minutes : ℕ
deriving DecidableEq, Repr

/-- `_money` of a price in dollars, in cents. -/
def moneyCents (dollars : ℚ) : ℤ := roundHalfUp (dollars * 100)

/-- `service_rates`: the first-hour price and the hourly rate. -/
def serviceRates (settings : Option PricingSettings) : ℤ × ℤ :=
  (moneyCents ((settings.bind PricingSettings.firstHourPrice).getD 100),
    moneyCents ((settings.bind PricingSettings.hourlyRate).getD 100))

/-- A number with two decimals, from its hundredths. -/
def printedHundredths (n : ℤ) : Text :=
  (if n < 0 then ['-'] else []) ++ numeral (n.natAbs / 100) ++ '.' ::
    (numeral (n.natAbs % 100)).leftpad 2 '0'

/-- `f"{x:.2f}"`. -/
def printedFixed (x : ℚ) : Text := printedHundredths (roundHalfUp (x * 100))

def firstHourDescription : Text := "Service labor — first hour".toList

/-- `DEFAULT_SERVICE_LABOR_TEMPLATE` with its variables filled in. -/
def defaultServiceLabor (v : LaborVars) : Text :=
  "Service labor — ".toList ++ printedFixed v.manHours ++ " man-hours (".toList ++ printedFixed v.hours ++
    " h on site × ".toList ++ numeral v.techs.natAbs ++ " tech".toList ++
    (if v.techs ≠ 1 then ['s'] else []) ++ "; first hour $".toList ++ printedHundredths v.firstHourPrice ++
    ", then $".toList ++ printedHundredths v.hourlyRate ++ "/hr)".toList

/-- `_render_service_description`. -/
def renderServiceDescription (settings : Option PricingSettings) (v : LaborVars) : Text :=
  ((settings.bind fun p => p.template v)).getD (defaultServiceLabor v)

/-- The live attested lines of the job's other live invoices, with when their invoice was created. -/
def LaborBook.siblingLines (s : LaborBook) (invoiceId : Option ℕ) : List (LaborLine × Option ℤ) :=
  (s.invoices.filter fun i => i.live && some i.id ≠ invoiceId).flatMap fun i =>
    (i.lines.filter fun l => l.attested && !l.deleted).map fun l => (l, i.createdAt)

/-- A line of an invoice from before the settings last changed. -/
def pricedBefore (ratesSince : Option ℤ) (created : Option ℤ) : Bool :=
  match ratesSince with
  | none => false
  | some since => created.all (· < since)

def hoursOf (rows : List (LaborLine × Option ℤ)) : ℚ := (rows.map fun r => r.1.quantity).sum

/-- `first_hour_elsewhere`: whether a sibling carries the first hour, and the siblings' hours. -/
def firstHourElsewhere (s : LaborBook) (invoiceId : Option ℕ) : Bool × ℚ :=
  let rows := s.siblingLines invoiceId
  let (first, hourly) := serviceRates s.settings
  let ratesSince := s.settings.bind PricingSettings.updatedAt
  let hours := hoursOf rows
  let plain := rows.filter fun r => r.1.description ≠ firstHourDescription
  let olderHours := hoursOf (plain.filter fun r => pricedBefore ratesSince r.2)
  let carried := rows.any (fun r => r.1.description = firstHourDescription) ||
    plain.any fun r => !pricedBefore ratesSince r.2 && r.1.unitPrice ≠ hourly
  (carried || (1 ≤ olderHours : Bool) || (first = hourly && (1 ≤ hours : Bool)), hours)

/-- A line `job_labor_lines` returns. The last one carries what it bills. -/
structure BuiltLine where
  description : Text
  quantity : ℚ
  unitPrice : ℤ
  lineTotal : ℤ
  manHours : ℚ
  timeEntryIds : Option (List ℕ) := none
  closeoutId : Option ℕ := none
  estimatedManHours : Option ℚ := none
deriving DecidableEq, Repr

/-- `quantize(Decimal("0.01"))` of an hour count: to the nearest hundredth, ties to even. -/
def quantizeHours (x : ℚ) : ℚ :=
  let n := x * 100
  let f := ⌊n⌋
  (if n - f < 1 / 2 then (f : ℚ) else if 1 / 2 < n - f then (f + 1 : ℚ)
    else if f % 2 = 0 then (f : ℚ) else (f + 1 : ℚ)) / 100

/-- The closeout's hours that are this invoice's to offer, and the man-hours they come to. -/
structure FinalDay where
  hours : ℚ
  man : ℚ
  carried : ℚ
deriving DecidableEq, Repr

/-- The closeout's hours, or 0 when another live invoice already bills them. -/
def offeredHours (s : LaborBook) (c : CloseoutRow) (invoiceId : Option ℕ) : ℚ :=
  let holder := closeoutHoursHolder s c
  if 0 < c.hoursWorked then (if holder.isSome && holder ≠ invoiceId then 0 else c.hoursWorked)
  else c.hoursWorked

/-- The final day: the hours offered, their man-hours, and the delta of a restatement. -/
def finalDay (s : LaborBook) (closeout : Option CloseoutRow) (invoiceId : Option ℕ) : FinalDay :=
  match closeout with
  | none => { hours := 0, man := 0, carried := 0 }
  | some c =>
    let hours := offeredHours s c invoiceId
    let man := if 0 < hours then roundupToHalf hours * crewOf c.techsOnSite else 0
    let carried := if 0 < man then closeoutHoursBilledBefore s c else 0
    if 0 < carried then
      let left := max 0 (man - carried)
      { hours := if left ≤ 0 then 0 else hours, man := left, carried := carried }
    else { hours := hours, man := man, carried := carried }

def rowMinutes (dayRows : List DayRow) : ℕ := (dayRows.map DayRow.minutes).sum

/-- The day rows' minutes, rounded up to the half hour once. -/
def rowsMan (dayRows : List DayRow) : ℚ := (((rowMinutes dayRows + 29) / 30 : ℕ) : ℚ) / 2

/-- The shop days billed: each day row's, and the closeout's own when it attests hours. -/
def daysBilled (zone : ShopZone) (closeout : Option CloseoutRow) (finalHours : ℚ)
    (dayRows : List DayRow) : ℕ :=
  if dayRows = [] then 1
  else
    let rowDays := dayRows.map fun r => zone.day r.clockIn
    let own := if 0 < finalHours then (closeout.bind CloseoutRow.closedAt).toList.map zone.day else []
    max 1 (rowDays ++ own).dedup.length

/-- Man-hours with the floor of the job's first hour. -/
def flooredMan (charged : Bool) (hoursElsewhere man : ℚ) : ℚ :=
  if charged then man else max (1 - min 1 (max 0 hoursElsewhere)) man

/-- `job_labor_lines` for the day rows the caller holds. -/
def jobLaborLines (zone : ShopZone) (s : LaborBook) (closeout : Option CloseoutRow)
    (invoiceId : Option ℕ) (dayRows : List DayRow) : List BuiltLine :=
  if s.lane ≠ .service then []
  else
    let final := finalDay s closeout invoiceId
    let techs := crewOf (closeout.bind CloseoutRow.techsOnSite)
    let attestedMan := final.man + rowsMan dayRows
    if attestedMan ≤ 0 then []
    else
      let (first, hourly) := serviceRates s.settings
      let (charged, hoursElsewhere) := firstHourElsewhere s invoiceId
      let man := quantizeHours (flooredMan charged hoursElsewhere attestedMan)
      let rawFinal := if 0 < final.carried then final.man else final.hours * techs
      let rawMan := quantizeHours (rawFinal + (rowMinutes dayRows : ℚ) / 60)
      let days := daysBilled zone closeout final.hours dayRows
      let overDays := if 1 < days then " over ".toList ++ numeral days ++ " days".toList else []
      let line (description : Text) (qty : ℚ) (unit : ℤ) : BuiltLine :=
        { description := description.take 500, quantity := qty, unitPrice := unit
          lineTotal := roundHalfUp (qty * unit), manHours := rawMan }
      let carrier (l : BuiltLine) : BuiltLine :=
        { l with
          timeEntryIds := some (dayRows.map DayRow.id)
          closeoutId := if 0 < final.hours then closeout.map CloseoutRow.id else none
          estimatedManHours := some rawMan }
      if charged || first = hourly then
        let description :=
          if !charged && dayRows = [] && hoursElsewhere = 0 && final.carried = 0 then
            renderServiceDescription s.settings
              { manHours := man, hours := final.hours, techs := techs, firstHourPrice := first
                hourlyRate := hourly }
          else
            "Service labor — ".toList ++ printedFixed man ++ " man-hours at $".toList ++
              printedHundredths hourly ++ "/hr".toList ++ overDays
        [carrier (line description man hourly)]
      else
        let firstLine := line firstHourDescription (min 1 man) first
        let rest := man - 1
        if 0 < rest then
          [firstLine,
            carrier (line ("Service labor — ".toList ++ printedFixed rest ++
              " h after the first hour at $".toList ++ printedHundredths hourly ++ "/hr (".toList ++
              printedFixed man ++ " man-hours".toList ++ overDays ++ ")".toList) rest hourly)]
        else [carrier firstLine]

/-! ### Steps -/

/-- What happens to a job's labor: closeouts and reopenings, invoices with their claims, releases, builds,
    voids and deletions, and saves of the pricing settings. A claim or a build in the request that records the
    closeout has the hours as they were sent. -/
inductive LaborStep where
  | closeout (hours : ℚ) (techs : Option ℤ) (now : ℤ)
  | uncomplete (now : ℤ)
  | newInvoice (createdAt : Option ℤ)
  | claim (invoiceId : ℕ) (sent : Option ℚ)
  | release (invoiceId : ℕ)
  | build (invoiceId : ℕ) (dayRows : List DayRow) (sent : Option ℚ)
  | void (invoiceId : ℕ)
  | delete (invoiceId : ℕ)
  | saveSettings (settings : PricingSettings)

/-- The closeout part of `closeout_job`: the current row is superseded, and the new one restates it when
    the job is still completed. -/
def closeoutJob (s : LaborBook) (hours : ℚ) (techs : Option ℤ) (now : ℤ) : LaborBook :=
  let prior := s.current
  let row : CloseoutRow :=
    { id := s.nextCloseout, hoursWorked := hoursColumn hours, techsOnSite := techs, closedAt := some now
      superseded := false, supersedesId := prior.map CloseoutRow.id
      isRestatement := some (prior.isSome && s.completed), billedInvoiceId := none
      manHoursBilled := none }
  { s with
    closeouts := row :: s.closeouts.map fun c =>
      if some c.id = prior.map CloseoutRow.id then { c with superseded := true } else c
    completed := true
    nextCloseout := s.nextCloseout + 1 }

/-- A change to the invoice with an id. -/
def LaborBook.updateInvoice (s : LaborBook) (id : ℕ) (f : LaborInvoice → LaborInvoice) : LaborBook :=
  { s with invoices := s.invoices.map fun i => if i.id = id then f i else i }

/-- A built line as it is saved on the invoice. -/
def BuiltLine.saved (b : BuiltLine) : LaborLine :=
  { description := b.description, quantity := b.quantity, unitPrice := b.unitPrice
    lineTotal := b.lineTotal, attested := true, deleted := false }

/-- One build of labor lines on an invoice of its own: a live one that has none. -/
def buildLabor (zone : ShopZone) (s : LaborBook) (invoiceId : ℕ) (dayRows : List DayRow) (sent : Option ℚ) :
    LaborBook × List BuiltLine :=
  if s.invoices.any fun i => i.id = invoiceId && i.live && i.lines = [] then
    let built := jobLaborLines zone s (s.held sent) (some invoiceId) dayRows
    (s.updateInvoice invoiceId fun i => { i with lines := built.map BuiltLine.saved }, built)
  else (s, [])

def laborStep (zone : ShopZone) (s : LaborBook) : LaborStep → LaborBook
  | .closeout hours techs now => closeoutJob s hours techs now
  | .uncomplete now => { s with completed := false, uncompletedAt := s.uncompletedAt ++ [now] }
  | .newInvoice createdAt =>
    { s with
      invoices := s.invoices ++
        [{ id := s.nextInvoice, createdAt := createdAt, status := .open, deleted := false, lines := [] }]
      nextInvoice := s.nextInvoice + 1 }
  | .claim invoiceId sent => if s.isLive invoiceId then (claimCloseoutHours s invoiceId (s.held sent)).1 else s
  | .release invoiceId => releaseCloseoutHours s invoiceId
  | .build invoiceId dayRows sent => (buildLabor zone s invoiceId dayRows sent).1
  | .void invoiceId =>
    (releaseCloseoutHours s invoiceId).updateInvoice invoiceId fun i => { i with status := .void }
  | .delete invoiceId =>
    (releaseCloseoutHours s invoiceId).updateInvoice invoiceId fun i => { i with deleted := true }
  | .saveSettings settings => { s with settings := some settings }

/-- A job with nothing on it. -/
def LaborBook.fresh (lane : PricingLane) (settings : Option PricingSettings) : LaborBook :=
  { lane := lane, completed := false, closeouts := [], invoices := [], uncompletedAt := []
    settings := settings, nextCloseout := 0, nextInvoice := 0 }

def runLabor (zone : ShopZone) (s : LaborBook) (steps : List LaborStep) : LaborBook :=
  steps.foldl (laborStep zone) s

end Gdx
