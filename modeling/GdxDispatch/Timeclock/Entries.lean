import GdxDispatch.Lib.Keyed
import GdxDispatch.Billing.Api

/-! Time clock entries (`routers/timeclock.py`).

    A call reads the entries once and then commits: a clock-in that finds a shift open for too long first commits its
    close, with no minutes, and then the new shift. A commit writes the columns that differ from what was read, and
    nothing else. Stamps are stored as ISO texts with any offset, and an open shift is picked by the order of these
    texts. -/

namespace Gdx.Timeclock

open Lib

/-! ### Stamps -/

/-- How a stamp ends: without an offset, with `Z`, or with an offset in minutes. -/
inductive StampZone where
  | naive
  | zulu
  | offset (minutes : ℤ)
  deriving DecidableEq, Repr

/-- A date and a time, in microseconds, as written. -/
structure Stamp where
  wall : ℤ
  zone : StampZone
  deriving DecidableEq, Repr

/-- `_as_aware`: a stamp without an offset is read as UTC. -/
def asAware (stamp : Stamp) : ℤ :=
  match stamp.zone with
  | .naive => stamp.wall
  | .zulu => stamp.wall
  | .offset m => stamp.wall - minutes m

/-- `datetime.now(UTC).isoformat()`. -/
def utcStamp (instant : ℤ) : Stamp := ⟨instant, .offset 0⟩

def StampZone.text : StampZone → String
  | .naive => ""
  | .zulu => "Z"
  | .offset m => (if m < 0 then "-" else "+") ++ padded 2 (m.natAbs / 60) ++ ":" ++ padded 2 (m.natAbs % 60)

/-- The stored text. -/
def Stamp.text (stamp : Stamp) : Text :=
  let seconds := stamp.wall % DAY / 1000000
  let micros := stamp.wall % 1000000
  (isoformat (stamp.wall / DAY) ++ "T" ++ padded 2 (seconds / 3600) ++ ":" ++ padded 2 (seconds / 60 % 60) ++ ":" ++
    padded 2 (seconds % 60) ++ (if micros = 0 then "" else "." ++ padded 6 micros) ++ stamp.zone.text).toList

example : (Stamp.mk 5400000000 (.offset (-300))).text = "1970-01-01T01:30:00-05:00".toList := by decide +kernel

def minutesBetween (start finish : Stamp) : ℤ := max 0 ((asAware finish - asAware start) / MINUTE)

/-! ### Entries -/

inductive EntryType where
  | clock | manual | timeOff
  deriving DecidableEq, Repr

structure TimeclockEntry where
  id : ℕ
  technicianId : Text
  clockInAt : Stamp
  clockOutAt : Option Stamp
  minutes : Option ℤ
  notes : Option Text
  entryType : EntryType
  createdAt : Stamp
  updatedAt : Stamp
  deletedAt : Option Stamp
  deriving DecidableEq

/-- Columns a commit writes on an entry. -/
structure Columns where
  clockInAt : Option Stamp
  clockOutAt : Option (Option Stamp)
  minutes : Option (Option ℤ)
  notes : Option (Option Text)
  updatedAt : Option Stamp
  deriving DecidableEq

/-- Who wrote an entry: the automatic close, a clock-out, or an update with or without a stamp among its fields. -/
inductive Writer where
  | autoClose
  | clockOut
  | edit (stamped : Bool)
  deriving DecidableEq, Repr

/-- An inserted row is given the next id when it is committed. -/
inductive TimeCommit where
  | insert (entry : TimeclockEntry)
  | write (id : ℕ) (writer : Writer) (columns : Columns)
  deriving DecidableEq

/-- The table. `log` holds who wrote which entry, the newest first; no call reads it. -/
structure TimeClock where
  entries : List TimeclockEntry
  nextId : ℕ
  log : List (ℕ × Writer)
  deriving DecidableEq

def TimeClock.empty : TimeClock := ⟨[], 0, []⟩

def TimeClock.entry (s : TimeClock) (id : ℕ) : Option TimeclockEntry := rowOf TimeclockEntry.id s.entries id

/-- The columns that differ. -/
def changed {α : Type} [DecidableEq α] (stored new : α) : Option α := if new = stored then none else some new

/-- What the session emits for a row that was loaded as `stored` and is now `new`. -/
def Columns.between (stored new : TimeclockEntry) : Columns where
  clockInAt := changed stored.clockInAt new.clockInAt
  clockOutAt := changed stored.clockOutAt new.clockOutAt
  minutes := changed stored.minutes new.minutes
  notes := changed stored.notes new.notes
  updatedAt := changed stored.updatedAt new.updatedAt

def Columns.applyTo (columns : Columns) (entry : TimeclockEntry) : TimeclockEntry :=
  { entry with
    clockInAt := columns.clockInAt.getD entry.clockInAt
    clockOutAt := columns.clockOutAt.getD entry.clockOutAt
    minutes := columns.minutes.getD entry.minutes
    notes := columns.notes.getD entry.notes
    updatedAt := columns.updatedAt.getD entry.updatedAt }

def TimeClock.commit (s : TimeClock) : TimeCommit → TimeClock
  | .insert entry => { s with entries := s.entries ++ [{ entry with id := s.nextId }], nextId := s.nextId + 1 }
  | .write id writer columns =>
    match s.entry id with
    | none => s
    | some row =>
      { s with entries := putRow TimeclockEntry.id s.entries (columns.applyTo row), log := (id, writer) :: s.log }

/-- A row as loaded and as changed, committed. -/
def saved (writer : Writer) (stored new : TimeclockEntry) : TimeCommit :=
  .write stored.id writer (.between stored new)

/-! ### Writes on a row that is still as it was read -/

section

variable {s : TimeClock} {stored new entry : TimeclockEntry} {writer : Writer}

theorem changed_getD {α : Type} [DecidableEq α] (a b : α) : (changed a b).getD a = b := by
  unfold changed
  split
  · rename_i h
    exact h.symm
  · rfl

/-- The two rows are one entry. -/
structure SameEntry (stored new : TimeclockEntry) : Prop where
  id : new.id = stored.id
  technicianId : new.technicianId = stored.technicianId
  entryType : new.entryType = stored.entryType
  createdAt : new.createdAt = stored.createdAt
  deletedAt : new.deletedAt = stored.deletedAt

theorem Columns.between_applyTo (h : SameEntry stored new) : (Columns.between stored new).applyTo stored = new := by
  obtain ⟨hid, htech, htype, hcreated, hdeleted⟩ := h
  cases new
  simp_all [Columns.between, Columns.applyTo, changed_getD]

theorem commit_saved (hrow : s.entry stored.id = some stored) (h : SameEntry stored new) :
    s.commit (saved writer stored new) =
      { s with entries := putRow TimeclockEntry.id s.entries new, log := (stored.id, writer) :: s.log } := by
  simp [TimeClock.commit, saved, hrow, Columns.between_applyTo h]

/-- Ids are distinct and below the next one. -/
structure Keyed (s : TimeClock) : Prop where
  keys : (s.entries.map TimeclockEntry.id).Nodup
  fresh : ∀ entry ∈ s.entries, entry.id < s.nextId

theorem keyed_empty : Keyed .empty := by
  constructor <;> simp [TimeClock.empty]

theorem Keyed.row (h : Keyed s) (hmem : entry ∈ s.entries) : s.entry entry.id = some entry :=
  (rowOf_eq_some_iff h.keys).mpr ⟨hmem, rfl⟩

theorem Keyed.insert (h : Keyed s) (new : TimeclockEntry) : Keyed (s.commit (.insert new)) where
  keys := by
    rw [TimeClock.commit, List.map_append, List.map_singleton, List.nodup_append]
    refine ⟨h.keys, List.nodup_singleton _, ?_⟩
    rintro a ha b hb rfl
    obtain ⟨entry, hentry, rfl⟩ := List.mem_map.mp ha
    exact absurd (List.mem_singleton.mp hb) (h.fresh entry hentry).ne
  fresh := fun entry hentry => by
    rcases List.mem_append.mp hentry with hentry | hentry
    · exact (h.fresh entry hentry).trans (Nat.lt_succ_self _)
    · rw [List.mem_singleton.mp hentry]
      exact Nat.lt_succ_self _

theorem Keyed.commit (h : Keyed s) (c : TimeCommit) : Keyed (s.commit c) := by
  cases c with
  | insert new => exact h.insert new
  | write id writer columns =>
    unfold TimeClock.commit
    dsimp only
    split
    · exact h
    · rename_i row hrow
      refine ⟨?_, fun entry hentry => ?_⟩
      · rw [keys_putRow]
        exact h.keys
      · rcases mem_putRow.mp hentry with ⟨hentry, -⟩ | ⟨rfl, -⟩
        · exact h.fresh entry hentry
        · exact h.fresh row (mem_of_rowOf hrow)

end

/-! ### Callers -/

/-- Whose token the request carries. -/
structure Caller where
  userId : Text
  isDispatchManager : Bool
  deriving DecidableEq

inductive ClockRefusal where
  | otherTechnician
  | technicianRequired
  | alreadyClockedIn
  | noActiveClockIn
  | outOfOrder
  | notFound
  | timeOff
  | noteRequired
  | tooOld
  | inFuture
  | tooLong
  /-- An exception nothing catches, or a failed commit. -/
  | serverError
  deriving DecidableEq, Repr

def resolveTechId (caller : Caller) (payloadTechId : Option Text) : Except ClockRefusal Text :=
  let requested := strip (payloadTechId.getD [])
  if requested ≠ [] ∧ requested ≠ caller.userId ∧ caller.isDispatchManager = false then .error .otherTechnician
  else
    let tech := if requested = [] then caller.userId else requested
    if tech = [] then .error .technicianRequired else .ok tech

def MAX_SHIFT_MINUTES : ℤ := 16 * 60
def SELF_SERVICE_EDIT_WINDOW_DAYS : ℤ := 14
def SELF_SERVICE_FUTURE_SKEW : ℤ := 15 * MINUTE

/-- Every stamp lies in the window. -/
def stampsInWindow (now : ℤ) : List Stamp → Except ClockRefusal Unit
  | [] => .ok ()
  | stamp :: stamps =>
    if asAware stamp < now - SELF_SERVICE_EDIT_WINDOW_DAYS * DAY then .error .tooOld
    else if now + SELF_SERVICE_FUTURE_SKEW < asAware stamp then .error .inFuture
    else stampsInWindow now stamps

def enforceSelfServiceLimits (caller : Caller) (now : ℤ) (notes : Option Text) (stamps : List Stamp) :
    Except ClockRefusal Unit :=
  if caller.isDispatchManager then .ok ()
  else if strip (notes.getD []) = [] then .error .noteRequired
  else stampsInWindow now stamps

def enforceSelfServiceDuration (caller : Caller) (minutes : Option ℤ) : Except ClockRefusal Unit :=
  match minutes with
  | none => .ok ()
  | some m => if caller.isDispatchManager = false ∧ MAX_SHIFT_MINUTES < m then .error .tooLong else .ok ()

/-! ### The open shift -/

def TimeclockEntry.isOpen (entry : TimeclockEntry) : Bool := entry.deletedAt.isNone && entry.clockOutAt.isNone

def TimeClock.openShifts (s : TimeClock) (tech : Text) : List TimeclockEntry :=
  s.entries.filter fun entry => entry.technicianId = tech && entry.isOpen

/-- `order_by(clock_in_at.desc()).limit(1)`. -/
def latestClockIn : List TimeclockEntry → Option TimeclockEntry
  | [] => none
  | entry :: entries =>
    match latestClockIn entries with
    | none => some entry
    | some best => if entry.clockInAt.text < best.clockInAt.text then some best else some entry

/-- The shift the status reports and both punches act on. -/
def TimeClock.openShift (s : TimeClock) (tech : Text) : Option TimeclockEntry := latestClockIn (s.openShifts tech)

theorem mem_of_latestClockIn {entries : List TimeclockEntry} {entry : TimeclockEntry} (h : latestClockIn entries = some entry) :
    entry ∈ entries := by
  induction entries generalizing entry with
  | nil => cases h
  | cons first rest ih =>
    rw [latestClockIn] at h
    split at h
    · cases h
      exact List.mem_cons_self
    · rename_i best hbest
      split at h
      · cases h
        exact List.mem_cons_of_mem _ (ih hbest)
      · cases h
        exact List.mem_cons_self

/-- The shift a punch finds is a live open entry of the technician. -/
theorem openShift_spec {s : TimeClock} {entry : TimeclockEntry} {tech : Text} (h : s.openShift tech = some entry) :
    entry ∈ s.entries ∧ entry.technicianId = tech ∧ entry.clockOutAt = none ∧ entry.deletedAt = none := by
  have hmem := mem_of_latestClockIn h
  simp only [TimeClock.openShifts, List.mem_filter, TimeclockEntry.isOpen, Bool.and_eq_true, decide_eq_true_eq,
    Option.isNone_iff_eq_none] at hmem
  exact ⟨hmem.1, hmem.2.1, hmem.2.2.2, hmem.2.2.1⟩

/-! ### Punches -/

structure ClockActionRequest where
  technicianId : Option Text
  notes : Option Text
  deriving DecidableEq

def AUTO_CLOSE_NOTE : Text := "Auto-closed — end time unknown, needs office review".toList

/-- `text.strip(" —")`. -/
def stripDashes (t : Text) : Text :=
  ((t.dropWhile fun c => c = ' ' || c = '—').reverse.dropWhile fun c => c = ' ' || c = '—').reverse

def appendNote (existing : Option Text) (addition : Text) : Text :=
  let current := strip (existing.getD [])
  if addition <:+: current then current
  else if current = [] then addition
  else stripDashes (current ++ " — ".toList ++ addition)

/-- The close of a shift nobody ended: no minutes are known. -/
def autoCloseStaleShift (entry : TimeclockEntry) (now : ℤ) : TimeclockEntry :=
  { entry with
    clockOutAt := some (utcStamp now)
    minutes := none
    notes := some (appendNote entry.notes AUTO_CLOSE_NOTE)
    updatedAt := utcStamp now }

/-- The new shift. -/
def newShift (tech : Text) (now : ℤ) (notes : Option Text) : TimeclockEntry where
  id := 0
  technicianId := tech
  clockInAt := utcStamp now
  clockOutAt := none
  minutes := none
  notes := notes
  entryType := .clock
  createdAt := utcStamp now
  updatedAt := utcStamp now
  deletedAt := none

/-- `now` is taken first; how long the open shift has run is measured at `checked` and it is closed at `closed`. -/
def postClockIn (s : TimeClock) (caller : Caller) (now checked closed : ℤ) (payload : ClockActionRequest) :
    Except ClockRefusal (List TimeCommit) := do
  let tech ← resolveTechId caller payload.technicianId
  match s.openShift tech with
  | none => return [.insert (newShift tech now payload.notes)]
  | some active =>
    if checked - asAware active.clockInAt < MAX_SHIFT_MINUTES * MINUTE then .error .alreadyClockedIn
    else return [saved .autoClose active (autoCloseStaleShift active closed), .insert (newShift tech now payload.notes)]

/-- The shift as clocked out. -/
def clockedOut (entry : TimeclockEntry) (now : ℤ) (notes : Option Text) : TimeclockEntry :=
  { entry with
    clockOutAt := some (utcStamp now)
    minutes := some (minutesBetween entry.clockInAt (utcStamp now))
    notes := notes.or entry.notes
    updatedAt := utcStamp now }

def postClockOut (s : TimeClock) (caller : Caller) (now : ℤ) (payload : ClockActionRequest) :
    Except ClockRefusal (List TimeCommit) := do
  let tech ← resolveTechId caller payload.technicianId
  match s.openShift tech with
  | none => .error .noActiveClockIn
  | some entry => return [saved .clockOut entry (clockedOut entry now payload.notes)]

/-- `get_timeclock_status`, its active entry. -/
def getTimeclockStatus (s : TimeClock) (caller : Caller) (technicianId : Option Text) :
    Except ClockRefusal (Option TimeclockEntry) := do
  let tech ← resolveTechId caller technicianId
  return s.openShift tech

/-! ### Entries by hand -/

structure TimeEntryCreateRequest where
  technicianId : Option Text
  clockInAt : Stamp
  clockOutAt : Stamp
  notes : Option Text
  deriving DecidableEq

/-- The fields sent; `some none` is a null. -/
structure TimeEntryUpdateRequest where
  clockInAt : Option (Option Stamp)
  clockOutAt : Option (Option Stamp)
  notes : Option (Option Text)
  deriving DecidableEq

/-- A stamp is among the fields. -/
def TimeEntryUpdateRequest.stamped (payload : TimeEntryUpdateRequest) : Bool :=
  payload.clockInAt.isSome || payload.clockOutAt.isSome

/-- `clock_out_at <= clock_in_at` of two datetimes; one with an offset and one without cannot be compared. -/
def orderedStamps (clockIn clockOut : Stamp) : Except ClockRefusal Unit :=
  if (clockIn.zone = .naive) ≠ (clockOut.zone = .naive) then .error .serverError
  else if asAware clockOut ≤ asAware clockIn then .error .outOfOrder
  else .ok ()

/-- The entry as keyed. -/
def manualEntry (tech : Text) (clockIn clockOut : Stamp) (now : ℤ) (notes : Option Text) : TimeclockEntry where
  id := 0
  technicianId := tech
  clockInAt := clockIn
  clockOutAt := some clockOut
  minutes := some (minutesBetween clockIn clockOut)
  notes := notes
  entryType := .manual
  createdAt := utcStamp now
  updatedAt := utcStamp now
  deletedAt := none

def createManualEntry (caller : Caller) (now : ℤ) (payload : TimeEntryCreateRequest) :
    Except ClockRefusal (List TimeCommit) := do
  orderedStamps payload.clockInAt payload.clockOutAt
  let tech ← resolveTechId caller payload.technicianId
  let clockIn := utcStamp (asAware payload.clockInAt)
  let clockOut := utcStamp (asAware payload.clockOutAt)
  enforceSelfServiceLimits caller now payload.notes [clockIn, clockOut]
  enforceSelfServiceDuration caller (some (minutesBetween clockIn clockOut))
  return [.insert (manualEntry tech clockIn clockOut now payload.notes)]

/-- Who may write the entry. -/
def mayEdit (caller : Caller) (entry : TimeclockEntry) : Except ClockRefusal Unit :=
  if caller.isDispatchManager then .ok ()
  else if entry.technicianId ≠ caller.userId then .error .otherTechnician
  else if entry.entryType = .timeOff then .error .timeOff
  else .ok ()

/-- The column takes no null: that commit fails. -/
def editedClockIn (entry : TimeclockEntry) : Option (Option Stamp) → Except ClockRefusal Stamp
  | none => .ok entry.clockInAt
  | some none => .error .serverError
  | some (some stamp) => .ok stamp

/-- The minutes of the stamps an update leaves; an end comes after its start. -/
def editedMinutes (clockIn : Stamp) (clockOut : Option Stamp) : Except ClockRefusal (Option ℤ) :=
  match clockOut with
  | none => .ok none
  | some out =>
    if asAware out ≤ asAware clockIn then .error .outOfOrder else .ok (some (minutesBetween clockIn out))

def updateTimeEntry (s : TimeClock) (caller : Caller) (now : ℤ) (entryId : ℕ) (payload : TimeEntryUpdateRequest) :
    Except ClockRefusal (List TimeCommit) :=
  match (s.entry entryId).filter (·.deletedAt.isNone) with
  | none => .error .notFound
  | some entry => do
    mayEdit caller entry
    enforceSelfServiceLimits caller now payload.notes.join
      (entry.clockInAt :: (payload.clockInAt.join.toList ++ payload.clockOutAt.join.toList))
    let clockIn ← editedClockIn entry payload.clockInAt
    let clockOut := payload.clockOutAt.getD entry.clockOutAt
    let minutes ← editedMinutes clockIn clockOut
    enforceSelfServiceDuration caller minutes
    return [saved (.edit payload.stamped) entry
      { entry with
        clockInAt := clockIn
        clockOutAt := clockOut
        minutes := minutes
        notes := payload.notes.getD entry.notes
        updatedAt := utcStamp now }]

/-! ### Calls -/

inductive ClockCall where
  | clockIn (caller : Caller) (now checked closed : ℤ) (payload : ClockActionRequest)
  | clockOut (caller : Caller) (now : ℤ) (payload : ClockActionRequest)
  | create (caller : Caller) (now : ℤ) (payload : TimeEntryCreateRequest)
  | update (caller : Caller) (now : ℤ) (entryId : ℕ) (payload : TimeEntryUpdateRequest)
  deriving DecidableEq

/-- What a call that reads now will commit. -/
def TimeClock.reads (s : TimeClock) : ClockCall → Except ClockRefusal (List TimeCommit)
  | .clockIn caller now checked closed payload => postClockIn s caller now checked closed payload
  | .clockOut caller now payload => postClockOut s caller now payload
  | .create caller now payload => createManualEntry caller now payload
  | .update caller now entryId payload => updateTimeEntry s caller now entryId payload

/-- A call with nothing between its read and its commits. -/
def TimeClock.call (s : TimeClock) (call : ClockCall) : TimeClock :=
  match s.reads call with
  | .ok commits => commits.foldl TimeClock.commit s
  | .error _ => s

def TimeClock.run (calls : List ClockCall) : TimeClock := calls.foldl TimeClock.call .empty

end Gdx.Timeclock
