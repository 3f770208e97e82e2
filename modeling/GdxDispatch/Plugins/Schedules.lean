import GdxDispatch.Core.ShopCalendar

/-! Scheduled plugin runs (`core/plugin_schedules.py`, `plugin_host/app.py`).

    Once a minute the core reads the live catalog, posts the consented runs that are due to the plugin host one after
    another and audits what the host answers; what it could not reach it sends again, twice. The host runs a callable
    inline, remembers the runs it has seen and answers a repeated one with what it remembers. An answer can be lost, and
    each attempt reads catalog and consent anew. -/

namespace Gdx.Schedules

open Lib

/-! ### What is due -/

structure ScheduleSpec where
  name : Text
  cron : Text
  deriving DecidableEq

/-- A live catalog entry, with the fingerprint of what it declares now. -/
structure CatalogEntry where
  key : Text
  schedules : List Text
  scheduleSpecs : List ScheduleSpec
  liveFingerprint : Text
  deriving DecidableEq

/-- A row of `plugin_consent`. -/
structure PluginConsent where
  pluginKey : Text
  declaredFingerprint : Text
  permissions : List Text
  consentedBy : Option Text
  deriving DecidableEq

structure ScheduleRun where
  key : Text
  name : Text
  cron : Text
  minute : ℤ
  consentedBy : Option Text
  deriving DecidableEq

/-- `%Y-%m-%dT%H:%MZ` of a count of minutes. -/
def stampOf (minute : ℤ) : Text :=
  (isoformat (minute / 1440) ++ "T" ++ padded 2 (minute / 60 % 24) ++ ":" ++ padded 2 (minute % 60) ++ "Z").toList

def scheduleRunId (key name scheduledFor : Text) : Text := sepCons ':' key (sepCons ':' name scheduledFor)

def ScheduleRun.runId (run : ScheduleRun) : Text := scheduleRunId run.key run.name (stampOf run.minute)

/-- `schedule_runners`: the owner consented to schedules, and what was consented to is still what is declared. -/
def scheduleRunners (catalog : List CatalogEntry) (consents : List PluginConsent) :
    List (CatalogEntry × Option Text) :=
  catalog.filterMap fun entry =>
    match consents.find? (·.pluginKey = entry.key) with
    | none => none
    | some consent =>
      if entry.scheduleSpecs = [] ∨ "schedules".toList ∉ consent.permissions ∨
          entry.liveFingerprint ≠ consent.declaredFingerprint then none
      else some (entry, consent.consentedBy)

/-- `due_runs`, for what `cron_matches` says of a cron and a minute. -/
def dueRuns (cronMatches : Text → ℤ → Bool) (runners : List (CatalogEntry × Option Text)) (minute : ℤ) :
    List ScheduleRun :=
  runners.flatMap fun (entry, consentedBy) =>
    entry.scheduleSpecs.filterMap fun spec =>
      if spec.name = [] ∨ spec.name ∉ entry.schedules then none
      else if cronMatches spec.cron minute then
        some { key := entry.key, name := spec.name, cron := spec.cron, minute, consentedBy }
      else none

/-! ### The host -/

inductive Outcome where
  | running
  | ok
  | failed (error : Text)
  deriving DecidableEq, Repr

/-- How a callable ends. -/
inductive Ending where
  | returns
  | raises (error : Text)
  deriving DecidableEq, Repr

def Ending.outcome : Ending → Outcome
  | .returns => .ok
  | .raises error => .failed error

def SEEN_RUNS_MAX : ℕ := 2048

/-- `seen_runs`, the newest first, and the runs whose callable was started. -/
structure Host where
  seen : List (Text × Outcome)
  started : List ScheduleRun
  deriving DecidableEq

/-- What the route answers. -/
inductive HostAnswer where
  | missingField
  | unknown
  | duplicate (outcome : Outcome)
  | ran (ending : Ending)
  /-- The callable is still running. -/
  | pending
  deriving DecidableEq

def Host.remember (host : Host) (runId : Text) (outcome : Outcome) : Host :=
  { host with seen := host.seen.map fun (id, was) => if id = runId then (id, outcome) else (id, was) }

/-- The run is noted, and the oldest is forgotten. -/
def Host.start (host : Host) (run : ScheduleRun) : Host where
  seen := ((run.runId, .running) :: host.seen).take SEEN_RUNS_MAX
  started := run :: host.started

/-- `run_schedule`; `ending` is how the callable ends while the caller waits. -/
def Host.runSchedule (declared : Text → Text → Bool) (host : Host) (run : ScheduleRun) (ending : Option Ending) :
    Host × HostAnswer :=
  if run.key = [] ∨ run.name = [] then (host, .missingField)
  else if declared run.key run.name = false then (host, .unknown)
  else
    match host.seen.find? (·.1 = run.runId) with
    | some (_, outcome) => (host, .duplicate outcome)
    | none =>
      match ending with
      | none => (host.start run, .pending)
      | some e => ((host.start run).remember run.runId e.outcome, .ran e)

/-! ### The core -/

/-- An audit row `plugin.schedule_run`; its request id is a hash of the run id, read here as the run id. -/
structure AuditRow where
  runId : Text
  run : ScheduleRun
  outcome : Outcome
  confirmedVia : Option Text
  deriving DecidableEq

/-- Where a tick stands: an attempt is to begin, or its runs are being sent. `only` restricts a retry. -/
inductive Tick where
  | idle
  | waiting (minute : ℤ) (retries : ℕ) (only : Option (List Text))
  | sending (minute : ℤ) (retries : ℕ) (todo : List ScheduleRun) (undelivered : List Text)
  deriving DecidableEq

/-- The two processes and what they logged: runs whose audit failed, runs whose reply could not be read, and the
    dropped-runs lines with the minute and the run ids, or all of them. -/
structure World where
  host : Host
  tick : Tick
  audit : List AuditRow
  auditFailed : List Text
  unreadable : List Text
  dropped : List (ℤ × Option (List Text))
  deriving DecidableEq

def World.empty : World := ⟨⟨[], []⟩, .idle, [], [], [], []⟩

/-- What the core makes of a reply: it can read it, it cannot, or it got none (a timeout, a reset, a 5xx). -/
inductive Reply where
  | readable | unreadable | none
  deriving DecidableEq, Repr

/-- What becomes of a POST. -/
inductive Fate where
  /-- The host does not see it: no connection, a 5xx before the route. -/
  | lost
  /-- It is turned away before the route with a 3xx or a 4xx. -/
  | refused
  | reached (ending : Option Ending) (reply : Reply)
  deriving DecidableEq

inductive Event where
  /-- Beat starts a tick at a minute. -/
  | tick (minute : ℤ)
  /-- An attempt reads the catalog (`none`: it cannot) and the consents. -/
  | fetch (catalog : Option (List CatalogEntry)) (consents : List PluginConsent)
  /-- The next run is posted; `audits` is whether an audit row can be written. -/
  | send (fate : Fate) (audits : Bool)
  /-- A callable that outlived its caller ends. -/
  | ends (runId : Text) (ending : Ending)

def MAX_RETRIES : ℕ := 2

/-- `_audit_run`. -/
def World.auditRun (w : World) (audits : Bool) (run : ScheduleRun) (outcome : Outcome) (confirmedVia : Option Text) :
    World :=
  if audits then { w with audit := ⟨run.runId, run, outcome, confirmedVia⟩ :: w.audit }
  else { w with auditFailed := run.runId :: w.auditFailed }

/-- `_already_audited`. -/
def World.alreadyAudited (w : World) (runId : Text) : Bool := w.audit.any (·.runId = runId)

/-- `_settle_duplicate`, and whether the run is sent again. -/
def World.settleDuplicate (w : World) (audits lastAttempt : Bool) (run : ScheduleRun) (outcome : Outcome) :
    World × Bool :=
  if outcome = .running ∧ lastAttempt = false then (w, true)
  else if w.alreadyAudited run.runId then (w, false)
  else
    (w.auditRun audits run outcome (some (if outcome = .running then
      "still running at the last retry; final outcome unknown".toList else "a later send".toList)), false)

/-- A readable answer, and whether the run is sent again. -/
def World.settle (w : World) (audits lastAttempt : Bool) (run : ScheduleRun) : HostAnswer → World × Bool
  | .missingField => (w, false)
  | .unknown => (w, false)
  | .duplicate outcome => w.settleDuplicate audits lastAttempt run outcome
  | .ran ending => (w.auditRun audits run ending.outcome none, false)
  | .pending => (w, true)

/-- One run posted and its answer settled, and whether it is sent again. -/
def World.postRun (declared : Text → Text → Bool) (w : World) (audits lastAttempt : Bool) (run : ScheduleRun) :
    Fate → World × Bool
  | .lost => (w, true)
  | .refused => (w, false)
  | .reached ending reply =>
    let (host, answer) := w.host.runSchedule declared run ending
    let w := { w with host }
    match reply, answer with
    | .none, _ => (w, true)
    | _, .pending => (w, true)
    | _, .missingField => (w, false)
    | .unreadable, _ => ({ w with unreadable := run.runId :: w.unreadable }, false)
    | .readable, answer => w.settle audits lastAttempt run answer

/-- The end of an attempt: what is undelivered is retried, or dropped. -/
def World.finish (w : World) (minute : ℤ) (retries : ℕ) (undelivered : Option (List Text)) : World :=
  if undelivered = some [] then { w with tick := .idle }
  else if MAX_RETRIES ≤ retries then { w with tick := .idle, dropped := (minute, undelivered) :: w.dropped }
  else { w with tick := .waiting minute (retries + 1) undelivered }

/-- Runs to send, or the end of the attempt. -/
def World.proceed (w : World) (minute : ℤ) (retries : ℕ) (todo : List ScheduleRun) (undelivered : List Text) : World :=
  if todo = [] then w.finish minute retries (some undelivered)
  else { w with tick := .sending minute retries todo undelivered }

/-- The runs of an attempt. -/
def attemptRuns (cronMatches : Text → ℤ → Bool) (catalog : List CatalogEntry) (consents : List PluginConsent)
    (minute : ℤ) (only : Option (List Text)) : List ScheduleRun :=
  (dueRuns cronMatches (scheduleRunners catalog consents) minute).filter fun run =>
    match only with
    | none => true
    | some ids => run.runId ∈ ids

def World.step (cronMatches : Text → ℤ → Bool) (declared : Text → Text → Bool) (w : World) : Event → World
  | .tick minute =>
    match w.tick with
    | .idle => { w with tick := .waiting minute 0 none }
    | _ => w
  | .fetch catalog consents =>
    match w.tick with
    | .waiting minute retries only =>
      match catalog with
      | none => w.finish minute retries none
      | some entries => w.proceed minute retries (attemptRuns cronMatches entries consents minute only) []
    | _ => w
  | .send fate audits =>
    match w.tick with
    | .sending minute retries (run :: todo) undelivered =>
      let (w, again) := w.postRun declared audits (decide (MAX_RETRIES ≤ retries)) run fate
      w.proceed minute retries todo (if again then undelivered ++ [run.runId] else undelivered)
    | _ => w
  | .ends runId ending =>
    match w.host.seen.find? (·.1 = runId) with
    | some (_, .running) => { w with host := w.host.remember runId ending.outcome }
    | _ => w

def World.run (cronMatches : Text → ℤ → Bool) (declared : Text → Text → Bool) (events : List Event) : World :=
  events.foldl (World.step cronMatches declared) .empty

end Gdx.Schedules
