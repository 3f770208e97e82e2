import GdxDispatch.Lib.Runs
import GdxDispatch.Plugins.Schedules

/-! A scheduled run happens once and leaves a trace.

    The host starts no run it remembers, and the core audits no run twice. The trace can still be lost: a run that was
    started by a send without an answer is accounted for by a later send only, and a retry sends it only while catalog
    and consents still have it due. Where they do, and no later send of it is turned away before the route, each run
    that was started is audited or named in a log line when its tick is over. -/

namespace Gdx.Schedules

open Lib

variable {cronMatches : Text → ℤ → Bool} {declared : Text → Text → Bool} {w w' : World} {run was : ScheduleRun}
  {host host' : Host} {answer : HostAnswer} {again : Bool} {minute : ℤ} {retries : ℕ}

/-! ### The laws -/

def World.startedIds (w : World) : List Text := w.host.started.map (·.runId)

def World.auditedIds (w : World) : List Text := w.audit.map (·.runId)

/-- No run is started twice and none is audited twice. -/
def World.AtMostOnce (w : World) : Prop := w.startedIds.Nodup ∧ w.auditedIds.Nodup

/-- A dropped-runs line names the run. -/
def Names (line : ℤ × Option (List Text)) (run : ScheduleRun) : Prop :=
  match line.2 with
  | none => line.1 = run.minute
  | some ids => run.runId ∈ ids

/-- The run is audited, its audit failed, its reply was logged as unreadable, or a dropped-runs line names it. -/
def World.Accounted (w : World) (run : ScheduleRun) : Prop :=
  run.runId ∈ w.auditedIds ∨ run.runId ∈ w.auditFailed ∨ run.runId ∈ w.unreadable ∨
    ∃ line ∈ w.dropped, Names line run

/-- The same schedule at the same minute. -/
structure ScheduleRun.Same (a b : ScheduleRun) : Prop where
  key : a.key = b.key
  name : a.name = b.name
  minute : a.minute = b.minute

/-- A run that is sent again was started fewer than 2048 runs ago. -/
def Recent (w : World) : Event → Prop
  | .send (.reached _ _) _ =>
    match w.tick with
    | .sending _ _ (run :: _) _ => run.runId ∈ w.startedIds → run.runId ∈ w.startedIds.take SEEN_RUNS_MAX
    | _ => True
  | _ => True

/-- An attempt finds due each run that was started and is not accounted for, and none of them is turned away. -/
def KeepsDue (cronMatches : Text → ℤ → Bool) (w : World) : Event → Prop
  | .fetch (some catalog) consents =>
    match w.tick with
    | .waiting minute _ _ => ∀ was ∈ w.host.started, ¬ w.Accounted was →
        ∃ due ∈ dueRuns cronMatches (scheduleRunners catalog consents) minute, due.Same was
    | _ => True
  | .send .refused _ =>
    match w.tick with
    | .sending _ _ (run :: _) _ => ∀ was ∈ w.host.started, run.Same was → w.Accounted was
    | _ => True
  | _ => True

/-! ### What the host and the core do with a run -/

theorem ScheduleRun.Same.runId {a b : ScheduleRun} (h : a.Same b) : a.runId = b.runId := by
  rw [ScheduleRun.runId, ScheduleRun.runId, h.key, h.name, h.minute]

def Host.seenIds (host : Host) : List Text := host.seen.map Prod.fst

@[simp] theorem Host.remember_seenIds (host : Host) (id : Text) (outcome : Outcome) :
    (host.remember id outcome).seenIds = host.seenIds := by
  rw [Host.remember, Host.seenIds, List.map_map, Host.seenIds]
  refine List.map_congr_left fun entry _ => ?_
  obtain ⟨i, was⟩ := entry
  simp only [Function.comp_apply]
  split
  · rfl
  · rfl

theorem Host.start_seenIds (host : Host) (run : ScheduleRun) :
    (host.start run).seenIds = (run.runId :: host.seenIds).take SEEN_RUNS_MAX := by
  simp [Host.start, Host.seenIds, List.map_take]

/-- What the route makes of a run. -/
inductive Served (declared : Text → Text → Bool) (host : Host) (run : ScheduleRun) : Host → HostAnswer → Prop
  | missingField (h : run.key = [] ∨ run.name = []) : Served declared host run host .missingField
  | unknown (h : declared run.key run.name = false) : Served declared host run host .unknown
  | duplicate {outcome : Outcome} (h : run.runId ∈ host.seenIds) : Served declared host run host (.duplicate outcome)
  | started {host' : Host} {answer : HostAnswer} (hfields : ¬(run.key = [] ∨ run.name = []))
      (hdeclared : declared run.key run.name = true) (hnew : run.runId ∉ host.seenIds)
      (hstarted : host'.started = run :: host.started)
      (hseen : host'.seenIds = (run.runId :: host.seenIds).take SEEN_RUNS_MAX)
      (hanswer : answer = .pending ∨ ∃ ending, answer = .ran ending) : Served declared host run host' answer

theorem runSchedule_served {ending : Option Ending} (h : host.runSchedule declared run ending = (host', answer)) :
    Served declared host run host' answer := by
  unfold Host.runSchedule at h
  split at h
  · rename_i hmissing
    cases h
    exact .missingField hmissing
  · rename_i hfields
    split at h
    · rename_i hunknown
      cases h
      exact .unknown hunknown
    · rename_i hdeclared
      split at h
      · rename_i id outcome hfound
        cases h
        obtain rfl : id = run.runId := by simpa using List.find?_some hfound
        exact .duplicate (List.mem_map_of_mem (List.mem_of_find?_eq_some hfound))
      · rename_i hnone
        have hnew : run.runId ∉ host.seenIds := fun hmem => by
          obtain ⟨entry, hentry, hid⟩ := List.mem_map.mp hmem
          simpa [hid] using List.find?_eq_none.mp hnone entry hentry
        have hdeclared : declared run.key run.name = true := by simpa using hdeclared
        split at h
        · cases h
          exact .started hfields hdeclared hnew rfl (host.start_seenIds run) (.inl rfl)
        · rename_i e
          cases h
          refine .started hfields hdeclared hnew rfl ?_ (.inr ⟨e, rfl⟩)
          rw [Host.remember_seenIds]
          exact host.start_seenIds run

/-- What the core makes of an answer. -/
inductive Settled (w : World) (run : ScheduleRun) (answer : HostAnswer) : World → Bool → Prop
  | again : Settled w run answer w true
  | nothing (h : answer = .missingField ∨ answer = .unknown) : Settled w run answer w false
  | known (h : run.runId ∈ w.auditedIds) : Settled w run answer w false
  | audited {row : AuditRow} (hrow : row.runId = run.runId)
      (hanswer : (∃ ending, answer = .ran ending) ∨ (∃ outcome, answer = .duplicate outcome) ∧ run.runId ∉ w.auditedIds) :
      Settled w run answer { w with audit := row :: w.audit } false
  | auditFailed : Settled w run answer { w with auditFailed := run.runId :: w.auditFailed } false
  | unreadable : Settled w run answer { w with unreadable := run.runId :: w.unreadable } false

theorem alreadyAudited_iff {id : Text} : w.alreadyAudited id = true ↔ id ∈ w.auditedIds := by
  simp [World.alreadyAudited, World.auditedIds]

theorem settle_settled {audits lastAttempt : Bool} (h : w.settle audits lastAttempt run answer = (w', again)) :
    Settled w run answer w' again := by
  cases answer with
  | missingField =>
    cases h
    exact .nothing (.inl rfl)
  | unknown =>
    cases h
    exact .nothing (.inr rfl)
  | duplicate outcome =>
    rw [World.settle, World.settleDuplicate] at h
    split at h
    · cases h
      exact .again
    · split at h
      · rename_i haudited
        cases h
        exact .known (alreadyAudited_iff.mp haudited)
      · rename_i hnew
        cases h
        rw [alreadyAudited_iff] at hnew
        unfold World.auditRun
        split
        · exact .audited rfl (.inr ⟨⟨outcome, rfl⟩, hnew⟩)
        · exact .auditFailed
  | ran ending =>
    cases h
    unfold World.auditRun
    split
    · exact .audited rfl (.inl ⟨ending, rfl⟩)
    · exact .auditFailed
  | pending =>
    cases h
    exact .again

theorem postRun_reached (w : World) (run : ScheduleRun) (audits lastAttempt : Bool) (ending : Option Ending)
    (reply : Reply) : ∃ host answer, Served declared w.host run host answer ∧
      Settled { w with host } run answer (w.postRun declared audits lastAttempt run (.reached ending reply)).1
        (w.postRun declared audits lastAttempt run (.reached ending reply)).2 := by
  obtain ⟨w', again, h⟩ : ∃ w' again, w.postRun declared audits lastAttempt run (.reached ending reply) = (w', again) :=
    ⟨_, _, rfl⟩
  rw [h]
  rw [World.postRun] at h
  obtain ⟨host, answer, hserved⟩ : ∃ host answer, w.host.runSchedule declared run ending = (host, answer) :=
    ⟨_, _, rfl⟩
  rw [hserved] at h
  dsimp only at h
  refine ⟨host, answer, runSchedule_served hserved, ?_⟩
  split at h
  · cases h
    exact .again
  · cases h
    exact .again
  · cases h
    exact .nothing (.inl rfl)
  · cases h
    exact .unreadable
  · exact settle_settled h

/-! ### Once -/

/-- The host remembers the last 2048 starts, no run is started twice, and what is audited was started. -/
structure Once (w : World) : Prop where
  seen : w.host.seenIds = w.startedIds.take SEEN_RUNS_MAX
  started : w.startedIds.Nodup
  audit : w.auditedIds.Nodup
  audited : ∀ id ∈ w.auditedIds, id ∈ w.startedIds

/-- Only the host and the audit matter. -/
theorem Once.congr (h : Once w) (hhost : w'.host = w.host) (haudit : w'.audit = w.audit) : Once w' := by
  have hstarted : w'.startedIds = w.startedIds := by rw [World.startedIds, hhost, World.startedIds]
  have hids : w'.auditedIds = w.auditedIds := by rw [World.auditedIds, haudit, World.auditedIds]
  exact ⟨by rw [hhost, hstarted]; exact h.seen, hstarted ▸ h.started, hids ▸ h.audit, hids ▸ hstarted ▸ h.audited⟩

/-- A started run is one the host has not seen, and nobody started. -/
theorem Once.not_started (h : Once w) (hrecent : run.runId ∈ w.startedIds → run.runId ∈ w.startedIds.take SEEN_RUNS_MAX)
    (hnew : run.runId ∉ w.host.seenIds) : run.runId ∉ w.startedIds := fun hmem => by
  rw [h.seen] at hnew
  exact hnew (hrecent hmem)

theorem take_cons_take {α : Type} (a : α) (ids : List α) (n : ℕ) : (a :: ids.take n).take n = (a :: ids).take n := by
  cases n with
  | zero => rfl
  | succ n => rw [List.take_succ_cons, List.take_succ_cons, List.take_take, min_eq_left (Nat.le_succ n)]

theorem Once.served (h : Once w) (hrecent : run.runId ∈ w.startedIds → run.runId ∈ w.startedIds.take SEEN_RUNS_MAX)
    (hserved : Served declared w.host run host answer) : Once { w with host } := by
  cases hserved with
  | missingField _ => exact h
  | unknown _ => exact h
  | duplicate _ => exact h
  | started _ _ hnew hstarted hseen _ =>
    have hids : ({ w with host } : World).startedIds = run.runId :: w.startedIds := by
      rw [World.startedIds, hstarted]
      rfl
    refine ⟨?_, ?_, h.audit, fun id hid => ?_⟩
    · rw [hids, ← take_cons_take, ← h.seen]
      exact hseen
    · rw [hids]
      exact List.nodup_cons.mpr ⟨h.not_started hrecent hnew, h.started⟩
    · rw [hids]
      exact List.mem_cons_of_mem _ (h.audited id hid)

/-- A run that ran now was not audited before; one the host knows was started. -/
theorem Once.settled (h : Once w) (hrecent : run.runId ∈ w.startedIds → run.runId ∈ w.startedIds.take SEEN_RUNS_MAX)
    (hserved : Served declared w.host run host answer) (hsettled : Settled { w with host } run answer w' again) :
    Once w' := by
  have hhost := h.served hrecent hserved
  cases hsettled with
  | again => exact hhost
  | nothing _ => exact hhost
  | known _ => exact hhost
  | auditFailed => exact hhost.congr rfl rfl
  | unreadable => exact hhost.congr rfl rfl
  | audited hrow hanswer =>
    rename_i row
    have hfresh : run.runId ∉ w.auditedIds ∧ run.runId ∈ ({ w with host } : World).startedIds := by
      rcases hanswer with ⟨ending, rfl⟩ | ⟨⟨outcome, rfl⟩, hnew⟩
      · cases hserved with
        | started _ _ hnew hstarted _ _ =>
          refine ⟨fun hmem => h.not_started hrecent hnew (h.audited _ hmem), ?_⟩
          rw [World.startedIds, hstarted]
          exact List.mem_cons_self
      · refine ⟨hnew, ?_⟩
        cases hserved with
        | duplicate hseen =>
          rw [h.seen] at hseen
          exact List.mem_of_mem_take hseen
        | started _ _ _ _ _ hanswer =>
          rcases hanswer with hanswer | ⟨ending, hanswer⟩
          · cases hanswer
          · cases hanswer
    refine ⟨hhost.seen, hhost.started, ?_, fun id hid => ?_⟩
    · refine List.nodup_cons.mpr ⟨?_, h.audit⟩
      change row.runId ∉ w.auditedIds
      rw [hrow]
      exact hfresh.1
    · rcases List.mem_cons.mp hid with rfl | hid
      · change row.runId ∈ ({ w with host } : World).startedIds
        rw [hrow]
        exact hfresh.2
      · exact hhost.audited id hid

theorem finish_host (undelivered : Option (List Text)) : (w.finish minute retries undelivered).host = w.host ∧
    (w.finish minute retries undelivered).audit = w.audit := by
  unfold World.finish
  split
  · exact ⟨rfl, rfl⟩
  · split
    · exact ⟨rfl, rfl⟩
    · exact ⟨rfl, rfl⟩

theorem proceed_host (todo : List ScheduleRun) (undelivered : List Text) :
    (w.proceed minute retries todo undelivered).host = w.host ∧
      (w.proceed minute retries todo undelivered).audit = w.audit := by
  unfold World.proceed
  split
  · exact finish_host _
  · exact ⟨rfl, rfl⟩

theorem Once.ends (h : Once w) (id : Text) (ending : Ending) :
    Once { w with host := w.host.remember id ending.outcome } :=
  ⟨(Host.remember_seenIds _ _ _).trans h.seen, h.started, h.audit, h.audited⟩

theorem Once.step {event : Event} (h : Once w) (hrecent : Recent w event) :
    Once (w.step cronMatches declared event) := by
  cases event with
  | tick minute =>
    rw [World.step]
    split
    · exact h.congr rfl rfl
    · exact h
  | fetch catalog consents =>
    rw [World.step]
    split
    · split
      · exact h.congr (finish_host _).1 (finish_host _).2
      · exact h.congr (proceed_host _ _).1 (proceed_host _ _).2
    · exact h
  | send fate audits =>
    rw [World.step]
    split
    · rename_i minute retries run todo undelivered htick
      have hposted : Once (w.postRun declared audits (decide (MAX_RETRIES ≤ retries)) run fate).1 := by
        cases fate with
        | lost => exact h
        | refused => exact h
        | reached ending reply =>
          obtain ⟨host, answer, hserved, hsettled⟩ :=
            postRun_reached w run audits (decide (MAX_RETRIES ≤ retries)) ending reply
          rw [Recent, htick] at hrecent
          exact h.settled hrecent hserved hsettled
      exact hposted.congr (proceed_host _ _).1 (proceed_host _ _).2
    · exact h
  | ends id ending =>
    rw [World.step]
    split
    · exact h.ends id ending
    · exact h

/-! ### The trace -/

/-- The tick still answers for the run: it belongs to its minute, and the run is to be sent or undelivered. -/
def Tick.InHand (run : ScheduleRun) : Tick → Prop
  | .idle => False
  | .waiting minute _ only => run.minute = minute ∧ ∀ ids ∈ only, run.runId ∈ ids
  | .sending minute _ todo undelivered =>
    run.minute = minute ∧ ((∃ due ∈ todo, due.Same run) ∨ run.runId ∈ undelivered)

/-- Started runs are declared, runs to send are of the tick's minute, and a started run is accounted for or in hand. -/
structure Traced (declared : Text → Text → Bool) (w : World) : Prop where
  declared : ∀ run ∈ w.host.started, run.key ≠ [] ∧ run.name ≠ [] ∧ declared run.key run.name = true
  minute : ∀ minute retries todo undelivered, w.tick = .sending minute retries todo undelivered →
    ∀ run ∈ todo, run.minute = minute
  held : ∀ run ∈ w.host.started, w.Accounted run ∨ w.tick.InHand run

/-- Logs only grow. -/
theorem World.Accounted.mono (h : w.Accounted run) (haudit : ∀ id ∈ w.auditedIds, id ∈ w'.auditedIds)
    (hfailed : ∀ id ∈ w.auditFailed, id ∈ w'.auditFailed) (hunreadable : ∀ id ∈ w.unreadable, id ∈ w'.unreadable)
    (hdropped : ∀ line ∈ w.dropped, line ∈ w'.dropped) : w'.Accounted run := by
  rcases h with h | h | h | ⟨line, hline, hnames⟩
  · exact .inl (haudit _ h)
  · exact .inr (.inl (hfailed _ h))
  · exact .inr (.inr (.inl (hunreadable _ h)))
  · exact .inr (.inr (.inr ⟨line, hdropped line hline, hnames⟩))

/-- Every log is the same. -/
theorem World.Accounted.congr (h : w.Accounted run) (haudit : w'.audit = w.audit)
    (hfailed : w'.auditFailed = w.auditFailed) (hunreadable : w'.unreadable = w.unreadable)
    (hdropped : w'.dropped = w.dropped) : w'.Accounted run := by
  refine h.mono ?_ ?_ ?_ ?_
  · rw [World.auditedIds, World.auditedIds, haudit]
    exact fun _ hid => hid
  · rw [hfailed]
    exact fun _ hid => hid
  · rw [hunreadable]
    exact fun _ hid => hid
  · rw [hdropped]
    exact fun _ hline => hline

/-- An attempt ends: what is undelivered is retried or named. -/
theorem finish_held {undelivered : Option (List Text)} (h : w.Accounted run ∨
    (run.minute = minute ∧ ∀ ids ∈ undelivered, run.runId ∈ ids)) :
    (w.finish minute retries undelivered).Accounted run ∨ (w.finish minute retries undelivered).tick.InHand run := by
  unfold World.finish
  split
  · rename_i hnone
    rcases h with h | ⟨-, hids⟩
    · exact .inl (h.congr rfl rfl rfl rfl)
    · exact absurd (hids [] hnone) List.not_mem_nil
  · split
    · refine .inl ?_
      rcases h with h | ⟨hminute, hids⟩
      · exact h.mono (fun _ hid => hid) (fun _ hid => hid) (fun _ hid => hid) fun _ hline => List.mem_cons_of_mem _ hline
      · refine .inr (.inr (.inr ⟨_, List.mem_cons_self, ?_⟩))
        cases undelivered with
        | none => exact hminute.symm
        | some ids => exact hids ids rfl
    · rcases h with h | h
      · exact .inl (h.congr rfl rfl rfl rfl)
      · exact .inr h

theorem proceed_held {todo : List ScheduleRun} {undelivered : List Text} (h : w.Accounted run ∨
    (run.minute = minute ∧ ((∃ due ∈ todo, due.Same run) ∨ run.runId ∈ undelivered))) :
    (w.proceed minute retries todo undelivered).Accounted run ∨
      (w.proceed minute retries todo undelivered).tick.InHand run := by
  unfold World.proceed
  split
  · rename_i hnone
    subst hnone
    refine finish_held (h.imp_right ?_)
    rintro ⟨hminute, ⟨due, hdue, -⟩ | hid⟩
    · cases hdue
    · refine ⟨hminute, fun ids hids => ?_⟩
      cases hids
      exact hid
  · rcases h with h | h
    · exact .inl (h.congr rfl rfl rfl rfl)
    · exact .inr h

theorem proceed_minute {todo : List ScheduleRun} {undelivered : List Text} (h : ∀ run ∈ todo, run.minute = minute) :
    ∀ m r t u, (w.proceed minute retries todo undelivered).tick = .sending m r t u → ∀ run ∈ t, run.minute = m := by
  intro m r t u htick
  unfold World.proceed World.finish at htick
  split at htick
  · split at htick
    · cases htick
    · split at htick
      · cases htick
      · cases htick
  · cases htick
    exact h

/-- Due runs are of the minute, and the minute's are found in an attempt restricted to ids that include theirs. -/
theorem mem_dueRuns_minute {runners : List (CatalogEntry × Option Text)}
    (h : run ∈ dueRuns cronMatches runners minute) : run.minute = minute := by
  simp only [dueRuns, List.mem_flatMap, List.mem_filterMap] at h
  obtain ⟨entry, -, spec, -, hspec⟩ := h
  split at hspec
  · cases hspec
  · split at hspec
    · cases hspec
      rfl
    · cases hspec

/-- Every started run is an old one or the run that was served. -/
theorem Served.started_or (h : Served declared host run host' answer) (hwas : was ∈ host'.started) :
    was ∈ host.started ∨ (was = run ∧ run.key ≠ [] ∧ run.name ≠ [] ∧ declared run.key run.name = true) := by
  cases h with
  | missingField _ => exact .inl hwas
  | unknown _ => exact .inl hwas
  | duplicate _ => exact .inl hwas
  | started hfields hdeclared _ hstarted _ _ =>
    rw [hstarted] at hwas
    rcases List.mem_cons.mp hwas with rfl | hwas
    · exact .inr ⟨rfl, (not_or.mp hfields).1, (not_or.mp hfields).2, hdeclared⟩
    · exact .inl hwas

/-- An answer that settles nothing is about a schedule that never ran. -/
theorem Served.never_ran (h : Served declared w.host run host answer) (htraced : Traced declared w)
    (hanswer : answer = .missingField ∨ answer = .unknown) (hwas : was ∈ host.started) (hsame : run.Same was) : False := by
  cases h with
  | missingField hmissing =>
    obtain ⟨hkey, hname, -⟩ := htraced.declared was hwas
    rcases hmissing with hmissing | hmissing
    · exact hkey (hsame.key ▸ hmissing)
    · exact hname (hsame.name ▸ hmissing)
  | unknown hunknown =>
    obtain ⟨-, -, hdeclared⟩ := htraced.declared was hwas
    rw [hsame.key, hsame.name, hdeclared] at hunknown
    cases hunknown
  | duplicate _ => rcases hanswer with h | h <;> cases h
  | started _ _ _ _ _ hran =>
    rcases hran with rfl | ⟨ending, rfl⟩
    · rcases hanswer with h | h <;> cases h
    · rcases hanswer with h | h <;> cases h

theorem Settled.host_eq (h : Settled { w with host } run answer w' again) : w'.host = host := by
  cases h <;> rfl

theorem Settled.accounted (h : Settled { w with host } run answer w' again) (hwas : w.Accounted was) :
    w'.Accounted was := by
  cases h with
  | again => exact hwas
  | nothing _ => exact hwas
  | known _ => exact hwas
  | audited _ _ =>
    exact hwas.mono (fun _ hid => List.mem_cons_of_mem _ hid) (fun _ hid => hid) (fun _ hid => hid) fun _ hline => hline
  | auditFailed =>
    exact hwas.mono (fun _ hid => hid) (fun _ hid => List.mem_cons_of_mem _ hid) (fun _ hid => hid) fun _ hline => hline
  | unreadable =>
    exact hwas.mono (fun _ hid => hid) (fun _ hid => hid) (fun _ hid => List.mem_cons_of_mem _ hid) fun _ hline => hline

/-- A run that is not sent again is accounted for. -/
theorem Settled.settles (h : Settled { w with host } run answer w' false) (hserved : Served declared w.host run host answer)
    (htraced : Traced declared w) (hwas : was ∈ host.started) (hsame : run.Same was) : w'.Accounted was := by
  have hid : was.runId = run.runId := hsame.runId.symm
  cases h with
  | nothing hanswer => exact (hserved.never_ran htraced hanswer hwas hsame).elim
  | known haudited => exact .inl (hid ▸ haudited)
  | audited hrow _ =>
    rename_i row
    refine .inl (List.mem_cons.mpr (.inl ?_))
    exact hid.trans hrow.symm
  | auditFailed => exact .inr (.inl (List.mem_cons.mpr (.inl hid)))
  | unreadable => exact .inr (.inr (.inl (List.mem_cons.mpr (.inl hid))))

/-- What one send leaves of the started runs. -/
structure Sent (declared : Text → Text → Bool) (w : World) (run : ScheduleRun) (w' : World) (again : Bool) : Prop where
  started : ∀ was ∈ w'.host.started, was ∈ w.host.started ∨
    (was = run ∧ run.key ≠ [] ∧ run.name ≠ [] ∧ declared run.key run.name = true)
  accounted : ∀ was, w.Accounted was → w'.Accounted was
  settles : again = false → ∀ was ∈ w'.host.started, run.Same was → w'.Accounted was

theorem postRun_sent {audits lastAttempt : Bool} {fate : Fate} (h : Traced declared w)
    (hturned : fate = .refused → ∀ was ∈ w.host.started, run.Same was → w.Accounted was) :
    Sent declared w run (w.postRun declared audits lastAttempt run fate).1
      (w.postRun declared audits lastAttempt run fate).2 := by
  cases fate with
  | lost => exact ⟨fun was hwas => .inl hwas, fun _ hacc => hacc, nofun⟩
  | refused => exact ⟨fun was hwas => .inl hwas, fun _ hacc => hacc, fun _ => hturned rfl⟩
  | reached ending reply =>
    obtain ⟨host, answer, hserved, hsettled⟩ := postRun_reached w run audits lastAttempt ending reply
    refine ⟨fun was hwas => ?_, fun was hwas => hsettled.accounted hwas, fun hagain was hwas hsame => ?_⟩
    · rw [hsettled.host_eq] at hwas
      exact hserved.started_or hwas
    · rw [hsettled.host_eq] at hwas
      rw [hagain] at hsettled
      exact hsettled.settles hserved h hwas hsame

/-- After a send the next run is up, and the old one is accounted for or undelivered. -/
theorem Traced.sent {todo : List ScheduleRun} {undelivered : List Text} (h : Traced declared w)
    (htick : w.tick = .sending minute retries (run :: todo) undelivered) (hsent : Sent declared w run w' again) :
    Traced declared
      (w'.proceed minute retries todo (if again then undelivered ++ [run.runId] else undelivered)) where
  declared := fun was hwas => by
    rw [(proceed_host _ _).1] at hwas
    rcases hsent.started was hwas with hwas | ⟨rfl, hkey, hname, hdeclared⟩
    · exact h.declared was hwas
    · exact ⟨hkey, hname, hdeclared⟩
  minute := proceed_minute fun next hnext => h.minute _ _ _ _ htick next (List.mem_cons_of_mem _ hnext)
  held := fun was hwas => by
    rw [(proceed_host _ _).1] at hwas
    refine proceed_held ?_
    by_cases hacc : w'.Accounted was
    · exact .inl hacc
    · refine .inr ?_
      have hhead : run.Same was → was.runId ∈ (if again then undelivered ++ [run.runId] else undelivered) :=
          fun hsame => by
        cases again with
        | true =>
          rw [if_pos rfl, ← hsame.runId]
          exact List.mem_append_right _ (List.mem_singleton_self _)
        | false => exact absurd (hsent.settles rfl was hwas hsame) hacc
      rcases hsent.started was hwas with hwas | ⟨rfl, -⟩
      · rcases h.held was hwas with hwas | hhand
        · exact absurd (hsent.accounted was hwas) hacc
        · rw [htick] at hhand
          obtain ⟨hminute, ⟨due, hdue, hsame⟩ | hid⟩ := hhand
          · rcases List.mem_cons.mp hdue with rfl | hdue
            · exact ⟨hminute, .inr (hhead hsame)⟩
            · exact ⟨hminute, .inl ⟨due, hdue, hsame⟩⟩
          · refine ⟨hminute, .inr ?_⟩
            cases again with
            | true =>
              rw [if_pos rfl]
              exact List.mem_append_left _ hid
            | false => exact hid
      · exact ⟨h.minute _ _ _ _ htick was List.mem_cons_self, .inr (hhead ⟨rfl, rfl, rfl⟩)⟩

/-- An attempt that finds the open runs due has them to send. -/
theorem Traced.fetched {only : Option (List Text)} {catalog : List CatalogEntry} {consents : List PluginConsent}
    (h : Traced declared w) (htick : w.tick = .waiting minute retries only)
    (hdue : ∀ was ∈ w.host.started, ¬ w.Accounted was →
      ∃ due ∈ dueRuns cronMatches (scheduleRunners catalog consents) minute, due.Same was) :
    Traced declared (w.proceed minute retries (attemptRuns cronMatches catalog consents minute only) []) where
  declared := fun was hwas => by
    rw [(proceed_host _ _).1] at hwas
    exact h.declared was hwas
  minute := proceed_minute fun next hnext => mem_dueRuns_minute (List.mem_of_mem_filter hnext)
  held := fun was hwas => by
    rw [(proceed_host _ _).1] at hwas
    refine proceed_held ?_
    by_cases hacc : w.Accounted was
    · exact .inl hacc
    · obtain ⟨due, hmem, hsame⟩ := hdue was hwas hacc
      have hhand := (h.held was hwas).resolve_left hacc
      rw [htick] at hhand
      refine .inr ⟨hhand.1, .inl ⟨due, List.mem_filter.mpr ⟨hmem, ?_⟩, hsame⟩⟩
      cases only with
      | none => rfl
      | some ids =>
        rw [hsame.runId]
        exact decide_eq_true (hhand.2 ids rfl)

theorem Traced.failed {only : Option (List Text)} (h : Traced declared w)
    (htick : w.tick = .waiting minute retries only) : Traced declared (w.finish minute retries none) where
  declared := fun was hwas => by
    rw [(finish_host _).1] at hwas
    exact h.declared was hwas
  minute := fun m r t u hsending => by
    unfold World.finish at hsending
    split at hsending
    · cases hsending
    · split at hsending
      · cases hsending
      · cases hsending
  held := fun was hwas => by
    rw [(finish_host _).1] at hwas
    refine finish_held ((h.held was hwas).imp_right fun hhand => ?_)
    rw [htick] at hhand
    exact ⟨hhand.1, nofun⟩

theorem Traced.step {event : Event} (h : Traced declared w) (hdue : KeepsDue cronMatches w event) :
    Traced declared (w.step cronMatches declared event) := by
  cases event with
  | tick minute =>
    rw [World.step]
    split
    · rename_i htick
      refine ⟨h.declared, nofun, fun was hwas => .inl ?_⟩
      rcases h.held was hwas with hwas | hhand
      · exact hwas.congr rfl rfl rfl rfl
      · rw [htick] at hhand
        exact hhand.elim
    · exact h
  | fetch catalog consents =>
    rw [World.step]
    split
    · rename_i minute retries only htick
      cases catalog with
      | none => exact h.failed htick
      | some entries =>
        rw [KeepsDue, htick] at hdue
        exact h.fetched htick hdue
    · exact h
  | send fate audits =>
    rw [World.step]
    split
    · rename_i minute retries run todo undelivered htick
      refine h.sent htick (postRun_sent h fun hrefused => ?_)
      subst hrefused
      rw [KeepsDue, htick] at hdue
      exact hdue
    · exact h
  | ends id ending =>
    rw [World.step]
    split
    · exact ⟨h.declared, h.minute, fun was hwas => (h.held was hwas).imp_left fun hacc => hacc.congr rfl rfl rfl rfl⟩
    · exact h

/-! ### Runs -/

/-- In every state no run is started or audited twice. -/
def RunsOnce (cronMatches : Text → ℤ → Bool) (declared : Text → Text → Bool) (events : List Event) : Prop :=
  ∀ before after, events = before ++ after → (World.run cronMatches declared before).AtMostOnce

/-- Whenever no tick is open, every started run is accounted for. -/
def RunsTraced (cronMatches : Text → ℤ → Bool) (declared : Text → Text → Bool) (events : List Event) : Prop :=
  ∀ before after, events = before ++ after → (World.run cronMatches declared before).tick = .idle →
    ∀ run ∈ (World.run cronMatches declared before).host.started, (World.run cronMatches declared before).Accounted run

theorem once_empty : Once .empty := by
  constructor <;> simp [World.empty, Host.seenIds, World.startedIds, World.auditedIds]

theorem traced_empty : Traced declared .empty := by
  constructor <;> simp [World.empty]

/-- While the host remembers what it started, a run happens once and is audited once; while the open runs stay due, it
    leaves a trace as well. -/
theorem scheduled_run_once_and_traced (cronMatches : Text → ℤ → Bool) (declared : Text → Text → Bool)
    (events : List Event) (hrecent : Along (World.step cronMatches declared) Recent .empty events) :
    RunsOnce cronMatches declared events ∧
      (Along (World.step cronMatches declared) (KeepsDue cronMatches) .empty events →
        RunsTraced cronMatches declared events) := by
  refine ⟨?_, fun hdue => ?_⟩
  · rintro before after rfl
    have hstep : ∀ (w : World) (event : Event), Once w → Recent w event → Once (w.step cronMatches declared event) :=
      fun w event hw hfit => hw.step hfit
    have honce : Once (World.run cronMatches declared before) := (along_append.mp hrecent).1.keeps hstep once_empty
    exact ⟨honce.started, honce.audit⟩
  · rintro before after rfl hidle run hrun
    have hstep : ∀ (w : World) (event : Event), Traced declared w → KeepsDue cronMatches w event →
        Traced declared (w.step cronMatches declared event) := fun w event hw hfit => hw.step hfit
    have htraced : Traced declared (World.run cronMatches declared before) :=
      (along_append.mp hdue).1.keeps hstep traced_empty
    rcases htraced.held run hrun with hacc | hhand
    · exact hacc
    · rw [hidle] at hhand
      exact hhand.elim

/-! ### A run whose first send times out -/

def nightlyEntry : CatalogEntry where
  key := "qb".toList
  schedules := ["nightly".toList]
  scheduleSpecs := [⟨"nightly".toList, "0 3 * * *".toList⟩]
  liveFingerprint := "f".toList

def nightlyConsent : PluginConsent where
  pluginKey := "qb".toList
  declaredFingerprint := "f".toList
  permissions := ["schedules".toList]
  consentedBy := some "owner".toList

def nightlyRun : ScheduleRun := ⟨"qb".toList, "nightly".toList, "0 3 * * *".toList, 180, some "owner".toList⟩

def atThree : Text → ℤ → Bool := fun _ minute => minute = 180

def hostHasAll : Text → Text → Bool := fun _ _ => true

/-- The callable is started, the core stops waiting, and the callable returns. -/
def timedOut : List Event :=
  [.tick 180, .fetch (some [nightlyEntry]) [nightlyConsent], .send (.reached none .none) true,
    .ends nightlyRun.runId .returns]

/-- The retry finds the run due and is told how it ended. -/
def confirmed : List Event :=
  timedOut ++ [.fetch (some [nightlyEntry]) [nightlyConsent], .send (.reached none .readable) true]

theorem confirmed_once_and_traced :
    RunsOnce atThree hostHasAll confirmed ∧ RunsTraced atThree hostHasAll confirmed := by
  have hlaw := scheduled_run_once_and_traced atThree hostHasAll confirmed
    ⟨trivial, trivial, fun h => h, trivial, trivial, fun h => h, trivial⟩
  refine ⟨hlaw.1, hlaw.2 ⟨trivial, fun _ => nofun, trivial, trivial, fun was hwas _ => ?_, trivial, trivial⟩⟩
  obtain rfl : was = nightlyRun := List.mem_singleton.mp hwas
  exact ⟨nightlyRun, by decide +kernel, rfl, rfl, rfl⟩

/-- The owner withdraws the consent before the retry: the run is not due, and nothing says that it happened. -/
def withdrawn : List Event := timedOut ++ [.fetch (some [nightlyEntry]) []]

theorem withdrawn_run_untraced : ¬ ∀ cronMatches declared events,
    Along (World.step cronMatches declared) Recent .empty events →
      RunsOnce cronMatches declared events ∧ RunsTraced cronMatches declared events := by
  intro h
  have htraced := (h atThree hostHasAll withdrawn ⟨trivial, trivial, fun h => h, trivial, trivial, trivial⟩).2
    withdrawn [] (by simp) (by decide +kernel) nightlyRun (by decide +kernel)
  have hsilent : World.run atThree hostHasAll withdrawn = { World.empty with
      host := ⟨[(nightlyRun.runId, .ok)], [nightlyRun]⟩ } := by decide +kernel
  rw [hsilent] at htraced
  simp [World.Accounted, World.auditedIds, World.empty] at htraced

end Gdx.Schedules
