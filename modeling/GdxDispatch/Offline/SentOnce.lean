import GdxDispatch.Offline.LatestWins

/-! A queued write is never sent twice by surprise.

    The record of a run tells which transmissions of a row are open and which got no clear answer. A row in line
    has no open transmission, and its stamp is no later than the first unanswered one since the last retry; a row
    on the wire is covered by its stamp or by the time it was claimed. So the claim's test of the replay window is a
    test of the first unanswered transmission, through any number of stale tokens, server errors and reloads. -/

namespace Gdx

open Lib

/-! ### Reading the record -/

/-- When the transmission of the row that is still open started. -/
def openSince (id : ℕ) : List QueueEvent → Option ℕ
  | [] => none
  | .sent other _ time :: earlier => if other = id then some time else openSince id earlier
  | .heard other _ :: earlier => if other = id then none else openSince id earlier
  | .died :: _ => none
  | .retried _ :: earlier => openSince id earlier

/-- When the transmissions that got no clear answer started, since the tech's last retry of the row. -/
def unanswered (id : ℕ) : List QueueEvent → List ℕ
  | [] => []
  | .sent _ _ _ :: earlier => unanswered id earlier
  | .heard other clear :: earlier =>
    if other = id ∧ clear = false then (openSince id earlier).toList ++ unanswered id earlier else unanswered id earlier
  | .died :: earlier => (openSince id earlier).toList ++ unanswered id earlier
  | .retried other :: earlier => if other = id then [] else unanswered id earlier

/-- A page died while the row was on the wire. -/
def diedSending (id : ℕ) : List QueueEvent → Bool
  | [] => false
  | .died :: earlier => (openSince id earlier).isSome || diedSending id earlier
  | _ :: earlier => diedSending id earlier

/-- The row an event is about. -/
def QueueEvent.about : QueueEvent → Option ℕ
  | .sent id _ _ => some id
  | .heard id _ => some id
  | .died => none
  | .retried id => some id

/-- An event about one row changes nothing for another. -/
theorem readings_of_other {event : QueueEvent} {id other : ℕ} (he : event.about = some other) (hne : other ≠ id)
    (h : List QueueEvent) :
    openSince id (event :: h) = openSince id h ∧ unanswered id (event :: h) = unanswered id h ∧
      diedSending id (event :: h) = diedSending id h := by
  cases event with
  | died => cases he
  | sent i actionType time =>
    cases he
    simp [openSince, unanswered, diedSending, hne]
  | heard i clear =>
    cases he
    simp [openSince, unanswered, diedSending, hne]
  | retried i =>
    cases he
    simp [openSince, unanswered, diedSending, hne]

/-! ### A row and its record -/

/-- The row agrees with the record. -/
structure OnRecord (now : ℕ) (h : List QueueEvent) (r : QueueRow) : Prop where
  closed : r.status ≠ .syncing → openSince r.id h = none
  last : ∀ time, openSince r.id h = some time → r.lastAttemptedAt = some time
  stamped : r.status = .pending ∨ (openSince r.id h).isSome → ∀ time ∈ unanswered r.id h,
    ∃ since, r.firstMaybeRanAt = some since ∧ since ≤ time
  covered : r.status = .syncing → ∀ time ∈ (openSince r.id h).toList ++ unanswered r.id h,
    ∃ since, r.firstMaybeRanAt.or r.lastAttemptedAt = some since ∧ since ≤ time
  early : ∀ since, r.firstMaybeRanAt = some since ∨ r.lastAttemptedAt = some since → since ≤ now
  payment : isRetryable r.actionType = false → diedSending r.id h = true →
    r.status ≠ .pending ∧ openSince r.id h = none

section Rows
variable {now now' : ℕ} {h : List QueueEvent} {r x : QueueRow}

theorem OnRecord.later (hr : OnRecord now h r) (hle : now ≤ now') : OnRecord now' h r :=
  { hr with early := fun since hs => le_trans (hr.early since hs) hle }

/-- A row no event is about agrees with the record. -/
theorem OnRecord.fresh (hopen : openSince r.id h = none) (hun : unanswered r.id h = [])
    (hdied : diedSending r.id h = false) (hs : r.status = .pending) (hfirst : r.firstMaybeRanAt = none)
    (hlast : r.lastAttemptedAt = none) : OnRecord now h r where
  closed := fun _ => hopen
  last := by simp [hopen]
  stamped := by simp [hun]
  covered := by simp [hs]
  early := by simp [hfirst, hlast]
  payment := by simp [hdied]

theorem OnRecord.other (hr : OnRecord now h r) {event : QueueEvent} {id : ℕ} (he : event.about = some id)
    (hne : id ≠ r.id) : OnRecord now (event :: h) r := by
  obtain ⟨hopen, hun, hdied⟩ := readings_of_other he hne h
  constructor
  · rw [hopen]
    exact hr.closed
  · rw [hopen]
    exact hr.last
  · rw [hopen, hun]
    exact hr.stamped
  · rw [hopen, hun]
    exact hr.covered
  · exact hr.early
  · rw [hopen, hdied]
    exact hr.payment

/-- The claim sends the row. -/
theorem OnRecord.take (hr : OnRecord now h r) (hs : r.status = .pending) (actionType : Text) :
    OnRecord now (.sent r.id actionType now :: h) { r with status := .syncing, lastAttemptedAt := some now } where
  closed := by simp
  last := by
    intro time htime
    simpa [openSince] using htime
  stamped := by
    intro _ time htime
    exact hr.stamped (Or.inl hs) time htime
  covered := by
    intro _ time htime
    have hcases : time = now ∨ time ∈ unanswered r.id h := by simpa [openSince, unanswered, eq_comm] using htime
    rcases hcases with rfl | htime
    · cases hfirst : r.firstMaybeRanAt with
      | none => exact ⟨time, rfl, le_rfl⟩
      | some since => exact ⟨since, rfl, hr.early since (Or.inl hfirst)⟩
    · obtain ⟨since, hsince, hle⟩ := hr.stamped (Or.inl hs) time htime
      exact ⟨since, by rw [hsince]; rfl, hle⟩
  early := by
    rintro since (hfirst | hlast)
    · exact hr.early since (Or.inl hfirst)
    · cases hlast
      exact le_rfl
  payment := by
    intro hpay hdied
    have hdied : diedSending r.id h = true := hdied
    exact absurd hs (hr.payment hpay hdied).1

/-- A row that leaves the line without being sent. -/
theorem OnRecord.fail (hr : OnRecord now h r) (hopen : openSince r.id h = none) {y : QueueRow} (hid : y.id = r.id)
    (hs : y.status = .failed) (hfirst : y.firstMaybeRanAt = r.firstMaybeRanAt)
    (hlast : y.lastAttemptedAt = r.lastAttemptedAt) : OnRecord now h y where
  closed := fun _ => hid ▸ hopen
  last := by simp [hid, hopen]
  stamped := by simp [hs, hid, hopen]
  covered := by simp [hs]
  early := hfirst ▸ hlast ▸ hr.early
  payment := by simp [hs, hid, hopen]

/-- Flags alone do not matter. -/
theorem OnRecord.retire (hr : OnRecord now h r) : OnRecord now h r.retire :=
  ⟨hr.closed, hr.last, hr.stamped, hr.covered, hr.early, hr.payment⟩

/-- The tech puts a refused row back in line. -/
theorem OnRecord.requeue (hr : OnRecord now h r) (hs : r.status = .failed) (hretry : isRetryable r.actionType = true) :
    OnRecord now (.retried r.id :: h) r.requeue where
  closed := fun _ => hr.closed (by rw [hs]; decide)
  last := by
    intro time htime
    have htime : openSince r.id h = some time := htime
    rw [hr.closed (by rw [hs]; decide)] at htime
    cases htime
  stamped := by simp [QueueRow.requeue, unanswered]
  covered := by simp [QueueRow.requeue]
  early := by
    rintro since (hfirst | hlast)
    · cases hfirst
    · exact hr.early since (Or.inr hlast)
  payment := by
    intro hpay
    have hpay : isRetryable r.actionType = false := hpay
    rw [hretry] at hpay
    cases hpay

/-- A page dies: an open transmission gets no answer. -/
theorem OnRecord.died (hr : OnRecord now h r) : OnRecord now (.died :: h) r where
  closed := fun _ => rfl
  last := by simp [openSince]
  stamped := by
    intro hs time htime
    rcases hs with hs | hs
    · have hnone := hr.closed (by rw [hs]; decide)
      refine hr.stamped (Or.inl hs) time ?_
      simpa [unanswered, hnone] using htime
    · cases hs
  covered := by
    intro hs time htime
    exact hr.covered hs time htime
  early := hr.early
  payment := by
    intro hpay hdied
    refine ⟨?_, rfl⟩
    intro hs
    have hnone := hr.closed (by rw [hs]; decide)
    simp only [diedSending, hnone, Option.isSome_none, Bool.false_or] at hdied
    exact (hr.payment hpay hdied).1 hs

/-- The time from which a row on the wire counts. -/
theorem OnRecord.stamp_early (hr : OnRecord now h r) (hsome : r.lastAttemptedAt.isSome) :
    ∃ since, r.firstMaybeRanAt.or r.lastAttemptedAt = some since ∧ since ≤ now := by
  obtain ⟨time, htime⟩ := Option.isSome_iff_exists.mp hsome
  cases hfirst : r.firstMaybeRanAt with
  | none => exact ⟨time, by rw [htime]; rfl, hr.early time (Or.inr htime)⟩
  | some since => exact ⟨since, rfl, hr.early since (Or.inl hfirst)⟩

/-- A row a dead page left is put back in line. -/
theorem OnRecord.recover (hr : OnRecord now h r) (hs : r.status = .syncing) (hopen : openSince r.id h = none)
    (hsome : r.lastAttemptedAt.isSome) : OnRecord now h (recover now r r) := by
  unfold Gdx.recover
  dsimp only
  split
  · rename_i hsafe
    obtain ⟨stamp, hstamp, hle⟩ := hr.stamp_early hsome
    have hgetD : ∀ since, r.firstMaybeRanAt.or r.lastAttemptedAt = some since →
        (r.firstMaybeRanAt.or r.lastAttemptedAt).getD r.createdAt = since := by
      intro since hsince
      rw [hsince]
      rfl
    exact {
      closed := fun _ => hopen
      last := by simp [hopen]
      stamped := by
        intro _ time htime
        obtain ⟨since, hsince, hle⟩ := hr.covered hs time (List.mem_append_right _ htime)
        exact ⟨since, congrArg some (hgetD since hsince), hle⟩
      covered := by simp
      early := by
        rintro since (hfirst | hlast)
        · cases hfirst
          rw [hgetD stamp hstamp]
          exact hle
        · exact hr.early since (Or.inr hlast)
      payment := by
        intro hpay
        have hpay : isRetryable r.actionType = false := hpay
        simp [hpay] at hsafe }
  · exact hr.fail hopen rfl rfl rfl rfl

/-- The answer of a transmission is filed. -/
theorem OnRecord.settle (hr : OnRecord now h r) (hs : r.status = .syncing) (f : Flight) (hf : f.row = r)
    (hopen : openSince r.id h = r.lastAttemptedAt) (hsome : r.lastAttemptedAt.isSome) (verdict : SendVerdict) :
    OnRecord now (.heard r.id (decide (verdict ≠ .unclear)) :: h) (f.settle verdict r) := by
  have hsome' : (openSince r.id h).isSome := by rw [hopen]; exact hsome
  have hpayment : isRetryable r.actionType = false → diedSending r.id h = true → False := by
    intro hpay hdied
    rw [(hr.payment hpay hdied).2] at hsome'
    cases hsome'
  cases verdict with
  | unauthorized =>
    exact {
      closed := fun _ => by simp [Flight.settle, openSince]
      last := by simp [Flight.settle, openSince]
      stamped := by
        intro _ time htime
        refine hr.stamped (Or.inr hsome') time ?_
        simpa [Flight.settle, unanswered] using htime
      covered := by simp [Flight.settle]
      early := hr.early
      payment := fun hpay hdied => (hpayment hpay hdied).elim }
  | synced | refused =>
    exact {
      closed := fun _ => by simp [Flight.settle, openSince]
      last := by simp [Flight.settle, openSince]
      stamped := by simp [Flight.settle, openSince]
      covered := by simp [Flight.settle]
      early := hr.early
      payment := fun hpay hdied => (hpayment hpay hdied).elim }
  | unclear =>
    exact {
      closed := fun _ => by simp [Flight.settle, openSince]
      last := by simp [Flight.settle, openSince]
      stamped := by
        intro _ time htime
        have htime : time ∈ (openSince r.id h).toList ++ unanswered r.id h := by
          simpa [Flight.settle, unanswered] using htime
        obtain ⟨since, hsince, hle⟩ := hr.covered hs time htime
        exact ⟨since, by simpa [Flight.settle, hf] using hsince, hle⟩
      covered := by simp [Flight.settle]
      early := by
        obtain ⟨stamp, hstamp, hle⟩ := hr.stamp_early hsome
        rintro since (hfirst | hlast)
        · have hfirst : r.firstMaybeRanAt.or r.lastAttemptedAt = some since := by
            simpa [Flight.settle, hf] using hfirst
          rw [hstamp, Option.some.injEq] at hfirst
          exact hfirst ▸ hle
        · exact hr.early since (Or.inr hlast)
      payment := fun hpay hdied => (hpayment hpay hdied).elim }

end Rows

/-! ### What a step can do -/

/-- Two pages with one start, the same transmissions, refusals to throw and retries. -/
structure Page.Same (p p' : Page) : Prop where
  started : p'.startedAt = p.startedAt
  flights : p'.flights = p.flights
  throwing : p'.throwing = p.throwing
  retries : p'.retries = p.retries

theorem Page.Same.refl (p : Page) : p.Same p := ⟨rfl, rfl, rfl, rfl⟩

theorem Page.Same.trans {p q r : Page} (h : p.Same q) (h' : q.Same r) : p.Same r :=
  ⟨h'.started.trans h.started, h'.flights.trans h.flights, h'.throwing.trans h.throwing, h'.retries.trans h.retries⟩

/-- A step, by what it does to the store and the record. What is known of the action is kept where it matters. -/
inductive Moves (s : Phone) (known : QueueAction → Prop) : Phone → Prop where
  | tick (ms : ℕ) : Moves s known { s with now := s.now + ms }
  | otherCloses (job : Text) : Moves s known { s with effects := s.effects ++ [.other job s.now] }
  | start (hp : s.page = none) : Moves s known { s with page := some { startedAt := s.now }, orphans := [] }
  | apply (f : Flight) (hf : f.row ∈ s.wire) : Moves s known (s.apply f)
  | die (p : Page) (hp : s.page = some p) (hknown : known .die) : Moves s known (s.die p)
  | queue (p : Page) (hp : s.page = some p) (actionType resourceId : Text) (conflictIsError online : Bool) :
    Moves s known (s.queue p actionType resourceId conflictIsError online)
  | page (p p' : Page) (hp : s.page = some p) (hsame : p.Same p') (hpurges : ∀ task ∈ p'.purges, task ∈ p.purges) :
    Moves s known (s.withPage p')
  | claim (p q p' : Page) (hp : s.page = some p) (hq : p.Same q) (id : ℕ) (caller : Bool)
    (hp' : (s.claimFor q id caller).2.Same p') (hpurges : p'.purges = p.purges) :
    Moves s known ((s.claimFor q id caller).1.withPage p')
  | answer (p : Page) (hp : s.page = some p) (f : Flight) (hf : f ∈ p.flights) (answer : Answer)
    (hmay : s.mayAnswer f answer = true) : Moves s known (s.answered p f answer)
  | throwRefusal (p : Page) (hp : s.page = some p) (id : ℕ) (hid : id ∈ p.throwing) :
    Moves s known { s with page := some { p with throwing := p.throwing.erase id }, thrown := s.thrown ++ [id] }
  | retire (p p' : Page) (hp : s.page = some p) (hsame : p.Same p') (hpurges : p'.purges = p.purges) (task : Retiring)
    (ht : task ∈ p.retiring) (r : QueueRow) (hr : r ∈ task.older.getD []) : Moves s known ((s.retireRow r.id).withPage p')
  | recover (p p' : Page) (hp : s.page = some p) (hsame : p.Same p') (hpurges : p'.purges = p.purges) (r : QueueRow)
    (hr : r ∈ p.stuck) : Moves s known ({ s with rows := patch s.rows r.id (Gdx.recover s.now r) }.withPage p')
  | retry (p : Page) (hp : s.page = some p) (jobId : Option Text) (ids : Option (List ℕ)) :
    Moves s known (s.withPage { p with retries := p.retries ++ [.reading (retryRows s.rows jobId ids)] })
  | retryStep (p : Page) (hp : s.page = some p) (task : RetryTask) (ht : task ∈ p.retries) (reached : Bool)
    (hknown : known (.retryStep task reached)) : Moves s known (s.retryStep p task reached)
  | purge (p : Page) (hp : s.page = some p) (maxAgeDays : ℕ) :
    Moves s known (s.withPage { p with purges := p.purges ++ [⟨s.now - maxAgeDays * 86400000, s.rows, false⟩] })
  | purgeStep (p : Page) (hp : s.page = some p) (task : PurgeTask) (ht : task ∈ p.purges) :
    Moves s known (s.purgeStep p task)

section Inversion
variable {s s' : Phone} {p : Page} {known : QueueAction → Prop}

theorem moves_attempt (hp : s.page = some p) (entry : QueueRow) (rest aside : List QueueRow) (held : List Text)
    (second : Bool) : Moves s known (s.attempt p entry rest aside held second) := by
  unfold Phone.attempt
  split
  · exact .page p _ hp ⟨rfl, rfl, rfl, rfl⟩ fun _ h => h
  · dsimp only
    refine .claim p p _ hp (.refl p) entry.id false ⟨rfl, rfl, rfl, rfl⟩ ?_
    unfold Phone.claimFor
    dsimp only
    split <;> rfl

theorem moves_drainStep (hp : s.page = some p) {drain : Drain} (hd : p.drain = some drain)
    (hs : s.drainStep p drain = some s') : Moves s known s' := by
  unfold Phone.drainStep at hs
  split at hs <;> simp only [Option.some.injEq, reduceCtorEq] at hs <;> subst hs
  · exact .page p _ hp ⟨rfl, rfl, rfl, rfl⟩ fun _ h => h
  · exact .page p _ hp ⟨rfl, rfl, rfl, rfl⟩ fun _ h => h
  · rename_i r rest
    refine .recover p { p with drain := some (.recovering rest) } hp ⟨rfl, rfl, rfl, rfl⟩ rfl r ?_
    simp [Page.stuck, hd]
  · exact .page p _ hp ⟨rfl, rfl, rfl, rfl⟩ fun _ h => h
  · exact .page p _ hp ⟨rfl, rfl, rfl, rfl⟩ fun _ h => h
  · exact moves_attempt hp ..

theorem moves_retireStep (hp : s.page = some p) {task : Retiring} (ht : task ∈ p.retiring) :
    Moves s known (s.retireStep p task) := by
  obtain ⟨entry, older⟩ := task
  unfold Phone.retireStep
  match older with
  | none => exact .page p _ hp ⟨rfl, rfl, rfl, rfl⟩ fun _ h => h
  | some [] => exact .page p _ hp ⟨rfl, rfl, rfl, rfl⟩ fun _ h => h
  | some (r :: rest) =>
    dsimp only
    exact .retire p { p with retiring := swap p.retiring ⟨entry, some (r :: rest)⟩ [⟨entry, some rest⟩] } hp
      ⟨rfl, rfl, rfl, rfl⟩ rfl _ ht r (by simp)

theorem Phone.step_moves {action : QueueAction} (hknown : known action) (hs : s.step action = some s') : Moves s known s' := by
  cases action with
  | tick ms =>
    cases hs
    exact .tick ms
  | otherCloses job =>
    cases hs
    exact .otherCloses job
  | start =>
    unfold Phone.step at hs
    dsimp only at hs
    split at hs
    · rename_i hp
      cases hs
      exact .start (by simpa using hp)
    · cases hs
  | apply id =>
    obtain ⟨f, hf, rfl⟩ := Option.map_eq_some_iff.mp hs
    exact .apply f (List.mem_map_of_mem (List.mem_of_find?_eq_some hf))
  | die =>
    obtain ⟨p, hp, hs⟩ := Option.bind_eq_some_iff.mp hs
    cases hs
    exact .die p hp hknown
  | queue actionType resourceId conflictIsError online =>
    obtain ⟨p, hp, hs⟩ := Option.bind_eq_some_iff.mp hs
    cases hs
    exact .queue p hp ..
  | sendNow id =>
    obtain ⟨p, hp, hs⟩ := Option.bind_eq_some_iff.mp hs
    dsimp only at hs
    unfold Phone.sendNow at hs
    split at hs
    · rw [Option.some.injEq] at hs
      subst hs
      refine .claim p { p with callers := p.callers.erase id } _ hp ⟨rfl, rfl, rfl, rfl⟩ id true (.refl _) ?_
      unfold Phone.claimFor
      dsimp only
      split <;> rfl
    · cases hs
  | answer f answer =>
    obtain ⟨p, hp, hs⟩ := Option.bind_eq_some_iff.mp hs
    dsimp only at hs
    split at hs
    · rename_i hmay
      rw [Option.some.injEq] at hs
      subst hs
      exact .answer p hp f hmay.1 answer hmay.2
    · cases hs
  | throwRefusal id =>
    obtain ⟨p, hp, hs⟩ := Option.bind_eq_some_iff.mp hs
    dsimp only at hs
    split at hs
    · rename_i hid
      cases hs
      exact .throwRefusal p hp id hid
    · cases hs
  | retire task =>
    obtain ⟨p, hp, hs⟩ := Option.bind_eq_some_iff.mp hs
    dsimp only at hs
    split at hs
    · rename_i hmem
      rw [Option.some.injEq] at hs
      exact hs ▸ moves_retireStep hp hmem
    · cases hs
  | syncNow =>
    obtain ⟨p, hp, hs⟩ := Option.bind_eq_some_iff.mp hs
    rw [Option.some.injEq] at hs
    subst hs
    unfold Page.syncNow
    split
    · exact .page p _ hp ⟨rfl, rfl, rfl, rfl⟩ fun _ h => h
    · exact .page p _ hp ⟨rfl, rfl, rfl, rfl⟩ fun _ h => h
  | drain =>
    obtain ⟨p, hp, hs⟩ := Option.bind_eq_some_iff.mp hs
    obtain ⟨drain, hdrain, hs⟩ := Option.bind_eq_some_iff.mp hs
    exact moves_drainStep hp hdrain hs
  | retry jobId ids =>
    obtain ⟨p, hp, hs⟩ := Option.bind_eq_some_iff.mp hs
    cases hs
    exact .retry p hp jobId ids
  | retryStep task reached =>
    obtain ⟨p, hp, hs⟩ := Option.bind_eq_some_iff.mp hs
    dsimp only at hs
    split at hs
    · rename_i hmem
      rw [Option.some.injEq] at hs
      exact hs ▸ .retryStep p hp task hmem reached hknown
    · cases hs
  | purge maxAgeDays =>
    obtain ⟨p, hp, hs⟩ := Option.bind_eq_some_iff.mp hs
    cases hs
    exact .purge p hp maxAgeDays
  | purgeStep task =>
    obtain ⟨p, hp, hs⟩ := Option.bind_eq_some_iff.mp hs
    dsimp only at hs
    split at hs
    · rename_i hmem
      rw [Option.some.injEq] at hs
      exact hs ▸ .purgeStep p hp task hmem
    · cases hs

end Inversion

/-! ### The record along a run -/

/-- The rows a retry still walks. -/
def RetryTask.rows : RetryTask → List QueueRow
  | .reading rows => rows
  | .walking rows _ => rows
  | .asked row _ rest _ => row :: rest

/-- A transmission starts with none of the row open, within the replay window of every unanswered one, and never for a
    payment whose page died while it was on the wire. -/
def Sendable (id : ℕ) (actionType : Text) (time : ℕ) (earlier : List QueueEvent) : Prop :=
  openSince id earlier = none ∧ (∀ since ∈ unanswered id earlier, time < since + REPLAY_SAFE_MS) ∧
    (isRetryable actionType = false → diedSending id earlier = false)

structure Phone.Sent (s : Phone) : Prop where
  rows : ∀ r ∈ s.rows, OnRecord s.now s.history r
  fresh : ∀ id, s.nextId ≤ id →
    openSince id s.history = none ∧ unanswered id s.history = [] ∧ diedSending id s.history = false
  flights : ∀ p, s.page = some p → ∀ f ∈ p.flights, openSince f.row.id s.history = f.row.lastAttemptedAt
  recent : ∀ p, s.page = some p → ∀ id time, openSince id s.history = some time → p.startedAt ≤ time
  nobody : s.page = none → ∀ id, openSince id s.history = none
  tasks : ∀ p, s.page = some p → ∀ task ∈ p.retries, ∀ r ∈ task.rows, r.id < s.nextId ∧
    ∀ x ∈ s.rows, x.id = r.id → x.actionType = r.actionType
  asked : ∀ p, s.page = some p → ∀ row stale rest all, .asked row stale rest all ∈ p.retries →
    isRetryable row.actionType = true
  sends : ∀ later id actionType time earlier, s.history = later ++ .sent id actionType time :: earlier →
    Sendable id actionType time earlier

theorem lt_of_within {now since time : ℕ} (h : pastReplayWindow now since = false) (hle : since ≤ time) :
    now < time + REPLAY_SAFE_MS := by
  unfold pastReplayWindow at h
  -- the window stays a name: as a numeral it is unfolded step by step
  generalize REPLAY_SAFE_MS = window at h ⊢
  rw [decide_eq_false_iff_not] at h
  omega

section Record
variable {s s' : Phone} {p p' : Page}

/-- At most one event is logged, about a row of the phone. -/
def Phone.logs (s s' : Phone) (startedAt : ℕ) : Prop :=
  s'.history = s.history ∨ ∃ event id, s'.history = event :: s.history ∧ event.about = some id ∧ id < s.nextId ∧
    (∀ time, openSince id s'.history = some time → startedAt ≤ time) ∧
    ∀ i actionType time, event = .sent i actionType time → Sendable i actionType time s.history

theorem Phone.logs.open_cases {startedAt : ℕ} (h : s.logs s' startedAt) (id : ℕ) :
    openSince id s'.history = openSince id s.history ∨ ∀ time, openSince id s'.history = some time → startedAt ≤ time := by
  rcases h with hsame | ⟨event, other, hist, habout, -, hopen, -⟩
  · exact Or.inl (by rw [hsame])
  · by_cases hid : other = id
    · subst hid
      exact Or.inr hopen
    · rw [hist]
      exact Or.inl (readings_of_other habout hid _).1

/-- A step of a page that logs at most one event. -/
theorem Phone.Sent.next (h : s.Sent) (hp : s.page = some p) (hpage : s'.page = some p') (hnext : s'.nextId = s.nextId)
    (hstarted : p'.startedAt = p.startedAt) (hlogs : s.logs s' p.startedAt)
    (hrows : ∀ y ∈ s'.rows, OnRecord s'.now s'.history y)
    (hstatic : ∀ y ∈ s'.rows, ∃ x ∈ s.rows, y.id = x.id ∧ y.actionType = x.actionType)
    (htasks : ∀ task ∈ p'.retries, ∀ r ∈ task.rows, r.id < s.nextId ∧
      ∀ x ∈ s.rows, x.id = r.id → x.actionType = r.actionType)
    (hasked : ∀ row stale rest all, .asked row stale rest all ∈ p'.retries → isRetryable row.actionType = true)
    (hflights : ∀ f ∈ p'.flights, openSince f.row.id s'.history = f.row.lastAttemptedAt) : s'.Sent where
  rows := hrows
  fresh := by
    intro id hid
    rw [hnext] at hid
    rcases hlogs with hsame | ⟨event, other, hist, habout, hlt, -, -⟩
    · rw [hsame]
      exact h.fresh id hid
    · obtain ⟨hopen, hun, hdied⟩ := readings_of_other habout (show other ≠ id by omega) s.history
      rw [hist, hopen, hun, hdied]
      exact h.fresh id hid
  flights := by
    intro q hq
    rw [hpage, Option.some.injEq] at hq
    subst hq
    exact hflights
  recent := by
    intro q hq id time htime
    rw [hpage, Option.some.injEq] at hq
    subst hq
    rw [hstarted]
    rcases hlogs.open_cases id with hsame | hnew
    · rw [hsame] at htime
      exact h.recent p hp id time htime
    · exact hnew time htime
  nobody := by
    intro hnone
    rw [hpage] at hnone
    cases hnone
  tasks := by
    intro q hq task htask r hr
    rw [hpage, Option.some.injEq] at hq
    subst hq
    obtain ⟨hlt, hsame⟩ := htasks task htask r hr
    refine ⟨hnext ▸ hlt, ?_⟩
    intro y hy hid
    obtain ⟨x, hx, hyid, htype⟩ := hstatic y hy
    rw [htype]
    exact hsame x hx (hyid.symm.trans hid)
  asked := by
    intro q hq
    rw [hpage, Option.some.injEq] at hq
    subst hq
    exact hasked
  sends := by
    intro later id actionType time earlier heq
    rcases hlogs with hsame | ⟨event, other, hist, -, -, -, hsend⟩
    · rw [hsame] at heq
      exact h.sends later id actionType time earlier heq
    · rw [hist] at heq
      cases later with
      | nil =>
        rw [List.nil_append, List.cons.injEq] at heq
        exact heq.2 ▸ hsend id actionType time heq.1
      | cons e later =>
        rw [List.cons_append, List.cons.injEq] at heq
        exact h.sends later id actionType time earlier heq.2

/-- A step that logs nothing and leaves the tasks of the page. -/
theorem Phone.Sent.silent (h : s.Sent) (hp : s.page = some p) (hpage : s'.page = some p') (hnext : s'.nextId = s.nextId)
    (hsame : p.Same p') (hhist : s'.history = s.history) (hrows : ∀ y ∈ s'.rows, OnRecord s'.now s'.history y)
    (hstatic : ∀ y ∈ s'.rows, ∃ x ∈ s.rows, y.id = x.id ∧ y.actionType = x.actionType) : s'.Sent := by
  refine h.next hp hpage hnext hsame.started (Or.inl hhist) hrows hstatic ?_ ?_ ?_
  · rw [hsame.retries]
    exact h.tasks p hp
  · rw [hsame.retries]
    exact h.asked p hp
  · rw [hsame.flights, hhist]
    exact h.flights p hp

/-- A patched row keeps its id and its action. -/
theorem patch_static {rows : List QueueRow} {id : ℕ} {f : QueueRow → QueueRow}
    (hf : ∀ x, (f x).id = x.id ∧ (f x).actionType = x.actionType) :
    ∀ y ∈ patch rows id f, ∃ x ∈ rows, y.id = x.id ∧ y.actionType = x.actionType := by
  intro y hy
  obtain ⟨x, hx, rfl⟩ := mem_patch.mp hy
  refine ⟨x, hx, ?_⟩
  split
  · exact hf x
  · exact ⟨rfl, rfl⟩

/-- Every row is on record after one was written and nothing was logged. -/
theorem onRecord_patch {now : ℕ} {history : List QueueEvent} {rows : List QueueRow} {id : ℕ} {f : QueueRow → QueueRow}
    (h : ∀ r ∈ rows, OnRecord now history r) (hf : ∀ x ∈ rows, x.id = id → OnRecord now history (f x)) :
    ∀ y ∈ patch rows id f, OnRecord now history y := by
  intro y hy
  obtain ⟨x, hx, rfl⟩ := mem_patch.mp hy
  split
  · rename_i hid
    exact hf x hx hid
  · exact h x hx

/-- Every row is on record after one was written and an event about it was logged. -/
theorem onRecord_event {now : ℕ} {history : List QueueEvent} {rows : List QueueRow} {id : ℕ} {f : QueueRow → QueueRow}
    {event : QueueEvent} (he : event.about = some id) (h : ∀ r ∈ rows, OnRecord now history r)
    (hf : ∀ x ∈ rows, x.id = id → OnRecord now (event :: history) (f x)) :
    ∀ y ∈ patch rows id f, OnRecord now (event :: history) y := by
  intro y hy
  obtain ⟨x, hx, rfl⟩ := mem_patch.mp hy
  split
  · rename_i hid
    exact hf x hx hid
  · rename_i hid
    exact (h x hx).other he fun he => hid he.symm

theorem Phone.Sent.start (h : s.Sent) (hp : s.page = none) :
    Phone.Sent { s with page := some { startedAt := s.now }, orphans := [] } where
  rows := h.rows
  fresh := h.fresh
  flights := by
    rintro q ⟨rfl⟩
    simp
  recent := by
    rintro q ⟨rfl⟩ id time htime
    rw [h.nobody hp id] at htime
    cases htime
  nobody := by rintro ⟨⟩
  tasks := by
    rintro q ⟨rfl⟩
    simp
  asked := by
    rintro q ⟨rfl⟩
    simp
  sends := h.sends

theorem Phone.Sent.die (h : s.Sent) (p : Page) : (s.die p).Sent where
  rows := fun r hr => (h.rows r hr).died
  fresh := by
    intro id hid
    obtain ⟨hopen, hun, hdied⟩ := h.fresh id hid
    simp [Phone.die, openSince, unanswered, diedSending, hopen, hun, hdied]
  flights := by rintro q ⟨⟩
  recent := by rintro q ⟨⟩
  nobody := fun _ _ => rfl
  tasks := by rintro q ⟨⟩
  asked := by rintro q ⟨⟩
  sends := by
    intro later id actionType time earlier heq
    cases later with
    | nil => cases heq
    | cons e later =>
      rw [List.cons_append] at heq
      exact h.sends later id actionType time earlier (List.cons.inj heq).2

theorem Phone.Sent.queue (h : s.Sent) (hp : s.page = some p) (actionType resourceId : Text)
    (conflictIsError online : Bool) : (s.queue p actionType resourceId conflictIsError online).Sent := by
  have hpage : ∃ callers, (s.queue p actionType resourceId conflictIsError online).page =
      some { p with callers := callers } := by
    cases online
    · exact ⟨p.callers, rfl⟩
    · exact ⟨_, rfl⟩
  obtain ⟨callers, hpage⟩ := hpage
  refine {
    rows := ?_
    fresh := fun id hid => h.fresh id (le_trans (Nat.le_succ _) hid)
    flights := ?_, recent := ?_, nobody := ?_, tasks := ?_, asked := ?_, sends := h.sends }
  · intro r hr
    rcases List.mem_append.mp hr with hr | hr
    · exact h.rows r hr
    · rw [List.mem_singleton] at hr
      subst hr
      obtain ⟨hopen, hun, hdied⟩ := h.fresh s.nextId le_rfl
      exact .fresh hopen hun hdied rfl rfl rfl
  · intro q hq
    rw [hpage, Option.some.injEq] at hq
    subst hq
    exact h.flights p hp
  · intro q hq
    rw [hpage, Option.some.injEq] at hq
    subst hq
    exact h.recent p hp
  · intro hnone
    rw [hpage] at hnone
    cases hnone
  · intro q hq task htask r hr
    rw [hpage, Option.some.injEq] at hq
    subst hq
    obtain ⟨hlt, hsame⟩ := h.tasks p hp task htask r hr
    refine ⟨Nat.lt_succ_of_lt hlt, ?_⟩
    intro x hx hid
    rcases List.mem_append.mp hx with hx | hx
    · exact hsame x hx hid
    · rw [List.mem_singleton] at hx
      subst hx
      have hid : s.nextId = r.id := hid
      omega
  · intro q hq
    rw [hpage, Option.some.injEq] at hq
    subst hq
    exact h.asked p hp

theorem Phone.Sent.claimFor (h : s.Sent) (hok : s.Ok) (hp : s.page = some p) {q : Page} (hq : p.Same q) (id : ℕ)
    (caller : Bool) (hp' : (s.claimFor q id caller).2.Same p') : ((s.claimFor q id caller).1.withPage p').Sent := by
  have hspec := claim_spec s.now s.rows id
  unfold Phone.claimFor at hp' ⊢
  generalize claim s.now s.rows id = outcome at hspec hp' ⊢
  obtain ⟨rows, result⟩ := outcome
  dsimp only at hspec hp' ⊢
  have hopen : ∀ row ∈ s.rows, row.status = .pending → openSince row.id s.history = none :=
    fun row hrow hs => (h.rows row hrow).closed (by rw [hs]; decide)
  cases hspec with
  | untouched result hnot =>
    cases result with
    | claimed row => exact absurd rfl (hnot row).1
    | superseded row => exact absurd rfl (hnot row).2
    | _ => exact h.silent hp rfl rfl (hq.trans hp') rfl h.rows fun y hy => ⟨y, hy, rfl, rfl⟩
  | uncertain row hrow hid hpending since hmaybe =>
    subst hid
    refine h.silent hp rfl rfl (hq.trans hp') rfl (onRecord_patch h.rows ?_) (patch_static fun x => ⟨rfl, rfl⟩)
    intro x hx hid
    obtain rfl := hok.queue.eq_of_id hx hrow hid
    exact (h.rows x hx).fail (hopen x hx hpending) rfl rfl rfl rfl
  | superseded row hrow hid hpending hlanded =>
    subst hid
    refine h.silent hp rfl rfl (hq.trans hp') rfl (onRecord_patch h.rows ?_) (patch_static fun x => ⟨rfl, rfl⟩)
    intro x hx hid
    obtain rfl := hok.queue.eq_of_id hx hrow hid
    exact (h.rows x hx).fail (hopen x hx hpending) rfl rfl rfl rfl
  | claimed row hrow hid hpending hsafe hlanded hwire hundecided =>
    subst hid
    have hrec := h.rows row hrow
    have hsend : Sendable row.id row.actionType s.now s.history := by
      refine ⟨hopen row hrow hpending, ?_, ?_⟩
      · intro time htime
        obtain ⟨since, hsince, hle⟩ := hrec.stamped (Or.inl hpending) time htime
        rw [hsince, Option.any_some] at hsafe
        exact lt_of_within hsafe hle
      · intro hpay
        by_contra hdied
        exact (hrec.payment hpay (by simpa using hdied)).1 hpending
    refine h.next hp rfl rfl (hp'.started.trans hq.started) (Or.inr ⟨_, row.id, rfl, rfl, hok.queue.lt row hrow, ?_, ?_⟩)
      (onRecord_event rfl h.rows ?_) (patch_static fun x => ⟨rfl, rfl⟩) ?_ ?_ ?_
    · intro time htime
      have htime : s.now = time := by simpa [Phone.withPage, openSince] using htime
      exact htime ▸ (hok.page p hp).started
    · rintro i actionType time ⟨⟩
      exact hsend
    · intro x hx hid
      obtain rfl := hok.queue.eq_of_id hx hrow hid
      exact hrec.take hpending _
    · rw [hp'.retries, hq.retries]
      exact h.tasks p hp
    · rw [hp'.retries, hq.retries]
      exact h.asked p hp
    · intro f hf
      rw [hp'.flights] at hf
      rcases List.mem_append.mp hf with hf | hf
      · rw [hq.flights] at hf
        have hmem := List.mem_map_of_mem (f := Flight.row) hf
        obtain ⟨hfrow, hsync⟩ := (hok.queue_page hp).wired f.row hmem
        have hne : row.id ≠ f.row.id := by
          intro hid
          obtain rfl := hok.queue.eq_of_id hrow hfrow hid
          rw [hpending] at hsync
          cases hsync
        rw [← h.flights p hp f hf]
        exact (readings_of_other rfl hne s.history).1
      · rw [List.mem_singleton] at hf
        subst hf
        simp [Phone.withPage, openSince]

theorem Page.resumeDrain_same (p : Page) (id : ℕ) (answer : Answer) : p.Same (p.resumeDrain id answer) := by
  unfold Page.resumeDrain Drain.afterSend Page.endDrain
  split
  · split
    · dsimp only
      split <;> exact ⟨rfl, rfl, rfl, rfl⟩
    · exact .refl p
  · exact .refl p

theorem Phone.Sent.answered (h : s.Sent) (hok : s.Ok) (hp : s.page = some p) {f : Flight} (hf : f ∈ p.flights)
    (answer : Answer) : (s.answered p f answer).Sent := by
  have hq := hok.queue_page hp
  obtain ⟨hrow, hsync⟩ := hq.wired f.row (List.mem_map_of_mem hf)
  have honce : (p.flights.map (·.row.id)).Nodup := by simpa [Function.comp_def] using hq.wireOnce
  have hsame := Page.resumeDrain_same { p with
    flights := p.flights.erase f
    throwing := if answer.verdict f.row = .refused ∧ f.caller = true then p.throwing ++ [f.row.id] else p.throwing
    retiring := if answer.verdict f.row = .synced then p.retiring ++ [⟨f.row, none⟩] else p.retiring } f.row.id answer
  refine h.next hp rfl rfl hsame.started (Or.inr ⟨_, f.row.id, rfl, rfl, hok.queue.lt _ hrow, ?_, ?_⟩)
    (onRecord_event rfl h.rows ?_) (patch_static ?_) ?_ ?_ ?_
  · intro time htime
    simp [Phone.answered, openSince] at htime
  · rintro i actionType time ⟨⟩
  · intro x hx hid
    obtain rfl := hq.eq_of_id hx hrow hid
    exact (h.rows _ hx).settle hsync f rfl (h.flights p hp f hf) (hq.attempted _ hrow hsync) _
  · intro x
    cases answer.verdict f.row <;> exact ⟨rfl, rfl⟩
  · rw [hsame.retries]
    exact h.tasks p hp
  · rw [hsame.retries]
    exact h.asked p hp
  · intro g hg
    rw [hsame.flights] at hg
    obtain ⟨hne, hmem⟩ := (List.Nodup.of_map _ honce).mem_erase_iff.mp hg
    rw [← h.flights p hp g hmem]
    refine (readings_of_other rfl ?_ s.history).1
    intro hid
    exact hne (List.inj_on_of_nodup_map honce hmem hf hid.symm)

theorem Phone.Sent.recover (h : s.Sent) (hok : s.Ok) (hp : s.page = some p) (hsame : p.Same p') {r : QueueRow}
    (hr : r ∈ p.stuck) : Phone.Sent ({ s with rows := patch s.rows r.id (Gdx.recover s.now r) }.withPage p') := by
  obtain ⟨hrow, hsync, hold⟩ := (hok.page p hp).stuck r hr
  have hopen : openSince r.id s.history = none := by
    by_contra hne
    obtain ⟨time, htime⟩ := Option.ne_none_iff_exists'.mp hne
    rw [(h.rows r hrow).last time htime] at hold
    have hle := h.recent p hp r.id time htime
    simp only [Option.all_some, decide_eq_true_eq] at hold
    omega
  refine h.silent hp rfl rfl hsame rfl (onRecord_patch h.rows ?_) (patch_static ?_)
  · intro x hx hid
    obtain rfl := hok.queue.eq_of_id hx hrow hid
    exact (h.rows x hx).recover hsync hopen (hok.queue.attempted x hx hsync)
  · intro x
    unfold Gdx.recover
    dsimp only
    split <;> exact ⟨rfl, rfl⟩

theorem Phone.Sent.retry (h : s.Sent) (hok : s.Ok) (hp : s.page = some p) (jobId : Option Text) (ids : Option (List ℕ)) :
    (s.withPage { p with retries := p.retries ++ [.reading (retryRows s.rows jobId ids)] }).Sent := by
  refine h.next hp rfl rfl rfl (Or.inl rfl) h.rows (fun y hy => ⟨y, hy, rfl, rfl⟩) ?_ ?_ (h.flights p hp)
  · intro task htask r hr
    rcases List.mem_append.mp htask with htask | htask
    · exact h.tasks p hp task htask r hr
    · rw [List.mem_singleton] at htask
      subst htask
      have hr : r ∈ s.rows := mem_of_retryRows hr
      refine ⟨hok.queue.lt r hr, ?_⟩
      intro x hx hid
      rw [hok.queue.eq_of_id hx hr hid]
  · intro row stale rest all hmem
    rcases List.mem_append.mp hmem with hmem | hmem
    · exact h.asked p hp row stale rest all hmem
    · rw [List.mem_singleton] at hmem
      cases hmem

/-- A retry goes on with rows it had before. -/
theorem Phone.Sent.swap_tasks (h : s.Sent) (hp : s.page = some p) {task : RetryTask} (ht : task ∈ p.retries)
    {by_ : List RetryTask} (hby : ∀ t ∈ by_, ∀ r ∈ t.rows, r ∈ task.rows)
    (hask : ∀ row stale rest all, .asked row stale rest all ∈ by_ → isRetryable row.actionType = true) :
    (∀ t ∈ swap p.retries task by_, ∀ r ∈ t.rows, r.id < s.nextId ∧
      ∀ x ∈ s.rows, x.id = r.id → x.actionType = r.actionType) ∧
    ∀ row stale rest all, .asked row stale rest all ∈ swap p.retries task by_ → isRetryable row.actionType = true := by
  constructor
  · intro t hm r hr
    rcases mem_swap hm with hm | hm
    · exact h.tasks p hp t hm r hr
    · exact h.tasks p hp task ht r (hby t hm r hr)
  · intro row stale rest all hm
    rcases mem_swap hm with hm | hm
    · exact h.asked p hp row stale rest all hm
    · exact hask row stale rest all hm

section RetryStep
variable {task : RetryTask} {by_ : List RetryTask}

/-- A retry goes on without a write. -/
theorem Phone.Sent.retry_on (h : s.Sent) (hp : s.page = some p) (ht : task ∈ p.retries)
    (hby : ∀ t ∈ by_, ∀ r ∈ t.rows, r ∈ task.rows)
    (hask : ∀ row stale rest all, .asked row stale rest all ∈ by_ → isRetryable row.actionType = true)
    (reports : List (Text × ℕ)) :
    Phone.Sent { s with reports := reports, page := some { p with retries := swap p.retries task by_ } } := by
  obtain ⟨htasks, hasked⟩ := h.swap_tasks hp ht hby hask
  exact h.next hp rfl rfl rfl (Or.inl rfl) h.rows (fun y hy => ⟨y, hy, rfl, rfl⟩) htasks hasked (h.flights p hp)

/-- A retry retires a row. -/
theorem Phone.Sent.retry_retire (h : s.Sent) (hp : s.page = some p) (ht : task ∈ p.retries)
    (hby : ∀ t ∈ by_, ∀ r ∈ t.rows, r ∈ task.rows)
    (hask : ∀ row stale rest all, .asked row stale rest all ∈ by_ → isRetryable row.actionType = true) (id : ℕ) :
    ((s.retireRow id).withPage { p with retries := swap p.retries task by_ }).Sent := by
  obtain ⟨htasks, hasked⟩ := h.swap_tasks hp ht hby hask
  exact h.next hp rfl rfl rfl (Or.inl rfl) (onRecord_patch h.rows fun x hx _ => (h.rows x hx).retire)
    (patch_static fun x => ⟨rfl, rfl⟩) htasks hasked (h.flights p hp)

/-- A retry puts a row back in line. -/
theorem Phone.Sent.retry_requeue (h : s.Sent) (hp : s.page = some p) (ht : task ∈ p.retries)
    (hby : ∀ t ∈ by_, ∀ r ∈ t.rows, r ∈ task.rows)
    (hask : ∀ row stale rest all, .asked row stale rest all ∈ by_ → isRetryable row.actionType = true)
    {r : QueueRow} (hr : r ∈ task.rows) (hretry : isRetryable r.actionType = true)
    (hfailed : ∀ x ∈ s.rows, x.id = r.id → x.status = .failed ∧ x.acknowledged = false) :
    ((s.requeueRow r.id).withPage { p with retries := swap p.retries task by_ }).Sent := by
  obtain ⟨htasks, hasked⟩ := h.swap_tasks hp ht hby hask
  obtain ⟨hlt, htype⟩ := h.tasks p hp task ht r hr
  refine h.next hp rfl rfl rfl (Or.inr ⟨_, r.id, rfl, rfl, hlt, ?_, ?_⟩) (onRecord_event rfl h.rows ?_)
    (patch_static fun x => ⟨rfl, rfl⟩) htasks hasked (h.flights p hp)
  · intro time htime
    exact h.recent p hp r.id time htime
  · rintro i actionType time ⟨⟩
  · intro x hx hid
    rw [← hid]
    exact (h.rows x hx).requeue (hfailed x hx hid).1 (by rw [htype x hx hid]; exact hretry)

theorem retryable_of_move {r : QueueRow} {all : List QueueRow} (h : retryMove r all ≠ .skip) :
    isRetryable r.actionType = true := by
  by_contra hno
  exact h (by simp [retryMove, hno])

theorem Phone.Sent.retryStep (h : s.Sent) (hp : s.page = some p) (ht : task ∈ p.retries) {reached : Bool}
    (htidy : s.tidy (.retryStep task reached)) : (s.retryStep p task reached).Sent := by
  have hrest : ∀ (r : QueueRow) (rest all all' : List QueueRow) (t : RetryTask), t ∈ [RetryTask.walking rest all'] →
      ∀ x ∈ t.rows, x ∈ (RetryTask.walking (r :: rest) all).rows := by
    simp +contextual [RetryTask.rows]
  unfold Phone.retryStep
  match task with
  | .reading rows => exact h.retry_on hp ht (by simp [RetryTask.rows]) (by simp) s.reports
  | .walking [] all => exact h.retry_on hp ht (by simp) (by simp) s.reports
  | .walking (r :: rest) all =>
    unfold Phone.tidy at htidy
    dsimp only at htidy ⊢
    split
    · exact h.retry_on hp ht (hrest r rest all all) (by simp) s.reports
    · exact h.retry_retire hp ht (hrest r rest all all) (by simp) r.id
    · rename_i hmove
      refine h.retry_on hp ht (by simp [RetryTask.rows]) ?_ _
      intro row stale rest' all' hm
      simp only [List.mem_singleton, RetryTask.asked.injEq] at hm
      rw [hm.1]
      exact retryable_of_move (by rw [hmove]; decide)
    · rename_i hmove
      rw [hmove] at htidy
      exact h.retry_requeue hp ht (hrest r rest all all) (by simp) List.mem_cons_self
        (retryable_of_move (by rw [hmove]; decide)) htidy
  | .asked r true rest all =>
    dsimp only
    exact h.retry_retire hp ht (hrest r rest all all) (by simp) r.id
  | .asked r false rest all =>
    dsimp only
    exact h.retry_requeue hp ht (hrest r rest all all) (by simp) List.mem_cons_self
      (h.asked p hp r false rest all ht) htidy

end RetryStep

/-- A tidy step keeps the record true. -/
theorem Phone.Sent.moves (h : s.Sent) (hok : s.Ok) (hm : Moves s s.tidy s') : s'.Sent := by
  have hkeep : ∀ y ∈ s.rows, ∃ x ∈ s.rows, y.id = x.id ∧ y.actionType = x.actionType := fun y hy => ⟨y, hy, rfl, rfl⟩
  cases hm with
  | tick ms =>
    exact { h with rows := fun r hr => (h.rows r hr).later (Nat.le_add_right ..) }
  | otherCloses job => exact ⟨h.rows, h.fresh, h.flights, h.recent, h.nobody, h.tasks, h.asked, h.sends⟩
  | start hp => exact h.start hp
  | apply f hf =>
    unfold Phone.apply
    split
    · exact h
    · exact ⟨h.rows, h.fresh, h.flights, h.recent, h.nobody, h.tasks, h.asked, h.sends⟩
  | die p hp hknown => exact h.die p
  | queue p hp actionType resourceId conflictIsError online => exact h.queue hp ..
  | page p p' hp hsame hpurges => exact h.silent hp rfl rfl hsame rfl h.rows hkeep
  | claim p q p' hp hq id caller hp' hpurges => exact h.claimFor hok hp hq id caller hp'
  | answer p hp f hf answer hmay => exact h.answered hok hp hf answer
  | throwRefusal p hp id hid =>
    exact h.next hp rfl rfl rfl (Or.inl rfl) h.rows hkeep (h.tasks p hp) (h.asked p hp) (h.flights p hp)
  | retire p p' hp hsame hpurges task ht r hr =>
    exact h.silent hp rfl rfl hsame rfl (onRecord_patch h.rows fun x hx _ => (h.rows x hx).retire)
      (patch_static fun x => ⟨rfl, rfl⟩)
  | recover p p' hp hsame hpurges r hr => exact h.recover hok hp hsame hr
  | retry p hp jobId ids => exact h.retry hok hp jobId ids
  | retryStep p hp task ht reached htidy => exact h.retryStep hp ht htidy
  | purge p hp maxAgeDays => exact h.silent hp rfl rfl ⟨rfl, rfl, rfl, rfl⟩ rfl h.rows hkeep
  | purgeStep p hp task ht =>
    refine h.silent hp rfl rfl ⟨rfl, rfl, rfl, rfl⟩ rfl ?_ ?_
    · exact fun y hy => h.rows y (List.mem_of_mem_filter hy)
    · exact fun y hy => ⟨y, List.mem_of_mem_filter hy, rfl, rfl⟩

/-- A run of tidy steps keeps the record true. -/
theorem Phone.Sent.run (h : s.Sent) (hok : s.Ok) {actions : List QueueAction} (ht : s.tidyRun actions)
    (hs : s.run actions = some s') : s'.Sent ∧ s'.Ok := by
  induction actions generalizing s with
  | nil =>
    cases hs
    exact ⟨h, hok⟩
  | cons action rest ih =>
    obtain ⟨mid, hmid, hrest⟩ := Option.bind_eq_some_iff.mp hs
    exact ih (h.moves hok (Phone.step_moves ht.1 hmid)) (hok.step ht.1 hmid) (ht.2 mid hmid) hrest

end Record

theorem Phone.Sent.new : Phone.Sent {} := by
  constructor <;> simp [openSince, unanswered, diedSending]

theorem Phone.Ok.flights_once {s : Phone} {p : Page} (h : s.Ok) (hp : s.page = some p) :
    (p.flights.map (·.row.id)).Nodup := by
  simpa [Function.comp_def] using (h.queue_page hp).wireOnce

/-- In every run at most one transmission of a row is in flight from the page. A transmission starts only when the last
    one of the row was answered or its page ended, less than 23 hours after each that got no clear answer since the
    tech's last retry, and never for a payment whose page died while it was on the wire. -/
theorem sent_once (actions : List QueueAction) (s : Phone) (htidy : Phone.tidyRun {} actions)
    (hrun : Phone.run {} actions = some s) :
    (∀ p, s.page = some p → (p.flights.map (·.row.id)).Nodup) ∧
    ∀ later id actionType time earlier, s.history = later ++ .sent id actionType time :: earlier →
      openSince id earlier = none ∧ (∀ since ∈ unanswered id earlier, time < since + REPLAY_SAFE_MS) ∧
      (isRetryable actionType = false → diedSending id earlier = false) := by
  obtain ⟨hsent, hok⟩ := Phone.Sent.new.run Phone.Ok.new htidy hrun
  exact ⟨fun p hp => hok.flights_once hp, hsent.sends⟩

/-- Without a retry it holds in every run. -/
theorem sent_once_untapped (actions : List QueueAction) (s : Phone)
    (hno : ∀ action ∈ actions, ∀ task reached, action ≠ .retryStep task reached) (hrun : Phone.run {} actions = some s) :
    (∀ p, s.page = some p → (p.flights.map (·.row.id)).Nodup) ∧
    ∀ later id actionType time earlier, s.history = later ++ .sent id actionType time :: earlier →
      openSince id earlier = none ∧ (∀ since ∈ unanswered id earlier, time < since + REPLAY_SAFE_MS) ∧
      (isRetryable actionType = false → diedSending id earlier = false) := by
  obtain ⟨hsent, hok⟩ := Phone.Sent.new.run Phone.Ok.new (Phone.tidyRun_of_no_retry {} hno) hrun
  exact ⟨fun p hp => hok.flights_once hp, hsent.sends⟩

/-- The events before the closeout is sent again. -/
def diedOnWire : List QueueEvent :=
  [.died, .sent 1 "job.closeout".toList 0, .retried 1, .heard 1 true, .sent 1 "job.closeout".toList 0]

theorem sent_once_resentCloseout :
    ∃ s, Phone.run {} resentCloseout = some s ∧ s.history = .sent 1 "job.closeout".toList 5 :: diedOnWire ∧
      unanswered 1 diedOnWire = [0] ∧ (∀ p, s.page = some p → (p.flights.map (·.row.id)).Nodup) ∧
      openSince 1 diedOnWire = none ∧ ∀ since ∈ unanswered 1 diedOnWire, 5 < since + REPLAY_SAFE_MS := by
  have hrun : (Phone.run {} resentCloseout).map (·.history) = some (.sent 1 "job.closeout".toList 5 :: diedOnWire) := by
    decide +kernel
  obtain ⟨s, hs, hist⟩ := Option.map_eq_some_iff.mp hrun
  obtain ⟨honce, hsends⟩ := sent_once resentCloseout s (by decide +kernel) hs
  obtain ⟨hopen, hwindow, -⟩ := hsends [] 1 _ 5 _ hist
  exact ⟨s, hs, hist, by decide +kernel, honce, hopen, hwindow⟩

end Gdx
