import GdxDispatch.Dispatch.VisitApply

/-! Worked days are history.

    Every rule but two edits OPEN rows only, so it spares the rest: a row that is not OPEN is there afterwards as it
    was. The finish and the cancel close the ON SITE rows as well, and change nothing but their status. -/

namespace Gdx
open Lib

variable {z : ShopZone} {w w' w'' : Work} {v : VisitRow} {fields : VisitFields} {edit : VisitEdit}

/-- Worked and cancelled rows stay; an ON SITE row stays, or is closed and otherwise as it was. -/
structure KeepsHistory (rows rows' : List VisitRow) : Prop where
  worked : ∀ v ∈ rows, visitState v = .closed ∨ visitState v = .cancelled → v ∈ rows'
  onSite : ∀ v ∈ rows, visitState v = .onSite → v ∈ rows' ∨
    ∃ status, (status = "completed".toList ∨ status = "cancelled".toList) ∧ { v with status := some status } ∈ rows'

theorem KeepsHistory.refl (rows : List VisitRow) : KeepsHistory rows rows :=
  ⟨fun _ hv _ => hv, fun _ hv _ => .inl hv⟩

/-- A row closed by a rule is not OPEN, so what spares the rest spares it. -/
theorem KeepsHistory.spared {rows : List VisitRow} (h : KeepsHistory rows w.rows) (hs : w.Spares w') :
    KeepsHistory rows w'.rows := by
  refine ⟨fun v hv hstate => hs v (h.worked v hv hstate) ?_, fun v hv hstate => ?_⟩
  · rcases hstate with hstate | hstate <;> rw [hstate] <;> decide
  · rcases h.onSite v hv hstate with hv | ⟨status, hclosed, hv⟩
    · exact .inl (hs v hv (by rw [hstate]; decide))
    · refine .inr ⟨status, hclosed, hs _ hv fun hopen => ?_⟩
      have hcurrent := not_current_of_status (v := v) hclosed
      rw [isCurrent, hopen] at hcurrent
      cases hcurrent

theorem Work.Spares.history (h : w.Spares w') : KeepsHistory w.rows w'.rows := (KeepsHistory.refl w.rows).spared h

/-- Closing an ON SITE row. -/
theorem KeepsHistory.closed {rows : List VisitRow} {status : Text} (h : KeepsHistory rows w.rows)
    (hnd : (w.rows.map (·.id)).Nodup) (hv : v ∈ w.rows) (hsite : visitState v = .onSite)
    (hstatus : status = "completed".toList ∨ status = "cancelled".toList) (reason : String) :
    KeepsHistory rows (w.close v status reason).rows := by
  have hkeep : ∀ u ∈ w.rows, u ≠ v → u ∈ (w.close v status reason).rows := fun u hu hne =>
    mem_setRow_of_ne hu fun hid => hne (List.inj_on_of_nodup_map hnd hu hv hid)
  refine ⟨fun u hu hstate => hkeep u (h.worked u hu hstate) ?_, fun u hu hstate => ?_⟩
  · rintro rfl
    rw [hsite] at hstate
    rcases hstate with hstate | hstate <;> cases hstate
  · rcases h.onSite u hu hstate with hu' | ⟨s, hs, hu'⟩
    · by_cases heq : u = v
      · subst heq
        exact .inr ⟨status, hstatus, mem_setRow_self _⟩
      · exact .inl (hkeep u hu' heq)
    · refine .inr ⟨s, hs, hkeep _ hu' ?_⟩
      rintro rfl
      have hcurrent := not_current_of_status (v := u) hs
      rw [isCurrent, hsite] at hcurrent
      cases hcurrent

/-- A loop over all rows that edits the OPEN ones and closes the ON SITE ones. -/
theorem history_foldl {f : Work → VisitRow → Work} {status : Text} {reason : String}
    (hstatus : status = "completed".toList ∨ status = "cancelled".toList)
    (hf : ∀ (w : Work) (v : VisitRow), f w v = w ∨ (visitState v = .open ∧ EditsRow v w (f w v)) ∨
      (visitState v = .onSite ∧ f w v = w.close v status reason)) (hnd : (w.rows.map (·.id)).Nodup) :
    KeepsHistory w.rows (w.liveRows.foldl f w).rows := by
  refine (snapshot_foldl (P := fun m => (m.rows.map (·.id)).Nodup ∧ KeepsHistory w.rows m.rows) (fun m v hv hm => ?_)
    (fun m v u hu hne => ?_) w.liveRows (nodup_liveRows hnd) (fun v hv => mem_liveRows.mp hv) ⟨hnd, .refl _⟩).2
  · rcases hf m v with heq | ⟨hopen, hedit⟩ | ⟨hsite, heq⟩
    · rw [heq]
      exact hm
    · exact ⟨hedit.nodup hm.1, hm.2.spared (hedit.spares hm.1 hv hopen)⟩
    · rw [heq]
      exact ⟨nodup_setRow hm.1 _, hm.2.closed hm.1 hv hsite hstatus reason⟩
  · rcases hf m v with heq | ⟨-, hedit⟩ | ⟨-, heq⟩
    · rw [heq]
      exact hu
    · exact hedit.keeps u hu hne
    · rw [heq]
      exact mem_setRow_of_ne hu hne

theorem finish_history (hnd : (w.rows.map (·.id)).Nodup) (day : Option ℤ) (reason : String) :
    KeepsHistory w.rows (finish z w day reason).rows := by
  refine @history_foldl _ _ "completed".toList reason (.inl rfl) (fun w v => ?_) hnd
  unfold finishRow
  split
  · rename_i hstate
    exact .inr (.inr ⟨hstate, rfl⟩)
  · rename_i hstate
    split_ifs
    · exact .inr (.inl ⟨hstate, .dropped rfl⟩)
    · exact .inr (.inl ⟨hstate, .rewritten _ rfl rfl⟩)
  · exact .inl rfl

theorem cancel_history {reason : String} (hnd : (w.rows.map (·.id)).Nodup) (h : cancel w reason = .ok w') :
    KeepsHistory w.rows w'.rows := by
  unfold cancel at h
  simp only at h
  split_ifs at h
  cases h
  refine @history_foldl _ _ "cancelled".toList reason (.inr rfl) (fun w v => ?_) hnd
  unfold cancelRow
  split
  · rename_i hstate
    exact .inr (.inl ⟨hstate, .dropped rfl⟩)
  · rename_i hstate
    exact .inr (.inr ⟨hstate, rfl⟩)
  · exact .inl rfl

theorem settleReopened_history (hnd : (w.rows.map (·.id)).Nodup) (h : settleReopened z w edit = .ok w') :
    KeepsHistory w.rows w'.rows := by
  unfold settleReopened at h
  split_ifs at h
  · exact cancel_history hnd h
  · cases h
    exact finish_history hnd _ _

theorem reopenJob_history {date : Option (Option ℤ)} (hk : w.Keyed) (h : reopenJob z w edit date = .ok w') :
    KeepsHistory w.rows w'.rows := by
  unfold reopenJob at h
  rw [except_bind_ok] at h
  obtain ⟨settled, hsettle, h⟩ := h
  have hhist := settleReopened_history hk.nodup hsettle
  have hks := (settleReopened_steps hk hsettle).keyed hk
  simp only [changeCrew_none] at h
  split at h
  · exact hhist.spared (book_gentle hks h).spares
  · cases h
    exact hhist

/-- Every branch of the planner keeps the worked days. -/
theorem planEdit_history {date : Option (Option ℤ)} (hk : w.Keyed) (h : planEdit z w edit = .ok (w', date)) :
    KeepsHistory w.rows w'.rows := by
  unfold planEdit at h
  simp only at h
  split_ifs at h
  · cases h
    have hfin := (finish_steps z hk edit.finishDay "job_completed").keyed hk
    exact (finish_history hk.nodup _ _).spared (copyFields_gentle hfin _).spares
  · rw [except_bind_ok] at h
    obtain ⟨r, hr, h⟩ := h
    cases h
    exact reopenJob_history hk hr
  · rw [except_bind_ok] at h
    obtain ⟨r, hr, h⟩ := h
    cases h
    exact (cancel_history hk.nodup hr).spared (copyFields_gentle ((cancel_steps hk hr).keyed hk) _).spares
  · cases h
    exact (copyFields_gentle hk _).spares.history
  · unfold editLive at h
    split at h
    · rw [except_bind_ok] at h
      obtain ⟨r, hr, h⟩ := h
      cases h
      exact (editDate_gentle hk hr).spares.history
    · cases h
      exact (editCrew_gentle hk edit).spares.history

/-! ### Every request -/

/-- Visits as they are read: stored rows, one of a key. -/
structure ReadVisits (visits : List VisitRow) : Prop where
  nodup : (visits.map (·.id)).Nodup
  stored : ∀ v ∈ visits, ∃ id, v.id = .stored id

instance (visits : List VisitRow) : Decidable (ReadVisits visits) :=
  decidable_of_iff ((visits.map (·.id)).Nodup ∧ ∀ v ∈ visits, v.id matches .stored _) <| by
    refine ⟨fun h => ⟨h.1, fun v hv => ?_⟩, fun h => ⟨h.nodup, fun v hv => ?_⟩⟩
    · have hstored := h.2 v hv
      cases hid : v.id with
      | stored id => exact ⟨id, rfl⟩
      | new n => rw [hid] at hstored; cases hstored
    · obtain ⟨id, hid⟩ := h.stored v hv
      rw [hid]

theorem ReadVisits.keyed {visits : List VisitRow} (h : ReadVisits visits) :
    (Work.ofVisits visits).rows = visits ∧ (Work.ofVisits visits).Keyed := by
  have hrows : (Work.ofVisits visits).rows = visits := foldl_setRow_nodup visits [] h.nodup
  refine ⟨hrows, hrows.symm ▸ h.nodup, fun v hv n hn => ?_⟩
  obtain ⟨id, hid⟩ := h.stored v (hrows ▸ hv)
  rw [hn] at hid
  cases hid

/-- What a plan that is not refused keeps. -/
theorem plan_history {visits : List VisitRow} (hread : ReadVisits visits) {request : VisitRequest}
    (hok : (request.plan z visits).refusal = none) : KeepsHistory visits (request.plan z visits).visits := by
  obtain ⟨hrows, hk⟩ := hread.keyed
  have hlive : ∀ {w : Work}, KeepsHistory (Work.ofVisits visits).rows w.rows → KeepsHistory visits w.liveRows := by
    intro w h
    rw [hrows] at h
    refine ⟨fun v hv hs => mem_liveRows.mpr (h.worked v hv hs), fun v hv hs => ?_⟩
    simpa only [mem_liveRows] using h.onSite v hv hs
  cases request with
  | sync edit =>
    simp only [VisitRequest.plan, planVisitSync] at hok ⊢
    cases hp : planEdit z (.ofVisits visits) edit with
    | error e => rw [hp] at hok; cases hok
    | ok r => exact hlive (planEdit_history hk hp)
  | add today jobState days startTime mins techs fields =>
    obtain ⟨w, hw, -, hv⟩ := runPlan_ok hok
    simp only [except_bind_ok] at hw
    obtain ⟨-, -, -, -, -, -, -, -, hw⟩ := hw
    exact hv ▸ hlive (addDays_gentle hk hw).spares.history
  | move today jobState visitId startAt endAt techId =>
    obtain ⟨w, hw, -, hv⟩ := runPlan_ok hok
    simp only [except_bind_ok] at hw
    obtain ⟨-, -, v, hfind, -, -, -, -, -, -, hw⟩ := hw
    cases hw
    exact hv ▸ hlive (moveVisit_gentle hk (findOpen_ok hfind) (findOpen_open hfind) _ _ _).spares.history
  | remove jobState visitId =>
    obtain ⟨w, hw, -, hv⟩ := runPlan_ok hok
    simp only [except_bind_ok] at hw
    obtain ⟨-, -, v, hfind, -, -, hw⟩ := hw
    cases hw
    have hedit : EditsRow v (Work.ofVisits visits) ((Work.ofVisits visits).retire v "visit_removed") := .dropped rfl
    exact hv ▸ hlive (hedit.spares hk.nodup (findOpen_ok hfind) (findOpen_open hfind)).history

/-- A refused plan hands the visits back. -/
theorem plan_refused (z : ShopZone) (visits : List VisitRow) (request : VisitRequest)
    (h : (request.plan z visits).refusal.isSome) : (request.plan z visits).visits = visits := by
  have hrun : ∀ run : Except Refusal Work, (runPlan visits run).refusal.isSome → (runPlan visits run).visits = visits := by
    intro run h
    cases run with
    | error e => rfl
    | ok w => cases h
  cases request with
  | sync edit =>
    simp only [VisitRequest.plan, planVisitSync] at h ⊢
    cases hp : planEdit z (.ofVisits visits) edit with
    | error e => rfl
    | ok r => rw [hp] at h; cases h
  | add => exact hrun _ h
  | move => exact hrun _ h
  | remove => exact hrun _ h

/-- Worked days are history. Whatever is asked, a closed or cancelled visit is in the plan as it was, an ON SITE visit
    is too or has its status set and nothing else, and a refused plan changes no visit. -/
theorem worked_days_are_history (z : ShopZone) (visits : List VisitRow) (hread : ReadVisits visits)
    (request : VisitRequest) :
    (∀ v ∈ visits, visitState v = .closed ∨ visitState v = .cancelled → v ∈ (request.plan z visits).visits) ∧
    (∀ v ∈ visits, visitState v = .onSite → v ∈ (request.plan z visits).visits ∨
      ∃ status, (status = "completed".toList ∨ status = "cancelled".toList) ∧
        { v with status := some status } ∈ (request.plan z visits).visits) ∧
    ((request.plan z visits).refusal.isSome → (request.plan z visits).visits = visits) := by
  have hrefused := plan_refused z visits request
  cases hr : (request.plan z visits).refusal with
  | some r =>
    rw [hr] at hrefused
    have heq := hrefused rfl
    rw [heq]
    exact ⟨fun v hv _ => hv, fun v hv _ => .inl hv, fun _ => rfl⟩
  | none =>
    have h := plan_history hread hr
    exact ⟨h.worked, h.onSite, fun hsome => by cases hsome⟩

/-- A job with a day that was worked, a crew on site, and a day to come. -/
def workedVisits : List VisitRow :=
  [⟨.stored 1, some "ann".toList, 2 * DAY, none, some "completed".toList, some (2 * DAY), none, none, none⟩,
    ⟨.stored 2, some "ann".toList, 3 * DAY, none, some "scheduled".toList, some (3 * DAY), none, none, none⟩,
    ⟨.stored 3, some "bob".toList, 4 * DAY, none, some "scheduled".toList, none, none, none, none⟩]

/-- The job is completed on the day its crew is on site. -/
theorem worked_days_at_finish :
    let plan := (VisitRequest.sync { finishDay := some 3 }).plan utcZone workedVisits
    (∀ v ∈ workedVisits, visitState v = .closed ∨ visitState v = .cancelled → v ∈ plan.visits) ∧
    (∀ v ∈ workedVisits, visitState v = .onSite → v ∈ plan.visits ∨
      ∃ status, (status = "completed".toList ∨ status = "cancelled".toList) ∧
        { v with status := some status } ∈ plan.visits) ∧
    (plan.refusal.isSome → plan.visits = workedVisits) :=
  worked_days_are_history utcZone workedVisits (by decide) (.sync { finishDay := some 3 })

end Gdx
