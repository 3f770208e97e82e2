import GdxDispatch.Dispatch.VisitApply

/-! The date typed is the date kept.

    A job's date is the start of its earliest Current visit. An edit that writes a date T reaches it
    by moving the first day, by booking, or by booking after a crew change emptied the first day;
    whichever way, the Current visits left start at T or on a later day, and one of them starts at T.
    Where that cannot be had the planner refuses. -/

namespace Gdx
open Lib

/-! ### The job's date -/

def ScheduledJob.finished (job : ScheduledJob) : Bool :=
  let stage := (job.lifecycleStage.getD []).map Char.toLower
  stage == "completed".toList || stage == "cancelled".toList

/-- The starts of the Current visits among stored rows. -/
def currentStarts (rows : List Appointment) : List ℤ := (rows.filter fun a => isCurrent (asValue a)).map (·.startAt)

/-- The earliest Current visit's start onto the job; nothing on a finished job or without one. -/
def recomputeJobSchedule (job : ScheduledJob) (rows : List Appointment) : ScheduledJob :=
  if job.finished then job
  else match (currentStarts rows).min? with
    | none => job
    | some earliest => { job with scheduledAt := some earliest }

/-- Invariant I. -/
def InvariantI (job : ScheduledJob) (rows : List Appointment) : Prop :=
  job.finished = false → ∀ earliest, (currentStarts rows).min? = some earliest → job.scheduledAt = some earliest

/-- The write of the plan's date, when it has one. -/
def VisitPlan.dated (plan : VisitPlan) (job : ScheduledJob) : ScheduledJob :=
  match plan.scheduledAt with
  | some at' => { job with scheduledAt := at' }
  | none => job

/-- What the zone database gives for every zone in force: a later instant is not on an earlier day. -/
def ShopZone.Ordered (z : ShopZone) : Prop := ∀ t u, t ≤ u → z.day t ≤ z.day u

theorem utcZone_ordered : utcZone.Ordered := by
  intro t u h
  simp only [ShopZone.day, utcZone, minutes]
  exact Int.ediv_le_ediv (by decide) (by omega)

theorem invariantI_recompute (job : ScheduledJob) (rows : List Appointment) :
    InvariantI (recomputeJobSchedule job rows) rows := by
  intro hlive earliest hmin
  unfold recomputeJobSchedule at hlive ⊢
  split_ifs at hlive ⊢ with hfin
  · rw [hfin] at hlive
    cases hlive
  · rw [hmin]

/-! ### Starts -/

/-- The starts of the Current rows. -/
def starts (rows : List VisitRow) : Set ℤ := {t | ∃ r ∈ rows, isCurrent r = true ∧ r.startAt = t}

/-- No Current row starts before `T`, and one starts at `T` if there is any. -/
def StartsAt (T : ℤ) (rows : List VisitRow) : Prop := (∀ t ∈ starts rows, T ≤ t) ∧ ((starts rows).Nonempty → T ∈ starts rows)

theorem StartsAt.of_none {T : ℤ} {rows : List VisitRow} (h : ∀ r ∈ rows, isCurrent r = false) : StartsAt T rows := by
  have hempty : ∀ t, t ∉ starts rows := by
    rintro t ⟨r, hr, hc, -⟩
    rw [h r hr] at hc
    cases hc
  exact ⟨fun t ht => absurd ht (hempty t), fun ⟨t, ht⟩ => absurd ht (hempty t)⟩

section Starts
variable {z : ShopZone} {w w' : Work} {T : ℤ}

/-- A row rewritten at its own start, Current as before. -/
theorem starts_setRow {rows : List VisitRow} {v row : VisitRow} (hnd : (rows.map (·.id)).Nodup) (hv : v ∈ rows)
    (hid : row.id = v.id) (hcur : isCurrent row = isCurrent v) (hstart : row.startAt = v.startAt) :
    starts (setRow rows row) = starts rows := by
  ext t
  constructor
  · rintro ⟨r, hr, hc, ht⟩
    rcases mem_setRow hnd hr with rfl | ⟨hr, -⟩
    · exact ⟨v, hv, hcur ▸ hc, hstart ▸ ht⟩
    · exact ⟨r, hr, hc, ht⟩
  · rintro ⟨r, hr, hc, ht⟩
    by_cases hrv : r.id = row.id
    · have heq : r = v := List.inj_on_of_nodup_map hnd hr hv (hrv.trans hid)
      subst heq
      exact ⟨row, mem_setRow_self rows, hcur.trans hc, hstart.trans ht⟩
    · exact ⟨r, mem_setRow_of_ne hr hrv, hc, ht⟩

/-- A loop whose passes rewrite rows at their own start. -/
theorem starts_foldl {f : Work → VisitRow → Work}
    (hf : ∀ (w : Work) (v : VisitRow), f w v = w ∨ ∃ row : VisitRow, (f w v).rows = setRow w.rows row ∧
      row.id = v.id ∧ isCurrent row = isCurrent v ∧ row.startAt = v.startAt)
    (vs : List VisitRow) (hk : (w.rows.map (·.id)).Nodup) (hnd : (vs.map (·.id)).Nodup) (hin : ∀ v ∈ vs, v ∈ w.rows) :
    starts (vs.foldl f w).rows = starts w.rows := by
  refine (snapshot_foldl (P := fun m => (m.rows.map (·.id)).Nodup ∧ starts m.rows = starts w.rows)
    (fun m v hv hm => ?_) (fun m v u hu hne => ?_) vs hnd hin ⟨hk, rfl⟩).2
  · rcases hf m v with heq | ⟨row, hrows, hid, hcur, hstart⟩
    · rw [heq]; exact hm
    · rw [hrows]
      exact ⟨nodup_setRow hm.1 row, (starts_setRow hm.1 hv hid hcur hstart).trans hm.2⟩
  · rcases hf m v with heq | ⟨row, hrows, hid, -⟩
    · rw [heq]; exact hu
    · rw [hrows]; exact mem_setRow_of_ne hu (hid ▸ hne)

theorem copyFields_starts (hnd : (w.rows.map (·.id)).Nodup) (fields : VisitFields) :
    starts (copyFields w fields).rows = starts w.rows := by
  unfold copyFields
  split_ifs
  · rfl
  refine starts_foldl (fun w v => ?_) _ hnd (nodup_liveRows hnd) fun v hv => mem_liveRows.mp hv
  unfold copyFieldsRow
  split
  · exact Or.inl rfl
  · simp only
    split_ifs
    · exact Or.inl rfl
    · exact Or.inl rfl
    · exact Or.inr ⟨_, rfl, rfl, rfl, rfl⟩

theorem nameFirstDay_starts (hnd : (w.rows.map (·.id)).Nodup) (mins : Option ℤ) :
    starts (nameFirstDay z w mins).rows = starts w.rows := by
  unfold nameFirstDay
  split
  · unfold setFirstDayLength
    split
    · rfl
    refine starts_foldl (fun w v => ?_) _ hnd (nodup_on hnd) fun v hv => (mem_on.mp hv).1
    split_ifs
    · exact Or.inr ⟨_, rfl, rfl, rfl, rfl⟩
    · exact Or.inl rfl
  · rfl

theorem nameFirstDay_nodup (hnd : (w.rows.map (·.id)).Nodup) (mins : Option ℤ) :
    ((nameFirstDay z w mins).rows.map (·.id)).Nodup := by
  unfold nameFirstDay
  split
  · exact (setFirstDayLength_thins hnd _).nodup
  · exact hnd

/-- First-day length and fields change no start. -/
theorem dress_starts (hnd : (w.rows.map (·.id)).Nodup) (mins : Option ℤ) (fields : VisitFields) :
    starts (copyFields (nameFirstDay z w mins) fields).rows = starts w.rows := by
  rw [copyFields_starts (nameFirstDay_nodup hnd mins), nameFirstDay_starts hnd]

/-! ### Booking -/

/-- What a booking adds is at the target; if it added anything, something is at the target. -/
structure Adds (T : ℤ) (w w' : Work) : Prop where
  keyed : w'.Keyed
  only : ∀ r ∈ w'.rows, r ∈ w.rows ∨ r.startAt = T
  some : w'.actions.length ≠ w.actions.length → T ∈ starts w'.rows
  none : w'.actions.length = w.actions.length → w'.rows = w.rows
  grows : w.actions.length ≤ w'.actions.length

theorem current_newRow (n : ℕ) (tech : Option Text) (start stop : ℤ) (fields : VisitFields) :
    isCurrent (newRow n tech start stop fields) = true := rfl

theorem Adds.insert (h : Adds T w w') (tech : Option Text) (stop : ℤ) (fields : VisitFields) (reason : String) :
    Adds T w (w'.insert tech T stop fields reason) := by
  have hlen : (w'.insert tech T stop fields reason).actions.length = w'.actions.length + 1 := by
    simp [Work.insert]
  have hgrows := h.grows
  refine ⟨(Work.Step.insert (w := w') tech T stop fields reason).keyed h.keyed, fun r hr => ?_, fun _ => ?_, ?_, ?_⟩
  · rcases mem_setRow h.keyed.nodup hr with rfl | ⟨hr, -⟩
    · exact Or.inr rfl
    · exact h.only r hr
  · exact ⟨_, mem_setRow_self _, current_newRow _ _ _ _ _, rfl⟩
  · intro heq
    rw [hlen] at heq
    omega
  · rw [hlen]
    omega

theorem book_adds {crew : List Text} {fields : VisitFields} {edit : VisitEdit} {reopen : Bool} (hk : w.Keyed)
    (h : book z w crew T fields edit reopen = .ok w') : Adds T w w' := by
  unfold book at h
  simp only at h
  generalize (if crew = [] then [none] else crew.map some) = slots at h
  generalize slots.filter (fun t => (w.on z (z.day T) (some t) none).any isLive) = closedHere at h
  by_cases hask : reopen = true ∧ closedHere ≠ [] ∧ edit.rebookClosedDay = none
  · rw [if_pos hask] at h
    cases h
  rw [if_neg hask] at h
  cases h
  clear hask
  have hrefl : Adds T w w := ⟨hk, fun r hr => Or.inl hr, fun hne => absurd rfl hne, fun _ => rfl, le_refl _⟩
  suffices hfold : ∀ m, Adds T w m → Adds T w (slots.foldl (fun w tech =>
      if tech ∈ closedHere ∧ ¬ (reopen = true ∧ edit.rebookClosedDay = some true) then w
      else w.insert tech T (T + minutes edit.durationMinutes) fields "date_set") m) from hfold w hrefl
  induction slots with
  | nil => exact fun m hm => hm
  | cons tech slots ih =>
    intro m hm
    rw [List.foldl_cons]
    refine ih _ ?_
    split_ifs
    · exact hm
    · exact hm.insert _ _ _ _

/-- A booking on a job whose other Current visits are later, if any. -/
theorem Adds.startsAt (h : Adds T w w') (hlater : ∀ r ∈ w.rows, isCurrent r = true → T ≤ r.startAt)
    (hsome : w'.actions.length = w.actions.length → ∀ r ∈ w.rows, isCurrent r = false) : StartsAt T w'.rows := by
  refine ⟨?_, ?_⟩
  · rintro t ⟨r, hr, hc, rfl⟩
    rcases h.only r hr with hr | hr
    · exact hlater r hr hc
    · exact le_of_eq hr.symm
  · rintro ⟨t, r, hr, hc, -⟩
    by_cases hlen : w'.actions.length = w.actions.length
    · rw [h.none hlen] at hr
      rw [hsome hlen r hr] at hc
      cases hc
    · exact h.some hlen

/-! ### The routes to the target -/

/-- A loop of row writes, each under the key of the row it read, leaves what it wrote. -/
theorem foldl_move_written {f : Work → VisitRow → Work} {g : VisitRow → VisitRow}
    (hf : ∀ w v, (f w v).rows = setRow w.rows (g v)) (hid : ∀ v, (g v).id = v.id) :
    ∀ (vs : List VisitRow) (w : Work), (vs.map (·.id)).Nodup → ∀ v ∈ vs, g v ∈ (vs.foldl f w).rows
  | u :: vs, w, hnd, v, hv => by
    rw [List.map_cons, List.nodup_cons] at hnd
    rcases List.mem_cons.mp hv with rfl | hv
    · -- the writes after this one are under other keys
      have hkeep : ∀ (us : List VisitRow) (m : Work), v.id ∉ us.map (·.id) → g v ∈ m.rows →
          g v ∈ (us.foldl f m).rows := by
        intro us
        induction us with
        | nil => exact fun m _ hm => hm
        | cons x us ih =>
          intro m hnot hm
          rw [List.map_cons, List.mem_cons, not_or] at hnot
          refine ih (f m x) hnot.2 ?_
          rw [hf]
          exact mem_setRow_of_ne hm (by rw [hid, hid]; exact hnot.1)
      refine hkeep vs (f w v) hnd.1 ?_
      rw [hf]
      exact mem_setRow_self _
    · exact foldl_move_written hf hid vs (f w u) hnd.2 v hv

/-- The date part of the edit, on rows where nobody is on site and every other booked day is later. -/
theorem moveDate_startsAt {n : Option ℤ} {crew : List Text} {edit : VisitEdit} (hz : z.Ordered) (hk : w.Keyed)
    (hsite : n.isSome → ∀ r ∈ w.rows, visitState r ≠ .onSite)
    (hlater : ∀ r ∈ w.rows, isCurrent r = true → n ≠ some (z.day r.startAt) → z.day T < z.day r.startAt)
    (hnone : n = none → ∀ r ∈ w.rows, isCurrent r = false)
    (h : moveDate z w n crew edit (some T) = .ok w') : StartsAt T w'.rows := by
  have hafter : ∀ r ∈ w.rows, isCurrent r = true → n ≠ some (z.day r.startAt) → T ≤ r.startAt := by
    intro r hr hc hne
    by_contra hlt
    have hle := hz r.startAt T (le_of_lt (not_le.mp hlt))
    exact absurd (hlater r hr hc hne) (not_lt.mpr hle)
  unfold moveDate at h
  simp only at h
  cases hfilter : n.filter fun n => (w.on z n none none).any isCurrent with
  | some d =>
    simp only [hfilter] at h
    obtain ⟨rfl, hany⟩ := Option.filter_eq_some_iff.mp hfilter
    rw [except_bind_ok] at h
    obtain ⟨-, -, h⟩ := h
    cases h
    obtain ⟨-, hmem⟩ := mem_foldl_move
      (g := fun v => { v with startAt := T, endAt := some (T + visitLength v edit.durationMinutes) })
      (f := fun w v => w.move v T (T + visitLength v edit.durationMinutes) "date_moved") (fun _ _ => rfl)
      (fun _ => rfl) (w.on z d none (some [.open])) w hk.nodup
    have hopen : ∀ r ∈ w.rows, isCurrent r = true → z.day r.startAt = d → r ∈ w.on z d none (some [.open]) := by
      intro r hr hc hday
      refine mem_on.mpr ⟨hr, hday, by simp, fun ss hss => ?_⟩
      cases hss
      simp only [isCurrent, Bool.or_eq_true, beq_iff_eq] at hc
      exact List.mem_singleton.mpr (hc.resolve_right (hsite rfl r hr))
    refine ⟨?_, fun _ => ?_⟩
    · rintro t ⟨r, hr, hc, rfl⟩
      rcases hmem r hr with ⟨v, -, rfl⟩ | ⟨hr, hnot⟩
      · exact le_refl _
      · refine hafter r hr hc fun hday => hnot ?_
        exact List.mem_map_of_mem (hopen r hr hc (Option.some.inj hday).symm)
    · -- the day has a Current row, an OPEN one, and that row was moved
      obtain ⟨v, hv, hc⟩ := List.any_eq_true.mp hany
      obtain ⟨hv, hday, -⟩ := mem_on.mp hv
      have hmoved := foldl_move_written
        (g := fun v => { v with startAt := T, endAt := some (T + visitLength v edit.durationMinutes) })
        (f := fun w v => w.move v T (T + visitLength v edit.durationMinutes) "date_moved") (fun _ _ => rfl)
        (fun _ => rfl) (w.on z d none (some [.open])) w (nodup_on hk.nodup) v (hopen v hv hc hday)
      exact ⟨_, hmoved, hc, rfl⟩
  | none =>
    simp only [hfilter] at h
    rw [except_bind_ok] at h
    obtain ⟨booked, hbook, h⟩ := h
    rw [except_bind_ok] at h
    obtain ⟨⟨⟩, hlanded, h⟩ := h
    cases h
    have hadds := book_adds hk hbook
    have hoff : ∀ r ∈ w.rows, isCurrent r = true → n ≠ some (z.day r.startAt) := by
      rintro r hr hc rfl
      rw [Option.filter_eq_none_iff] at hfilter
      refine hfilter _ rfl (List.any_eq_true.mpr ⟨r, mem_on.mpr ⟨hr, rfl, by simp, by simp⟩, hc⟩)
    refine hadds.startsAt (fun r hr hc => hafter r hr hc (hoff r hr hc)) fun hlen r hr => ?_
    cases n with
    | none => exact hnone rfl r hr
    | some d =>
      -- nothing was booked: the plan would have been refused with a Current row left
      by_contra hc
      rw [Bool.not_eq_false] at hc
      refine refuseIf_ok hlanded ⟨rfl, hlen, List.any_eq_true.mpr ⟨r, ?_, hc⟩⟩
      rw [mem_liveRows, hadds.none hlen]
      exact hr

theorem currentDay_none (h : currentDay z w.liveRows = none) : ∀ r ∈ w.rows, isCurrent r = false := by
  intro r hr
  by_contra hc
  rw [Bool.not_eq_false] at hc
  rw [currentDay, Option.map_eq_none_iff, List.min?_eq_none_iff, List.map_eq_nil_iff, List.filter_eq_nil_iff] at h
  exact h r (mem_liveRows.mpr hr) hc

theorem editDate_startsAt {edit : VisitEdit} (hz : z.Ordered) (hk : w.Keyed)
    (h : editDate z w edit (some T) = .ok w') : StartsAt T w'.rows := by
  unfold editDate at h
  rw [except_bind_ok] at h
  obtain ⟨⟨⟩, hcheck, h⟩ := h
  rw [except_bind_ok] at h
  obtain ⟨moved, hmove, h⟩ := h
  cases h
  have hcrew := changeCrew_gentle z hk (currentDay z w.liveRows) edit
  have hkc := hcrew.keyed hk
  have hkm := (moveDate_gentle hkc hmove).keyed hkc
  unfold StartsAt
  rw [dress_starts hkm.nodup]
  cases hn : currentDay z w.liveRows with
  | none =>
    rw [hn] at hmove hkc
    have hnone := currentDay_none hn
    rw [changeCrew_none] at hmove hkc
    refine moveDate_startsAt hz hkc (fun hs => by cases hs) (fun r hr hc => ?_) (fun _ => hnone) hmove
    rw [hnone r hr] at hc
    cases hc
  | some d =>
    rw [hn] at hmove hkc hcheck
    obtain ⟨hsite, hlater⟩ := checkRefusals_ok (show checkRefusals z w d (some T) = .ok () from hcheck)
    have hnear := (changeCrew_step z w d edit).near hk.nodup
    refine moveDate_startsAt hz hkc (fun _ r hr => ?_) (fun r hr hc hne => ?_) (fun hs => by cases hs) hmove
    · rcases hnear r hr with hr | ⟨hopen, -⟩
      · exact hsite r hr
      · rw [hopen]; decide
    · have hday : z.day r.startAt ≠ d := fun heq => hne (congrArg some heq.symm)
      rcases hnear r hr with hr | ⟨-, heq⟩
      · exact hlater T rfl r hr hc hday
      · exact absurd heq hday

theorem reopenJob_startsAt {edit : VisitEdit} (hk : w.Keyed) (h : reopenJob z w edit (some (some T)) = .ok w') :
    StartsAt T w'.rows := by
  unfold reopenJob at h
  rw [except_bind_ok] at h
  obtain ⟨settled, hsettle, h⟩ := h
  have hdone : w.Steps settled ∧ ∀ r ∈ settled.rows, isCurrent r = false := by
    unfold settleReopened at hsettle
    split_ifs at hsettle
    · exact ⟨cancel_steps hk hsettle, cancel_none_current hk.nodup hsettle⟩
    · cases hsettle
      exact ⟨finish_steps z hk _ _, finish_none_current z hk.nodup _ _⟩
  simp only [changeCrew_none] at h
  refine (book_adds (hdone.1.keyed hk) h).startsAt (fun r hr hc => ?_) fun _ => hdone.2
  rw [hdone.2 r hr] at hc
  cases hc

/-- The planner lands a date it writes. -/
theorem planEdit_startsAt {edit : VisitEdit} (hz : z.Ordered) (hk : w.Keyed) (hlive : edit.jobState ∉ FINISHED_STAGES)
    (h : planEdit z w edit = .ok (w', some (some T))) : StartsAt T w'.rows := by
  unfold planEdit at h
  simp only at h
  split_ifs at h
  · obtain ⟨rfl, -⟩ := Prod.mk.inj (Except.ok.inj h)
    unfold StartsAt
    rw [copyFields_starts ((finish_steps z hk _ _).keyed hk).nodup]
    exact StartsAt.of_none (finish_none_current z hk.nodup _ _)
  · rw [except_bind_ok] at h
    obtain ⟨r, hr, h⟩ := h
    obtain ⟨rfl, hat⟩ := Prod.mk.inj (Except.ok.inj h)
    rw [hat] at hr
    exact reopenJob_startsAt hk hr
  · rw [except_bind_ok] at h
    obtain ⟨r, hr, h⟩ := h
    obtain ⟨rfl, -⟩ := Prod.mk.inj (Except.ok.inj h)
    unfold StartsAt
    rw [copyFields_starts ((cancel_steps hk hr).keyed hk).nodup]
    exact StartsAt.of_none (cancel_none_current hk.nodup hr)
  · unfold editLive at h
    split at h
    · rw [except_bind_ok] at h
      obtain ⟨r, hr, h⟩ := h
      obtain ⟨rfl, hat⟩ := Prod.mk.inj (Except.ok.inj h)
      rw [Option.some.inj hat] at hr
      exact editDate_startsAt hz hk hr
    · cases h

end Starts

/-! ### After the applier -/

/-- Current is read off the view. -/
theorem current_of_view {r : VisitId × Appointment} {v : VisitRow} (h : storedView r = v.view) :
    isCurrent (asValue r.2) = isCurrent v ∧ r.2.startAt = v.startAt := by
  simp only [storedView, VisitRow.view, VisitView.mk.injEq] at h
  obtain ⟨-, -, hstart, -, hstatus, harrived⟩ := h
  refine ⟨?_, hstart⟩
  unfold isCurrent visitState lowerStatus
  simp only [asValue, hstatus, harrived]

theorem mem_currentStarts {s : Session} {visits : List VisitRow} (h : (s.live.map storedView).Perm (visits.map (·.view)))
    (t : ℤ) : t ∈ currentStarts (s.live.map (·.2)) ↔ t ∈ starts visits := by
  simp only [currentStarts, List.mem_map, List.mem_filter]
  constructor
  · rintro ⟨a, ⟨⟨r, hr, rfl⟩, hc⟩, rfl⟩
    obtain ⟨v, hv, hview⟩ := List.mem_map.mp (h.subset (List.mem_map_of_mem hr))
    obtain ⟨hcur, hstart⟩ := current_of_view hview.symm
    exact ⟨v, hv, hcur ▸ hc, hstart.symm⟩
  · rintro ⟨v, hv, hc, rfl⟩
    obtain ⟨r, hr, hview⟩ := List.mem_map.mp (h.symm.subset (List.mem_map_of_mem hv))
    obtain ⟨hcur, hstart⟩ := current_of_view hview
    exact ⟨r.2, ⟨⟨r, hr, rfl⟩, hcur ▸ hc⟩, hstart⟩

/-- The date typed is the date kept. A plan for an unfinished job that is not refused applies. If it
    writes a date, the earliest Current visit left, if any, starts then, and the recompute leaves the
    job's date there; if it writes none, invariant I holds again after the recompute. -/
theorem typed_date_kept (z : ShopZone) (hz : z.Ordered) (appts : List Appointment) (hids : (appts.map (·.id)).Nodup)
    (hlive : ∀ a ∈ appts, a.deletedAt = none) (edit : VisitEdit) (hunfinished : edit.jobState ∉ FINISHED_STAGES)
    (plan : VisitPlan) (hplan : plan = planVisitSync z (appts.map asValue) edit) (hok : plan.refusal = none)
    (job : ScheduledJob) (hstage : job.finished = false) (userId : Option Text) (now : ℤ) (nextId : ℕ) :
    ∃ s, applyVisitPlan job userId now appts nextId plan = .ok s ∧
      (∀ T, plan.scheduledAt = some (some T) →
        (∀ earliest, (currentStarts (s.live.map (·.2))).min? = some earliest → earliest = T) ∧
        (recomputeJobSchedule (plan.dated job) (s.live.map (·.2))).scheduledAt = some T) ∧
      (plan.scheduledAt = none → InvariantI job appts →
        InvariantI (recomputeJobSchedule (plan.dated job) (s.live.map (·.2))) (s.live.map (·.2))) := by
  subst hplan
  obtain ⟨-, hk⟩ := ofVisits_stored hids
  obtain ⟨s, hs, hperm⟩ := applier_realises_plan z appts hids hlive (.sync edit) hok job userId now nextId
  refine ⟨s, hs, fun T hT => ?_, fun _ _ => invariantI_recompute _ _⟩
  have hstarts : StartsAt T (planVisitSync z (appts.map asValue) edit).visits := by
    unfold planVisitSync at hok hT ⊢
    cases hp : planEdit z (.ofVisits (appts.map asValue)) edit with
    | error e => rw [hp] at hok; cases hok
    | ok res =>
      obtain ⟨w, at'⟩ := res
      rw [hp] at hT
      have hat : at' = some (some T) := hT
      subst hat
      have hland := planEdit_startsAt hz hk hunfinished hp
      have hsame : starts w.liveRows = starts w.rows := by
        ext t
        simp only [starts, mem_liveRows]
      unfold StartsAt at hland ⊢
      rw [hsame]
      exact hland
  have hmin : ∀ earliest, (currentStarts (s.live.map (·.2))).min? = some earliest → earliest = T := by
    intro earliest hmin
    obtain ⟨hmem, hle⟩ := List.min?_eq_some_iff.mp hmin
    have hin := (mem_currentStarts hperm earliest).mp hmem
    have hT' := (mem_currentStarts hperm T).mpr (hstarts.2 ⟨earliest, hin⟩)
    exact le_antisymm (hle T hT') (hstarts.1 earliest hin)
  refine ⟨hmin, ?_⟩
  have hdated : (planVisitSync z (appts.map asValue) edit).dated job = { job with scheduledAt := some T } := by
    unfold VisitPlan.dated
    rw [hT]
  have hopen : ¬ ({ job with scheduledAt := some T } : ScheduledJob).finished = true := by
    show ¬ job.finished = true
    rw [hstage]
    decide
  rw [hdated, recomputeJobSchedule, if_neg hopen]
  cases hcase : (currentStarts (s.live.map (·.2))).min? with
  | none => rfl
  | some earliest => rw [hmin earliest hcase]

/-- The job of `twoDayAppointments` typed onto day 4. -/
theorem typed_date_kept_join :
    ∃ s, applyVisitPlan ⟨some "Job".toList, some 7, none, some "scheduled".toList, some (3 * DAY)⟩ none (2 * DAY)
        twoDayAppointments 4 (joinAndMove.plan utcZone (twoDayAppointments.map asValue)) = .ok s ∧
      (recomputeJobSchedule ((joinAndMove.plan utcZone (twoDayAppointments.map asValue)).dated
        ⟨some "Job".toList, some 7, none, some "scheduled".toList, some (3 * DAY)⟩)
        (s.live.map (·.2))).scheduledAt = some (4 * DAY) := by
  obtain ⟨s, hs, hdate, -⟩ := typed_date_kept utcZone utcZone_ordered twoDayAppointments (by decide) (by decide)
    { scheduledAt := some (some (4 * DAY)), storedScheduledAt := some (3 * DAY)
      crewBefore := ["ann".toList], crewAfter := some ["ann".toList, "bob".toList] } (by decide) _ rfl
    (by decide +kernel) ⟨some "Job".toList, some 7, none, some "scheduled".toList, some (3 * DAY)⟩ (by decide) none
    (2 * DAY) 4
  exact ⟨s, hs, (hdate (4 * DAY) (by decide +kernel)).2⟩

end Gdx
