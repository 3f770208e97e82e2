import GdxDispatch.Dispatch.TypedDate

/-! Saving twice changes nothing.

    Each rule of a live job's edit has a guard, and what the rule leaves makes the guard false: the crew left is the
    crew asked for, the date stored is the date asked for, and the first-day length and the fields are those of every
    row they are copied to. After a finish or a cancel nothing is Current, so there is nothing left to close. -/

namespace Gdx
open Lib

variable {z : ShopZone} {w w' : Work} {edit : VisitEdit}

/-! ### Loops that leave nothing to do -/

theorem foldl_idle {f : Work → VisitRow → Work} {vs : List VisitRow} (hf : ∀ v ∈ vs, f w v = w) :
    vs.foldl f w = w := by
  induction vs with
  | nil => rfl
  | cons v vs ih =>
    rw [List.foldl_cons, hf v List.mem_cons_self]
    exact ih fun u hu => hf u (List.mem_cons_of_mem _ hu)

/-- A pass settles its own row and makes no other row due; so a loop over all due rows leaves none. -/
theorem foldl_settles {f : Work → VisitRow → Work} {Due : VisitRow → Prop}
    (hf : ∀ (m : Work) (v : VisitRow), (m.rows.map (·.id)).Nodup →
      ((f m v).rows.map (·.id)).Nodup ∧ ∀ r ∈ (f m v).rows, Due r → r ∈ m.rows ∧ r ≠ v)
    {vs : List VisitRow} (hnd : (w.rows.map (·.id)).Nodup) (hvs : ∀ r ∈ w.rows, Due r → r ∈ vs) :
    ∀ r ∈ (vs.foldl f w).rows, ¬ Due r := by
  induction vs generalizing w with
  | nil => exact fun r hr hdue => absurd (hvs r hr hdue) (List.not_mem_nil)
  | cons v vs ih =>
    rw [List.foldl_cons]
    obtain ⟨hnd', hdue'⟩ := hf w v hnd
    refine ih hnd' fun r hr hdue => ?_
    obtain ⟨hr, hne⟩ := hdue' r hr hdue
    exact (List.mem_cons.mp (hvs r hr hdue)).resolve_left hne

/-- The row written in place of `v` is not due, and neither is any other that was not. -/
theorem settles_setRow {Due : VisitRow → Prop} {rows : List VisitRow} {v row : VisitRow}
    (hnd : (rows.map (·.id)).Nodup) (hid : row.id = v.id) (hrow : ¬ Due row) :
    ∀ r ∈ setRow rows row, Due r → r ∈ rows ∧ r ≠ v := by
  intro r hr hdue
  rcases mem_setRow hnd hr with rfl | ⟨hr, hne⟩
  · exact absurd hdue hrow
  · refine ⟨hr, ?_⟩
    rintro rfl
    exact hne hid.symm

/-! ### First-day length -/

/-- An OPEN row of the first day that has another length. -/
def LengthDue (z : ShopZone) (first length : ℤ) (v : VisitRow) : Prop :=
  visitState v = .open ∧ z.day v.startAt = first ∧ visitLength v 0 ≠ length

theorem currentDay_of_starts {rows rows' : List VisitRow} (h : starts rows = starts rows') :
    currentDay z rows = currentDay z rows' := by
  have hmem : ∀ (rows : List VisitRow) (t : ℤ), t ∈ (rows.filter isCurrent).map (·.startAt) ↔ t ∈ starts rows := by
    intro rows t
    simp only [starts, List.mem_map, List.mem_filter, and_assoc]
    rfl
  unfold currentDay
  congr 1
  ext t
  simp only [List.min?_eq_some_iff, hmem, h]

theorem starts_liveRows (w : Work) : starts w.liveRows = starts w.rows := by
  ext t
  simp only [starts, mem_liveRows]

theorem setFirstDayLength_settles {first length : ℤ} (hnd : (w.rows.map (·.id)).Nodup)
    (hfirst : currentDay z w.rows = some first) :
    ∀ r ∈ (setFirstDayLength z w length).rows, ¬ LengthDue z first length r := by
  unfold setFirstDayLength
  rw [currentDay_of_starts (starts_liveRows w), hfirst]
  refine foldl_settles (fun m v hm => ?_) hnd fun r hr hdue => ?_
  · by_cases hlength : visitLength v 0 ≠ length
    · rw [if_pos hlength]
      refine ⟨nodup_setRow hm _, settles_setRow hm rfl fun hdue => hdue.2.2 ?_⟩
      simp [visitLength]
    · rw [if_neg hlength]
      refine ⟨hm, fun r hr hdue => ⟨hr, ?_⟩⟩
      rintro rfl
      exact hlength hdue.2.2
  · exact mem_on.mpr ⟨hr, hdue.2.1, (fun t ht => by cases ht), fun ss hss => by
      cases hss
      exact List.mem_singleton.mpr hdue.1⟩

theorem setFirstDayLength_idle {length : ℤ}
    (h : ∀ first, currentDay z w.rows = some first → ∀ r ∈ w.rows, ¬ LengthDue z first length r) :
    setFirstDayLength z w length = w := by
  unfold setFirstDayLength
  rw [currentDay_of_starts (starts_liveRows w)]
  cases hfirst : currentDay z w.rows with
  | none => rfl
  | some first =>
    refine foldl_idle fun v hv => if_neg fun hlength => ?_
    obtain ⟨hv, hday, -, hstate⟩ := mem_on.mp hv
    exact h first hfirst v hv ⟨List.mem_singleton.mp (hstate _ rfl), hday, hlength⟩

/-! ### Field copy -/

/-- What a request changes of a row's fields. -/
def fieldChanges (fields : VisitFields) (v : VisitRow) : VisitFields :=
  ⟨changed fields.title v.title, changed fields.customerId v.customerId, changed fields.customerName v.customerName⟩

/-- An OPEN stored row some field of which is not as asked. -/
def CopyDue (fields : VisitFields) (v : VisitRow) : Prop :=
  (∃ id, v.id = .stored id) ∧ visitState v = .open ∧ fieldChanges fields v ≠ .empty

theorem changed_copied {α : Type} [DecidableEq α] (asked : Option (Option α)) (held : Option α) :
    changed asked ((changed asked held).getD held) = none := by
  cases asked with
  | none => rfl
  | some value =>
    by_cases h : value = held
    · simp [changed, Option.filter, h]
    · simp [changed, Option.filter, h]

theorem copyFieldsRow_idle {fields : VisitFields} {v : VisitRow} (h : ¬ CopyDue fields v) :
    copyFieldsRow fields w v = w := by
  unfold copyFieldsRow
  split
  · rfl
  · next id hid =>
    simp only
    by_cases hopen : visitState v ≠ .open
    · rw [if_pos hopen]
    · rw [if_neg hopen, if_pos]
      by_contra hchanges
      exact h ⟨⟨id, hid⟩, not_not.mp hopen, hchanges⟩

/-- A row that is due is written with the fields asked for, and nothing else of it changes. -/
theorem copyFieldsRow_due {fields : VisitFields} {v : VisitRow} (h : CopyDue fields v) :
    (copyFieldsRow fields w v).rows = setRow w.rows { v with
      title := (fieldChanges fields v).title.getD v.title
      customerId := (fieldChanges fields v).customerId.getD v.customerId
      customerName := (fieldChanges fields v).customerName.getD v.customerName } := by
  obtain ⟨⟨id, hid⟩, hopen, hchanges⟩ := h
  unfold fieldChanges at hchanges
  unfold copyFieldsRow
  rw [hid]
  simp only
  rw [if_neg (not_not.mpr hopen), if_neg hchanges]
  rfl

theorem copyFields_settles {fields : VisitFields} (hnd : (w.rows.map (·.id)).Nodup) (hfields : fields ≠ .empty) :
    ∀ r ∈ (copyFields w fields).rows, ¬ CopyDue fields r := by
  unfold copyFields
  rw [if_neg hfields]
  refine foldl_settles (fun m v hm => ?_) hnd fun r hr _ => mem_liveRows.mpr hr
  by_cases hdue : CopyDue fields v
  · rw [copyFieldsRow_due hdue]
    refine ⟨nodup_setRow hm _, settles_setRow hm rfl fun hagain => hagain.2.2 ?_⟩
    simp only [fieldChanges, changed_copied, VisitFields.empty]
  · rw [copyFieldsRow_idle hdue]
    refine ⟨hm, fun r hr hagain => ⟨hr, ?_⟩⟩
    rintro rfl
    exact hdue hagain

theorem copyFields_idle {fields : VisitFields} (h : fields ≠ .empty → ∀ r ∈ w.rows, ¬ CopyDue fields r) :
    copyFields w fields = w := by
  unfold copyFields
  split_ifs with hfields
  · rfl
  · exact foldl_idle fun v hv => copyFieldsRow_idle (h hfields v (mem_liveRows.mp hv))

/-- The field copy changes no length. -/
theorem copyFields_keeps_length {fields : VisitFields} {first length : ℤ} (hnd : (w.rows.map (·.id)).Nodup)
    (h : ∀ r ∈ w.rows, ¬ LengthDue z first length r) :
    ∀ r ∈ (copyFields w fields).rows, ¬ LengthDue z first length r := by
  unfold copyFields
  split_ifs
  · exact h
  refine (snapshot_foldl (P := fun m => (m.rows.map (·.id)).Nodup ∧ ∀ r ∈ m.rows, ¬ LengthDue z first length r)
    (fun m v hv hm => ?_) (fun m v u hu hne => ?_) w.liveRows (nodup_liveRows hnd)
    (fun v hv => mem_liveRows.mp hv) ⟨hnd, h⟩).2
  · by_cases hdue : CopyDue fields v
    · rw [copyFieldsRow_due hdue]
      refine ⟨nodup_setRow hm.1 _, fun r hr => ?_⟩
      rcases mem_setRow hm.1 hr with rfl | ⟨hr, -⟩
      · exact hm.2 v hv
      · exact hm.2 r hr
    · rw [copyFieldsRow_idle hdue]
      exact hm
  · by_cases hdue : CopyDue fields v
    · rw [copyFieldsRow_due hdue]
      exact mem_setRow_of_ne hu hne
    · rw [copyFieldsRow_idle hdue]
      exact hu

/-! ### The rows an edit leaves -/

/-- Rows on which neither the first-day length nor the field copy has anything to do. -/
structure AsAsked (z : ShopZone) (edit : VisitEdit) (rows : List VisitRow) : Prop where
  length : ∀ mins, edit.firstDayMinutes.filter (· ≠ 0) = some mins → ∀ first, currentDay z rows = some first →
    ∀ r ∈ rows, ¬ LengthDue z first (minutes mins) r
  copied : edit.fields ≠ .empty → ∀ r ∈ rows, ¬ CopyDue edit.fields r

/-- The order of the rows does not matter. -/
theorem AsAsked.perm {rows rows' : List VisitRow} (h : AsAsked z edit rows) (hperm : rows'.Perm rows) :
    AsAsked z edit rows' := by
  have hstarts : starts rows' = starts rows := by
    ext t
    simp only [starts, hperm.mem_iff]
  refine ⟨fun mins hmins first hfirst r hr => ?_, fun hfields r hr => h.copied hfields r (hperm.mem_iff.mp hr)⟩
  rw [currentDay_of_starts hstarts] at hfirst
  exact h.length mins hmins first hfirst r (hperm.mem_iff.mp hr)

theorem AsAsked.of_none_current (h : ∀ r ∈ w.rows, isCurrent r = false) : AsAsked z edit w.rows := by
  have hopen : ∀ r ∈ w.rows, visitState r ≠ .open := by
    intro r hr hopen
    have hnot := h r hr
    rw [isCurrent, hopen] at hnot
    cases hnot
  exact ⟨fun _ _ _ _ r hr hdue => hopen r hr hdue.1, fun _ r hr hdue => hopen r hr hdue.2.1⟩

/-- What the last two rules of a live job's edit leave. -/
theorem dress_settled (hnd : (w.rows.map (·.id)).Nodup) :
    AsAsked z edit (copyFields (nameFirstDay z w edit.firstDayMinutes) edit.fields).rows := by
  have hnamed := nameFirstDay_nodup (z := z) hnd edit.firstDayMinutes
  refine ⟨fun mins hmins first hfirst => copyFields_keeps_length hnamed ?_, copyFields_settles hnamed⟩
  rw [currentDay_of_starts (dress_starts hnd _ _)] at hfirst
  unfold nameFirstDay
  rw [hmins]
  exact setFirstDayLength_settles hnd hfirst

theorem AsAsked.dress_idle (h : AsAsked z edit w.rows) :
    copyFields (nameFirstDay z w edit.firstDayMinutes) edit.fields = w := by
  have hnamed : nameFirstDay z w edit.firstDayMinutes = w := by
    unfold nameFirstDay
    cases hmins : edit.firstDayMinutes.filter (· ≠ 0) with
    | none => rfl
    | some mins => exact setFirstDayLength_idle (h.length mins hmins)
  rw [hnamed]
  exact copyFields_idle h.copied

/-! ### The crew -/

theorem fst_removeAll (z : ShopZone) (n : Option ℤ) (ts : List Text) (s : List Text × Work) :
    (ts.foldl (removeTech z n) s).1 = s.1.diff ts := by
  induction ts generalizing s with
  | nil => rfl
  | cons t ts ih =>
    rw [List.foldl_cons, ih, List.diff_cons]
    rfl

/-- The crew a change leaves is the crew asked for. -/
theorem mem_crewChange (z : ShopZone) (w : Work) (n : Option ℤ) (before after : List Text) (fields : VisitFields)
    (mins : ℤ) (t : Text) : t ∈ (crewChange z w n before after fields mins).1 ↔ t ∈ after := by
  rw [crewChange, fst_foldl_addTech, fst_removeAll, List.mem_append]
  have hleft : t ∈ before.diff (before.filter (· ∉ after)) ↔ t ∈ before ∧ t ∈ after := by
    rw [← List.count_pos_iff, List.count_diff]
    by_cases hafter : t ∈ after
    · have hnone : (before.filter (· ∉ after)).count t = 0 := by
        rw [List.count_eq_zero, List.mem_filter]
        simp [hafter]
      rw [hnone, Nat.sub_zero, List.count_pos_iff]
      exact (and_iff_left hafter).symm
    · have hall : (before.filter (· ∉ after)).count t = before.count t := List.count_filter (by simpa using hafter)
      rw [hall, Nat.sub_self]
      simp [hafter]
  rw [hleft, List.mem_filter, decide_eq_true_eq]
  tauto

theorem changeCrew_idle {n : Option ℤ}
    (h : ∀ after, edit.crewAfter = some after → ∀ t, t ∈ edit.crewBefore ↔ t ∈ after) :
    changeCrew z w n edit = (edit.crewBefore, w) := by
  unfold changeCrew
  cases hafter : edit.crewAfter with
  | none => rfl
  | some after =>
    have hsame := h after hafter
    have hleave : edit.crewBefore.filter (· ∉ after) = [] :=
      List.filter_eq_nil_iff.mpr fun t ht => by simpa using (hsame t).mp ht
    have hjoin : after.filter (· ∉ edit.crewBefore) = [] :=
      List.filter_eq_nil_iff.mpr fun t ht => by simpa using (hsame t).mpr ht
    simp only [crewChange, hleave, hjoin, List.foldl_nil]

/-! ### The second run -/

theorem foldl_nodup {α : Type} {f : Work → α → Work}
    (hf : ∀ (m : Work) (a : α), (m.rows.map (·.id)).Nodup → ((f m a).rows.map (·.id)).Nodup) (as : List α)
    (hnd : (w.rows.map (·.id)).Nodup) : ((as.foldl f w).rows.map (·.id)).Nodup := by
  induction as generalizing w with
  | nil => exact hnd
  | cons a as ih => exact ih (hf w a hnd)

theorem changeCrew_ids (hnd : (w.rows.map (·.id)).Nodup) (n : Option ℤ) (edit : VisitEdit) :
    ((changeCrew z w n edit).2.rows.map (·.id)).Nodup := by
  cases n with
  | none => rw [changeCrew_none]; exact hnd
  | some n => exact (changeCrew_step z w n edit).nodup hnd

theorem book_ids {crew : List Text} {target : ℤ} {fields : VisitFields} {reopen : Bool}
    (hnd : (w.rows.map (·.id)).Nodup) (h : book z w crew target fields edit reopen = .ok w') :
    (w'.rows.map (·.id)).Nodup := by
  unfold book at h
  simp only at h
  generalize (if crew = [] then [none] else crew.map some) = slots at h
  split_ifs at h
  cases h
  refine foldl_nodup (fun m tech hm => ?_) _ hnd
  split_ifs
  · exact hm
  · exact nodup_setRow hm _

theorem moveDate_ids {n : Option ℤ} {crew : List Text} {target : Option ℤ} (hnd : (w.rows.map (·.id)).Nodup)
    (h : moveDate z w n crew edit target = .ok w') : (w'.rows.map (·.id)).Nodup := by
  unfold moveDate at h
  split at h
  · cases h
    exact foldl_nodup (fun _ _ hm => nodup_filter_ids hm _) _ hnd
  · split at h
    · rw [except_bind_ok] at h
      obtain ⟨-, -, h⟩ := h
      cases h
      exact foldl_nodup (fun _ _ hm => nodup_setRow hm _) _ hnd
    · rw [except_bind_ok] at h
      obtain ⟨booked, hbook, h⟩ := h
      rw [except_bind_ok] at h
      obtain ⟨-, -, h⟩ := h
      cases h
      exact book_ids hnd hbook

theorem toMinute_toMinute (t : ℤ) : toMinute (toMinute t) = toMinute t := by
  unfold toMinute
  rw [Int.mul_ediv_cancel _ (by decide)]

/-- The crew the planner holds when it is done; a finish, a cancel and a finished job's edit change no crew. -/
def VisitEdit.crewLeft (z : ShopZone) (visits : List VisitRow) (edit : VisitEdit) : List Text :=
  if edit.finishDay.isSome ∨ edit.cancel ∨ edit.jobState ∈ FINISHED_STAGES then edit.crewBefore
  else (changeCrew z (.ofVisits visits) (currentDay z (Work.ofVisits visits).liveRows) edit).1

/-- The same request on the job as it is saved: its crew is the one left, its date the plan's. -/
def VisitEdit.again (edit : VisitEdit) (crew : List Text) (scheduledAt : Option (Option ℤ)) : VisitEdit :=
  { edit with crewBefore := crew, storedScheduledAt := scheduledAt.getD edit.storedScheduledAt }

/-- The saved date is the date asked for, or none was asked. -/
theorem date_settled (asked : Option (Option ℤ)) (stored : Option ℤ) :
    let scheduledAt := asked.map (·.map toMinute)
    let saved := (scheduledAt.filter (· ≠ stored.map toMinute)).getD stored
    scheduledAt.filter (· ≠ saved.map toMinute) = none := by
  cases asked with
  | none => rfl
  | some date =>
    by_cases hdate : date.map toMinute = stored.map toMinute
    · simp [Option.filter, hdate]
    · have hagain : (date.map toMinute).map toMinute = date.map toMinute := by
        rw [Option.map_map]
        congr 1
        ext t
        exact toMinute_toMinute t
      simp [Option.filter, hdate, hagain]

/-- An edit of a live job leaves rows that are settled and a date that is saved as it was asked. -/
theorem editLive_settled {asked date : Option (Option ℤ)} (hnd : (w.rows.map (·.id)).Nodup)
    (h : editLive z w edit asked = .ok (w', date)) :
    (w'.rows.map (·.id)).Nodup ∧ AsAsked z edit w'.rows ∧
      date = asked.filter (· ≠ edit.storedScheduledAt.map toMinute) := by
  have hdress : ∀ {m : Work}, (m.rows.map (·.id)).Nodup →
      ((copyFields (nameFirstDay z m edit.firstDayMinutes) edit.fields).rows.map (·.id)).Nodup := fun hm =>
    (copyFields_thins (z := z) (nameFirstDay_nodup hm _) _).nodup
  unfold editLive at h
  split at h
  · next target htarget =>
    rw [except_bind_ok] at h
    obtain ⟨left, hedit, h⟩ := h
    cases h
    unfold editDate at hedit
    rw [except_bind_ok] at hedit
    obtain ⟨-, -, hedit⟩ := hedit
    rw [except_bind_ok] at hedit
    obtain ⟨moved, hmove, hedit⟩ := hedit
    cases hedit
    have hmoved := moveDate_ids (changeCrew_ids hnd _ edit) hmove
    exact ⟨hdress hmoved, dress_settled hmoved, htarget.symm⟩
  · next htarget =>
    cases h
    have hcrewed := changeCrew_ids (z := z) hnd (currentDay z w.liveRows) edit
    exact ⟨hdress hcrewed, dress_settled hcrewed, htarget.symm⟩

/-! ### The branches of the planner -/

/-- The date of the request, to the minute. -/
def VisitEdit.asked (edit : VisitEdit) : Option (Option ℤ) := edit.scheduledAt.map (·.map toMinute)

theorem planEdit_finish (z : ShopZone) (w : Work) (edit : VisitEdit) (hfinish : edit.finishDay.isSome = true) :
    planEdit z w edit = .ok (copyFields (finish z w edit.finishDay "job_completed") edit.fields, edit.asked) := by
  unfold planEdit
  simp only
  rw [if_pos hfinish]
  rfl

theorem planEdit_cancel (z : ShopZone) (w : Work) (edit : VisitEdit) (hfinish : ¬ edit.finishDay.isSome = true)
    (hreopen : edit.reopen = false) (hcancel : edit.cancel = true) :
    planEdit z w edit = cancel w "job_cancelled" >>= fun w => .ok (copyFields w edit.fields, edit.asked) := by
  unfold planEdit
  simp only
  rw [if_neg hfinish, if_neg (by rw [hreopen]; decide), if_pos hcancel]
  rfl

theorem planEdit_finished (z : ShopZone) (w : Work) (edit : VisitEdit) (hfinish : ¬ edit.finishDay.isSome = true)
    (hreopen : edit.reopen = false) (hcancel : ¬ edit.cancel = true) (hstage : edit.jobState ∈ FINISHED_STAGES) :
    planEdit z w edit = .ok (copyFields w edit.fields, edit.asked) := by
  unfold planEdit
  simp only
  rw [if_neg hfinish, if_neg (by rw [hreopen]; decide), if_neg hcancel, if_pos hstage]
  rfl

theorem planEdit_live (z : ShopZone) (w : Work) (edit : VisitEdit) (hfinish : ¬ edit.finishDay.isSome = true)
    (hreopen : edit.reopen = false) (hcancel : ¬ edit.cancel = true) (hstage : edit.jobState ∉ FINISHED_STAGES) :
    planEdit z w edit = editLive z w edit edit.asked := by
  unfold planEdit
  simp only
  rw [if_neg hfinish, if_neg (by rw [hreopen]; decide), if_neg hcancel, if_neg hstage]
  rfl

theorem finish_idle (h : ∀ r ∈ w.rows, isCurrent r = false) (day : Option ℤ) (reason : String) :
    finish z w day reason = w := by
  unfold finish
  refine foldl_idle fun v hv => ?_
  have hnot := h v (mem_liveRows.mp hv)
  unfold finishRow
  split
  · next hstate => rw [isCurrent, hstate] at hnot; cases hnot
  · next hstate => rw [isCurrent, hstate] at hnot; cases hnot
  · rfl

theorem cancel_idle (h : ∀ r ∈ w.rows, isCurrent r = false) (reason : String) : cancel w reason = .ok w := by
  have hold : statusOnlyArrivals w.liveRows = [] := by
    refine List.filter_eq_nil_iff.mpr fun v hv => ?_
    rw [h v (mem_liveRows.mp hv)]
    exact Bool.false_ne_true
  unfold cancel
  simp only
  rw [hold, if_neg (not_not.mpr rfl)]
  congr 1
  refine foldl_idle fun v hv => ?_
  have hnot := h v (mem_liveRows.mp hv)
  unfold cancelRow
  split
  · next hstate => rw [isCurrent, hstate] at hnot; cases hnot
  · next hstate => rw [isCurrent, hstate] at hnot; cases hnot
  · rfl

/-- The field copy makes no row Current. -/
theorem copyFields_none_current (hnd : (w.rows.map (·.id)).Nodup) (h : ∀ r ∈ w.rows, isCurrent r = false)
    (fields : VisitFields) : ∀ r ∈ (copyFields w fields).rows, isCurrent r = false := by
  intro r hr
  by_contra hc
  obtain ⟨v, hv, hcv, -⟩ := (copyFields_thins (z := utcZone) hnd fields).from_old r hr (by simpa using hc)
  rw [h v hv] at hcv
  cases hcv

/-- The second run of a live job's edit: the crew and the date are as asked, and the rows are settled. -/
theorem editLive_again {asked date : Option (Option ℤ)} {crew : List Text} (hsettled : AsAsked z edit w.rows)
    (hdate : asked.filter (· ≠ (date.getD edit.storedScheduledAt).map toMinute) = none)
    (hcrew : ∀ after, edit.crewAfter = some after → ∀ t, t ∈ crew ↔ t ∈ after) :
    editLive z w (edit.again crew date) asked = .ok (w, none) := by
  have hcrew' : changeCrew z w (currentDay z w.liveRows) (edit.again crew date) = (crew, w) := changeCrew_idle hcrew
  unfold editLive
  rw [show asked.filter (· ≠ (edit.again crew date).storedScheduledAt.map toMinute) = none from hdate]
  simp only [editCrew, hcrew']
  rw [show (edit.again crew date).firstDayMinutes = edit.firstDayMinutes from rfl,
    show (edit.again crew date).fields = edit.fields from rfl, hsettled.dress_idle]

/-- The second run finds every guard false, in every branch but the reopening. -/
theorem planEdit_again {w₂ : Work} {date : Option (Option ℤ)} (crew : List Text) (hnd : (w.rows.map (·.id)).Nodup)
    (hreopen : edit.reopen = false) (h : planEdit z w edit = .ok (w', date)) (hrows : w₂.rows.Perm w'.rows)
    (hcrew : ¬ edit.finishDay.isSome = true → ¬ edit.cancel = true → edit.jobState ∉ FINISHED_STAGES →
      ∀ after, edit.crewAfter = some after → ∀ t, t ∈ crew ↔ t ∈ after) :
    ∃ date', planEdit z w₂ (edit.again crew date) = .ok (w₂, date') := by
  by_cases hfinish : edit.finishDay.isSome = true
  · rw [planEdit_finish z _ edit hfinish] at h
    cases h
    have hnone : ∀ r ∈ w₂.rows, isCurrent r = false := fun r hr =>
      copyFields_none_current (finish_thins (z := z) hnd _ _).nodup (finish_none_current z hnd _ _) _ r
        (hrows.mem_iff.mp hr)
    rw [planEdit_finish z w₂ (edit.again crew _) hfinish, finish_idle hnone]
    exact ⟨_, congrArg (fun w => Except.ok (w, _)) (copyFields_idle (AsAsked.of_none_current (z := z) hnone).copied)⟩
  by_cases hcancel : edit.cancel = true
  · rw [planEdit_cancel z _ edit hfinish hreopen hcancel, except_bind_ok] at h
    obtain ⟨r, hr, h⟩ := h
    cases h
    have hnone : ∀ r ∈ w₂.rows, isCurrent r = false := fun r hr' =>
      copyFields_none_current (cancel_thins (z := z) hnd hr).nodup (cancel_none_current hnd hr) _ r (hrows.mem_iff.mp hr')
    rw [planEdit_cancel z w₂ (edit.again crew _) hfinish hreopen hcancel, cancel_idle hnone]
    exact ⟨_, congrArg (fun w => Except.ok (w, _)) (copyFields_idle (AsAsked.of_none_current (z := z) hnone).copied)⟩
  by_cases hstage : edit.jobState ∈ FINISHED_STAGES
  · rw [planEdit_finished z _ edit hfinish hreopen hcancel hstage] at h
    cases h
    rw [planEdit_finished z w₂ (edit.again crew _) hfinish hreopen hcancel hstage]
    exact ⟨_, congrArg (fun w => Except.ok (w, _))
      (copyFields_idle fun hfields r hr => copyFields_settles hnd hfields r (hrows.mem_iff.mp hr))⟩
  · rw [planEdit_live z _ edit hfinish hreopen hcancel hstage] at h
    obtain ⟨-, hsettled, rfl⟩ := editLive_settled hnd h
    rw [planEdit_live z w₂ (edit.again crew _) hfinish hreopen hcancel hstage]
    exact ⟨none, editLive_again (hsettled.perm hrows) (date_settled edit.scheduledAt edit.storedScheduledAt)
      (hcrew hfinish hcancel hstage)⟩

/-- Every branch but the reopening leaves rows with distinct keys. -/
theorem planEdit_ids {date : Option (Option ℤ)} (hnd : (w.rows.map (·.id)).Nodup) (hreopen : edit.reopen = false)
    (h : planEdit z w edit = .ok (w', date)) : (w'.rows.map (·.id)).Nodup := by
  by_cases hfinish : edit.finishDay.isSome = true
  · rw [planEdit_finish z _ edit hfinish] at h
    cases h
    exact (copyFields_thins (z := z) (finish_thins hnd _ _).nodup _).nodup
  by_cases hcancel : edit.cancel = true
  · rw [planEdit_cancel z _ edit hfinish hreopen hcancel, except_bind_ok] at h
    obtain ⟨r, hr, h⟩ := h
    cases h
    exact (copyFields_thins (z := z) (cancel_thins (z := z) hnd hr).nodup _).nodup
  by_cases hstage : edit.jobState ∈ FINISHED_STAGES
  · rw [planEdit_finished z _ edit hfinish hreopen hcancel hstage] at h
    cases h
    exact (copyFields_thins (z := z) hnd _).nodup
  · rw [planEdit_live z _ edit hfinish hreopen hcancel hstage] at h
    exact (editLive_settled hnd h).1

/-- Saving twice changes nothing: an edit that is not a reopening and was not refused, planned again on the visits it
    left, for the crew it left and with its date stored, is not refused and yields no action. -/
theorem saving_twice_changes_nothing (z : ShopZone) (visits : List VisitRow) (edit : VisitEdit)
    (hreopen : edit.reopen = false) (hok : (planVisitSync z visits edit).refusal = none) :
    let plan := planVisitSync z visits edit
    let again := planVisitSync z plan.visits (edit.again (edit.crewLeft z visits) plan.scheduledAt)
    again.refusal = none ∧ again.actions = [] := by
  have hnd : ((Work.ofVisits visits).rows.map (·.id)).Nodup := (mem_foldl_setRow visits [] List.nodup_nil).1
  cases hp : planEdit z (.ofVisits visits) edit with
  | error e =>
    rw [planVisitSync, hp] at hok
    cases hok
  | ok r =>
    obtain ⟨left, date⟩ := r
    have hplan : planVisitSync z visits edit =
        { actions := left.actions, scheduledAt := date, visits := left.liveRows } := by
      rw [planVisitSync, hp]
    have hrows : (Work.ofVisits left.liveRows).rows.Perm left.rows := by
      have heq : (Work.ofVisits left.liveRows).rows = left.liveRows :=
        foldl_setRow_nodup left.liveRows [] (nodup_liveRows (planEdit_ids hnd hreopen hp))
      rw [heq]
      exact List.perm_insertionSort visitLe left.rows
    obtain ⟨date', hagain⟩ := planEdit_again (edit.crewLeft z visits) hnd hreopen hp hrows
      fun hfinish hcancel hstage after hafter t => by
        rw [VisitEdit.crewLeft, if_neg (by tauto), changeCrew, hafter]
        exact mem_crewChange z _ _ _ _ _ _ t
    rw [hplan]
    simp only [planVisitSync, hagain]
    exact ⟨trivial, rfl⟩

/-- A tech joins, the date moves and the first day takes a length. -/
def joinMoveAndName : VisitEdit where
  storedScheduledAt := some (3 * DAY)
  scheduledAt := some (some (4 * DAY))
  crewBefore := ["ann".toList]
  crewAfter := some ["ann".toList, "bob".toList]
  firstDayMinutes := some 90

theorem saving_twice_join :
    let edit := joinMoveAndName
    let plan := planVisitSync utcZone twoDayVisits edit
    let again := planVisitSync utcZone plan.visits (edit.again (edit.crewLeft utcZone twoDayVisits) plan.scheduledAt)
    again.refusal = none ∧ again.actions = [] :=
  saving_twice_changes_nothing utcZone twoDayVisits joinMoveAndName rfl (by decide +kernel)

end Gdx
