import GdxDispatch.Lib.Runs
import GdxDispatch.Timeclock.Entries

/-! Hours nobody attested are not paid.

    The automatic close leaves no minutes, and every other writer stores the minutes between the stamps it leaves. Two
    calls break that: an update that only changes the notes of such a shift reckons minutes from the stamp the close
    made up, and a clock-out of a shift whose start was set into the future ends it before it began. In a run without
    either, the law holds in every state. -/

namespace Gdx.Timeclock

open Lib

variable {s : TimeClock} {stored new entry : TimeclockEntry} {call : ClockCall} {writer : Writer}
  {log : List (ℕ × Writer)} {id : ℕ}

/-! ### The law -/

/-- The last word on the entry is the automatic close: no update gave it a stamp since. -/
def unattested (id : ℕ) : List (ℕ × Writer) → Bool
  | [] => false
  | (i, .autoClose) :: log => i = id || unattested id log
  | (i, .edit true) :: log => i ≠ id && unattested id log
  | _ :: log => unattested id log

/-- An unattested shift is closed without minutes; any other closed entry has the whole minutes between its stamps,
    which are in order. -/
structure Attested (log : List (ℕ × Writer)) (entry : TimeclockEntry) : Prop where
  unpaid : unattested entry.id log = true → entry.clockOutAt.isSome = true ∧ entry.minutes = none
  paid : unattested entry.id log = false → ∀ out ∈ entry.clockOutAt,
    entry.minutes = some ((asAware out - asAware entry.clockInAt) / MINUTE) ∧ asAware entry.clockInAt ≤ asAware out

/-- An update of an unattested shift gives a stamp, and a clock-out ends a shift that has begun. -/
def EndsKnown (s : TimeClock) : ClockCall → Prop
  | .update _ _ entryId payload => unattested entryId s.log = true → payload.stamped = true
  | .clockOut caller now payload => ∀ tech, resolveTechId caller payload.technicianId = .ok tech →
      ∀ entry ∈ s.openShift tech, asAware entry.clockInAt ≤ now
  | _ => True

theorem unattested_other {i : ℕ} (hid : id ≠ i) : unattested id ((i, writer) :: log) = unattested id log := by
  have hne : i ≠ id := fun h => hid h.symm
  cases writer with
  | autoClose => simp [unattested, hne]
  | clockOut => rfl
  | edit stamped =>
    cases stamped with
    | true => simp [unattested, hne]
    | false => rfl

/-- Nobody wrote on an entry that is not there. -/
theorem unattested_fresh (h : ∀ w ∈ log, w.1 ≠ id) : unattested id log = false := by
  induction log with
  | nil => rfl
  | cons w log ih =>
    rw [unattested_other fun he => h w List.mem_cons_self he.symm]
    exact ih fun v hv => h v (List.mem_cons_of_mem _ hv)

theorem Attested.other {i : ℕ} (h : Attested log entry) (hid : entry.id ≠ i) : Attested ((i, writer) :: log) entry := by
  constructor
  · rw [unattested_other hid]
    exact h.unpaid
  · rw [unattested_other hid]
    exact h.paid

/-- An open entry is waiting for its end. -/
theorem Attested.unattested_eq_false (h : Attested log entry) (hopen : entry.clockOutAt = none) :
    unattested entry.id log = false := by
  cases hu : unattested entry.id log with
  | false => rfl
  | true =>
    have hclosed := (h.unpaid hu).1
    rw [hopen] at hclosed
    cases hclosed

theorem Attested.of_open (hlog : unattested entry.id log = false) (hopen : entry.clockOutAt = none) :
    Attested log entry where
  unpaid := fun h => absurd (hlog.symm.trans h) Bool.false_ne_true
  paid := fun _ out hout => by
    rw [hopen] at hout
    cases hout

/-- An entry that ends after it began, with its minutes. -/
theorem Attested.of_closed {out : Stamp} (hlog : unattested entry.id log = false) (hout : entry.clockOutAt = some out)
    (hminutes : entry.minutes = some (minutesBetween entry.clockInAt out))
    (horder : asAware entry.clockInAt ≤ asAware out) : Attested log entry where
  unpaid := fun h => absurd (hlog.symm.trans h) Bool.false_ne_true
  paid := fun _ out' hout' => by
    obtain rfl : out = out' := Option.some.inj (hout.symm.trans hout')
    have hpos : 0 ≤ (asAware out - asAware entry.clockInAt) / MINUTE :=
      Int.ediv_nonneg (sub_nonneg.mpr horder) (by decide)
    rw [hminutes, minutesBetween, max_eq_right hpos]
    exact ⟨rfl, horder⟩

/-- The table between two calls. -/
structure Kept (s : TimeClock) : Prop extends Keyed s where
  logged : ∀ w ∈ s.log, w.1 < s.nextId
  attested : ∀ entry ∈ s.entries, Attested s.log entry

/-- A row is added under a new id. -/
theorem Kept.insert (h : Kept s)
    (hnew : ∀ log, unattested s.nextId log = false → Attested log { new with id := s.nextId }) :
    Kept (s.commit (.insert new)) where
  toKeyed := h.toKeyed.commit _
  logged := fun w hw => (h.logged w hw).trans (Nat.lt_succ_self _)
  attested := fun entry hentry => by
    rcases List.mem_append.mp hentry with hentry | hentry
    · exact h.attested entry hentry
    · rw [List.mem_singleton.mp hentry]
      exact hnew _ (unattested_fresh fun w hw => (h.logged w hw).ne)

/-- A row is written and its writer noted. -/
theorem Kept.save (h : Kept s) (hrow : s.entry stored.id = some stored) (hsame : SameEntry stored new)
    (hnew : Attested ((stored.id, writer) :: s.log) new) : Kept (s.commit (saved writer stored new)) := by
  refine ⟨h.toKeyed.commit _, ?_, ?_⟩
  · rw [commit_saved hrow hsame]
    intro w hw
    rcases List.mem_cons.mp hw with rfl | hw
    · exact h.fresh stored (mem_of_rowOf hrow)
    · exact h.logged w hw
  · rw [commit_saved hrow hsame]
    intro entry hentry
    rcases mem_putRow.mp hentry with ⟨hentry, hne⟩ | ⟨rfl, -⟩
    · rw [hsame.id] at hne
      exact (h.attested entry hentry).other hne
    · exact hnew

/-! ### The calls -/

theorem Kept.newShift (h : Kept s) (tech : Text) (now : ℤ) (notes : Option Text) :
    Kept (s.commit (.insert (newShift tech now notes))) :=
  h.insert fun _ hlog => .of_open hlog rfl

theorem Kept.postClockIn {caller : Caller} {now checked closed : ℤ} {payload : ClockActionRequest}
    {commits : List TimeCommit} (h : Kept s) (hreads : postClockIn s caller now checked closed payload = .ok commits) :
    Kept (commits.foldl TimeClock.commit s) := by
  obtain ⟨tech, -, hreads⟩ := except_bind_ok.mp hreads
  split at hreads
  · cases hreads
    exact h.newShift tech now payload.notes
  · rename_i active hactive
    split at hreads
    · cases hreads
    · cases hreads
      have hmem := (openShift_spec hactive).1
      have hauto : unattested active.id ((active.id, .autoClose) :: s.log) = true := by simp [unattested]
      have hclosed : Kept (s.commit (saved .autoClose active (autoCloseStaleShift active closed))) := by
        refine h.save (h.toKeyed.row hmem) ⟨rfl, rfl, rfl, rfl, rfl⟩ ⟨fun _ => ⟨rfl, rfl⟩, fun hu => ?_⟩
        exact absurd (hauto.symm.trans hu) Bool.false_ne_true.symm
      exact hclosed.newShift tech now payload.notes

theorem Kept.postClockOut {caller : Caller} {now : ℤ} {payload : ClockActionRequest} {commits : List TimeCommit}
    (h : Kept s) (hends : EndsKnown s (.clockOut caller now payload))
    (hreads : postClockOut s caller now payload = .ok commits) : Kept (commits.foldl TimeClock.commit s) := by
  obtain ⟨tech, htech, hreads⟩ := except_bind_ok.mp hreads
  split at hreads
  · cases hreads
  · rename_i entry hopen
    cases hreads
    obtain ⟨hmem, -, hnone, -⟩ := openShift_spec hopen
    have hlog := (h.attested entry hmem).unattested_eq_false hnone
    refine h.save (h.toKeyed.row hmem) ⟨rfl, rfl, rfl, rfl, rfl⟩ (.of_closed hlog rfl rfl ?_)
    have hbegun := hends tech htech entry hopen
    simpa [asAware, utcStamp, minutes, clockedOut] using hbegun

theorem orderedStamps_ok {clockIn clockOut : Stamp} (h : orderedStamps clockIn clockOut = .ok ()) :
    asAware clockIn < asAware clockOut := by
  unfold orderedStamps at h
  split at h
  · cases h
  · split at h
    · cases h
    · omega

theorem asAware_utcStamp (t : ℤ) : asAware (utcStamp t) = t := by simp [asAware, utcStamp, minutes]

theorem Kept.createManualEntry {caller : Caller} {now : ℤ} {payload : TimeEntryCreateRequest}
    {commits : List TimeCommit} (h : Kept s) (hreads : createManualEntry caller now payload = .ok commits) :
    Kept (commits.foldl TimeClock.commit s) := by
  obtain ⟨⟨⟩, horder, hreads⟩ := except_bind_ok.mp hreads
  obtain ⟨tech, -, hreads⟩ := except_bind_ok.mp hreads
  obtain ⟨-, -, hreads⟩ := except_bind_ok.mp hreads
  obtain ⟨-, -, hreads⟩ := except_bind_ok.mp hreads
  cases hreads
  refine h.insert fun log hlog => .of_closed hlog rfl rfl ?_
  simpa [manualEntry, asAware_utcStamp] using (orderedStamps_ok horder).le

theorem editedMinutes_ok {clockIn : Stamp} {clockOut : Option Stamp} {m : Option ℤ}
    (h : editedMinutes clockIn clockOut = .ok m) : (clockOut = none ∧ m = none) ∨
      ∃ out, clockOut = some out ∧ m = some (minutesBetween clockIn out) ∧ asAware clockIn < asAware out := by
  unfold editedMinutes at h
  split at h
  · cases h
    exact .inl ⟨rfl, rfl⟩
  · split at h
    · cases h
    · cases h
      rename_i out horder
      exact .inr ⟨out, rfl, rfl, not_le.mp horder⟩

theorem Kept.updateTimeEntry {caller : Caller} {now : ℤ} {entryId : ℕ} {payload : TimeEntryUpdateRequest}
    {commits : List TimeCommit} (h : Kept s) (hends : EndsKnown s (.update caller now entryId payload))
    (hreads : updateTimeEntry s caller now entryId payload = .ok commits) : Kept (commits.foldl TimeClock.commit s) := by
  unfold Timeclock.updateTimeEntry at hreads
  split at hreads
  · cases hreads
  · rename_i entry hentry
    obtain ⟨hrow, -⟩ := Option.filter_eq_some_iff.mp hentry
    obtain rfl := key_of_rowOf hrow
    obtain ⟨-, -, hreads⟩ := except_bind_ok.mp hreads
    obtain ⟨-, -, hreads⟩ := except_bind_ok.mp hreads
    obtain ⟨clockIn, -, hreads⟩ := except_bind_ok.mp hreads
    obtain ⟨m, hm, hreads⟩ := except_bind_ok.mp hreads
    obtain ⟨-, -, hreads⟩ := except_bind_ok.mp hreads
    cases hreads
    -- no update leaves an unattested shift behind
    have hlog : unattested entry.id ((entry.id, .edit payload.stamped) :: s.log) = false := by
      cases hstamped : payload.stamped with
      | true => simp [unattested]
      | false =>
        change unattested entry.id s.log = false
        cases hu : unattested entry.id s.log with
        | false => rfl
        | true => exact absurd ((hends hu).symm.trans hstamped) Bool.false_ne_true.symm
    refine h.save hrow ⟨rfl, rfl, rfl, rfl, rfl⟩ ?_
    rcases editedMinutes_ok hm with ⟨hout, -⟩ | ⟨out, hout, hm, horder⟩
    · exact .of_open hlog hout
    · exact .of_closed hlog hout hm horder.le

theorem Kept.step (h : Kept s) (hends : EndsKnown s call) : Kept (s.call call) := by
  unfold TimeClock.call
  split
  · rename_i commits hreads
    cases call with
    | clockIn caller now checked closed payload => exact h.postClockIn hreads
    | clockOut caller now payload => exact h.postClockOut hends hreads
    | create caller now payload => exact h.createManualEntry hreads
    | update caller now entryId payload => exact h.updateTimeEntry hends hreads
  · exact h

theorem kept_empty : Kept .empty := by
  refine ⟨keyed_empty, ?_, ?_⟩ <;> simp [TimeClock.empty]

/-- In every state of the run every entry is attested or unpaid. -/
def NeverPaidUnattested (calls : List ClockCall) : Prop :=
  ∀ before after, calls = before ++ after →
    ∀ entry ∈ (TimeClock.run before).entries, Attested (TimeClock.run before).log entry

/-- In a run whose updates of unattested shifts give a stamp and whose clock-outs end shifts that have begun, no
    unattested hour is paid. -/
theorem unattested_hours_never_paid (calls : List ClockCall) (h : Along TimeClock.call EndsKnown .empty calls) :
    NeverPaidUnattested calls := by
  rintro before after rfl
  have hkept : Kept (TimeClock.run before) :=
    (along_append.mp h).1.keeps (fun s call hs hfit => hs.step hfit) kept_empty
  exact hkept.attested

/-! ### A shift left open for two days -/

def ann : Caller := ⟨"ann".toList, false⟩

def office : Caller := ⟨"office".toList, true⟩

/-- Ann clocks in, forgets to clock out, and clocks in again two days later. -/
def forgottenShift : List ClockCall :=
  [.clockIn ann 0 0 0 ⟨none, none⟩, .clockIn ann (2 * DAY) (2 * DAY) (2 * DAY) ⟨none, none⟩]

/-- The office gives the first shift its end. -/
def correctedShift : List ClockCall :=
  forgottenShift ++ [.update office (2 * DAY) 0 ⟨none, some (some (utcStamp (480 * MINUTE))), none⟩]

theorem unattested_hours_never_paid_corrected :
    NeverPaidUnattested (correctedShift ++ [.clockOut ann (2 * DAY + 480 * MINUTE) ⟨none, none⟩]) := by
  refine unattested_hours_never_paid _ ⟨trivial, trivial, fun _ => rfl, fun tech htech entry hentry => ?_, trivial⟩
  have hann : resolveTechId ann none = .ok "ann".toList := by decide +kernel
  obtain rfl : "ann".toList = tech := Except.ok.inj (hann.symm.trans htech)
  have hopen : (TimeClock.run correctedShift).openShift "ann".toList = some entry := hentry
  have hbegun : ((TimeClock.run correctedShift).openShift "ann".toList).all
      (asAware ·.clockInAt ≤ 2 * DAY + 480 * MINUTE) = true := by decide +kernel
  rw [hopen] at hbegun
  simpa using hbegun

/-- The office writes a note on the first shift and gives it no stamp. -/
def annotatedShift : List ClockCall :=
  forgottenShift ++ [.update office (2 * DAY) 0 ⟨none, none, some (some "called".toList)⟩]

/-- The note makes two days of a shift nobody ended. -/
theorem unattested_hours_paid : ¬ ∀ calls : List ClockCall, NeverPaidUnattested calls := by
  intro h
  have hlaw := h annotatedShift annotatedShift [] (by simp)
  have hpaid : ((TimeClock.run annotatedShift).entries.all fun e =>
      unattested e.id (TimeClock.run annotatedShift).log = true → e.minutes = none) = false := by decide +kernel
  rw [Bool.eq_false_iff] at hpaid
  refine hpaid (List.all_eq_true.mpr fun e he => ?_)
  exact decide_eq_true fun hu => ((hlaw e he).unpaid hu).2

end Gdx.Timeclock
