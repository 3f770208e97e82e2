import GdxDispatch.Timeclock.Timesheet

/-! Every entry is paid in one period.

    Periods tile the shop's calendar, and the timesheet of a period reads every entry of its days: the date a stamp is
    written with is at most one day away from the shop's day. A timesheet reads no more than its cap. -/

namespace Gdx.Timeclock

open Lib PayPeriods

/-! ### What a timesheet files -/

theorem addShift_shifts {fresh : Timecard} (hfresh : fresh.shifts = []) (shift : Shift) (cards : List Timecard) :
    (addShift fresh shift cards).flatMap (·.shifts) |>.Perm (cards.flatMap (·.shifts) ++ [shift]) := by
  induction cards with
  | nil => simp [addShift, hfresh]
  | cons card cards ih =>
    rw [addShift]
    split
    · simp only [List.flatMap_cons, List.append_assoc]
      exact List.perm_append_comm.append_left _
    · simp only [List.flatMap_cons, List.append_assoc]
      exact ih.append_left _

theorem foldl_addShift (r : TimesheetRequest) (minutes : ℕ → ℕ) (kept : List TimeclockEntry) (cards : List Timecard) :
    (kept.foldl (fun cards e => addShift (r.newCard e.technicianId) (r.shift minutes e) cards) cards).flatMap
      (·.shifts) |>.Perm (cards.flatMap (·.shifts) ++ kept.map (r.shift minutes)) := by
  induction kept generalizing cards with
  | nil => simp
  | cons e kept ih =>
    rw [List.foldl_cons, List.map_cons]
    refine (ih _).trans ?_
    refine ((addShift_shifts rfl (r.shift minutes e) cards).append_right _).trans ?_
    rw [List.append_assoc, List.singleton_append]

/-- A timesheet holds one shift for each row it keeps. -/
theorem timesFiled_eq (r : TimesheetRequest) (entries : List TimeclockEntry) (breaks : List TimeclockBreak) (id : ℕ) :
    (buildTimesheet r entries breaks).timesFiled id = (((r.rows entries).filter r.kept).map (·.id)).count id := by
  have hperm := foldl_addShift r (breakMinutesByEntry (r.rows entries) breaks (some r.hiText) r.clock)
    ((r.rows entries).filter r.kept) []
  rw [List.flatMap_nil, List.nil_append] at hperm
  unfold PeriodTimesheet.timesFiled PeriodTimesheet.shifts buildTimesheet
  simp only
  rw [((((List.mergeSort_perm _ _).flatMap_right _).trans hperm).filter _).length_eq, List.filter_map, List.length_map,
    List.count_eq_countP, List.countP_map, List.countP_eq_length_filter]
  congr 1

theorem shifts_length (r : TimesheetRequest) (entries : List TimeclockEntry) (breaks : List TimeclockBreak) :
    (buildTimesheet r entries breaks).shifts.length ≤ ROW_CAP := by
  have hperm := foldl_addShift r (breakMinutesByEntry (r.rows entries) breaks (some r.hiText) r.clock)
    ((r.rows entries).filter r.kept) []
  rw [List.flatMap_nil, List.nil_append] at hperm
  unfold PeriodTimesheet.shifts buildTimesheet
  simp only
  rw [(((List.mergeSort_perm _ _).flatMap_right _).trans hperm).length_eq, List.length_map]
  refine (List.length_filter_le _ _).trans ?_
  unfold TimesheetRequest.rows
  rw [List.length_take]
  exact min_le_left _ _

/-! ### The rows a timesheet reads -/

/-- The offset a stamp is written with. -/
def StampZone.written : StampZone → ℤ
  | .offset m => m
  | .naive => 0
  | .zulu => 0

theorem wall_eq (stamp : Stamp) : stamp.wall = asAware stamp + minutes stamp.zone.written := by
  unfold asAware StampZone.written
  cases stamp.zone <;> simp [minutes]

/-- A stamp written within a day of the shop's own clock, as every stamp in UTC is where the offset is under a day. -/
def WrittenNear (z : ShopZone) (stamp : Stamp) : Prop :=
  |stamp.zone.written - z.offset (asAware stamp)| < 24 * 60

/-- The date of the text is at most a day from the shop's day. -/
theorem WrittenNear.day_near {z : ShopZone} {stamp : Stamp} (h : WrittenNear z stamp) :
    z.day (asAware stamp) - 1 ≤ stamp.wall / DAY ∧ stamp.wall / DAY ≤ z.day (asAware stamp) + 1 := by
  obtain ⟨hlow, hhigh⟩ := abs_lt.mp h
  have hwall := wall_eq stamp
  unfold ShopZone.day minutes MINUTE DAY at *
  constructor <;> omega

theorem text_eq (stamp : Stamp) : ∃ rest, stamp.text = (isoformat (stamp.wall / DAY)).toList ++ rest := by
  unfold Stamp.text
  simp only [String.toList_append, List.append_assoc]
  exact ⟨_, rfl⟩

/-- The text filter is a filter on the date the stamp is written with. -/
theorem text_lt_iff {stamp : Stamp} {day : ℤ} (hstamp : IsDate (stamp.wall / DAY)) (hday : IsDate day) :
    stamp.text < (isoformat day).toList ↔ stamp.wall / DAY < day := by
  obtain ⟨rest, hrest⟩ := text_eq stamp
  rw [hrest, isoformat_append_lt_iff hstamp hday]

namespace TimesheetRequest
variable {r : TimesheetRequest}

theorem wanted_of_contains {e : TimeclockEntry} (hlive : e.deletedAt = none) (hasks : r.asksFor e = true)
    (hnear : WrittenNear r.zone e.clockInAt) (hdate : IsDate (e.clockInAt.wall / DAY))
    (hlo : IsDate (r.period.start - 1)) (hhi : IsDate (r.period.endDay + 2)) (hin : r.period.contains (r.shopDay e)) :
    r.wanted e = true := by
  obtain ⟨hlow, hhigh⟩ := hnear.day_near
  obtain ⟨h0, h1⟩ := contains_iff.mp hin
  unfold shopDay at h0 h1
  have hlotext : ¬ e.clockInAt.text < r.loText := by
    unfold loText
    rw [text_lt_iff hdate hlo]
    omega
  have hhitext : e.clockInAt.text < r.hiText := by
    unfold hiText
    rw [text_lt_iff hdate hhi]
    omega
  unfold wanted
  rw [hasks]
  simp [hlive, hlotext, hhitext]

/-- Within the cap a timesheet reads all the rows it asks for. -/
theorem rows_perm {entries : List TimeclockEntry} (hcap : (entries.filter r.wanted).length ≤ ROW_CAP) :
    (r.rows entries).Perm (entries.filter r.wanted) := by
  unfold rows
  rw [List.take_of_length_le (by rw [List.length_mergeSort]; exact hcap)]
  exact List.mergeSort_perm _ _

theorem mem_of_mem_rows {entries : List TimeclockEntry} {e : TimeclockEntry} (h : e ∈ r.rows entries) : e ∈ entries := by
  have hsorted := List.mem_of_mem_take h
  rw [List.mem_mergeSort] at hsorted
  exact List.mem_of_mem_filter hsorted

end TimesheetRequest

/-! ### One period for each entry -/

section Filing
variable {r : TimesheetRequest} {entries : List TimeclockEntry} {e : TimeclockEntry}

theorem eq_of_id {a b : TimeclockEntry} (hids : (entries.map (·.id)).Nodup) (ha : a ∈ entries) (hb : b ∈ entries)
    (h : a.id = b.id) : a = b :=
  List.inj_on_of_nodup_map hids ha hb h

/-- An entry outside the period stands on no timesheet of it. -/
theorem timesFiled_zero (breaks : List TimeclockBreak) (hids : (entries.map (·.id)).Nodup) (hmem : e ∈ entries)
    (hout : r.kept e = false) : (buildTimesheet r entries breaks).timesFiled e.id = 0 := by
  rw [timesFiled_eq, List.count_eq_zero, List.mem_map]
  rintro ⟨row, hrow, hid⟩
  obtain ⟨hrow, hkept⟩ := List.mem_filter.mp hrow
  have heq := eq_of_id hids (TimesheetRequest.mem_of_mem_rows hrow) hmem hid
  rw [heq, hout] at hkept
  cases hkept

/-- An entry of the period stands on its timesheet once, when the timesheet reads no more than its cap. -/
theorem timesFiled_one (breaks : List TimeclockBreak) (hids : (entries.map (·.id)).Nodup) (hmem : e ∈ entries)
    (hcap : (entries.filter r.wanted).length ≤ ROW_CAP) (hwanted : r.wanted e = true) (hkept : r.kept e = true) :
    (buildTimesheet r entries breaks).timesFiled e.id = 1 := by
  have hperm := TimesheetRequest.rows_perm hcap
  rw [timesFiled_eq, ((hperm.filter _).map _).count_eq]
  refine List.count_eq_one_of_mem ?_ ?_
  · exact hids.sublist (((List.filter_sublist).trans List.filter_sublist).map _)
  · exact List.mem_map_of_mem (List.mem_filter.mpr ⟨List.mem_filter.mpr ⟨hmem, hwanted⟩, hkept⟩)

end Filing

/-- The entry stands once on the timesheet of one period, and on no other period's. -/
def FiledOnce (cadence : Cadence) (anchor : Option ℤ) (r : TimesheetRequest) (entries : List TimeclockEntry)
    (breaks : List TimeclockBreak) (e : TimeclockEntry) : Prop :=
  ∃ period, IsPeriod cadence anchor period ∧ ∀ p, IsPeriod cadence anchor p →
    (buildTimesheet { r with period := p } entries breaks).timesFiled e.id = if p = period then 1 else 0

/-- The periods of a cadence cover every day once, follow each other, and close on one day each. -/
def PeriodsTile (cadence : Cadence) (anchor : Option ℤ) : Prop :=
  (∀ day, ∃ period, periodContaining cadence anchor day = .ok period ∧ period.contains day = true ∧
    ∀ x, period.contains x = true → periodContaining cadence anchor x = .ok period) ∧
  ∀ period, IsPeriod cadence anchor period →
    (∃ next, nextPeriod cadence anchor period = .ok next ∧ next.start = period.endDay + 1 ∧
      previousPeriod cadence anchor next = .ok period) ∧
    (∃ previous, previousPeriod cadence anchor period = .ok previous ∧ previous.endDay = period.start - 1 ∧
      nextPeriod cadence anchor previous = .ok period) ∧
    ∀ day, isCloseDay cadence anchor day = .ok (some period) ↔ day = period.endDay + 1

/-- An entry a timesheet is there for: live, of a technician the request asks for, stamped within a day of the shop's
    clock, on a day whose period `datetime.date` can read around. -/
structure Fileable (cadence : Cadence) (anchor : Option ℤ) (r : TimesheetRequest) (e : TimeclockEntry) : Prop where
  live : e.deletedAt = none
  technician : e.technicianId ≠ []
  asked : r.asksFor e = true
  near : WrittenNear r.zone e.clockInAt
  stamped : IsDate (e.clockInAt.wall / DAY)
  around : ∀ period, periodContaining cadence anchor (r.shopDay e) = .ok period →
    IsDate (period.start - 1) ∧ IsDate (period.endDay + 2)

theorem periodsTile {cadence : Cadence} {anchor : Option ℤ} (hconfig : Configured cadence anchor) :
    PeriodsTile cadence anchor := by
  refine ⟨fun day => ⟨_, periodContaining_eq hconfig day, ?_, fun x hx => ?_⟩, fun period h => ?_⟩
  · exact containing_contains hconfig (periodContaining_eq hconfig day)
  · exact containing_same hconfig ⟨day, periodContaining_eq hconfig day⟩ hx
  · exact ⟨next_spec hconfig h, previous_spec hconfig h, closeDay_iff hconfig h⟩

/-- Periods tile the calendar, and every entry is filed in one of them, where the timesheet of its period reads no more
    rows than its cap. -/
theorem filed_in_one_period {cadence : Cadence} {anchor : Option ℤ} (hconfig : Configured cadence anchor) :
    PeriodsTile cadence anchor ∧
      ∀ (r : TimesheetRequest) (entries : List TimeclockEntry) (breaks : List TimeclockBreak),
        (entries.map (·.id)).Nodup → ∀ e ∈ entries, Fileable cadence anchor r e →
          (∀ period, periodContaining cadence anchor (r.shopDay e) = .ok period →
            (entries.filter { r with period := period }.wanted).length ≤ ROW_CAP) →
          FiledOnce cadence anchor r entries breaks e := by
  refine ⟨periodsTile hconfig, fun r entries breaks hids e hmem hfile hcap => ?_⟩
  have hperiod := periodContaining_eq hconfig (r.shopDay e)
  generalize PayPeriod.mk _ _ = period at hperiod
  refine ⟨period, ⟨_, hperiod⟩, fun p hp => ?_⟩
  have hin := containing_contains hconfig hperiod
  split
  · rename_i heq
    subst heq
    obtain ⟨hlo, hhi⟩ := hfile.around p hperiod
    refine timesFiled_one breaks hids hmem (hcap p hperiod) ?_ ?_
    · exact TimesheetRequest.wanted_of_contains (r := { r with period := p }) hfile.live hfile.asked hfile.near
        hfile.stamped hlo hhi hin
    · simp only [TimesheetRequest.kept, ne_eq, decide_not, Bool.and_eq_true, Bool.not_eq_eq_eq_not, Bool.not_true,
        decide_eq_false_iff_not]
      exact ⟨hin, hfile.technician⟩
  · rename_i hne
    refine timesFiled_zero breaks hids hmem ?_
    by_contra hkept
    simp only [TimesheetRequest.kept, Bool.not_eq_false, Bool.and_eq_true] at hkept
    have hsame : periodContaining cadence anchor (r.shopDay e) = .ok _ := containing_same hconfig hp hkept.1
    rw [hperiod, Except.ok.injEq] at hsame
    exact hne hsame.symm

/-- A shop in UTC that asks for everyone. -/
def everyone : TimesheetRequest where
  period := ⟨0, 0⟩
  tzName := "UTC".toList
  zone := utcZone
  names := fun _ => none
  techId := none
  now := none
  clock := 19760 * DAY
  timeOffCountsTowardOvertime := false
  lower := id

/-- A shift of Wednesday 3 January 2024. -/
def wednesday (id : ℕ) : TimeclockEntry where
  id := id
  technicianId := "t1".toList
  clockInAt := utcStamp (19725 * DAY)
  clockOutAt := some (utcStamp (19725 * DAY + 480 * MINUTE))
  minutes := some 480
  notes := none
  entryType := .clock
  createdAt := utcStamp (19725 * DAY)
  updatedAt := utcStamp (19725 * DAY)
  deletedAt := none

theorem fileable_wednesday (cadence : Cadence) (anchor : Option ℤ) (id : ℕ)
    (haround : ∀ period, periodContaining cadence anchor 19725 = .ok period →
      IsDate (period.start - 1) ∧ IsDate (period.endDay + 2)) : Fileable cadence anchor everyone (wednesday id) where
  live := rfl
  technician := by
    change "t1".toList ≠ []
    decide
  asked := rfl
  near := by
    change |(0 : ℤ) - 0| < 24 * 60
    decide
  stamped := by
    change IsDate (19725 * DAY / DAY)
    decide +kernel
  around := by
    intro period hperiod
    exact haround period hperiod

/-- The same shop, seven hours behind UTC. -/
def mountain : TimesheetRequest := { everyone with zone := ⟨fun _ => -420, fun _ => -420, fun _ => rfl⟩ }

/-- 19:30 on Sunday 7 January 2024 there, the last evening of a fortnight; the stamp says Monday, in UTC. -/
def lateSunday : TimeclockEntry :=
  { wednesday 0 with
    clockInAt := utcStamp (19730 * DAY + 150 * MINUTE)
    clockOutAt := some (utcStamp (19730 * DAY + 210 * MINUTE))
    minutes := some 60 }

theorem filed_in_one_fortnight : mountain.shopDay lateSunday = 19729 ∧ lateSunday.clockInAt.wall / DAY = 19730 ∧
    PeriodsTile .biweekly (some 4) ∧
      FiledOnce .biweekly (some 4) mountain [wednesday 1, lateSunday] [] lateSunday := by
  have hconfig : Configured .biweekly (some 4) := fun _ => rfl
  have htile := filed_in_one_period hconfig
  have hday : mountain.shopDay lateSunday = 19729 := by decide +kernel
  have hwall : lateSunday.clockInAt.wall / DAY = 19730 := by decide +kernel
  refine ⟨hday, hwall, htile.1, htile.2 mountain [wednesday 1, lateSunday] [] (by decide) lateSunday (by simp) ?_ ?_⟩
  · refine { live := rfl, technician := ?_, asked := rfl, near := ?_, stamped := ?_, around := fun period hperiod => ?_ }
    · show "t1".toList ≠ []
      decide
    · show |(0 : ℤ) - -420| < 24 * 60
      decide
    · rw [hwall]
      decide +kernel
    · have heq : periodContaining .biweekly (some 4) 19729 = .ok ⟨19716, 19729⟩ := by decide +kernel
      rw [hday, heq, Except.ok.injEq] at hperiod
      subst hperiod
      decide +kernel
  · intro period hperiod
    exact (List.length_filter_le _ _).trans (by decide)

/-- One row more than the cap in one week leaves an entry on no timesheet. -/
theorem one_row_too_many :
    ¬ ∀ (cadence : Cadence) (anchor : Option ℤ), Configured cadence anchor →
        ∀ (r : TimesheetRequest) (entries : List TimeclockEntry) (breaks : List TimeclockBreak),
          (entries.map (·.id)).Nodup → ∀ e ∈ entries, Fileable cadence anchor r e →
            FiledOnce cadence anchor r entries breaks e := by
  intro hall
  obtain ⟨crowd, hcrowd⟩ : ∃ crowd, crowd = (List.range (ROW_CAP + 1)).map wednesday := ⟨_, rfl⟩
  have hids : crowd.map (·.id) = List.range (ROW_CAP + 1) := by
    rw [hcrowd, List.map_map]
    exact List.map_id _
  have hconfig : Configured .weeklyMon none := by
    intro h
    cases h
  obtain ⟨week, hweek⟩ : ∃ week, periodContaining .weeklyMon none 19725 = .ok week := ⟨_, rfl⟩
  have hfiled : ∀ id < ROW_CAP + 1,
      (buildTimesheet { everyone with period := week } crowd []).timesFiled id = 1 := by
    intro id hid
    have hmem : wednesday id ∈ crowd := by
      rw [hcrowd]
      exact List.mem_map_of_mem (List.mem_range.mpr hid)
    have hfile : Fileable .weeklyMon none everyone (wednesday id) := by
      refine fileable_wednesday _ _ _ fun period hperiod => ?_
      have heq : periodContaining .weeklyMon none 19725 = .ok ⟨19723, 19729⟩ := by decide +kernel
      rw [heq, Except.ok.injEq] at hperiod
      subst hperiod
      decide +kernel
    obtain ⟨period, hperiod, honce⟩ := hall .weeklyMon none hconfig everyone crowd []
      (by rw [hids]; exact List.nodup_range) _ hmem hfile
    have hone := honce period hperiod
    rw [if_pos rfl] at hone
    have hkept : TimesheetRequest.kept { everyone with period := period } (wednesday id) = true := by
      by_contra hnot
      rw [timesFiled_zero [] (by rw [hids]; exact List.nodup_range) hmem (Bool.not_eq_true _ ▸ hnot)] at hone
      cases hone
    simp only [TimesheetRequest.kept, Bool.and_eq_true] at hkept
    have hsame : periodContaining _ _ 19725 = .ok period := containing_same hconfig hperiod hkept.1
    rw [hweek, Except.ok.injEq] at hsame
    rw [hsame]
    exact hone
  have hsub : List.range (ROW_CAP + 1) ⊆
      (buildTimesheet { everyone with period := week } crowd []).shifts.map (·.entryId) := by
    intro id hid
    have hone := hfiled id (List.mem_range.mp hid)
    unfold PeriodTimesheet.timesFiled at hone
    obtain ⟨shift, hshift⟩ := List.exists_mem_of_length_pos (hone ▸ Nat.one_pos)
    obtain ⟨hmem, heq⟩ := List.mem_filter.mp hshift
    exact List.mem_map.mpr ⟨shift, hmem, by simpa using heq⟩
  have hlength := (List.nodup_range.subperm hsub).length_le
  rw [List.length_range, List.length_map] at hlength
  exact absurd (hlength.trans (shifts_length _ _ _)) (by decide)

end Gdx.Timeclock
