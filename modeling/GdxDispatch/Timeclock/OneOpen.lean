import GdxDispatch.Lib.Runs
import GdxDispatch.Timeclock.Entries

/-! One open shift for each technician.

    A clock-in looks for an open shift and inserts a new one in a later commit, and an update with a null end opens an
    entry again without looking at the others. Two clock-ins that both looked before either committed leave two open
    shifts. A run keeps one exactly when every commit that opens an entry finds no other one open. -/

namespace Gdx.Timeclock

open Lib

variable {s : TimeClock} {row entry new : TimeclockEntry} {tech : Text} {id : ℕ}

/-! ### Calls in flight -/

/-- The table and what the calls in flight have still to commit. -/
structure ClockDesk where
  clock : TimeClock
  inFlight : List (List TimeCommit)
  deriving DecidableEq

/-- A call reads, or a call in flight makes its next commit. -/
inductive ClockEvent where
  | reads (call : ClockCall)
  | commits (i : ℕ)
  deriving DecidableEq

def ClockDesk.step (d : ClockDesk) : ClockEvent → ClockDesk
  | .reads call =>
    match d.clock.reads call with
    | .ok commits => { d with inFlight := d.inFlight ++ [commits] }
    | .error _ => d
  | .commits i =>
    match d.inFlight[i]? with
    | some (commit :: rest) => { clock := d.clock.commit commit, inFlight := d.inFlight.set i rest }
    | _ => d

def ClockDesk.empty : ClockDesk := ⟨.empty, []⟩

def ClockDesk.run (events : List ClockEvent) : ClockDesk := events.foldl ClockDesk.step .empty

/-! ### The law -/

def OneOpen (s : TimeClock) : Prop := ∀ tech, (s.openShifts tech).length ≤ 1

/-- A clock-out closes the shift the status reports, and the technician has no other. -/
def ClosesReported (s : TimeClock) : Prop :=
  ∀ caller now payload commits, postClockOut s caller now payload = .ok commits →
    ∃ entry, getTimeclockStatus s caller payload.technicianId = .ok (some entry) ∧
      s.openShifts entry.technicianId = [entry] ∧
      ∃ closed, (commits.foldl TimeClock.commit s).entry entry.id = some closed ∧
        closed.clockOutAt = some (utcStamp now)

/-- A commit that opens an entry finds no other open one of its technician. -/
def OpensAlone (s : TimeClock) : TimeCommit → Prop
  | .insert new => new.isOpen = true → s.openShifts new.technicianId = []
  | .write id _ columns => columns.clockOutAt = some none → ∀ row ∈ s.entry id, row.deletedAt = none →
      ∀ other ∈ s.openShifts row.technicianId, other.id = id

/-- The same for an event. -/
def KeepsOneOpen (d : ClockDesk) : ClockEvent → Prop
  | .reads _ => True
  | .commits i => ∀ commit rest, d.inFlight[i]? = some (commit :: rest) → OpensAlone d.clock commit

theorem mem_openShifts : entry ∈ s.openShifts tech ↔
    entry ∈ s.entries ∧ entry.technicianId = tech ∧ entry.isOpen = true := by
  simp [TimeClock.openShifts]

/-- At most one is open when any two open entries of a technician are one. -/
theorem oneOpen_iff (hkeys : Keyed s) : OneOpen s ↔ ∀ a ∈ s.entries, ∀ b ∈ s.entries, a.isOpen = true →
    b.isOpen = true → a.technicianId = b.technicianId → a = b := by
  have hnodup : ∀ tech, (s.openShifts tech).Nodup := fun tech => (List.Nodup.of_map _ hkeys.keys).filter _
  have hcount : ∀ tech, (s.openShifts tech).length ≤ 1 ↔
      ∀ a ∈ s.openShifts tech, ∀ b ∈ s.openShifts tech, a = b := fun tech => by
    rw [← List.toFinset_card_of_nodup (hnodup tech), Finset.card_le_one]
    simp only [List.mem_toFinset]
  simp only [OneOpen, hcount, mem_openShifts]
  constructor
  · intro h a ha b hb hopen hopen' htech
    exact h b.technicianId a ⟨ha, htech, hopen⟩ b ⟨hb, rfl, hopen'⟩
  · rintro h tech a ⟨ha, htech, hopen⟩ b ⟨hb, htech', hopen'⟩
    exact h a ha b hb hopen hopen' (htech.trans htech'.symm)

theorem openShifts_insert : (s.commit (.insert new)).openShifts tech =
    s.openShifts tech ++ if new.technicianId = tech ∧ new.isOpen = true then [{ new with id := s.nextId }] else [] := by
  rw [TimeClock.commit, TimeClock.openShifts, List.filter_append, TimeClock.openShifts, List.filter_singleton]
  congr 1
  simp [TimeclockEntry.isOpen]

/-- An insert keeps one open shift exactly when it opens none beside another. -/
theorem oneOpen_insert (hone : OneOpen s) : OneOpen (s.commit (.insert new)) ↔ OpensAlone s (.insert new) := by
  constructor
  · intro hafter hopen
    have hcount := hafter new.technicianId
    rw [openShifts_insert, if_pos ⟨rfl, hopen⟩, List.length_append, List.length_singleton] at hcount
    exact List.length_eq_zero_iff.mp (by omega)
  · intro halone tech
    rw [openShifts_insert]
    split
    · rename_i h
      obtain ⟨rfl, hopen⟩ := h
      rw [halone hopen]
      exact le_rfl
    · rw [List.append_nil]
      exact hone tech

section

variable {writer : Writer} {columns : Columns}

theorem commit_write (hrow : s.entry id = some row) : s.commit (.write id writer columns) =
    { s with entries := putRow TimeclockEntry.id s.entries (columns.applyTo row), log := (id, writer) :: s.log } := by
  simp [TimeClock.commit, hrow]

/-- After a write that opens nothing beside another, the written row is the only open one. -/
theorem other_closed (hkeys : Keyed s) (hone : OneOpen s) (halone : OpensAlone s (.write id writer columns))
    (hrow : s.entry id = some row) (hopen : (columns.applyTo row).isOpen = true) (hmem : entry ∈ s.entries)
    (hentry : entry.isOpen = true) (htech : entry.technicianId = row.technicianId) : entry.id = id := by
  simp only [TimeclockEntry.isOpen, Columns.applyTo, Bool.and_eq_true, Option.isNone_iff_eq_none] at hopen
  obtain ⟨hlive, hout⟩ := hopen
  cases hcolumn : columns.clockOutAt with
  | none =>
    -- the row was open before
    rw [hcolumn, Option.getD_none] at hout
    have hwas : row.isOpen = true := by simp [TimeclockEntry.isOpen, hlive, hout]
    rw [(oneOpen_iff hkeys).mp hone entry hmem row (mem_of_rowOf hrow) hentry hwas htech]
    exact key_of_rowOf hrow
  | some out =>
    rw [hcolumn, Option.getD_some] at hout
    subst hout
    exact halone hcolumn row hrow hlive entry (mem_openShifts.mpr ⟨hmem, htech, hentry⟩)

/-- A write keeps one open shift exactly when it opens none beside another. -/
theorem oneOpen_write (hkeys : Keyed s) (hone : OneOpen s) : OneOpen (s.commit (.write id writer columns)) ↔
    OpensAlone s (.write id writer columns) := by
  cases hrow : s.entry id with
  | none =>
    have hsame : s.commit (.write id writer columns) = s := by simp [TimeClock.commit, hrow]
    rw [hsame, OpensAlone, hrow]
    exact ⟨fun _ _ row hnone => (by cases hnone), fun _ => hone⟩
  | some row =>
    have hid : (columns.applyTo row).id = id := key_of_rowOf (r := row) hrow
    have hwritten : columns.applyTo row ∈ putRow TimeclockEntry.id s.entries (columns.applyTo row) :=
      mem_putRow.mpr (.inr ⟨rfl, row, mem_of_rowOf hrow, rfl⟩)
    have hafter := oneOpen_iff (hkeys.commit (.write id writer columns))
    rw [commit_write hrow] at hafter ⊢
    rw [hafter]
    constructor
    · intro h hnull row' hrow' hlive other hother
      obtain rfl : row = row' := Option.some.inj (hrow.symm.trans hrow')
      obtain ⟨hmem, htech, hopen⟩ := mem_openShifts.mp hother
      by_contra hne
      have hreopened : (columns.applyTo row).isOpen = true := by
        simp [TimeclockEntry.isOpen, Columns.applyTo, hnull, hlive]
      have hstays : other ∈ putRow TimeclockEntry.id s.entries (columns.applyTo row) :=
        mem_putRow.mpr (.inl ⟨hmem, fun h => hne (h.trans hid)⟩)
      exact hne ((congrArg TimeclockEntry.id (h other hstays _ hwritten hopen hreopened htech)).trans hid)
    · intro halone a ha b hb hopen hopen' htech
      rcases mem_putRow.mp ha with ⟨ha, hne⟩ | ⟨rfl, -⟩
      · rcases mem_putRow.mp hb with ⟨hb, -⟩ | ⟨rfl, -⟩
        · exact (oneOpen_iff hkeys).mp hone a ha b hb hopen hopen' htech
        · exact absurd ((other_closed hkeys hone halone hrow hopen' ha hopen htech).trans hid.symm) hne
      · rcases mem_putRow.mp hb with ⟨hb, hne⟩ | ⟨rfl, -⟩
        · exact absurd ((other_closed hkeys hone halone hrow hopen hb hopen' htech.symm).trans hid.symm) hne
        · rfl

end

theorem oneOpen_commit {commit : TimeCommit} (hkeys : Keyed s) (hone : OneOpen s) :
    OneOpen (s.commit commit) ↔ OpensAlone s commit := by
  cases commit with
  | insert new => exact oneOpen_insert hone
  | write id writer columns => exact oneOpen_write hkeys hone

theorem oneOpen_step {d : ClockDesk} {event : ClockEvent} (hkeys : Keyed d.clock) (hone : OneOpen d.clock) :
    OneOpen (d.step event).clock ↔ KeepsOneOpen d event := by
  cases event with
  | reads call =>
    have hclock : (d.step (.reads call)).clock = d.clock := by
      rw [ClockDesk.step]
      split
      · rfl
      · rfl
    rw [hclock]
    exact ⟨fun _ => trivial, fun _ => hone⟩
  | commits i =>
    rw [ClockDesk.step, KeepsOneOpen]
    split
    · rename_i commit rest hflight
      refine (oneOpen_commit hkeys hone).trans ⟨fun h commit' rest' hflight' => ?_, fun h => h commit rest hflight⟩
      obtain ⟨rfl, rfl⟩ := List.cons.inj (Option.some.inj (hflight.symm.trans hflight'))
      exact h
    · rename_i hnone
      exact ⟨fun _ commit rest hflight => absurd hflight (hnone commit rest), fun _ => hone⟩

theorem keyed_step {d : ClockDesk} (event : ClockEvent) (hkeys : Keyed d.clock) : Keyed (d.step event).clock := by
  unfold ClockDesk.step
  split
  · split
    · exact hkeys
    · exact hkeys
  · split
    · exact hkeys.commit _
    · exact hkeys

theorem keyed_run (events : List ClockEvent) : Keyed (ClockDesk.run events).clock := by
  have hstep : ∀ (d : ClockDesk) (event : ClockEvent), Keyed d.clock → Keyed (d.step event).clock :=
    fun _ event h => keyed_step event h
  exact foldl_keeps hstep keyed_empty

/-- With one open shift, a clock-out closes the one the status reports. -/
theorem OneOpen.closesReported (hkeys : Keyed s) (hone : OneOpen s) : ClosesReported s := by
  intro caller now payload commits hout
  obtain ⟨tech, htech, hout⟩ := except_bind_ok.mp hout
  split at hout
  · cases hout
  · rename_i entry hopen
    cases hout
    obtain ⟨hmem, rfl, hnone, hlive⟩ := openShift_spec hopen
    have hrow := hkeys.row hmem
    refine ⟨entry, ?_, ?_, ?_⟩
    · rw [getTimeclockStatus, htech]
      exact congrArg _ hopen
    · obtain ⟨only, honly⟩ := List.length_eq_one_iff.mp (le_antisymm (hone entry.technicianId)
        (List.length_pos_of_mem (mem_of_latestClockIn hopen)))
      have hentry := mem_of_latestClockIn hopen
      rw [honly] at hentry ⊢
      rw [List.mem_singleton.mp hentry]
    · refine ⟨clockedOut entry now payload.notes, ?_, rfl⟩
      have hsame : SameEntry entry (clockedOut entry now payload.notes) := ⟨rfl, rfl, rfl, rfl, rfl⟩
      rw [List.foldl_cons, List.foldl_nil, commit_saved hrow hsame]
      exact rowOf_putRow_self (r := clockedOut entry now payload.notes) hrow

/-- In every state of the run. -/
def AlwaysOneOpen (events : List ClockEvent) : Prop :=
  ∀ before after, events = before ++ after →
    OneOpen (ClockDesk.run before).clock ∧ ClosesReported (ClockDesk.run before).clock

/-- A run has at most one open shift for each technician in every state exactly when every commit that opens an entry
    finds no other one open. -/
theorem one_open_shift (events : List ClockEvent) :
    AlwaysOneOpen events ↔ Along ClockDesk.step KeepsOneOpen .empty events := by
  constructor
  · intro hlaw
    refine along_iff.mpr fun before event after heq => ?_
    have hone := (hlaw before (event :: after) heq).1
    have hnext := (hlaw (before ++ [event]) after (by simp [heq])).1
    rw [ClockDesk.run, List.foldl_append] at hnext
    exact (oneOpen_step (keyed_run before) hone).mp hnext
  · rintro hkeeps before after rfl
    have hone : Keyed (ClockDesk.run before).clock ∧ OneOpen (ClockDesk.run before).clock := by
      have hstep : ∀ (d : ClockDesk) (event : ClockEvent), (Keyed d.clock ∧ OneOpen d.clock) → KeepsOneOpen d event →
          Keyed (d.step event).clock ∧ OneOpen (d.step event).clock := fun d event h hfit =>
        ⟨keyed_step event h.1, (oneOpen_step h.1 h.2).mpr hfit⟩
      exact (along_append.mp hkeeps).1.keeps hstep ⟨keyed_empty, fun tech => Nat.zero_le _⟩
    exact ⟨hone.2, hone.2.closesReported hone.1⟩

/-- A technician taps clock-in twice, and both requests look before either commits. -/
def doubleTap : List ClockEvent :=
  let tap := ClockCall.clockIn ⟨"ann".toList, false⟩ 0 0 0 ⟨none, none⟩
  [.reads tap, .reads tap, .commits 0, .commits 1]

theorem two_open_shifts : ¬ ∀ events : List ClockEvent, AlwaysOneOpen events := by
  intro h
  have hone := (h doubleTap doubleTap [] (by simp)).1 "ann".toList
  have htwo : ((ClockDesk.run doubleTap).clock.openShifts "ann".toList).length = 2 := by decide +kernel
  omega

end Gdx.Timeclock
