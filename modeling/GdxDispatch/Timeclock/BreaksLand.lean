import GdxDispatch.Timeclock.PeriodsTile

/-! Breaks come off the shift they were taken in, unless another window stands before it.

    A break goes to the first window that holds its start, in the order of the list, and an open shift's window runs until
    now. So a closed shift is given its own breaks exactly when no window before it holds one of them and the dates read
    from the table reach them. -/

namespace Gdx.Timeclock

open Lib PayPeriods

/-! ### Sums over two filters -/

/-- What a wider filter adds. -/
theorem sum_filter_wider {α : Type} (f : α → ℕ) {p q : α → Bool} {l : List α} (hpq : ∀ a ∈ l, p a = true → q a = true) :
    ((l.filter q).map f).sum = ((l.filter p).map f).sum + ((l.filter fun a => q a && !p a).map f).sum := by
  induction l with
  | nil => rfl
  | cons a l ih =>
    rw [List.forall_mem_cons] at hpq
    have hrest := ih hpq.2
    cases hp : p a with
    | true =>
      simp only [List.filter_cons, hp, hpq.1 hp, if_true, Bool.not_true, Bool.and_false, Bool.false_eq_true, if_false,
        List.map_cons, List.sum_cons, hrest, add_assoc]
    | false =>
      cases hq : q a <;> simp [hp, hq, hrest, add_left_comm]

/-- The wider filter adds nothing exactly when what it adds weighs nothing. -/
theorem sum_filter_eq_iff {α : Type} (f : α → ℕ) {p q : α → Bool} {l : List α}
    (hpq : ∀ a ∈ l, p a = true → q a = true) :
    ((l.filter p).map f).sum = ((l.filter q).map f).sum ↔ ∀ a ∈ l, q a = true → p a = false → f a = 0 := by
  rw [sum_filter_wider f hpq, left_eq_add, List.sum_eq_zero_iff, List.forall_mem_map]
  simp [and_imp]

/-! ### The shift a break is given to -/

/-- The entries that are not time off, in the order of the list. -/
def shiftsOf (entries : List TimeclockEntry) : List TimeclockEntry := entries.filter fun e => !isTimeOff e.entryType

/-- A shift with a clock-out. -/
def ClosedShift (e : TimeclockEntry) : Prop := isTimeOff e.entryType = false ∧ e.clockOutAt.isSome = true

/-- The minutes of the breaks the person started between the shift's clock-in and its clock-out. -/
def minutesTaken (breaks : List TimeclockBreak) (now : ℤ) (e : TimeclockEntry) : ℕ :=
  ((breaks.filter fun b => e.covers now b).map fun b => b.durationMinutes.getD 0).sum

/-- Every closed shift is given the minutes of its own breaks. -/
def BreaksLand (entries : List TimeclockEntry) (breaks : List TimeclockBreak) (windowHi : Option Text) (now : ℤ) :
    Prop :=
  ∀ e ∈ entries, ClosedShift e → breakMinutesByEntry entries breaks windowHi now e.id = minutesTaken breaks now e

/-- No window that stands before `e` in the list holds the break. -/
def FirstWindow (entries : List TimeclockEntry) (now : ℤ) (e : TimeclockEntry) (b : TimeclockBreak) : Prop :=
  ∃ before after, shiftsOf entries = before ++ e :: after ∧ ∀ f ∈ before, f.covers now b = false

/-- The breaks of closed shifts are among the dates read, and no window before their own shift's holds them. -/
def Undisturbed (entries : List TimeclockEntry) (breaks : List TimeclockBreak) (windowHi : Option Text) (now : ℤ) :
    Prop :=
  ∀ b ∈ breaks, 0 < b.durationMinutes.getD 0 → ∀ e ∈ entries, ClosedShift e → e.covers now b = true →
    inSpan (shiftsOf entries) windowHi now b = true ∧ FirstWindow entries now e b

section Target
variable {entries : List TimeclockEntry} {breaks : List TimeclockBreak} {windowHi : Option Text} {now : ℤ}
  {e : TimeclockEntry} {b : TimeclockBreak}

theorem mem_shiftsOf : e ∈ shiftsOf entries ↔ e ∈ entries ∧ isTimeOff e.entryType = false := by
  simp [shiftsOf]

/-- A break without a link is given to a shift that holds it, when no window stands before. -/
theorem breakTarget_iff (hids : (entries.map (·.id)).Nodup) (hmem : e ∈ shiftsOf entries) (hlink : b.timeEntryId = none) :
    breakTarget (shiftsOf entries) now b = some e.id ↔ e.covers now b = true ∧ FirstWindow entries now e b := by
  have hunique : ∀ f ∈ shiftsOf entries, f.id = e.id → f = e := by
    intro f hf hid
    exact eq_of_id hids (mem_shiftsOf.mp hf).1 (mem_shiftsOf.mp hmem).1 hid
  unfold breakTarget
  rw [hlink, Option.filter_none]
  simp only [Option.map_eq_some_iff]
  constructor
  · rintro ⟨f, hfind, hid⟩
    have heq := hunique f (List.mem_of_find?_eq_some hfind) hid
    subst heq
    obtain ⟨hcovers, before, after, hsplit, hbefore⟩ := List.find?_eq_some_iff_append.mp hfind
    exact ⟨hcovers, before, after, hsplit, fun g hg => by simpa using hbefore g hg⟩
  · rintro ⟨hcovers, before, after, hsplit, hfirst⟩
    refine ⟨e, List.find?_eq_some_iff_append.mpr ⟨hcovers, before, after, hsplit, fun g hg => ?_⟩, rfl⟩
    simp [hfirst g hg]

/-- A closed shift is given exactly its own breaks when nothing stands between them, and loses minutes otherwise. -/
theorem landed_iff (hids : (entries.map (·.id)).Nodup) (hnamed : ∀ e ∈ entries, e.technicianId ≠ [])
    (hlinks : ∀ b ∈ breaks, b.timeEntryId = none) (hmem : e ∈ entries) (hclosed : ClosedShift e) :
    breakMinutesByEntry entries breaks windowHi now e.id = minutesTaken breaks now e ↔
      ∀ b ∈ breaks, e.covers now b = true → 0 < b.durationMinutes.getD 0 →
        inSpan (shiftsOf entries) windowHi now b = true ∧ FirstWindow entries now e b := by
  have hshift : e ∈ shiftsOf entries := mem_shiftsOf.mpr ⟨hmem, hclosed.1⟩
  have hread : ∀ b, e.covers now b = true → 0 < b.durationMinutes.getD 0 →
      ((((shiftsOf entries).map (·.technicianId)).filter (· ≠ [])).contains b.userId && b.durationMinutes.isSome) =
        true := by
    intro b hcovers hpos
    simp only [TimeclockEntry.covers, Bool.and_eq_true, decide_eq_true_eq] at hcovers
    obtain ⟨⟨htech, -⟩, -⟩ := hcovers
    have hsome : b.durationMinutes.isSome = true := by
      cases hduration : b.durationMinutes with
      | none =>
        rw [hduration] at hpos
        simp at hpos
      | some m => rfl
    rw [hsome, Bool.and_true, List.contains_iff_mem, List.mem_filter, ← htech]
    exact ⟨List.mem_map_of_mem hshift, by simpa using hnamed e hmem⟩
  unfold breakMinutesByEntry minutesTaken
  simp only
  rw [List.filter_filter, ← shiftsOf, sum_filter_eq_iff]
  · constructor
    · intro h b hb hcovers hpos
      have hlost := h b hb hcovers
      by_contra hnot
      have hzero := hlost ?_
      · omega
      · rw [Bool.and_eq_false_iff, decide_eq_false_iff_not, breakTarget_iff hids hshift (hlinks b hb)]
        by_cases hspan : inSpan (shiftsOf entries) windowHi now b = true
        · left
          rintro ⟨-, hfirst⟩
          exact hnot ⟨hspan, hfirst⟩
        · right
          rw [Bool.and_eq_false_iff]
          exact .inr (Bool.not_eq_true _ ▸ hspan)
    · intro h b hb hcovers hlost
      by_contra hpos
      obtain ⟨hspan, hfirst⟩ := h b hb hcovers (Nat.pos_of_ne_zero hpos)
      have htarget := (breakTarget_iff hids hshift (hlinks b hb)).mpr ⟨hcovers, hfirst⟩
      rw [htarget, hread b hcovers (Nat.pos_of_ne_zero hpos), hspan] at hlost
      simp at hlost
  · intro b hb hgiven
    rw [Bool.and_eq_true, decide_eq_true_eq, breakTarget_iff hids hshift (hlinks b hb)] at hgiven
    exact hgiven.1.1

end Target

/-! ### When breaks land -/

/-- Every closed shift is given exactly its own breaks if and only if nothing stands between them; and what a closed shift
    is given is then the same in every list that holds it. -/
theorem breaks_land_iff (entries : List TimeclockEntry) (breaks : List TimeclockBreak) (windowHi : Option Text) (now : ℤ)
    (hids : (entries.map (·.id)).Nodup) (hnamed : ∀ e ∈ entries, e.technicianId ≠ [])
    (hlinks : ∀ b ∈ breaks, b.timeEntryId = none) :
    (BreaksLand entries breaks windowHi now ↔ Undisturbed entries breaks windowHi now) ∧
      ∀ others : List TimeclockEntry, (others.map (·.id)).Nodup → (∀ e ∈ others, e.technicianId ≠ []) →
        Undisturbed entries breaks windowHi now → Undisturbed others breaks windowHi now →
        ∀ e ∈ entries, e ∈ others → ClosedShift e →
          breakMinutesByEntry others breaks windowHi now e.id = breakMinutesByEntry entries breaks windowHi now e.id := by
  have hland : ∀ list : List TimeclockEntry, (list.map (·.id)).Nodup → (∀ e ∈ list, e.technicianId ≠ []) →
      (BreaksLand list breaks windowHi now ↔ Undisturbed list breaks windowHi now) := by
    intro list hids hnamed
    unfold BreaksLand Undisturbed
    constructor
    · intro h b hb hpos e hmem hclosed hcovers
      exact (landed_iff hids hnamed hlinks hmem hclosed).mp (h e hmem hclosed) b hb hcovers hpos
    · intro h e hmem hclosed
      exact (landed_iff hids hnamed hlinks hmem hclosed).mpr fun b hb hcovers hpos => h b hb hpos e hmem hclosed hcovers
  refine ⟨hland entries hids hnamed, fun others hids' hnamed' h h' e hmem hmem' hclosed => ?_⟩
  rw [(hland others hids' hnamed').mpr h' e hmem' hclosed, (hland entries hids hnamed).mpr h e hmem hclosed]

/-- A shift of 2 January that nobody clocked out of. -/
def forgotten : TimeclockEntry := { wednesday 0 with clockInAt := utcStamp (19724 * DAY), clockOutAt := none, minutes := none }

/-- A lunch of half an hour, four hours into the shift of 3 January. -/
def lunch : TimeclockBreak := ⟨"t1".toList, none, 19725 * DAY + 240 * MINUTE, some 30⟩

/-- With the forgotten shift first in the list, the lunch of the day after comes off it. -/
theorem lunch_off_the_open_shift :
    ¬ ∀ (person : Text) (entries : List TimeclockEntry) (breaks : List TimeclockBreak) (windowHi : Option Text) (now : ℤ),
        person ≠ [] → (entries.map (·.id)).Nodup → (∀ e ∈ entries, e.technicianId = person) →
        (∀ e ∈ entries, ∀ f ∈ entries, ClosedShift e → ClosedShift f → e.id ≠ f.id →
          e.windowEnd now < asAware f.clockInAt ∨ f.windowEnd now < asAware e.clockInAt) →
        (∀ b ∈ breaks, b.timeEntryId = none ∧ b.durationMinutes.isSome = true) → BreaksLand entries breaks windowHi now := by
  intro hall
  have hland := hall "t1".toList [forgotten, wednesday 1] [lunch] none (19726 * DAY) (by decide) (by decide) (by decide)
    (by
      intro e he f hf hce hcf hne
      have hone : ∀ g ∈ [forgotten, wednesday 1], ClosedShift g → g.id = 1 := by
        intro g hg hcg
        rcases List.mem_cons.mp hg with rfl | hg
        · exact absurd hcg.2 (by decide)
        · rw [List.mem_singleton.mp hg]
          rfl
      exact absurd ((hone e he hce).trans (hone f hf hcf).symm) hne)
    (by decide) (wednesday 1) (by decide) ⟨rfl, rfl⟩
  revert hland
  decide +kernel

/-- With the closed shift first, the lunch comes off it. -/
theorem lunch_lands : BreaksLand [wednesday 1, forgotten] [lunch] none (19726 * DAY) := by
  refine (breaks_land_iff [wednesday 1, forgotten] [lunch] none (19726 * DAY) (by decide) (by decide) (by decide)).1.mpr ?_
  intro b hb _ e he hclosed _
  rw [List.mem_singleton] at hb
  subst hb
  have heq : e = wednesday 1 := by
    rcases List.mem_cons.mp he with rfl | he
    · rfl
    · rw [List.mem_singleton.mp he] at hclosed
      exact absurd hclosed.2 (by decide)
  subst heq
  exact ⟨by decide +kernel, [], [forgotten], by decide, by simp⟩

end Gdx.Timeclock
