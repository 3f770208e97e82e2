import GdxDispatch.Core.Calendar
import Mathlib.Data.List.Sort

/-! Projection of recurring payments: `_observed_stream_projection` of `modules/forecasting/service.py`.

    A stream's due dates are its origin and whole steps after it, each computed from the origin. One loop passes over the
    dates before today and takes them off a fixed term, the next one collects the dates of the window. Amounts are in
    cents, and a day is a day number. -/

namespace Gdx.Forecasting

open Lib

/-- A cadence's step: days, or months of `relativedelta`. -/
inductive Step where
  | days (k : ℕ) (pos : 0 < k)
  | months (k : ℕ) (pos : 0 < k)
  deriving DecidableEq

def MONTHLY : Step := .months 1 (by decide)

/-- `_step_for`. -/
def stepFor (cadence : Text) : Option Step :=
  if cadence = "weekly".toList then some (.days 7 (by decide))
  else if cadence = "biweekly".toList then some (.days 14 (by decide))
  else if cadence = "monthly".toList then some MONTHLY
  else if cadence = "quarterly".toList then some (.months 3 (by decide))
  else if cadence = "semiannual".toList then some (.months 6 (by decide))
  else if cadence = "annual".toList then some (.months 12 (by decide))
  else none

/-- `origin + step * n`: months keep the day of the month, or take the last one there is. -/
def occurrence (origin : ℤ) : Step → ℕ → ℤ
  | .days k _, n => origin + k * n
  | .months k _, n =>
    let month := monthOf origin + k * n
    firstOfMonth month + (min (civil origin).2.2 (lengthOfMonth month) - 1)

example : (List.range 3).map (occurrence (dayNumber 2024 1 31) MONTHLY) =
    [dayNumber 2024 1 31, dayNumber 2024 2 29, dayNumber 2024 3 31] := by decide +kernel

/-- An occurrence counted in months falls in its month. -/
theorem monthOf_occurrence (origin : ℤ) {k : ℕ} (pos : 0 < k) (n : ℕ) :
    monthOf (occurrence origin (.months k pos) n) = monthOf origin + k * n := by
  obtain ⟨h0, -, -, -⟩ := monthOf_spec origin
  have hlength := lengthOfMonth_bounds (monthOf origin + k * n)
  exact monthOf_firstOfMonth_add (by omega) (min_le_right _ _)

theorem lt_of_monthOf_lt {a b : ℤ} (h : monthOf a < monthOf b) : a < b := by
  have ha := (monthOf_eq_iff (n := a)).mp rfl
  have hb := (monthOf_eq_iff (n := b)).mp rfl
  by_contra hle
  have := firstOfMonth_lt_iff.mp (by omega : firstOfMonth (monthOf b) < firstOfMonth (monthOf a + 1))
  omega

/-- Each occurrence is after the one before it. -/
theorem occurrence_succ (origin : ℤ) (step : Step) (n : ℕ) : occurrence origin step n < occurrence origin step (n + 1) := by
  cases step with
  | days k pos =>
    simp only [occurrence]
    push_cast
    have : (k : ℤ) * (n + 1) = k * n + k := by ring
    omega
  | months k pos =>
    refine lt_of_monthOf_lt ?_
    rw [monthOf_occurrence, monthOf_occurrence]
    push_cast
    have : (k : ℤ) * (n + 1) = k * n + k := by ring
    omega

theorem occurrence_strictMono (origin : ℤ) (step : Step) : StrictMono (occurrence origin step) :=
  strictMono_nat_of_lt_succ (occurrence_succ origin step)

/-! ### The two loops -/

/-- The first occurrence not before today, and what is left of the term then. -/
def skipPast (origin : ℤ) (step : Step) (today : ℤ) (n : ℕ) (remaining : Option ℕ) : ℕ × Option ℕ :=
  if occurrence origin step n < today then skipPast origin step today (n + 1) (remaining.map (· - 1)) else (n, remaining)
termination_by (today - occurrence origin step n).toNat
decreasing_by
  have := occurrence_succ origin step n
  omega

/-- The dates from the `n`th occurrence on that the window and the term let through. -/
def projectFrom (origin : ℤ) (step : Step) (windowEnd : ℤ) (termEnd : Option ℤ) (remaining : Option ℕ) (n : ℕ)
    (projected : List ℤ) : List ℤ :=
  let d := occurrence origin step n
  if windowEnd < d then projected
  else if termEnd.any (· < d) then projected
  else if remaining.any (· ≤ projected.length) then projected
  else projectFrom origin step windowEnd termEnd remaining (n + 1) (projected ++ [d])
termination_by (windowEnd + 1 - occurrence origin step n).toNat
decreasing_by
  have := occurrence_succ origin step n
  omega

/-- A row of `recurring_streams`, as the projection reads it. -/
structure StreamRow where
  id : Text
  label : Text
  source : Text
  payeePattern : Text
  amountMin : ℤ
  amountMax : ℤ
  cadence : Text
  termTotalOccurrences : Option ℤ
  termEndDate : Option ℤ
  status : Text
  occurrencesSeen : ℤ
  startDate : Option ℤ
  nextExpectedDate : Option ℤ
  lastObservedDate : Option ℤ
  deleted : Bool

namespace StreamRow
variable (s : StreamRow)

/-- The date the occurrences are counted from, where the stream has one. -/
def knownOrigin (step : Step) : Option ℤ :=
  s.nextExpectedDate <|> s.lastObservedDate.map (occurrence · step 1) <|> s.startDate

/-- What is left of a term counted in payments. -/
def remaining : Option ℕ := s.termTotalOccurrences.map fun total => (total - s.occurrencesSeen).toNat

/-- The dates projected for one stream. -/
def projectedDates (step : Step) (today windowEnd : ℤ) : List ℤ :=
  let origin := (s.knownOrigin step).getD today
  let (n, remaining) := skipPast origin step today 0 s.remaining
  projectFrom origin step windowEnd s.termEndDate remaining n []

end StreamRow

structure ProjectedItem where
  streamId : Text
  label : Text
  payeePattern : Text
  source : Text
  cadence : Text
  amount : ℚ
  nextDate : String
  direction : String
  deriving DecidableEq

structure Projection where
  count : ℕ
  expectedTotal : ℚ
  items : List ProjectedItem
  deriving DecidableEq

def STREAM_STATUS_ACTIVE : Text := "active".toList

def DIRECTION_OUT : String := "out"

/-- The items of one stream; a cadence without a step has none. -/
def StreamRow.items (s : StreamRow) (today windowEnd : ℤ) : List ProjectedItem :=
  match stepFor s.cadence with
  | none => []
  | some step => (s.projectedDates step today windowEnd).map fun d =>
    { streamId := s.id, label := s.label, payeePattern := s.payeePattern, source := s.source, cadence := s.cadence,
      amount := (s.amountMin + s.amountMax : ℚ) / 2, nextDate := isoformat d, direction := DIRECTION_OUT }

/-- `_observed_stream_projection`. -/
def observedStreamProjection (streams : List StreamRow) (today windowDays : ℤ) : Projection :=
  let active := streams.filter fun s => s.status = STREAM_STATUS_ACTIVE && !s.deleted
  let items := active.flatMap fun s => s.items today (today + windowDays)
  ⟨items.length, (items.map (·.amount)).sum, items⟩

/-! ### What the loops do -/

section Loops
variable (origin : ℤ) (step : Step)

/-- The first loop stops at the first occurrence not before today, and takes one payment off for each it passes. -/
theorem skipPast_spec (today : ℤ) (n : ℕ) (remaining : Option ℕ) :
    ∃ k, skipPast origin step today n remaining = (n + k, remaining.map (· - k)) ∧
      (∀ i < k, occurrence origin step (n + i) < today) ∧ today ≤ occurrence origin step (n + k) := by
  fun_induction skipPast origin step today n remaining with
  | case1 n remaining hlt ih =>
    obtain ⟨k, heq, hpassed, hstop⟩ := ih
    refine ⟨k + 1, ?_, ?_, ?_⟩
    · rw [heq, Option.map_map]
      congr 1
      · ring
      · congr 1
        funext m
        simp only [Function.comp]
        omega
    · intro i hi
      cases i with
      | zero => exact hlt
      | succ i =>
        have := hpassed i (by omega)
        rwa [show n + (i + 1) = n + 1 + i by ring]
    · rwa [show n + (k + 1) = n + 1 + k by ring]
  | case2 n remaining hge => exact ⟨0, by simp, by simp, by simpa using hge⟩

/-- A date the second loop lets through. -/
def LetThrough (windowEnd : ℤ) (termEnd : Option ℤ) (limit : Option ℕ) (n : ℕ) : Prop :=
  occurrence origin step n ≤ windowEnd ∧ (∀ last, termEnd = some last → occurrence origin step n ≤ last) ∧
    ∀ m, limit = some m → n < m

theorem any_lt_iff {termEnd : Option ℤ} {d : ℤ} :
    termEnd.any (· < d) = false ↔ ∀ last, termEnd = some last → d ≤ last := by
  cases termEnd <;> simp

theorem any_le_iff {remaining : Option ℕ} {n length : ℕ} : remaining.any (· ≤ length) = false ↔
    ∀ m, remaining.map (· + n - length) = some m → n < m := by
  cases remaining with
  | none => simp
  | some r =>
    simp only [Option.any_some, decide_eq_false_iff_not, Option.map_some, Option.some.injEq, forall_eq']
    omega

/-- The second loop collects occurrences, one after the other, as long as they are let through. -/
theorem projectFrom_spec (windowEnd : ℤ) (termEnd : Option ℤ) (remaining : Option ℕ) (n : ℕ) (projected : List ℤ) :
    ∃ k, projectFrom origin step windowEnd termEnd remaining n projected =
        projected ++ (List.range k).map (fun i => occurrence origin step (n + i)) ∧
      (∀ i < k, LetThrough origin step windowEnd termEnd (remaining.map (· + n - projected.length)) (n + i)) ∧
      ¬ LetThrough origin step windowEnd termEnd (remaining.map (· + n - projected.length)) (n + k) := by
  fun_induction projectFrom origin step windowEnd termEnd remaining n projected with
  | case1 n projected d hwindow =>
    exact ⟨0, by simp, by simp, fun hlet => absurd hlet.1 (not_le.mpr hwindow)⟩
  | case2 n projected d hwindow hterm =>
    refine ⟨0, by simp, by simp, fun hlet => ?_⟩
    have hwithin : termEnd.any (· < d) = false := any_lt_iff.mpr hlet.2.1
    rw [hwithin] at hterm
    cases hterm
  | case3 n projected d hwindow hterm hlimit =>
    refine ⟨0, by simp, by simp, fun hlet => ?_⟩
    have hleft : remaining.any (· ≤ projected.length) = false := any_le_iff.mpr hlet.2.2
    rw [hleft] at hlimit
    cases hlimit
  | case4 n projected d hwindow hterm hlimit ih =>
    obtain ⟨k, heq, hin, hout⟩ := ih
    have hshift : remaining.map (· + (n + 1) - (projected ++ [d]).length) = remaining.map (· + n - projected.length) := by
      congr 1
      funext m
      rw [List.length_append, List.length_singleton]
      omega
    rw [hshift] at hin hout
    refine ⟨k + 1, ?_, ?_, ?_⟩
    · rw [heq, List.range_succ_eq_map, List.map_cons, List.append_assoc, List.singleton_append, List.map_map]
      refine congrArg (fun rest => projected ++ d :: rest) (List.map_congr_left fun i _ => ?_)
      simp only [Function.comp, Nat.succ_eq_add_one]
      congr 1
      ring
    · intro i hi
      cases i with
      | zero =>
        exact ⟨not_lt.mp hwindow, any_lt_iff.mp (Bool.not_eq_true _ ▸ hterm), any_le_iff.mp (Bool.not_eq_true _ ▸ hlimit)⟩
      | succ i =>
        have := hin i (by omega)
        rwa [show n + (i + 1) = n + 1 + i by ring]
    · rwa [show n + (k + 1) = n + 1 + k by ring]

/-- What is let through is an initial segment. -/
theorem LetThrough.of_le {windowEnd : ℤ} {termEnd : Option ℤ} {limit : Option ℕ} {m n : ℕ} (hle : m ≤ n)
    (h : LetThrough origin step windowEnd termEnd limit n) : LetThrough origin step windowEnd termEnd limit m := by
  have hmono := (occurrence_strictMono origin step).monotone hle
  exact ⟨hmono.trans h.1, fun last hlast => hmono.trans (h.2.1 last hlast), fun r hr => hle.trans_lt (h.2.2 r hr)⟩

end Loops

/-! ### The dates of a stream -/

section Dates
variable {s : StreamRow} {step : Step} {origin : ℤ}

/-- A due date of the stream: an occurrence within the term. -/
def Due (s : StreamRow) (step : Step) (origin d : ℤ) : Prop :=
  ∃ n, d = occurrence origin step n ∧ (∀ last, s.termEndDate = some last → d ≤ last) ∧
    ∀ total, s.termTotalOccurrences = some total → (n : ℤ) < total - s.occurrencesSeen

theorem limit_iff {n passed : ℕ} : (∀ m, ((s.remaining.map (· - passed)).map (· + passed)) = some m → passed + n < m) ↔
    ∀ total, s.termTotalOccurrences = some total → ((passed + n : ℕ) : ℤ) < total - s.occurrencesSeen := by
  unfold StreamRow.remaining
  cases s.termTotalOccurrences with
  | none => simp
  | some total =>
    simp only [Option.map_some, Option.some.injEq, forall_eq']
    omega

/-- The dates projected for a window are the stream's due dates in it, in order. -/
theorem projectedDates_spec (horigin : s.knownOrigin step = some origin) (today windowEnd : ℤ) :
    (s.projectedDates step today windowEnd).Pairwise (· < ·) ∧
      ∀ d, d ∈ s.projectedDates step today windowEnd ↔ Due s step origin d ∧ today ≤ d ∧ d ≤ windowEnd := by
  obtain ⟨passed, hskip, hbefore, hstop⟩ := skipPast_spec origin step today 0 s.remaining
  obtain ⟨k, hdates, hin, hout⟩ := projectFrom_spec origin step windowEnd s.termEndDate
    (s.remaining.map (· - passed)) passed []
  have hmono := occurrence_strictMono origin step
  have heq : s.projectedDates step today windowEnd =
      (List.range k).map (fun i => occurrence origin step (passed + i)) := by
    unfold StreamRow.projectedDates
    simp only [horigin, Option.getD_some]
    rw [hskip]
    simp only [Nat.zero_add]
    rw [hdates, List.nil_append]
  simp only [Nat.zero_add] at hbefore hstop
  simp only [List.length_nil, Nat.sub_zero] at hin hout
  rw [heq]
  constructor
  · rw [List.pairwise_map]
    exact List.pairwise_lt_range.imp fun hlt => hmono (Nat.add_lt_add_left hlt passed)
  · intro d
    simp only [List.mem_map, List.mem_range]
    constructor
    · rintro ⟨i, hi, rfl⟩
      obtain ⟨hwindow, hterm, hlimit⟩ := hin i hi
      exact ⟨⟨passed + i, rfl, hterm, limit_iff.mp hlimit⟩,
        hstop.trans (hmono.monotone (Nat.le_add_right passed i)), hwindow⟩
    · rintro ⟨⟨n, rfl, hterm, hlimit⟩, htoday, hwindow⟩
      have hpassed : passed ≤ n := by
        by_contra hlt
        exact absurd htoday (not_le.mpr (by simpa using hbefore n (not_le.mp hlt)))
      obtain ⟨i, rfl⟩ := Nat.exists_eq_add_of_le hpassed
      refine ⟨i, ?_, rfl⟩
      by_contra hge
      refine hout (LetThrough.of_le origin step (Nat.add_le_add_left (not_lt.mp hge) passed) ?_)
      exact ⟨hwindow, hterm, limit_iff.mpr hlimit⟩

/-- A window cut in two is projected as its two parts, one after the other. -/
theorem projectedDates_split (horigin : s.knownOrigin step = some origin) {today m windowEnd : ℤ} (hlow : today ≤ m + 1)
    (hhigh : m ≤ windowEnd) : s.projectedDates step today windowEnd =
      s.projectedDates step today m ++ s.projectedDates step (m + 1) windowEnd := by
  obtain ⟨hsorted, hmem⟩ := projectedDates_spec horigin today windowEnd
  obtain ⟨hsorted₁, hmem₁⟩ := projectedDates_spec horigin today m
  obtain ⟨hsorted₂, hmem₂⟩ := projectedDates_spec horigin (m + 1) windowEnd
  have hparts : (s.projectedDates step today m ++ s.projectedDates step (m + 1) windowEnd).Pairwise (· < ·) := by
    refine List.pairwise_append.mpr ⟨hsorted₁, hsorted₂, fun a ha b hb => ?_⟩
    have hle := ((hmem₁ a).mp ha).2.2
    have hge := ((hmem₂ b).mp hb).2.1
    omega
  refine List.Perm.eq_of_pairwise (fun a b _ _ hab hba => absurd hab hba.not_gt) hsorted hparts ?_
  refine (List.perm_ext_iff_of_nodup (hsorted.imp fun h => h.ne) (hparts.imp fun h => h.ne)).mpr fun d => ?_
  rw [List.mem_append, hmem, hmem₁, hmem₂]
  constructor
  · rintro ⟨hdue, htoday, hwindow⟩
    rcases le_or_gt d m with hle | hgt
    · exact .inl ⟨hdue, htoday, hle⟩
    · exact .inr ⟨hdue, hgt, hwindow⟩
  · rintro (⟨hdue, htoday, hle⟩ | ⟨hdue, hgt, hwindow⟩)
    · exact ⟨hdue, htoday, hle.trans hhigh⟩
    · exact ⟨hdue, hlow.trans hgt, hwindow⟩

theorem streamId_of_mem_items {today windowEnd : ℤ} {item : ProjectedItem} (h : item ∈ s.items today windowEnd) :
    item.streamId = s.id := by
  unfold StreamRow.items at h
  split at h
  · simp at h
  · obtain ⟨d, -, rfl⟩ := List.mem_map.mp h
    rfl

/-- The items under a stream's id are its own. -/
theorem filter_items {streams : List StreamRow} (hids : (streams.map (·.id)).Nodup) (hmem : s ∈ streams)
    (today windowEnd : ℤ) :
    (streams.flatMap fun t => t.items today windowEnd).filter (·.streamId = s.id) = s.items today windowEnd := by
  have hown : (s.items today windowEnd).filter (·.streamId = s.id) = s.items today windowEnd :=
    List.filter_eq_self.mpr fun item h => by simp [streamId_of_mem_items h]
  induction streams with
  | nil => cases hmem
  | cons t streams ih =>
    rw [List.map_cons, List.nodup_cons] at hids
    rw [List.flatMap_cons, List.filter_append]
    rcases List.mem_cons.mp hmem with rfl | hmem
    · have hrest : (streams.flatMap fun t => t.items today windowEnd).filter (·.streamId = s.id) = [] := by
        refine List.filter_eq_nil_iff.mpr fun item h => ?_
        obtain ⟨t, ht, hitem⟩ := List.mem_flatMap.mp h
        rw [streamId_of_mem_items hitem, decide_eq_true_eq]
        exact fun heq => hids.1 (heq ▸ List.mem_map_of_mem ht)
      rw [hown, hrest, List.append_nil]
    · have hfirst : (t.items today windowEnd).filter (·.streamId = s.id) = [] := by
        refine List.filter_eq_nil_iff.mpr fun item h => ?_
        rw [streamId_of_mem_items h, decide_eq_true_eq]
        exact fun heq => hids.1 (heq ▸ List.mem_map_of_mem hmem)
      rw [hfirst, List.nil_append, ih hids.2 hmem]

/-- The items of one stream carry its projected dates. -/
theorem items_of_stream {streams : List StreamRow} (hids : (streams.map (·.id)).Nodup) (hmem : s ∈ streams)
    (hactive : s.status = STREAM_STATUS_ACTIVE) (hlive : s.deleted = false) (hstep : stepFor s.cadence = some step)
    (today windowDays : ℤ) :
    ((observedStreamProjection streams today windowDays).items.filter (·.streamId = s.id)).map (·.nextDate) =
      (s.projectedDates step today (today + windowDays)).map isoformat := by
  have hin : s ∈ streams.filter fun s => s.status = STREAM_STATUS_ACTIVE && !s.deleted :=
    List.mem_filter.mpr ⟨hmem, by simp [hactive, hlive]⟩
  unfold observedStreamProjection
  simp only
  rw [filter_items (hids.sublist (List.filter_sublist.map _)) hin]
  unfold StreamRow.items
  rw [hstep, List.map_map]
  rfl

end Dates

/-- A stream with a known date is projected once for every due date, whatever the window: the dates of a window are the due
    dates in it in order, a window cut in two is projected as its parts, and a month holds one date of a monthly stream. -/
theorem projected_once_per_due_date (s : StreamRow) (step : Step) (origin : ℤ) (hstep : stepFor s.cadence = some step)
    (horigin : s.knownOrigin step = some origin) :
    (∀ today windowEnd, (s.projectedDates step today windowEnd).Pairwise (· < ·) ∧
      ∀ d, d ∈ s.projectedDates step today windowEnd ↔ Due s step origin d ∧ today ≤ d ∧ d ≤ windowEnd) ∧
    (∀ today m windowEnd, today ≤ m + 1 → m ≤ windowEnd → s.projectedDates step today windowEnd =
      s.projectedDates step today m ++ s.projectedDates step (m + 1) windowEnd) ∧
    (s.cadence = "monthly".toList → ∀ today windowEnd, ∀ a ∈ s.projectedDates step today windowEnd,
      ∀ b ∈ s.projectedDates step today windowEnd, monthOf a = monthOf b → a = b) ∧
    ∀ (streams : List StreamRow), (streams.map (·.id)).Nodup → s ∈ streams → s.status = STREAM_STATUS_ACTIVE →
      s.deleted = false → ∀ today windowDays,
        ((observedStreamProjection streams today windowDays).items.filter (·.streamId = s.id)).map (·.nextDate) =
          (s.projectedDates step today (today + windowDays)).map isoformat := by
  refine ⟨fun today windowEnd => projectedDates_spec horigin today windowEnd,
    fun today m windowEnd hlow hhigh => projectedDates_split horigin hlow hhigh,
    fun hmonthly today windowEnd a ha b hb hmonth => ?_,
    fun streams hids hmem hactive hlive => items_of_stream hids hmem hactive hlive hstep⟩
  have hstep' : step = MONTHLY := by
    rw [hmonthly] at hstep
    exact (Option.some.inj hstep).symm
  subst hstep'
  obtain ⟨⟨i, rfl, -, -⟩, -, -⟩ := ((projectedDates_spec horigin today windowEnd).2 a).mp ha
  obtain ⟨⟨j, rfl, -, -⟩, -, -⟩ := ((projectedDates_spec horigin today windowEnd).2 b).mp hb
  unfold MONTHLY at hmonth
  rw [monthOf_occurrence, monthOf_occurrence] at hmonth
  have hij : i = j := by
    push_cast at hmonth
    omega
  rw [hij]

/-- Rent due on 31 January 2024, of which two payments are left. -/
def rent : StreamRow where
  id := "s1".toList
  label := "Rent".toList
  source := "manual".toList
  payeePattern := "landlord".toList
  amountMin := 100000
  amountMax := 100000
  cadence := "monthly".toList
  termTotalOccurrences := some 12
  termEndDate := none
  status := STREAM_STATUS_ACTIVE
  occurrencesSeen := 10
  startDate := none
  nextExpectedDate := some (dayNumber 2024 1 31)
  lastObservedDate := none
  deleted := false

/-- The leap day is due, and the last day of March is past the term. -/
theorem rent_due_on_leap_day :
    dayNumber 2024 2 29 ∈ rent.projectedDates MONTHLY (dayNumber 2024 2 1) (dayNumber 2024 3 31) ∧
      dayNumber 2024 3 31 ∉ rent.projectedDates MONTHLY (dayNumber 2024 2 1) (dayNumber 2024 3 31) := by
  have hdates := ((projected_once_per_due_date rent MONTHLY (dayNumber 2024 1 31) (by decide) (by decide)).1
    (dayNumber 2024 2 1) (dayNumber 2024 3 31)).2
  constructor
  · exact (hdates _).mpr ⟨⟨1, by decide +kernel, by decide, by decide +kernel⟩, by decide +kernel, by decide +kernel⟩
  · intro hmem
    obtain ⟨⟨n, heq, -, hterm⟩, -, -⟩ := (hdates _).mp hmem
    have hlt := hterm 12 rfl
    have hmono := (occurrence_strictMono (dayNumber 2024 1 31) MONTHLY).le_iff_le (a := 2) (b := n)
    have htwo : occurrence (dayNumber 2024 1 31) MONTHLY 2 = dayNumber 2024 3 31 := by decide +kernel
    rw [htwo, heq] at hmono
    have hle := hmono.mp le_rfl
    change (n : ℤ) < 12 - 10 at hlt
    omega

end Gdx.Forecasting
