import GdxDispatch.Lib.Text

/-! Instants and the shop's calendar.

    An instant is a count of microseconds since the epoch in UTC, a day is a day number (0 is
    1970-01-01), and the shop's zone turns one into the other. -/

namespace Gdx
open Lib

def MINUTE : ℤ := 60000000
def DAY : ℤ := 86400000000

/-- `replace(second=0, microsecond=0)`. -/
def toMinute (t : ℤ) : ℤ := t / MINUTE * MINUTE

/-- `timedelta(minutes=n)`. -/
def minutes (n : ℤ) : ℤ := n * MINUTE

/-- `.date()` of an instant read in UTC. -/
def utcDay (t : ℤ) : ℤ := t / DAY

/-- A wall-clock time of day. -/
structure ClockTime where
  micros : ℤ
  nonneg : 0 ≤ micros
  lt_day : micros < DAY

/-- What the zone database says of the shop's zone: the offset in force at an instant and the offset
    a wall-clock time is read with, in whole minutes, and changes of offset fall on whole minutes. -/
structure ShopZone where
  offset : ℤ → ℤ
  wallOffset : ℤ → ℤ
  offset_toMinute : ∀ t, offset (toMinute t) = offset t

/-- `shop_day`: the calendar day of an instant as the shop sees it. -/
def ShopZone.day (z : ShopZone) (t : ℤ) : ℤ := (t + minutes (z.offset t)) / DAY

def ShopZone.shopInstant (z : ShopZone) (day : ℤ) (at' : ClockTime) : ℤ :=
  let wall := day * DAY + at'.micros
  wall - minutes (z.wallOffset wall)

/-- The shop day of `shop_instant(day, time)` is `day`. -/
def ShopZone.RoundTrips (z : ShopZone) : Prop := ∀ day at', z.day (z.shopInstant day at') = day

theorem day_toMinute (z : ShopZone) (t : ℤ) : z.day (toMinute t) = z.day t := by
  unfold ShopZone.day
  rw [z.offset_toMinute]
  unfold toMinute minutes MINUTE DAY
  omega

/-- A shop that keeps UTC. -/
def utcZone : ShopZone := ⟨fun _ => 0, fun _ => 0, fun _ => rfl⟩

theorem utcZone_roundTrips : utcZone.RoundTrips := by
  intro day at'
  have h0 := at'.nonneg
  have h1 := at'.lt_day
  simp only [ShopZone.day, ShopZone.shopInstant, utcZone, minutes, MINUTE, DAY] at h1 ⊢
  omega

/-! ### Dates in messages -/

/-- Year, month and day of a day number in the Gregorian calendar. -/
def civil (day : ℤ) : ℤ × ℤ × ℤ :=
  let z := day + 719468
  let era := z / 146097
  let doe := z % 146097
  let yoe := (doe - doe / 1460 + doe / 36524 - doe / 146096) / 365
  let doy := doe - (365 * yoe + yoe / 4 - yoe / 100)
  let mp := (5 * doy + 2) / 153
  let month := if mp < 10 then mp + 3 else mp - 9
  (yoe + era * 400 + (if month ≤ 2 then 1 else 0), month, doy - (153 * mp + 2) / 5 + 1)

/-- `n` with leading zeros up to the width. -/
def padded (width : ℕ) (n : ℤ) : String := String.ofList ((numeral n.natAbs).leftpad width '0')

def isoformat (day : ℤ) : String :=
  let (year, month, dom) := civil day
  padded 4 year ++ "-" ++ padded 2 month ++ "-" ++ padded 2 dom

example : isoformat 0 = "1970-01-01" ∧ isoformat 19782 = "2024-02-29" := by decide +kernel

/-- The shop's zone and its calendar day now. -/
structure ShopClock where
  zone : ShopZone
  today : ℤ

end Gdx
