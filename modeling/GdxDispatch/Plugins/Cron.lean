import GdxDispatch.Core.ShopCalendar
import GdxDispatch.Lib.Words
import Mathlib.Data.Finset.Basic
import Mathlib.Tactic.Linarith

/-! Cron expressions of plugin schedules (`plugin_api/schedules.py`).

    `parse_cron` reads five fields with `split`, `partition` and `int`, and `CronSpec.matches` asks a minute, counted since
    the epoch in UTC, against the sets it read. Below the parser stands the dialect as a grammar. What Python says of
    characters outside ASCII is a parameter with its documented behaviour. -/

namespace Gdx.Cron

open Lib

/-! ### Python on characters -/

/-- The value of an ASCII digit. -/
def asciiDigit (c : Char) : Option ℕ := if c.isDigit then some (c.toNat - 48) else none

/-- `str.isspace`, `str.isdigit` and the decimal value of one character, and `str.lower`. -/
structure PyChars where
  isSpace : Char → Bool
  isDigit : Char → Bool
  decimal : Char → Option ℕ
  lower : Text → Text
  /-- The blanks of ASCII, with its four separators. -/
  space : ∀ c, c.toNat < 128 →
    isSpace c = (c.toNat == 32 || (9 ≤ c.toNat && c.toNat ≤ 13) || (28 ≤ c.toNat && c.toNat ≤ 31))
  /-- The digits of ASCII. -/
  ascii : ∀ c, c.toNat < 128 → isDigit c = c.isDigit ∧ decimal c = asciiDigit c
  /-- A decimal is a digit. -/
  isDigit_of_decimal : ∀ c, (decimal c).isSome = true → isDigit c = true
  /-- Nothing but a digit is lowered to a digit, and digits stay. -/
  lower_digits : ∀ t, ((lower t).all isDigit = true ∨ t.all isDigit = true) → lower t = t
  /-- No character outside ASCII is lowered to one of the letters of a name of a month or a weekday. -/
  lower_name : ∀ t name : Text, (∀ c ∈ name, c.isLower = true ∧ c ≠ 'k') → (lower t = name ↔ t.map Char.toLower = name)

theorem toLower_of_digit {c : Char} (h : c.toLower.isDigit = true ∨ c.isDigit = true) : c.toLower = c := by
  have hsmall : c.toNat < 128 := by
    by_cases hupper : c.val ≥ 'A'.val ∧ c.val ≤ 'Z'.val
    · have hle := hupper.2
      simp only [UInt32.le_iff_toNat_le] at hle
      have hz : 'Z'.val.toNat = 90 := rfl
      have hcode : c.toNat = c.val.toNat := rfl
      omega
    · unfold Char.toLower at h
      rw [dif_neg hupper, or_self] at h
      simp only [Char.isDigit, Bool.and_eq_true, decide_eq_true_eq, UInt32.le_iff_toNat_le, ge_iff_le] at h
      have h9 : '9'.val.toNat = 57 := rfl
      have hcode : c.toNat = c.val.toNat := rfl
      omega
  have hall : ∀ n : Fin 128, ((Char.ofNat n).toLower.isDigit = true ∨ (Char.ofNat n).isDigit = true) →
      (Char.ofNat n).toLower = Char.ofNat n := by decide +kernel
  have hchar : Char.ofNat c.toNat = c := Char.ofNat_toNat c
  have hone := hall ⟨c.toNat, hsmall⟩
  simp only [hchar] at hone
  exact hone h

/-- A Python that knows no characters outside ASCII. -/
def asciiChars : PyChars where
  isSpace c := c.toNat == 32 || (9 ≤ c.toNat && c.toNat ≤ 13) || (28 ≤ c.toNat && c.toNat ≤ 31)
  isDigit := Char.isDigit
  decimal := asciiDigit
  lower t := t.map Char.toLower
  space _ _ := rfl
  ascii _ _ := ⟨rfl, rfl⟩
  isDigit_of_decimal c h := by
    unfold asciiDigit at h
    split at h
    · assumption
    · cases h
  lower_digits t h := by
    have hsame : ∀ c ∈ t, c.toLower = c := by
      intro c hc
      refine toLower_of_digit ?_
      rcases h with h | h
      · exact .inl (List.all_eq_true.mp h _ (List.mem_map_of_mem hc))
      · exact .inr (List.all_eq_true.mp h c hc)
    exact (List.map_congr_left hsame).trans (List.map_id t)
  lower_name _ _ _ := Iff.rfl

/-- The longest text of digits `int` reads. -/
def MAX_STR_DIGITS : ℕ := 4300

/-- The number a text of digits spells. -/
def digitsValue (digit : Char → Option ℕ) (t : Text) : Option ℕ :=
  t.foldlM (fun acc c => (digit c).map (acc * 10 + ·)) 0

namespace PyChars
variable (py : PyChars)

/-- `str.isdigit`. -/
def isdigit (t : Text) : Bool := !t.isEmpty && t.all py.isDigit

/-- `int` of a text of digits. -/
def int (t : Text) : Option ℕ := if t.length ≤ MAX_STR_DIGITS then digitsValue py.decimal t else none

end PyChars

/-! ### The parser -/

/-- `(low, high, names)` of `_FIELDS`; names are three small letters, and no two are the same. -/
structure CronField where
  low : ℕ
  high : ℕ
  names : List (String × ℕ)
  letters : (names.all fun p => p.1.toList.length == 3 && p.1.toList.all fun c => c.isLower && c != 'k') = true
  distinct : (names.map Prod.fst).Nodup

def MONTHS : List (String × ℕ) :=
  [("jan", 1), ("feb", 2), ("mar", 3), ("apr", 4), ("may", 5), ("jun", 6), ("jul", 7), ("aug", 8), ("sep", 9),
    ("oct", 10), ("nov", 11), ("dec", 12)]

def DAYS : List (String × ℕ) :=
  [("sun", 0), ("mon", 1), ("tue", 2), ("wed", 3), ("thu", 4), ("fri", 5), ("sat", 6)]

def MINUTE_FIELD : CronField := ⟨0, 59, [], rfl, List.nodup_nil⟩
def HOUR_FIELD : CronField := ⟨0, 23, [], rfl, List.nodup_nil⟩
def DAY_FIELD : CronField := ⟨1, 31, [], rfl, List.nodup_nil⟩
def MONTH_FIELD : CronField := ⟨1, 12, MONTHS, by decide +kernel, by decide⟩
def WEEKDAY_FIELD : CronField := ⟨0, 7, DAYS, by decide +kernel, by decide⟩

/-- A field's sets, and whether the day fields restrict the day. -/
structure CronSpec where
  minutes : Finset ℕ
  hours : Finset ℕ
  days : Finset ℕ
  months : Finset ℕ
  weekdays : Finset ℕ
  domRestricted : Bool
  dowRestricted : Bool
  deriving DecidableEq

section Parser
variable (py : PyChars)

/-- `_value`. -/
def value (f : CronField) (tok : Text) : Option ℕ :=
  let t := py.lower (trim py.isSpace tok)
  match f.names.find? (·.1.toList = t) with
  | some (_, v) => some v
  | none => if py.isdigit t then (py.int t).filter fun n => f.low ≤ n ∧ n ≤ f.high else none

/-- The step behind the slash; nothing there is a step of one. -/
def stepOf (stepS : Text) : Option ℕ :=
  if stepS = [] then some 1 else if py.isdigit stepS then (py.int stepS).filter (1 ≤ ·) else none

/-- The first and the last value of a list element, and its step. -/
def element (f : CronField) (part : Text) : Option (ℕ × ℕ × ℕ) :=
  if part = [] then none
  else
    let rng := beforeSep '/' part
    let stepS := afterSep '/' part
    match stepOf py stepS with
    | none => none
    | some step =>
      if rng = ['*'] then some (f.low, f.high, step)
      else if '-' ∈ rng then
        match value py f (beforeSep '-' rng), value py f (afterSep '-' rng) with
        | some a, some b => if b < a then none else some (a, b, step)
        | _, _ => none
      else
        match value py f rng with
        | none => none
        | some a => some (a, if stepS = [] then a else f.high, step)

/-- `range(a, b + 1, step)`. -/
def pyRange (a b step : ℕ) : Finset ℕ := (Finset.range (b + 1)).filter fun v => a ≤ v ∧ (v - a) % step = 0

/-- `_field`. -/
def field (f : CronField) (expr : Text) : Option (Finset ℕ) :=
  ((expr.splitOn ',').mapM (element py f)).map fun elements =>
    elements.foldl (fun out e => out ∪ pyRange e.1 e.2.1 e.2.2) ∅

def startsWithStar (expr : Text) : Bool := expr.head? = some '*'

def parseCron (expr : Text) : Option CronSpec :=
  match words (fun c => !py.isSpace c) expr with
  | [minute, hour, dom, month, dow] => do
    let minutes ← field py MINUTE_FIELD minute
    let hours ← field py HOUR_FIELD hour
    let days ← field py DAY_FIELD dom
    let months ← field py MONTH_FIELD month
    let weekdays ← field py WEEKDAY_FIELD dow
    pure ⟨minutes, hours, days, months, weekdays.image (· % 7), !startsWithStar dom, !startsWithStar dow⟩
  | _ => none

/-! ### Matching -/

/-- Minute, hour, day, month and `isoweekday() % 7` of a count of minutes. -/
def minuteOf (at' : ℤ) : ℕ := (at' % 60).toNat

def hourOf (at' : ℤ) : ℕ := (at' / 60 % 24).toNat

def dayOf (at' : ℤ) : ℕ := (civil (at' / 1440)).2.2.toNat

def monthOf (at' : ℤ) : ℕ := (civil (at' / 1440)).2.1.toNat

/-- Sunday is 0, and day 0 was a Thursday. -/
def weekdayOf (at' : ℤ) : ℕ := ((at' / 1440 + 4) % 7).toNat

/-- `CronSpec.matches`. -/
def CronSpec.holds (spec : CronSpec) (at' : ℤ) : Bool :=
  if minuteOf at' ∉ spec.minutes ∨ hourOf at' ∉ spec.hours then false
  else if monthOf at' ∉ spec.months then false
  else
    let dom : Bool := dayOf at' ∈ spec.days
    let dow : Bool := weekdayOf at' ∈ spec.weekdays
    if spec.domRestricted && spec.dowRestricted then dom || dow else dom && dow

def cronMatches (expr : Text) (at' : ℤ) : Bool :=
  match parseCron py expr with
  | some spec => spec.holds at'
  | none => false

end Parser

/-! ### The dialect -/

/-- How numbers and slashes are read: which characters are digits, how many of them stand together, and whether a slash may
    stand with nothing behind it. -/
structure Reading where
  digit : Char → Option ℕ
  fits : ℕ → Prop
  bareSlash : Bool

/-- The dialect as documented: ASCII digits, as many as one likes, and a step behind every slash. -/
def documented : Reading := ⟨asciiDigit, fun _ => True, false⟩

/-- The dialect with any decimal digits, up to `int`'s limit, and with bare slashes. -/
def lenient (py : PyChars) : Reading := ⟨py.decimal, (· ≤ MAX_STR_DIGITS), true⟩

namespace Reading
variable (R : Reading) (f : CronField)

/-- A text of digits and its number. -/
def Numeral (t : Text) (n : ℕ) : Prop := t ≠ [] ∧ R.fits t.length ∧ digitsValue R.digit t = some n

/-- A number in the field's range, or one of its names. -/
def NumberOf (t : Text) (n : ℕ) : Prop :=
  (∃ name, (name, n) ∈ f.names ∧ t.map Char.toLower = name.toList) ∨ (R.Numeral t n ∧ f.low ≤ n ∧ n ≤ f.high)

/-- `*`, `N` or `A-B`, its first and last value, and whether it is a single number. -/
inductive RangeOf : Text → ℕ → ℕ → Bool → Prop where
  | star : RangeOf ['*'] f.low f.high false
  | number {t n} (h : R.NumberOf f t n) : RangeOf t n n true
  | span {s t a b} (ha : R.NumberOf f s a) (hb : R.NumberOf f t b) (hle : a ≤ b) : RangeOf (s ++ '-' :: t) a b false

/-- An element of a list: a range, with a step or without; a single number with a step runs to the field's end. -/
inductive ElementOf : Text → ℕ → ℕ → ℕ → Prop where
  | plain {t a b single} (h : R.RangeOf f t a b single) : ElementOf t a b 1
  | stepped {t a b single s n} (h : R.RangeOf f t a b single) (hs : R.Numeral s n) (hn : 1 ≤ n) :
      ElementOf (t ++ '/' :: s) a (if single then f.high else b) n
  | bare {t a b single} (h : R.RangeOf f t a b single) (hbare : R.bareSlash = true) : ElementOf (t ++ ['/']) a b 1

/-- A comma list of elements. -/
def FieldOf (t : Text) : Prop := ∀ part ∈ t.splitOn ',', ∃ a b n, R.ElementOf f part a b n

/-- The values a field denotes. -/
def Denotes (t : Text) (v : ℕ) : Prop :=
  ∃ part ∈ t.splitOn ',', ∃ a b n, R.ElementOf f part a b n ∧ a ≤ v ∧ v ≤ b ∧ (v - a) % n = 0

end Reading

/-- Five fields between blanks, each of the dialect. -/
def InDialect (py : PyChars) (R : Reading) (expr : Text) : Prop :=
  ∃ minute hour dom month dow, words (fun c => !py.isSpace c) expr = [minute, hour, dom, month, dow] ∧
    R.FieldOf MINUTE_FIELD minute ∧ R.FieldOf HOUR_FIELD hour ∧ R.FieldOf DAY_FIELD dom ∧
    R.FieldOf MONTH_FIELD month ∧ R.FieldOf WEEKDAY_FIELD dow

/-- What an expression of the dialect means: the minute, the hour and the month are among the values, and so are the day
    and the weekday, or one of them when neither day field starts with `*`. Weekdays 0 and 7 are both Sunday. -/
def Means (py : PyChars) (R : Reading) (expr : Text) (at' : ℤ) : Prop :=
  ∃ minute hour dom month dow, words (fun c => !py.isSpace c) expr = [minute, hour, dom, month, dow] ∧
    R.Denotes MINUTE_FIELD minute (minuteOf at') ∧ R.Denotes HOUR_FIELD hour (hourOf at') ∧
    R.Denotes MONTH_FIELD month (monthOf at') ∧
    if startsWithStar dom ∨ startsWithStar dow then
      R.Denotes DAY_FIELD dom (dayOf at') ∧ ∃ d, R.Denotes WEEKDAY_FIELD dow d ∧ d % 7 = weekdayOf at'
    else R.Denotes DAY_FIELD dom (dayOf at') ∨ ∃ d, R.Denotes WEEKDAY_FIELD dow d ∧ d % 7 = weekdayOf at'

end Gdx.Cron
