import GdxDispatch.Lib.Text

/-! The next invoice number.

    The generator takes the greatest number of the shape `INV-??????`, reads the six characters as an integer and
    scans fifty candidates from there. So the number it gives follows the highest sequential one only when that
    greatest text is near below it: a text of the same shape that is not a number sorts above the digits, and numbers
    of seven digits do not have the shape. -/

namespace Gdx
open Lib

/-- What the interpreter's Unicode tables say of a character: its decimal value, and whether it is white space. -/
structure IntTables where
  digit : Char → Option ℕ
  isSpace : Char → Bool

/-- The tables on ASCII. -/
def asciiTables : IntTables where
  digit c := if c.isDigit then some (c.toNat - '0'.toNat) else none
  isSpace c := c.isWhitespace

/-- Digits with single underscores between them; the flag asks for a digit next. -/
def readDigits (u : IntTables) : Bool → ℕ → Text → Option ℕ
  | needsDigit, n, [] => if needsDigit then none else some n
  | needsDigit, n, c :: t =>
    if c = '_' ∧ ¬ needsDigit then readDigits u true n t
    else (u.digit c).bind fun d => readDigits u false (10 * n + d) t

/-- `int(t)`: white space around, a sign, digits. `none` is the `ValueError`. -/
def parseInt (u : IntTables) (t : Text) : Option ℤ :=
  match (t.dropWhile u.isSpace).rdropWhile u.isSpace with
  | '-' :: t => (readDigits u true 0 t).map fun n => -n
  | '+' :: t => (readDigits u true 0 t).map fun n => n
  | t => (readDigits u true 0 t).map fun n => n

/-- `f"{n:06d}"`: the sign counts as one of the six. -/
def sixDigits (n : ℤ) : Text :=
  if n < 0 then '-' :: (numeral n.natAbs).leftpad 5 '0' else (numeral n.natAbs).leftpad 6 '0'

/-- `f"INV-{n:06d}"`. -/
def invoiceNumber (n : ℤ) : Text := "INV-".toList ++ sixDigits n

/-- `SELECT MAX(...)` in the database's order of texts. -/
def maxText (le : Text → Text → Bool) : List Text → Option Text
  | [] => none
  | s :: rest => some ((maxText le rest).elim s fun t => if le s t then t else s)

/-- The number the scan starts after: the greatest `INV-??????` read as an integer, else 0. -/
def highWater (le : Text → Text → Bool) (u : IntTables) (numbers : List Text) : ℤ :=
  match maxText le (numbers.filter (like "INV-______".toList)) with
  | none => 0
  | some top => (parseInt u (afterSep '-' top)).getD 0

/-- `next_invoice_number`: the first free of fifty candidates, else the month and a random token. -/
def nextInvoiceNumber (le : Text → Text → Bool) (u : IntTables) (numbers : List Text) (month token : Text) : Text :=
  let n := highWater le u numbers
  match (List.range 50).find? fun i : ℕ => invoiceNumber (n + 1 + i) ∉ numbers with
  | some i => invoiceNumber (n + 1 + i)
  | none => "INV-".toList ++ month ++ token

/-- `secrets.token_hex(2).upper()`. -/
def IsToken (token : Text) : Prop := token.length = 4 ∧ ∀ c ∈ token, c.isDigit ∨ ('A' ≤ c ∧ c ≤ 'F')

/-! ### Sequential numbers -/

/-- `m` is the largest number in use, 0 when none is. -/
structure IsHighest (numbers : List Text) (m : ℕ) : Prop where
  used : invoiceNumber m ∈ numbers ∨ m = 0
  above : ∀ n : ℕ, invoiceNumber n ∈ numbers → n ≤ m

theorem leftpad_injective (width : ℕ) {m n : ℕ} (h : (numeral m).leftpad width '0' = (numeral n).leftpad width '0') :
    m = n := by
  have hread : ∀ k : ℕ, Nat.ofDigitChars 10 ((numeral k).leftpad width '0') 0 = k := by
    intro k
    rw [List.leftpad, Nat.ofDigitChars_append, Nat.ofDigitChars_replicate_zero, Nat.mul_zero]
    exact Nat.ofDigitChars_ten_toDigits
  rw [← hread m, h, hread n]

theorem minus_notMem_leftpad (width n : ℕ) : '-' ∉ (numeral n).leftpad width '0' := by
  rw [List.leftpad, List.mem_append, not_or]
  exact ⟨fun h => absurd (List.eq_of_mem_replicate h) (by decide), notMem_numeral (by decide) n⟩

theorem invoiceNumber_injective : Function.Injective invoiceNumber := by
  intro i j h
  have hdigits : sixDigits i = sixDigits j := List.append_cancel_left h
  unfold sixDigits at hdigits
  split_ifs at hdigits with hi hj hj
  · have habs := leftpad_injective 5 (List.cons.inj hdigits).2
    omega
  · exact absurd (hdigits ▸ List.mem_cons_self) (minus_notMem_leftpad 6 _)
  · exact absurd (hdigits ▸ List.mem_cons_self) (minus_notMem_leftpad 6 _)
  · have habs := leftpad_injective 6 hdigits
    omega

theorem IsHighest.succ_free {numbers : List Text} {m : ℕ} (h : IsHighest numbers m) :
    invoiceNumber (m + 1) ∉ numbers := by
  intro hmem
  have hle := h.above (m + 1) (by exact_mod_cast hmem)
  omega

/-! ### When the highest number is followed -/

/-- The scan starts at most fifty before the number after `m`, and everything up to `m` is taken. -/
structure Reaches (numbers : List Text) (start : ℤ) (m : ℕ) : Prop where
  low : start ≤ m
  near : (m : ℤ) < start + 50
  taken : ∀ k : ℤ, start < k → k ≤ m → invoiceNumber k ∈ numbers

section Scan
variable {le : Text → Text → Bool} {u : IntTables} {numbers : List Text} {month : Text} {m : ℕ}

/-- The scan stops at the first free candidate. -/
theorem nextInvoiceNumber_of_reaches (hm : IsHighest numbers m) (h : Reaches numbers (highWater le u numbers) m)
    (month token : Text) : nextInvoiceNumber le u numbers month token = invoiceNumber (m + 1) := by
  obtain ⟨i, hi⟩ : ∃ i : ℕ, (m : ℤ) = highWater le u numbers + i :=
    ⟨(m - highWater le u numbers).toNat, by have := h.low; omega⟩
  have hlast : highWater le u numbers + 1 + i = m + 1 := by omega
  have hfind : (List.range 50).find? (fun i : ℕ => invoiceNumber (highWater le u numbers + 1 + i) ∉ numbers) = some i := by
    rw [List.find?_range_eq_some]
    refine ⟨?_, ?_, fun j hj => ?_⟩
    · rw [hlast]
      simpa using hm.succ_free
    · have hnear := h.near
      exact List.mem_range.mpr (by omega)
    · simpa using h.taken (highWater le u numbers + 1 + j) (by omega) (by omega)
  unfold nextInvoiceNumber
  simp only
  rw [hfind]
  exact congrArg invoiceNumber hlast

theorem isToken_zeros : IsToken (List.replicate 4 '0') :=
  ⟨rfl, fun _ hc => .inl (List.eq_of_mem_replicate hc ▸ rfl)⟩

theorem isToken_effs : IsToken (List.replicate 4 'F') := by
  refine ⟨rfl, fun c hc => .inr ?_⟩
  rw [List.eq_of_mem_replicate hc]
  decide

/-- A scan that gives the number after `m` started below it and found everything between taken. -/
theorem reaches_of_nextInvoiceNumber
    (h : ∀ token, IsToken token → nextInvoiceNumber le u numbers month token = invoiceNumber (m + 1)) :
    Reaches numbers (highWater le u numbers) m := by
  unfold nextInvoiceNumber at h
  simp only at h
  cases hfind : (List.range 50).find? fun i : ℕ => invoiceNumber (highWater le u numbers + 1 + i) ∉ numbers with
  | none =>
    -- two draws of the token give two numbers
    simp only [hfind] at h
    have heq := (h _ isToken_zeros).trans (h _ isToken_effs).symm
    exact absurd (List.append_cancel_left heq) (by decide)
  | some i =>
    simp only [hfind] at h
    have hi := invoiceNumber_injective (h _ isToken_zeros)
    rw [List.find?_range_eq_some] at hfind
    obtain ⟨-, hlt, hbefore⟩ := hfind
    have hlt' := List.mem_range.mp hlt
    refine ⟨by omega, by omega, fun k hlow hhigh => ?_⟩
    obtain ⟨j, hj⟩ : ∃ j : ℕ, k = highWater le u numbers + 1 + j :=
      ⟨(k - (highWater le u numbers + 1)).toNat, by omega⟩
    have htaken := hbefore j (by omega)
    rw [hj]
    simpa using htaken

/-- The highest number is followed exactly when the scan reaches it: the greatest text of the shape reads as a number
    at most fifty below the one after it, and every number in between is taken. -/
theorem next_invoice_number_iff (le : Text → Text → Bool) (u : IntTables) (numbers : List Text) (month : Text)
    (m : ℕ) (hm : IsHighest numbers m) :
    (∀ token, IsToken token → nextInvoiceNumber le u numbers month token = invoiceNumber (m + 1)) ↔
      Reaches numbers (highWater le u numbers) m :=
  ⟨reaches_of_nextInvoiceNumber, fun h token _ => nextInvoiceNumber_of_reaches hm h month token⟩

end Scan

/-- A sequential number and an imported one of the same shape. -/
def hexBeside : List Text := ["INV-000007".toList, "INV-A1B2C3".toList]

theorem isHighest_hexBeside : IsHighest hexBeside 7 := by
  refine ⟨.inl (by decide), fun n hn => ?_⟩
  rcases List.mem_cons.mp hn with hseven | hn
  · have heq : invoiceNumber n = invoiceNumber 7 := hseven.trans (by decide)
    exact_mod_cast (invoiceNumber_injective heq).le
  · have heq : invoiceNumber n = "INV-".toList ++ "A1B2C3".toList := List.mem_singleton.mp hn
    have hdigits : sixDigits n = "A1B2C3".toList := List.append_cancel_left heq
    have hA : 'A' ∈ sixDigits n := hdigits ▸ List.mem_cons_self
    rw [sixDigits, if_neg (by omega), List.leftpad, List.mem_append] at hA
    rcases hA with hA | hA
    · exact absurd (List.eq_of_mem_replicate hA) (by decide)
    · exact absurd hA (notMem_numeral (by decide) _)

theorem next_invoice_number_hexBeside :
    (∀ token, IsToken token →
      nextInvoiceNumber (fun s t => s ≤ t) asciiTables hexBeside "2610".toList token = invoiceNumber (7 + 1)) ↔
    Reaches hexBeside (highWater (fun s t => s ≤ t) asciiTables hexBeside) 7 :=
  next_invoice_number_iff (fun s t => s ≤ t) asciiTables hexBeside "2610".toList 7 isHighest_hexBeside

/-- The imported number sorts last and reads as no number, so the count starts again at one. -/
theorem hex_number_restarts_count :
    IsHighest hexBeside 7 ∧
      nextInvoiceNumber (fun s t => s ≤ t) asciiTables hexBeside "2610".toList "00FF".toList = "INV-000001".toList ∧
      nextInvoiceNumber (fun s t => s ≤ t) asciiTables hexBeside "2610".toList "00FF".toList ≠ invoiceNumber (7 + 1) := by
  refine ⟨isHighest_hexBeside, by decide +kernel, by decide +kernel⟩

end Gdx
