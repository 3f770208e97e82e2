import GdxDispatch.Lib.Text
import Mathlib.Tactic.Linarith

/-! Texts compared character by character.

    A text cut in two at the same place compares by the first part and then by the second, so numbers written with
    leading zeros to one width compare as numbers. -/

namespace Lib

/-- The first parts decide, and where they are equal the second ones. -/
theorem append_lt_append_iff {a b : Text} (hlength : a.length = b.length) (r s : Text) :
    a ++ r < b ++ s ↔ a < b ∨ (a = b ∧ r < s) := by
  induction a generalizing b with
  | nil =>
    rw [List.length_nil, eq_comm, List.length_eq_zero_iff] at hlength
    subst hlength
    simp
  | cons x a ih =>
    cases b with
    | nil => simp at hlength
    | cons y b =>
      rw [List.length_cons, List.length_cons, Nat.add_right_cancel_iff] at hlength
      rw [List.cons_append, List.cons_append, List.cons_lt_cons_iff, List.cons_lt_cons_iff, ih hlength]
      constructor
      · rintro (hlt | ⟨rfl, hlt | ⟨rfl, hlt⟩⟩)
        · exact .inl (.inl hlt)
        · exact .inl (.inr ⟨rfl, hlt⟩)
        · exact .inr ⟨rfl, hlt⟩
      · rintro ((hlt | ⟨rfl, hlt⟩) | ⟨heq, hlt⟩)
        · exact .inl hlt
        · exact .inr ⟨rfl, .inl hlt⟩
        · obtain ⟨rfl, rfl⟩ := List.cons.inj heq
          exact .inr ⟨rfl, .inr ⟨rfl, hlt⟩⟩

/-- A number with leading zeros up to the width. -/
def paddedNumeral (width n : ℕ) : Text := (numeral n).leftpad width '0'

theorem numeral_length_le {n width : ℕ} (hwidth : 0 < width) (h : n < 10 ^ width) : (numeral n).length ≤ width :=
  (Nat.length_toDigits_le_iff (by decide) hwidth).mpr h

theorem paddedNumeral_length {width n : ℕ} (hwidth : 0 < width) (h : n < 10 ^ width) :
    (paddedNumeral width n).length = width := by
  have hle := numeral_length_le hwidth h
  unfold paddedNumeral List.leftpad
  rw [List.length_append, List.length_replicate]
  omega

/-- The last digit stands alone. -/
theorem paddedNumeral_succ {width n : ℕ} (hwidth : 0 < width) (h : n < 10 ^ (width + 1)) :
    paddedNumeral (width + 1) n = paddedNumeral width (n / 10) ++ [Nat.digitChar (n % 10)] := by
  unfold paddedNumeral numeral
  rcases lt_or_ge n 10 with hlt | hge
  · have hzero : n / 10 = 0 := Nat.div_eq_of_lt hlt
    obtain ⟨w, rfl⟩ := Nat.exists_eq_succ_of_ne_zero hwidth.ne'
    rw [Nat.toDigits_of_lt_base hlt, hzero, Nat.toDigits_zero, Nat.mod_eq_of_lt hlt]
    simp only [List.leftpad, List.length_singleton, Nat.add_sub_cancel, Nat.succ_eq_add_one]
    rw [List.replicate_succ']
  · rw [Nat.toDigits_of_base_le (by decide) hge]
    simp only [List.leftpad, List.length_append, List.length_singleton, List.append_assoc]
    congr 2
    omega

theorem digitChar_lt_iff {m n : ℕ} (hm : m < 10) (hn : n < 10) : Nat.digitChar m < Nat.digitChar n ↔ m < n := by
  have hcode : (Nat.digitChar m).toNat < (Nat.digitChar n).toNat ↔ m < n := by
    rw [Nat.toNat_digitChar_of_lt_ten hm, Nat.toNat_digitChar_of_lt_ten hn]
    omega
  exact hcode

/-- Numbers of one width compare as numbers. -/
theorem paddedNumeral_lt_iff {width m n : ℕ} (hwidth : 0 < width) (hm : m < 10 ^ width) (hn : n < 10 ^ width) :
    paddedNumeral width m < paddedNumeral width n ↔ m < n := by
  induction width, hwidth using Nat.le_induction generalizing m n with
  | base =>
    have hm' : m < 10 := by simpa using hm
    have hn' : n < 10 := by simpa using hn
    unfold paddedNumeral numeral
    rw [Nat.toDigits_of_lt_base hm', Nat.toDigits_of_lt_base hn']
    simp only [List.leftpad, List.length_singleton, Nat.sub_self, List.replicate_zero, List.nil_append]
    rw [List.cons_lt_cons_iff, digitChar_lt_iff hm' hn']
    simp
  | succ w hw ih =>
    have hpow : 10 ^ (w + 1) = 10 * 10 ^ w := by ring
    have hm' : m / 10 < 10 ^ w := by omega
    have hn' : n / 10 < 10 ^ w := by omega
    have hone : ∀ {c d : Char}, ([c] : Text) < [d] ↔ c < d := by
      intro c d
      rw [List.cons_lt_cons_iff]
      simp
    have heq : paddedNumeral w (m / 10) = paddedNumeral w (n / 10) ↔ m / 10 = n / 10 := by
      constructor
      · intro h
        by_contra hne
        rcases Nat.lt_or_gt_of_ne hne with hlt | hgt
        · exact absurd h ((ih hm' hn').mpr hlt).ne
        · exact absurd h.symm ((ih hn' hm').mpr hgt).ne
      · exact fun h => congrArg _ h
    rw [paddedNumeral_succ hw hm, paddedNumeral_succ hw hn,
      append_lt_append_iff (by rw [paddedNumeral_length hw hm', paddedNumeral_length hw hn']),
      ih hm' hn', heq, hone, digitChar_lt_iff (Nat.mod_lt _ (by decide)) (Nat.mod_lt _ (by decide))]
    omega

theorem paddedNumeral_inj {width m n : ℕ} (hwidth : 0 < width) (hm : m < 10 ^ width) (hn : n < 10 ^ width) :
    paddedNumeral width m = paddedNumeral width n ↔ m = n := by
  constructor
  · intro h
    by_contra hne
    rcases Nat.lt_or_gt_of_ne hne with hlt | hgt
    · exact absurd h ((paddedNumeral_lt_iff hwidth hm hn).mpr hlt).ne
    · exact absurd h.symm ((paddedNumeral_lt_iff hwidth hn hm).mpr hgt).ne
  · exact fun h => congrArg _ h

end Lib
