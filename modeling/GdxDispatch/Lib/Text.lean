import Mathlib

/-! Texts as character lists, fields joined by a separator, decimal numerals and SQL `LIKE`.

    A key built by joining fields with a separator is read back field by field: as long as no field
    holds the separator, two joined texts agree exactly when their fields do, and one is a prefix of
    the other exactly when the first fields agree and the rests are prefixes. `LIKE` is the SQL
    pattern language (`%` any run, `_` any one character, a backslash escapes the next character);
    an escaped literal followed by `%` matches exactly the texts that start with the literal. -/

namespace Lib

abbrev Text := List Char

instance : LawfulBEq Text := List.instLawfulBEq

/-- `head`, the separator, and the rest. -/
def sepCons (sep : Char) (head rest : Text) : Text := head ++ sep :: rest

/-- Reading a separated text back is unambiguous when the heads do not hold the separator. -/
theorem sepCons_inj {sep : Char} {a b r s : Text} (ha : sep ∉ a) (hb : sep ∉ b)
    (h : sepCons sep a r = sepCons sep b s) : a = b ∧ r = s := by
  unfold sepCons at h
  induction a generalizing b with
  | nil =>
    cases b with
    | nil => simpa using h
    | cons y ys =>
      simp only [List.nil_append, List.cons_append, List.cons.injEq] at h
      exact absurd (List.mem_cons.mpr (Or.inl h.1)) hb
  | cons x xs ih =>
    cases b with
    | nil =>
      simp only [List.nil_append, List.cons_append, List.cons.injEq] at h
      exact absurd (List.mem_cons.mpr (Or.inl h.1.symm)) ha
    | cons y ys =>
      simp only [List.cons_append, List.cons.injEq] at h
      have hrec := ih (fun hm => ha (List.mem_cons_of_mem _ hm))
        (fun hm => hb (List.mem_cons_of_mem _ hm)) h.2
      exact ⟨by rw [h.1, hrec.1], hrec.2⟩

theorem sepCons_prefix_iff {sep : Char} {a b r s : Text} (ha : sep ∉ a) (hb : sep ∉ b) :
    sepCons sep a r <+: sepCons sep b s ↔ a = b ∧ r <+: s := by
  constructor
  · rintro ⟨t, ht⟩
    have hcat : sepCons sep a (r ++ t) = sepCons sep b s := by
      simpa [sepCons, List.append_assoc] using ht
    obtain ⟨hab, hrs⟩ := sepCons_inj ha hb hcat
    exact ⟨hab, t, hrs⟩
  · rintro ⟨rfl, t, rfl⟩
    exact ⟨t, by simp [sepCons, List.append_assoc]⟩

/-- The text before the first separator. -/
def beforeSep (sep : Char) (t : Text) : Text := t.takeWhile (· != sep)

/-- The text after the first separator. -/
def afterSep (sep : Char) (t : Text) : Text := (t.dropWhile (· != sep)).tail

theorem beforeSep_sepCons {sep : Char} {a : Text} (r : Text) (h : sep ∉ a) :
    beforeSep sep (sepCons sep a r) = a := by
  have hall : ∀ c ∈ a, (c != sep) = true := fun c hc => by
    simpa using fun heq : c = sep => h (heq ▸ hc)
  rw [beforeSep, sepCons, List.takeWhile_append_of_pos hall]
  simp

theorem afterSep_sepCons {sep : Char} {a : Text} (r : Text) (h : sep ∉ a) :
    afterSep sep (sepCons sep a r) = r := by
  have hall : ∀ c ∈ a, (c != sep) = true := fun c hc => by
    simpa using fun heq : c = sep => h (heq ▸ hc)
  rw [afterSep, sepCons, List.dropWhile_append_of_pos hall]
  simp

/-! ### Decimal numerals -/

/-- The decimal numeral of `n`. -/
def numeral (n : ℕ) : Text := Nat.toDigits 10 n

theorem numeral_injective : Function.Injective numeral := by
  intro m n h
  have hm : Nat.ofDigitChars 10 (numeral m) 0 = m := Nat.ofDigitChars_ten_toDigits
  have hn : Nat.ofDigitChars 10 (numeral n) 0 = n := Nat.ofDigitChars_ten_toDigits
  rw [← hm, ← hn, h]

@[simp] theorem numeral_inj {m n : ℕ} : numeral m = numeral n ↔ m = n :=
  numeral_injective.eq_iff

theorem isDigit_of_mem_numeral {n : ℕ} {c : Char} (h : c ∈ numeral n) : c.isDigit = true :=
  Nat.isDigit_of_mem_toDigits (by decide) (by decide) h

theorem notMem_numeral {c : Char} (hc : c.isDigit = false) (n : ℕ) : c ∉ numeral n := by
  intro h
  rw [isDigit_of_mem_numeral h] at hc
  exact Bool.noConfusion hc

theorem numeral_ne_nil (n : ℕ) : numeral n ≠ [] := Nat.toDigits_ne_nil

/-- A signed numeral: `m` or `p`, then the decimal digits. -/
def signedNumeral (i : ℤ) : Text := (if i < 0 then 'm' else 'p') :: numeral i.natAbs

theorem signedNumeral_injective : Function.Injective signedNumeral := by
  intro i j h
  simp only [signedNumeral, List.cons.injEq, numeral_inj] at h
  obtain ⟨hsign, habs⟩ := h
  split_ifs at hsign <;> first | omega | exact absurd hsign (by decide)

theorem notMem_signedNumeral {c : Char} (hc : c.isDigit = false) (hm : c ≠ 'm') (hp : c ≠ 'p') (i : ℤ) :
    c ∉ signedNumeral i := by
  intro h
  rcases List.mem_cons.mp h with h | h
  · split_ifs at h
    · exact hm h
    · exact hp h
  · exact notMem_numeral hc _ h

/-- Numbers spelled one after another, each closed by a semicolon. -/
def spell : List ℤ → Text
  | [] => []
  | i :: is => sepCons ';' (signedNumeral i) (spell is)

theorem spell_injective : ∀ {is js : List ℤ}, spell is = spell js → is = js
  | [], [], _ => rfl
  | [], j :: js, h => by simp [spell, sepCons] at h
  | i :: is, [], h => by simp [spell, sepCons] at h
  | i :: is, j :: js, h => by
    have hno : ∀ k, ';' ∉ signedNumeral k := notMem_signedNumeral (by decide) (by decide) (by decide)
    obtain ⟨hij, hrest⟩ := sepCons_inj (hno i) (hno j) h
    rw [signedNumeral_injective hij, spell_injective hrest]

theorem notMem_spell {c : Char} (hc : c.isDigit = false) (hm : c ≠ 'm') (hp : c ≠ 'p') (hs : c ≠ ';') :
    ∀ is : List ℤ, c ∉ spell is
  | [] => by simp [spell]
  | i :: is => by
    simp only [spell, sepCons, List.mem_append, List.mem_cons, not_or]
    exact ⟨notMem_signedNumeral hc hm hp i, hs, notMem_spell hc hm hp hs is⟩

/-! ### SQL `LIKE` -/

/-- One element of a `LIKE` pattern: a literal character, any one character, any run. -/
inductive Tok where
  | lit (c : Char)
  | one
  | any
  deriving DecidableEq

/-- Pattern text to pattern elements; a backslash takes the next character literally. -/
def tokens : Text → List Tok
  | [] => []
  | '\\' :: c :: rest => .lit c :: tokens rest
  | c :: rest => (if c = '%' then .any else if c = '_' then .one else .lit c) :: tokens rest

/-- Whether the pattern elements match the whole text. -/
def matchToks : List Tok → Text → Bool
  | [], s => s.isEmpty
  | .lit _ :: _, [] => false
  | .lit c :: p, x :: s => x == c && matchToks p s
  | .one :: _, [] => false
  | .one :: p, _ :: s => matchToks p s
  | .any :: p, s => s.tails.any (matchToks p)

/-- `s LIKE pattern`. -/
def like (pattern s : Text) : Bool := matchToks (tokens pattern) s

/-- Every occurrence of `c` replaced by `r`, the others kept. -/
def replaceChar (c : Char) (r : Text) (s : Text) : Text :=
  s.flatMap (fun x => if x = c then r else [x])

theorem matchToks_any (s : Text) : matchToks [.any] s = true := by
  simp only [matchToks, List.any_eq_true, List.mem_tails]
  exact ⟨[], List.nil_suffix, rfl⟩

/-- Literal elements followed by "any run" match exactly the texts that start with them. -/
theorem matchToks_lits_any : ∀ (raw s : Text),
    matchToks (raw.map .lit ++ [.any]) s = true ↔ raw <+: s
  | [], s => by simp [matchToks_any]
  | c :: raw, [] => by simp [matchToks]
  | c :: raw, x :: s => by
    simp only [List.map_cons, List.cons_append, matchToks, Bool.and_eq_true, beq_iff_eq,
      matchToks_lits_any raw s, List.cons_prefix_cons]
    exact ⟨fun h => ⟨h.1.symm, h.2⟩, fun h => ⟨h.1.symm, h.2⟩⟩

/-- A pattern character that is not special stands for itself. -/
theorem tokens_cons_plain {c : Char} (h1 : c ≠ '\\') (h2 : c ≠ '%') (h3 : c ≠ '_') (rest : Text) :
    tokens (c :: rest) = .lit c :: tokens rest := by
  rw [tokens]
  · rw [if_neg h2, if_neg h3]
  · rintro c' rest' rfl
    exact absurd rfl h1

theorem tokens_escaped (c : Char) (rest : Text) :
    tokens ('\\' :: c :: rest) = .lit c :: tokens rest := rfl

/-- A text without special characters, read as a pattern, is its own literal. -/
theorem tokens_plain_append : ∀ (raw : Text), (∀ c ∈ raw, c ≠ '\\' ∧ c ≠ '%' ∧ c ≠ '_') →
    ∀ rest, tokens (raw ++ rest) = raw.map .lit ++ tokens rest
  | [], _, rest => rfl
  | c :: raw, h, rest => by
    obtain ⟨h1, h2, h3⟩ := h c (List.mem_cons_self ..)
    rw [List.cons_append, tokens_cons_plain h1 h2 h3,
      tokens_plain_append raw (fun c hc => h c (List.mem_cons_of_mem _ hc)) rest]
    rfl

/-- Literal elements take their own text off the front. -/
theorem matchToks_lits_append (p : List Tok) : ∀ (raw s : Text),
    matchToks (raw.map .lit ++ p) s = true ↔ ∃ t, s = raw ++ t ∧ matchToks p t = true
  | [], s => by simp
  | c :: raw, [] => by simp [matchToks]
  | c :: raw, x :: s => by
    simp only [List.map_cons, List.cons_append, matchToks, Bool.and_eq_true, beq_iff_eq,
      matchToks_lits_append p raw s, List.cons.injEq]
    constructor
    · rintro ⟨rfl, t, rfl, ht⟩; exact ⟨t, ⟨rfl, rfl⟩, ht⟩
    · rintro ⟨t, ⟨rfl, rfl⟩, ht⟩; exact ⟨rfl, t, rfl, ht⟩

/-- A text none of whose characters is special in a pattern. -/
def PatternPlain (raw : Text) : Prop := ∀ c ∈ raw, c ≠ '\\' ∧ c ≠ '%' ∧ c ≠ '_'

instance (raw : Text) : Decidable (PatternPlain raw) := List.decidableBAll _ raw

theorem like_plain_append {raw : Text} (h : PatternPlain raw) (pattern s : Text) :
    like (raw ++ pattern) s = true ↔ ∃ t, s = raw ++ t ∧ like pattern t = true := by
  unfold like
  rw [tokens_plain_append raw h, matchToks_lits_append]

theorem like_plain_prefix {raw : Text} (h : PatternPlain raw) (s : Text) :
    like (raw ++ ['%']) s = true ↔ raw <+: s := by
  unfold like
  rw [tokens_plain_append raw h]
  exact matchToks_lits_any raw s

theorem patternPlain_numeral (n : ℕ) : PatternPlain (numeral n) := by
  intro c hc
  have hd := isDigit_of_mem_numeral hc
  refine ⟨?_, ?_, ?_⟩ <;> (rintro rfl; exact absurd hd (by decide))

end Lib
