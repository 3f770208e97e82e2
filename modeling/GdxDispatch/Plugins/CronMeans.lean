import GdxDispatch.Plugins.Cron

/-! What `parse_cron` accepts and what it makes of it.

    The parser reads exactly the lenient dialect, where a slash may stand with nothing behind it and any decimal digits
    count, up to the length `int` reads. On an expression of either dialect it agrees with the documented one exactly when
    the expression uses none of these liberties. -/

namespace Gdx.Cron

open Lib

/-! ### Numbers -/

section Numbers
variable {py : PyChars} {f : CronField} {R : Reading} {t : Text} {n : ℕ}

theorem digitsValue_isSome {digit : Char → Option ℕ} (h : digitsValue digit t = some n) : ∀ c ∈ t, (digit c).isSome = true := by
  unfold digitsValue at h
  generalize 0 = acc at h
  induction t generalizing acc with
  | nil => simp
  | cons c t ih =>
    rw [List.foldlM_cons] at h
    cases hc : digit c with
    | none =>
      rw [hc] at h
      cases h
    | some d =>
      rw [hc] at h
      rw [List.forall_mem_cons]
      exact ⟨by rw [hc]; rfl, ih _ h⟩

theorem digitsValue_congr {digit digit' : Char → Option ℕ} (h : ∀ c ∈ t, digit c = digit' c) :
    digitsValue digit t = digitsValue digit' t := by
  unfold digitsValue
  generalize 0 = acc
  induction t generalizing acc with
  | nil => rfl
  | cons c t ih =>
    rw [List.forall_mem_cons] at h
    rw [List.foldlM_cons, List.foldlM_cons, h.1]
    congr 1
    funext acc'
    exact ih h.2 acc'

/-- Characters that take a list element apart. -/
def separators : List Char := ['/', '-', ',', '*']

/-- A reading in which no separator is a digit. -/
def Reading.Plain (R : Reading) : Prop := ∀ c ∈ separators, R.digit c = none

theorem documented_plain : documented.Plain := by
  intro c hc
  fin_cases hc <;> rfl

theorem lenient_plain (py : PyChars) : (lenient py).Plain := by
  intro c hc
  have hascii : c.toNat < 128 := by fin_cases hc <;> decide
  change py.decimal c = none
  rw [(py.ascii c hascii).2]
  exact documented_plain c hc

theorem name_letters {name : String} {v : ℕ} (h : (name, v) ∈ f.names) :
    ∀ c ∈ name.toList, c.isLower = true ∧ c ≠ 'k' := by
  intro c hc
  have hname := List.all_eq_true.mp f.letters _ h
  rw [Bool.and_eq_true] at hname
  have hall := List.all_eq_true.mp hname.2 c hc
  simpa using hall

theorem name_ne_nil {name : String} {v : ℕ} (h : (name, v) ∈ f.names) : name.toList ≠ [] := by
  have hname := List.all_eq_true.mp f.letters _ h
  rw [Bool.and_eq_true, beq_iff_eq] at hname
  exact List.ne_nil_of_length_pos (hname.1 ▸ by decide)

theorem name_length {name : String} {v : ℕ} (h : (name, v) ∈ f.names) : name.toList.length = 3 := by
  have hname := List.all_eq_true.mp f.letters _ h
  rw [Bool.and_eq_true, beq_iff_eq] at hname
  exact hname.1

/-- A number holds no separator. -/
theorem numberOf_plain (hplain : R.Plain) (h : R.NumberOf f t n) : ∀ c ∈ t, c ∉ separators := by
  intro c hc hsep
  rcases h with ⟨name, hname, hlower⟩ | ⟨⟨-, -, hvalue⟩, -⟩
  · have hmem : c.toLower ∈ name.toList := by
      rw [← hlower]
      exact List.mem_map_of_mem hc
    have hletter := (name_letters hname _ hmem).1
    fin_cases hsep <;> revert hletter <;> decide
  · have hsome := digitsValue_isSome hvalue c hc
    rw [hplain c hsep] at hsome
    cases hsome

theorem numeral_plain (hplain : R.Plain) (h : R.Numeral t n) : ∀ c ∈ t, c ∉ separators := by
  intro c hc hsep
  have hsome := digitsValue_isSome h.2.2 c hc
  rw [hplain c hsep] at hsome
  cases hsome

theorem all_isDigit_of_numeral (h : (lenient py).Numeral t n) : t.all py.isDigit = true :=
  List.all_eq_true.mpr fun c hc => py.isDigit_of_decimal c (digitsValue_isSome h.2.2 c hc)

/-- `isdigit` and `int` together read the numerals. -/
theorem int_iff : (py.isdigit t = true ∧ py.int t = some n) ↔ (lenient py).Numeral t n := by
  unfold PyChars.isdigit PyChars.int
  constructor
  · rintro ⟨hdigit, hint⟩
    rw [Bool.and_eq_true, Bool.not_eq_true', List.isEmpty_eq_false_iff] at hdigit
    split at hint
    · rename_i hfits
      exact ⟨hdigit.1, hfits, hint⟩
    · cases hint
  · intro h
    have hall := all_isDigit_of_numeral h
    obtain ⟨hne, hfits, hvalue⟩ := h
    refine ⟨?_, ?_⟩
    · rw [hall, Bool.and_true, Bool.not_eq_true', List.isEmpty_eq_false_iff]
      exact hne
    · have hfits' : t.length ≤ MAX_STR_DIGITS := hfits
      rw [if_pos hfits']
      exact hvalue

/-- A small letter is in ASCII and no digit. -/
theorem letter_spec {c : Char} (h : c.isLower = true) : c.toNat < 128 ∧ c.isDigit = false := by
  simp only [Char.isLower, Bool.and_eq_true, decide_eq_true_eq, UInt32.le_iff_toNat_le, ge_iff_le] at h
  have ha : 'a'.val.toNat = 97 := rfl
  have hz : 'z'.val.toNat = 122 := rfl
  have hcode : c.toNat = c.val.toNat := rfl
  refine ⟨by omega, ?_⟩
  rw [Bool.eq_false_iff]
  intro hdigit
  simp only [Char.isDigit, Bool.and_eq_true, decide_eq_true_eq, UInt32.le_iff_toNat_le, ge_iff_le] at hdigit
  have h9 : '9'.val.toNat = 57 := rfl
  omega

theorem trim_of_no_space {isSpace : Char → Bool} (h : ∀ c ∈ t, isSpace c = false) : trim isSpace t = t := by
  have hdrop : ∀ {l : Text}, (∀ c ∈ l, isSpace c = false) → l.dropWhile isSpace = l := by
    intro l hl
    cases l with
    | nil => rfl
    | cons c l =>
      rw [List.dropWhile_cons_of_neg]
      rw [hl c List.mem_cons_self]
      decide
  unfold trim
  rw [hdrop h, hdrop (fun c hc => h c (List.mem_reverse.mp hc)), List.reverse_reverse]

/-- A number of a field is a name or a numeral within the range. -/
theorem value_iff (hspace : ∀ c ∈ t, py.isSpace c = false) : value py f t = some n ↔ (lenient py).NumberOf f t n := by
  unfold value
  rw [trim_of_no_space hspace]
  simp only
  cases hfind : f.names.find? (·.1.toList = py.lower t) with
  | some p =>
    obtain ⟨name, v⟩ := p
    have hmem := List.mem_of_find?_eq_some hfind
    have hlower : py.lower t = name.toList := by
      have hfound := List.find?_some hfind
      simp only [decide_eq_true_eq] at hfound
      exact hfound.symm
    have hmap := (py.lower_name t name.toList (name_letters hmem)).mp hlower
    simp only [Option.some.injEq]
    constructor
    · rintro rfl
      exact .inl ⟨name, hmem, hmap⟩
    · rintro (⟨name', hmem', hmap'⟩ | ⟨hnumeral, -⟩)
      · have hname : name = name' := String.toList_inj.mp (hmap.symm.trans hmap')
        subst hname
        have heq := List.inj_on_of_nodup_map f.distinct hmem hmem' rfl
        exact congrArg Prod.snd heq
      · -- a numeral is no name: its characters are digits
        have hall := all_isDigit_of_numeral hnumeral
        have hsame := py.lower_digits t (.inr hall)
        obtain ⟨c, hc⟩ := List.exists_mem_of_ne_nil t hnumeral.1
        have hdigit := List.all_eq_true.mp hall c hc
        rw [hsame] at hlower
        rw [hlower] at hc
        obtain ⟨hascii, hno⟩ := letter_spec (name_letters hmem c hc).1
        rw [(py.ascii c hascii).1, hno] at hdigit
        cases hdigit
  | none =>
    have hnone : ∀ name, (name, n) ∈ f.names → t.map Char.toLower ≠ name.toList := by
      intro name hmem hmap
      have hlower := (py.lower_name t name.toList (name_letters hmem)).mpr hmap
      have := List.find?_eq_none.mp hfind _ hmem
      simp [hlower] at this
    simp only
    constructor
    · intro h
      right
      by_cases hdigit : py.isdigit (py.lower t) = true
      · have hall : (py.lower t).all py.isDigit = true := by
          unfold PyChars.isdigit at hdigit
          rw [Bool.and_eq_true] at hdigit
          exact hdigit.2
        rw [py.lower_digits t (.inl hall)] at h hdigit
        rw [if_pos hdigit, Option.filter_eq_some_iff] at h
        have hrange := h.2
        simp only [Bool.decide_and, Bool.and_eq_true, decide_eq_true_eq] at hrange
        exact ⟨int_iff.mp ⟨hdigit, h.1⟩, hrange⟩
      · rw [if_neg hdigit] at h
        cases h
    · rintro (⟨name, hmem, hmap⟩ | ⟨hnumeral, hrange⟩)
      · exact absurd hmap (hnone name hmem)
      · have hall := all_isDigit_of_numeral hnumeral
        obtain ⟨hdigit, hint⟩ := int_iff.mpr hnumeral
        rw [py.lower_digits t (.inr hall), if_pos hdigit, hint]
        simp [Option.filter, hrange]

theorem stepOf_iff : stepOf py t = some n ↔ (t = [] ∧ n = 1) ∨ ((lenient py).Numeral t n ∧ 1 ≤ n) := by
  unfold stepOf
  by_cases hempty : t = []
  · rw [if_pos hempty]
    constructor
    · intro h
      exact .inl ⟨hempty, (Option.some.inj h).symm⟩
    · rintro (⟨-, rfl⟩ | ⟨hnumeral, -⟩)
      · rfl
      · exact absurd hempty hnumeral.1
  · rw [if_neg hempty]
    constructor
    · intro h
      right
      split at h
      · rename_i hdigit
        rw [Option.filter_eq_some_iff] at h
        exact ⟨int_iff.mp ⟨hdigit, h.1⟩, by simpa using h.2⟩
      · cases h
    · rintro (⟨h, -⟩ | ⟨hnumeral, hpos⟩)
      · exact absurd h hempty
      · obtain ⟨hdigit, hint⟩ := int_iff.mpr hnumeral
        rw [if_pos hdigit, hint]
        simp [Option.filter, hpos]

end Numbers

/-! ### Elements of a list -/

section Elements
variable {py : PyChars} {f : CronField} {R : Reading}

/-- `str.partition`: a text without the separator, or what stands before the first one and after it. -/
theorem partition_cases (sep : Char) (t : Text) :
    (sep ∉ t ∧ beforeSep sep t = t ∧ afterSep sep t = []) ∨
      (sep ∉ beforeSep sep t ∧ t = beforeSep sep t ++ sep :: afterSep sep t) := by
  by_cases hmem : sep ∈ t
  · right
    obtain ⟨before, after, rfl, hbefore⟩ := List.eq_append_cons_of_mem hmem
    have h₁ : beforeSep sep (before ++ sep :: after) = before := beforeSep_sepCons after hbefore
    have h₂ : afterSep sep (before ++ sep :: after) = after := afterSep_sepCons after hbefore
    rw [h₁, h₂]
    exact ⟨hbefore, rfl⟩
  · left
    have hall : ∀ c ∈ t, (c != sep) = true := fun c hc => by
      simpa using fun heq : c = sep => hmem (heq ▸ hc)
    unfold beforeSep afterSep
    rw [List.takeWhile_eq_self_iff.mpr hall, List.dropWhile_eq_nil_iff.mpr hall]
    exact ⟨hmem, rfl, rfl⟩

theorem partition_append {sep : Char} {t s : Text} (h : sep ∉ t) :
    beforeSep sep (t ++ sep :: s) = t ∧ afterSep sep (t ++ sep :: s) = s :=
  ⟨beforeSep_sepCons s h, afterSep_sepCons s h⟩

theorem rangeOf_no_slash (hplain : R.Plain) {t : Text} {a b : ℕ} {single : Bool} (h : R.RangeOf f t a b single) :
    '/' ∉ t ∧ ',' ∉ t ∧ t ≠ [] := by
  have hslash : '/' ∈ separators := by decide
  have hcomma : ',' ∈ separators := by decide
  have hne : ∀ {t : Text} {n : ℕ}, R.NumberOf f t n → t ≠ [] := by
    rintro t n (⟨name, hname, hlower⟩ | ⟨hnumeral, -⟩)
    · rintro rfl
      exact name_ne_nil hname hlower.symm
    · exact hnumeral.1
  cases h with
  | star => decide
  | number h =>
    exact ⟨fun hc => numberOf_plain hplain h _ hc hslash, fun hc => numberOf_plain hplain h _ hc hcomma, hne h⟩
  | span ha hb hle =>
    refine ⟨fun hc => ?_, fun hc => ?_, by simp⟩
    · rcases List.mem_append.mp hc with hc | hc
      · exact numberOf_plain hplain ha _ hc hslash
      · rcases List.mem_cons.mp hc with hc | hc
        · cases hc
        · exact numberOf_plain hplain hb _ hc hslash
    · rcases List.mem_append.mp hc with hc | hc
      · exact numberOf_plain hplain ha _ hc hcomma
      · rcases List.mem_cons.mp hc with hc | hc
        · cases hc
        · exact numberOf_plain hplain hb _ hc hcomma

theorem numberOf_no_sep (hplain : R.Plain) {t : Text} {n : ℕ} (h : R.NumberOf f t n) : '-' ∉ t ∧ t ≠ ['*'] := by
  refine ⟨fun hc => numberOf_plain hplain h _ hc (by decide), ?_⟩
  rintro rfl
  exact numberOf_plain hplain h '*' List.mem_cons_self (by decide)

/-- The three shapes of a range, as the parser tells them apart. -/
theorem rangeOf_iff {t : Text} {a b : ℕ} {single : Bool} (hspace : ∀ c ∈ t, py.isSpace c = false) :
    (lenient py).RangeOf f t a b single ↔
      (t = ['*'] ∧ a = f.low ∧ b = f.high ∧ single = false) ∨
      (t ≠ ['*'] ∧ '-' ∈ t ∧ value py f (beforeSep '-' t) = some a ∧ value py f (afterSep '-' t) = some b ∧ a ≤ b ∧
        single = false) ∨
      (t ≠ ['*'] ∧ '-' ∉ t ∧ value py f t = some a ∧ b = a ∧ single = true) := by
  have hplain := lenient_plain py
  constructor
  · intro h
    cases h with
    | star => exact .inl ⟨rfl, rfl, rfl, rfl⟩
    | number h =>
      obtain ⟨hdash, hstar⟩ := numberOf_no_sep hplain h
      exact .inr (.inr ⟨hstar, hdash, (value_iff hspace).mpr h, rfl, rfl⟩)
    | @span s t a b ha hb hle =>
      obtain ⟨hdash, -⟩ := numberOf_no_sep hplain ha
      obtain ⟨hbefore, hafter⟩ := partition_append (s := t) hdash
      refine .inr (.inl ⟨?_, by simp, ?_, ?_, hle, rfl⟩)
      · intro heq
        have hmem : '-' ∈ s ++ '-' :: t := by simp
        rw [heq] at hmem
        revert hmem
        decide
      · rw [hbefore]
        exact (value_iff fun c hc => hspace c (List.mem_append_left _ hc)).mpr ha
      · rw [hafter]
        exact (value_iff fun c hc => hspace c (List.mem_append_right _ (List.mem_cons_of_mem _ hc))).mpr hb
  · rintro (⟨rfl, rfl, rfl, rfl⟩ | ⟨-, hdash, ha, hb, hle, rfl⟩ | ⟨-, -, ha, rfl, rfl⟩)
    · exact .star
    · rcases partition_cases '-' t with ⟨hno, -, -⟩ | ⟨-, heq⟩
      · exact absurd hdash hno
      · rw [heq] at hspace ⊢
        rw [value_iff fun c hc => hspace c (List.mem_append_left _ hc)] at ha
        rw [value_iff fun c hc => hspace c (List.mem_append_right _ (List.mem_cons_of_mem _ hc))] at hb
        exact .span ha hb hle
    · exact .number ((value_iff hspace).mp ha)

/-- What stands before the slash and what stands behind it. -/
theorem elementOf_iff (hplain : R.Plain) (hbare : R.bareSlash = true) {part : Text} {a b n : ℕ} :
    R.ElementOf f part a b n ↔ ∃ b' single, R.RangeOf f (beforeSep '/' part) a b' single ∧
      ((afterSep '/' part = [] ∧ n = 1 ∧ b = b') ∨
        (R.Numeral (afterSep '/' part) n ∧ 1 ≤ n ∧ b = if single then f.high else b')) := by
  constructor
  · intro h
    cases h with
    | @plain t a b single h =>
      have hslash := (rangeOf_no_slash hplain h).1
      rcases partition_cases '/' part with ⟨-, hbefore, hafter⟩ | ⟨-, heq⟩
      · rw [hbefore, hafter]
        exact ⟨b, single, h, .inl ⟨rfl, rfl, rfl⟩⟩
      · rw [heq] at hslash
        simp at hslash
    | @stepped t a b single s n h hs hn =>
      obtain ⟨hbefore, hafter⟩ := partition_append (s := s) (rangeOf_no_slash hplain h).1
      rw [hbefore, hafter]
      exact ⟨b, single, h, .inr ⟨hs, hn, rfl⟩⟩
    | @bare t a b single h _ =>
      obtain ⟨hbefore, hafter⟩ := partition_append (s := []) (rangeOf_no_slash hplain h).1
      rw [hbefore, hafter]
      exact ⟨b, single, h, .inl ⟨rfl, rfl, rfl⟩⟩
  · rintro ⟨b', single, h, hstep⟩
    rcases partition_cases '/' part with ⟨-, hbefore, hafter⟩ | ⟨-, heq⟩
    · rw [hbefore] at h
      rcases hstep with ⟨-, rfl, rfl⟩ | ⟨hs, -, -⟩
      · exact .plain h
      · exact absurd hafter hs.1
    · rw [heq]
      rcases hstep with ⟨hafter, rfl, rfl⟩ | ⟨hs, hn, rfl⟩
      · rw [hafter]
        exact .bare h hbare
      · exact .stepped h hs hn

/-- The parser reads the elements of the lenient dialect. -/
theorem element_iff {part : Text} {a b n : ℕ} (hspace : ∀ c ∈ part, py.isSpace c = false) :
    element py f part = some (a, b, n) ↔ (lenient py).ElementOf f part a b n := by
  have hplain := lenient_plain py
  have hbefore : ∀ c ∈ beforeSep '/' part, py.isSpace c = false := by
    intro c hc
    exact hspace c ((List.takeWhile_prefix _).subset hc)
  rw [elementOf_iff hplain rfl]
  unfold element
  by_cases hempty : part = []
  · subst hempty
    constructor
    · intro h
      cases h
    · rintro ⟨b', single, h, -⟩
      exact absurd rfl (rangeOf_no_slash hplain h).2.2
  · rw [if_neg hempty]
    simp only
    generalize afterSep '/' part = s
    generalize beforeSep '/' part = t at hbefore
    have hrange (b' : ℕ) (single : Bool) := @rangeOf_iff py f t a b' single hbefore
    cases hstep : stepOf py s with
    | none =>
      have hnone : ∀ m, ¬ ((s = [] ∧ m = 1) ∨ ((lenient py).Numeral s m ∧ 1 ≤ m)) := by
        intro m hm
        rw [← stepOf_iff, hstep] at hm
        cases hm
      simp only [reduceCtorEq, false_iff]
      rintro ⟨b', single, -, ⟨hs, hn, -⟩ | ⟨hs, hn, -⟩⟩
      · exact hnone n (.inl ⟨hs, hn⟩)
      · exact hnone n (.inr ⟨hs, hn⟩)
    | some step =>
      have hn : ((s = [] ∧ n = 1) ∨ ((lenient py).Numeral s n ∧ 1 ≤ n)) ↔ step = n := by
        rw [← stepOf_iff, hstep, Option.some.injEq]
      have hend : (∃ b' single, (lenient py).RangeOf f t a b' single ∧ ((s = [] ∧ n = 1 ∧ b = b') ∨
          ((lenient py).Numeral s n ∧ 1 ≤ n ∧ b = if single then f.high else b'))) ↔
          step = n ∧ ∃ b' single, (lenient py).RangeOf f t a b' single ∧
            b = if s = [] then b' else if single then f.high else b' := by
        rw [← hn]
        constructor
        · rintro ⟨b', single, h, ⟨hs, h1, rfl⟩ | ⟨hs, h1, hb⟩⟩
          · exact ⟨.inl ⟨hs, h1⟩, b, single, h, by rw [if_pos hs]⟩
          · exact ⟨.inr ⟨hs, h1⟩, b', single, h, by rw [if_neg hs.1, hb]⟩
        · rintro ⟨⟨hs, h1⟩ | ⟨hs, h1⟩, b', single, h, hb⟩
          · rw [if_pos hs] at hb
            exact ⟨b', single, h, .inl ⟨hs, h1, hb⟩⟩
          · rw [if_neg hs.1] at hb
            exact ⟨b', single, h, .inr ⟨hs, h1, hb⟩⟩
      rw [hend]
      simp only
      by_cases hstar : t = ['*']
      · rw [if_pos hstar]
        constructor
        · rintro ⟨⟩
          exact ⟨rfl, f.high, false, (hrange _ _).mpr (.inl ⟨hstar, rfl, rfl, rfl⟩), by simp⟩
        · rintro ⟨rfl, b', single, h, rfl⟩
          rcases (hrange _ _).mp h with ⟨-, rfl, rfl, rfl⟩ | ⟨hno, -⟩ | ⟨hno, -⟩
          · simp
          · exact absurd hstar hno
          · exact absurd hstar hno
      · rw [if_neg hstar]
        by_cases hdash : '-' ∈ t
        · rw [if_pos hdash]
          constructor
          · intro h
            split at h
            · rename_i x y hx hy
              split at h
              · cases h
              · rename_i hle
                cases h
                exact ⟨rfl, b, false, (hrange _ _).mpr (.inr (.inl ⟨hstar, hdash, hx, hy, not_lt.mp hle, rfl⟩)), by simp⟩
            · cases h
          · rintro ⟨rfl, b', single, h, rfl⟩
            rcases (hrange _ _).mp h with ⟨hno, -⟩ | ⟨-, -, hx, hy, hle, rfl⟩ | ⟨-, hno, -⟩
            · exact absurd hno hstar
            · rw [hx, hy]
              simp [not_lt.mpr hle]
            · exact absurd hdash hno
        · rw [if_neg hdash]
          constructor
          · intro h
            split at h
            · cases h
            · rename_i x hx
              cases h
              exact ⟨rfl, a, true, (hrange _ _).mpr (.inr (.inr ⟨hstar, hdash, hx, rfl, rfl⟩)), by simp⟩
          · rintro ⟨rfl, b', single, h, rfl⟩
            rcases (hrange _ _).mp h with ⟨hno, -⟩ | ⟨-, hno, -⟩ | ⟨-, -, hx, rfl, rfl⟩
            · exact absurd hno hstar
            · exact absurd hno hdash
            · rw [hx]
              simp

end Elements

/-! ### Fields -/

section Fields
variable {py : PyChars} {f : CronField}

theorem mem_of_mem_splitOnP {p : Char → Bool} {t part : Text} (h : part ∈ t.splitOnP p) : ∀ c ∈ part, c ∈ t := by
  induction t generalizing part with
  | nil =>
    rw [List.splitOnP_nil, List.mem_singleton] at h
    simp [h]
  | cons x t ih =>
    rw [List.splitOnP_cons_eq_if_modifyHead] at h
    intro c hc
    split at h
    · rcases List.mem_cons.mp h with rfl | h
      · cases hc
      · exact List.mem_cons_of_mem _ (ih h c hc)
    · cases hparts : t.splitOnP p with
      | nil => exact absurd hparts (List.splitOnP_ne_nil p t)
      | cons first rest =>
        rw [hparts, List.modifyHead_cons] at h
        rcases List.mem_cons.mp h with rfl | h
        · rcases List.mem_cons.mp hc with rfl | hc
          · exact List.mem_cons_self
          · exact List.mem_cons_of_mem _ (ih (hparts ▸ List.mem_cons_self) c hc)
        · exact List.mem_cons_of_mem _ (ih (hparts ▸ List.mem_cons_of_mem _ h) c hc)

theorem mem_of_mem_splitOn {sep : Char} {t part : Text} (h : part ∈ t.splitOn sep) : ∀ c ∈ part, c ∈ t := by
  rw [List.splitOn_eq_splitOnP] at h
  exact mem_of_mem_splitOnP h

/-- Every part is read or the whole list is not. -/
theorem mapM_spec {α β : Type} (g : α → Option β) (l : List α) :
    (∀ ys, l.mapM g = some ys → ∀ y, y ∈ ys ↔ ∃ x ∈ l, g x = some y) ∧
      ((l.mapM g).isSome = true ↔ ∀ x ∈ l, (g x).isSome = true) := by
  induction l with
  | nil =>
    rw [List.mapM_nil]
    refine ⟨fun ys h => ?_, by simp⟩
    cases h
    simp
  | cons x l ih =>
    obtain ⟨hmem, hsome⟩ := ih
    rw [List.mapM_cons, List.forall_mem_cons, ← hsome]
    cases hx : g x with
    | none => exact ⟨fun ys h => (by cases h), by simp⟩
    | some y =>
      cases hl : l.mapM g with
      | none => exact ⟨fun ys h => (by cases h), by simp⟩
      | some rest =>
        refine ⟨fun ys h z => ?_, by simp⟩
        cases h
        rw [List.mem_cons, hmem rest hl]
        constructor
        · rintro (rfl | ⟨x', hx', hz⟩)
          · exact ⟨x, List.mem_cons_self, hx⟩
          · exact ⟨x', List.mem_cons_of_mem _ hx', hz⟩
        · rintro ⟨x', hx', hz⟩
          rcases List.mem_cons.mp hx' with rfl | hx'
          · rw [hx] at hz
            exact .inl (Option.some.inj hz).symm
          · exact .inr ⟨x', hx', hz⟩

theorem mem_foldl_union {ranges : List (ℕ × ℕ × ℕ)} {out : Finset ℕ} {v : ℕ} :
    v ∈ ranges.foldl (fun out e => out ∪ pyRange e.1 e.2.1 e.2.2) out ↔
      v ∈ out ∨ ∃ e ∈ ranges, v ∈ pyRange e.1 e.2.1 e.2.2 := by
  induction ranges generalizing out with
  | nil => simp
  | cons e ranges ih =>
    rw [List.foldl_cons, ih, Finset.mem_union]
    simp only [List.mem_cons, exists_eq_or_imp, or_assoc]

theorem mem_pyRange {a b step v : ℕ} : v ∈ pyRange a b step ↔ a ≤ v ∧ v ≤ b ∧ (v - a) % step = 0 := by
  unfold pyRange
  rw [Finset.mem_filter, Finset.mem_range, Nat.lt_succ_iff]
  constructor
  · rintro ⟨h1, h2, h3⟩
    exact ⟨h2, h1, h3⟩
  · rintro ⟨h1, h2, h3⟩
    exact ⟨h2, h1, h3⟩

/-- A field is read exactly when its parts are of the lenient dialect, and its set is what they denote. -/
theorem field_spec {t : Text} (hspace : ∀ c ∈ t, py.isSpace c = false) :
    ((field py f t).isSome = true ↔ (lenient py).FieldOf f t) ∧
      ∀ set, field py f t = some set → ∀ v, v ∈ set ↔ (lenient py).Denotes f t v := by
  have hparts : ∀ part ∈ t.splitOn ',', ∀ a b n,
      element py f part = some (a, b, n) ↔ (lenient py).ElementOf f part a b n :=
    fun part hpart a b n => element_iff fun c hc => hspace c (mem_of_mem_splitOn hpart c hc)
  obtain ⟨hmem, hsome⟩ := mapM_spec (element py f) (t.splitOn ',')
  unfold field Reading.FieldOf Reading.Denotes
  constructor
  · rw [Option.isSome_map, hsome]
    refine forall₂_congr fun part hpart => ?_
    rw [Option.isSome_iff_exists]
    constructor
    · rintro ⟨⟨a, b, n⟩, h⟩
      exact ⟨a, b, n, (hparts part hpart a b n).mp h⟩
    · rintro ⟨a, b, n, h⟩
      exact ⟨(a, b, n), (hparts part hpart a b n).mpr h⟩
  · intro set hset v
    obtain ⟨ranges, hranges, rfl⟩ := Option.map_eq_some_iff.mp hset
    rw [mem_foldl_union]
    simp only [Finset.notMem_empty, false_or, mem_pyRange]
    constructor
    · rintro ⟨⟨a, b, n⟩, hrange, hv⟩
      obtain ⟨part, hpart, h⟩ := (hmem ranges hranges _).mp hrange
      exact ⟨part, hpart, a, b, n, (hparts part hpart a b n).mp h, hv⟩
    · rintro ⟨part, hpart, a, b, n, h, hv⟩
      exact ⟨(a, b, n), (hmem ranges hranges _).mpr ⟨part, hpart, (hparts part hpart a b n).mpr h⟩, hv⟩

end Fields

/-! ### Expressions -/

section Expressions
variable (py : PyChars)

theorem words_no_space {expr w : Text} (h : w ∈ words (fun c => !py.isSpace c) expr) : ∀ c ∈ w, py.isSpace c = false := by
  intro c hc
  have := (words_kept h).2 c hc
  simpa using this

/-- An expression is read when its five fields are. -/
theorem parseCron_eq_some {expr minute hour dom month dow : Text}
    (hwords : words (fun c => !py.isSpace c) expr = [minute, hour, dom, month, dow]) (spec : CronSpec) :
    parseCron py expr = some spec ↔ ∃ minutes, field py MINUTE_FIELD minute = some minutes ∧
      ∃ hours, field py HOUR_FIELD hour = some hours ∧ ∃ days, field py DAY_FIELD dom = some days ∧
      ∃ months, field py MONTH_FIELD month = some months ∧ ∃ weekdays, field py WEEKDAY_FIELD dow = some weekdays ∧
      (⟨minutes, hours, days, months, weekdays.image (· % 7), !startsWithStar dom, !startsWithStar dow⟩ : CronSpec) =
        spec := by
  simp only [parseCron, hwords, Option.bind_eq_bind, Option.bind_eq_some_iff, Option.pure_def, Option.some.injEq]

/-- The parser accepts the lenient dialect. -/
theorem parseCron_isSome_iff (expr : Text) : (parseCron py expr).isSome = true ↔ InDialect py (lenient py) expr := by
  have hspec := fun (f : CronField) (t : Text) (h : t ∈ words (fun c => !py.isSpace c) expr) =>
    (field_spec (f := f) (words_no_space py h)).1
  constructor
  · intro h
    obtain ⟨spec, hparse⟩ := Option.isSome_iff_exists.mp h
    cases hwords : words (fun c => !py.isSpace c) expr with
    | nil => simp [parseCron, hwords] at hparse
    | cons minute rest =>
      obtain ⟨hour, dom, month, dow, rfl⟩ : ∃ hour dom month dow, rest = [hour, dom, month, dow] := by
        match rest with
        | [hour, dom, month, dow] => exact ⟨hour, dom, month, dow, rfl⟩
        | [] | [_] | [_, _] | [_, _, _] => simp [parseCron, hwords] at hparse
        | _ :: _ :: _ :: _ :: _ :: _ => simp [parseCron, hwords] at hparse
      obtain ⟨minutes, h1, hours, h2, days, h3, months, h4, weekdays, h5, -⟩ := (parseCron_eq_some py hwords spec).mp hparse
      rw [hwords] at hspec
      refine ⟨minute, hour, dom, month, dow, hwords, ?_, ?_, ?_, ?_, ?_⟩
      · exact (hspec _ _ (by simp)).mp (Option.isSome_of_eq_some h1)
      · exact (hspec _ _ (by simp)).mp (Option.isSome_of_eq_some h2)
      · exact (hspec _ _ (by simp)).mp (Option.isSome_of_eq_some h3)
      · exact (hspec _ _ (by simp)).mp (Option.isSome_of_eq_some h4)
      · exact (hspec _ _ (by simp)).mp (Option.isSome_of_eq_some h5)
  · rintro ⟨minute, hour, dom, month, dow, hwords, h1, h2, h3, h4, h5⟩
    rw [hwords] at hspec
    obtain ⟨minutes, h1⟩ := Option.isSome_iff_exists.mp ((hspec _ _ (by simp)).mpr h1)
    obtain ⟨hours, h2⟩ := Option.isSome_iff_exists.mp ((hspec _ _ (by simp)).mpr h2)
    obtain ⟨days, h3⟩ := Option.isSome_iff_exists.mp ((hspec _ _ (by simp)).mpr h3)
    obtain ⟨months, h4⟩ := Option.isSome_iff_exists.mp ((hspec _ _ (by simp)).mpr h4)
    obtain ⟨weekdays, h5⟩ := Option.isSome_iff_exists.mp ((hspec _ _ (by simp)).mpr h5)
    exact Option.isSome_of_eq_some ((parseCron_eq_some py hwords _).mpr
      ⟨minutes, h1, hours, h2, days, h3, months, h4, weekdays, h5, rfl⟩)

theorem holds_iff (spec : CronSpec) (at' : ℤ) : spec.holds at' = true ↔
    minuteOf at' ∈ spec.minutes ∧ hourOf at' ∈ spec.hours ∧ monthOf at' ∈ spec.months ∧
      if spec.domRestricted && spec.dowRestricted then dayOf at' ∈ spec.days ∨ weekdayOf at' ∈ spec.weekdays
      else dayOf at' ∈ spec.days ∧ weekdayOf at' ∈ spec.weekdays := by
  unfold CronSpec.holds
  by_cases hm : minuteOf at' ∈ spec.minutes <;> by_cases hh : hourOf at' ∈ spec.hours <;>
    by_cases hmo : monthOf at' ∈ spec.months <;> simp [hm, hh, hmo]

/-- What the parser reads is what the lenient dialect means. -/
theorem cronMatches_iff {expr : Text} (h : (parseCron py expr).isSome = true) (at' : ℤ) :
    cronMatches py expr at' = true ↔ Means py (lenient py) expr at' := by
  obtain ⟨minute, hour, dom, month, dow, hwords, -⟩ := (parseCron_isSome_iff py expr).mp h
  obtain ⟨spec, hparse⟩ := Option.isSome_iff_exists.mp h
  obtain ⟨minutes, h1, hours, h2, days, h3, months, h4, weekdays, h5, heq⟩ := (parseCron_eq_some py hwords spec).mp hparse
  have hspec := fun (f : CronField) (t : Text) (h : t ∈ words (fun c => !py.isSpace c) expr) =>
    (field_spec (f := f) (words_no_space py h)).2
  rw [hwords] at hspec
  have hm := hspec _ _ (by simp) _ h1 (minuteOf at')
  have hh := hspec _ _ (by simp) _ h2 (hourOf at')
  have hd := hspec _ _ (by simp) _ h3 (dayOf at')
  have hmo := hspec _ _ (by simp) _ h4 (monthOf at')
  have hw : weekdayOf at' ∈ weekdays.image (· % 7) ↔
      ∃ d, (lenient py).Denotes WEEKDAY_FIELD dow d ∧ d % 7 = weekdayOf at' := by
    rw [Finset.mem_image]
    exact exists_congr fun d => and_congr_left fun _ => hspec _ _ (by simp) _ h5 d
  have hday : (if (!startsWithStar dom && !startsWithStar dow) = true then
        dayOf at' ∈ days ∨ weekdayOf at' ∈ weekdays.image (· % 7)
      else dayOf at' ∈ days ∧ weekdayOf at' ∈ weekdays.image (· % 7)) ↔
      if startsWithStar dom ∨ startsWithStar dow then
        (lenient py).Denotes DAY_FIELD dom (dayOf at') ∧
          ∃ d, (lenient py).Denotes WEEKDAY_FIELD dow d ∧ d % 7 = weekdayOf at'
      else (lenient py).Denotes DAY_FIELD dom (dayOf at') ∨
        ∃ d, (lenient py).Denotes WEEKDAY_FIELD dow d ∧ d % 7 = weekdayOf at' := by
    rw [← hd, ← hw]
    cases startsWithStar dom <;> cases startsWithStar dow <;> simp
  have hcron : cronMatches py expr at' = true ↔ spec.holds at' = true := by
    unfold cronMatches
    rw [hparse]
  rw [hcron, holds_iff, ← heq]
  simp only
  rw [hm, hh, hmo, hday]
  constructor
  · rintro ⟨k1, k2, k3, k4⟩
    exact ⟨minute, hour, dom, month, dow, hwords, k1, k2, k3, k4⟩
  · rintro ⟨minute', hour', dom', month', dow', hwords', k1, k2, k3, k4⟩
    rw [hwords] at hwords'
    cases hwords'
    exact ⟨k1, k2, k3, k4⟩

end Expressions

/-! ### The two readings -/

section Readings
variable {py : PyChars} {f : CronField} {t part : Text} {a b n : ℕ} {single : Bool}

/-- What stands between dashes and slashes. -/
def pieces (t : Text) : List Text := t.splitOnP fun c => c = '-' || c = '/'

/-- An element that takes none of the liberties of the parser: no bare slash, no digit outside ASCII, and no number longer
    than `int` reads. -/
def Tame (py : PyChars) (part : Text) : Prop :=
  part.getLast? ≠ some '/' ∧ (∀ c ∈ part, (py.decimal c).isSome = true → c.isDigit = true) ∧
    ∀ piece ∈ pieces part, piece.length ≤ MAX_STR_DIGITS

theorem asciiDigit_isSome {c : Char} : (asciiDigit c).isSome = true ↔ c.isDigit = true := by
  unfold asciiDigit
  split <;> simp_all

theorem isDigit_ascii {c : Char} (h : c.isDigit = true) : c.toNat < 128 := by
  simp only [Char.isDigit, Bool.and_eq_true, decide_eq_true_eq, UInt32.le_iff_toNat_le, ge_iff_le] at h
  have h9 : '9'.val.toNat = 57 := rfl
  have hcode : c.toNat = c.val.toNat := rfl
  omega

theorem decimal_of_isDigit {c : Char} (h : c.isDigit = true) : py.decimal c = asciiDigit c :=
  (py.ascii c (isDigit_ascii h)).2

theorem numeral_documented (hascii : ∀ c ∈ t, (py.decimal c).isSome = true → c.isDigit = true)
    (h : (lenient py).Numeral t n) : documented.Numeral t n := by
  obtain ⟨hne, -, hvalue⟩ := h
  refine ⟨hne, trivial, ?_⟩
  have hsame : digitsValue asciiDigit t = digitsValue py.decimal t := by
    refine digitsValue_congr fun c hc => ?_
    exact (decimal_of_isDigit (hascii c hc (digitsValue_isSome hvalue c hc))).symm
  exact hsame.trans hvalue

theorem numeral_lenient (hshort : t.length ≤ MAX_STR_DIGITS) (h : documented.Numeral t n) :
    (lenient py).Numeral t n := by
  obtain ⟨hne, -, hvalue⟩ := h
  refine ⟨hne, hshort, ?_⟩
  have hsame : digitsValue py.decimal t = digitsValue asciiDigit t := by
    refine digitsValue_congr fun c hc => ?_
    exact decimal_of_isDigit (asciiDigit_isSome.mp (digitsValue_isSome hvalue c hc))
  exact hsame.trans hvalue

theorem numberOf_documented (hascii : ∀ c ∈ t, (py.decimal c).isSome = true → c.isDigit = true)
    (h : (lenient py).NumberOf f t n) : documented.NumberOf f t n :=
  h.imp id fun ⟨hnumeral, hrange⟩ => ⟨numeral_documented hascii hnumeral, hrange⟩

theorem numberOf_lenient (hshort : t.length ≤ MAX_STR_DIGITS) (h : documented.NumberOf f t n) :
    (lenient py).NumberOf f t n :=
  h.imp id fun ⟨hnumeral, hrange⟩ => ⟨numeral_lenient hshort hnumeral, hrange⟩

/-- A number of the lenient dialect is short: a name has three letters. -/
theorem numberOf_length (h : (lenient py).NumberOf f t n) : t.length ≤ MAX_STR_DIGITS := by
  rcases h with ⟨name, hname, hlower⟩ | ⟨⟨-, hfits, -⟩, -⟩
  · have hlength := congrArg List.length hlower
    rw [List.length_map, name_length hname] at hlength
    rw [hlength]
    decide
  · exact hfits

/-- Only a character of ASCII is lowered to a small letter of ASCII. -/
theorem ascii_of_toLower {c : Char} (h : c.toLower.isLower = true) : c.toNat < 128 := by
  by_cases hupper : c.val ≥ 'A'.val ∧ c.val ≤ 'Z'.val
  · have hle := hupper.2
    simp only [UInt32.le_iff_toNat_le] at hle
    have hz : 'Z'.val.toNat = 90 := rfl
    have hcode : c.toNat = c.val.toNat := rfl
    omega
  · unfold Char.toLower at h
    rw [dif_neg hupper] at h
    exact (letter_spec h).1

theorem numberOf_ascii (h : documented.NumberOf f t n) : ∀ c ∈ t, c.toNat < 128 := by
  intro c hc
  rcases h with ⟨name, hname, hlower⟩ | ⟨⟨-, -, hvalue⟩, -⟩
  · refine ascii_of_toLower (name_letters hname _ ?_).1
    rw [← hlower]
    exact List.mem_map_of_mem hc
  · exact isDigit_ascii (asciiDigit_isSome.mp (digitsValue_isSome hvalue c hc))

theorem pieces_single (h : ∀ c ∈ t, c ∉ separators) : pieces t = [t] := by
  refine List.splitOnP_eq_singleton fun c hc => ?_
  have hno := h c hc
  simp only [separators, List.mem_cons, List.not_mem_nil, or_false, not_or] at hno
  simp [hno.1, hno.2.1]

theorem pieces_append (t s : Text) {sep : Char} (h : sep = '-' ∨ sep = '/') :
    pieces (t ++ sep :: s) = pieces t ++ pieces s :=
  List.splitOnP_append_cons t s (by rcases h with rfl | rfl <;> rfl)

theorem rangeOf_documented (hascii : ∀ c ∈ t, (py.decimal c).isSome = true → c.isDigit = true)
    (h : (lenient py).RangeOf f t a b single) : documented.RangeOf f t a b single := by
  cases h with
  | star => exact .star
  | number h => exact .number (numberOf_documented hascii h)
  | span ha hb hle =>
    refine .span (numberOf_documented (fun c hc => hascii c ?_) ha) (numberOf_documented (fun c hc => hascii c ?_) hb) hle
    · exact List.mem_append_left _ hc
    · exact List.mem_append_right _ (List.mem_cons_of_mem _ hc)

theorem rangeOf_lenient (hshort : ∀ piece ∈ pieces t, piece.length ≤ MAX_STR_DIGITS)
    (h : documented.RangeOf f t a b single) : (lenient py).RangeOf f t a b single := by
  cases h with
  | star => exact .star
  | number h =>
    rw [pieces_single (numberOf_plain documented_plain h)] at hshort
    exact .number (numberOf_lenient (hshort _ List.mem_cons_self) h)
  | span ha hb hle =>
    rw [pieces_append _ _ (.inl rfl), pieces_single (numberOf_plain documented_plain ha),
      pieces_single (numberOf_plain documented_plain hb)] at hshort
    exact .span (numberOf_lenient (hshort _ (by simp)) ha) (numberOf_lenient (hshort _ (by simp)) hb) hle

/-- On a tame element the two readings agree. -/
theorem elementOf_tame (htame : Tame py part) :
    (lenient py).ElementOf f part a b n ↔ documented.ElementOf f part a b n := by
  obtain ⟨hlast, hascii, hshort⟩ := htame
  constructor
  · intro h
    cases h with
    | plain h => exact .plain (rangeOf_documented hascii h)
    | stepped h hs hn =>
      refine .stepped (rangeOf_documented (fun c hc => hascii c ?_) h) (numeral_documented (fun c hc => hascii c ?_) hs) hn
      · exact List.mem_append_left _ hc
      · exact List.mem_append_right _ (List.mem_cons_of_mem _ hc)
    | bare h _ => exact absurd (List.getLast?_concat) hlast
  · intro h
    cases h with
    | plain h => exact .plain (rangeOf_lenient hshort h)
    | stepped h hs hn =>
      rw [pieces_append _ _ (.inr rfl), pieces_single (numeral_plain documented_plain hs)] at hshort
      exact .stepped (rangeOf_lenient (fun piece hp => hshort piece (List.mem_append_left _ hp)) h)
        (numeral_lenient (hshort _ (by simp)) hs) hn
    | bare _ hbare => cases hbare

theorem getLast_ne_slash {t s : Text} (hne : s ≠ []) (h : '/' ∉ s) : (t ++ s).getLast? ≠ some '/' := by
  rw [List.getLast?_append_of_ne_nil _ hne]
  exact fun hlast => h (List.mem_of_getLast? hlast)

/-- An element of the documented dialect has a step behind every slash, and is of ASCII. -/
theorem elementOf_documented (h : documented.ElementOf f part a b n) :
    part.getLast? ≠ some '/' ∧ ∀ c ∈ part, c.toNat < 128 := by
  have hrange : ∀ {t : Text} {a b : ℕ} {single : Bool}, documented.RangeOf f t a b single → ∀ c ∈ t, c.toNat < 128 := by
    intro t a b single h
    cases h with
    | star =>
      rw [List.forall_mem_singleton]
      decide
    | number h => exact numberOf_ascii h
    | span ha hb _ =>
      intro c hc
      rcases List.mem_append.mp hc with hc | hc
      · exact numberOf_ascii ha c hc
      · rcases List.mem_cons.mp hc with rfl | hc
        · decide
        · exact numberOf_ascii hb c hc
  cases h with
  | plain h =>
    obtain ⟨hslash, -, hne⟩ := rangeOf_no_slash documented_plain h
    exact ⟨getLast_ne_slash (t := []) hne hslash, hrange h⟩
  | @stepped t a b single s n h hs hn =>
    have hslash : '/' ∉ s := fun hc => numeral_plain documented_plain hs _ hc (by decide)
    constructor
    · have hsplit : t ++ '/' :: s = (t ++ ['/']) ++ s := by simp
      rw [hsplit]
      exact getLast_ne_slash hs.1 hslash
    · intro c hc
      rcases List.mem_append.mp hc with hc | hc
      · exact hrange h c hc
      · rcases List.mem_cons.mp hc with rfl | hc
        · decide
        · exact isDigit_ascii (asciiDigit_isSome.mp (digitsValue_isSome hs.2.2 c hc))
  | bare _ hbare => cases hbare

/-- The numbers of an element of the lenient dialect are short. -/
theorem elementOf_lenient (h : (lenient py).ElementOf f part a b n) :
    ∀ piece ∈ pieces part, piece.length ≤ MAX_STR_DIGITS := by
  have hplain := lenient_plain py
  have hrange : ∀ {t : Text} {a b : ℕ} {single : Bool}, (lenient py).RangeOf f t a b single →
      ∀ piece ∈ pieces t, piece.length ≤ MAX_STR_DIGITS := by
    intro t a b single h
    cases h with
    | star =>
      change ∀ piece ∈ [['*']], piece.length ≤ MAX_STR_DIGITS
      simp [MAX_STR_DIGITS]
    | number h =>
      rw [pieces_single (numberOf_plain hplain h), List.forall_mem_singleton]
      exact numberOf_length h
    | span ha hb _ =>
      rw [pieces_append _ _ (.inl rfl), pieces_single (numberOf_plain hplain ha),
        pieces_single (numberOf_plain hplain hb), List.singleton_append, List.forall_mem_cons, List.forall_mem_singleton]
      exact ⟨numberOf_length ha, numberOf_length hb⟩
  cases h with
  | plain h => exact hrange h
  | stepped h hs hn =>
    rw [pieces_append _ _ (.inr rfl), pieces_single (numeral_plain hplain hs)]
    intro piece hp
    rcases List.mem_append.mp hp with hp | hp
    · exact hrange h piece hp
    · rw [List.mem_singleton.mp hp]
      exact hs.2.1
  | bare h _ =>
    rw [pieces_append _ _ (.inr rfl)]
    intro piece hp
    rcases List.mem_append.mp hp with hp | hp
    · exact hrange h piece hp
    · change piece ∈ ([[]] : List Text) at hp
      rw [List.mem_singleton.mp hp]
      decide

theorem tame_of_both (hdocumented : documented.ElementOf f part a b n) {a' b' n' : ℕ}
    (hlenient : (lenient py).ElementOf f part a' b' n') : Tame py part := by
  obtain ⟨hlast, hascii⟩ := elementOf_documented hdocumented
  refine ⟨hlast, fun c hc hdecimal => ?_, elementOf_lenient hlenient⟩
  rw [(py.ascii c (hascii c hc)).2] at hdecimal
  exact asciiDigit_isSome.mp hdecimal

end Readings

/-! ### What the parser is claimed to do -/

/-- Every element of every field is tame. -/
def TameExpr (py : PyChars) (expr : Text) : Prop :=
  ∀ field ∈ words (fun c => !py.isSpace c) expr, ∀ part ∈ field.splitOn ',', Tame py part

/-- The parser accepts the expression exactly when it is of the documented dialect, and then means it at every minute. -/
def MeansItsDialect (py : PyChars) (expr : Text) : Prop :=
  ((parseCron py expr).isSome = true ↔ InDialect py documented expr) ∧
    ((parseCron py expr).isSome = true → ∀ at', cronMatches py expr at' = true ↔ Means py documented expr at')

section Claim
variable {py : PyChars} {expr : Text}

theorem fieldOf_tame {f : CronField} {t : Text} (h : ∀ part ∈ t.splitOn ',', Tame py part) :
    (lenient py).FieldOf f t ↔ documented.FieldOf f t :=
  forall₂_congr fun part hpart => exists_congr fun _ => exists_congr fun _ => exists_congr fun _ =>
    elementOf_tame (h part hpart)

theorem denotes_tame {f : CronField} {t : Text} (h : ∀ part ∈ t.splitOn ',', Tame py part) (v : ℕ) :
    (lenient py).Denotes f t v ↔ documented.Denotes f t v := by
  unfold Reading.Denotes
  refine exists_congr fun part => and_congr_right fun hpart => ?_
  exact exists_congr fun _ => exists_congr fun _ => exists_congr fun _ => and_congr_left fun _ => elementOf_tame (h part hpart)

theorem inDialect_tame (h : TameExpr py expr) : InDialect py (lenient py) expr ↔ InDialect py documented expr := by
  unfold InDialect
  refine exists_congr fun minute => exists_congr fun hour => exists_congr fun dom => exists_congr fun month =>
    exists_congr fun dow => and_congr_right fun hwords => ?_
  unfold TameExpr at h
  rw [hwords] at h
  rw [fieldOf_tame (h minute (by simp)), fieldOf_tame (h hour (by simp)), fieldOf_tame (h dom (by simp)),
    fieldOf_tame (h month (by simp)), fieldOf_tame (h dow (by simp))]

theorem means_tame (h : TameExpr py expr) (at' : ℤ) : Means py (lenient py) expr at' ↔ Means py documented expr at' := by
  unfold Means
  refine exists_congr fun minute => exists_congr fun hour => exists_congr fun dom => exists_congr fun month =>
    exists_congr fun dow => and_congr_right fun hwords => ?_
  unfold TameExpr at h
  rw [hwords] at h
  have hdow : (∃ d, (lenient py).Denotes WEEKDAY_FIELD dow d ∧ d % 7 = weekdayOf at') ↔
      ∃ d, documented.Denotes WEEKDAY_FIELD dow d ∧ d % 7 = weekdayOf at' :=
    exists_congr fun d => and_congr_left fun _ => denotes_tame (h dow (by simp)) d
  rw [denotes_tame (h minute (by simp)), denotes_tame (h hour (by simp)), denotes_tame (h dom (by simp)),
    denotes_tame (h month (by simp)), hdow]

/-- An expression of both dialects is tame. -/
theorem tameExpr_of_both (hlenient : InDialect py (lenient py) expr) (hdocumented : InDialect py documented expr) :
    TameExpr py expr := by
  obtain ⟨minute, hour, dom, month, dow, hwords, l1, l2, l3, l4, l5⟩ := hlenient
  obtain ⟨minute', hour', dom', month', dow', hwords', d1, d2, d3, d4, d5⟩ := hdocumented
  rw [hwords] at hwords'
  cases hwords'
  have hfield : ∀ (f : CronField) (t : Text), (lenient py).FieldOf f t → documented.FieldOf f t →
      ∀ part ∈ t.splitOn ',', Tame py part := by
    intro f t hl hd part hpart
    obtain ⟨a, b, n, hl⟩ := hl part hpart
    obtain ⟨a', b', n', hd⟩ := hd part hpart
    exact tame_of_both hd hl
  unfold TameExpr
  rw [hwords]
  simp only [List.forall_mem_cons, List.not_mem_nil, false_imp_iff, implies_true, and_true]
  exact ⟨hfield _ _ l1 d1, hfield _ _ l2 d2, hfield _ _ l3 d3, hfield _ _ l4 d4, hfield _ _ l5 d5⟩

/-- The parser accepts exactly its dialect and means it, if and only if the expression, should it be of the documented or of
    the lenient dialect, takes none of the parser's liberties. -/
theorem means_its_dialect_iff (py : PyChars) (expr : Text) :
    MeansItsDialect py expr ↔
      (InDialect py (lenient py) expr ∨ InDialect py documented expr → TameExpr py expr) := by
  have haccept := parseCron_isSome_iff py expr
  constructor
  · rintro ⟨hagree, -⟩ hdialect
    rw [haccept] at hagree
    rcases hdialect with hlenient | hdocumented
    · exact tameExpr_of_both hlenient (hagree.mp hlenient)
    · exact tameExpr_of_both (hagree.mpr hdocumented) hdocumented
  · intro htame
    constructor
    · rw [haccept]
      constructor
      · intro hlenient
        exact (inDialect_tame (htame (.inl hlenient))).mp hlenient
      · intro hdocumented
        exact (inDialect_tame (htame (.inr hdocumented))).mpr hdocumented
    · intro hsome at'
      rw [cronMatches_iff py hsome, means_tame (htame (.inl (haccept.mp hsome)))]

end Claim

/-- Every minute, with a slash too many. -/
def bareSlash : Text := "*/ * * * *".toList

/-- A step left out behind its slash is accepted, on any Python. -/
theorem bare_slash_accepted : ¬ ∃ py : PyChars, MeansItsDialect py bareSlash := by
  rintro ⟨py, hagree, -⟩
  have hblank : py.isSpace ' ' = true := by rw [py.space ' ' (by decide)]; decide
  have hstar : py.isSpace '*' = false := by rw [py.space '*' (by decide)]; decide
  have hslash : py.isSpace '/' = false := by rw [py.space '/' (by decide)]; decide
  have hwords : words (fun c => !py.isSpace c) bareSlash = [['*', '/'], ['*'], ['*'], ['*'], ['*']] := by
    have hchars : bareSlash = ['*', '/', ' ', '*', ' ', '*', ' ', '*', ' ', '*'] := by decide
    rw [hchars]
    simp [words, runs, hblank, hstar, hslash]
  have hone : ∀ f : CronField, (lenient py).FieldOf f ['*'] := by
    intro f part hpart
    change part ∈ [['*']] at hpart
    rw [List.mem_singleton.mp hpart]
    exact ⟨_, _, _, .plain .star⟩
  have hlenient : InDialect py (lenient py) bareSlash := by
    refine ⟨_, _, _, _, _, hwords, ?_, hone _, hone _, hone _, hone _⟩
    intro part hpart
    change part ∈ [['*', '/']] at hpart
    rw [List.mem_singleton.mp hpart]
    exact ⟨_, _, _, .bare (t := ['*']) .star rfl⟩
  rw [parseCron_isSome_iff] at hagree
  obtain ⟨minute, hour, dom, month, dow, hwords', hminute, -⟩ := hagree.mp hlenient
  rw [hwords] at hwords'
  cases hwords'
  obtain ⟨a, b, n, helement⟩ := hminute ['*', '/'] (by decide)
  exact (elementOf_documented helement).1 rfl

end Gdx.Cron
