import GdxDispatch.Vendors.BillIntake

/-! A vendor bill is stored once, as long as the vendor rows keep pointing where the stored bills point.

    The lookup compares vendor rows when the name resolves and normalised names when it does not, and a stored bill
    keeps the choice of its upload. The two agree while the name of every stored bill resolves to the vendor on the
    bill or to none. Normalising keeps ASCII letters and digits only, so it tells names apart when all their letters
    and digits are ASCII. -/

namespace Gdx
open Lib

variable {A : Alphabet} {desk : IntakeDesk}

/-! ### Names -/

/-- Equal up to case, punctuation and spacing: the same words once folded. -/
def SameName (A : Alphabet) (a b : Text) : Prop :=
  words (fun c => !A.separates c) (A.fold a) = words (fun c => !A.separates c) (A.fold b)

/-- Once folded, every character that is neither punctuation nor spacing is an ASCII letter or digit. -/
def PlainName (A : Alphabet) (name : Text) : Prop := ∀ c ∈ A.fold name, A.separates c = false → asciiAlnum c = true

theorem asciiAlnum_not_blank (c : Char) (h : asciiAlnum c = true) : c.isWhitespace = false := by
  cases hb : c.isWhitespace with
  | false => rfl
  | true =>
    simp only [Char.isWhitespace, Bool.or_eq_true, decide_eq_true_eq] at hb
    rcases hb with ((rfl | rfl) | rfl) | rfl <;> revert h <;> decide

theorem normalizeName_eq_iff {a b : Text} :
    normalizeName A a = normalizeName A b ↔ words asciiAlnum (A.fold a) = words asciiAlnum (A.fold b) :=
  trim_collapse_eq_iff (by decide) asciiAlnum_not_blank _ _

/-- Names that are equal up to case, punctuation and spacing normalise alike. -/
theorem SameName.normalizeName {a b : Text} (h : SameName A a b) : normalizeName A a = normalizeName A b := by
  have hwide : ∀ c, asciiAlnum c = true → (!A.separates c) = true := by
    intro c hc
    rw [A.ascii_words c hc]
    rfl
  rw [normalizeName_eq_iff, words_narrow hwide, words_narrow hwide, h]

theorem PlainName.words {name : Text} (h : PlainName A name) :
    words asciiAlnum (A.fold name) = words (fun c => !A.separates c) (A.fold name) := by
  refine words_congr fun c hc => ?_
  cases hs : A.separates c with
  | false => exact h c hc hs
  | true =>
    cases ha : asciiAlnum c with
    | false => rfl
    | true => exact absurd (A.ascii_words c ha) (by simp [hs])

/-- Plain names that normalise alike are equal up to case, punctuation and spacing. -/
theorem PlainName.same {a b : Text} (ha : PlainName A a) (hb : PlainName A b)
    (h : normalizeName A a = normalizeName A b) : SameName A a b := by
  rw [normalizeName_eq_iff, ha.words, hb.words] at h
  exact h

theorem resolveVendor_congr {vendors : List Vendor} {a b : Text} (h : normalizeName A a = normalizeName A b) :
    resolveVendor A vendors a = resolveVendor A vendors b := by
  unfold resolveVendor
  rw [h]

/-! ### What an upload does -/

/-- The vendor a bill's name resolves to now. -/
def IntakeDesk.vendorOf (A : Alphabet) (desk : IntakeDesk) (name : Text) : Option ℕ :=
  (resolveVendor A desk.vendors name).map (·.id)

/-- A duplicate that the lookup returns is a live bill with the number, and with the vendor or the normalised name. -/
theorem findDuplicateInvoice_some {vendorId : Option ℕ} {name number : Text} {c : VendorInvoice}
    (h : findDuplicateInvoice A desk vendorId name number = some c) :
    c ∈ desk.live ∧ A.lower c.invoiceNumber = A.lower number ∧
      ((∃ id, vendorId = some id ∧ c.vendorId = some id) ∨
        (vendorId = none ∧ normalizeName A c.vendorNameRaw = normalizeName A name)) := by
  have hmem := List.mem_filter.mp (List.mem_of_find?_eq_some h)
  have hmatch := List.find?_some h
  refine ⟨hmem.1, by simpa [sameNumber] using hmem.2, ?_⟩
  cases vendorId with
  | some id => exact .inl ⟨id, rfl, by simpa using hmatch⟩
  | none => exact .inr ⟨rfl, by simpa using hmatch⟩

theorem findDuplicateInvoice_none {vendorId : Option ℕ} {name number : Text} {c : VendorInvoice}
    (h : findDuplicateInvoice A desk vendorId name number = none) (hc : c ∈ desk.live)
    (hnumber : A.lower c.invoiceNumber = A.lower number) :
    (∀ id, vendorId = some id → c.vendorId ≠ some id) ∧
      (vendorId = none → normalizeName A c.vendorNameRaw ≠ normalizeName A name) := by
  have hmem : c ∈ desk.live.filter (sameNumber A number) := List.mem_filter.mpr ⟨hc, by simpa [sameNumber] using hnumber⟩
  have hnot := List.find?_eq_none.mp h c hmem
  constructor
  · rintro id rfl
    simpa using hnot
  · rintro rfl
    simpa using hnot

theorem findInvoiceByKey_some {key : VendorKey} {number : Text} {c : VendorInvoice}
    (h : findInvoiceByKey A desk key number = some c) :
    c ∈ desk.live ∧ c.vendorKey = key ∧ A.lower c.invoiceNumber = A.lower number := by
  have hmatch := List.find?_some h
  simp only [Bool.and_eq_true, beq_iff_eq, sameNumber] at hmatch
  exact ⟨List.mem_of_find?_eq_some h, hmatch⟩

/-- The desk after an upload that stored a bill. -/
structure Stored (A : Alphabet) (u : BillUpload) (desk desk' : IntakeDesk) (row : VendorInvoice) : Prop where
  extracted : ∃ name parsed, u.rung.extracted = some (name, parsed) ∧
    row.vendorNameRaw = name.take VENDOR_NAME_LIMIT ∧ row.invoiceNumber = parsed.invoiceNumber
  noDuplicate : findDuplicateInvoice A desk row.vendorId row.vendorNameRaw row.invoiceNumber = none
  vendor : row.vendorId = desk.vendorOf A row.vendorNameRaw
  key : row.vendorKey = computeVendorKey A row.vendorId row.vendorNameRaw
  live : row.deleted = false
  invoices : desk'.invoices = desk.invoices ++ [row]
  vendors : desk'.vendors = desk.vendors

/-- The answer that an upload is a duplicate by vendor and number. -/
structure AnsweredDuplicate (A : Alphabet) (u : BillUpload) (desk : IntakeDesk) (c : VendorInvoice) : Prop where
  extracted : ∃ name parsed, u.rung.extracted = some (name, parsed) ∧
    (findDuplicateInvoice A desk (desk.vendorOf A (name.take VENDOR_NAME_LIMIT)) (name.take VENDOR_NAME_LIMIT)
        parsed.invoiceNumber = some c ∨
      findInvoiceByKey A desk
        (computeVendorKey A (desk.vendorOf A (name.take VENDOR_NAME_LIMIT)) (name.take VENDOR_NAME_LIMIT))
        parsed.invoiceNumber = some c)

/-- An upload stores one bill, or changes nothing; and it says which bill it found. -/
theorem uploadInvoice_cases (A : Alphabet) (u : BillUpload) (desk : IntakeDesk) :
    ((uploadInvoice A u desk).1 = desk ∨ ∃ row, Stored A u desk (uploadInvoice A u desk).1 row) ∧
      ∀ result, (uploadInvoice A u desk).2 = .ok result → result.duplicateReason = some .vendorInvoiceNumber →
        AnsweredDuplicate A u desk result.invoice := by
  unfold uploadInvoice
  split
  · exact ⟨.inl rfl, fun _ h => by cases h⟩
  · dsimp only
    split
    · refine ⟨.inl rfl, ?_⟩
      intro result h hreason
      cases h
      cases hreason
    · split
      · exact ⟨.inl rfl, fun _ h => by cases h⟩
      · rename_i vendorName parsed hextracted
        unfold persistParsedInvoice
        split
        · exact ⟨.inl rfl, fun _ h => by cases h⟩
        · dsimp only
          split
          · rename_i dup hdup
            refine ⟨.inl rfl, ?_⟩
            intro result h _
            cases h
            exact ⟨vendorName, parsed, hextracted, .inl hdup⟩
          · rename_i hdup
            split
            · split
              · rename_i winner hwinner
                refine ⟨.inl rfl, ?_⟩
                intro result h _
                cases h
                exact ⟨vendorName, parsed, hextracted, .inr hwinner⟩
              · exact ⟨.inl rfl, fun _ h => by cases h⟩
            · refine ⟨.inr ⟨_, ⟨vendorName, parsed, hextracted, rfl, rfl⟩, hdup, rfl, rfl, rfl, rfl, rfl⟩, ?_⟩
              intro result h hreason
              cases h
              cases hreason

/-! ### Runs -/

/-- Two bills with one number, ignoring case, have different names and different vendors. -/
def BillsApart (A : Alphabet) (b c : VendorInvoice) : Prop :=
  A.lower b.invoiceNumber = A.lower c.invoiceNumber →
    ¬ SameName A b.vendorNameRaw c.vendorNameRaw ∧ ∀ id, b.vendorId = some id → c.vendorId ≠ some id

/-- The name of every live bill resolves to the vendor on the bill, or to none. -/
def PointsBack (A : Alphabet) (desk : IntakeDesk) : Prop :=
  ∀ c ∈ desk.live, ∀ id, desk.vendorOf A c.vendorNameRaw = some id → c.vendorId = some id

/-- No two live bills have one number, ignoring case, and names that are equal up to case, punctuation and spacing or
    that resolve to one vendor. -/
def OnceOnly (A : Alphabet) (desk : IntakeDesk) : Prop :=
  desk.live.Pairwise fun b c => A.lower b.invoiceNumber = A.lower c.invoiceNumber →
    ¬ SameName A b.vendorNameRaw c.vendorNameRaw ∧
      ∀ id, desk.vendorOf A b.vendorNameRaw = some id → desk.vendorOf A c.vendorNameRaw ≠ some id

def KeysOk (A : Alphabet) (desk : IntakeDesk) : Prop :=
  ∀ c ∈ desk.live, c.vendorKey = computeVendorKey A c.vendorId c.vendorNameRaw

/-- What a run of safe edits keeps. -/
structure IntakeOk (A : Alphabet) (desk : IntakeDesk) : Prop where
  apart : desk.live.Pairwise (BillsApart A)
  pointsBack : PointsBack A desk

theorem IntakeOk.onceOnly (h : IntakeOk A desk) : OnceOnly A desk := by
  refine h.apart.imp_of_mem ?_
  intro b c hb hc hapart hnumber
  refine ⟨(hapart hnumber).1, ?_⟩
  intro id hbid hcid
  exact (hapart hnumber).2 id (h.pointsBack b hb id hbid) (h.pointsBack c hc id hcid)

theorem live_append {desk' : IntakeDesk} {row : VendorInvoice} (hinvoices : desk'.invoices = desk.invoices ++ [row])
    (hlive : row.deleted = false) : desk'.live = desk.live ++ [row] := by
  unfold IntakeDesk.live
  rw [hinvoices, List.filter_append]
  simp [hlive]

theorem vendorOf_congr {desk' : IntakeDesk} (h : desk'.vendors = desk.vendors) (name : Text) :
    desk'.vendorOf A name = desk.vendorOf A name := by
  unfold IntakeDesk.vendorOf
  rw [h]

/-- A stored bill is apart from every live one. -/
theorem Stored.apart {u : BillUpload} {desk' : IntakeDesk} {row : VendorInvoice} (h : Stored A u desk desk' row)
    (hback : PointsBack A desk) : ∀ c ∈ desk.live, BillsApart A c row := by
  intro c hc hnumber
  obtain ⟨hvendor, hname⟩ := findDuplicateInvoice_none h.noDuplicate hc hnumber
  refine ⟨?_, fun id hcid hrow => hvendor id hrow hcid⟩
  intro hsame
  cases hrow : row.vendorId with
  | none => exact hname hrow hsame.normalizeName
  | some id =>
    -- The names normalise alike, so the stored bill's name resolves to the same row, which is the one on the bill.
    have hresolved : desk.vendorOf A c.vendorNameRaw = some id := by
      rw [← hrow, h.vendor]
      unfold IntakeDesk.vendorOf
      rw [resolveVendor_congr hsame.normalizeName]
    exact hvendor id hrow (hback c hc id hresolved)

theorem Stored.intakeOk {u : BillUpload} {desk' : IntakeDesk} {row : VendorInvoice} (h : Stored A u desk desk' row)
    (hok : IntakeOk A desk) : IntakeOk A desk' := by
  have hlive := live_append h.invoices h.live
  constructor
  · rw [hlive]
    refine List.pairwise_append.mpr ⟨hok.apart, List.pairwise_singleton .., ?_⟩
    intro b hb c hc
    rw [List.mem_singleton.mp hc]
    exact h.apart hok.pointsBack b hb
  · intro c hc id hid
    rw [vendorOf_congr h.vendors] at hid
    rw [hlive] at hc
    rcases List.mem_append.mp hc with hc | hc
    · exact hok.pointsBack c hc id hid
    · rw [List.mem_singleton.mp hc] at hid ⊢
      rw [h.vendor, hid]

/-- Deleting a bill leaves a part of the live ones. -/
theorem live_drop (id : ℕ) : (desk.step A (.dropInvoice id)).live.Sublist desk.live := by
  unfold IntakeDesk.live IntakeDesk.step
  dsimp only
  induction desk.invoices with
  | nil => exact .slnil
  | cons c cs ih =>
    by_cases hid : c.id = id
    · simp only [List.map_cons, hid, if_true, List.filter_cons, Bool.not_true, Bool.false_eq_true, if_false]
      split
      · exact ih.cons c
      · exact ih
    · simp only [List.map_cons, hid, if_false, List.filter_cons]
      split
      · exact ih.cons_cons c
      · exact ih

/-- An edit of the vendor rows that leaves the name of every live bill resolving to its vendor, or to none. -/
def SafeEdit (A : Alphabet) (desk : IntakeDesk) : IntakeEvent → Prop
  | .vendors edit => ∀ c ∈ desk.live, ∀ v,
      resolveVendor A (edit.apply desk.nextId desk.vendors) c.vendorNameRaw = some v → c.vendorId = some v.id
  | _ => True

theorem IntakeOk.step {e : IntakeEvent} (h : IntakeOk A desk) (hsafe : SafeEdit A desk e) : IntakeOk A (desk.step A e) := by
  cases e with
  | upload u =>
    rcases (uploadInvoice_cases A u desk).1 with hsame | ⟨row, hstored⟩
    · show IntakeOk A (uploadInvoice A u desk).1
      rw [hsame]
      exact h
    · exact hstored.intakeOk h
  | vendors edit =>
    refine ⟨h.apart, ?_⟩
    intro c hc id hid
    obtain ⟨v, hv, rfl⟩ := Option.map_eq_some_iff.mp hid
    exact hsafe c hc v hv
  | attach hash => exact ⟨h.apart, h.pointsBack⟩
  | dropDocument id => exact ⟨h.apart, h.pointsBack⟩
  | dropInvoice id =>
    refine ⟨h.apart.sublist (live_drop id), ?_⟩
    intro c hc
    exact h.pointsBack c ((live_drop id).subset hc)

/-- What holds of the live bills and of a bill an upload stores holds of the live bills after a step. -/
theorem live_step {P : VendorInvoice → Prop} {e : IntakeEvent} (h : ∀ c ∈ desk.live, P c)
    (hnew : ∀ u row, e = .upload u → Stored A u desk (uploadInvoice A u desk).1 row → P row) :
    ∀ c ∈ (desk.step A e).live, P c := by
  cases e with
  | upload u =>
    rcases (uploadInvoice_cases A u desk).1 with hsame | ⟨row, hstored⟩
    · show ∀ c ∈ (uploadInvoice A u desk).1.live, P c
      rw [hsame]
      exact h
    · intro c hc
      rw [show (desk.step A (.upload u)).live = _ from live_append hstored.invoices hstored.live] at hc
      rcases List.mem_append.mp hc with hc | hc
      · exact h c hc
      · exact List.mem_singleton.mp hc ▸ hnew u row rfl hstored
  | vendors edit => exact h
  | attach hash => exact h
  | dropDocument id => exact h
  | dropInvoice id => exact fun c hc => h c ((live_drop id).subset hc)

theorem KeysOk.step {e : IntakeEvent} (h : KeysOk A desk) : KeysOk A (desk.step A e) :=
  live_step h fun _ _ _ hstored => hstored.key

/-- An uploaded name that fits its column and is plain. -/
def PlainUpload (A : Alphabet) : IntakeEvent → Prop
  | .upload u => ∀ name parsed, u.rung.extracted = some (name, parsed) →
      name.length ≤ VENDOR_NAME_LIMIT ∧ PlainName A name
  | _ => True

def NamesPlain (A : Alphabet) (desk : IntakeDesk) : Prop := ∀ c ∈ desk.live, PlainName A c.vendorNameRaw

theorem NamesPlain.step {e : IntakeEvent} (h : NamesPlain A desk) (hplain : PlainUpload A e) :
    NamesPlain A (desk.step A e) := by
  refine live_step h fun u row he hstored => ?_
  subst he
  obtain ⟨name, parsed, hextracted, hname, -⟩ := hstored.extracted
  obtain ⟨hfits, hname'⟩ := hplain name parsed hextracted
  rw [hname, List.take_of_length_le hfits]
  exact hname'

/-- What a duplicate answer says: a live bill with the number, ignoring case, and the vendor that the name resolves to
    or a name equal up to case, punctuation and spacing. -/
def JustifiedDuplicate (A : Alphabet) (u : BillUpload) (desk : IntakeDesk) (c : VendorInvoice) : Prop :=
  ∃ name parsed, u.rung.extracted = some (name, parsed) ∧ c ∈ desk.live ∧
    A.lower c.invoiceNumber = A.lower parsed.invoiceNumber ∧
    ((∃ id, desk.vendorOf A name = some id ∧ c.vendorId = some id) ∨ SameName A c.vendorNameRaw name)

theorem AnsweredDuplicate.justified {u : BillUpload} {c : VendorInvoice} (h : AnsweredDuplicate A u desk c)
    (hkeys : KeysOk A desk) (hnames : NamesPlain A desk) (hplain : PlainUpload A (.upload u)) :
    JustifiedDuplicate A u desk c := by
  obtain ⟨name, parsed, hextracted, hfound⟩ := h.extracted
  obtain ⟨hfits, hname⟩ := hplain name parsed hextracted
  rw [List.take_of_length_le hfits] at hfound
  rcases hfound with hfound | hfound
  · obtain ⟨hc, hnumber, ⟨id, hid, hcid⟩ | ⟨-, hsame⟩⟩ := findDuplicateInvoice_some hfound
    · exact ⟨name, parsed, hextracted, hc, hnumber, .inl ⟨id, hid, hcid⟩⟩
    · exact ⟨name, parsed, hextracted, hc, hnumber, .inr ((hnames c hc).same hname hsame)⟩
  · obtain ⟨hc, hkey, hnumber⟩ := findInvoiceByKey_some hfound
    refine ⟨name, parsed, hextracted, hc, hnumber, ?_⟩
    rw [hkeys c hc] at hkey
    cases hid : desk.vendorOf A name with
    | some id =>
      cases hcid : c.vendorId with
      | some id' =>
        rw [hid, hcid] at hkey
        cases hkey
        exact .inl ⟨id, rfl, rfl⟩
      | none =>
        rw [hid, hcid] at hkey
        cases hkey
    | none =>
      cases hcid : c.vendorId with
      | some id' =>
        rw [hid, hcid] at hkey
        cases hkey
      | none =>
        rw [hid, hcid] at hkey
        exact .inr ((hnames c hc).same hname (VendorKey.name.inj hkey))

theorem run_append (events : List IntakeEvent) (e : IntakeEvent) :
    IntakeDesk.run A (events ++ [e]) = (IntakeDesk.run A events).step A e := by
  unfold IntakeDesk.run
  rw [List.foldl_append]
  rfl

/-- Every edit of a run is safe where it happens. -/
def SafeRun (A : Alphabet) : IntakeDesk → List IntakeEvent → Prop
  | _, [] => True
  | desk, e :: events => SafeEdit A desk e ∧ SafeRun A (desk.step A e) events

theorem IntakeOk.foldl {events : List IntakeEvent} (h : IntakeOk A desk) (hsafe : SafeRun A desk events) :
    IntakeOk A (events.foldl (IntakeDesk.step A) desk) := by
  induction events generalizing desk with
  | nil => exact h
  | cons e events ih => exact ih (h.step hsafe.1) hsafe.2

theorem run_intakeOk {events : List IntakeEvent} (h : SafeRun A .empty events) : IntakeOk A (IntakeDesk.run A events) :=
  IntakeOk.foldl ⟨.nil, fun _ hc => absurd hc List.not_mem_nil⟩ h

theorem run_names {events : List IntakeEvent} (h : ∀ e ∈ events, PlainUpload A e) :
    KeysOk A (IntakeDesk.run A events) ∧ NamesPlain A (IntakeDesk.run A events) := by
  induction events using List.reverseRecOn with
  | nil => exact ⟨fun _ hc => absurd hc List.not_mem_nil, fun _ hc => absurd hc List.not_mem_nil⟩
  | append_singleton events e ih =>
    rw [run_append]
    obtain ⟨hkeys, hnames⟩ := ih fun e' he' => h e' (List.mem_append_left _ he')
    exact ⟨hkeys.step, hnames.step (h e (List.mem_append_right _ List.mem_cons_self))⟩

/-- A bill is stored once in every run of safe edits, and an upload is called a duplicate with reason in every run of
    plain names. -/
theorem stored_once (A : Alphabet) (events : List IntakeEvent) :
    (SafeRun A .empty events → OnceOnly A (IntakeDesk.run A events)) ∧
    ((∀ e ∈ events, PlainUpload A e) → ∀ before u, before ++ [IntakeEvent.upload u] <+: events →
      ∀ result, (uploadInvoice A u (IntakeDesk.run A before)).2 = .ok result →
        result.duplicateReason = some .vendorInvoiceNumber →
        JustifiedDuplicate A u (IntakeDesk.run A before) result.invoice) := by
  refine ⟨fun h => (run_intakeOk h).onceOnly, ?_⟩
  intro hplain before u hbegins result hresult hreason
  have hbefore : ∀ e ∈ before, PlainUpload A e := fun e he => hplain e (hbegins.subset (List.mem_append_left _ he))
  have hupload : PlainUpload A (.upload u) :=
    hplain _ (hbegins.subset (List.mem_append_right _ List.mem_cons_self))
  obtain ⟨hkeys, hnames⟩ := run_names hbefore
  exact ((uploadInvoice_cases A u _).2 result hresult hreason).justified hkeys hnames hupload

/-! ### Runs on fixed names -/

/-- Case and punctuation on ASCII texts; characters beyond ASCII fold to themselves. -/
def plainAlphabet : Alphabet where
  casefold c := [c.toLower]
  lower := List.map Char.toLower
  separates c := decide (c.toNat < 128) && !c.isAlphanum
  sha256 := List.map fun b => Char.ofNat b.toNat
  ascii_words c h := by
    have halnum : c.isAlphanum = true := by
      unfold Char.isAlphanum Char.isAlpha
      rcases Bool.or_eq_true_iff.mp h with h | h <;> simp [h]
    simp [halnum]

/-- An LLM upload of bill 77. -/
def bill77 (pdfByte : UInt8) (vendorName : String) : BillUpload :=
  ⟨[pdfByte], .llm (some (vendorName.toList, ⟨"77".toList, none, 5000⟩))⟩

/-- A bill of a vendor without a row, and twice the bill of a vendor with one. -/
def acmeEvents : List IntakeEvent :=
  [.upload (bill77 1 "Smith Doors"), .vendors (.create "Acme".toList ["Acme Steel".toList]),
    .upload (bill77 2 "ACME-STEEL"), .upload (bill77 3 "Acme.")]

/-- The reason of a duplicate answer. -/
def answerOf (A : Alphabet) (u : BillUpload) (desk : IntakeDesk) : Option DuplicateReason :=
  (uploadInvoice A u desk).2.toOption.bind (·.duplicateReason)

theorem answerOf_some {u : BillUpload} {reason : DuplicateReason} (h : answerOf A u desk = some reason) :
    ∃ result, (uploadInvoice A u desk).2 = .ok result ∧ result.duplicateReason = some reason := by
  unfold answerOf at h
  cases hresult : (uploadInvoice A u desk).2 with
  | error e =>
    rw [hresult] at h
    cases h
  | ok result =>
    rw [hresult] at h
    exact ⟨result, rfl, h⟩

theorem stored_once_acme :
    OnceOnly plainAlphabet (IntakeDesk.run plainAlphabet acmeEvents) ∧
    ∃ result, (uploadInvoice plainAlphabet (bill77 3 "Acme.")
        (IntakeDesk.run plainAlphabet (acmeEvents.take 3))).2 = .ok result ∧
      JustifiedDuplicate plainAlphabet (bill77 3 "Acme.")
        (IntakeDesk.run plainAlphabet (acmeEvents.take 3)) result.invoice := by
  obtain ⟨honce, hjustified⟩ := stored_once plainAlphabet acmeEvents
  constructor
  · refine honce ⟨trivial, ?_, trivial, trivial, trivial⟩
    have hnone : ((IntakeDesk.empty.step plainAlphabet (.upload (bill77 1 "Smith Doors"))).live.all fun c =>
        (resolveVendor plainAlphabet [⟨2, "Acme".toList, ["Acme Steel".toList], false⟩] c.vendorNameRaw).isNone) =
          true := by decide +kernel
    intro c hc v hv
    have hc := List.all_eq_true.mp hnone c hc
    rw [show resolveVendor plainAlphabet [⟨2, "Acme".toList, ["Acme Steel".toList], false⟩] c.vendorNameRaw = some v
      from hv] at hc
    cases hc
  · have hplain : ∀ e ∈ acmeEvents, PlainUpload plainAlphabet e := by
      have hnames : (["Smith Doors".toList, "ACME-STEEL".toList, "Acme.".toList].all fun name =>
          decide (name.length ≤ VENDOR_NAME_LIMIT) &&
            (plainAlphabet.fold name).all fun c => plainAlphabet.separates c || asciiAlnum c) = true := by decide +kernel
      have hnames : ∀ name ∈ ["Smith Doors".toList, "ACME-STEEL".toList, "Acme.".toList],
          name.length ≤ VENDOR_NAME_LIMIT ∧ PlainName plainAlphabet name := by
        intro name hname
        obtain ⟨hfits, hchars⟩ := Bool.and_eq_true_iff.mp (List.all_eq_true.mp hnames name hname)
        refine ⟨of_decide_eq_true hfits, ?_⟩
        intro c hc hs
        have := List.all_eq_true.mp hchars c hc
        rwa [hs, Bool.false_or] at this
      intro e he
      simp only [acmeEvents, List.mem_cons, List.not_mem_nil, or_false] at he
      rcases he with rfl | rfl | rfl | rfl
      · rintro name parsed ⟨⟩
        exact hnames _ (by simp)
      · trivial
      · rintro name parsed ⟨⟩
        exact hnames _ (by simp)
      · rintro name parsed ⟨⟩
        exact hnames _ (by simp)
    obtain ⟨result, hresult, hreason⟩ := answerOf_some
      (by decide +kernel : answerOf plainAlphabet (bill77 3 "Acme.")
        (IntakeDesk.run plainAlphabet (acmeEvents.take 3)) = some .vendorInvoiceNumber)
    exact ⟨result, hresult, hjustified hplain (acmeEvents.take 3) _ ⟨[], rfl⟩ result hresult hreason⟩

/-- A vendor row made between two uploads of one bill stores it twice; and a bill of a vendor whose name has no ASCII
    letter is called the duplicate of another's. -/
theorem bill_stored_twice :
    ¬ OnceOnly plainAlphabet (IntakeDesk.run plainAlphabet
      [.upload (bill77 1 "Acme"), .vendors (.create "Acme".toList []), .upload (bill77 2 "Acme")]) ∧
    ∃ result, (uploadInvoice plainAlphabet (bill77 2 "西")
        (IntakeDesk.run plainAlphabet [.upload (bill77 1 "東")])).2 = .ok result ∧
      result.duplicateReason = some .vendorInvoiceNumber ∧
      ¬ JustifiedDuplicate plainAlphabet (bill77 2 "西")
        (IntakeDesk.run plainAlphabet [.upload (bill77 1 "東")]) result.invoice := by
  constructor
  · intro honce
    have hlive : ((IntakeDesk.run plainAlphabet
        [.upload (bill77 1 "Acme"), .vendors (.create "Acme".toList []), .upload (bill77 2 "Acme")]).live.map
          fun c => (c.vendorNameRaw, c.invoiceNumber)) =
        [("Acme".toList, "77".toList), ("Acme".toList, "77".toList)] := by decide +kernel
    unfold OnceOnly at honce
    match hrows : (IntakeDesk.run plainAlphabet
        [.upload (bill77 1 "Acme"), .vendors (.create "Acme".toList []), .upload (bill77 2 "Acme")]).live with
    | [] =>
      rw [hrows] at hlive
      exact absurd (congrArg List.length hlive) (by simp)
    | [b] =>
      rw [hrows] at hlive
      exact absurd (congrArg List.length hlive) (by simp)
    | b :: c :: rest =>
      rw [hrows, List.map_cons, List.map_cons, List.cons.injEq, List.cons.injEq, Prod.mk.injEq, Prod.mk.injEq] at hlive
      obtain ⟨⟨hbname, hbnumber⟩, ⟨hcname, hcnumber⟩, -⟩ := hlive
      rw [hrows] at honce
      have hpair := List.rel_of_pairwise_cons honce List.mem_cons_self
      refine (hpair (by rw [hbnumber, hcnumber])).1 ?_
      rw [hbname, hcname]
      rfl
  · obtain ⟨result, hresult, hreason⟩ := answerOf_some
      (by decide +kernel : answerOf plainAlphabet (bill77 2 "西")
        (IntakeDesk.run plainAlphabet [.upload (bill77 1 "東")]) = some .vendorInvoiceNumber)
    refine ⟨result, hresult, hreason, ?_⟩
    rintro ⟨name, parsed, ⟨⟩, hlive, -, ⟨id, hid, -⟩ | hsame⟩
    · have hnone : (IntakeDesk.run plainAlphabet [.upload (bill77 1 "東")]).vendorOf plainAlphabet "西".toList = none := by
        decide +kernel
      cases hnone.symm.trans hid
    · have hnames : ((IntakeDesk.run plainAlphabet [.upload (bill77 1 "東")]).live.all fun c =>
          words (fun c => !plainAlphabet.separates c) (plainAlphabet.fold c.vendorNameRaw) !=
            words (fun c => !plainAlphabet.separates c) (plainAlphabet.fold "西".toList)) = true := by decide +kernel
      have hc := List.all_eq_true.mp hnames _ hlive
      rw [bne_iff_ne] at hc
      exact hc hsame

end Gdx
