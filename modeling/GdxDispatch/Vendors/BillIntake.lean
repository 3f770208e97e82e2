import GdxDispatch.Lib.Words
import GdxDispatch.Vendors.Models

/-! Vendor-bill intake: `modules/vendor_invoices/service.py` with the vendor resolution and the duplicate lookup of
    `matching.py`.

    An upload is answered by the bill its bytes were stored under, else by a bill with its vendor and number, else it
    is stored. Both rungs (the parser and the LLM) share the second half. The vendor rows that names resolve to are
    edited between uploads.

    Left out: the bytes on disk, the lines, the arithmetic check and its notes, the advisory possible-duplicate flag,
    folders, and the JSON a vendor's aliases are kept in. -/

namespace Gdx
open Lib

/-- What the intake takes from Python and the database about characters and bytes. -/
structure Alphabet where
  /-- Full case folding, character by character. -/
  casefold : Char → Text
  /-- `lower`, of Python and of the database. -/
  lower : Text → Text
  /-- Punctuation and spacing. -/
  separates : Char → Bool
  sha256 : List UInt8 → Text
  ascii_words : ∀ c, (c.isLower || c.isDigit) = true → separates c = false

structure Vendor where
  id : ℕ
  name : Text
  aliases : List Text
  deleted : Bool

structure Document where
  id : ℕ
  contentHash : Text
  deleted : Bool

structure ParsedInvoice where
  invoiceNumber : Text
  invoiceDate : Option ℤ
  total : ℤ

/-- The tables of the intake. `nextId` is the supply of fresh ids. -/
structure IntakeDesk where
  vendors : List Vendor
  documents : List Document
  invoices : List VendorInvoice
  nextId : ℕ

inductive DuplicateReason where
  | contentHash
  | vendorInvoiceNumber
  deriving DecidableEq

structure InvoiceUploadResult where
  invoice : VendorInvoice
  created : Bool
  duplicateReason : Option DuplicateReason

inductive IntakeError where
  | emptyFile
  | unreadable
  | invoiceNumberTooLong (length : ℕ)
  | integrity
  deriving DecidableEq

/-! ### Matching -/

/-- `[a-z0-9]`. -/
def asciiAlnum (c : Char) : Bool := c.isLower || c.isDigit

def Alphabet.fold (A : Alphabet) (name : Text) : Text := name.flatMap A.casefold

/-- `normalize_name`. -/
def normalizeName (A : Alphabet) (name : Text) : Text :=
  trim Char.isWhitespace (collapse asciiAlnum ' ' false (A.fold name))

def Vendor.answersTo (A : Alphabet) (target : Text) (v : Vendor) : Bool :=
  normalizeName A v.name == target || v.aliases.any fun a => normalizeName A a == target

/-- `resolve_vendor`. -/
def resolveVendor (A : Alphabet) (vendors : List Vendor) (vendorNameRaw : Text) : Option Vendor :=
  let target := normalizeName A vendorNameRaw
  if target.isEmpty then none
  else (vendors.filter fun v => !v.deleted).find? (·.answersTo A target)

/-- `compute_vendor_key`. -/
def computeVendorKey (A : Alphabet) (vendorId : Option ℕ) (vendorNameRaw : Text) : VendorKey :=
  match vendorId with
  | some id => .vendor id
  | none => .name (normalizeName A vendorNameRaw)

def IntakeDesk.live (desk : IntakeDesk) : List VendorInvoice := desk.invoices.filter fun c => !c.deleted

def sameNumber (A : Alphabet) (number : Text) (c : VendorInvoice) : Bool := A.lower c.invoiceNumber == A.lower number

/-- `find_invoice_by_key`. -/
def findInvoiceByKey (A : Alphabet) (desk : IntakeDesk) (key : VendorKey) (number : Text) : Option VendorInvoice :=
  desk.live.find? fun c => c.vendorKey == key && sameNumber A number c

/-- `find_duplicate_invoice`: by vendor when the name resolved, else by normalised name. -/
def findDuplicateInvoice (A : Alphabet) (desk : IntakeDesk) (vendorId : Option ℕ) (vendorNameRaw number : Text) :
    Option VendorInvoice :=
  (desk.live.filter (sameNumber A number)).find? fun c =>
    match vendorId with
    | some id => c.vendorId == some id
    | none => normalizeName A c.vendorNameRaw == normalizeName A vendorNameRaw

/-! ### Uploads -/

/-- `String(60)` and `String(200)`. -/
def INVOICE_NUMBER_LIMIT : ℕ := 60

def VENDOR_NAME_LIMIT : ℕ := 200

def MIDWEST_VENDOR_NAME : Text := "Midwest Wholesale Doors".toList

/-- The two rungs, with what the extraction made of the bytes. The parser knows its vendor. -/
inductive Rung where
  | parser (parsed : Option ParsedInvoice)
  | llm (extracted : Option (Text × ParsedInvoice))

def Rung.extracted : Rung → Option (Text × ParsedInvoice)
  | .parser parsed => parsed.map fun p => (MIDWEST_VENDOR_NAME, p)
  | .llm extracted => extracted

structure BillUpload where
  pdfBytes : List UInt8
  rung : Rung

/-- `find_existing_document`. -/
def findExistingDocument (desk : IntakeDesk) (hash : Text) : Option Document :=
  desk.documents.find? fun d => d.contentHash == hash && !d.deleted

/-- `_invoice_for_document`. -/
def invoiceForDocument (desk : IntakeDesk) (document : ℕ) : Option VendorInvoice :=
  desk.live.find? fun c => c.documentId == some document

/-- The two partial unique indexes, at an insert. -/
def IntakeDesk.clashes (desk : IntakeDesk) (row : VendorInvoice) : Bool :=
  desk.live.any fun c =>
    (c.vendorKey == row.vendorKey && c.invoiceNumber == row.invoiceNumber) ||
      (row.documentId.isSome && c.documentId == row.documentId)

/-- `_persist_parsed_invoice`. -/
def persistParsedInvoice (A : Alphabet) (hash : Text) (existing : Option Document) (vendorName : Text)
    (parsed : ParsedInvoice) (desk : IntakeDesk) : IntakeDesk × Except IntakeError InvoiceUploadResult :=
  if INVOICE_NUMBER_LIMIT < parsed.invoiceNumber.length then
    (desk, .error (.invoiceNumberTooLong parsed.invoiceNumber.length))
  else
    let vendorNameRaw := vendorName.take VENDOR_NAME_LIMIT
    let vendorId := (resolveVendor A desk.vendors vendorNameRaw).map (·.id)
    match findDuplicateInvoice A desk vendorId vendorNameRaw parsed.invoiceNumber with
    | some dup => (desk, .ok ⟨dup, false, some .vendorInvoiceNumber⟩)
    | none =>
      let document := existing.getD ⟨desk.nextId, hash, false⟩
      let invoice : VendorInvoice := {
        id := desk.nextId + 1
        vendorId := vendorId
        vendorKey := computeVendorKey A vendorId vendorNameRaw
        vendorNameRaw := vendorNameRaw
        invoiceNumber := parsed.invoiceNumber
        invoiceDate := parsed.invoiceDate
        total := parsed.total
        status := .opened
        matchedJobId := none
        documentId := some document.id
        deleted := false }
      if desk.clashes invoice then
        -- The session is rolled back, and the row that won the index is the answer.
        match findInvoiceByKey A desk invoice.vendorKey invoice.invoiceNumber with
        | some winner => (desk, .ok ⟨winner, false, some .vendorInvoiceNumber⟩)
        | none => (desk, .error .integrity)
      else
        ({ desk with
            documents := if existing.isSome then desk.documents else desk.documents ++ [document]
            invoices := desk.invoices ++ [invoice]
            nextId := desk.nextId + 2 }, .ok ⟨invoice, true, none⟩)

/-- `upload_midwest_invoice` and `upload_invoice_via_llm`. -/
def uploadInvoice (A : Alphabet) (u : BillUpload) (desk : IntakeDesk) :
    IntakeDesk × Except IntakeError InvoiceUploadResult :=
  if u.pdfBytes.isEmpty then (desk, .error .emptyFile)
  else
    let hash := A.sha256 u.pdfBytes
    let existing := findExistingDocument desk hash
    match existing.bind fun d => invoiceForDocument desk d.id with
    | some inv => (desk, .ok ⟨inv, false, some .contentHash⟩)
    | none =>
      match u.rung.extracted with
      | none => (desk, .error .unreadable)
      | some (vendorName, parsed) => persistParsedInvoice A hash existing vendorName parsed desk

/-! ### Runs -/

/-- Changes of the vendor rows. The table is read in no fixed order: an updated row may move. -/
inductive VendorEdit where
  | create (name : Text) (aliases : List Text)
  | rename (id : ℕ) (name : Text)
  | alias (id : ℕ) (aliases : List Text)
  | softDelete (id : ℕ)
  | moveLast (id : ℕ)

def VendorEdit.apply (fresh : ℕ) (vendors : List Vendor) : VendorEdit → List Vendor
  | .create name aliases => vendors ++ [⟨fresh, name, aliases, false⟩]
  | .rename id name => vendors.map fun v => if v.id = id then { v with name := name } else v
  | .alias id aliases => vendors.map fun v => if v.id = id then { v with aliases := aliases } else v
  | .softDelete id => vendors.map fun v => if v.id = id then { v with deleted := true } else v
  | .moveLast id => vendors.filter (·.id != id) ++ vendors.filter (·.id == id)

/-- What happens at the intake. Documents are also stored by other parts of the program. -/
inductive IntakeEvent where
  | upload (u : BillUpload)
  | vendors (edit : VendorEdit)
  | attach (contentHash : Text)
  | dropDocument (id : ℕ)
  | dropInvoice (id : ℕ)

def IntakeDesk.step (A : Alphabet) (desk : IntakeDesk) : IntakeEvent → IntakeDesk
  | .upload u => (uploadInvoice A u desk).1
  | .vendors edit => { desk with vendors := edit.apply desk.nextId desk.vendors, nextId := desk.nextId + 1 }
  | .attach hash =>
    { desk with documents := desk.documents ++ [⟨desk.nextId, hash, false⟩], nextId := desk.nextId + 1 }
  | .dropDocument id =>
    { desk with documents := desk.documents.map fun d => if d.id = id then { d with deleted := true } else d }
  | .dropInvoice id =>
    { desk with invoices := desk.invoices.map fun c => if c.id = id then { c with deleted := true } else c }

def IntakeDesk.empty : IntakeDesk := ⟨[], [], [], 0⟩

def IntakeDesk.run (A : Alphabet) (events : List IntakeEvent) : IntakeDesk := events.foldl (IntakeDesk.step A) .empty

end Gdx
