import GdxDispatch.Lib.Text

/-! Vendor bills: `modules/vendor_invoices/models.py`.

    Money is whole cents, a UUID is a number, a date is a day number. -/

namespace Gdx
open Lib

inductive BillStatus where
  | opened
  | paid
  | void
  deriving DecidableEq

/-- The vendor a bill counts under for uniqueness: the row its name resolved to, or the normalised name. The source
    keeps both in one text column; the text of a UUID has dashes and a normalised name has none. -/
inductive VendorKey where
  | vendor (id : ℕ)
  | name (normalised : Text)
  deriving DecidableEq

structure VendorInvoice where
  id : ℕ
  vendorId : Option ℕ
  vendorKey : VendorKey
  vendorNameRaw : Text
  invoiceNumber : Text
  invoiceDate : Option ℤ
  total : ℤ
  status : BillStatus
  matchedJobId : Option ℕ
  documentId : Option ℕ
  deleted : Bool
  deriving DecidableEq

end Gdx
