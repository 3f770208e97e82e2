import GdxDispatch.Ledger.Keys

/-! Starter chart of accounts and role resolution.

    Seeding is idempotent: rows with a role top up by role on every run, the others go in only on
    first boot. `ensureRoleAccount` is how the engine turns a role into an account; it tops up a
    role a later release added, and only on an install that already has a chart of accounts. -/

namespace Gdx
open Lib

/-- `(code, name, type, role, is_system)` of the starter accounts. -/
def DEFAULT_COA : List (Text × Text × AccountType × Option Role × Bool) := [
  ("1000".toList, "Operating Bank".toList, .asset, some .operatingBank, true),
  ("1050".toList, "Undeposited Funds".toList, .asset, some .undeposited, true),
  ("1200".toList, "Accounts Receivable".toList, .asset, some .ar, true),
  ("2100".toList, "Sales Tax Payable".toList, .liability, some .salesTaxPayable, true),
  ("2300".toList, "Customer Credits".toList, .liability, some .customerCredits, true),
  ("3000".toList, "Owner Contributions".toList, .equity, none, false),
  ("3100".toList, "Owner Draws".toList, .equity, none, false),
  ("3900".toList, "Retained Earnings".toList, .equity, none, false),
  ("3950".toList, "Opening Balance Equity".toList, .equity, some .openingEquity, true),
  ("4000".toList, "Service & Repair Revenue".toList, .revenue, some .salesFallback, true),
  ("4100".toList, "Installation Revenue".toList, .revenue, none, false),
  ("4200".toList, "Parts Revenue".toList, .revenue, none, false),
  ("4900".toList, "Discounts Given".toList, .revenue, some .discounts, true),
  ("4910".toList, "Refunds & Allowances".toList, .revenue, some .refunds, true),
  ("4950".toList, "Card Surcharge Income".toList, .revenue, some .surchargeIncome, true),
  ("5000".toList, "Parts & Materials".toList, .expense, none, false),
  ("5100".toList, "Subcontractors".toList, .expense, none, false),
  ("6050".toList, "Wages & Payroll".toList, .expense, some .wages, true),
  ("6060".toList, "Payroll Taxes & Fees".toList, .expense, some .payrollTax, true),
  ("6100".toList, "Fuel".toList, .expense, none, false),
  ("6200".toList, "Tools & Equipment".toList, .expense, none, false),
  ("6300".toList, "Advertising".toList, .expense, none, false),
  ("6400".toList, "Insurance".toList, .expense, none, false),
  ("6500".toList, "Vehicle Maintenance".toList, .expense, none, false),
  ("6900".toList, "Uncategorized Expense".toList, .expense, some .expenseFallback, true),
  ("6990".toList, "Rounding Differences".toList, .expense, some .rounding, true)]

/-- The starter rows a seed run still has to insert. -/
def missingCoa (existing : List GlAccount) : List (Text × Text × AccountType × Option Role × Bool) :=
  DEFAULT_COA.filter fun row => match row.2.2.2.1 with
    | some role => !existing.any (·.role == some role)
    | none => existing.isEmpty

/-- `session.add(GlAccount(...))`, with a fresh id. -/
def Ledger.addAccount (L : Ledger) (company : ℕ)
    (row : Text × Text × AccountType × Option Role × Bool) : Ledger :=
  { L with
    accounts := L.accounts ++ [{
      id := L.nextId, code := row.1, name := row.2.1, type := row.2.2.1, role := row.2.2.2.1,
      isSystem := row.2.2.2.2, active := true, companyId := company }]
    nextId := L.nextId + 1 }

/-- Insert the missing starter accounts; returns how many were inserted. -/
def seedCoa (company : ℕ) : LedgerM ℕ := fun L =>
  let missing := missingCoa (L.accounts.filter (·.companyId == company))
  .ok missing.length (missing.foldl (fun M row => M.addAccount company row) L)

/-- The ledger of a fresh install of company 0: the starter chart and nothing posted. -/
def Ledger.seeded : Ledger := after (seedCoa 0) ⟨[], [], [], [], 0⟩

/-- The single active system account owning `role`. -/
def resolveRoleAccount (L : Ledger) (company : ℕ) (role : Role) : Except LedgerError GlAccount :=
  match L.accounts.filter (fun a => a.companyId == company && a.role == some role && a.isSystem && a.active) with
  | [] => .error (.ledgerConfig "no active system account owns the role")
  | [a] => .ok a
  | _ :: _ :: _ => .error (.ledgerConfig "the role is ambiguous")

/-- `resolveRoleAccount` for a role this install may never have seen. -/
def ensureRoleAccount (company : ℕ) (role : Role) : LedgerM GlAccount := fun L =>
  match resolveRoleAccount L company role with
  | .ok a => .ok a L
  | .error e =>
    if L.accounts.isEmpty then .error e L
    else match seedCoa company L with
      | .error e' L' => .error e' L'
      | .ok inserted L' =>
        if inserted = 0 then .error e L'
        else match resolveRoleAccount L' company role with
          | .ok a => .ok a L'
          | .error e' => .error e' L'

/-- `resolveRoleAccount` for a balance read: `none` when no system account ever owned the role. -/
def resolveRoleAccountOrNone (L : Ledger) (company : ℕ) (role : Role) :
    Except LedgerError (Option GlAccount) :=
  if L.accounts.any (fun a => a.role == some role && a.isSystem) then
    (resolveRoleAccount L company role).map some
  else .ok none

/-! ### What seeding leaves alone -/

/-- `L'` is `L` with accounts added at the end, under fresh ids, and nothing else touched. -/
structure ChartGrows (L L' : Ledger) : Prop where
  entries : L'.entries = L.entries
  locks : L'.locks = L.locks
  overrides : L'.overrides = L.overrides
  nextId_le : L.nextId ≤ L'.nextId
  accounts : ∃ added, L'.accounts = L.accounts ++ added ∧
    (∀ a ∈ added, L.nextId ≤ a.id ∧ a.id < L'.nextId) ∧ added.Pairwise (fun a b => a.id < b.id)

theorem ChartGrows.refl (L : Ledger) : ChartGrows L L where
  entries := rfl
  locks := rfl
  overrides := rfl
  nextId_le := le_refl _
  accounts := ⟨[], by simp, by simp, List.Pairwise.nil⟩

theorem ChartGrows.trans {L M N : Ledger} (h : ChartGrows L M) (h' : ChartGrows M N) :
    ChartGrows L N := by
  obtain ⟨x, hx, hxb, hxp⟩ := h.accounts
  obtain ⟨y, hy, hyb, hyp⟩ := h'.accounts
  have hLM := h.nextId_le
  have hMN := h'.nextId_le
  refine ⟨h'.entries.trans h.entries, h'.locks.trans h.locks, h'.overrides.trans h.overrides,
    le_trans hLM hMN, ⟨x ++ y, by rw [hy, hx, List.append_assoc], ?_, ?_⟩⟩
  · intro a ha
    rcases List.mem_append.mp ha with ha | ha
    · obtain ⟨h1, h2⟩ := hxb a ha
      exact ⟨h1, by omega⟩
    · obtain ⟨h1, h2⟩ := hyb a ha
      exact ⟨by omega, h2⟩
  · refine List.pairwise_append.mpr ⟨hxp, hyp, ?_⟩
    intro a ha b hb
    have h1 := (hxb a ha).2
    have h2 := (hyb b hb).1
    omega

theorem chartGrows_addAccount (L : Ledger) (company : ℕ)
    (row : Text × Text × AccountType × Option Role × Bool) :
    ChartGrows L (L.addAccount company row) where
  entries := rfl
  locks := rfl
  overrides := rfl
  nextId_le := Nat.le_succ _
  accounts := ⟨_, rfl, by
    intro a ha
    rw [List.mem_singleton] at ha
    subst ha
    exact ⟨le_refl _, Nat.lt_succ_self _⟩, List.pairwise_singleton _ _⟩

theorem chartGrows_foldl (company : ℕ)
    (rows : List (Text × Text × AccountType × Option Role × Bool)) :
    ∀ L, ChartGrows L (rows.foldl (fun M row => M.addAccount company row) L) := by
  induction rows with
  | nil => exact fun L => .refl L
  | cons row rows ih => exact fun L => (chartGrows_addAccount L company row).trans (ih _)

theorem ensureRoleAccount_grows (company : ℕ) (role : Role) (L : Ledger) :
    ChartGrows L (after (ensureRoleAccount company role) L) := by
  unfold after ensureRoleAccount
  cases resolveRoleAccount L company role with
  | ok a => exact .refl L
  | error e =>
    by_cases hempty : L.accounts.isEmpty
    · simp only [if_pos hempty]; exact .refl L
    · have hgrow := chartGrows_foldl company (missingCoa (L.accounts.filter (·.companyId == company))) L
      simp only [if_neg hempty, seedCoa]
      split_ifs
      · exact hgrow
      · cases resolveRoleAccount _ company role with
        | ok a => exact hgrow
        | error e' => exact hgrow

theorem resolveRoleAccount_mem {L : Ledger} {company : ℕ} {role : Role} {a : GlAccount}
    (h : resolveRoleAccount L company role = .ok a) : a ∈ L.accounts ∧ a.role = some role := by
  unfold resolveRoleAccount at h
  split at h
  · cases h
  · next b heq =>
    cases h
    have hmem : a ∈ L.accounts.filter (fun a => a.companyId == company && a.role == some role && a.isSystem && a.active) := by
      rw [heq]; exact List.mem_singleton.mpr rfl
    rw [List.mem_filter] at hmem
    simp only [Bool.and_eq_true, beq_iff_eq] at hmem
    exact ⟨hmem.1, hmem.2.1.1.2⟩
  · cases h

theorem ensureRoleAccount_mem {L L' : Ledger} {company : ℕ} {role : Role} {a : GlAccount}
    (h : ensureRoleAccount company role L = .ok a L') : a ∈ L'.accounts ∧ a.role = some role := by
  unfold ensureRoleAccount at h
  cases hr : resolveRoleAccount L company role with
  | ok b =>
    rw [hr] at h
    cases h
    exact resolveRoleAccount_mem hr
  | error e =>
    rw [hr] at h
    by_cases hempty : L.accounts.isEmpty
    · simp only [hempty, if_true] at h; cases h
    · simp only [if_neg hempty, seedCoa] at h
      split_ifs at h
      cases hr' : resolveRoleAccount (List.foldl (fun M row => M.addAccount company row) L
          (missingCoa (L.accounts.filter (·.companyId == company)))) company role with
      | ok b =>
        simp only [hr'] at h
        cases h
        exact resolveRoleAccount_mem hr'
      | error e' => simp only [hr'] at h; cases h

/-- A role that already resolves is resolved without touching the ledger. -/
theorem ensureRoleAccount_of_resolve {L : Ledger} {company : ℕ} {role : Role} {a : GlAccount}
    (h : resolveRoleAccount L company role = .ok a) : ensureRoleAccount company role L = .ok a L := by
  unfold ensureRoleAccount
  rw [h]

end Gdx
