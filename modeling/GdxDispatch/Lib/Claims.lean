import Mathlib.Data.List.Nodup
import Mathlib.Data.Option.Basic

/-! Claims on rows of a table.

    A row carries a key and a stamp that names its holder. A claim is one update that stamps the rows a
    condition selects, a release clears the stamps of one holder. `Exact` says that the stamps and what the
    live holders hold tell the same story. -/

namespace Lib

/-- Rows with a key and a stamp that may name a holder. -/
class Claimable (ρ : Type) (κ ι : outParam Type) where
  key : ρ → κ
  holder : ρ → Option ι
  stamp : Option ι → ρ → ρ
  key_stamp : ∀ o r, key (stamp o r) = key r
  holder_stamp : ∀ o r, holder (stamp o r) = o

section Tables

variable {ρ κ ι : Type} [Claimable ρ κ ι]

open Claimable

/-- Stamp the rows that a condition selects. -/
def claimRows (o : ι) (sel : ρ → Bool) (rows : List ρ) : List ρ :=
  rows.map fun r => if sel r then stamp (some o) r else r

theorem key_claimed (o : ι) (sel : ρ → Bool) (r : ρ) :
    key (if sel r then stamp (some o) r else r) = key r := by
  split
  · exact key_stamp _ r
  · rfl

theorem keys_claimRows (o : ι) (sel : ρ → Bool) (rows : List ρ) :
    (claimRows o sel rows).map key = rows.map key := by
  rw [claimRows, List.map_map]
  exact List.map_congr_left fun r _ => key_claimed o sel r

section Lookup

variable [DecidableEq κ]

/-- The holder of the row with a key. -/
def holderOf (rows : List ρ) (x : κ) : Option ι := (rows.find? fun r => key r = x).bind holder

/-- A change that keeps the keys finds the changed row. -/
theorem find?_map_of_key (f : ρ → ρ) (hf : ∀ r, key (f r) = key r) (rows : List ρ) (x : κ) :
    (rows.map f).find? (fun r => key r = x) = (rows.find? fun r => key r = x).map f := by
  rw [List.find?_map]
  congr 2
  funext r
  simp [hf]

/-- Keys are unique, so a row is found by its key. -/
theorem find?_key {rows : List ρ} (hkeys : (rows.map key).Nodup) {r : ρ} (hr : r ∈ rows) :
    rows.find? (fun q => key q = key r) = some r := by
  cases hfind : rows.find? fun q => key q = key r with
  | none =>
    have := List.find?_eq_none.mp hfind r hr
    simp at this
  | some q =>
    have hkey : key q = key r := by simpa using List.find?_some hfind
    rw [List.inj_on_of_nodup_map hkeys (List.mem_of_find?_eq_some hfind) hr hkey]

theorem holderOf_of_mem {rows : List ρ} (hkeys : (rows.map key).Nodup) {r : ρ} (hr : r ∈ rows) :
    holderOf rows (key r) = holder r := by
  rw [holderOf, find?_key hkeys hr, Option.bind_some]

/-- A new row that nobody holds changes no holder. -/
theorem holderOf_append_free (rows : List ρ) {r : ρ} (hr : holder r = none) (x : κ) :
    holderOf (rows ++ [r]) x = holderOf rows x := by
  unfold holderOf
  rw [List.find?_append]
  cases rows.find? fun q => key q = x with
  | some q => rfl
  | none =>
    rw [Option.none_or, List.find?_cons]
    split
    · exact hr
    · rfl

/-- A new row in front that nobody holds changes no holder. -/
theorem holderOf_cons_free {rows : List ρ} {r : ρ} (hr : holder r = none) (hkey : key r ∉ rows.map key) (x : κ) :
    holderOf (r :: rows) x = holderOf rows x := by
  unfold holderOf
  by_cases hx : key r = x
  · have hnone : rows.find? (fun q => key q = x) = none := by
      refine List.find?_eq_none.mpr fun q hq hqx => hkey ?_
      exact List.mem_map.mpr ⟨q, hq, by simpa [hx] using hqx⟩
    rw [hnone, List.find?_cons_of_pos (by simpa using hx)]
    exact hr
  · rw [List.find?_cons_of_neg (by simpa using hx)]

/-- A change that keeps the keys and the holders. -/
theorem holderOf_map (f : ρ → ρ) (hkey : ∀ r, key (f r) = key r) (hholder : ∀ r, holder (f r) = holder r)
    (rows : List ρ) (x : κ) : holderOf (rows.map f) x = holderOf rows x := by
  rw [holderOf, holderOf, find?_map_of_key f hkey, Option.bind_map]
  congr 1
  funext r
  exact hholder r

section Claim

variable {rows : List ρ} {sel : ρ → Bool} {xs : List κ}

/-- A claim that stamps a row for each key asked for, and no other. -/
theorem holderOf_claimRows (o : ι) (hkeys : (rows.map key).Nodup) (hsel : ∀ r ∈ rows, sel r = true → key r ∈ xs)
    (hall : ∀ x ∈ xs, ∃ r ∈ rows, sel r = true ∧ key r = x) (x : κ) :
    holderOf (claimRows o sel rows) x = if x ∈ xs then some o else holderOf rows x := by
  have hfind := find?_map_of_key (fun r => if sel r then stamp (some o) r else r) (key_claimed o sel) rows x
  rw [holderOf, claimRows, hfind, Option.bind_map]
  by_cases hx : x ∈ xs
  · obtain ⟨r, hr, hrsel, rfl⟩ := hall x hx
    rw [if_pos hx, find?_key hkeys hr, Option.bind_some, Function.comp_apply, if_pos hrsel, holder_stamp]
  · rw [if_neg hx, holderOf]
    cases hq : rows.find? fun q => key q = x with
    | none => rfl
    | some q =>
      have hkey : key q = x := by simpa using List.find?_some hq
      have hskip : ¬sel q = true := fun h => hx (hkey ▸ hsel q (List.mem_of_find?_eq_some hq) h)
      rw [Option.bind_some, Option.bind_some, Function.comp_apply, if_neg hskip]

/-- Rows that are claimed only when free were free. -/
theorem holderOf_claimable (hkeys : (rows.map key).Nodup) {P : Option ι → Prop}
    (hfree : ∀ r ∈ rows, sel r = true → P (holder r))
    (hall : ∀ x ∈ xs, ∃ r ∈ rows, sel r = true ∧ key r = x) : ∀ x ∈ xs, P (holderOf rows x) := by
  intro x hx
  obtain ⟨r, hr, hrsel, rfl⟩ := hall x hx
  rw [holderOf_of_mem hkeys hr]
  exact hfree r hr hrsel

end Claim

end Lookup

section Release

variable [DecidableEq ι]

/-- Clear the stamps that name a holder. -/
def releaseRows (o : ι) (rows : List ρ) : List ρ :=
  rows.map fun r => if holder r = some o then stamp none r else r

theorem key_released (o : ι) (r : ρ) : key (if holder r = some o then stamp none r else r) = key r := by
  split
  · exact key_stamp _ r
  · rfl

theorem keys_releaseRows (o : ι) (rows : List ρ) : (releaseRows o rows).map key = rows.map key := by
  rw [releaseRows, List.map_map]
  exact List.map_congr_left fun r _ => key_released o r

theorem holderOf_releaseRows [DecidableEq κ] (o : ι) (rows : List ρ) (x : κ) :
    holderOf (releaseRows o rows) x = (holderOf rows x).filter (fun p => p ≠ o) := by
  have hfind := find?_map_of_key (fun r => if holder r = some o then stamp none r else r) (key_released o) rows x
  rw [holderOf, releaseRows, hfind, Option.bind_map, holderOf]
  cases rows.find? fun q => key q = x with
  | none => rfl
  | some q =>
    rw [Option.bind_some, Option.bind_some, Function.comp_apply]
    by_cases hq : holder q = some o
    · rw [if_pos hq, holder_stamp, hq]
      simp [Option.filter]
    · rw [if_neg hq]
      cases hp : holder q with
      | none => rfl
      | some p =>
        have hne : p ≠ o := fun heq => hq (heq ▸ hp)
        simp [Option.filter, hne]

end Release

end Tables

/-! ### Stamps and holdings -/

/-- The live holders hold exactly what is stamped with them, and only live holders are stamped. -/
structure Exact {σ ι : Type} (stamp : σ → Option ι) (live : ι → Prop) (holds : ι → σ → Prop) : Prop where
  held : ∀ o, live o → ∀ x, holds o x ↔ stamp x = some o
  alive : ∀ x o, stamp x = some o → live o

namespace Exact

variable {σ ι : Type} {stamp stamp' : σ → Option ι} {live live' : ι → Prop} {holds holds' : ι → σ → Prop}

theorem unique (h : Exact stamp live holds) {o o' : ι} (ho : live o) (ho' : live o') {x : σ} (hx : holds o x)
    (hx' : holds o' x) : o = o' := by
  have h1 := (h.held o ho x).mp hx
  have h2 := (h.held o' ho' x).mp hx'
  exact Option.some.inj (h1.symm.trans h2)

/-- A new holder claims what no live one holds. -/
theorem claim (h : Exact stamp live holds) {k : ι} {C : σ → Prop} [DecidablePred C] (hnew : ¬live k)
    (hfree : ∀ x, C x → ∀ o ∈ stamp x, ¬live o) (hstamp : ∀ x, stamp' x = if C x then some k else stamp x)
    (hlive : ∀ o, live' o ↔ live o ∨ o = k) (hk : ∀ x, holds' k x ↔ C x)
    (hothers : ∀ o, o ≠ k → ∀ x, holds' o x ↔ holds o x) : Exact stamp' live' holds' := by
  -- what a live holder is stamped on is not free
  have hnot : ∀ x, C x → stamp x = none := by
    intro x hx
    cases hs : stamp x with
    | none => rfl
    | some o => exact absurd (h.alive x o hs) (hfree x hx o hs)
  refine ⟨fun o ho x => ?_, fun x o hx => ?_⟩
  · rw [hstamp]
    by_cases hok : o = k
    · subst hok
      rw [hk]
      split
      · simp_all
      · rename_i hx
        exact iff_of_false hx fun hs => hnew (h.alive x o hs)
    · have hold : live o := ((hlive o).mp ho).resolve_right hok
      rw [hothers o hok, h.held o hold]
      split
      · rename_i hx
        rw [hnot x hx]
        exact iff_of_false (by simp) fun hs => hok (Option.some.inj hs).symm
      · rfl
  · rw [hstamp] at hx
    split at hx
    · exact (hlive o).mpr (Or.inr (Option.some.inj hx).symm)
    · exact (hlive o).mpr (Or.inl (h.alive x o hx))

/-- A holder gives everything back and is live no more. -/
theorem release (h : Exact stamp live holds) [DecidableEq ι] {k : ι}
    (hstamp : ∀ x, stamp' x = (stamp x).filter fun p => p ≠ k)
    (hlive : ∀ o, live' o ↔ live o ∧ o ≠ k) (hothers : ∀ o, o ≠ k → ∀ x, holds' o x ↔ holds o x) :
    Exact stamp' live' holds' := by
  refine ⟨fun o ho x => ?_, fun x o hx => ?_⟩
  · obtain ⟨hold, hne⟩ := (hlive o).mp ho
    rw [hothers o hne, h.held o hold, hstamp, Option.filter_eq_some_iff]
    simp [hne]
  · rw [hstamp, Option.filter_eq_some_iff] at hx
    exact (hlive o).mpr ⟨h.alive x o hx.1, by simpa using hx.2⟩

/-- The same story told of the same things. -/
theorem congr (h : Exact stamp live holds) (hstamp : ∀ x, stamp' x = stamp x) (hlive : ∀ o, live' o ↔ live o)
    (hholds : ∀ o, live o → ∀ x, holds' o x ↔ holds o x) : Exact stamp' live' holds' := by
  refine ⟨fun o ho x => ?_, fun x o hx => ?_⟩
  · have hold := (hlive o).mp ho
    rw [hholds o hold, h.held o hold, hstamp]
  · rw [hstamp] at hx
    exact (hlive o).mpr (h.alive x o hx)

end Exact

end Lib
