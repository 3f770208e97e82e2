import Mathlib.Data.List.Basic

/-! A key-value store whose entries expire.

    `set` replaces the entry of a key and gives it a deadline; `get` finds it until then. Time is a number
    that the caller supplies, and nothing is assumed about how fast it runs. -/

namespace Lib

/-- A value kept under a key until a deadline. -/
structure TtlEntry (κ ν : Type) where
  key : κ
  value : ν
  expires : ℕ

abbrev TtlCache (κ ν : Type) := List (TtlEntry κ ν)

namespace TtlCache

variable {κ ν : Type} [DecidableEq κ]

/-- The value under a key at some time. -/
def get (c : TtlCache κ ν) (now : ℕ) (k : κ) : Option ν :=
  (c.find? fun e => decide (e.key = k ∧ now < e.expires)).map (·.value)

/-- Keep a value under a key for a while. -/
def set (c : TtlCache κ ν) (now ttl : ℕ) (k : κ) (v : ν) : TtlCache κ ν :=
  ⟨k, v, now + ttl⟩ :: c.filter fun e => decide (e.key ≠ k)

variable {c : TtlCache κ ν} {now ttl t : ℕ} {k k' : κ} {v : ν}

/-- What `get` finds is an entry that has not expired. -/
theorem mem_of_get (h : c.get t k = some v) : ∃ e ∈ c, e.key = k ∧ e.value = v ∧ t < e.expires := by
  obtain ⟨e, hfind, rfl⟩ := Option.map_eq_some_iff.mp h
  have hsel := List.find?_some hfind
  simp only [decide_eq_true_eq] at hsel
  exact ⟨e, List.mem_of_find?_eq_some hfind, hsel.1, rfl, hsel.2⟩

theorem get_set_self (h : t < now + ttl) : (c.set now ttl k v).get t k = some v := by
  simp [get, set, h]

theorem get_set_other (h : k' ≠ k) : (c.set now ttl k v).get t k' = c.get t k' := by
  unfold get set
  rw [List.find?_cons_of_neg (by simp [h.symm]), List.find?_filter]
  congr 2
  funext e
  by_cases he : e.key = k' <;> simp [he, h]

theorem mem_set {e : TtlEntry κ ν} (h : e ∈ c.set now ttl k v) : e = ⟨k, v, now + ttl⟩ ∨ e ∈ c := by
  rcases List.mem_cons.mp h with rfl | h
  · exact Or.inl rfl
  · exact Or.inr (List.mem_of_mem_filter h)

end TtlCache

end Lib
