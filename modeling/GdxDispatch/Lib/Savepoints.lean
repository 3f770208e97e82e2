import Mathlib.Data.List.Basic

/-! A database session with savepoints.

    A session sees its own writes over what is durable. Opening a savepoint remembers what it sees; rolling the savepoint
    back goes there again, releasing it forgets the place. A failed flush rolls the innermost savepoint back, or the
    transaction when none is open, and leaves it dead: it can only be ended. Each savepoint carries a note.

    `Tracked` is about notes of which keys were written: where the note of every level names all that differs from
    the level below, so does the one at the bottom about what is durable. -/

namespace Lib

variable {D A K : Type}

/-- An open savepoint: what to go back to, and its note. -/
structure Savepoint (D A : Type) where
  saved : D
  note : A
  deriving DecidableEq

/-- A session: what is durable, what it sees, and the open savepoints, innermost first. -/
structure Txn (D A : Type) where
  durable : D
  now : D
  frames : List (Savepoint D A)
  dead : Bool
  deriving DecidableEq

namespace Txn

def start (d : D) : Txn D A := ⟨d, d, [], false⟩

def write (t : Txn D A) (d : D) : Txn D A := { t with now := d }

def savepoint (t : Txn D A) (note : A) : Txn D A := { t with frames := ⟨t.now, note⟩ :: t.frames }

/-- What the innermost savepoint, or the transaction, began with. -/
def base (t : Txn D A) : D := (t.frames.head?.map (·.saved)).getD t.durable

/-- The innermost savepoint is rolled back. -/
def rollbackTo (t : Txn D A) : Txn D A := { t with now := t.base, frames := t.frames.tail, dead := false }

/-- A flush fails. -/
def fail (t : Txn D A) : Txn D A := { t with now := t.base, dead := true }

def commit (t : Txn D A) : Txn D A := { t with durable := t.now, frames := [] }

def rollback (t : Txn D A) : Txn D A := { t with now := t.durable, frames := [], dead := false }

end Txn

/-! ### What differs is noted -/

section Tracked
variable {same : K → D → D → Prop}

/-- Each level's note names the keys at which it differs from the level below: `note` is the innermost level's, the
    frames carry those of the levels they opened, and `root` stands last. -/
def Tracked (same : K → D → D → Prop) (durable : D) : D → List K → List (D × List K) → Prop
  | now, note, [] => ∀ k, k ∉ note → same k durable now
  | now, note, (saved, below) :: rest => (∀ k, k ∉ note → same k saved now) ∧ Tracked same durable saved below rest

variable {durable now now' saved : D} {note below keys : List K} {rest : List (D × List K)}

/-- A write that notes what it changes. -/
theorem Tracked.write (htrans : ∀ k a b c, same k a b → same k b c → same k a c)
    (h : Tracked same durable now note rest) (hw : ∀ k, k ∉ keys → same k now now') :
    Tracked same durable now' (keys ++ note) rest := by
  have hnote : ∀ d, (∀ k, k ∉ note → same k d now) → ∀ k, k ∉ keys ++ note → same k d now' := by
    intro d hd k hk
    rw [List.mem_append, not_or] at hk
    exact htrans k d now now' (hd k hk.2) (hw k hk.1)
  cases rest with
  | nil => exact hnote durable h
  | cons frame rest => exact ⟨hnote frame.1 h.1, h.2⟩

/-- A savepoint opens with nothing noted. -/
theorem Tracked.savepoint (hrefl : ∀ k a, same k a a) (h : Tracked same durable now note rest) :
    Tracked same durable now [] ((now, note) :: rest) := ⟨fun k _ => hrefl k now, h⟩

/-- A release hands its note down. -/
theorem Tracked.release (htrans : ∀ k a b c, same k a b → same k b c → same k a c)
    (h : Tracked same durable now note ((saved, below) :: rest)) :
    Tracked same durable now (note ++ below) rest := h.2.write htrans h.1

/-- A rollback drops it. -/
theorem Tracked.rollbackTo (h : Tracked same durable now note ((saved, below) :: rest)) :
    Tracked same durable saved below rest := h.2

end Tracked

end Lib
