import Mathlib

/-! The circuit breaker (`core/circuit_breaker.py`), command by command.

    State, failure count and opening time are three Redis keys. A caller reads the state, perhaps the opening time and
    the clock, and is let through or not; when the call it guards is over it writes the outcome. Commands are atomic,
    and any number of callers interleave them. -/

namespace Gdx.Breaker

inductive CircuitState where
  | closed | opened | halfOpen
  deriving DecidableEq, Repr

structure CircuitBreaker where
  failureThreshold : ℕ
  recoveryTimeout : ℕ

/-- Where a caller stands: each place but `away` and `running` names what the caller does next. -/
inductive Place where
  | away
  /-- `get_state`. -/
  | getState
  | getOpenedAt
  | compareClock (openedAt : ℚ)
  | setHalfOpen (openedAt : ℚ)
  /-- Let through: the guarded call runs. -/
  | running
  /-- `record_success`. -/
  | successGet
  | successDelete
  | successSet
  /-- `record_failure`. -/
  | failureIncr
  | failureGet
  | setOpen
  | stampClock
  | setOpenedAt (time : ℚ)
  deriving DecidableEq

/-- Between the two writes of an opening. -/
def Place.opening : Place → Bool
  | .stampClock => true
  | .setOpenedAt _ => true
  | _ => false

/-- The keys, the clock and the callers. -/
structure System where
  state : Option CircuitState
  failures : ℕ
  openedAt : Option ℚ
  now : ℚ
  place : ℕ → Place

def System.empty : System := ⟨none, 0, none, 0, fun _ => .away⟩

/-- How a guarded call ends. Nothing is recorded of an `HTTPException` under the decorator or of a `CircuitOpenError`
    under `call`. -/
inductive Outcome where
  | success | failure | unrecorded
  deriving DecidableEq, Repr

/-- The clock moves, a caller begins, the guarded call ends, a caller reads the clock or sends its next command. -/
inductive Event where
  | tick (time : ℚ)
  | call (caller : ℕ)
  | reset (caller : ℕ)
  | returns (caller : ℕ) (outcome : Outcome)
  | clock (caller : ℕ)
  | command (caller : ℕ)
  deriving DecidableEq

def System.go (s : System) (caller : ℕ) (place : Place) : System :=
  { s with place := Function.update s.place caller place }

def Outcome.next : Outcome → Place
  | .success => .successGet
  | .failure => .failureIncr
  | .unrecorded => .away

/-- One command of a caller. -/
def System.command (s : System) (cb : CircuitBreaker) (c : ℕ) : System :=
  match s.place c with
  | .getState => if s.state = some .opened then s.go c .getOpenedAt else s.go c .running
  | .getOpenedAt =>
    match s.openedAt with
    | none => s.go c .away
    | some t => s.go c (.compareClock t)
  | .setHalfOpen _ => { s with state := some .halfOpen }.go c .running
  | .successGet => s.go c .successDelete
  | .successDelete => { s with state := none, failures := 0, openedAt := none }.go c .successSet
  | .successSet => { s with state := some .closed }.go c .away
  | .failureIncr =>
    let counted := { s with failures := s.failures + 1 }
    if cb.failureThreshold ≤ s.failures + 1 then counted.go c .failureGet else counted.go c .away
  | .failureGet => if s.state = some .opened then s.go c .away else s.go c .setOpen
  | .setOpen => { s with state := some .opened }.go c .stampClock
  | .setOpenedAt t => { s with openedAt := some t }.go c .away
  | _ => s

/-- A caller reads the clock. -/
def System.clock (s : System) (cb : CircuitBreaker) (c : ℕ) : System :=
  match s.place c with
  | .compareClock t => if cb.recoveryTimeout < s.now - t then s.go c (.setHalfOpen t) else s.go c .away
  | .stampClock => s.go c (.setOpenedAt s.now)
  | _ => s

def System.step (cb : CircuitBreaker) (s : System) : Event → System
  | .tick t => { s with now := max s.now t }
  | .call c => if s.place c = .away then s.go c .getState else s
  | .reset c => if s.place c = .away then s.go c .successGet else s
  | .returns c outcome => if s.place c = .running then s.go c outcome.next else s
  | .clock c => s.clock cb c
  | .command c => s.command cb c

/-- The caller an event lets through. -/
def System.letsThrough (s : System) : Event → Option ℕ
  | .command c =>
    match s.place c with
    | .getState => if s.state = some .opened then none else some c
    | .setHalfOpen _ => some c
    | _ => none
  | _ => none

end Gdx.Breaker
