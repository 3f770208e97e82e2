import GdxDispatch.Lib.Runs
import GdxDispatch.Core.CircuitBreaker

/-! An open circuit stays open and is tested by one probe.

    Three things break this. A caller that finds the state at half open is let through beside the probe. A caller that
    read an opening time before the state changed hands lets itself through on it. And between the two writes of an
    opening the state is new and its time is old. In a run where none of these happens, nobody passes before the
    recovery time is over, and one caller passes before the breaker closes or opens again. -/

namespace Gdx.Breaker

open Lib

variable {cb : CircuitBreaker} {s : System} {c : ℕ} {p : Place}

/-! ### What is watched -/

/-- The last opening that no success and no reset has ended: when the state was set, and the caller let through since. -/
inductive Trial where
  | idle
  | opened (since : ℚ)
  | probed (since : ℚ) (probe : ℕ)
  deriving DecidableEq

/-- Somebody passes, or nobody. -/
def Trial.passed : Trial → Option ℕ → Trial
  | .opened since, some probe => .probed since probe
  | trial, _ => trial

def Trial.watch (trial : Trial) (s : System) : Event → Trial
  | .command c =>
    match s.place c with
    | .setOpen => .opened s.now
    | .successDelete => .idle
    | .successSet => .idle
    | _ => trial.passed (s.letsThrough (.command c))
  | _ => trial

@[simp] theorem Trial.passed_none (trial : Trial) : trial.passed none = trial := by cases trial <;> rfl

/-- The breaker and the watch on it. -/
structure Watched where
  sys : System
  trial : Trial

def Watched.step (cb : CircuitBreaker) (w : Watched) (event : Event) : Watched :=
  ⟨w.sys.step cb event, w.trial.watch w.sys event⟩

def Watched.empty : Watched := ⟨.empty, .idle⟩

def Watched.run (cb : CircuitBreaker) (events : List Event) : Watched := events.foldl (Watched.step cb) .empty

/-- A caller may pass: no opening stands, or it is older than the recovery time and nobody passed since. -/
def Watched.MayPass (cb : CircuitBreaker) (w : Watched) : Prop :=
  match w.trial with
  | .idle => True
  | .opened since => since + cb.recoveryTimeout < w.sys.now
  | .probed _ _ => False

/-- Whoever is let through may pass. -/
def OneProbe (cb : CircuitBreaker) (events : List Event) : Prop :=
  ∀ before event after, events = before ++ event :: after →
    ∀ caller, (Watched.run cb before).sys.letsThrough event = some caller → (Watched.run cb before).MayPass cb

/-- No caller stands between the two writes of an opening. -/
def System.Stamped (s : System) : Prop := ∀ c, (s.place c).opening = false

/-- No caller finds the state at half open, the state goes to half open on the opening time that was read, and nobody
    else sets it to open or half open between the two writes of an opening. -/
def Undisturbed (w : Watched) : Event → Prop
  | .command c =>
    match w.sys.place c with
    | .getState => w.sys.state ≠ some .halfOpen
    | .setHalfOpen t => w.sys.state = some .opened ∧ w.sys.openedAt = some t ∧ w.sys.Stamped
    | .setOpen => w.sys.Stamped
    | _ => True
  | _ => True

/-! ### The invariant -/

/-- What the watch says of the keys and of the callers. -/
structure Sane (cb : CircuitBreaker) (s : System) (trial : Trial) : Prop where
  single : ∀ c c', (s.place c).opening = true → (s.place c').opening = true → c = c'
  compared : ∀ c t, s.place c = .setHalfOpen t → t + cb.recoveryTimeout < s.now
  idle : trial = .idle → s.state ≠ some .opened ∧ s.state ≠ some .halfOpen
  opened : ∀ since, trial = .opened since → s.state = some .opened ∧ since ≤ s.now ∧
    (∀ c t, s.place c = .setOpenedAt t → since ≤ t) ∧ (s.Stamped → ∃ t, s.openedAt = some t ∧ since ≤ t)
  probed : ∀ since probe, trial = .probed since probe → s.state = some .halfOpen

theorem place_go (c' : ℕ) : (s.go c p).place c' = if c' = c then p else s.place c' := by
  simp [System.go, Function.update_apply]

theorem place_go_ne {c' : ℕ} (h : c' ≠ c) : (s.go c p).place c' = s.place c' := by rw [place_go, if_neg h]

/-- A move from outside the two writes leaves nobody between them only where nobody was. -/
theorem Stamped.of_go (hc : (s.place c).opening = false) (h : (s.go c p).Stamped) : s.Stamped := by
  intro c'
  by_cases hcc : c' = c
  · rw [hcc]
    exact hc
  · rw [← place_go_ne (p := p) hcc]
    exact h c'

theorem opening_go (hp : p.opening = false) {c' : ℕ} (h : ((s.go c p).place c').opening = true) :
    c' ≠ c ∧ (s.place c').opening = true := by
  rw [place_go] at h
  split at h
  · rw [hp] at h
    cases h
  · rename_i hne
    exact ⟨hne, h⟩

/-- Where nobody was between the two writes, only the mover is. -/
theorem only_mover (h : s.Stamped) {c' : ℕ} (hopening : ((s.go c p).place c').opening = true) : c' = c := by
  by_contra hne
  rw [place_go_ne hne] at hopening
  exact absurd ((h c').symm.trans hopening) Bool.false_ne_true

/-- A move keeps what the callers compared. -/
theorem compared_go {bound : ℚ} (h : ∀ c t, s.place c = .setHalfOpen t → t + cb.recoveryTimeout < bound)
    (hp : ∀ t, p = .setHalfOpen t → t + cb.recoveryTimeout < bound) (c' : ℕ) (t : ℚ)
    (hplace : (s.go c p).place c' = .setHalfOpen t) : t + cb.recoveryTimeout < bound := by
  rw [place_go] at hplace
  split at hplace
  · exact hp t hplace
  · exact h c' t hplace

/-- A move outside the two writes that leaves the keys. -/
theorem Sane.go {trial : Trial} (h : Sane cb s trial) (hc : (s.place c).opening = false) (hp : p.opening = false)
    (hcompared : ∀ t, p = .setHalfOpen t → t + cb.recoveryTimeout < s.now) : Sane cb (s.go c p) trial where
  single := fun c₁ c₂ h₁ h₂ => h.single c₁ c₂ (opening_go hp h₁).2 (opening_go hp h₂).2
  compared := compared_go h.compared hcompared
  idle := h.idle
  opened := fun since hsince => by
    obtain ⟨hstate, hnow, htimes, hstamp⟩ := h.opened since hsince
    refine ⟨hstate, hnow, fun c' t hplace => ?_, fun hall => hstamp (Stamped.of_go hc hall)⟩
    have hopening : ((s.go c p).place c').opening = true := by
      rw [hplace]
      rfl
    rw [place_go_ne (opening_go hp hopening).1] at hplace
    exact htimes c' t hplace
  probed := h.probed

variable {trial : Trial}

/-- A success or a reset ends the opening. -/
theorem Sane.toIdle {state : Option CircuitState} {failures : ℕ} {openedAt : Option ℚ} (h : Sane cb s trial)
    (hopened : state ≠ some .opened) (hhalf : state ≠ some .halfOpen) :
    Sane cb { s with state := state, failures := failures, openedAt := openedAt } .idle where
  single := h.single
  compared := h.compared
  idle := fun _ => ⟨hopened, hhalf⟩
  opened := nofun
  probed := nofun

theorem Sane.setOpen (h : Sane cb s trial) (hstamped : s.Stamped) :
    Sane cb ({ s with state := some .opened }.go c .stampClock) (.opened s.now) where
  single := fun c₁ c₂ h₁ h₂ => by
    have hwas : ({ s with state := some .opened } : System).Stamped := hstamped
    rw [only_mover hwas h₁, only_mover hwas h₂]
  compared := compared_go (s := { s with state := some .opened }) h.compared nofun
  idle := nofun
  opened := fun since hsince => by
    cases hsince
    refine ⟨rfl, le_rfl, fun c' t hplace => ?_, fun hall => ?_⟩
    · rw [place_go] at hplace
      split at hplace
      · cases hplace
      · have hclosed : (s.place c').opening = false := hstamped c'
        rw [show s.place c' = .setOpenedAt t from hplace] at hclosed
        cases hclosed
    · have hopening := hall c
      rw [place_go, if_pos rfl] at hopening
      cases hopening
  probed := nofun

/-- The opening time is written. -/
theorem Sane.setOpenedAt {t : ℚ} (h : Sane cb s trial) (hplace : s.place c = .setOpenedAt t) :
    Sane cb ({ s with openedAt := some t }.go c .away) trial where
  single := fun c₁ c₂ h₁ h₂ =>
    h.single c₁ c₂ (opening_go (p := .away) rfl h₁).2 (opening_go (p := .away) rfl h₂).2
  compared := compared_go (s := { s with openedAt := some t }) h.compared nofun
  idle := h.idle
  opened := fun since hsince => by
    obtain ⟨hstate, hnow, htimes, -⟩ := h.opened since hsince
    refine ⟨hstate, hnow, fun c' t' hplace' => ?_, fun _ => ⟨t, rfl, htimes c t hplace⟩⟩
    rw [place_go] at hplace'
    split at hplace'
    · cases hplace'
    · exact htimes c' t' hplace'
  probed := h.probed

/-- The opener reads the clock. -/
theorem Sane.stampClock (h : Sane cb s trial) (hplace : s.place c = .stampClock) :
    Sane cb (s.go c (.setOpenedAt s.now)) trial where
  single := fun c₁ c₂ h₁ h₂ => by
    have hwas : ∀ c', ((s.go c (.setOpenedAt s.now)).place c').opening = true → (s.place c').opening = true :=
        fun c' hopening => by
      rw [place_go] at hopening
      split at hopening
      · rename_i heq
        rw [heq, hplace]
        rfl
      · exact hopening
    exact h.single c₁ c₂ (hwas c₁ h₁) (hwas c₂ h₂)
  compared := compared_go h.compared nofun
  idle := h.idle
  opened := fun since hsince => by
    obtain ⟨hstate, hnow, htimes, -⟩ := h.opened since hsince
    refine ⟨hstate, hnow, fun c' t hplace' => ?_, fun hall => ?_⟩
    · rw [place_go] at hplace'
      split at hplace'
      · cases hplace'
        exact hnow
      · exact htimes c' t hplace'
    · have hopening := hall c
      rw [place_go, if_pos rfl] at hopening
      cases hopening
  probed := h.probed

/-- The state goes from open to half open, and its setter passes. -/
theorem Sane.setHalfOpen {since : ℚ} (h : Sane cb s trial) (hc : (s.place c).opening = false) :
    Sane cb ({ s with state := some .halfOpen }.go c .running) (.probed since c) := by
  refine Sane.go (p := .running) ⟨h.single, h.compared, nofun, nofun, fun _ _ _ => rfl⟩ hc rfl nofun

/-- An idle watch is what a closed state means. -/
theorem Sane.idle_of_closed (h : Sane cb s trial) (hopened : s.state ≠ some .opened)
    (hhalf : s.state ≠ some .halfOpen) : trial = .idle := by
  cases htrial : trial with
  | idle => rfl
  | opened since => exact absurd (h.opened since htrial).1 hopened
  | probed since probe => exact absurd (h.probed since probe htrial) hhalf

theorem Sane.opened_of_state (h : Sane cb s trial) (hstate : s.state = some .opened) :
    ∃ since, trial = .opened since := by
  cases htrial : trial with
  | idle => exact absurd hstate (h.idle htrial).1
  | opened since => exact ⟨since, rfl⟩
  | probed since probe => exact absurd (hstate.symm.trans (h.probed since probe htrial)) (by decide)

/-! ### Steps and runs -/

theorem Sane.command (h : Sane cb s trial) (hfit : Undisturbed ⟨s, trial⟩ (.command c)) :
    Sane cb (s.command cb c) (trial.watch s (.command c)) := by
  have hc : ∀ {place : Place}, s.place c = place → place.opening = false → (s.place c).opening = false :=
    fun hplace hopening => hplace ▸ hopening
  cases hplace : s.place c with
  | getState =>
    simp only [Undisturbed, hplace] at hfit
    simp only [System.command, Trial.watch, System.letsThrough, hplace]
    split
    · rw [Trial.passed_none]
      exact h.go (hc hplace rfl) rfl fun _ hset => by cases hset
    · rename_i hopened
      obtain rfl := h.idle_of_closed hopened hfit
      exact h.go (hc hplace rfl) rfl fun _ hset => by cases hset
  | getOpenedAt =>
    simp only [System.command, Trial.watch, System.letsThrough, hplace, Trial.passed_none]
    split
    · exact h.go (hc hplace rfl) rfl fun _ hset => by cases hset
    · exact h.go (hc hplace rfl) rfl fun _ hset => by cases hset
  | setHalfOpen t =>
    simp only [Undisturbed, hplace] at hfit
    simp only [System.command, Trial.watch, System.letsThrough, hplace]
    obtain ⟨since, rfl⟩ := h.opened_of_state hfit.1
    exact h.setHalfOpen (hc hplace rfl)
  | successGet =>
    simp only [System.command, Trial.watch, System.letsThrough, hplace, Trial.passed_none]
    exact h.go (hc hplace rfl) rfl fun _ hset => by cases hset
  | successDelete =>
    simp only [System.command, Trial.watch, hplace]
    have hended : Sane cb { s with state := none, failures := 0, openedAt := none } .idle :=
      h.toIdle (by decide) (by decide)
    exact hended.go (hc hplace rfl) rfl fun _ hset => by cases hset
  | successSet =>
    simp only [System.command, Trial.watch, hplace]
    have hended : Sane cb { s with state := some .closed } .idle := h.toIdle (by decide) (by decide)
    exact hended.go (hc hplace rfl) rfl fun _ hset => by cases hset
  | failureIncr =>
    simp only [System.command, Trial.watch, System.letsThrough, hplace, Trial.passed_none]
    have hcounted : Sane cb { s with failures := s.failures + 1 } trial :=
      ⟨h.single, h.compared, h.idle, h.opened, h.probed⟩
    split
    · exact hcounted.go (hc hplace rfl) rfl fun _ hset => by cases hset
    · exact hcounted.go (hc hplace rfl) rfl fun _ hset => by cases hset
  | failureGet =>
    simp only [System.command, Trial.watch, System.letsThrough, hplace, Trial.passed_none]
    split
    · exact h.go (hc hplace rfl) rfl fun _ hset => by cases hset
    · exact h.go (hc hplace rfl) rfl fun _ hset => by cases hset
  | setOpen =>
    simp only [Undisturbed, hplace] at hfit
    simp only [System.command, Trial.watch, hplace]
    exact h.setOpen hfit
  | setOpenedAt t =>
    simp only [System.command, Trial.watch, System.letsThrough, hplace, Trial.passed_none]
    exact h.setOpenedAt hplace
  | away =>
    simp only [System.command, Trial.watch, System.letsThrough, hplace, Trial.passed_none]
    exact h
  | running =>
    simp only [System.command, Trial.watch, System.letsThrough, hplace, Trial.passed_none]
    exact h
  | compareClock t =>
    simp only [System.command, Trial.watch, System.letsThrough, hplace, Trial.passed_none]
    exact h
  | stampClock =>
    simp only [System.command, Trial.watch, System.letsThrough, hplace, Trial.passed_none]
    exact h

theorem Sane.clock (h : Sane cb s trial) : Sane cb (s.clock cb c) trial := by
  unfold System.clock
  split
  · rename_i t hplace
    have hc : (s.place c).opening = false := by
      rw [hplace]
      rfl
    split
    · rename_i helapsed
      refine h.go hc rfl fun t' ht' => ?_
      cases ht'
      linarith
    · exact h.go hc rfl nofun
  · rename_i hplace
    exact h.stampClock hplace
  · exact h

/-- The clock never goes back. -/
theorem Sane.tick (h : Sane cb s trial) (t : ℚ) : Sane cb { s with now := max s.now t } trial where
  single := h.single
  compared := fun c t' hplace => (h.compared c t' hplace).trans_le (le_max_left _ _)
  idle := h.idle
  opened := fun since hsince => by
    obtain ⟨hstate, hnow, hrest⟩ := h.opened since hsince
    exact ⟨hstate, hnow.trans (le_max_left _ _), hrest⟩
  probed := h.probed

theorem Outcome.next_opening (outcome : Outcome) : outcome.next.opening = false := by cases outcome <;> rfl

theorem Outcome.next_ne (outcome : Outcome) (t : ℚ) : outcome.next ≠ .setHalfOpen t := by cases outcome <;> nofun

theorem Sane.step {event : Event} (h : Sane cb s trial) (hfit : Undisturbed ⟨s, trial⟩ event) :
    Sane cb (s.step cb event) (trial.watch s event) := by
  cases event with
  | tick t => exact h.tick t
  | call c =>
    rw [System.step]
    split
    · rename_i haway
      exact h.go (by rw [haway]; rfl) rfl nofun
    · exact h
  | reset c =>
    rw [System.step]
    split
    · rename_i haway
      exact h.go (by rw [haway]; rfl) rfl nofun
    · exact h
  | returns c outcome =>
    rw [System.step]
    split
    · rename_i hrunning
      exact h.go (by rw [hrunning]; rfl) outcome.next_opening fun t ht => absurd ht (outcome.next_ne t)
    · exact h
  | clock c => exact h.clock
  | command c => exact h.command hfit

theorem sane_empty : Sane cb .empty .idle where
  single := fun _ _ => nofun
  compared := fun _ _ => nofun
  idle := fun _ => ⟨nofun, nofun⟩
  opened := nofun
  probed := nofun

/-- Undisturbed, whoever is let through may pass. -/
theorem Sane.mayPass {event : Event} (h : Sane cb s trial) (hfit : Undisturbed ⟨s, trial⟩ event)
    (hlets : s.letsThrough event = some c) : (Watched.mk s trial).MayPass cb := by
  cases event with
  | command c' =>
    cases hplace : s.place c' with
    | getState =>
      simp only [Undisturbed, hplace] at hfit
      simp only [System.letsThrough, hplace] at hlets
      split at hlets
      · cases hlets
      · rename_i hopened
        obtain rfl := h.idle_of_closed hopened hfit
        trivial
    | setHalfOpen t =>
      simp only [Undisturbed, hplace] at hfit
      obtain ⟨hstate, htime, hstamped⟩ := hfit
      obtain ⟨since, rfl⟩ := h.opened_of_state hstate
      obtain ⟨stamp, hstamp, hle⟩ := (h.opened since rfl).2.2.2 hstamped
      obtain rfl : stamp = t := Option.some.inj (hstamp.symm.trans htime)
      have hcompared := h.compared c' stamp hplace
      change since + cb.recoveryTimeout < s.now
      linarith
    | _ => simp [System.letsThrough, hplace] at hlets
  | _ => cases hlets

/-- In a run where nothing disturbs the three keys, an open circuit stays open until the recovery time is over, and is
    then tested by one probe. -/
theorem open_circuit_one_probe (cb : CircuitBreaker) (events : List Event)
    (h : Along (Watched.step cb) Undisturbed .empty events) : OneProbe cb events := by
  rintro before event after rfl caller hlets
  obtain ⟨hbefore, hrest⟩ := along_append.mp h
  have hstep : ∀ (w : Watched) (event : Event), Sane cb w.sys w.trial → Undisturbed w event →
      Sane cb (w.step cb event).sys (w.step cb event).trial := fun w event hsane hfit => hsane.step hfit
  have hsane : Sane cb (Watched.run cb before).sys (Watched.run cb before).trial :=
    hbefore.keeps hstep sane_empty
  exact hsane.mayPass hrest.1 hlets

/-! ### Callers that do nothing -/

/-- Whose event it is. -/
def Event.caller : Event → Option ℕ
  | .tick _ => none
  | .call c => some c
  | .reset c => some c
  | .returns c _ => some c
  | .clock c => some c
  | .command c => some c

/-- An event moves its caller only. -/
theorem step_place_ne {event : Event} (h : event.caller ≠ some c) : (s.step cb event).place c = s.place c := by
  cases event with
  | tick t => rfl
  | call c' =>
    have hne : c ≠ c' := fun heq => h (congrArg some heq.symm)
    rw [System.step]
    split
    · exact place_go_ne hne
    · rfl
  | reset c' =>
    have hne : c ≠ c' := fun heq => h (congrArg some heq.symm)
    rw [System.step]
    split
    · exact place_go_ne hne
    · rfl
  | returns c' outcome =>
    have hne : c ≠ c' := fun heq => h (congrArg some heq.symm)
    rw [System.step]
    split
    · exact place_go_ne hne
    · rfl
  | clock c' =>
    have hne : c ≠ c' := fun heq => h (congrArg some heq.symm)
    rw [System.step, System.clock]
    split
    · split
      · exact place_go_ne hne
      · exact place_go_ne hne
    · exact place_go_ne hne
    · rfl
  | command c' =>
    have hne : c ≠ c' := fun heq => h (congrArg some heq.symm)
    rw [System.step, System.command]
    split <;> (try split) <;> first | exact place_go_ne hne | rfl

/-- A caller without an event is away. -/
theorem run_place_away (events : List Event) (h : ∀ event ∈ events, event.caller ≠ some c) :
    (Watched.run cb events).sys.place c = .away := by
  have hstep : ∀ (w : Watched) (event : Event), w.sys.place c = .away → event.caller ≠ some c →
      (w.step cb event).sys.place c = .away := fun w event haway hne => (step_place_ne hne).trans haway
  refine Along.keeps hstep (along_iff.mpr fun before event after heq => h event ?_) rfl
  rw [heq]
  exact List.mem_append_right _ List.mem_cons_self

/-! ### A breaker that opens on the first failure -/

def fragile : CircuitBreaker := ⟨1, 60⟩

/-- A call fails, opens the circuit and stamps it. -/
def failedCall : List Event :=
  [.call 0, .command 0, .returns 0 .failure, .command 0, .command 0, .command 0, .clock 0, .command 0]

/-- 61 seconds later a second caller reads the keys and the clock. -/
def recovered : List Event := failedCall ++ [.tick 61, .call 1, .command 1, .command 1, .clock 1]

def openedThenProbed : List Event := recovered ++ [.command 1]

theorem recovered_undisturbed : Along (Watched.step fragile) Undisturbed .empty openedThenProbed := by
  refine along_concat.mpr ⟨⟨trivial, nofun, trivial, trivial, trivial, ?_, trivial, trivial, trivial, trivial, ?_, trivial,
    trivial, trivial⟩, ?_⟩
  · -- the first caller sets the state alone
    intro c
    rcases c with _ | c
    · rfl
    · rfl
  · have hopened : (Watched.run fragile (failedCall ++ [.tick 61, .call 1])).sys.state = some .opened := by
      decide +kernel
    change (Watched.run fragile (failedCall ++ [.tick 61, .call 1])).sys.state ≠ some .halfOpen
    rw [hopened]
    decide
  · have hplace : (Watched.run fragile recovered).sys.place 1 = .setHalfOpen 0 := by decide +kernel
    have hstate : (Watched.run fragile recovered).sys.state = some .opened := by decide +kernel
    have htime : (Watched.run fragile recovered).sys.openedAt = some 0 := by decide +kernel
    change Undisturbed (Watched.run fragile recovered) (.command 1)
    simp only [Undisturbed, hplace]
    refine ⟨hstate, htime, fun c => ?_⟩
    rcases c with _ | _ | c
    · decide +kernel
    · rw [hplace]
      rfl
    · rw [run_place_away recovered]
      · rfl
      · simp [recovered, failedCall, Event.caller]

theorem open_circuit_one_probe_recovered : OneProbe fragile openedThenProbed :=
  open_circuit_one_probe _ _ recovered_undisturbed

/-- While the probe runs, a third caller finds the state at half open and is let through too. -/
theorem half_open_admits_everyone : ¬ ∀ cb events, OneProbe cb events := by
  intro h
  have hlaw := h fragile (openedThenProbed ++ [.call 2, .command 2]) (openedThenProbed ++ [.call 2]) (.command 2) []
    (by simp) 2 (by decide +kernel)
  have hprobed : (Watched.run fragile (openedThenProbed ++ [.call 2])).trial = .probed 0 1 := by decide +kernel
  rw [Watched.MayPass, hprobed] at hlaw
  exact hlaw

end Gdx.Breaker
