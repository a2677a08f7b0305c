import Testjig.Time.Clock

namespace Testjig.Timers

open Testjig.Time

def slackTicks : Int := 12

/-- The `psc` and `arr` that `reprogram_timer()` leaves in TIM4. -/
structure Tim where
  psc : Nat
  arr : Nat
deriving DecidableEq, Repr

/-- System clocks from the register writes to the update event. -/
def Tim.period (tim : Tim) : Nat := (tim.arr + 1) * (tim.psc + 1)

def reprogramTimer (delta : Int) : Tim :=
  if delta < 0x10000 then
    { psc := sysclkMhz / timeMhz - 1
      arr := if delta ≤ slackTicks then 1 else (delta - slackTicks).toNat }
  else
    { psc := sysclkUs 100 - 1
      arr := min 0xffff (BitVec.ofInt 32 (delta.tdiv (timeUs 100) - 50)).toNat }

/-- A `struct timer *`, out of `n` timers. -/
inductive TimerPtr (n : Nat) where
  | null
  | inactive
  | timer (id : Fin n)
deriving DecidableEq, Repr

/-- A `struct timer`; `callback` stands for `cb_fn` and `cb_dat`. -/
structure Timer (κ : Type) (n : Nat) where
  deadline : TimeT
  callback : κ
  next : TimerPtr n

structure TimerQueue (κ : Type) (n : Nat) where
  head : TimerPtr n
  timers : Fin n → Timer κ n

/-- What a `struct timer **` points to. -/
inductive Slot (n : Nat) where
  | head
  | next (id : Fin n)
deriving DecidableEq, Repr

namespace TimerQueue

variable {κ : Type} {n : Nat}

def modify (queue : TimerQueue κ n) (id : Fin n) (change : Timer κ n → Timer κ n) : TimerQueue κ n :=
  { queue with timers := fun i => if i = id then change (queue.timers i) else queue.timers i }

def load (queue : TimerQueue κ n) : Slot n → TimerPtr n
  | .head => queue.head
  | .next id => (queue.timers id).next

def store (queue : TimerQueue κ n) (slot : Slot n) (pointer : TimerPtr n) : TimerQueue κ n :=
  match slot with
  | .head => { queue with head := pointer }
  | .next id => queue.modify id fun t => { t with next := pointer }

def timerInit (queue : TimerQueue κ n) (timer : Fin n) (callback : κ) : TimerQueue κ n :=
  queue.modify timer fun t => { t with callback, next := .inactive }

def timerIsActive (queue : TimerQueue κ n) (timer : Fin n) : Bool :=
  (queue.timers timer).next ≠ .inactive

/-- The search of `_timer_cancel()`. It follows a bad pointer, or never ends, where this is `none`. -/
def findTimer (queue : TimerQueue κ n) (timer : Fin n) : Nat → Slot n → Option (Slot n)
  | 0, _ => none
  | fuel + 1, pprev =>
    match queue.load pprev with
    | .timer t => if t = timer then some pprev else findTimer queue timer fuel (.next t)
    | .null | .inactive => none

/-- The search of `timer_set()` for the place of a deadline `delta` ticks away. -/
def findPlace (queue : TimerQueue κ n) (now : TimeT) (delta : Int) : Nat → Slot n → Option (Slot n)
  | 0, _ => none
  | fuel + 1, pprev =>
    match queue.load pprev with
    | .null => some pprev
    | .timer t =>
      if delta ≤ timeDiff now (queue.timers t).deadline then some pprev
      else findPlace queue now delta fuel (.next t)
    | .inactive => none

-- A walk over `n` timers that takes more than `n + 1` loads has met one of them twice.
def walk (n : Nat) : Nat := n + 1

def timerCancel (queue : TimerQueue κ n) (timer : Fin n) : Option (TimerQueue κ n) :=
  if queue.timerIsActive timer then
    match queue.findTimer timer (walk n) .head with
    | none => none
    | some pprev =>
      let queue := queue.store pprev (queue.timers timer).next
      some (queue.store (.next timer) .inactive)
  else some queue

/-- `timer_set()` with the `now` it samples, and the delta it hands to `reprogram_timer()`, if any. -/
def timerSet (queue : TimerQueue κ n) (timer : Fin n) (deadline now : TimeT) :
    Option (TimerQueue κ n × Option Int) :=
  match queue.timerCancel timer with
  | none => none
  | some queue =>
    let queue := queue.modify timer fun t => { t with deadline }
    let delta := timeDiff now deadline
    match queue.findPlace now delta (walk n) .head with
    | none => none
    | some pprev =>
      let queue := queue.store (.next timer) (queue.load pprev)
      let queue := queue.store pprev (.timer timer)
      some (queue, if queue.head = .timer timer then some delta else none)

inductive Turn (κ : Type) (n : Nat) where
  | finished
  | reprogram (delta : Int)
  | fire (timer : Fin n) (callback : κ) (queue : TimerQueue κ n)

def irqTurn (queue : TimerQueue κ n) (now : TimeT) : Option (Turn κ n) :=
  match queue.head with
  | .null => some .finished
  | .inactive => none
  | .timer t =>
    let delta := timeDiff now (queue.timers t).deadline
    if slackTicks < delta then some (.reprogram delta)
    else
      let next := (queue.timers t).next
      let queue := (queue.store .head next).store (.next t) .inactive
      some (.fire t (queue.timers t).callback queue)

end TimerQueue

theorem reprogramTimer_fine (delta : Int) (near : delta < 0x10000) (later : slackTicks < delta) :
    (reprogramTimer delta).period = 8 * (delta - 11).toNat := by
  have notSlack : ¬ delta ≤ slackTicks := by omega
  rw [reprogramTimer, if_pos near, if_neg notSlack]
  simp only [Tim.period, sysclkMhz, timeMhz, stkMhz, slackTicks] at later ⊢
  omega

theorem reprogramTimer_far (delta : Int) (far : 0x10000 ≤ delta) (bound : delta < 2^31) :
    reprogramTimer delta = { psc := 7199, arr := min 0xffff (delta / 900 - 50).toNat } := by
  have notNear : ¬ delta < 0x10000 := by omega
  have quotient : delta.tdiv 900 = delta / 900 := Int.tdiv_eq_ediv_of_nonneg (by omega)
  have steps : (BitVec.ofInt 32 (delta / 900 - 50)).toNat = (delta / 900 - 50).toNat := by
    rw [BitVec.toNat_ofInt]
    congr 1
    exact Int.emod_eq_of_lt (by omega) (by omega)
  rw [reprogramTimer, if_neg notNear]
  simp only [timeUs, stkUs, stkMhz, sysclkUs, sysclkMhz]
  have clocks : ((100 * (72 / 8) : Nat) : Int) = 900 := by decide
  rw [clocks, quotient, steps]

theorem reprogramTimer_coarse (delta : Int) (far : 0x10000 ≤ delta) (bound : delta < 2^31) :
    (reprogramTimer delta).period ≤ 8 * (delta - 44100).toNat := by
  rw [reprogramTimer_far delta far bound]
  simp only [Tim.period]
  omega

theorem reprogramTimer_early (delta : Int) (later : slackTicks < delta) (bound : delta < 2^31) :
    ((reprogramTimer delta).period : Int) ≤ 8 * (delta - 11) := by
  have positive : 12 < delta := later
  rcases Int.lt_or_le delta 0x10000 with near | far
  · have exact := reprogramTimer_fine delta near later
    omega
  · have early := reprogramTimer_coarse delta far bound
    omega

end Testjig.Timers
