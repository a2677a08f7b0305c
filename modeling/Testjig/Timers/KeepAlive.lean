import Testjig.Time.Refinement
import Testjig.Timers.Queue

namespace Testjig.Timers

open Machine Testjig.Time

inductive Callback where
  | timeStampUpdate
deriving DecidableEq, Repr

/-- Ticks from an expiry of TIM4 to the end of the `IRQ_timer()` it causes. -/
def maxLatency : Nat := 12000000

/-- Ticks between a sample and the register write that follows it, and spent in `time_init()`. -/
def maxStall : Nat := timeMs 15

/-- The clock, its timer and, in system clocks, the instant at which TIM4 will expire. -/
structure Alive where
  timeStamp : BitVec 32
  recorded : Nat
  queue : TimerQueue Callback 1
  expiry : Option Nat
  last : Nat
  refreshes : List Nat
  readings : List Reading

def inTime (expiry : Option Nat) (tick : Nat) : Bool :=
  match expiry with
  | none => true
  | some clock => 8 * tick < clock + 8 * maxLatency

namespace Alive

def sample (start : BitVec 24) (a : Alive) (tick : Nat) : TimeT := timeNow a.timeStamp (stkNow start tick)

end Alive

/-- `head` and `time_stamp_timer` as the C runtime leaves them -/
def powerOn : TimerQueue Callback 1 where
  head := .null
  timers := fun _ => { deadline := 0, callback := .timeStampUpdate, next := .null }

theorem maxStall_ticks : maxStall = 135000 := by decide

theorem inTime_some {clock tick : Nat} :
    inTime (some clock) tick = true ↔ 8 * tick < clock + 96000000 := by
  rw [inTime, decide_eq_true_iff, maxLatency]

/-- Only `time_stamp_timer` is queued, for the true tick `due`. -/
structure Queued (start : BitVec 24) (first due : Nat) (queue : TimerQueue Callback 1) : Prop where
  head : queue.head = .timer 0
  next : (queue.timers 0).next = .null
  deadline : (queue.timers 0).deadline = clockAt start first due

/-- The stamps, newest first, follow one another within a turn of the counter. -/
def Refreshed : List Nat → Prop
  | later :: earlier :: rest => earlier ≤ later ∧ later < earlier + 2^24 ∧ Refreshed (earlier :: rest)
  | _ => True

structure Kept (start : BitVec 24) (first : Nat) (a : Alive) : Prop where
  stamped : Stamped start first a.timeStamp a.recorded
  order : a.recorded ≤ a.last
  newest : ∃ older, a.refreshes = a.recorded :: older
  refreshed : Refreshed a.refreshes
  readings : ∀ r ∈ a.readings, r.time = clockAt start first r.tick

structure Ticking (start : BitVec 24) (first due : Nat) (a : Alive) : Prop where
  kept : Kept start first a
  queued : Queued start first due a.queue
  late : a.recorded ≤ due
  soon : due ≤ a.recorded + 4500000 + maxStall

/-- TIM4 expires after its registers were written, and soon enough for the deadline; what was done so far was done in
time. -/
structure Programmed (due clock : Nat) (a : Alive) : Prop where
  expiry : a.expiry = some clock
  after : 8 * a.recorded ≤ clock
  early : clock ≤ 8 * (due + maxStall) - 88
  served : 8 * a.last < clock + 96000000
  recent : a.last < a.recorded + 2^24

structure AliveInvariant (start : BitVec 24) (first : Nat) (a : Alive) : Prop where
  ticking : ∃ due clock, Ticking start first due a ∧ Programmed due clock a

theorem Kept.sample {start : BitVec 24} {first tick : Nat} {a : Alive} (kept : Kept start first a)
    (order : a.recorded ≤ tick) (fresh : tick < a.recorded + 2^24) :
    a.sample start tick = clockAt start first tick :=
  kept.stamped.reading order fresh

theorem AliveInvariant.fresh {start : BitVec 24} {first : Nat} {a : Alive} (holds : AliveInvariant start first a)
    (tick : Nat) (within : inTime a.expiry tick) : tick < a.recorded + 2^24 := by
  obtain ⟨due, clock, ticking, programmed⟩ := holds.ticking
  have sooner := ticking.soon
  have stall := maxStall_ticks
  have early := programmed.early
  rw [programmed.expiry, inTime_some] at within
  omega

end Testjig.Timers
