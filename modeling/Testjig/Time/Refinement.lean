import Testjig.Time.Clock

namespace Machine.Wrap

/-- Rebuild a wide down-counter from an older full value and a sample of its low part. -/
def splice (low wide stamp sample : Nat) : Nat :=
  let joined := stamp / low * low + sample
  if stamp < joined then (joined + (wide - low)) % wide else joined

theorem low_lag {low rest sample lag : Nat} (sampleBound : sample < low) (lagBound : lag < low)
    (synced : (sample + lag) % low = rest) :
    sample + lag = rest ∨ sample + lag = rest + low := by
  by_cases small : sample + lag < low
  · left
    rwa [Nat.mod_eq_of_lt small] at synced
  · right
    have wrapped : (sample + lag) % low = sample + lag - low := by
      rw [Nat.mod_eq_sub_mod (by omega), Nat.mod_eq_of_lt (by omega)]
    omega

/-- The splice is exact while the stamp is less than one turn of the low part old. -/
theorem splice_exact {low wide stamp sample lag : Nat} (divides : low ∣ wide)
    (stampBound : stamp < wide) (sampleBound : sample < low) (lagBound : lag < low)
    (synced : (sample + lag) % low = stamp % low) :
    splice low wide stamp sample = (stamp + (wide - lag)) % wide := by
  have lowWide : low ≤ wide := Nat.le_of_dvd (by omega) divides
  have parts : stamp / low * low + stamp % low = stamp := Nat.div_add_mod' stamp low
  have restBound : stamp % low < low := Nat.mod_lt _ (by omega)
  unfold splice
  dsimp only
  rcases low_lag sampleBound lagBound synced with exact | borrowed
  · have older : ¬ stamp < stamp / low * low + sample := by omega
    rw [if_neg older]
    have moved : stamp + (wide - lag) = stamp / low * low + sample + wide := by omega
    rw [moved, Nat.add_mod_right, Nat.mod_eq_of_lt (by omega)]
  · have newer : stamp < stamp / low * low + sample := by omega
    rw [if_pos newer]
    congr 1
    omega

end Machine.Wrap

namespace Testjig.Time

open Machine

def Synced (start : BitVec 24) (timeStamp : BitVec 32) (recorded : Nat) : Prop :=
  timeStamp.setWidth 24 = start - BitVec.ofNat 24 recorded

theorem stkNow_toNat (start : BitVec 24) (tick : Nat) :
    (stkNow start tick).toNat = (start - BitVec.ofNat 24 tick).toNat := by
  have bound := (start - BitVec.ofNat 24 tick).isLt
  rw [stkNow, BitVec.toNat_setWidth]
  exact Nat.mod_eq_of_lt (by omega)

theorem stkNow_bound (start : BitVec 24) (tick : Nat) : (stkNow start tick).toNat < 2^24 := by
  rw [stkNow_toNat]
  exact (start - BitVec.ofNat 24 tick).isLt

theorem top_byte (s : BitVec 32) : s &&& (0xff#32 <<< 24) = (s >>> 24) <<< 24 := by
  have mask : ∀ i < 32, (0xff#32 <<< 24).getLsbD i = decide (24 ≤ i) := by decide
  apply BitVec.eq_of_getLsbD_eq
  intro i bound
  rw [BitVec.getLsbD_and, mask i bound, BitVec.getLsbD_shiftLeft, BitVec.getLsbD_ushiftRight]
  by_cases low : i < 24
  · simp [low]
  · have back : 24 + (i - 24) = i := by omega
    simp [low, back, bound]
    omega

theorem top_byte_toNat (s : BitVec 32) : (s &&& (0xff#32 <<< 24)).toNat = s.toNat / 2^24 * 2^24 := by
  have bound := s.isLt
  rw [top_byte, BitVec.toNat_shiftLeft, BitVec.toNat_ushiftRight, Nat.shiftRight_eq_div_pow,
    Nat.shiftLeft_eq]
  exact Nat.mod_eq_of_lt (by omega)

theorem joined_toNat (s stk : BitVec 32) (bound : stk.toNat < 2^24) :
    (stk ||| (s &&& (0xff#32 <<< 24))).toNat = s.toNat / 2^24 * 2^24 + stk.toNat := by
  rw [BitVec.toNat_or, top_byte_toNat, Nat.or_comm, Nat.mul_comm]
  exact (Nat.two_pow_add_eq_or_of_lt bound _).symm

theorem timeNow_splice (s stk : BitVec 32) (bound : stk.toNat < 2^24) :
    (~~~(timeNow s stk)).toNat = Wrap.splice (2^24) (2^32) s.toNat stk.toNat := by
  have joined := joined_toNat s stk bound
  unfold timeNow Wrap.splice
  simp only [BitVec.not_not, BitVec.lt_def, joined]
  split
  · rw [BitVec.toNat_sub, joined]
    have one : (1#32 <<< 24).toNat = 2^24 := by decide
    rw [one]
    congr 1
    omega
  · exact joined

theorem not_sub_lag (s : BitVec 32) (lag : Nat) :
    ~~~(s - BitVec.ofNat 32 lag) = ~~~s + BitVec.ofNat 32 lag := by
  have left := BitVec.neg_eq_not_add (s - BitVec.ofNat 32 lag)
  have right := BitVec.neg_eq_not_add s
  grind

theorem timeNow_exact {start : BitVec 24} {timeStamp : BitVec 32} {recorded tick : Nat}
    (synced : Synced start timeStamp recorded) (order : recorded ≤ tick)
    (fresh : tick < recorded + 2^24) :
    timeNow timeStamp (stkNow start tick) = ~~~timeStamp + BitVec.ofNat 32 (tick - recorded) := by
  have bound := stkNow_bound start tick
  have stamp := timeStamp.isLt
  have agree : ((stkNow start tick).toNat + (tick - recorded)) % 2^24 = timeStamp.toNat % 2^24 := by
    have low := congrArg BitVec.toNat synced
    rw [BitVec.toNat_setWidth, BitVec.toNat_sub, BitVec.toNat_ofNat] at low
    rw [stkNow_toNat, low, BitVec.toNat_sub, BitVec.toNat_ofNat]
    have small := start.isLt
    omega
  have exact := Wrap.splice_exact (by decide : 2^24 ∣ 2^32) stamp bound (by omega) agree
  rw [← timeNow_splice timeStamp _ bound] at exact
  rw [← not_sub_lag]
  apply BitVec.not_inj.mp
  rw [BitVec.not_not]
  apply BitVec.eq_of_toNat_eq
  rw [exact, BitVec.toNat_sub, BitVec.toNat_ofNat]
  omega

/-- The unbounded tick count since `time_init()`, cut to the 32 bits of a `time_t`. -/
def clockAt (start : BitVec 24) (first tick : Nat) : TimeT :=
  ~~~(stkNow start first) + BitVec.ofNat 32 (tick - first)

/-- A `time_stamp` value that records the true tick `recorded`. -/
structure Stamped (start : BitVec 24) (first : Nat) (timeStamp : BitVec 32) (recorded : Nat) : Prop where
  order : first ≤ recorded
  synced : Synced start timeStamp recorded
  exact : ~~~timeStamp = clockAt start first recorded

theorem clockAt_later (start : BitVec 24) {first recorded tick : Nat} (order : first ≤ recorded)
    (later : recorded ≤ tick) :
    clockAt start first recorded + BitVec.ofNat 32 (tick - recorded) = clockAt start first tick := by
  have split : tick - first = (recorded - first) + (tick - recorded) := by omega
  rw [clockAt, clockAt, split, BitVec.ofNat_add, BitVec.add_assoc]

theorem Stamped.reading {start : BitVec 24} {first recorded tick : Nat} {timeStamp : BitVec 32}
    (stamped : Stamped start first timeStamp recorded) (order : recorded ≤ tick)
    (fresh : tick < recorded + 2^24) :
    timeNow timeStamp (stkNow start tick) = clockAt start first tick := by
  rw [timeNow_exact stamped.synced order fresh, stamped.exact]
  exact clockAt_later start stamped.order order

theorem stkNow_synced (start : BitVec 24) (tick : Nat) : Synced start (stkNow start tick) tick := by
  apply BitVec.eq_of_toNat_eq
  rw [BitVec.toNat_setWidth, stkNow_toNat]
  exact Nat.mod_eq_of_lt (BitVec.isLt _)

theorem clockAt_synced (start : BitVec 24) {first tick : Nat} (order : first ≤ tick) :
    Synced start (~~~(clockAt start first tick)) tick := by
  have base := stkNow_synced start first
  unfold Synced at base ⊢
  rw [clockAt, ← not_sub_lag, BitVec.not_not]
  apply BitVec.eq_of_toNat_eq
  have low := congrArg BitVec.toNat base
  simp only [BitVec.toNat_setWidth, BitVec.toNat_sub, BitVec.toNat_ofNat] at low ⊢
  have bound := start.isLt
  omega

theorem stamped_init (start : BitVec 24) (first : Nat) :
    Stamped start first (stkNow start first) first where
  order := Nat.le_refl _
  synced := stkNow_synced start first
  exact := by simp [clockAt]

theorem Stamped.update {start : BitVec 24} {first recorded tick : Nat} {timeStamp : BitVec 32}
    (stamped : Stamped start first timeStamp recorded) (order : recorded ≤ tick)
    (fresh : tick < recorded + 2^24) :
    Stamped start first (timeStampUpdate timeStamp (stkNow start tick)).1 tick where
  order := Nat.le_trans stamped.order order
  synced := by
    rw [timeStampUpdate, stamped.reading order fresh]
    exact clockAt_synced start (Nat.le_trans stamped.order order)
  exact := by rw [timeStampUpdate, BitVec.not_not, stamped.reading order fresh]

theorem timeDiff_clockAt (start : BitVec 24) {first tick : Nat} (distance : Int)
    (order : first ≤ tick) (near : -2^31 ≤ distance) (far : distance < 2^31)
    (after : (first : Int) ≤ tick + distance) :
    timeDiff (clockAt start first tick) (clockAt start first (tick + distance).toNat) = distance := by
  have moved : clockAt start first (tick + distance).toNat =
      clockAt start first tick + BitVec.ofInt 32 distance := by
    rw [clockAt, clockAt, BitVec.add_assoc]
    congr 1
    apply BitVec.eq_of_toInt_eq
    rw [BitVec.toInt_add, BitVec.toInt_ofNat', BitVec.toInt_ofNat', BitVec.toInt_ofInt]
    have shift : (((tick + distance).toNat - first : Nat) : Int) = ((tick - first : Nat) : Int) + distance := by
      omega
    rw [shift]
    simp only [Int.bmod_add_bmod, Int.add_bmod_bmod]
  rw [timeDiff, moved, BitVec.add_comm, BitVec.add_sub_cancel, BitVec.toInt_ofInt]
  exact Int.bmod_eq_of_le (by omega) (by omega)

/-- A `time_now()` between its two reads, with the tick its copy of `time_stamp` records. -/
structure NowCall where
  timeStamp : BitVec 32
  recorded : Nat

structure Reading where
  tick : Nat
  time : TimeT

/-- `time_stamp`, the calls in progress and, for the record, every time returned so far. -/
structure ClockState where
  timeStamp : BitVec 32
  recorded : Nat
  calls : List NowCall
  readings : List Reading

inductive ClockInput where
  /-- `time_now()` reads `time_stamp`. -/
  | read
  /-- A `time_now()` in progress reads the counter at this tick and returns. -/
  | sample (call tick : Nat)
  /-- `time_stamp_update()` runs, its own `time_now()` sampling at this tick. -/
  | update (tick : Nat)

inductive ClockFault where
  | noCall
  | stale
deriving DecidableEq

def clockStep (start : BitVec 24) : ClockInput → ClockState → Except ClockFault ClockState
  | .read, c => .ok { c with calls := ⟨c.timeStamp, c.recorded⟩ :: c.calls }
  | .sample call tick, c =>
    match c.calls[call]? with
    | none => .error .noCall
    | some pending =>
      if pending.recorded ≤ tick ∧ tick < pending.recorded + 2^24 then
        .ok { c with
          calls := c.calls.eraseIdx call
          readings := ⟨tick, timeNow pending.timeStamp (stkNow start tick)⟩ :: c.readings }
      else .error .stale
  | .update tick, c =>
    if c.recorded ≤ tick ∧ tick < c.recorded + 2^24 then
      .ok { c with
        timeStamp := (timeStampUpdate c.timeStamp (stkNow start tick)).1
        recorded := tick
        readings := ⟨tick, timeNow c.timeStamp (stkNow start tick)⟩ :: c.readings }
    else .error .stale

/-- `time_init()` at tick `first`. -/
def clockStart (start : BitVec 24) (first : Nat) : ClockState where
  timeStamp := (timeInit (stkNow start first) (stkNow start first)).1
  recorded := first
  calls := []
  readings := []

structure ClockInvariant (start : BitVec 24) (first : Nat) (c : ClockState) : Prop where
  stamped : Stamped start first c.timeStamp c.recorded
  calls : ∀ pending ∈ c.calls, Stamped start first pending.timeStamp pending.recorded
  readings : ∀ r ∈ c.readings, first ≤ r.tick ∧ r.time = clockAt start first r.tick

theorem clockStart_invariant (start : BitVec 24) (first : Nat) :
    ClockInvariant start first (clockStart start first) where
  stamped := stamped_init start first
  calls := by simp [clockStart]
  readings := by simp [clockStart]

theorem Stamped.recordReading {start : BitVec 24} {first recorded tick : Nat} {timeStamp : BitVec 32}
    {readings : List Reading} (stamped : Stamped start first timeStamp recorded)
    (order : recorded ≤ tick) (fresh : tick < recorded + 2^24)
    (previous : ∀ r ∈ readings, first ≤ r.tick ∧ r.time = clockAt start first r.tick) :
    ∀ r ∈ (⟨tick, timeNow timeStamp (stkNow start tick)⟩ : Reading) :: readings,
      first ≤ r.tick ∧ r.time = clockAt start first r.tick := by
  intro r member
  rcases List.mem_cons.mp member with rfl | member
  · exact ⟨Nat.le_trans stamped.order order, stamped.reading order fresh⟩
  · exact previous r member

theorem clockStep_invariant (start : BitVec 24) (first : Nat) (input : ClockInput) (c next : ClockState)
    (holds : ClockInvariant start first c) (taken : clockStep start input c = .ok next) :
    ClockInvariant start first next := by
  cases input with
  | read =>
    cases taken
    refine ⟨holds.stamped, ?_, holds.readings⟩
    intro pending member
    rcases List.mem_cons.mp member with rfl | member
    · exact holds.stamped
    · exact holds.calls pending member
  | sample call tick =>
    rw [clockStep] at taken
    cases found : c.calls[call]? with
    | none => simp [found] at taken
    | some pending =>
      simp only [found] at taken
      split at taken
      · rename_i window
        cases taken
        have stamped := holds.calls pending (List.mem_of_getElem? found)
        refine ⟨holds.stamped, ?_, stamped.recordReading window.1 window.2 holds.readings⟩
        intro other member
        exact holds.calls other (List.mem_of_mem_eraseIdx member)
      · cases taken
  | update tick =>
    rw [clockStep] at taken
    split at taken
    · rename_i window
      cases taken
      exact ⟨holds.stamped.update window.1 window.2, holds.calls,
        holds.stamped.recordReading window.1 window.2 holds.readings⟩
    · cases taken

/-- Every `time_now()` returns the true time, and two readings differ by the true distance. -/
theorem time_now_refines (start : BitVec 24) (first : Nat) (inputs : List ClockInput) (c : ClockState)
    (run : exec (clockStep start) inputs (clockStart start first) = .ok c) :
    (∀ r ∈ c.readings, first ≤ r.tick ∧
      r.time = ~~~(stkNow start first) + BitVec.ofNat 32 (r.tick - first)) ∧
    (∀ earlier ∈ c.readings, ∀ later ∈ c.readings, earlier.tick ≤ later.tick →
      later.tick < earlier.tick + 2^31 →
      timeDiff earlier.time later.time = (later.tick : Int) - earlier.tick) := by
  have holds := exec_invariant (clockStep_invariant start first) (clockStart_invariant start first) run
  refine ⟨holds.readings, ?_⟩
  intro earlier memberEarlier later memberLater order near
  obtain ⟨since, timeEarlier⟩ := holds.readings earlier memberEarlier
  obtain ⟨_, timeLater⟩ := holds.readings later memberLater
  have distance := timeDiff_clockAt start ((later.tick : Int) - earlier.tick) since (by omega) (by omega)
    (by omega)
  have back : ((earlier.tick : Int) + (later.tick - earlier.tick)).toNat = later.tick := by omega
  rw [back] at distance
  rw [timeEarlier, timeLater, distance]

/-- A call preempted by an update, with the counter wrapping before it samples. -/
def preempted : List ClockInput :=
  [.read, .update 4500000, .read, .sample 1 16777215, .sample 0 17000000]

theorem time_now_refines_preempted :
    ∃ c, exec (clockStep 5) preempted (clockStart 5 0) = .ok c ∧
      (∀ r ∈ c.readings, 0 ≤ r.tick ∧ r.time = ~~~(stkNow 5 0) + BitVec.ofNat 32 (r.tick - 0)) ∧
      (∀ earlier ∈ c.readings, ∀ later ∈ c.readings, earlier.tick ≤ later.tick →
        later.tick < earlier.tick + 2^31 →
        timeDiff earlier.time later.time = (later.tick : Int) - earlier.tick) := by
  have run : exec (clockStep 5) preempted (clockStart 5 0) = .ok
      { timeStamp := (timeStampUpdate (stkNow 5 0) (stkNow 5 4500000)).1
        recorded := 4500000
        calls := []
        readings :=
          [⟨17000000, timeNow (timeStampUpdate (stkNow 5 0) (stkNow 5 4500000)).1 (stkNow 5 17000000)⟩,
            ⟨16777215, timeNow (stkNow 5 0) (stkNow 5 16777215)⟩,
            ⟨4500000, timeNow (stkNow 5 0) (stkNow 5 4500000)⟩] } := by
    simp [preempted, exec, clockStep, clockStart, timeInit]
  exact ⟨_, run, time_now_refines 5 0 _ _ run⟩

end Testjig.Time
