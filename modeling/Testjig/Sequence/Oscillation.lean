import Testjig.Sequence.Checks
import Testjig.Time.Delay

namespace Testjig.Sequence

open Testjig.Time

/-- TIM1 and DMA channel 2 as `test_wdat_osc()` uses them -/
structure Capture where
  cndtr : Nat
  tcif : Bool
  dmabuf : Nat → BitVec 16

def Capture.armed (dmabuf : Nat → BitVec 16) : Capture := ⟨32, false, dmabuf⟩

/-- A falling edge at this clock count: the counter goes to the buffer until the transfer is complete. -/
def Capture.edge (c : Capture) (time : Nat) : Capture :=
  if c.cndtr = 0 then c
  else
    { cndtr := c.cndtr - 1
      tcif := c.cndtr = 1
      dmabuf := fun i => if i = 32 - c.cndtr then BitVec.ofNat 16 time else c.dmabuf i }

/-- The falling edges between the timer being enabled, at clock 0, and the check of the TCIF flag -/
structure Window where
  edge : Nat → Nat
  count : Nat
  check : Nat
  enough : 32 ≤ count
  increasing : ∀ i, i + 1 < count → edge i < edge (i + 1)
  inside : ∀ i < count, edge i ≤ check
  waited : 72000 ≤ check

/-- `delay_ms(1)` leaves 72000 timer clocks, of which SysTick counts one in eight. -/
theorem delay_ms_window (start : BitVec 24) {times : Nat → Nat} (order : Monotone times) {turns index : Nat}
    (ends : delayMs (sampled start times) turns 1 = some index) : 72000 ≤ (times index - times 0) * 8 := by
  have ticks : (1 * 1000 * BitVec.ofNat 32 stkMhz).toNat = 9000 := by decide
  have waited := (delay_not_early start order turns index ends).2
  rw [ticks] at waited
  omega

namespace Window

def interval (w : Window) (i : Nat) : Nat := w.edge (i + 1) - w.edge i

def captured (w : Window) (dmabuf : Nat → BitVec 16) : Capture :=
  ((List.range w.count).map w.edge).foldl Capture.edge (.armed dmabuf)

/-- A gap that is in bounds only after the wrap of the 16-bit captures, among others in bounds -/
def Hidden (w : Window) : Prop :=
  (∀ i < 31, 140 ≤ w.interval i % 2^16 ∧ w.interval i % 2^16 ≤ 148) ∧ ∃ i < 31, 2^16 ≤ w.interval i

end Window

theorem foldl_edge (edge : Nat → Nat) (dmabuf : Nat → BitVec 16) (count : Nat) :
    ((List.range count).map edge).foldl Capture.edge (.armed dmabuf) =
      { cndtr := 32 - count
        tcif := decide (32 ≤ count)
        dmabuf := fun i => if i < count ∧ i < 32 then BitVec.ofNat 16 (edge i) else dmabuf i } := by
  induction count with
  | zero => simp [Capture.armed]
  | succ count ih =>
    rw [List.range_succ, List.map_append, List.foldl_append, ih]
    simp only [List.map_cons, List.map_nil, List.foldl_cons, List.foldl_nil, Capture.edge]
    by_cases full : 32 ≤ count
    · have complete : 32 - count = 0 := by omega
      rw [if_pos complete, Capture.mk.injEq]
      refine ⟨by omega, ?_, ?_⟩
      · simp [full, Nat.le_succ_of_le full]
      · funext i
        have bounded : (i < count ∧ i < 32) ↔ (i < count + 1 ∧ i < 32) := by omega
        rw [if_congr bounded rfl rfl]
    · have pending : ¬ 32 - count = 0 := by omega
      have slot : 32 - (32 - count) = count := by omega
      rw [if_neg pending, slot, Capture.mk.injEq]
      refine ⟨by omega, ?_, ?_⟩
      · rw [decide_eq_decide]
        omega
      · funext i
        by_cases same : i = count
        · rw [if_pos same, if_pos (by omega), same]
        · have bounded : (i < count ∧ i < 32) ↔ (i < count + 1 ∧ i < 32) := by omega
          rw [if_neg same, if_congr bounded rfl rfl]

theorem Window.captured_tcif (w : Window) (dmabuf : Nat → BitVec 16) : (w.captured dmabuf).tcif = true := by
  rw [Window.captured, foldl_edge]
  exact decide_eq_true w.enough

theorem Window.captured_interval (w : Window) (dmabuf : Nat → BitVec 16) {i : Nat} (bound : i < 31) :
    ((w.captured dmabuf).dmabuf (i + 1) - (w.captured dmabuf).dmabuf i).toNat = w.interval i % 2^16 := by
  have enough := w.enough
  have order := w.increasing i (by omega)
  have here : i < w.count ∧ i < 32 := by omega
  have next : i + 1 < w.count ∧ i + 1 < 32 := by omega
  rw [Window.captured, foldl_edge]
  simp only [if_pos here, if_pos next]
  rw [BitVec.toNat_sub, BitVec.toNat_ofNat, BitVec.toNat_ofNat, Window.interval]
  omega

theorem testWdatOsc_iff (m : Main) (tcif : Bool) (dmabuf : Nat → BitVec 16) :
    (∃ next, m.testWdatOsc tcif dmabuf = .ok next) ↔ tcif = true ∧ Oscillates dmabuf := by
  constructor
  · rintro ⟨next, accepted⟩
    have full : tcif = true := by
      by_contra missing
      simp [Main.testWdatOsc, missing] at accepted
    exact ⟨full, (testWdatOsc_ok accepted).1⟩
  · rintro ⟨full, oscillates⟩
    have good : Main.badInterval dmabuf = false := by
      rw [Main.badInterval, List.any_eq_false]
      intro i listed
      have bound : i < 31 := by simpa using listed
      simpa [BitVec.not_lt] using oscillates i bound
    exact ⟨_, by simp only [Main.testWdatOsc, full, good]; rfl⟩

theorem Window.passes_iff (w : Window) (m : Main) (dmabuf : Nat → BitVec 16) :
    (∃ next, m.testWdatOsc (w.captured dmabuf).tcif (w.captured dmabuf).dmabuf = .ok next) ↔
      ∀ i < 31, 140 ≤ w.interval i % 2^16 ∧ w.interval i % 2^16 ≤ 148 := by
  rw [testWdatOsc_iff, w.captured_tcif, Oscillates]
  simp only [true_and]
  apply forall₂_congr
  intro i bound
  rw [BitVec.le_def, BitVec.le_def, w.captured_interval dmabuf bound]
  exact Iff.rfl

/-- The test is exact but for an interval whose excess the captures cannot show. -/
theorem test_wdat_osc_exact (w : Window) (m : Main) (dmabuf : Nat → BitVec 16) :
    ((∃ next, m.testWdatOsc (w.captured dmabuf).tcif (w.captured dmabuf).dmabuf = .ok next) ↔
      ∀ i < 31, 140 ≤ w.interval i ∧ w.interval i ≤ 148) ↔ ¬ w.Hidden := by
  rw [w.passes_iff, Window.Hidden]
  constructor
  · rintro exact ⟨wrapped, i, bound, long⟩
    have short := exact.mp wrapped i bound
    omega
  · intro visible
    constructor
    · intro wrapped i bound
      have short : ¬ 2^16 ≤ w.interval i := by
        intro long
        exact visible ⟨wrapped, i, bound, long⟩
      have range := wrapped i bound
      omega
    · intro good i bound
      have range := good i bound
      omega

/-- 31 edges at 500 kHz, then none for 912 us -/
def stalled : Window where
  edge i := if i < 31 then 144 * i + 1 else 70001 + (i - 31)
  count := 32
  check := 72000
  enough := by decide
  increasing := by
    intro i bound
    split <;> split <;> omega
  inside := by
    intro i bound
    split <;> omega
  waited := by decide

theorem test_wdat_osc_stalled :
    ¬ ∀ (w : Window) (m : Main) (dmabuf : Nat → BitVec 16),
      (∃ next, m.testWdatOsc (w.captured dmabuf).tcif (w.captured dmabuf).dmabuf = .ok next) ↔
        ∀ i < 31, 140 ≤ w.interval i ∧ w.interval i ≤ 148 := by
  intro exact
  have wrapped : ∀ i < 31, 140 ≤ stalled.interval i % 2^16 ∧ stalled.interval i % 2^16 ≤ 148 := by decide
  have last := (exact stalled (powerOn fun _ _ => false) fun _ => 0).mp ((stalled.passes_iff _ _).mpr wrapped) 30 (by decide)
  exact absurd last (by decide)

end Testjig.Sequence
