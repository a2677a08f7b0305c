import Testjig.Timers.Service

namespace Testjig.Timers

open Machine Testjig.Time

variable {κ : Type} {n : Nat} {epoch : TimeT}

/-- TIM4 has raised its flag, or will in time for the timer's deadline. -/
def World.Covers (w : World n) (timer : Fin n) : Prop :=
  w.uif = true ∨ ∃ clock, w.expiry = some clock ∧ (clock : Int) ≤ max (8 * w.due timer) (w.reprogrammed + 16)

theorem reprogramTimer_soon (delta : Int) (soon : delta ≤ slackTicks) : (reprogramTimer delta).period = 16 := by
  have near : delta < 0x10000 := by
    rw [slackTicks] at soon
    omega
  rw [reprogramTimer, if_pos near, if_pos soon]
  rfl

namespace World

theorem Covers.later {w : World n} {first second : Fin n} (covers : w.Covers first)
    (order : w.due first ≤ w.due second) : w.Covers second := by
  rcases covers with raised | ⟨clock, armed, bound⟩
  · exact .inl raised
  · exact .inr ⟨clock, armed, by omega⟩

theorem Covers.wait {w : World n} {timer : Fin n} (covers : w.Covers timer) (clocks : Nat) :
    (w.wait clocks).Covers timer := by
  rw [World.wait]
  rcases covers with raised | ⟨clock, armed, bound⟩
  · split
    · split
      · exact .inl rfl
      · exact .inl raised
    · exact .inl raised
  · simp only [armed]
    split
    · exact .inl rfl
    · exact .inr ⟨clock, rfl, bound⟩

theorem covers_reprogram (w : World n) {timer : Fin n} {delta : Int} (due : w.due timer = w.tick + delta)
    (bound : delta < 2^31) : (w.reprogram delta).Covers timer := by
  right
  refine ⟨w.now + (reprogramTimer delta).period, rfl, ?_⟩
  change _ ≤ max (8 * w.due timer) ((w.now : Int) + 16)
  have sampled : w.tick = w.now / 8 := rfl
  by_cases soon : delta ≤ slackTicks
  · have period := reprogramTimer_soon delta soon
    omega
  · have early := reprogramTimer_early delta (Int.not_le.mp soon) bound
    omega

end World

namespace Agenda

/-- Outside `IRQ_timer()`, TIM4 answers for every armed timer. -/
def Covered (a : Agenda n) : Prop :=
  a.world.phase = .outside → ∀ timer ∈ a.armed, a.world.Covers timer

theorem Covered.arm_later {a : Agenda n} (covered : a.Covered) {timer : Fin n} {due : Int}
    (notFirst : (a.arm timer due).armed.head? ≠ some timer) : (a.arm timer due).Covered := by
  intro outside
  have others : ∀ id ∈ a.armed, id ≠ timer → (a.arm timer due).world.Covers id := by
    intro id member other
    have kept := covered outside id member
    rw [World.Covers, ← arm_due_of_ne a due other] at kept
    exact kept
  intro id member
  by_cases same : id = timer
  · subst same
    cases head : (a.arm id due).armed.head? with
    | none =>
      rw [List.head?_eq_none_iff] at head
      simp [head] at member
    | some first =>
      have other : first ≠ id := by
        rintro rfl
        exact notFirst head
      have inside := (mem_arm a id first due).mp (List.mem_of_head? head)
      exact (others first (inside.resolve_left other) other).later (head_first _ head member)
  · exact others id (((mem_arm a timer id due).mp member).resolve_left same) same

theorem covered_reprogram {a : Agenda n} {first : Fin n} (head : a.armed.head? = some first) {delta : Int}
    (due : a.world.due first = a.world.tick + delta) (bound : delta < 2^31) {timer : Fin n} (member : timer ∈ a.armed) :
    (a.world.reprogram delta).Covers timer :=
  (a.world.covers_reprogram due bound).later (a.head_first head member)

theorem Covered.step {a : Agenda n} (covered : a.Covered) (near : ∀ timer ∈ a.armed, a.world.Near timer)
    (input : ServiceInput κ n) : (a.step epoch input).Covered := by
  cases input with
  | wait clocks =>
    intro outside timer member
    have before : a.world.phase = .outside := by
      simp only [Agenda.step, change, World.wait] at outside
      split at outside
      · split at outside <;> exact outside
      · exact outside
    exact (covered before timer member).wait clocks
  | timerInit timer callback => exact covered
  | timerSet timer deadline =>
    simp only [Agenda.step]
    split
    · rename_i head
      intro outside id member
      apply covered_reprogram head _ _ member
      · exact arm_due ..
      · exact BitVec.toInt_lt
    · rename_i notFirst
      exact covered.arm_later notFirst
  | timerCancel timer =>
    intro outside id member
    exact covered outside id (List.mem_of_mem_erase member)
  | enter =>
    intro outside
    cases outside
  | turn =>
    intro outside id member
    simp only [Agenda.step] at outside member ⊢
    split at outside
    -- With nothing armed there is nothing to forget; else TIM4 is set for the head, the first of all.
    · rename_i empty
      simp [change, empty] at member
    · rename_i first rest list
      split at outside
      · rename_i later
        simp only [list, if_pos later] at member ⊢
        have head : a.armed.head? = some first := by simp [list]
        have bound := (near first (by simp [list])).2
        apply covered_reprogram head _ _ member
        · omega
        · omega
      · cases outside
  | resume =>
    intro outside
    cases outside

end Agenda

/-- No armed timer is forgotten by the hardware. -/
theorem timer_never_forgotten (epoch : TimeT) (timers : Fin n → Timer κ n) (now : Nat)
    (inputs : List (ServiceInput κ n)) (s : Service κ n)
    (run : exec (Service.step epoch) inputs (Service.boot timers now) = .ok s) (outside : s.world.phase = .outside)
    (queued : s.queue.head ≠ .null) :
    ∃ timer, s.queue.head = .timer timer ∧
      (s.queue.timers timer).deadline = epoch + BitVec.ofInt 32 (s.world.due timer) ∧
      (s.world.uif = true ∨ ∃ clock, s.world.expiry = some clock ∧
        (clock : Int) ≤ max (8 * s.world.due timer) (s.world.reprogrammed + 8 * 2)) := by
  obtain ⟨first, empty, -, initial⟩ := boot_refines epoch timers now
  have start : first.Covered := by
    intro _ timer member
    simp [empty] at member
  have kept : ∀ input (state next : Service κ n), (∃ a, Refines epoch state a ∧ a.Covered) →
      state.step epoch input = .ok next → ∃ a, Refines epoch next a ∧ a.Covered := by
    rintro input state next ⟨a, refines, covered⟩ taken
    exact ⟨_, (step_refines input refines taken).2, covered.step refines.near input⟩
  obtain ⟨a, refines, covered⟩ := exec_invariant kept ⟨first, initial, start⟩ run
  have linked := refines.holds.linked
  cases list : a.armed with
  | nil =>
    rw [list] at linked
    exact absurd linked queued
  | cons timer rest =>
    rw [list] at linked
    have member : timer ∈ a.armed := by simp [list]
    have covers := covered (refines.world ▸ outside) timer member
    have stamped := refines.stamped timer member
    rw [← refines.world] at covers stamped
    exact ⟨timer, linked.1, stamped, covers⟩

/-- The head is cancelled, and TIM4 still wakes up in time for the next timer. -/
theorem timer_never_forgotten_cancelled :
    ∃ s : Service Unit 2,
      exec (Service.step 0) [.timerInit 0 (), .timerInit 1 (), .timerSet 0 100, .timerSet 1 5000, .timerCancel 0]
        (Service.boot (fun _ => ⟨0, (), .null⟩) 0) = .ok s ∧
      s.queue.head = .timer 1 ∧
      ∃ timer, s.queue.head = .timer timer ∧
        (s.queue.timers timer).deadline = 0 + BitVec.ofInt 32 (s.world.due timer) ∧
        (s.world.uif = true ∨ ∃ clock, s.world.expiry = some clock ∧
          (clock : Int) ≤ max (8 * s.world.due timer) (s.world.reprogrammed + 8 * 2)) := by
  obtain ⟨s, run, final⟩ := exists_of_succeedsWith
    (fun s : Service Unit 2 => decide (s.world.phase = .outside ∧ s.queue.head = .timer 1))
    (exec (Service.step 0) [.timerInit 0 (), .timerInit 1 (), .timerSet 0 100, .timerSet 1 5000, .timerCancel 0]
      (Service.boot (fun _ => ⟨0, (), .null⟩) 0)) (by decide +kernel)
  obtain ⟨outside, head⟩ := of_decide_eq_true final
  exact ⟨s, run, head, timer_never_forgotten 0 _ 0 _ s run outside (by simp [head])⟩

end Testjig.Timers
