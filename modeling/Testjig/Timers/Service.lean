import Testjig.Timers.Chain

namespace Testjig.Timers

open Machine Testjig.Time

/-- Where the processor is: outside `IRQ_timer()`, between two turns of its loop, or in a callback. -/
inductive Phase where
  | outside
  | looping
  | callback
deriving DecidableEq, Repr

inductive Event (n : Nat) where
  | init (timer : Fin n)
  | set (timer : Fin n) (due : Int)
  | cancel (timer : Fin n)
  | enter
  | sample (tick : Nat)
  | call (timer : Fin n) (due : Int) (tick : Nat) (active : Bool)
  | leave
deriving DecidableEq, Repr

/-- What a queue works in. `now`, `expiry` and `reprogrammed` count system clocks; `due` and `log` are a record. -/
structure World (n : Nat) where
  now : Nat
  uif : Bool
  expiry : Option Nat
  reprogrammed : Nat
  phase : Phase
  due : Fin n → Int
  log : List (Event n)

inductive ServiceInput (κ : Type) (n : Nat) where
  | wait (clocks : Nat)
  | timerInit (timer : Fin n) (callback : κ)
  | timerSet (timer : Fin n) (deadline : TimeT)
  | timerCancel (timer : Fin n)
  | enter
  | turn
  | resume

inductive ServiceFault where
  | misuse
  | far
  | lost
deriving DecidableEq, Repr

namespace World

variable {n : Nat}

def tick (w : World n) : Nat := w.now / 8

/-- `time_now()`, where it was `epoch` at tick 0 -/
def timeNow (epoch : TimeT) (w : World n) : TimeT := epoch + BitVec.ofNat 32 w.tick

def note (w : World n) (event : Event n) : World n := { w with log := event :: w.log }

/-- Time passes; TIM4 raises its flag at its expiry, and stops. -/
def wait (w : World n) (clocks : Nat) : World n :=
  let now := w.now + clocks
  match w.expiry with
  | some clock => if clock ≤ now then { w with now, uif := true, expiry := none } else { w with now }
  | none => { w with now }

def reprogram (w : World n) (delta : Int) : World n :=
  { w with uif := false, expiry := some (w.now + (reprogramTimer delta).period), reprogrammed := w.now }

def arm (w : World n) (timer : Fin n) (due : Int) : World n :=
  { w with due := Function.update w.due timer due }.note (.set timer due)

def allows {κ : Type} (w : World n) : ServiceInput κ n → Bool
  | .wait _ => true
  | .timerInit .. | .timerSet .. | .timerCancel .. => w.phase ≠ .looping
  | .enter => w.phase = .outside
  | .turn => w.phase = .looping
  | .resume => w.phase = .callback

def Near (w : World n) (timer : Fin n) : Prop :=
  -2^30 ≤ w.due timer - w.tick ∧ w.due timer - w.tick ≤ 2^30

instance (w : World n) (timer : Fin n) : Decidable (w.Near timer) :=
  inferInstanceAs (Decidable (_ ∧ _))

end World

/-- `timer.c` at work. `ready` tells which timers were initialised. -/
structure Service (κ : Type) (n : Nat) where
  queue : TimerQueue κ n
  ready : Fin n → Bool
  world : World n

namespace Service

variable {κ : Type} {n : Nat}

def armed (s : Service κ n) (timer : Fin n) : Bool := s.ready timer && s.queue.timerIsActive timer

def checked (s : Service κ n) : Except ServiceFault (Service κ n) :=
  if ∀ timer, s.armed timer → s.world.Near timer then .ok s else .error .far

/-- One step. Between `enter` and the last `turn` the processor is in `IRQ_timer()`. -/
def step (epoch : TimeT) (input : ServiceInput κ n) (s : Service κ n) : Except ServiceFault (Service κ n) :=
  if s.world.allows input then
    match input with
    | .wait clocks => { s with world := s.world.wait clocks }.checked
    | .timerInit timer callback =>
      if s.armed timer then .error .misuse
      else .ok
        { queue := s.queue.timerInit timer callback
          ready := Function.update s.ready timer true
          world := s.world.note (.init timer) }
    | .timerSet timer deadline =>
      if s.ready timer then
        let now := s.world.timeNow epoch
        match s.queue.timerSet timer deadline now with
        | none => .error .lost
        | some (queue, delta) =>
          let world := s.world.arm timer (s.world.tick + timeDiff now deadline)
          match delta with
          | some delta => { s with queue, world := world.reprogram delta }.checked
          | none => { s with queue, world }.checked
      else .error .misuse
    | .timerCancel timer =>
      if s.ready timer then
        match s.queue.timerCancel timer with
        | none => .error .lost
        | some queue => .ok { s with queue, world := s.world.note (.cancel timer) }
      else .error .misuse
    | .enter => .ok { s with world := { s.world with uif := false, phase := .looping }.note .enter }
    | .turn =>
      match s.queue.irqTurn (s.world.timeNow epoch) with
      | none => .error .lost
      | some .finished => .ok { s with world := { s.world with phase := .outside }.note .leave }
      | some (.reprogram delta) =>
        .ok { s with
          world := ({ (s.world.note (.sample s.world.tick)) with phase := .outside }.reprogram delta).note .leave }
      | some (.fire timer _ queue) =>
        .ok { s with
          queue
          world := { (s.world.note (.sample s.world.tick)) with phase := .callback }.note
            (.call timer (s.world.due timer) s.world.tick (queue.timerIsActive timer)) }
    | .resume => .ok { s with world := { s.world with phase := .looping } }
  else .error .misuse

/-- The C runtime leaves `head` null and the timers in any state. -/
def boot (timers : Fin n → Timer κ n) (now : Nat) : Service κ n where
  queue := { head := .null, timers }
  ready := fun _ => false
  world := { now, uif := false, expiry := none, reprogrammed := 0, phase := .outside, due := fun _ => 0, log := [] }

end Service

/-- What the timers are for: those that are armed, in the order of their deadlines. -/
structure Agenda (n : Nat) where
  world : World n
  armed : List (Fin n)
  distinct : armed.Nodup
  sorted : armed.Pairwise fun a b => world.due a ≤ world.due b

namespace Agenda

variable {n : Nat}

def arm (a : Agenda n) (timer : Fin n) (due : Int) : Agenda n where
  world := a.world.arm timer due
  armed := TimerQueue.placed (a.world.arm timer due).due timer a.armed
  distinct := TimerQueue.nodup_placed _ timer a.distinct
  sorted := by
    apply List.Pairwise.orderedInsert
    apply (a.sorted.sublist List.erase_sublist).imp_of_mem
    intro x y inX inY order
    have apart : ∀ id ∈ a.armed.erase timer, (a.world.arm timer due).due id = a.world.due id := by
      intro id member
      apply Function.update_of_ne
      rintro rfl
      exact a.distinct.not_mem_erase member
    rwa [apart x inX, apart y inY]

def change (a : Agenda n) (world : World n) (same : world.due = a.world.due) : Agenda n :=
  { a with world, sorted := by rw [same]; exact a.sorted }

def disarm (a : Agenda n) (timer : Fin n) : Agenda n :=
  { a with
    armed := a.armed.erase timer
    distinct := a.distinct.erase timer
    sorted := a.sorted.sublist List.erase_sublist }

theorem mem_arm (a : Agenda n) (timer id : Fin n) (due : Int) : id ∈ (a.arm timer due).armed ↔ id = timer ∨ id ∈ a.armed :=
  TimerQueue.mem_placed _ timer id a.distinct

theorem arm_due (a : Agenda n) (timer : Fin n) (due : Int) : (a.arm timer due).world.due timer = due :=
  Function.update_self ..

theorem arm_due_of_ne (a : Agenda n) {timer id : Fin n} (due : Int) (other : id ≠ timer) :
    (a.arm timer due).world.due id = a.world.due id :=
  Function.update_of_ne other ..

theorem head_first (a : Agenda n) {first timer : Fin n} (head : a.armed.head? = some first) (member : timer ∈ a.armed) :
    a.world.due first ≤ a.world.due timer := by
  have sorted := a.sorted
  cases list : a.armed with
  | nil => simp [list] at head
  | cons id rest =>
    rw [list] at head sorted member
    cases head
    rcases List.mem_cons.mp member with rfl | later
    · exact Int.le_refl _
    · exact (List.pairwise_cons.mp sorted).1 timer later

@[simp]
theorem wait_due (w : World n) (clocks : Nat) : (w.wait clocks).due = w.due := by
  rw [World.wait]
  split
  · split <;> rfl
  · rfl

/-- One step of the timers as their purpose has it -/
def step {κ : Type} (epoch : TimeT) (input : ServiceInput κ n) (a : Agenda n) : Agenda n :=
  match input with
  | .wait clocks => a.change (a.world.wait clocks) (wait_due a.world clocks)
  | .timerInit timer _ => a.change (a.world.note (.init timer)) rfl
  | .timerSet timer deadline =>
    let delta := timeDiff (a.world.timeNow epoch) deadline
    let later := a.arm timer (a.world.tick + delta)
    if later.armed.head? = some timer then later.change (later.world.reprogram delta) rfl else later
  | .timerCancel timer => (a.disarm timer).change (a.world.note (.cancel timer)) rfl
  | .enter => a.change ({ a.world with uif := false, phase := .looping }.note .enter) rfl
  | .turn =>
    let tick := a.world.tick
    match a.armed with
    | [] => a.change ({ a.world with phase := .outside }.note .leave) rfl
    | timer :: _ =>
      let due := a.world.due timer
      let sampled := a.world.note (.sample tick)
      if slackTicks < due - tick then
        a.change (({ sampled with phase := .outside }.reprogram (due - tick)).note .leave) rfl
      else
        (a.disarm timer).change ({ sampled with phase := .callback }.note (.call timer due tick false)) rfl
  | .resume => a.change { a.world with phase := .looping } rfl

end Agenda

/-- The queue in memory is the agenda, its deadlines wrapped and none of them far away. -/
structure Refines {κ : Type} {n : Nat} (epoch : TimeT) (s : Service κ n) (a : Agenda n) : Prop where
  world : s.world = a.world
  holds : s.queue.Holds s.ready a.armed
  stamped : ∀ timer ∈ a.armed, (s.queue.timers timer).deadline = epoch + BitVec.ofInt 32 (a.world.due timer)
  near : ∀ timer ∈ a.armed, a.world.Near timer

variable {κ : Type} {n : Nat} {epoch : TimeT}

theorem timeDiff_epoch (epoch : TimeT) (x y : Int) (low : -2^31 ≤ y - x) (high : y - x < 2^31) :
    timeDiff (epoch + BitVec.ofInt 32 x) (epoch + BitVec.ofInt 32 y) = y - x := by
  have apart : epoch + BitVec.ofInt 32 y - (epoch + BitVec.ofInt 32 x) = BitVec.ofInt 32 (y - x) := by
    rw [Int.sub_eq_add_neg, BitVec.ofInt_add, BitVec.ofInt_neg]
    grind
  rw [timeDiff, apart, BitVec.toInt_ofInt]
  exact Int.bmod_eq_of_le (by omega) (by omega)

theorem deadline_now (now deadline : TimeT) :
    deadline = now + BitVec.ofInt 32 (timeDiff now deadline) := by
  rw [timeDiff, BitVec.ofInt_toInt, BitVec.add_comm, BitVec.sub_add_cancel]

theorem checked_ok {s next : Service κ n} (taken : s.checked = .ok next) :
    next = s ∧ ∀ timer, s.armed timer = true → s.world.Near timer := by
  rw [Service.checked] at taken
  split at taken
  · rename_i near
    cases taken
    exact ⟨rfl, near⟩
  · cases taken

theorem checked_notLost (s : Service κ n) : s.checked ≠ .error .lost := by
  rw [Service.checked]
  split <;> simp

theorem armed_iff {s : Service κ n} {list : List (Fin n)} (holds : s.queue.Holds s.ready list) (timer : Fin n) :
    s.armed timer = true ↔ timer ∈ list := by
  rw [Service.armed, Bool.and_eq_true]
  constructor
  · rintro ⟨initialised, active⟩
    exact (holds.active_iff initialised).mp active
  · intro member
    have initialised := holds.members timer member
    exact ⟨initialised, (holds.active_iff initialised).mpr member⟩

theorem placed_congr {key deltaOf : Fin n → Int} {timer : Fin n} {list : List (Fin n)}
    (same : ∀ id ∈ list.erase timer, key timer ≤ key id ↔ deltaOf timer ≤ deltaOf id) :
    TimerQueue.placed key timer list = TimerQueue.placed deltaOf timer list := by
  simp only [TimerQueue.placed]
  generalize list.erase timer = others at same ⊢
  induction others with
  | nil => rfl
  | cons id rest ih =>
    simp only [List.orderedInsert_cons, same id (List.mem_cons_self ..)]
    rw [ih (fun other member => same other (List.mem_cons_of_mem _ member))]

namespace Refines

variable {s next : Service κ n} {a : Agenda n}

theorem change (refines : Refines epoch s a) (world : World n) (same : world.due = a.world.due)
    (now : world.now = a.world.now) : Refines epoch { s with world } (a.change world same) where
  world := rfl
  holds := refines.holds
  stamped := by
    intro timer member
    rw [Agenda.change, same]
    exact refines.stamped timer member
  near := by
    intro timer member
    have close := refines.near timer member
    simp only [World.Near, World.tick] at close ⊢
    rwa [Agenda.change, same, now]

theorem delta (refines : Refines epoch s a) {timer : Fin n} (member : timer ∈ a.armed) :
    timeDiff (a.world.timeNow epoch) (s.queue.timers timer).deadline = a.world.due timer - a.world.tick := by
  obtain ⟨low, high⟩ := refines.near timer member
  rw [refines.stamped timer member, World.timeNow, ← BitVec.ofInt_natCast]
  apply timeDiff_epoch
  · omega
  · omega

theorem timerInit (refines : Refines epoch s a) {timer : Fin n} (out : timer ∉ a.armed) (callback : κ) :
    Refines epoch
      { queue := s.queue.timerInit timer callback
        ready := Function.update s.ready timer true
        world := a.world.note (.init timer) }
      (a.change (a.world.note (.init timer)) rfl) where
  world := rfl
  holds := TimerQueue.timerInit_holds refines.holds out callback
  stamped := by
    intro id member
    have other : id ≠ timer := fun same => out (same ▸ member)
    rw [TimerQueue.timerInit, TimerQueue.modify]
    simp only [if_neg other]
    exact refines.stamped id member
  near := refines.near

theorem timerSet (refines : Refines epoch s a) {timer : Fin n} (initialised : s.ready timer = true)
    (deadline : TimeT) :
    let delta := timeDiff (a.world.timeNow epoch) deadline
    let later := a.arm timer (a.world.tick + delta)
    ∃ queue, s.queue.timerSet timer deadline (a.world.timeNow epoch) =
        some (queue, if later.armed.head? = some timer then some delta else none) ∧
      queue.Holds s.ready later.armed ∧
      ((∀ id ∈ later.armed, later.world.Near id) → Refines epoch { s with queue, world := later.world } later) := by
  intro delta later
  obtain ⟨queue, taken, holds, deadlines⟩ :=
    TimerQueue.timerSet_holds refines.holds initialised deadline (a.world.timeNow epoch)
  have own : later.world.due timer = a.world.tick + delta := Function.update_self ..
  have others : ∀ id, id ≠ timer → later.world.due id = a.world.due id := fun id other => Function.update_of_ne other ..
  have order : TimerQueue.placed (fun id => timeDiff (a.world.timeNow epoch) (queue.timers id).deadline) timer a.armed =
      later.armed := by
    apply placed_congr
    intro id member
    have other : id ≠ timer := by
      rintro rfl
      exact a.distinct.not_mem_erase member
    have there := refines.delta (List.mem_of_mem_erase member)
    change _ ↔ later.world.due timer ≤ later.world.due id
    simp only [deadlines, if_pos, if_neg other, there, own, others id other]
    change delta ≤ _ ↔ _
    omega
  rw [order] at holds
  have first : queue.head = .timer timer ↔ later.armed.head? = some timer := holds.head_iff timer
  refine ⟨queue, ?_, holds, ?_⟩
  · rw [taken]
    simp only [first]
    rfl
  · intro near
    exact
      { world := rfl
        holds := holds
        stamped := by
          intro id member
          rw [deadlines]
          by_cases same : id = timer
          · subst same
            rw [if_pos rfl, own, BitVec.ofInt_add, BitVec.ofInt_natCast, ← BitVec.add_assoc]
            exact deadline_now (a.world.timeNow epoch) deadline
          · rw [if_neg same, others id same]
            apply refines.stamped id
            have known := (TimerQueue.mem_placed _ timer id a.distinct).mp member
            exact known.resolve_left same
        near := near }

theorem disarm (refines : Refines epoch s a) {timer : Fin n} {queue : TimerQueue κ n}
    (holds : queue.Holds s.ready (a.armed.erase timer))
    (deadlines : ∀ id, (queue.timers id).deadline = (s.queue.timers id).deadline) :
    Refines epoch { s with queue } (a.disarm timer) where
  world := refines.world
  holds := holds
  stamped := by
    intro id member
    rw [deadlines]
    exact refines.stamped id (List.mem_of_mem_erase member)
  near := fun id member => refines.near id (List.mem_of_mem_erase member)

theorem wait (refines : Refines epoch s a) {clocks : Nat}
    (near : ∀ timer ∈ a.armed, (a.world.wait clocks).Near timer) :
    Refines epoch { s with world := a.world.wait clocks } (a.change (a.world.wait clocks) (Agenda.wait_due _ _)) where
  world := rfl
  holds := refines.holds
  stamped := by
    intro timer member
    rw [Agenda.change, Agenda.wait_due]
    exact refines.stamped timer member
  near := near

theorem turn (refines : Refines epoch s a) :
    ∃ turned, s.queue.irqTurn (a.world.timeNow epoch) = some turned ∧
      ((turned = .finished ∧ a.armed = []) ∨
        ∃ timer rest, a.armed = timer :: rest ∧
          let delta := a.world.due timer - a.world.tick
          (slackTicks < delta ∧ turned = .reprogram delta) ∨
          (¬ slackTicks < delta ∧ ∃ callback queue, turned = .fire timer callback queue ∧
            queue.timerIsActive timer = false ∧ Refines epoch { s with queue } (a.disarm timer))) := by
  have holds := refines.holds
  cases list : a.armed with
  | nil =>
    rw [list] at holds
    exact ⟨.finished, TimerQueue.irqTurn_empty holds _, .inl ⟨rfl, rfl⟩⟩
  | cons timer rest =>
    have there := refines.delta (show timer ∈ a.armed by simp [list])
    rw [list] at holds
    by_cases later : slackTicks < a.world.due timer - a.world.tick
    · refine ⟨_, TimerQueue.irqTurn_wait holds (there ▸ later), .inr ⟨timer, rest, rfl, .inl ⟨later, ?_⟩⟩⟩
      rw [there]
    · have reached : timeDiff (a.world.timeNow epoch) (s.queue.timers timer).deadline ≤ slackTicks := by
        rw [there]
        exact Int.not_lt.mp later
      obtain ⟨queue, taken, popped, inactive, deadlines⟩ := TimerQueue.irqTurn_fire holds reached
      refine ⟨_, taken, .inr ⟨timer, rest, rfl, .inr ⟨later, _, queue, rfl, inactive, ?_⟩⟩⟩
      apply refines.disarm _ deadlines
      rw [list, List.erase_cons_head]
      exact popped

end Refines

/-- The code does to its queue what the agenda asks for. -/
theorem step_refines (input : ServiceInput κ n) {s next : Service κ n} {a : Agenda n} (refines : Refines epoch s a)
    (taken : s.step epoch input = .ok next) : s.world.allows input = true ∧ Refines epoch next (a.step epoch input) := by
  have world := refines.world
  unfold Service.step at taken
  split at taken
  case isFalse => cases taken
  case isTrue allowed =>
  apply And.intro allowed
  cases input with
  | wait clocks =>
    obtain ⟨rfl, near⟩ := checked_ok taken
    rw [world]
    apply refines.wait
    intro timer member
    rw [← world]
    exact near timer ((armed_iff refines.holds timer).mpr member)
  | timerInit timer callback =>
    simp only at taken
    split at taken
    · cases taken
    · rename_i idle
      cases taken
      rw [world]
      apply refines.timerInit
      rwa [← armed_iff refines.holds timer]
  | timerSet timer deadline =>
    simp only at taken
    split at taken
    · rename_i initialised
      obtain ⟨queue, found, holds, kept⟩ := refines.timerSet initialised deadline
      rw [world, found] at taken
      simp only [Agenda.step]
      -- Only a timer that has become the first one reprograms TIM4.
      by_cases first : (a.arm timer (a.world.tick + timeDiff (a.world.timeNow epoch) deadline)).armed.head? = some timer
      · simp only [if_pos first] at taken ⊢
        obtain ⟨rfl, near⟩ := checked_ok taken
        have armed := kept fun id member => near id ((armed_iff holds id).mpr member)
        exact armed.change _ (by rfl) (by rfl)
      · simp only [if_neg first] at taken ⊢
        obtain ⟨rfl, near⟩ := checked_ok taken
        apply kept
        exact fun id member => near id ((armed_iff holds id).mpr member)
    · cases taken
  | timerCancel timer =>
    simp only at taken
    split at taken
    · rename_i initialised
      obtain ⟨shorter, found, holds, deadlines⟩ := TimerQueue.timerCancel_holds refines.holds initialised
      rw [found] at taken
      cases taken
      rw [world]
      exact (refines.disarm holds deadlines).change _ (by rfl) (by rfl)
    · cases taken
  | enter =>
    cases taken
    rw [world]
    exact refines.change _ (by rfl) (by rfl)
  | turn =>
    obtain ⟨turned, found, ⟨rfl, empty⟩ | ⟨timer, rest, list, ⟨later, rfl⟩ | ⟨reached, callback, queue, rfl, inactive,
      popped⟩⟩⟩ := refines.turn
    · rw [world, found] at taken
      cases taken
      simp only [Agenda.step, empty]
      exact refines.change _ (by rfl) (by rfl)
    · rw [world, found] at taken
      cases taken
      simp only [Agenda.step, list, if_pos later]
      exact refines.change _ (by rfl) (by rfl)
    · rw [world, found] at taken
      cases taken
      simp only [Agenda.step, list, if_neg reached, inactive]
      exact popped.change _ (by rfl) (by rfl)
  | resume =>
    cases taken
    rw [world]
    exact refines.change _ (by rfl) (by rfl)

theorem step_notLost (input : ServiceInput κ n) {s : Service κ n} {a : Agenda n} (refines : Refines epoch s a) :
    s.step epoch input ≠ .error .lost := by
  have world := refines.world
  unfold Service.step
  split
  case isFalse => simp
  case isTrue allowed =>
  cases input with
  | wait clocks => exact checked_notLost _
  | timerInit timer callback =>
    simp only
    split <;> simp
  | timerSet timer deadline =>
    simp only
    split
    · rename_i initialised
      obtain ⟨queue, found, -, -⟩ := refines.timerSet initialised deadline
      rw [world, found]
      simp only
      split <;> exact checked_notLost _
    · simp
  | timerCancel timer =>
    simp only
    split
    · rename_i initialised
      obtain ⟨shorter, found, -, -⟩ := TimerQueue.timerCancel_holds refines.holds initialised
      simp [found]
    · simp
  | enter => simp
  | turn =>
    obtain ⟨turned, found, ⟨rfl, -⟩ | ⟨timer, rest, -, ⟨-, rfl⟩ | ⟨-, callback, queue, rfl, -, -⟩⟩⟩ := refines.turn <;>
      simp [world, found]
  | resume => simp

theorem boot_refines (epoch : TimeT) (timers : Fin n → Timer κ n) (now : Nat) :
    ∃ a : Agenda n, a.armed = [] ∧ a.world = (Service.boot timers now).world ∧
      Refines epoch (Service.boot timers now) a := by
  refine ⟨⟨(Service.boot timers now).world, [], List.nodup_nil, List.Pairwise.nil⟩, rfl, rfl, ?_⟩
  constructor
  · rfl
  · constructor
    · rfl
    · simp
    · simp [Service.boot]
  · simp
  · simp

theorem run_refines {timers : Fin n → Timer κ n} {now : Nat} {inputs : List (ServiceInput κ n)} {s : Service κ n}
    (run : exec (Service.step epoch) inputs (Service.boot timers now) = .ok s) : ∃ a, Refines epoch s a := by
  obtain ⟨a, -, -, initial⟩ := boot_refines epoch timers now
  apply exec_invariant _ ⟨a, initial⟩ run
  rintro input state next ⟨b, refines⟩ taken
  exact ⟨_, (step_refines input refines taken).2⟩

/-- The list from `head` is always the initialised timers that are active, each once, in deadline order. -/
theorem timer_queue_invariant (epoch : TimeT) (timers : Fin n → Timer κ n) (now : Nat)
    (inputs : List (ServiceInput κ n)) :
    exec (Service.step epoch) inputs (Service.boot timers now) ≠ .error .lost ∧
      ∀ s, exec (Service.step epoch) inputs (Service.boot timers now) = .ok s →
        ∃ list : List (Fin n),
          Linked TimerPtr.timer .null s.queue.cells s.queue.head list ∧ list.Nodup ∧
          (∀ timer, timer ∈ list ↔ s.ready timer = true ∧ s.queue.timerIsActive timer = true) ∧
          (∀ timer ∈ list, (s.queue.timers timer).deadline = epoch + BitVec.ofInt 32 (s.world.due timer) ∧
            s.world.Near timer) ∧
          (list.Pairwise fun a b => s.world.due a ≤ s.world.due b) ∧
          ((∀ timer ∈ list, s.world.due timer - s.world.tick < 2^30) →
            list.Pairwise fun a b => 0 ≤ timeDiff (s.queue.timers a).deadline (s.queue.timers b).deadline) := by
  constructor
  · intro lost
    obtain ⟨a, -, -, initial⟩ := boot_refines epoch timers now
    have kept : ∀ input (state next : Service κ n), (∃ b, Refines epoch state b) →
        state.step epoch input = .ok next → ∃ b, Refines epoch next b := by
      rintro input state next ⟨b, refines⟩ taken
      exact ⟨_, (step_refines input refines taken).2⟩
    obtain ⟨input, last, ⟨b, refines⟩, taken⟩ := exec_error kept ⟨a, initial⟩ lost
    exact step_notLost input refines taken
  · intro s run
    obtain ⟨a, refines⟩ := run_refines run
    have sorted := a.sorted
    have near := refines.near
    have stamped := refines.stamped
    rw [← refines.world] at sorted near stamped
    refine ⟨a.armed, refines.holds.linked, a.distinct, ?_, ?_, sorted, ?_⟩
    · intro timer
      rw [← armed_iff refines.holds timer, Service.armed, Bool.and_eq_true]
    · exact fun timer member => ⟨stamped timer member, near timer member⟩
    · intro ahead
      apply sorted.imp_of_mem
      intro x y inX inY order
      have lowX := (near x inX).1
      have highY := ahead y inY
      rw [stamped x inX, stamped y inY, timeDiff_epoch epoch _ _ (by omega) (by omega)]
      omega

/-- A deadline 2^30 ticks ago before one 2^30 ticks ahead: `time_diff()` of the two is negative. -/
theorem deadlines_half_apart : ∃ s : Service Unit 2,
    exec (Service.step 0)
      [.timerInit 0 (), .timerInit 1 (), .timerSet 0 0x40000000, .wait (8 * 2^31), .timerSet 1 0xc0000000]
      (Service.boot (fun _ => ⟨0, (), .null⟩) 0) = .ok s ∧
    s.queue.head = .timer 0 ∧ (s.queue.timers 0).next = .timer 1 ∧ (s.queue.timers 1).next = .null ∧
    timeDiff (s.queue.timers 0).deadline (s.queue.timers 1).deadline < 0 := by
  obtain ⟨s, run, checked⟩ := exists_of_succeedsWith
    (fun s : Service Unit 2 => s.queue.head = .timer 0 ∧ (s.queue.timers 0).next = .timer 1 ∧
      (s.queue.timers 1).next = .null ∧ timeDiff (s.queue.timers 0).deadline (s.queue.timers 1).deadline < 0)
    (exec (Service.step 0)
      [.timerInit 0 (), .timerInit 1 (), .timerSet 0 0x40000000, .wait (8 * 2^31), .timerSet 1 0xc0000000]
      (Service.boot (fun _ => ⟨0, (), .null⟩) 0)) (by decide +kernel)
  exact ⟨s, run, of_decide_eq_true checked⟩

end Testjig.Timers
