import Testjig.Timers.Service

namespace Testjig.Timers

open Machine Testjig.Time

namespace Event

variable {n : Nat}

def about : Event n → Option (Fin n)
  | .set timer _ | .cancel timer | .call timer .. => some timer
  | .init _ | .enter | .sample _ | .leave => none

def isBoundary : Event n → Bool
  | .enter | .leave => true
  | _ => false

end Event

variable {κ : Type} {n : Nat} {epoch : TimeT}

/-- The last event about a timer, in a log with its newest event first -/
def latest (log : List (Event n)) (timer : Fin n) : Option (Event n) := log.find? (·.about = some timer)

def inIrqTimer (log : List (Event n)) : Prop := log.find? Event.isBoundary = some .enter

structure Justified (older : List (Event n)) (timer : Fin n) (due : Int) (tick : Nat) (active : Bool) : Prop where
  armed : latest older timer = some (.set timer due)
  reached : due ≤ tick + slackTicks
  inactive : active = false
  inside : inIrqTimer older
  ordered : ∀ first earlier k b between before, older = between ++ .call first earlier k b :: before →
    (∀ d, .set timer d ∉ between) → earlier ≤ due

structure Delivered (log : List (Event n)) (armed : List (Fin n)) (due : Fin n → Int) : Prop where
  armedBy : ∀ timer ∈ armed, latest log timer = some (.set timer (due timer))
  pending : ∀ first earlier k b newer older, log = newer ++ .call first earlier k b :: older →
    ∀ timer ∈ armed, (∀ d, .set timer d ∉ newer) → earlier ≤ due timer
  called : ∀ timer d tick active older, .call timer d tick active :: older <:+ log →
    Justified older timer d tick active

@[simp]
theorem latest_cons (event : Event n) (log : List (Event n)) (timer : Fin n) :
    latest (event :: log) timer = if event.about = some timer then some event else latest log timer := by
  by_cases settles : event.about = some timer
  · simp [latest, settles]
  · simp [latest, settles]

theorem set_between {between before : List (Event n)} {timer : Fin n} {due d : Int} {k : Nat} {b : Bool}
    (armed : latest (between ++ .call timer d k b :: before) timer = some (.set timer due)) :
    .set timer due ∈ between := by
  induction between with
  | nil => simp [Event.about] at armed
  | cons event rest ih =>
    rw [List.cons_append, latest_cons] at armed
    split at armed
    · cases armed
      exact List.mem_cons_self ..
    · exact List.mem_cons_of_mem _ (ih armed)

namespace Delivered

variable {log : List (Event n)} {armed : List (Fin n)} {due : Fin n → Int}

theorem push (delivered : Delivered log armed due) {event : Event n} {armed' : List (Fin n)} {due' : Fin n → Int}
    (notCall : ∀ timer d k b, event ≠ .call timer d k b)
    (known : ∀ id ∈ armed', event = .set id (due' id) ∨ (id ∈ armed ∧ due' id = due id ∧ event.about ≠ some id)) :
    Delivered (event :: log) armed' due' where
  armedBy := by
    intro id member
    rw [latest_cons]
    rcases known id member with rfl | ⟨before, same, other⟩
    · exact if_pos rfl
    · rw [if_neg other, same]
      exact delivered.armedBy id before
  pending := by
    intro first earlier k b newer older split id member unset
    rcases List.cons_eq_append_iff.mp split with ⟨-, call⟩ | ⟨rest, cut, tail⟩
    · cases call
      exact absurd rfl (notCall first earlier k b)
    · subst cut
      rcases known id member with rfl | ⟨before, same, -⟩
      · exact absurd (List.mem_cons_self ..) (unset _)
      · rw [same]
        apply delivered.pending first earlier k b rest older tail id before
        exact fun d set => unset d (List.mem_cons_of_mem _ set)
  called := by
    intro timer d tick active older suffix
    rcases List.suffix_cons_iff.mp suffix with here | earlier
    · cases here
      exact absurd rfl (notCall timer d tick active)
    · exact delivered.called timer d tick active older earlier

/-- An event that is about no armed timer leaves the deliveries as they are. -/
theorem aside (delivered : Delivered log armed due) {event : Event n} (notCall : ∀ timer d k b, event ≠ .call timer d k b)
    (aboutNone : event.about = none) : Delivered (event :: log) armed due := by
  apply delivered.push notCall
  intro id member
  refine .inr ⟨member, rfl, ?_⟩
  rw [aboutNone]
  exact Option.some_ne_none id |>.symm

theorem justified {timer : Fin n} (delivered : Delivered log armed due) (member : timer ∈ armed) {tick : Nat}
    (reached : due timer ≤ tick + slackTicks) (inside : inIrqTimer log) :
    Justified log timer (due timer) tick false where
  armed := delivered.armedBy timer member
  reached := reached
  inactive := rfl
  inside := inside
  ordered := fun first earlier k b between before split unset =>
    delivered.pending first earlier k b between before split timer member unset

theorem call {timer : Fin n} (delivered : Delivered log armed due) (member : timer ∈ armed) {tick : Nat}
    (reached : due timer ≤ tick + slackTicks) (inside : inIrqTimer log)
    (first : ∀ id ∈ armed, due timer ≤ due id) (distinct : armed.Nodup) :
    Delivered (.call timer (due timer) tick false :: log) (armed.erase timer) due where
  armedBy := by
    intro id inRest
    have other : timer ≠ id := by
      rintro rfl
      exact distinct.not_mem_erase inRest
    rw [latest_cons, if_neg (by simpa [Event.about] using other)]
    exact delivered.armedBy id (List.mem_of_mem_erase inRest)
  pending := by
    intro earlier d k b newer older split id inRest unset
    have before := List.mem_of_mem_erase inRest
    rcases List.cons_eq_append_iff.mp split with ⟨-, call⟩ | ⟨rest, cut, tail⟩
    · cases call
      exact first id before
    · subst cut
      apply delivered.pending earlier d k b rest older tail id before
      exact fun e set => unset e (List.mem_cons_of_mem _ set)
  called := by
    intro id d k active older suffix
    rcases List.suffix_cons_iff.mp suffix with here | earlier
    · cases here
      exact delivered.justified member reached inside
    · exact delivered.called id d k active older earlier

end Delivered

namespace Agenda

structure Serves (a : Agenda n) : Prop where
  delivered : Delivered a.world.log a.armed a.world.due
  inside : a.world.phase ≠ .outside → inIrqTimer a.world.log

theorem wait_log (w : World n) (clocks : Nat) : (w.wait clocks).log = w.log ∧ (w.wait clocks).phase = w.phase := by
  rw [World.wait]
  split
  · split <;> exact ⟨rfl, rfl⟩
  · exact ⟨rfl, rfl⟩

theorem Serves.step {a : Agenda n} (serves : a.Serves) (input : ServiceInput κ n)
    (allowed : a.world.allows input = true) : (a.step epoch input).Serves := by
  have delivered := serves.delivered
  cases input with
  | wait clocks =>
    obtain ⟨log, phase⟩ := wait_log a.world clocks
    constructor
    · simp only [Agenda.step, change, log, wait_due]
      exact delivered
    · simp only [Agenda.step, change, log, phase]
      exact serves.inside
  | timerInit timer callback =>
    exact ⟨delivered.aside (by simp) rfl, serves.inside⟩
  | timerSet timer deadline =>
    have later : (a.arm timer (a.world.tick + timeDiff (a.world.timeNow epoch) deadline)).Serves := by
      constructor
      · apply delivered.push
        · simp
        · intro id member
          by_cases same : id = timer
          · subst same
            left
            rw [arm_due]
          · right
            refine ⟨((mem_arm a timer id _).mp member).resolve_left same, ?_, ?_⟩
            · exact arm_due_of_ne a _ same
            · simpa [Event.about] using Ne.symm same
      · exact serves.inside
    simp only [Agenda.step]
    split
    · exact ⟨later.delivered, later.inside⟩
    · exact later
  | timerCancel timer =>
    constructor
    · apply delivered.push
      · simp
      · intro id member
        refine .inr ⟨List.mem_of_mem_erase member, rfl, ?_⟩
        rintro same
        cases same
        exact a.distinct.not_mem_erase member
    · exact serves.inside
  | enter =>
    exact ⟨delivered.aside (by simp) rfl, fun _ => rfl⟩
  | turn =>
    have looping : a.world.phase = .looping := by simpa [World.allows] using allowed
    have inside := serves.inside (by simp [looping])
    have sampled : Delivered (.sample a.world.tick :: a.world.log) a.armed a.world.due := delivered.aside (by simp) rfl
    simp only [Agenda.step]
    split
    · rename_i empty
      exact ⟨delivered.aside (by simp) rfl, fun inRun => absurd rfl inRun⟩
    · rename_i timer rest list
      -- The head is not due yet, or its callback is called.
      split
      · exact ⟨sampled.aside (by simp) rfl, fun inRun => absurd rfl inRun⟩
      · rename_i reached
        have member : timer ∈ a.armed := by simp [list]
        constructor
        · apply sampled.call member _ inside _ a.distinct
          · omega
          · exact fun id there => a.head_first (by simp [list]) there
        · exact fun _ => inside
  | resume =>
    have callback : a.world.phase = .callback := by simpa [World.allows] using allowed
    constructor
    · exact delivered
    · exact fun _ => serves.inside (by simp [callback])

end Agenda

theorem run_serves {timers : Fin n → Timer κ n} {now : Nat} {inputs : List (ServiceInput κ n)} {s : Service κ n}
    (run : exec (Service.step epoch) inputs (Service.boot timers now) = .ok s) :
    ∃ a, Refines epoch s a ∧ a.Serves := by
  obtain ⟨first, empty, world, initial⟩ := boot_refines epoch timers now
  have start : first.Serves := by
    constructor
    · constructor
      · simp [empty]
      · simp [world, Service.boot]
      · simp [world, Service.boot]
    · simp [world, Service.boot]
  apply exec_invariant _ ⟨first, initial, start⟩ run
  rintro input state next ⟨a, refines, serves⟩ taken
  obtain ⟨allowed, later⟩ := step_refines input refines taken
  exact ⟨_, later, serves.step input (refines.world ▸ allowed)⟩

/-- What the last turn of an `IRQ_timer()` leaves behind -/
theorem Refines.leaves {s next : Service κ n} {a : Agenda n} (refines : Refines epoch s a) (serves : a.Serves)
    (taken : s.step epoch .turn = .ok next) (outside : next.world.phase = .outside) :
    (∀ timer, next.armed timer = false) ∨
      ∃ before, next.world.log = .leave :: .sample next.world.tick :: before ∧ inIrqTimer before ∧
        ∀ timer, next.armed timer = true → slackTicks < next.world.due timer - next.world.tick := by
  obtain ⟨allowed, later⟩ := step_refines .turn refines taken
  rw [refines.world] at allowed
  have looping : a.world.phase = .looping := by simpa [World.allows] using allowed
  have world := later.world
  cases list : a.armed with
  | nil =>
    left
    intro timer
    rw [← Bool.not_eq_true, armed_iff later.holds timer]
    simp [Agenda.step, list, Agenda.change]
  | cons first rest =>
    by_cases wait : slackTicks < a.world.due first - a.world.tick
    · right
      rw [world] at outside ⊢
      simp only [armed_iff later.holds, Agenda.step, list, if_pos wait, Agenda.change]
      refine ⟨a.world.log, rfl, serves.inside (by simp [looping]), ?_⟩
      intro timer member
      have order : a.world.due first ≤ a.world.due timer := a.head_first (by simp [list]) (list ▸ member)
      change slackTicks < a.world.due timer - a.world.tick
      omega
    · rw [world] at outside
      simp only [Agenda.step, list, if_neg wait, Agenda.change] at outside
      cases outside

/-- Callbacks are called once for each time their timer is set, in time, in order, and from nowhere else. -/
theorem timer_delivery (epoch : TimeT) (timers : Fin n → Timer κ n) (now : Nat) (inputs : List (ServiceInput κ n))
    (s : Service κ n) (run : exec (Service.step epoch) inputs (Service.boot timers now) = .ok s) :
    (∀ timer due (tick : Nat) active older, .call timer due tick active :: older <:+ s.world.log →
      latest older timer = some (.set timer due) ∧
      (∀ between d k b before, older = between ++ .call timer d k b :: before → .set timer due ∈ between) ∧
      inIrqTimer older ∧ due - tick ≤ slackTicks ∧ active = false ∧
      (∀ first earlier k b between before, older = between ++ .call first earlier k b :: before →
        (∀ d, .set timer d ∉ between) → earlier ≤ due)) ∧
    (∀ next, s.step epoch .turn = .ok next → next.world.phase = .outside →
      (∀ timer, next.armed timer = false) ∨
        ∃ before, next.world.log = .leave :: .sample next.world.tick :: before ∧ inIrqTimer before ∧
          ∀ timer, next.armed timer = true → slackTicks < next.world.due timer - next.world.tick) := by
  obtain ⟨a, refines, serves⟩ := run_serves run
  constructor
  · intro timer due tick active older suffix
    rw [refines.world] at suffix
    have justified := serves.delivered.called timer due tick active older suffix
    refine ⟨justified.armed, ?_, justified.inside, ?_, justified.inactive, justified.ordered⟩
    · rintro between d k b before rfl
      exact set_between justified.armed
    · have reached := justified.reached
      omega
  · intro next taken outside
    exact refines.leaves serves taken outside

/-- A callback sets its own timer again, and is called a second time in the same `IRQ_timer()`. -/
theorem timer_delivery_again :
    ∃ s : Service Unit 1,
      exec (Service.step 0) [.timerInit 0 (), .timerSet 0 100, .wait 800, .enter, .turn, .timerSet 0 110, .resume, .turn]
        (Service.boot (fun _ => ⟨0, (), .null⟩) 0) = .ok s ∧
      latest [.sample 100, .set 0 110, .call 0 100 100 false, .sample 100, .enter, .set 0 100, .init 0] (0 : Fin 1) =
        some (.set 0 110) ∧
      s.world.log = .call 0 110 100 false ::
        [.sample 100, .set 0 110, .call 0 100 100 false, .sample 100, .enter, .set 0 100, .init 0] := by
  obtain ⟨s, run, final⟩ := exists_of_succeedsWith
    (fun s : Service Unit 1 => decide (s.world.log = Event.call 0 110 100 false ::
      [.sample 100, .set 0 110, .call 0 100 100 false, .sample 100, .enter, .set 0 100, .init 0]))
    (exec (Service.step 0) [.timerInit 0 (), .timerSet 0 100, .wait 800, .enter, .turn, .timerSet 0 110, .resume, .turn]
      (Service.boot (fun _ => ⟨0, (), .null⟩) 0)) (by decide +kernel)
  have log := of_decide_eq_true final
  exact ⟨s, run, ((timer_delivery 0 _ 0 _ s run).1 0 110 100 false _ (log ▸ List.suffix_rfl)).1, log⟩

end Testjig.Timers
