import Mathlib.Data.Fintype.Card
import Mathlib.Data.List.Sort
import Testjig.Machine.Chain
import Testjig.Timers.Queue

namespace Testjig.Timers

open Machine Testjig.Time

namespace TimerQueue

variable {κ : Type} {n : Nat}

/-- The pointers of a queue, the one in `head` first -/
def cells (queue : TimerQueue κ n) : Option (Fin n) → TimerPtr n
  | none => queue.head
  | some id => (queue.timers id).next

def slotOf : Option (Fin n) → Slot n
  | none => .head
  | some id => .next id

/-- The queue holds these timers in this order, and no other initialised timer is active. -/
structure Holds (queue : TimerQueue κ n) (ready : Fin n → Bool) (list : List (Fin n)) : Prop where
  linked : Linked TimerPtr.timer .null queue.cells queue.head list
  members : ∀ timer ∈ list, ready timer = true
  idle : ∀ timer, ready timer = true → timer ∉ list → (queue.timers timer).next = .inactive

def placed (deltaOf : Fin n → Int) (timer : Fin n) (list : List (Fin n)) : List (Fin n) :=
  (list.erase timer).orderedInsert (fun a b => deltaOf a ≤ deltaOf b) timer

@[simp]
theorem load_slotOf (queue : TimerQueue κ n) (cell : Option (Fin n)) : queue.load (slotOf cell) = queue.cells cell := by
  cases cell <;> rfl

@[simp]
theorem cells_none (queue : TimerQueue κ n) : queue.cells none = queue.head := rfl

@[simp]
theorem cells_some (queue : TimerQueue κ n) (timer : Fin n) :
    queue.cells (some timer) = (queue.timers timer).next := rfl

theorem cells_store (queue : TimerQueue κ n) (cell : Option (Fin n)) (pointer : TimerPtr n) :
    (queue.store (slotOf cell) pointer).cells = Function.update queue.cells cell pointer := by
  funext other
  cases cell with
  | none => cases other <;> simp [slotOf, store, cells]
  | some timer =>
    cases other with
    | none => simp [slotOf, store, modify]
    | some id =>
      by_cases same : id = timer
      · subst same
        simp [slotOf, store, modify]
      · rw [Function.update_of_ne (by simpa using same)]
        simp [slotOf, store, modify, same]

@[simp]
theorem deadline_store (queue : TimerQueue κ n) (slot : Slot n) (pointer : TimerPtr n) (id : Fin n) :
    ((queue.store slot pointer).timers id).deadline = (queue.timers id).deadline := by
  cases slot with
  | head => rfl
  | next timer =>
    simp only [store, modify]
    split <;> rfl

@[simp]
theorem callback_store (queue : TimerQueue κ n) (slot : Slot n) (pointer : TimerPtr n) (id : Fin n) :
    ((queue.store slot pointer).timers id).callback = (queue.timers id).callback := by
  cases slot with
  | head => rfl
  | next timer =>
    simp only [store, modify]
    split <;> rfl

theorem timer_injective : Function.Injective (@TimerPtr.timer n) := by
  intro a b same
  cases same
  rfl

theorem timer_notNull (id : Fin n) : TimerPtr.timer id ≠ .null := by simp

theorem linked_active {queue : TimerQueue κ n} {pointer : TimerPtr n} {list : List (Fin n)}
    (linked : Linked TimerPtr.timer .null queue.cells pointer list) :
    pointer ≠ .inactive ∧ ∀ timer ∈ list, (queue.timers timer).next ≠ .inactive := by
  induction list generalizing pointer with
  | nil =>
    rw [Linked] at linked
    simp [linked]
  | cons id rest ih =>
    obtain ⟨next, others⟩ := ih linked.2
    constructor
    · rw [linked.1]
      simp
    · intro timer member
      rcases List.mem_cons.mp member with rfl | later
      · exact next
      · exact others timer later

namespace Holds

variable {queue : TimerQueue κ n} {ready : Fin n → Bool} {list : List (Fin n)}

theorem nodup (holds : queue.Holds ready list) : list.Nodup :=
  holds.linked.nodup timer_injective timer_notNull

theorem active_iff (holds : queue.Holds ready list) {timer : Fin n} (initialised : ready timer = true) :
    queue.timerIsActive timer = true ↔ timer ∈ list := by
  rw [timerIsActive, decide_eq_true_iff]
  constructor
  · intro active
    by_contra missing
    exact active (holds.idle timer initialised missing)
  · exact (linked_active holds.linked).2 timer

theorem head_iff (holds : queue.Holds ready list) (timer : Fin n) :
    queue.head = .timer timer ↔ list.head? = some timer := by
  have linked := holds.linked
  cases list with
  | nil =>
    rw [Linked] at linked
    simp [linked]
  | cons id rest =>
    rw [linked.1]
    simp

theorem length_le (holds : queue.Holds ready list) : list.length ≤ n := by
  have bound := holds.nodup.length_le_card
  rwa [Fintype.card_fin] at bound

theorem store_idle {cell : Option (Fin n)} {pointer : TimerPtr n} {timer : Fin n} (other : some timer ≠ cell)
    (idle : (queue.timers timer).next = .inactive) :
    ((queue.store (slotOf cell) pointer).timers timer).next = .inactive := by
  have kept := congrFun (queue.cells_store cell pointer) (some timer)
  rw [Function.update_of_ne other] at kept
  exact kept.trans idle

end Holds

theorem findTimer_linked {queue : TimerQueue κ n} {timer : Fin n} {left right : List (Fin n)} (cell : Option (Fin n))
    {fuel : Nat} (linked : Linked TimerPtr.timer .null queue.cells (queue.cells cell) (left ++ timer :: right))
    (first : timer ∉ left) (enough : left.length < fuel) :
    queue.findTimer timer fuel (slotOf cell) = some (slotOf (slotAfter cell left)) := by
  induction left generalizing cell fuel with
  | nil =>
    obtain ⟨fuel, rfl⟩ := Nat.exists_eq_succ_of_ne_zero (Nat.ne_of_gt enough)
    have here : queue.cells cell = .timer timer := linked.1
    rw [findTimer, load_slotOf, here]
    exact if_pos rfl
  | cons id left ih =>
    obtain ⟨fuel, rfl⟩ := Nat.exists_eq_succ_of_ne_zero (Nat.ne_zero_of_lt enough)
    have here : queue.cells cell = .timer id := linked.1
    have other : id ≠ timer := fun same => first (same ▸ List.mem_cons_self ..)
    rw [findTimer, load_slotOf, here, slotAfter]
    simp only [if_neg other]
    apply ih (some id) linked.2
    · exact fun member => first (List.mem_cons_of_mem _ member)
    · exact Nat.lt_of_succ_lt_succ enough

theorem findPlace_linked {queue : TimerQueue κ n} (now : TimeT) (delta : Int) {list : List (Fin n)}
    (cell : Option (Fin n)) {fuel : Nat} (linked : Linked TimerPtr.timer .null queue.cells (queue.cells cell) list)
    (enough : list.length < fuel) :
    queue.findPlace now delta fuel (slotOf cell) =
      some (slotOf (slotAfter cell
        (list.takeWhile fun id => ¬ delta ≤ timeDiff now (queue.timers id).deadline))) := by
  induction list generalizing cell fuel with
  | nil =>
    obtain ⟨fuel, rfl⟩ := Nat.exists_eq_succ_of_ne_zero (Nat.ne_of_gt enough)
    have here : queue.cells cell = .null := linked
    rw [findPlace, load_slotOf, here]
    rfl
  | cons id rest ih =>
    obtain ⟨fuel, rfl⟩ := Nat.exists_eq_succ_of_ne_zero (Nat.ne_zero_of_lt enough)
    have here : queue.cells cell = .timer id := linked.1
    rw [findPlace, load_slotOf, here]
    by_cases before : delta ≤ timeDiff now (queue.timers id).deadline
    · simp [before, slotAfter]
    · simp only [List.takeWhile_cons, before, not_false_eq_true, decide_true, if_true, slotAfter]
      exact ih (some id) linked.2 (Nat.lt_of_succ_lt_succ enough)

/-- `_timer_cancel()` always finds an active timer, and takes it out of the list. -/
theorem timerCancel_holds {queue : TimerQueue κ n} {ready : Fin n → Bool} {list : List (Fin n)} {timer : Fin n}
    (holds : queue.Holds ready list) (initialised : ready timer = true) :
    ∃ shorter, queue.timerCancel timer = some shorter ∧ shorter.Holds ready (list.erase timer) ∧
      ∀ id, (shorter.timers id).deadline = (queue.timers id).deadline := by
  by_cases member : timer ∈ list
  · obtain ⟨left, right, first, cut, erased⟩ := List.exists_erase_eq member
    have linked := holds.linked
    rw [cut] at linked
    have room : left.length < walk n := by
      have bound := holds.length_le
      rw [cut, List.length_append, List.length_cons] at bound
      rw [walk]
      omega
    have found := findTimer_linked none linked first room
    have nodup := holds.nodup
    rw [cut] at nodup
    have out := Linked.unlink nodup linked TimerPtr.inactive
    refine ⟨(queue.store (slotOf (slotAfter none left)) (queue.timers timer).next).store (slotOf (some timer))
      .inactive, ?_, ?_, ?_⟩
    · rw [timerCancel, if_pos ((holds.active_iff initialised).mpr member)]
      change queue.findTimer timer (walk n) .head = _ at found
      simp only [found]
      rfl
    · rw [erased]
      constructor
      · rw [cells_store, cells_store, ← cells_none, cells_store, cells_store]
        exact out
      · intro id inside
        apply holds.members id
        rw [cut]
        rcases List.mem_append.mp inside with before | after
        · exact List.mem_append_left _ before
        · exact List.mem_append_right _ (List.mem_cons_of_mem _ after)
      · intro id initialisedId outside
        by_cases same : id = timer
        · subst same
          have written := congrFun (cells_store (queue.store (slotOf (slotAfter none left)) (queue.timers id).next)
            (some id) .inactive) (some id)
          rwa [Function.update_self] at written
        · apply Holds.store_idle (by simpa using same)
          apply Holds.store_idle
          · intro written
            have place := slotAfter_mem none left
            rw [← written] at place
            exact outside (List.mem_append_left _ (by simpa using place))
          · apply holds.idle id initialisedId
            rw [cut]
            simp only [List.mem_append, List.mem_cons, not_or] at outside ⊢
            exact ⟨outside.1, same, outside.2⟩
    · intro id
      simp
  · refine ⟨queue, ?_, ?_, fun _ => rfl⟩
    · rw [timerCancel, if_neg]
      rwa [holds.active_iff initialised]
    · rwa [List.erase_of_not_mem member]

theorem nodup_placed (deltaOf : Fin n → Int) (timer : Fin n) {list : List (Fin n)} (nodup : list.Nodup) :
    (placed deltaOf timer list).Nodup := by
  apply (List.perm_orderedInsert _ timer (list.erase timer)).nodup_iff.mpr
  apply List.nodup_cons.mpr
  exact ⟨nodup.not_mem_erase, nodup.erase timer⟩

theorem mem_placed (deltaOf : Fin n → Int) (timer id : Fin n) {list : List (Fin n)} (nodup : list.Nodup) :
    id ∈ placed deltaOf timer list ↔ id = timer ∨ id ∈ list := by
  rw [placed, List.mem_orderedInsert, nodup.mem_erase_iff]
  by_cases same : id = timer <;> simp [same]

theorem cells_stamped (queue : TimerQueue κ n) (timer : Fin n) (deadline : TimeT) :
    (queue.modify timer fun t => { t with deadline }).cells = queue.cells := by
  funext cell
  cases cell with
  | none => rfl
  | some id =>
    simp only [modify, cells_some]
    split <;> rfl

theorem deadline_stamped (queue : TimerQueue κ n) (timer : Fin n) (deadline : TimeT) (id : Fin n) :
    ((queue.modify timer fun t => { t with deadline }).timers id).deadline =
      if id = timer then deadline else (queue.timers id).deadline := by
  simp only [modify]
  split <;> rfl

theorem Holds.stamped {queue : TimerQueue κ n} {ready : Fin n → Bool} {list : List (Fin n)}
    (holds : queue.Holds ready list) (timer : Fin n) (deadline : TimeT) :
    (queue.modify timer fun t => { t with deadline }).Holds ready list where
  linked := by
    have linked := holds.linked
    rwa [← cells_none, ← cells_stamped queue timer deadline] at linked
  members := holds.members
  idle := by
    intro id initialised outside
    rw [← cells_some, cells_stamped]
    exact holds.idle id initialised outside

/-- The two stores that put a timer in behind some others -/
theorem Holds.insert {queue : TimerQueue κ n} {ready : Fin n → Bool} {before after : List (Fin n)} {timer : Fin n}
    (holds : queue.Holds ready (before ++ after)) (nodup : (before ++ timer :: after).Nodup)
    (initialised : ready timer = true) :
    ((queue.store (slotOf (some timer)) (queue.cells (slotAfter none before))).store
      (slotOf (slotAfter none before)) (.timer timer)).Holds ready (before ++ timer :: after) where
  linked := by
    rw [cells_store, cells_store, ← cells_none, cells_store, cells_store]
    exact Linked.insert nodup holds.linked
  members := by
    intro id inside
    rcases List.mem_append.mp inside with earlier | here
    · exact holds.members id (List.mem_append_left _ earlier)
    · rcases List.mem_cons.mp here with rfl | later
      · exact initialised
      · exact holds.members id (List.mem_append_right _ later)
  idle := by
    intro id initialisedId outside
    simp only [List.mem_append, List.mem_cons, not_or] at outside
    obtain ⟨notBefore, other, notAfter⟩ := outside
    apply Holds.store_idle
    · intro written
      have place := slotAfter_mem none before
      rw [← written] at place
      exact notBefore (by simpa using place)
    · apply Holds.store_idle (by simpa using other)
      apply holds.idle id initialisedId
      rw [List.mem_append, not_or]
      exact ⟨notBefore, notAfter⟩

/-- `timer_set()` moves the timer to its place in the order of the deadlines. -/
theorem timerSet_holds {queue : TimerQueue κ n} {ready : Fin n → Bool} {list : List (Fin n)} {timer : Fin n}
    (holds : queue.Holds ready list) (initialised : ready timer = true) (deadline now : TimeT) :
    ∃ longer, queue.timerSet timer deadline now =
        some (longer, if longer.head = .timer timer then some (timeDiff now deadline) else none) ∧
      longer.Holds ready (placed (fun id => timeDiff now (longer.timers id).deadline) timer list) ∧
      ∀ id, (longer.timers id).deadline = if id = timer then deadline else (queue.timers id).deadline := by
  obtain ⟨shorter, cancelled, rest, kept⟩ := timerCancel_holds holds initialised
  let stamped := shorter.modify timer fun t => { t with deadline }
  have deadlines : ∀ id, (stamped.timers id).deadline = if id = timer then deadline else (queue.timers id).deadline := by
    intro id
    rw [deadline_stamped, kept id]
  let delta := timeDiff now deadline
  let before := (list.erase timer).takeWhile fun id => ¬ delta ≤ timeDiff now (stamped.timers id).deadline
  let after := (list.erase timer).dropWhile fun id => ¬ delta ≤ timeDiff now (stamped.timers id).deadline
  have parts : before ++ after = list.erase timer := List.takeWhile_append_dropWhile
  have cut : stamped.Holds ready (before ++ after) := by
    rw [parts]
    exact rest.stamped timer deadline
  have room : (list.erase timer).length < walk n := Nat.lt_succ_of_le rest.length_le
  -- The walk stops at the first timer that is not earlier, where `orderedInsert` puts the new one.
  have found := findPlace_linked now delta none (parts ▸ cut.linked) room
  let longer := (stamped.store (slotOf (some timer)) (stamped.cells (slotAfter none before))).store
    (slotOf (slotAfter none before)) (.timer timer)
  have deadlineLonger : ∀ id, (longer.timers id).deadline = (stamped.timers id).deadline := by
    intro id
    simp [longer]
  have order : placed (fun id => timeDiff now (longer.timers id).deadline) timer list = before ++ timer :: after := by
    have own : (longer.timers timer).deadline = deadline := by
      rw [deadlineLonger, deadlines, if_pos rfl]
    rw [placed, List.orderedInsert_eq_take_drop]
    simp only [own, deadlineLonger]
    rfl
  have nodup : (before ++ timer :: after).Nodup := by
    rw [← order]
    exact nodup_placed _ timer holds.nodup
  refine ⟨longer, ?_, ?_, ?_⟩
  · rw [timerSet, cancelled]
    change (shorter.modify timer fun t => { t with deadline }).findPlace now (timeDiff now deadline) (walk n) .head =
      _ at found
    dsimp only
    rw [found]
    simp only [load_slotOf]
    rfl
  · rw [order]
    exact cut.insert nodup initialised
  · intro id
    rw [deadlineLonger, deadlines]

theorem irqTurn_empty {queue : TimerQueue κ n} {ready : Fin n → Bool} (holds : queue.Holds ready []) (now : TimeT) :
    queue.irqTurn now = some .finished := by
  have empty : queue.head = .null := holds.linked
  rw [irqTurn, empty]

theorem irqTurn_wait {queue : TimerQueue κ n} {ready : Fin n → Bool} {timer : Fin n} {rest : List (Fin n)}
    (holds : queue.Holds ready (timer :: rest)) {now : TimeT}
    (later : slackTicks < timeDiff now (queue.timers timer).deadline) :
    queue.irqTurn now = some (.reprogram (timeDiff now (queue.timers timer).deadline)) := by
  have first : queue.head = .timer timer := holds.linked.1
  rw [irqTurn, first]
  exact if_pos later

/-- A callback starts with its timer out of the list and inactive. -/
theorem irqTurn_fire {queue : TimerQueue κ n} {ready : Fin n → Bool} {timer : Fin n} {rest : List (Fin n)}
    (holds : queue.Holds ready (timer :: rest)) {now : TimeT}
    (reached : timeDiff now (queue.timers timer).deadline ≤ slackTicks) :
    ∃ popped, queue.irqTurn now = some (.fire timer (queue.timers timer).callback popped) ∧
      popped.Holds ready rest ∧ popped.timerIsActive timer = false ∧
      ∀ id, (popped.timers id).deadline = (queue.timers id).deadline := by
  have first : queue.head = .timer timer := holds.linked.1
  have nodup := holds.nodup
  have initialised := holds.members timer (List.mem_cons_self ..)
  have popped : ((queue.store .head (queue.timers timer).next).store (.next timer) .inactive).Holds ready rest := by
    constructor
    · have out := Linked.unlink (show ([] ++ timer :: rest).Nodup from nodup) holds.linked TimerPtr.inactive
      change Linked _ _ (((queue.store (slotOf none) _).store (slotOf (some timer)) _).cells) _ _
      rw [cells_store, cells_store]
      exact out
    · exact fun id member => holds.members id (List.mem_cons_of_mem _ member)
    · intro id initialisedId outside
      by_cases same : id = timer
      · subst same
        simp [store, modify]
      · change (((queue.store (slotOf none) _).store (slotOf (some timer)) _).timers id).next = _
        apply Holds.store_idle (by simpa using same)
        apply Holds.store_idle (by simp)
        exact holds.idle id initialisedId (by simp [same, outside])
  refine ⟨_, ?_, popped, ?_, by simp⟩
  · rw [irqTurn, first]
    simp only [if_neg (Int.not_lt.mpr reached), callback_store]
  · rw [← Bool.not_eq_true, popped.active_iff initialised]
    exact (List.nodup_cons.mp nodup).1

theorem timerInit_holds {queue : TimerQueue κ n} {ready : Fin n → Bool} {list : List (Fin n)} {timer : Fin n}
    (holds : queue.Holds ready list) (out : timer ∉ list) (callback : κ) :
    (queue.timerInit timer callback).Holds (Function.update ready timer true) list := by
  have elsewhere : ∀ id, id ≠ timer → (queue.timerInit timer callback).timers id = queue.timers id := by
    intro id other
    simp [timerInit, modify, other]
  constructor
  · apply holds.linked.frame
    intro id member
    have other : id ≠ timer := fun same => out (same ▸ member)
    rw [cells_some, cells_some, elsewhere id other]
  · intro id member
    have other : id ≠ timer := fun same => out (same ▸ member)
    rw [Function.update_of_ne other]
    exact holds.members id member
  · intro id initialised outside
    by_cases same : id = timer
    · subst same
      simp [timerInit, modify]
    · rw [Function.update_of_ne same] at initialised
      rw [elsewhere id same]
      exact holds.idle id initialised outside

end TimerQueue

end Testjig.Timers
