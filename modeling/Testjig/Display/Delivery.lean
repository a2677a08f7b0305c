import Testjig.Display.Tm1651

namespace Testjig.Display

open Machine.Wire

def Acknowledged (sent : Transaction) : Prop := ∀ entry ∈ sent, entry.2 = true

/-- The bytes of a frame up to the first that is refused, or all of them when none is -/
structure Carries (frame : List (BitVec 8)) (sent : Transaction) : Prop where
  bytes : sent.map Prod.fst <+: frame
  whole : (Acknowledged sent ∧ sent.length = frame.length) ∨
    ∃ before last, sent = before ++ [(last, false)] ∧ Acknowledged before

def replies (chip : Chip) (count : Nat) : List Bool :=
  (List.range' chip.given count).map fun n => (chip.answers n).acknowledges

/-- These bytes and no others have been added to the open transaction, and DAT was still while CLK was high. -/
structure Sent (bus : Bus) (done sent : Transaction) (after : Bus) : Prop where
  clk : after.clk = true
  dat : after.dat = false
  opened : after.chip.current = some (done ++ sent, [])
  complete : after.chip.complete = bus.chip.complete
  moves : after.moves = bus.moves
  answers : after.chip.answers = bus.chip.answers
  given : after.chip.given = bus.chip.given + sent.length
  replied : sent.map Prod.snd = replies bus.chip sent.length

/-- The body of an attempt sends a frame as far as it is acknowledged, and fails when a byte is not. -/
def Writes (body : Bus → Bool × Bus) (frame : List (BitVec 8)) : Prop :=
  ∀ (bus : Bus) (done : Transaction), bus.clk = true → bus.chip.current = some (done, []) →
    ∃ sent, Carries frame sent ∧ ((body bus).1 = false ↔ Acknowledged sent) ∧ Sent bus done sent (body bus).2

/-- Both lines are high, and the chip waits for a start. -/
structure AtRest (bus : Bus) : Prop where
  clk : bus.clk = true
  dat : bus.dat = true
  closed : bus.chip.current = none
  idle : bus.chip.wants = false
  released : bus.chip.pulls = false

/-- These transactions are the attempts at a frame: one that is acknowledged ends them, else all tries are used. -/
structure Attempts (frame : List (BitVec 8)) (tries : Nat) (bus : Bus) (sents : List Transaction) (after : Bus) :
    Prop where
  rest : AtRest after
  complete : after.chip.complete = bus.chip.complete ++ sents
  moves : after.moves = bus.moves ++ (List.replicate sents.length [Edge.start, Edge.stop]).flatten
  carried : ∀ sent ∈ sents, Carries frame sent
  few : sents.length ≤ tries
  last : ∀ (i : Nat) (sent : Transaction), sents[i]? = some sent → Acknowledged sent → i + 1 = sents.length
  spent : (∀ sent ∈ sents, ¬ Acknowledged sent) → sents.length = tries
  replied : sents.flatten.map Prod.snd = replies bus.chip sents.flatten.length

section

variable {frame rest : List (BitVec 8)} {sent more done : Transaction} {bus middle after : Bus}

theorem replies_append {chip later : Chip} (m n : Nat) (same : later.answers = chip.answers)
    (given : later.given = chip.given + m) : replies chip (m + n) = replies chip m ++ replies later n := by
  rw [replies, replies, replies, same, given, ← List.map_append, List.range'_append_1]

theorem Sent.trans (first : Sent bus done sent middle) (second : Sent middle (done ++ sent) more after) :
    Sent bus done (sent ++ more) after where
  clk := second.clk
  dat := second.dat
  opened := by rw [second.opened, List.append_assoc]
  complete := second.complete.trans first.complete
  moves := second.moves.trans first.moves
  answers := second.answers.trans first.answers
  given := by
    rw [second.given, first.given, List.length_append]
    omega
  replied := by
    rw [List.map_append, first.replied, second.replied, List.length_append,
      replies_append _ _ first.answers first.given]

theorem Acknowledged.append (first : Acknowledged sent) (second : Acknowledged more) : Acknowledged (sent ++ more) := by
  intro entry member
  rcases List.mem_append.mp member with left | right
  · exact first entry left
  · exact second entry right

theorem not_acknowledged (before : Transaction) (last : BitVec 8) : ¬ Acknowledged (before ++ [(last, false)]) := by
  intro all
  exact Bool.false_ne_true (all (last, false) (by simp))

theorem Carries.cut (carried : Carries frame sent) (refused : ¬ Acknowledged sent) : Carries (frame ++ rest) sent where
  bytes := carried.bytes.trans (List.prefix_append frame rest)
  whole := by
    rcases carried.whole with ⟨all, _⟩ | ended
    · exact absurd all refused
    · exact Or.inr ended

theorem Carries.append (carried : Carries frame sent) (all : Acknowledged sent) (second : Carries rest more) :
    Carries (frame ++ rest) (sent ++ more) where
  bytes := by
    have same : sent.map Prod.fst = frame := by
      apply carried.bytes.eq_of_length
      rcases carried.whole with ⟨_, length⟩ | ⟨before, last, rfl, _⟩
      · rw [List.length_map, length]
      · exact absurd all (not_acknowledged before last)
    rw [List.map_append, same]
    exact (List.prefix_append_right_inj frame).mpr second.bytes
  whole := by
    rcases carried.whole with ⟨_, length⟩ | ⟨before, last, rfl, _⟩
    · rcases second.whole with ⟨others, rest⟩ | ⟨before, last, rfl, others⟩
      · exact Or.inl ⟨all.append others, by rw [List.length_append, List.length_append, length, rest]⟩
      · exact Or.inr ⟨sent ++ before, last, by rw [List.append_assoc], all.append others⟩
    · exact absurd all (not_acknowledged before last)

theorem writes_byte (x : BitVec 8) : Writes (tm1651Write x) [x] := by
  intro bus done high opened
  refine ⟨[(x, bus.chip.answer.acknowledges)], ⟨List.prefix_refl [x], ?_⟩, ?_, ?_⟩
  · cases acked : bus.chip.answer.acknowledges with
    | true => exact Or.inl ⟨by simp [Acknowledged], rfl⟩
    | false => exact Or.inr ⟨[], x, rfl, by simp [Acknowledged]⟩
  · rw [write_sends x high opened]
    simp [Acknowledged]
  · rw [write_sends x high opened]
    exact ⟨high, rfl, rfl, rfl, rfl, rfl, rfl, rfl⟩

theorem writes_orElse {first second : Bus → Bool × Bus} (one : Writes first frame) (two : Writes second rest) :
    Writes (orElse first second) (frame ++ rest) := by
  intro bus done high opened
  obtain ⟨sent, carried, failed, state⟩ := one bus done high opened
  cases fail : (first bus).1 with
  | true =>
    have refused : ¬ Acknowledged sent := by
      rw [← failed, fail]
      exact Bool.noConfusion
    have stopped : orElse first second bus = (true, (first bus).2) := by
      simp [orElse, fail]
    rw [stopped]
    exact ⟨sent, carried.cut refused, ⟨Bool.noConfusion, fun all => absurd all refused⟩, state⟩
  | false =>
    have all := failed.mp fail
    obtain ⟨more, next, unfinished, final⟩ := two (first bus).2 (done ++ sent) state.clk state.opened
    have continued : orElse first second bus = second (first bus).2 := by
      simp [orElse, fail]
    rw [continued]
    refine ⟨sent ++ more, carried.append all next, unfinished.trans ?_, state.trans final⟩
    exact ⟨all.append, fun both entry member => both entry (List.mem_append_right sent member)⟩

theorem attempt {body : Bus → Bool × Bus} (writes : Writes body frame) (resting : AtRest bus) :
    ∃ fail sent after, (∀ tries, tm1651Retry body (tries + 1) true bus = tm1651Retry body tries fail after) ∧
      Carries frame sent ∧ (fail = false ↔ Acknowledged sent) ∧ AtRest after ∧
      after.chip.complete = bus.chip.complete ++ [sent] ∧ after.moves = bus.moves ++ [.start, .stop] ∧
      after.chip.answers = bus.chip.answers ∧ after.chip.given = bus.chip.given + sent.length ∧
      sent.map Prod.snd = replies bus.chip sent.length := by
  have opened := start_opens resting.clk resting.dat resting.closed resting.idle resting.released
  have chip : (tm1651Start bus).chip = { bus.chip with current := some ([], []) } := congrArg Bus.chip opened
  obtain ⟨sent, carried, failed, state⟩ := writes (tm1651Start bus) [] ((congrArg Bus.clk opened).trans resting.clk)
    (congrArg Chip.current chip)
  have complete := state.complete.trans (congrArg Chip.complete chip)
  have moves := state.moves.trans (congrArg Bus.moves opened)
  have answers := state.answers.trans (congrArg Chip.answers chip)
  have given := state.given
  have replied := state.replied
  rw [chip] at given replied
  refine ⟨(body (tm1651Start bus)).1, sent, tm1651Stop (body (tm1651Start bus)).2, fun _ => rfl, carried, failed, ?_⟩
  rw [stop_closes state.clk state.dat state.opened]
  refine ⟨⟨state.clk, rfl, rfl, rfl, rfl⟩, congrArg (· ++ [sent]) complete, ?_, answers, given, replied⟩
  dsimp only
  rw [moves, List.append_assoc]
  rfl

theorem retry_stops (body : Bus → Bool × Bus) (tries : Nat) (bus : Bus) :
    tm1651Retry body tries false bus = (false, bus) := by
  cases tries <;> rfl

theorem retry_attempts {body : Bus → Bool × Bus} (writes : Writes body frame) (tries : Nat) (resting : AtRest bus) :
    ∃ sents, Attempts frame tries bus sents (tm1651Retry body tries true bus).2 ∧
      ((tm1651Retry body tries true bus).1 = false ↔ ∃ sent ∈ sents, Acknowledged sent) := by
  induction tries generalizing bus with
  | zero =>
    refine ⟨[], ⟨resting, ?_, ?_, ?_, Nat.le_refl 0, ?_, ?_, rfl⟩, by simp [tm1651Retry]⟩
    · exact (List.append_nil _).symm
    · exact (List.append_nil _).symm
    · intro sent member
      cases member
    · intro i sent found
      cases found
    · intro _
      rfl
  | succ tries ih =>
    obtain ⟨fail, sent, middle, turn, carried, failed, again, complete, moves, answers, given, replied⟩ :=
      attempt writes resting
    rw [turn]
    cases fail with
    | false =>
      have all := failed.mp rfl
      rw [retry_stops]
      refine ⟨[sent], ⟨again, complete, moves, ?_, ?_, ?_, ?_, ?_⟩, by simp [all]⟩
      · intro other member
        rw [List.mem_singleton.mp member]
        exact carried
      · exact Nat.le_add_left 1 tries
      · intro i other found _
        have bound := (List.getElem?_eq_some_iff.mp found).1
        dsimp only [List.length_singleton] at bound ⊢
        omega
      · intro none
        exact absurd all (none sent (List.mem_singleton_self sent))
      · rw [List.flatten_singleton]
        exact replied
    | true =>
      have refused : ¬ Acknowledged sent := by
        rw [← failed]
        exact Bool.noConfusion
      obtain ⟨sents, later, ended⟩ := ih again
      refine ⟨sent :: sents, ⟨later.rest, ?_, ?_, ?_, ?_, ?_, ?_, ?_⟩, by simp [ended, refused]⟩
      · rw [later.complete, complete, List.append_assoc]
        rfl
      · rw [later.moves, moves, List.append_assoc]
        rfl
      · intro other member
        rcases List.mem_cons.mp member with rfl | member
        · exact carried
        · exact later.carried other member
      · exact Nat.succ_le_succ later.few
      · intro i other found all
        cases i with
        | zero =>
          cases found
          exact absurd all refused
        | succ i => exact congrArg Nat.succ (later.last i other found all)
      · intro none
        exact congrArg Nat.succ (later.spent fun other member => none other (List.mem_cons_of_mem sent member))
      · rw [List.flatten_cons, List.map_append, replied, later.replied, List.length_append,
          replies_append _ _ answers given]

end

section

variable {x : BitVec 8} {bus after : Bus} {sents : List Transaction}

theorem Carries.single {sent : Transaction} (carried : Carries [x] sent) : ∃ acked, sent = [(x, acked)] := by
  have bound := carried.bytes.length_le
  rw [List.length_map] at bound
  have one : sent.length = 1 := by
    rcases carried.whole with ⟨_, length⟩ | ⟨before, last, rfl, _⟩
    · exact length
    · rw [List.length_append] at bound ⊢
      dsimp only [List.length_singleton] at bound ⊢
      omega
  obtain ⟨entry, rfl⟩ := List.length_eq_one_iff.mp one
  have same := carried.bytes.eq_of_length rfl
  exact ⟨entry.2, congrArg (fun byte => [(byte, entry.2)]) (List.singleton_inj.mp same)⟩

theorem singles (carried : ∀ sent ∈ sents, Carries [x] sent) :
    ∃ acks : List Bool, sents = acks.map fun acked => [(x, acked)] := by
  induction sents with
  | nil => exact ⟨[], rfl⟩
  | cons sent sents ih =>
    obtain ⟨acked, rfl⟩ := (carried sent (List.mem_cons_self ..)).single
    obtain ⟨acks, rfl⟩ := ih fun other member => carried other (List.mem_cons_of_mem _ member)
    exact ⟨acked :: acks, rfl⟩

theorem singles_flatten (x : BitVec 8) (acks : List Bool) :
    (acks.map fun acked => [(x, acked)]).flatten.map Prod.snd = acks := by
  induction acks with
  | nil => rfl
  | cons acked acks ih => exact congrArg (acked :: ·) ih

/-- An attempt at a one-byte command is acknowledged when one of the chip's next answers does so. -/
theorem Attempts.answered {tries : Nat} (attempts : Attempts [x] tries bus sents after) :
    (∃ sent ∈ sents, Acknowledged sent) ↔ ∃ n < tries, (bus.chip.answers (bus.chip.given + n)).acknowledges = true := by
  obtain ⟨acks, rfl⟩ := singles attempts.carried
  have count : (acks.map fun acked => [(x, acked)]).length = acks.length := List.length_map _
  have total : (acks.map fun acked => [(x, acked)]).flatten.length = acks.length := by
    rw [← List.length_map Prod.snd, singles_flatten]
  have listed := attempts.replied
  rw [singles_flatten, total] at listed
  have member : (∃ sent ∈ acks.map fun acked => [(x, acked)], Acknowledged sent) ↔ true ∈ acks := by
    constructor
    · rintro ⟨sent, listed, all⟩
      obtain ⟨acked, inside, rfl⟩ := List.mem_map.mp listed
      have taken : acked = true := all (x, acked) (List.mem_singleton_self _)
      rw [← taken]
      exact inside
    · intro inside
      exact ⟨[(x, true)], List.mem_map.mpr ⟨true, inside, rfl⟩, by simp [Acknowledged]⟩
  have answered : true ∈ acks ↔ ∃ n < acks.length, (bus.chip.answers (bus.chip.given + n)).acknowledges = true := by
    constructor
    · intro acked
      rw [listed, replies, List.mem_map] at acked
      obtain ⟨index, inside, answer⟩ := acked
      rw [List.mem_range'_1] at inside
      exact ⟨index - bus.chip.given, by omega, by rw [Nat.add_sub_cancel' inside.1, answer]⟩
    · rintro ⟨n, bound, answer⟩
      rw [listed, replies, List.mem_map]
      exact ⟨bus.chip.given + n, by rw [List.mem_range'_1]; omega, answer⟩
  have few := attempts.few
  rw [count] at few
  constructor
  · intro found
    obtain ⟨n, bound, answer⟩ := answered.mp (member.mp found)
    exact ⟨n, Nat.lt_of_lt_of_le bound few, answer⟩
  · rintro ⟨n, bound, answer⟩
    by_contra none
    have spent := attempts.spent fun sent listed all => none ⟨sent, listed, all⟩
    rw [count] at spent
    exact none (member.mpr (answered.mpr ⟨n, by omega, answer⟩))

/-- `tm1651_init()` finds the display when one of the first three answers is an acknowledgement. -/
theorem init_detects (closed : bus.chip.current = none) (idle : bus.chip.wants = false)
    (released : bus.chip.pulls = false) :
    (tm1651Init bus).1 = false ↔ ∃ n < 3, (bus.chip.answers (bus.chip.given + n)).acknowledges = true := by
  have data := setDat_release closed released
  have closed : (bus.setDat true).chip.current = none := by
    rw [data.2, closed]
  have clock := setClk_release closed
  have chip : (tm1651SetClk true (tm1651SetDat true bus)).chip = bus.chip := clock.2.2.trans data.2
  have resting : AtRest (tm1651SetClk true (tm1651SetDat true bus)) :=
    ⟨clock.1, clock.2.1.trans data.1, (congrArg Chip.current clock.2.2).trans closed, by rw [chip, idle],
      by rw [chip, released]⟩
  obtain ⟨sents, attempts, ended⟩ := retry_attempts (writes_byte 0x40) 3 resting
  have answered := attempts.answered
  rw [chip] at answered
  exact ended.trans answered

end

/-- What the chip has seen by the end of a command that started with both lines high -/
structure Delivered (frame : List (BitVec 8)) (answers : Nat → Answer) (after : Bus) : Prop where
  count : 1 ≤ after.chip.complete.length ∧ after.chip.complete.length ≤ 3
  carried : ∀ sent ∈ after.chip.complete, Carries frame sent
  replied : after.chip.complete.flatten.map Prod.snd =
    (List.range after.chip.complete.flatten.length).map fun n => (answers n).acknowledges
  last : ∀ (i : Nat) (sent : Transaction), after.chip.complete[i]? = some sent → Acknowledged sent →
    i + 1 = after.chip.complete.length
  spent : (∀ sent ∈ after.chip.complete, ¬ Acknowledged sent) → after.chip.complete.length = 3
  closed : after.chip.current = none
  moves : after.moves = (List.replicate after.chip.complete.length [Edge.start, Edge.stop]).flatten
  high : after.lines = ⟨true, true⟩

theorem retry_delivers {body : Bus → Bool × Bus} {frame : List (BitVec 8)} (writes : Writes body frame)
    (answers : Nat → Answer) : Delivered frame answers (tm1651Retry body 3 true (.resting answers)).2 := by
  have resting : AtRest (.resting answers) := ⟨rfl, rfl, rfl, rfl, rfl⟩
  obtain ⟨sents, attempts, _⟩ := retry_attempts writes 3 resting
  have complete : (tm1651Retry body 3 true (.resting answers)).2.chip.complete = sents := attempts.complete
  have replied : sents.flatten.map Prod.snd =
      (List.range sents.flatten.length).map fun n => (answers n).acknowledges := by
    rw [List.range_eq_range']
    exact attempts.replied
  subst complete
  refine ⟨⟨?_, attempts.few⟩, attempts.carried, replied, attempts.last, attempts.spent, attempts.rest.closed,
    attempts.moves, ?_⟩
  · by_contra none
    have empty := List.eq_nil_of_length_eq_zero (Nat.lt_one_iff.mp (Nat.not_le.mp none))
    have three := attempts.spent (by simp [empty])
    rw [empty] at three
    cases three
  · rw [Bus.lines, attempts.rest.clk, attempts.rest.dat, attempts.rest.released]
    rfl

/-- The display receives a command up to its first refused byte, in at most three attempts. -/
theorem tm1651_delivers (answers : Nat → Answer) :
    (∀ d : Fin 3 → BitVec 8,
      Delivered [0xc0, d 0, d 1, d 2, 0x00] answers (tm1651UpdateDisplay d (.resting answers))) ∧
    ∀ cmd : BitVec 8, Delivered [cmd] answers (tm1651SendCmd cmd (.resting answers)).2 := by
  constructor
  · intro d
    apply retry_delivers
    exact writes_orElse (writes_byte _) (writes_orElse (writes_byte _) (writes_orElse (writes_byte _)
      (writes_orElse (writes_byte _) (writes_byte _))))
  · intro cmd
    exact retry_delivers (writes_byte cmd) answers

end Testjig.Display
