import Testjig.Serial.Ring

namespace Testjig.Serial

open Machine Testjig.Sequence

/-- Nothing but CR follows the character that fills the last byte of the ring, wherever that is. -/
def Fits (occupancy : Nat) (text : List Byte) : Prop :=
  (occupancy = ringSize → ∀ c ∈ text, c = cr) ∧
    ∀ before after, text = before ++ lf :: after → occupancy + (expand before).length = ringSize - 2 →
      ∀ c ∈ after, c = cr

theorem fits_nil (occupancy : Nat) : Fits occupancy [] := by
  constructor
  · simp
  · intro before after split
    simp at split

theorem fits_stopped (text : List Byte) : Fits (ringSize - 1) text := by
  constructor
  · intro full
    cases full
  · intro before after split filled
    rw [ringSize] at filled
    omega

theorem fits_over {c : Byte} (shows : c ≠ cr) (rest : List Byte) : ¬ Fits ringSize (c :: rest) :=
  fun fits => shows (fits.1 rfl c (List.mem_cons_self ..))

/-- The split of a text at an LF, its first character taken off -/
theorem fits_cons {occupancy : Nat} {c : Byte} {rest : List Byte} (room : occupancy ≤ ringSize - 2) :
    Fits occupancy (c :: rest) ↔ Fits (occupancy + (expandChar c).length) rest := by
  have size : ringSize = 2048 := rfl
  have width : (expandChar c).length = 2 ∧ c = lf ∨ (expandChar c).length ≤ 1 ∧ c ≠ lf := by
    rw [expandChar]
    split
    · rename_i isCr
      right
      exact ⟨Nat.zero_le _, by rw [isCr]; decide⟩
    · split
      · rename_i isLf
        exact .inl ⟨rfl, isLf⟩
      · rename_i notLf
        exact .inr ⟨Nat.le_refl _, notLf⟩
  constructor
  · rintro ⟨-, later⟩
    constructor
    · intro full
      obtain ⟨-, isLf⟩ : (expandChar c).length = 2 ∧ c = lf := by
        rcases width with two | one
        · exact two
        · omega
      apply later [] rest (by rw [isLf]; rfl)
      simp only [expand, List.flatMap_nil, List.length_nil]
      omega
    · intro before after split filled
      apply later (c :: before) after (by rw [split]; rfl)
      simp only [expand, List.flatMap_cons, List.length_append] at filled ⊢
      omega
  · rintro ⟨full, later⟩
    constructor
    · intro already
      omega
    · intro before after split filled
      cases before with
      | nil =>
        cases split
        apply full
        simp only [expand, List.flatMap_nil, List.length_nil] at filled
        have two : (expandChar lf).length = 2 := rfl
        omega
      | cons first before =>
        cases split
        apply later before after rfl
        simp only [expand, List.flatMap_cons, List.length_append] at filled ⊢
        omega

namespace Console

variable {s : Console} {read sent : Nat}

theorem not_full_iff (s : Console) :
    s.prod - s.cons ≠ BitVec.ofNat 32 (ringSize - 1) ↔ s.occupancy ≠ ringSize - 1 := by
  apply not_congr
  constructor
  · intro same
    rw [occupancy, same]
    rfl
  · intro same
    apply BitVec.eq_of_toNat_eq
    exact same

theorem stageChar_fits (holds : s.Holds read) (room : s.occupancy ≤ ringSize - 2) (c : Byte) :
    (s.stageChar c).Holds read := by
  have size : ringSize = 2048 := rfl
  have sound : ∀ {t : Console} (d : Byte), t.Holds read → t.occupancy < ringSize → (t.put d).overrun = false := by
    intro t d before free
    rw [before.overrun_put, decide_eq_false_iff_not]
    omega
  apply (stageChar_holds holds _).1
  rw [stageChar]
  split
  · exact holds.sound
  · split
    · obtain ⟨half, one⟩ := holds.put (sound cr holds (by omega))
      exact sound lf half (by omega)
    · exact sound c holds (by omega)

theorem stage_fits (text : List Byte) (holds : s.Holds read) :
    (stage text s).overrun = false ↔ Fits s.occupancy text := by
  have size : ringSize = 2048 := rfl
  induction text generalizing s with
  | nil => simp [stage, holds.sound, fits_nil]
  | cons c rest ih =>
    rw [stage]
    by_cases stopped : s.occupancy = ringSize - 1
    · rw [if_neg (by rw [not_full_iff]; simp [stopped]), stopped]
      simp [holds.sound, fits_stopped]
    · rw [if_pos ((not_full_iff s).mpr stopped)]
      have bound := holds.occupancy_le
      by_cases room : s.occupancy ≤ ringSize - 2
      · have next := stageChar_fits holds room c
        rw [fits_cons room, ← (stageChar_holds holds next.sound).2]
        exact ih next
      -- At 2047 the loop stops; at 2048 it goes on, and anything but a CR is one too many.
      · have full : s.occupancy = ringSize := by omega
        by_cases isCr : c = cr
        · have same : s.stageChar c = s := by simp [stageChar, isCr]
          rw [same]
          apply (ih holds).trans
          rw [full, Fits, Fits]
          simp only [List.mem_cons, forall_eq_or_imp, isCr, true_and]
          apply and_congr_right
          intro _
          constructor
          · intro _ before after split filled
            omega
          · intro _ before after split filled
            omega
        · have spilt : (s.stageChar c).overrun = true := by
            have spill : ∀ d, (s.put d).overrun = true := by
              intro d
              rw [holds.overrun_put, decide_eq_true_iff]
              exact full
            rw [stageChar, if_neg isCr]
            split
            · exact put_overrun (spill cr) lf
            · exact spill c
          rw [full, stage_overrun rest spilt]
          simp [fits_over isCr rest]

/-- Where a `flush_ring_to_serial()` is: nothing that was accepted is left without one, or a request for one. -/
def Tracks (s : Console) (read sent : Nat) : Prop :=
  match s.flush with
  | none => sent = read ∧ (s.cons ≠ s.prod → s.pending = true)
  | some flush => ∃ stop, flush = ⟨BitVec.ofNat 32 sent, BitVec.ofNat 32 stop⟩ ∧ read ≤ sent ∧ sent ≤ stop ∧
      stop ≤ s.accepted.length ∧ (stop ≠ s.accepted.length → s.pending = true)

theorem vprintk_async (s : Console) (text : List Byte) (async : s.syncConsole = false) :
    ∃ pending, s.vprintk text = { stage (shown text) s with pending } ∧
      ((stage (shown text) s).cons ≠ (stage (shown text) s).prod → pending = true) := by
  have same := (stage_frame (shown text) s).2.2.2.2
  have off : ¬ (stage (shown text) s).syncConsole = true := by simp [same, async]
  rw [vprintk, kickTx, if_neg off]
  split
  · exact ⟨true, rfl, fun _ => rfl⟩
  · rename_i empty
    exact ⟨(stage (shown text) s).pending, rfl, fun more => absurd more empty⟩

theorem vprintk_tracks {text : List Byte} (holds : s.Holds read) (tracks : s.Tracks read sent)
    (async : s.syncConsole = false) (sound : (s.vprintk text).overrun = false) :
    (s.vprintk text).Holds read ∧ (s.vprintk text).Tracks read sent := by
  obtain ⟨pending, printed, kicked⟩ := s.vprintk_async text async
  rw [printed] at sound ⊢
  have staged := stage_holds holds sound
  constructor
  · exact staged.same rfl rfl rfl rfl rfl
  · obtain ⟨-, flush, -, -, -⟩ := stage_frame (shown text) s
    obtain ⟨kept, -, -, accepted, -⟩ := stage_accepted (shown text) s
    simp only [Tracks, flush] at tracks ⊢
    split at tracks
    · exact ⟨tracks.1, kicked⟩
    · obtain ⟨stop, same, low, high, bound, -⟩ := tracks
      have longer : s.accepted.length ≤ (stage (shown text) s).accepted.length := by
        rw [accepted, List.length_append]
        omega
      refine ⟨stop, same, low, high, Nat.le_trans bound longer, ?_⟩
      intro more
      apply kicked
      intro empty
      have all := staged.read_eq empty
      omega

theorem flushRingToSerial_holds (holds : s.Holds read) : s.flushRingToSerial.Holds s.accepted.length := by
  apply holds.consume holds.order (Nat.le_refl _) <;> first | rfl | exact holds.prod

theorem flushRingToSerial_written (holds : s.Holds read) :
    s.flushRingToSerial.written = s.written ++ s.accepted.drop read := by
  have count := holds.occupancy_eq
  have order := holds.order
  rw [occupancy] at count
  rw [flushRingToSerial, count, holds.cons, holds.transmit_eq (Nat.le_refl read) (by omega)]
  rw [← List.length_drop, List.take_length]

theorem fits_resetting : Fits 0 resetting := by
  constructor
  · intro full
    cases full
  · intro before after split filled
    have short : (expand before).length ≤ (expand resetting).length := by
      rw [split, expand, expand, List.flatMap_append, List.length_append]
      omega
    have size : (expand resetting).length = 14 := rfl
    rw [ringSize] at filled
    omega

/-- A text that leaves room in the ring is accepted whole. -/
theorem stage_whole {text : List Byte} (holds : s.Holds read) (sound : (stage text s).overrun = false)
    (room : s.occupancy + (expand text).length < ringSize - 1) :
    (stage text s).accepted = s.accepted ++ expand text := by
  obtain ⟨kept, dropped, split, accepted, full⟩ := stage_accepted text s
  by_cases whole : dropped = []
  · subst whole
    rw [accepted, split, List.append_nil]
  · have stopped := full whole
    have order := holds.order
    rw [(stage_holds holds sound).occupancy_eq, accepted, List.length_append] at stopped
    rw [holds.occupancy_eq, split, expand, List.flatMap_append, List.length_append] at room
    rw [expand] at stopped
    omega

/-- `system_reset()` sends what is in the ring, and its message after it. -/
theorem systemReset_holds (holds : s.Holds read) (async : s.syncConsole = false) :
    s.systemReset.Holds s.systemReset.accepted.length ∧ s.systemReset.flush = none ∧
      s.systemReset.syncConsole = true ∧ s.systemReset.accepted = s.accepted ++ expand resetting ∧
      s.systemReset.written = s.written ++ s.accepted.drop read ++ expand resetting := by
  have synced : s.consoleSync = { s with syncConsole := true }.flushRingToSerial := by
    rw [consoleSync, async]
    rfl
  have first : { s with syncConsole := true }.Holds read := holds.same rfl rfl rfl rfl rfl
  let quiet : Console := { s.consoleSync with flush := none }
  have empty : quiet.Holds s.accepted.length := by
    apply (flushRingToSerial_holds first).same <;> simp only [quiet, synced]
  have drained : quiet.occupancy = 0 := by
    rw [empty.occupancy_eq]
    simp only [quiet, synced, flushRingToSerial, Nat.sub_self]
  have sound : (stage resetting quiet).overrun = false := by
    rw [stage_fits resetting empty, drained]
    exact fits_resetting
  have message : shown resetting = resetting := by decide
  have staged := stage_holds empty sound
  obtain ⟨-, flush, -, written, sync⟩ := stage_frame resetting quiet
  have on : (stage resetting quiet).syncConsole = true := by
    rw [sync]
    simp only [quiet, synced, flushRingToSerial]
  have result : s.systemReset = (stage resetting quiet).flushRingToSerial := by
    change ((stage (shown resetting) quiet).kickTx) = _
    rw [message, kickTx, if_pos on]
  have accepted : (stage resetting quiet).accepted = s.accepted ++ expand resetting := by
    have whole := stage_whole empty sound (by rw [drained]; decide)
    rw [whole]
    simp only [quiet, synced, flushRingToSerial]
  rw [result]
  refine ⟨flushRingToSerial_holds staged, flush, on, accepted, ?_⟩
  rw [flushRingToSerial_written staged, accepted, List.drop_left, written]
  congr 1
  simp only [quiet, synced]
  exact flushRingToSerial_written first

theorem kickTx_overrun (s : Console) : s.kickTx.overrun = s.overrun := by
  rw [kickTx]
  split
  · rfl
  · split <;> rfl

theorem vprintk_overrun (overrun : s.overrun = true) (text : List Byte) : (s.vprintk text).overrun = true := by
  rw [vprintk, kickTx_overrun]
  exact stage_overrun _ overrun

theorem systemReset_overrun (overrun : s.overrun = true) : s.systemReset.overrun = true := by
  apply vprintk_overrun
  rw [consoleSync]
  split
  · exact overrun
  · exact (kickTx_overrun _).trans overrun

/-- A ring that was overrun is never whole again. -/
theorem step_overrun {input : ConsoleInput} {next : Console} (taken : step input s = .ok next)
    (overrun : s.overrun = true) : next.overrun = true := by
  unfold step at taken
  split at taken
  · cases taken
  · cases input with
    | vprintk text =>
      cases taken
      exact vprintk_overrun overrun text
    | softirqConsole =>
      simp only at taken
      split at taken <;> cases taken
      exact overrun
    | sendByte =>
      simp only at taken
      split at taken
      · split at taken <;> cases taken
        exact overrun
      · cases taken
    | publish =>
      simp only at taken
      split at taken
      · split at taken <;> cases taken
        exact overrun
      · cases taken
    | systemReset =>
      cases taken
      exact systemReset_overrun overrun

/-- The counters of a console, those of a flush under way, and what both have sent -/
structure Ordered (s : Console) (read sent : Nat) : Prop where
  holds : s.Holds read
  tracks : s.Tracks read sent

theorem Ordered.sent_le (ordered : s.Ordered read sent) : read ≤ sent ∧ sent ≤ s.accepted.length := by
  have tracks := ordered.tracks
  have order := ordered.holds.order
  rw [Tracks] at tracks
  split at tracks
  · omega
  · obtain ⟨stop, -, low, high, bound, -⟩ := tracks
    omega

theorem ofNat_inj {i j : Nat} (order : i ≤ j) (near : j < i + 2^32)
    (same : BitVec.ofNat 32 i = BitVec.ofNat 32 j) : i = j := by
  have apart := apart_ofNat order near
  rw [same, BitVec.sub_self] at apart
  change 0 = _ at apart
  omega

/-- One step, other than a reset, of a console that is not overrun -/
theorem step_ordered {input : ConsoleInput} {next : Console} (taken : step input s = .ok next)
    (notReset : input ≠ .systemReset) (ordered : s.Ordered read sent) (sound : next.overrun = false) :
    ∃ read' sent', next.Ordered read' sent' ∧
      (s.written = s.accepted.take sent → next.written = next.accepted.take sent') := by
  obtain ⟨order, bound⟩ := ordered.sent_le
  obtain ⟨holds, tracks⟩ := ordered
  unfold step at taken
  split at taken
  case isTrue => cases taken
  case isFalse async =>
  cases input with
  | vprintk text =>
    cases taken
    obtain ⟨holds', tracks'⟩ := vprintk_tracks holds tracks (by simpa using async) sound
    refine ⟨read, sent, ⟨holds', tracks'⟩, ?_⟩
    intro exact'
    obtain ⟨pending, printed, -⟩ := s.vprintk_async text (by simpa using async)
    obtain ⟨kept, -, -, accepted, -⟩ := stage_accepted (shown text) s
    rw [printed]
    change (stage (shown text) s).written = (stage (shown text) s).accepted.take sent
    rw [(stage_frame (shown text) s).2.2.2.1, accepted, exact', List.take_append_of_le_length bound]
  | softirqConsole =>
    simp only at taken
    split at taken <;> cases taken
    rename_i idle
    rw [Tracks, idle] at tracks
    obtain ⟨rfl, -⟩ := tracks
    refine ⟨sent, sent, ⟨holds.same rfl rfl rfl rfl rfl, ?_⟩, fun exact' => exact'⟩
    refine ⟨s.accepted.length, ?_, Nat.le_refl _, bound, Nat.le_refl _, fun more => absurd rfl more⟩
    rw [holds.cons, holds.prod]
  | sendByte =>
    simp only at taken
    split at taken
    · rename_i c p busy
      rw [Tracks, busy] at tracks
      obtain ⟨stop, same, low, high, within, kicked⟩ := tracks
      cases same
      split at taken <;> cases taken
      rename_i more
      have before : sent ≠ stop := by
        rintro rfl
        exact more rfl
      have inside : sent < s.accepted.length := by omega
      refine ⟨read, sent + 1, ⟨holds.same rfl rfl rfl rfl rfl, ?_⟩, ?_⟩
      · refine ⟨stop, ?_, by omega, by omega, within, kicked⟩
        rw [BitVec.ofNat_add]
        rfl
      · intro exact'
        have byte := holds.held sent inside low
        simp only [mask_ofNat, byte, exact']
        exact List.take_append_getElem inside
    · cases taken
  | publish =>
    simp only at taken
    split at taken
    · rename_i c p busy
      rw [Tracks, busy] at tracks
      obtain ⟨stop, same, low, high, within, kicked⟩ := tracks
      cases same
      split at taken <;> cases taken
      rename_i done
      have room := holds.room
      rw [ringSize] at room
      -- The counters agree modulo 2^32, and what is under way is less than that.
      have all : sent = stop := ofNat_inj high (by omega) done
      subst all
      refine ⟨sent, sent, ⟨holds.consume low within rfl rfl rfl rfl rfl, rfl, ?_⟩, fun exact' => exact'⟩
      intro more
      apply kicked
      rintro rfl
      exact more holds.prod.symm
    · cases taken
  | systemReset => exact absurd rfl notReset

theorem systemReset_ordered (holds : s.Holds read) (async : s.syncConsole = false) :
    s.systemReset.Ordered s.systemReset.accepted.length s.systemReset.accepted.length := by
  obtain ⟨holds', idle, -, -, -⟩ := systemReset_holds holds async
  constructor
  · exact holds'
  · rw [Tracks, idle]
    refine ⟨rfl, ?_⟩
    intro more
    rw [holds'.cons, holds'.prod] at more
    exact absurd rfl more

end Console

theorem boot_ordered : boot.Ordered 0 0 where
  holds :=
    { sound := rfl
      prod := rfl
      cons := rfl
      order := Nat.le_refl 0
      room := by decide
      held := held_nil _ _ _ }
  tracks := ⟨rfl, fun more => absurd rfl more⟩

def Sound (s : Console) : Prop := s.overrun = false → ∃ read sent, s.Ordered read sent

theorem step_sound (input : ConsoleInput) (s next : Console) (sound : Sound s) (taken : step input s = .ok next) :
    Sound next := by
  intro whole
  have before : s.overrun = false := by
    rw [← Bool.not_eq_true] at whole ⊢
    exact fun overrun => whole (Console.step_overrun taken overrun)
  obtain ⟨read, sent, ordered⟩ := sound before
  by_cases reset : input = .systemReset
  · subst reset
    unfold step at taken
    split at taken
    · cases taken
    · rename_i async
      cases taken
      exact ⟨_, _, Console.systemReset_ordered ordered.holds (by simpa using async)⟩
  · obtain ⟨read', sent', later, -⟩ := Console.step_ordered taken reset ordered whole
    exact ⟨read', sent', later⟩

/-- The ring holds every byte that was accepted and not yet taken out, and no write has ever covered one. -/
def Intact (s : Console) : Prop :=
  s.overrun = false ∧ s.occupancy ≤ ringSize ∧
    transmit s.ring s.cons s.occupancy = s.accepted.drop (s.accepted.length - s.occupancy)

theorem Console.Holds.intact {s : Console} {read : Nat} (holds : s.Holds read) : Intact s := by
  have count := holds.occupancy_eq
  have order := holds.order
  refine ⟨holds.sound, holds.occupancy_le, ?_⟩
  have first : s.accepted.length - s.occupancy = read := by omega
  rw [holds.cons, holds.transmit_eq (Nat.le_refl read) (by omega), first, count, ← List.length_drop, List.take_length]

theorem visits_sound {inputs : List ConsoleInput} {s : Console} (visits : Visits step inputs boot s) : Sound s := by
  apply visits_invariant _ _ visits
  · intro input before after _ sound taken
    exact step_sound input before after sound taken
  · intro _
    exact ⟨0, 0, boot_ordered⟩

theorem vprintk_taken {text : List Byte} {s next : Console} (taken : step (.vprintk text) s = .ok next) :
    s.syncConsole = false ∧ next = s.vprintk text := by
  unfold step at taken
  split at taken <;> cases taken
  rename_i async
  exact ⟨by simpa using async, rfl⟩

theorem Console.kickTx_accepted (s : Console) : s.kickTx.accepted = s.accepted := by
  rw [kickTx]
  split
  · rfl
  · split <;> rfl

theorem Console.vprintk_fits {s : Console} {read : Nat} (holds : s.Holds read)
    (text : List Byte) : (s.vprintk text).overrun = false ↔ Fits s.occupancy (shown text) := by
  rw [vprintk, kickTx_overrun]
  exact stage_fits (shown text) holds

/-- Only a text that does not fit overruns the ring. -/
theorem step_whole {input : ConsoleInput} {s next : Console} {read : Nat} (holds : s.Holds read)
    (taken : step input s = .ok next) (fits : ∀ text, input = .vprintk text → Fits s.occupancy (shown text)) :
    next.overrun = false := by
  have sound := holds.sound
  unfold step at taken
  split at taken
  case isTrue => cases taken
  case isFalse async =>
  have off : s.syncConsole = false := by simpa using async
  cases input with
  | vprintk text =>
    cases taken
    exact (Console.vprintk_fits holds text).mpr (fits text rfl)
  | softirqConsole =>
    simp only at taken
    split at taken <;> cases taken
    exact sound
  | sendByte =>
    simp only at taken
    split at taken
    · split at taken <;> cases taken
      exact sound
    · cases taken
  | publish =>
    simp only at taken
    split at taken
    · split at taken <;> cases taken
      exact sound
    · cases taken
  | systemReset =>
    cases taken
    exact (Console.systemReset_holds holds off).1.sound

/-- The ring is never overrun exactly when every text fits, and what is dropped of a text is its tail. -/
theorem ring_intact_iff (inputs : List ConsoleInput) (final : Console) (run : exec step inputs boot = .ok final) :
    ((∀ s, Visits step inputs boot s → Intact s) ↔
      ∀ text s, Takes step inputs boot (.vprintk text) s → Fits s.occupancy (shown text)) ∧
    ∀ text s, Takes step inputs boot (.vprintk text) s →
      ∃ kept dropped, shown text = kept ++ dropped ∧ (s.vprintk text).accepted = s.accepted ++ expand kept ∧
        (dropped ≠ [] → (s.stage (shown text)).occupancy = ringSize - 1) := by
  refine ⟨⟨?_, ?_⟩, ?_⟩
  · intro intact text s takes
    obtain ⟨next, taken⟩ := takes.taken run
    have async := vprintk_taken taken
    have before := takes.visits_before
    obtain ⟨read, sent, ordered⟩ := visits_sound before (intact s before).1
    have after := (intact next (takes.visits taken)).1
    rw [async.2] at after
    exact (Console.vprintk_fits ordered.holds text).mp after
  · intro fits s visits
    have ordered : ∃ read sent, s.Ordered read sent := by
      apply visits_invariant _ ⟨0, 0, boot_ordered⟩ visits
      rintro input before after takes ⟨read, sent, ordered⟩ taken
      apply step_sound input before after (fun _ => ⟨read, sent, ordered⟩) taken
      exact step_whole ordered.holds taken fun text asked => fits text before (asked ▸ takes)
    obtain ⟨read, sent, ordered⟩ := ordered
    exact ordered.holds.intact
  · intro text s takes
    rw [Console.vprintk, Console.kickTx_accepted]
    exact Console.stage_accepted (shown text) s

theorem ring_intact_iff_line :
    ∃ final, exec step [.vprintk [0x61, lf], .softirqConsole, .sendByte] boot = .ok final ∧
      final.accepted = [0x61, cr, lf] ∧
      ((∀ s, Visits step [.vprintk [0x61, lf], .softirqConsole, .sendByte] boot s → Intact s) ↔
        ∀ text s, Takes step [.vprintk [0x61, lf], .softirqConsole, .sendByte] boot (.vprintk text) s →
          Fits s.occupancy (shown text)) := by
  obtain ⟨final, run, accepted⟩ := exists_of_succeedsWith (fun s : Console => decide (s.accepted = [0x61, cr, lf]))
    (exec step [.vprintk [0x61, lf], .softirqConsole, .sendByte] boot) (by decide +kernel)
  exact ⟨final, run, of_decide_eq_true accepted, (ring_intact_iff _ final run).1⟩

theorem Console.vprintk_room {s : Console} {read : Nat} (text : List Byte) (holds : s.Holds read)
    (async : s.syncConsole = false) (room : s.occupancy + (expand (shown text)).length < ringSize - 1) :
    (s.vprintk text).Holds read ∧ (s.vprintk text).syncConsole = false ∧
      (s.vprintk text).accepted = s.accepted ++ expand (shown text) := by
  obtain ⟨pending, printed, -⟩ := s.vprintk_async text async
  have fits : Fits s.occupancy (shown text) := by
    rw [ringSize] at room
    constructor
    · intro full
      rw [ringSize] at full
      omega
    · intro before after split filled
      have longer : (expand before).length + 2 ≤ (expand (shown text)).length := by
        rw [split, expand, expand, List.flatMap_append, List.flatMap_cons, List.length_append, List.length_append]
        have two : (expandChar lf).length = 2 := rfl
        omega
      rw [ringSize] at filled
      omega
  have sound := (stage_fits (shown text) holds).mpr fits
  rw [printed]
  refine ⟨(stage_holds holds sound).same rfl rfl rfl rfl rfl, ?_, stage_whole holds sound room⟩
  exact (stage_frame (shown text) s).2.2.2.2.trans async

def letters (count : Nat) : List Byte := List.replicate count 0x61

theorem length_letters (count : Nat) : (letters count).length = count := List.length_replicate

theorem letters_append (first second : Nat) : letters first ++ letters second = letters (first + second) :=
  List.replicate_append_replicate

theorem print_letters (calls : Nat) (bound : calls ≤ 16) :
    ∃ s, exec step (List.replicate calls (.vprintk (letters 127))) boot = .ok s ∧ s.Holds 0 ∧
      s.syncConsole = false ∧ s.accepted = letters (calls * 127) := by
  induction calls with
  | zero => exact ⟨boot, rfl, boot_ordered.holds, rfl, rfl⟩
  | succ calls ih =>
    obtain ⟨s, run, holds, async, accepted⟩ := ih (by omega)
    have text : expand (shown (letters 127)) = letters 127 := by decide
    have count := holds.occupancy_eq
    rw [accepted, length_letters] at count
    have room : s.occupancy + (expand (shown (letters 127))).length < ringSize - 1 := by
      rw [text, count, length_letters, ringSize]
      omega
    obtain ⟨holds', async', accepted'⟩ := Console.vprintk_room (letters 127) holds async room
    refine ⟨s.vprintk (letters 127), ?_, holds', async', ?_⟩
    · rw [List.replicate_succ', exec_append_ok]
      refine ⟨s, run, ?_⟩
      simp [exec, step, async]
    · rw [accepted', text, accepted, letters_append, Nat.succ_mul]

theorem vprintk_over {s : Console} (prod : s.prod = 2046) (cons : s.cons = 0) (async : s.syncConsole = false) :
    (s.vprintk [lf, 0x62]).occupancy = ringSize + 1 ∧ (s.vprintk [lf, 0x62]).cons = 0 ∧
      (s.vprintk [lf, 0x62]).ring 0 = 0x62 ∧ (s.vprintk [lf, 0x62]).accepted = s.accepted ++ [cr, lf, 0x62] := by
  have text : shown [lf, 0x62] = [lf, 0x62] := by decide
  have staged : s.stage [lf, 0x62] = ((s.put cr).put lf).put 0x62 := by
    simp [Console.stage, Console.stageChar, Console.put, prod, cons, ringSize, lf, cr]
  have spill : mask (s.prod + 1 + 1) = 0 := by
    rw [prod]
    decide
  obtain ⟨pending, printed, -⟩ := s.vprintk_async [lf, 0x62] async
  rw [printed, text, staged]
  refine ⟨?_, cons, ?_, ?_⟩
  · change (s.prod + 1 + 1 + 1 - s.cons).toNat = _
    rw [prod, cons]
    decide
  · change Function.update _ (mask (s.prod + 1 + 1)) 0x62 0 = _
    rw [spill, Function.update_self]
  · simp [Console.put]

/-- An LF into the last two bytes but one goes past the test for a full ring, and the next byte goes over the first. -/
theorem ring_overrun :
    ∃ s, exec step (List.replicate 16 (.vprintk (letters 127)) ++ [.vprintk (letters 14), .vprintk [lf, 0x62]]) boot =
        .ok s ∧
      s.occupancy = ringSize + 1 ∧ s.cons = 0 ∧ s.accepted[0]? = some 0x61 ∧ s.ring (mask s.cons) = 0x62 := by
  obtain ⟨s, run, holds, async, accepted⟩ := print_letters 16 (Nat.le_refl 16)
  have text : expand (shown (letters 14)) = letters 14 := by decide
  have count := holds.occupancy_eq
  rw [accepted, length_letters] at count
  have room : s.occupancy + (expand (shown (letters 14))).length < ringSize - 1 := by
    rw [text, count, length_letters, ringSize]
    omega
  obtain ⟨holds', async', accepted'⟩ := Console.vprintk_room (letters 14) holds async room
  rw [text, accepted, letters_append] at accepted'
  have prod := holds'.prod
  rw [accepted', length_letters] at prod
  obtain ⟨spill, first, covered, longer⟩ := vprintk_over prod holds'.cons async'
  refine ⟨(s.vprintk (letters 14)).vprintk [lf, 0x62], ?_, spill, first, ?_, ?_⟩
  · rw [exec_append_ok]
    refine ⟨s, run, ?_⟩
    simp [exec, step, async, async']
  · rw [longer, accepted']
    rfl
  · rw [first]
    exact covered

end Testjig.Serial
