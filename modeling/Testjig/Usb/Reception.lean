import Testjig.Usb.Buffers

namespace Testjig.Usb

open Testjig.Sequence

structure Untouched (n : Nat) (before after : Hcd) : Prop where
  hc : after.hc n = before.hc n
  urbState : after.urbState n = before.urbState n
  hcStatus : after.hcStatus n = before.hcStatus n
  xferCnt : after.xferCnt n = before.xferCnt n

theorem Untouched.refl (n : Nat) (pdev : Hcd) : Untouched n pdev pdev := ⟨rfl, rfl, rfl, rfl⟩

theorem Untouched.trans {n : Nat} {a b c : Hcd} (first : Untouched n a b) (second : Untouched n b c) :
    Untouched n a c where
  hc := second.hc.trans first.hc
  urbState := second.urbState.trans first.urbState
  hcStatus := second.hcStatus.trans first.hcStatus
  xferCnt := second.xferCnt.trans first.xferCnt

variable {n num : Nat} (other : n ≠ num)

include other

theorem edit_untouched (pdev : Hcd) (f : HostChannel → HostChannel) : Untouched n pdev (pdev.edit num f) :=
  ⟨by rw [edit_hc, if_neg other], rfl, rfl, rfl⟩

theorem setUrb_untouched (pdev : Hcd) (urb : UrbState) : Untouched n pdev (pdev.setUrb num urb) :=
  ⟨rfl, Function.update_of_ne other _ _, rfl, rfl⟩

theorem setStatus_untouched (pdev : Hcd) (status : HcStatus) : Untouched n pdev (pdev.setStatus num status) :=
  ⟨rfl, rfl, Function.update_of_ne other _ _, rfl⟩

theorem halt_untouched (pdev : Hcd) (status : HcStatus) : Untouched n pdev (pdev.halt num status) :=
  (edit_untouched other pdev _).trans (setStatus_untouched other _ status)

theorem halted_untouched (pdev : Hcd) : Untouched n pdev (pdev.halted num) := edit_untouched other pdev _

theorem handleHcOut_untouched (pdev : Hcd) (hcint : HcInt) : Untouched n pdev (pdev.handleHcOut num hcint) := by
  have handled := handleHcOut_handled pdev num hcint
  generalize pdev.handleHcOut num hcint = next at handled
  have ended (urb : UrbState) : Untouched n pdev ((pdev.halted num).setUrb num urb) :=
    (halted_untouched other pdev).trans (setUrb_untouched other _ urb)
  cases handled with
  | none => exact .refl n pdev
  | halt status => exact halt_untouched other pdev status
  | halted => exact halted_untouched other pdev
  | ended urb => exact ended urb
  | sent => exact (ended .done).trans (edit_untouched other _ _)

theorem handleHcIn_untouched (pdev : Hcd) (hcint : HcInt) : Untouched n pdev (pdev.handleHcIn num hcint) := by
  obtain ⟨checked, first, handled⟩ := handleHcIn_handled pdev num hcint
  generalize pdev.handleHcIn num hcint = next at handled
  have checks : Untouched n pdev checked := by
    rcases first with rfl | ⟨status, _, rfl⟩
    · exact .refl n checked
    · exact halt_untouched other pdev status
  apply checks.trans
  cases handled with
  | none => exact .refl n checked
  | complete => exact (halt_untouched other checked .xfrc).trans (edit_untouched other _ _)
  | halted => exact halted_untouched other checked
  | ended _ urb => exact (halted_untouched other checked).trans (setUrb_untouched other _ urb)
  | failed => exact halt_untouched other checked .xacterr
  | retried => exact (setStatus_untouched other checked .nak).trans (edit_untouched other _ _)

theorem packet_untouched (pdev : Hcd) (fifo : Nat → Byte) (bcnt : Nat) :
    Untouched n pdev (pdev.packet num fifo bcnt) := by
  have accepted : Untouched n pdev (pdev.acceptPacket num fifo bcnt) := by
    refine ⟨?_, rfl, rfl, rfl⟩
    rw [acceptPacket_hc, if_neg other]
  apply accepted.trans
  unfold Hcd.packet Hcd.handleRxQlvl
  split
  · refine ⟨?_, rfl, rfl, ?_⟩
    · rw [edit_hc, if_neg other]
      simp only [edit_hc, if_neg other, Hcd.readPacket]
    · exact Function.update_of_ne other _ _
  · exact .refl n _

omit other

def Irq.channel : Irq → Option Nat
  | .rx chnum _ _ => some chnum
  | .hc num _ => some num
  | _ => none

theorem interrupt_untouched (pdev : Hcd) (irq : Irq) (elsewhere : irq.channel ≠ some n) :
    Untouched n pdev (pdev.interrupt irq) := by
  simp only [Hcd.interrupt]
  split
  · cases irq
    case rx chnum fifo bcnt =>
      have other : n ≠ chnum := fun same => elsewhere (by rw [same]; rfl)
      simp only [Hcd.isrHandler]
      split
      · exact packet_untouched other pdev fifo bcnt
      · exact .refl n pdev
    case hc num hcint =>
      have other : n ≠ num := fun same => elsewhere (by rw [same]; rfl)
      simp only [Hcd.isrHandler]
      split
      · exact .refl n pdev
      split
      · exact handleHcOut_untouched other pdev _
      split
      · exact .refl n pdev
      · exact handleHcIn_untouched other pdev _
    case portEnabled =>
      simp only [Hcd.isrHandler]
      split
      · exact ⟨rfl, rfl, rfl, rfl⟩
      · exact .refl n pdev
    all_goals exact ⟨rfl, rfl, rfl, rfl⟩
  · exact .refl n pdev

theorem interrupt_disabled_channel (pdev : Hcd) (irq : Irq) (disabled : (pdev.hc n).chen = false) :
    Untouched n pdev (pdev.interrupt irq) := by
  by_cases here : irq.channel = some n
  · simp only [Hcd.interrupt]
    split
    · cases irq
      case rx chnum fifo bcnt =>
        cases here
        simp only [Hcd.isrHandler, disabled]
        exact .refl n pdev
      case hc num hcint =>
        cases here
        simp only [Hcd.isrHandler, disabled]
        exact .refl n pdev
      all_goals cases here
    · exact .refl n pdev
  · exact interrupt_untouched pdev irq here

theorem interrupt_nothing {pdev : Hcd} {outEp inEp : Byte} (wired : Wired pdev outEp inEp) (irq : Irq)
    (nothing : irq.channel ≠ some 3 ∨ (pdev.hc 3).chen = false) : Untouched 3 pdev (pdev.interrupt irq) ∧
      (pdev.interrupt irq).delivered = pdev.delivered ∧ (pdev.interrupt irq).ram .rspbuf = pdev.ram .rspbuf := by
  have untouched : Untouched 3 pdev (pdev.interrupt irq) := by
    rcases nothing with elsewhere | disabled
    · exact interrupt_untouched pdev irq elsewhere
    · exact interrupt_disabled_channel pdev irq disabled
  refine ⟨untouched, ?_⟩
  have interrupted := interrupt_cases pdev irq
  generalize pdev.interrupt irq = next at interrupted
  cases interrupted with
  | quiet _ _ quiet => exact ⟨quiet.delivered, by rw [quiet.ram]⟩
  | packet chnum fifo bcnt enabled inward waiting fits =>
    rcases wired.inward inward with rfl | rfl
    · refine ⟨?_, ?_⟩
      · rw [packet_delivered, if_neg]
        rw [wired.eptype]
        simp
      · by_cases stores : (pdev.hc 1).Stores bcnt
        · rw [(packet_stored pdev 1 fifo bcnt stores).1]
          simp only [Hcd.readPacket]
          rw [Function.update_of_ne (Ne.symm wired.elsewhere)]
        · rw [(packet_dropped pdev 1 fifo bcnt stores).1]
    · rcases nothing with elsewhere | disabled
      · exact absurd rfl elsewhere
      · rw [enabled] at disabled
        cases disabled

structure Halted (pdev : Hcd) : Prop where
  chen : (pdev.hc 3).chen = false
  chhltd : (pdev.hc 3).chhltd = false

theorem Halted.of_same {before after : Hcd} (halted : Halted before) (hc : after.hc 3 = before.hc 3) : Halted after := by
  constructor
  · rw [hc]
    exact halted.chen
  · rw [hc]
    exact halted.chhltd

structure Still (d : List (List Byte)) (pdev : Hcd) : Prop where
  halted : Halted pdev
  delivered : pdev.delivered = d

/-- While the IN pipe is not enabled nothing comes in through it. -/
theorem interrupts_nothing {pdev : Hcd} {outEp inEp : Byte} (wired : Wired pdev outEp inEp)
    (disabled : (pdev.hc 3).chen = false) (irqs : List Irq) : Untouched 3 pdev (pdev.interrupts irqs) ∧
      (pdev.interrupts irqs).delivered = pdev.delivered ∧ (pdev.interrupts irqs).ram .rspbuf = pdev.ram .rspbuf := by
  have step (middle : Hcd) (irq : Irq) (all : Wired middle outEp inEp ∧ Untouched 3 pdev middle ∧
      middle.delivered = pdev.delivered ∧ middle.ram .rspbuf = pdev.ram .rspbuf) :
      Wired (middle.interrupt irq) outEp inEp ∧ Untouched 3 pdev (middle.interrupt irq) ∧
        (middle.interrupt irq).delivered = pdev.delivered ∧ (middle.interrupt irq).ram .rspbuf = pdev.ram .rspbuf := by
    obtain ⟨wired, untouched, delivered, ram⟩ := all
    have off : (middle.hc 3).chen = false := by
      rw [untouched.hc]
      exact disabled
    obtain ⟨untouched', delivered', ram'⟩ := interrupt_nothing wired irq (.inr off)
    exact ⟨(interrupt_undisturbed middle irq).wired wired, untouched.trans untouched', delivered'.trans delivered,
      ram'.trans ram⟩
  exact (interrupts_invariant step irqs ⟨wired, .refl 3 pdev, rfl, rfl⟩).2

theorem still_invariant (d : List (List Byte)) : PipeInvariant (Still d) where
  apart _ _ apart still := ⟨still.halted.of_same apart.hc, apart.delivered.trans still.delivered⟩
  interrupt pdev irq outEp inEp wired still := by
    obtain ⟨untouched, delivered, _⟩ := interrupt_nothing wired irq (.inr still.halted.chen)
    exact ⟨still.halted.of_same untouched.hc, delivered.trans still.delivered⟩

theorem opened_still (d : List (List Byte)) (usb : Usbh) : PipeInvariant.Opened (Still d) usb := by
  intro _ _ pdev devAddress speed still
  refine ⟨⟨?_, ?_⟩, still.delivered⟩
  · rw [openChannel_hc, if_pos rfl]
  · rw [openChannel_hc, if_pos rfl]

def Stored (p : List Byte) (pdev : Hcd) : Prop := (List.range p.length).map (pdev.ram .rspbuf) = p

theorem Stored.of_same {packet : List Byte} {before after : Hcd} (stored : Stored packet before)
    (ram : after.ram .rspbuf = before.ram .rspbuf) : Stored packet after := by
  rw [Stored, ram]
  exact stored

inductive Progress (d : List (List Byte)) (pdev : Hcd) : Prop where
  | waiting (inward : (pdev.hc 3).epdir = true) (pktcnt : (pdev.hc 3).pktcnt = 1) (buffer : (pdev.hc 3).xferBuff = ⟨.rspbuf, 0⟩)
      (count : (pdev.hc 3).xferCount = 0) (bulk : (pdev.hc 3).eptype = .bulk) (going : pdev.urbState 3 ≠ .done)
      (status : (pdev.hc 3).chhltd = true → pdev.hcStatus 3 ≠ .xfrc) (delivered : pdev.delivered = d)
  | taken (p : List Byte) (pktcnt : (pdev.hc 3).pktcnt = 0) (delivered : pdev.delivered = d ++ [p])
      (stored : p = [] ∨ pdev.xferCnt 3 = p.length ∧ Stored p pdev)
  | mute (outward : (pdev.hc 3).epdir = false) (empty : pdev.xferCnt 3 = 0) (delivered : pdev.delivered = d)

structure Fetch (d : List (List Byte)) (pdev : Hcd) : Prop where
  progress : Progress d pdev
  stopped : pdev.urbState 3 = .done → Halted pdev

/-- What `USB_OTG_USBH_handle_hc_n_In_ISR()` does to the state of its channel: the transfer goes on, or the channel
has been halted. -/
inductive InOutcome (pdev : Hcd) (num : Nat) (hcint : HcInt) (next : Hcd) : Prop where
  | goesOn (urb : next.urbState num = pdev.urbState num)
      (status : (next.hc num).chhltd = true → next.hcStatus num ≠ .xfrc ∨ hcint.xfercompl = true ∨
        (pdev.hc num).chhltd = true ∧ next.hcStatus num = pdev.hcStatus num)
  | halted (chen : (next.hc num).chen = false) (chhltd : (next.hc num).chhltd = false) (unmasked : hcint.chhltd = true)
      (urb : next.urbState num = .done → pdev.urbState num = .done ∨ pdev.hcStatus num = .xfrc)

theorem halt_outcome (pdev : Hcd) (num : Nat) (hcint : HcInt) {status : HcStatus} (failed : status ≠ .xfrc) :
    InOutcome pdev num hcint (pdev.halt num status) := by
  refine .goesOn rfl fun _ => .inl ?_
  simp only [Hcd.halt, Hcd.setStatus, Function.update_self]
  exact failed

theorem InOutcome.of_halt {pdev next : Hcd} {num : Nat} {hcint : HcInt} {status : HcStatus} (failed : status ≠ .xfrc)
    (outcome : InOutcome (pdev.halt num status) num hcint next) : InOutcome pdev num hcint next := by
  have found : (pdev.halt num status).hcStatus num = status := Function.update_self ..
  cases outcome with
  | goesOn urb same =>
    refine .goesOn urb fun halting => ?_
    rcases same halting with other | complete | ⟨_, kept⟩
    · exact .inl other
    · exact .inr (.inl complete)
    · refine .inl ?_
      rw [kept, found]
      exact failed
  | halted chen chhltd unmasked urb =>
    refine .halted chen chhltd unmasked fun done => ?_
    rcases urb done with before | complete
    · exact .inl before
    · exact absurd (found.symm.trans complete) failed

theorem InHandled.outcome {pdev next : Hcd} {num : Nat} {hcint : HcInt} (handled : InHandled pdev num hcint next) :
    InOutcome pdev num hcint next := by
  cases handled with
  | none => exact .goesOn rfl fun halting => .inr (.inr ⟨halting, rfl⟩)
  | complete complete => exact .goesOn rfl fun _ => .inr (.inl complete)
  | halted unmasked =>
    refine .halted ?_ ?_ unmasked fun ended => .inl ended
    · simp [Hcd.halted, edit_hc]
    · simp [Hcd.halted, edit_hc]
  | ended unmasked urb done =>
    refine .halted ?_ ?_ unmasked fun ended => .inr (done ?_)
    · simp [Hcd.setUrb, Hcd.halted, edit_hc]
    · simp [Hcd.setUrb, Hcd.halted, edit_hc]
    · simpa [Hcd.setUrb] using ended
  | failed => exact halt_outcome pdev num hcint (by simp)
  | retried =>
    refine .goesOn rfl fun _ => .inl ?_
    simp [Hcd.edit, Hcd.setStatus]

theorem handleHcIn_outcome (pdev : Hcd) (num : Nat) (hcint : HcInt) :
    InOutcome pdev num hcint (pdev.handleHcIn num hcint) := by
  obtain ⟨checked, first, handled⟩ := handleHcIn_handled pdev num hcint
  rcases first with rfl | ⟨status, failed, rfl⟩
  · exact handled.outcome
  · exact .of_halt failed handled.outcome

theorem handleHcOut_done {pdev : Hcd} {num : Nat} {hcint : HcInt}
    (done : (pdev.handleHcOut num hcint).urbState num = .done) :
    pdev.urbState num = .done ∨ (((pdev.handleHcOut num hcint).hc num).chen = false ∧
      ((pdev.handleHcOut num hcint).hc num).chhltd = false) := by
  have handled := handleHcOut_handled pdev num hcint
  generalize pdev.handleHcOut num hcint = next at handled done
  have halted : ((pdev.halted num).hc num).chen = false ∧ ((pdev.halted num).hc num).chhltd = false := by
    simp [Hcd.halted, edit_hc]
  cases handled with
  | none => exact .inl done
  | halt => exact .inl done
  | halted => exact .inr halted
  | ended => exact .inr halted
  | sent =>
    apply Or.inr
    rw [edit_hc, if_pos rfl]
    split <;> exact halted

theorem Progress.of_untouched {d : List (List Byte)} {before after : Hcd} (untouched : Untouched 3 before after)
    (delivered : after.delivered = before.delivered) (ram : after.ram .rspbuf = before.ram .rspbuf)
    (progress : Progress d before) : Progress d after := by
  obtain ⟨hc, urbState, hcStatus, xferCnt⟩ := untouched
  cases progress with
  | waiting inward pktcnt buffer count bulk going status same =>
    refine .waiting ?_ ?_ ?_ ?_ ?_ ?_ ?_ (delivered.trans same)
    · rwa [hc]
    · rwa [hc]
    · rwa [hc]
    · rwa [hc]
    · rwa [hc]
    · rwa [urbState]
    · rwa [hc, hcStatus]
  | taken p pktcnt same stored =>
    refine .taken p ?_ (delivered.trans same) ?_
    · rwa [hc]
    · rw [xferCnt, Stored, ram]
      exact stored
  | mute outward empty same =>
    refine .mute ?_ ?_ (delivered.trans same)
    · rwa [hc]
    · rwa [xferCnt]

/-- A packet that the transfer takes -/
theorem packet_progress {d : List (List Byte)} {pdev : Hcd} (fifo : Nat → Byte) (bcnt : Nat)
    (pktcnt : (pdev.hc 3).pktcnt = 1) (buffer : (pdev.hc 3).xferBuff = ⟨.rspbuf, 0⟩) (count : (pdev.hc 3).xferCount = 0)
    (bulk : (pdev.hc 3).eptype = .bulk) (delivered : pdev.delivered = d) : Progress d (pdev.packet 3 fifo bcnt) := by
  have single : Single pdev := ⟨Nat.le_of_eq pktcnt, fun _ => by rw [buffer]⟩
  refine .taken ((List.range bcnt).map fifo) (packet_single pdev fifo bcnt single) ?_ ?_
  · rw [packet_delivered, if_pos bulk, delivered]
  · by_cases stores : (pdev.hc 3).Stores bcnt
    · obtain ⟨ram, _, xferCnt⟩ := packet_stored pdev 3 fifo bcnt stores
      refine .inr ⟨?_, ?_⟩
      · rw [xferCnt, Function.update_self, count]
        simp
      · rw [Stored, ram]
        simp only [Hcd.readPacket, buffer, Function.update_self, List.length_map, List.length_range, Nat.zero_add,
          Nat.sub_zero, Nat.zero_le, true_and]
        refine List.map_congr_left fun i member => if_pos ?_
        have below := List.mem_range.mp member
        omega
    · have empty : bcnt = 0 := by
        by_contra positive
        exact stores ⟨Nat.pos_of_ne_zero positive, by rw [buffer]; simp⟩
      rw [empty]
      exact .inl rfl

theorem packet_urbState (pdev : Hcd) (num : Nat) (fifo : Nat → Byte) (bcnt : Nat) :
    (pdev.packet num fifo bcnt).urbState = pdev.urbState := by
  simp only [Hcd.packet, Hcd.handleRxQlvl]
  split <;> rfl

theorem handleHcIn_fetch {d : List (List Byte)} {pdev : Hcd} (fetch : Fetch d pdev)
    (chen : (pdev.hc 3).chen = true) (inward : (pdev.hc 3).epdir = true) (hcint : HcInt)
    (incomplete : ¬ (hcint.xfercompl = true ∧ 0 < (pdev.hc 3).pktcnt))
    (unmasked : hcint.chhltd = true → (pdev.hc 3).chhltd = true) : Fetch d (pdev.handleHcIn 3 hcint) := by
  have quiet := handleHcIn_quiet pdev 3 hcint
  have outcome := handleHcIn_outcome pdev 3 hcint
  generalize pdev.handleHcIn 3 hcint = next at quiet outcome
  obtain ⟨pktcnt', buffer', _⟩ := quiet_pipe quiet
  have count' : (next.hc 3).xferCount = (pdev.hc 3).xferCount := (congrArg HostChannel.xferCount (quiet.settings 3) :)
  have inward' : (next.hc 3).epdir = true := (congrArg HostChannel.epdir (quiet.settings 3) :).trans inward
  have bulk' : (next.hc 3).eptype = (pdev.hc 3).eptype := (congrArg HostChannel.eptype (quiet.settings 3) :)
  have going : pdev.urbState 3 ≠ .done := fun done => by
    rw [(fetch.stopped done).chen] at chen
    cases chen
  refine ⟨?_, fun done => ?_⟩
  · cases fetch.progress with
    | waiting _ pktcnt buffer count bulk _ status same =>
      have notComplete : hcint.xfercompl = false := by
        cases complete : hcint.xfercompl with
        | false => rfl
        | true => exact absurd ⟨complete, by rw [pktcnt]; exact Nat.one_pos⟩ incomplete
      cases outcome with
      | goesOn urb halting =>
        refine .waiting inward' (pktcnt'.trans pktcnt) (buffer'.trans buffer) (count'.trans count) (bulk'.trans bulk)
          ?_ (fun masked => ?_) (quiet.delivered.trans same)
        · rwa [urb]
        · rcases halting masked with other | complete | ⟨before, kept⟩
          · exact other
          · rw [notComplete] at complete
            cases complete
          · rw [kept]
            exact status before
      | halted chen' chhltd asked urb =>
        refine .waiting inward' (pktcnt'.trans pktcnt) (buffer'.trans buffer) (count'.trans count) (bulk'.trans bulk)
          ?_ (fun masked => ?_) (quiet.delivered.trans same)
        · intro done
          rcases urb done with before | complete
          · exact going before
          · exact status (unmasked asked) complete
        · rw [chhltd] at masked
          cases masked
    | taken p pktcnt same stored =>
      refine .taken p (pktcnt'.trans pktcnt) (quiet.delivered.trans same) ?_
      rw [quiet.xferCnt, Stored, quiet.ram]
      exact stored
    | mute outward =>
      rw [inward] at outward
      cases outward
  · cases outcome with
    | goesOn urb => exact absurd (urb.symm.trans done) going
    | halted chen' chhltd => exact ⟨chen', chhltd⟩

theorem handleHcOut_fetch {d : List (List Byte)} {pdev : Hcd} (fetch : Fetch d pdev)
    (going : pdev.urbState 3 ≠ .done) (outward : (pdev.hc 3).epdir = false) (hcint : HcInt) :
    Fetch d (pdev.handleHcOut 3 hcint) := by
  have quiet := handleHcOut_quiet pdev 3 hcint
  refine ⟨?_, fun done => ?_⟩
  · cases fetch.progress with
    | waiting inward =>
      rw [outward] at inward
      cases inward
    | taken p pktcnt same stored =>
      refine .taken p ((quiet_pipe quiet).1.trans pktcnt) (quiet.delivered.trans same) ?_
      rw [quiet.xferCnt, Stored, quiet.ram]
      exact stored
    | mute _ empty same =>
      have epdir := (congrArg HostChannel.epdir (quiet.settings 3) :)
      exact .mute (Eq.trans epdir outward) (by rw [quiet.xferCnt]; exact empty) (quiet.delivered.trans same)
  · rcases handleHcOut_done done with before | ⟨chen, chhltd⟩
    · exact absurd before going
    · exact ⟨chen, chhltd⟩

theorem interrupt_fetch {d : List (List Byte)} {pdev : Hcd} {outEp inEp : Byte} (wired : Wired pdev outEp inEp)
    (irq : Irq) (fetch : Fetch d pdev) : Fetch d (pdev.interrupt irq) := by
  by_cases nothing : irq.channel ≠ some 3 ∨ (pdev.hc 3).chen = false
  · obtain ⟨untouched, delivered, ram⟩ := interrupt_nothing wired irq nothing
    refine ⟨fetch.progress.of_untouched untouched delivered ram, fun done => ?_⟩
    rw [untouched.urbState] at done
    exact (fetch.stopped done).of_same untouched.hc
  · obtain ⟨here, enabled⟩ := not_or.mp nothing
    have chen : (pdev.hc 3).chen = true := by simpa using enabled
    have going : pdev.urbState 3 ≠ .done := fun done => enabled (fetch.stopped done).chen
    simp only [Hcd.interrupt]
    split
    · cases irq
      case rx chnum fifo bcnt =>
        cases Option.some.inj (Decidable.of_not_not here)
        simp only [Hcd.isrHandler]
        split
        · rename_i guards
          refine ⟨?_, fun done => ?_⟩
          · cases fetch.progress with
            | waiting _ pktcnt buffer count bulk _ status same =>
              exact packet_progress fifo bcnt pktcnt buffer count bulk same
            | taken p pktcnt => exact absurd guards.2.2.1 (by omega)
            | mute outward =>
              rw [outward] at guards
              cases guards.2.1
          · change (pdev.packet 3 fifo bcnt).urbState 3 = .done at done
            rw [packet_urbState] at done
            exact absurd done going
        · exact fetch
      case hc num hcint =>
        cases Option.some.inj (Decidable.of_not_not here)
        simp only [Hcd.isrHandler]
        split
        · exact fetch
        split
        · rename_i outward
          exact handleHcOut_fetch fetch going (by simpa using outward) _
        split
        · exact fetch
        · rename_i inward incomplete
          exact handleHcIn_fetch fetch chen (by simpa using inward) _ incomplete fun asked =>
            (Bool.and_eq_true_iff.mp asked).2
      all_goals exact absurd (fun same => by cases same) here
    · exact fetch

theorem interrupts_fetch {d : List (List Byte)} {pdev : Hcd} {outEp inEp : Byte} (wired : Wired pdev outEp inEp)
    (fetch : Fetch d pdev) (irqs : List Irq) : Fetch d (pdev.interrupts irqs) := by
  have step (middle : Hcd) (irq : Irq) (both : Wired middle outEp inEp ∧ Fetch d middle) :
      Wired (middle.interrupt irq) outEp inEp ∧ Fetch d (middle.interrupt irq) :=
    ⟨(interrupt_undisturbed middle irq).wired both.1, interrupt_fetch both.1 irq both.2⟩
  exact (interrupts_invariant step irqs ⟨wired, fetch⟩).2

theorem Started.fetch {d : List (List Byte)} {before after : Hcd} {num length : Nat} {epIsIn : Bool} {buff : Ptr}
    (started : Started before num epIsIn buff length after) (other : 3 ≠ num) (fetch : Fetch d before) :
    Fetch d after := by
  have hc := started.others 3 other
  have urbState : after.urbState 3 = before.urbState 3 := by
    rw [started.urbState, Function.update_of_ne other]
  have untouched : Untouched 3 before after :=
    ⟨hc, urbState, by rw [started.hcStatus], by rw [started.xferCnt]⟩
  refine ⟨fetch.progress.of_untouched untouched started.delivered (by rw [started.ram]), fun done => ?_⟩
  rw [urbState] at done
  exact (fetch.stopped done).of_same hc

theorem Started.begins {d : List (List Byte)} {before after : Hcd} {inEpSize : Nat}
    (started : Started before 3 true ⟨.rspbuf, 0⟩ inEpSize after) (still : Still d before)
    (maxPacket : (before.hc 3).maxPacket = inEpSize) (bulk : (before.hc 3).eptype = .bulk)
    (empty : (before.hc 3).epdir = false → before.xferCnt 3 = 0) : Fetch d after := by
  have idle : after.urbState 3 = .idle := by rw [started.urbState, Function.update_self]
  have epdir : (after.hc 3).epdir = (before.hc 3).epdir := (congrArg HostChannel.epdir started.config :)
  have eptype : (after.hc 3).eptype = .bulk := (congrArg HostChannel.eptype started.config :).trans bulk
  have delivered := started.delivered.trans still.delivered
  refine ⟨?_, fun done => ?_⟩
  · cases inward : (before.hc 3).epdir with
    | false =>
      refine .mute (epdir.trans inward) ?_ delivered
      rw [started.xferCnt]
      exact empty inward
    | true =>
      refine .waiting (epdir.trans inward) ?_ started.buffer started.count eptype ?_ (fun asked => ?_) delivered
      · rw [started.pktcnt, maxPacket]
        exact numPackets_self inEpSize
      · rw [idle]
        simp
      · rw [started.chhltd, still.halted.chhltd] at asked
        cases asked
  · rw [idle] at done
    cases done

theorem processTransmission_fetch {d : List (List Byte)} {usb : Usbh} (laid : Laid usb)
    (active : usb.phost.gState = .hostClass) (fetch : Fetch d usb.pdev) (turn : Turn) :
    Fetch d (usb.processTransmission turn.env).pdev := by
  have other : 3 ≠ usb.cdc.outPipe := (laid.pipes active).2.1.symm
  have waited := interrupts_fetch laid.wired fetch (turn.irqs .transmission)
  simp only [Usbh.processTransmission]
  split
  · exact (bulkSendData_started ..).fetch other fetch
  · split
    · split <;> exact waited
    · exact waited
    · exact waited
  · exact fetch

end Testjig.Usb
