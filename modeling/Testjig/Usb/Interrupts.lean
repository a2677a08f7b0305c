import Testjig.Usb.Hcd

namespace Testjig.Usb

open Testjig.Sequence

def Port.interrupt (port : Port) (irq : Irq) : Port :=
  if port.intEnabled then
    match irq with
    | .connect => { port with connSts := true }
    | .disconnect => { port with connSts := false, intEnabled := false, drops := port.drops + 1 }
    | .portEnabled => if port.resetIssued then { port with portEnabled := true } else port
    | .portDisabled => { port with portEnabled := false, resetIssued := false, drops := port.drops + 1 }
    | .rx .. | .hc .. => port
  else port

@[simp]
theorem edit_port (pdev : Hcd) (num : Nat) (f : HostChannel → HostChannel) : (pdev.edit num f).port = pdev.port := rfl

@[simp]
theorem setStatus_port (pdev : Hcd) (num : Nat) (status : HcStatus) : (pdev.setStatus num status).port = pdev.port := rfl

@[simp]
theorem setUrb_port (pdev : Hcd) (num : Nat) (urb : UrbState) : (pdev.setUrb num urb).port = pdev.port := rfl

@[simp]
theorem halt_port (pdev : Hcd) (num : Nat) (status : HcStatus) : (pdev.halt num status).port = pdev.port := rfl

@[simp]
theorem halted_port (pdev : Hcd) (num : Nat) : (pdev.halted num).port = pdev.port := rfl

theorem handleRxQlvl_port (pdev : Hcd) (chnum : Nat) (fifo : Nat → Byte) (bcnt : Nat) :
    (pdev.handleRxQlvl chnum fifo bcnt).port = pdev.port := by
  simp only [Hcd.handleRxQlvl]
  split <;> rfl

/-- What `USB_OTG_USBH_handle_hc_n_Out_ISR()` does, whatever the condition -/
inductive OutHandled (pdev : Hcd) (num : Nat) : Hcd → Prop where
  | none : OutHandled pdev num pdev
  | halt (status : HcStatus) : OutHandled pdev num (pdev.halt num status)
  | halted : OutHandled pdev num (pdev.halted num)
  | ended (urb : UrbState) : OutHandled pdev num ((pdev.halted num).setUrb num urb)
  | sent : OutHandled pdev num (((pdev.halted num).setUrb num .done).edit num fun c =>
      if c.eptype = .bulk then { c with toggleOut := !c.toggleOut } else c)

theorem OutHandled.checked {pdev rest : Hcd} {num : Nat} (flag : Bool) (status : HcStatus)
    (handled : OutHandled pdev num rest) : OutHandled pdev num (if flag then pdev.halt num status else rest) := by
  split
  · exact .halt status
  · exact handled

theorem handleHcOut_handled (pdev : Hcd) (num : Nat) (hcint : HcInt) :
    OutHandled pdev num (pdev.handleHcOut num hcint) := by
  rw [Hcd.handleHcOut]
  -- the six checks that only halt the channel
  iterate 6 apply OutHandled.checked
  split
  · dsimp only
    cases (pdev.halted num).hcStatus num with
    | xfrc => exact .sent
    | nak | nyet | stall | xacterr => exact .ended _
    | idle | datatglerr => exact .halted
  · exact .none

/-- What `USB_OTG_USBH_handle_hc_n_In_ISR()` does after its first two checks -/
inductive InHandled (pdev : Hcd) (num : Nat) (hcint : HcInt) : Hcd → Prop where
  | none : InHandled pdev num hcint pdev
  | complete (complete : hcint.xfercompl = true) :
    InHandled pdev num hcint ((pdev.halt num .xfrc).edit num fun c => { c with toggleIn := !c.toggleIn })
  | halted (unmasked : hcint.chhltd = true) : InHandled pdev num hcint (pdev.halted num)
  | ended (unmasked : hcint.chhltd = true) (urb : UrbState) (done : urb = .done → pdev.hcStatus num = .xfrc) :
    InHandled pdev num hcint ((pdev.halted num).setUrb num urb)
  | failed : InHandled pdev num hcint (pdev.halt num .xacterr)
  | retried : InHandled pdev num hcint ((pdev.setStatus num .nak).edit num fun c => { c with chen := true })

/-- The first two checks only halt the channel. -/
theorem handleHcIn_handled (pdev : Hcd) (num : Nat) (hcint : HcInt) :
    ∃ checked, (checked = pdev ∨ ∃ status, status ≠ .xfrc ∧ checked = pdev.halt num status) ∧
      InHandled checked num hcint (pdev.handleHcIn num hcint) := by
  refine ⟨if hcint.stall then pdev.halt num .stall
    else if hcint.datatglerr then pdev.halt num .datatglerr else pdev, ?_, ?_⟩
  · split
    · exact .inr ⟨.stall, by simp, rfl⟩
    · split
      · exact .inr ⟨.datatglerr, by simp, rfl⟩
      · exact .inl rfl
  · unfold Hcd.handleHcIn
    generalize (if hcint.stall then pdev.halt num .stall
      else if hcint.datatglerr then pdev.halt num .datatglerr else pdev) = checked
    simp only
    split
    · rename_i complete
      exact .complete complete
    split
    · rename_i unmasked
      split
      · rename_i status
        exact .ended unmasked .done fun _ => status
      all_goals first
        | exact .ended unmasked _ (by simp)
        | exact .halted unmasked
    split
    · exact .failed
    split
    · exact .retried
    · exact .none

theorem handleHcOut_port (pdev : Hcd) (num : Nat) (hcint : HcInt) : (pdev.handleHcOut num hcint).port = pdev.port := by
  have handled := handleHcOut_handled pdev num hcint
  generalize pdev.handleHcOut num hcint = next at handled
  cases handled <;> rfl

theorem handleHcIn_port (pdev : Hcd) (num : Nat) (hcint : HcInt) : (pdev.handleHcIn num hcint).port = pdev.port := by
  obtain ⟨checked, first, handled⟩ := handleHcIn_handled pdev num hcint
  have same : checked.port = pdev.port := by
    rcases first with rfl | ⟨status, _, rfl⟩
    · rfl
    · rfl
  generalize pdev.handleHcIn num hcint = next at handled
  rw [← same]
  cases handled <;> rfl

theorem interrupt_port (pdev : Hcd) (irq : Irq) : (pdev.interrupt irq).port = pdev.port.interrupt irq := by
  simp only [Hcd.interrupt, Port.interrupt]
  split
  · cases irq
    case portEnabled =>
      simp only [Hcd.isrHandler]
      split <;> rfl
    case rx =>
      simp only [Hcd.isrHandler]
      split
      · rw [handleRxQlvl_port]
        rfl
      · rfl
    case hc =>
      simp only [Hcd.isrHandler]
      split
      · rfl
      · split
        · exact handleHcOut_port ..
        · split
          · rfl
          · exact handleHcIn_port ..
    all_goals rfl
  · rfl

theorem interrupts_port (pdev : Hcd) (irqs : List Irq) :
    (pdev.interrupts irqs).port = irqs.foldl Port.interrupt pdev.port := by
  induction irqs generalizing pdev with
  | nil => rfl
  | cons irq rest ih =>
    rw [Hcd.interrupts, List.foldl_cons, List.foldl_cons, ← interrupt_port]
    exact ih (pdev.interrupt irq)

theorem interrupts_keep {keeps : Port → Prop} (kept : ∀ port irq, keeps port → keeps (port.interrupt irq))
    {pdev : Hcd} (irqs : List Irq) (holds : keeps pdev.port) : keeps (pdev.interrupts irqs).port := by
  rw [interrupts_port]
  generalize pdev.port = port at holds
  induction irqs generalizing port with
  | nil => exact holds
  | cons irq rest ih => exact ih _ (kept port irq holds)

/-- Disconnected, with interrupts off until the next `HCD_Init()` -/
def Port.Gone (port : Port) : Prop := port.connSts = false ∧ port.intEnabled = false

def Port.Disabled (port : Port) : Prop := port.portEnabled = false ∧ port.resetIssued = false

theorem interrupt_gone (port : Port) (irq : Irq) (gone : port.Gone) : (port.interrupt irq).Gone := by
  unfold Port.interrupt
  rw [if_neg (by simp [gone.2])]
  exact gone

theorem interrupt_disabled (port : Port) (irq : Irq) (disabled : port.Disabled) : (port.interrupt irq).Disabled := by
  obtain ⟨off, noReset⟩ := disabled
  unfold Port.interrupt
  split
  · cases irq <;> simp [Port.Disabled, off, noReset]
  · exact ⟨off, noReset⟩

/-- Nothing has dropped since `drops` was counted, or the port shows it. -/
def Port.Shows (drops : Nat) (port : Port) : Prop := port.drops = drops ∨ port.Gone ∨ port.Disabled

theorem interrupt_shows (drops : Nat) (port : Port) (irq : Irq) (shows : port.Shows drops) :
    (port.interrupt irq).Shows drops := by
  rcases shows with same | gone | disabled
  · unfold Port.interrupt
    split
    · cases irq
      case disconnect => exact .inr (.inl ⟨rfl, rfl⟩)
      case portDisabled => exact .inr (.inr ⟨rfl, rfl⟩)
      case portEnabled =>
        simp only
        split <;> exact .inl same
      all_goals exact .inl same
    · exact .inl same
  · exact .inr (.inl (interrupt_gone port irq gone))
  · exact .inr (.inr (interrupt_disabled port irq disabled))

/-- A channel without its toggles and without what masks and enables its interrupts -/
def HostChannel.settings (c : HostChannel) : HostChannel :=
  { c with toggleIn := false, toggleOut := false, chen := false, chhltd := false }

structure Quiet (before after : Hcd) : Prop where
  channel : after.channel = before.channel
  xferCnt : after.xferCnt = before.xferCnt
  ram : after.ram = before.ram
  high : after.high = before.high
  delivered : after.delivered = before.delivered
  overlong : after.overlong = before.overlong
  settings : ∀ num, (after.hc num).settings = (before.hc num).settings

theorem Quiet.refl (pdev : Hcd) : Quiet pdev pdev := ⟨rfl, rfl, rfl, rfl, rfl, rfl, fun _ => rfl⟩

theorem Quiet.trans {a b c : Hcd} (first : Quiet a b) (second : Quiet b c) : Quiet a c where
  channel := second.channel.trans first.channel
  xferCnt := second.xferCnt.trans first.xferCnt
  ram := second.ram.trans first.ram
  high := second.high.trans first.high
  delivered := second.delivered.trans first.delivered
  overlong := second.overlong.trans first.overlong
  settings num := (second.settings num).trans (first.settings num)

theorem edit_hc (pdev : Hcd) (num n : Nat) (f : HostChannel → HostChannel) :
    (pdev.edit num f).hc n = if n = num then f (pdev.hc n) else pdev.hc n := by
  simp only [Hcd.edit, Function.update_apply]
  split
  · rename_i same
    rw [same]
  · rfl

theorem edit_quiet (pdev : Hcd) (num : Nat) (f : HostChannel → HostChannel)
    (same : ∀ c, (f c).settings = c.settings) : Quiet pdev (pdev.edit num f) := by
  refine ⟨rfl, rfl, rfl, rfl, rfl, rfl, fun n => ?_⟩
  rw [edit_hc]
  split
  · exact same _
  · rfl

theorem setStatus_quiet (pdev : Hcd) (num : Nat) (status : HcStatus) : Quiet pdev (pdev.setStatus num status) :=
  ⟨rfl, rfl, rfl, rfl, rfl, rfl, fun _ => rfl⟩

theorem setUrb_quiet (pdev : Hcd) (num : Nat) (urb : UrbState) : Quiet pdev (pdev.setUrb num urb) :=
  ⟨rfl, rfl, rfl, rfl, rfl, rfl, fun _ => rfl⟩

theorem halt_quiet (pdev : Hcd) (num : Nat) (status : HcStatus) : Quiet pdev (pdev.halt num status) := by
  refine .trans ?_ (setStatus_quiet _ num status)
  exact edit_quiet pdev num (fun c => { c with chhltd := true }) fun _ => rfl

theorem halted_quiet (pdev : Hcd) (num : Nat) : Quiet pdev (pdev.halted num) :=
  edit_quiet pdev num (fun c => { c with chhltd := false, chen := false }) fun _ => rfl

theorem handleHcOut_quiet (pdev : Hcd) (num : Nat) (hcint : HcInt) : Quiet pdev (pdev.handleHcOut num hcint) := by
  have handled := handleHcOut_handled pdev num hcint
  generalize pdev.handleHcOut num hcint = next at handled
  have ended (urb : UrbState) : Quiet pdev ((pdev.halted num).setUrb num urb) :=
    (halted_quiet pdev num).trans (setUrb_quiet _ num urb)
  cases handled with
  | none => exact .refl pdev
  | halt status => exact halt_quiet pdev num status
  | halted => exact halted_quiet pdev num
  | ended urb => exact ended urb
  | sent =>
    apply (ended .done).trans
    apply edit_quiet
    intro c
    split <;> rfl

theorem handleHcIn_quiet (pdev : Hcd) (num : Nat) (hcint : HcInt) : Quiet pdev (pdev.handleHcIn num hcint) := by
  obtain ⟨checked, first, handled⟩ := handleHcIn_handled pdev num hcint
  generalize pdev.handleHcIn num hcint = next at handled
  have checks : Quiet pdev checked := by
    rcases first with rfl | ⟨status, _, rfl⟩
    · exact .refl checked
    · exact halt_quiet pdev num status
  apply checks.trans
  cases handled with
  | none => exact .refl checked
  | complete =>
    apply (halt_quiet checked num .xfrc).trans
    exact edit_quiet _ num (fun c => { c with toggleIn := !c.toggleIn }) fun _ => rfl
  | halted => exact halted_quiet checked num
  | ended _ urb => exact (halted_quiet checked num).trans (setUrb_quiet _ num urb)
  | failed => exact halt_quiet checked num .xacterr
  | retried =>
    apply (setStatus_quiet checked num .nak).trans
    exact edit_quiet _ num (fun c => { c with chen := true }) fun _ => rfl

def Hcd.packet (pdev : Hcd) (chnum : Nat) (fifo : Nat → Byte) (bcnt : Nat) : Hcd :=
  (pdev.acceptPacket chnum fifo bcnt).handleRxQlvl chnum fifo bcnt

def HostChannel.Stores (c : HostChannel) (bcnt : Nat) : Prop := 0 < bcnt ∧ c.xferBuff.object ≠ .null

instance (c : HostChannel) (bcnt : Nat) : Decidable (c.Stores bcnt) := inferInstanceAs (Decidable (_ ∧ _))

def HostChannel.packet (c : HostChannel) (bcnt : Nat) : HostChannel :=
  { c with
    pktcnt := if bcnt < c.maxPacket then 0 else c.pktcnt - 1
    xferBuff := if c.Stores bcnt then c.xferBuff.add bcnt else c.xferBuff
    xferCount := if c.Stores bcnt then c.xferCount + bcnt else c.xferCount }

theorem acceptPacket_hc (pdev : Hcd) (chnum n : Nat) (fifo : Nat → Byte) (bcnt : Nat) :
    (pdev.acceptPacket chnum fifo bcnt).hc n = if n = chnum
      then { pdev.hc n with pktcnt := if bcnt < (pdev.hc n).maxPacket then 0 else (pdev.hc n).pktcnt - 1 }
      else pdev.hc n := by
  rw [Hcd.acceptPacket, edit_hc]

theorem packet_stores (pdev : Hcd) (chnum : Nat) (fifo : Nat → Byte) (bcnt : Nat) :
    (0 < bcnt ∧ ((pdev.acceptPacket chnum fifo bcnt).hc chnum).xferBuff.object ≠ .null) ↔
      (pdev.hc chnum).Stores bcnt := by
  rw [acceptPacket_hc, if_pos rfl]
  rfl

theorem packet_settings (pdev : Hcd) (chnum n : Nat) (fifo : Nat → Byte) (bcnt : Nat) :
    ((pdev.packet chnum fifo bcnt).hc n).settings =
      if n = chnum then ((pdev.hc n).packet bcnt).settings else (pdev.hc n).settings := by
  simp only [Hcd.packet, Hcd.handleRxQlvl, packet_stores]
  by_cases stores : (pdev.hc chnum).Stores bcnt
  · rw [if_pos stores, edit_hc]
    by_cases same : n = chnum
    · subst same
      simp only [if_true, Hcd.readPacket, edit_hc, acceptPacket_hc, HostChannel.packet, if_pos stores]
      repeat' split
      all_goals rfl
    · simp only [if_neg same, Hcd.readPacket, edit_hc, acceptPacket_hc]
  · rw [if_neg stores, acceptPacket_hc]
    split
    · rename_i same
      rw [same, HostChannel.packet, if_neg stores, if_neg stores]
    · rfl

theorem packet_channel (pdev : Hcd) (chnum : Nat) (fifo : Nat → Byte) (bcnt : Nat) :
    (pdev.packet chnum fifo bcnt).channel = pdev.channel := by
  simp only [Hcd.packet, Hcd.handleRxQlvl]
  split <;> rfl

theorem packet_delivered (pdev : Hcd) (chnum : Nat) (fifo : Nat → Byte) (bcnt : Nat) :
    (pdev.packet chnum fifo bcnt).delivered = if (pdev.hc chnum).eptype = .bulk
      then pdev.delivered ++ [(List.range bcnt).map fifo] else pdev.delivered := by
  simp only [Hcd.packet, Hcd.handleRxQlvl]
  split <;> rfl

def HostChannel.Surplus (c : HostChannel) (bcnt : Nat) : Prop :=
  c.eptype = .ctrl ∧ c.xferBuff.object ≠ .null ∧ c.requested < c.xferCount + bcnt

theorem packet_overlong (pdev : Hcd) (chnum : Nat) (fifo : Nat → Byte) (bcnt : Nat) :
    (pdev.packet chnum fifo bcnt).overlong = false ↔ pdev.overlong = false ∧ ¬ (pdev.hc chnum).Surplus bcnt := by
  have same : (pdev.packet chnum fifo bcnt).overlong = (pdev.acceptPacket chnum fifo bcnt).overlong := by
    simp only [Hcd.packet, Hcd.handleRxQlvl]
    split <;> rfl
  rw [same]
  simp only [Hcd.acceptPacket, Hcd.edit, Bool.or_eq_false_iff, decide_eq_false_iff_not, HostChannel.Surplus]

theorem packet_stored (pdev : Hcd) (chnum : Nat) (fifo : Nat → Byte) (bcnt : Nat)
    (stores : (pdev.hc chnum).Stores bcnt) :
    (pdev.packet chnum fifo bcnt).ram = (pdev.readPacket (pdev.hc chnum).xferBuff fifo bcnt).ram ∧
    (pdev.packet chnum fifo bcnt).high = (pdev.readPacket (pdev.hc chnum).xferBuff fifo bcnt).high ∧
    (pdev.packet chnum fifo bcnt).xferCnt =
      Function.update pdev.xferCnt chnum ((pdev.hc chnum).xferCount + bcnt) := by
  simp only [Hcd.packet, Hcd.handleRxQlvl, packet_stores]
  rw [if_pos stores]
  simp [Hcd.readPacket, Hcd.edit, Hcd.acceptPacket]

theorem packet_dropped (pdev : Hcd) (chnum : Nat) (fifo : Nat → Byte) (bcnt : Nat)
    (drops : ¬ (pdev.hc chnum).Stores bcnt) : (pdev.packet chnum fifo bcnt).ram = pdev.ram ∧
    (pdev.packet chnum fifo bcnt).high = pdev.high ∧ (pdev.packet chnum fifo bcnt).xferCnt = pdev.xferCnt := by
  simp only [Hcd.packet, Hcd.handleRxQlvl, packet_stores]
  rw [if_neg drops]
  exact ⟨rfl, rfl, rfl⟩

/-- An interrupt that is let through is quiet, or it brings a packet to an IN channel that is waiting for one. -/
inductive Interrupted (pdev : Hcd) : Irq → Hcd → Prop where
  | quiet (irq : Irq) (next : Hcd) (quiet : Quiet pdev next) : Interrupted pdev irq next
  | packet (chnum : Nat) (fifo : Nat → Byte) (bcnt : Nat) (enabled : (pdev.hc chnum).chen = true)
      (inward : (pdev.hc chnum).epdir = true) (waiting : 0 < (pdev.hc chnum).pktcnt)
      (fits : bcnt ≤ (pdev.hc chnum).maxPacket) :
    Interrupted pdev (.rx chnum fifo bcnt) (pdev.packet chnum fifo bcnt)

theorem interrupt_cases (pdev : Hcd) (irq : Irq) : Interrupted pdev irq (pdev.interrupt irq) := by
  simp only [Hcd.interrupt]
  split
  · cases irq
    case rx chnum fifo bcnt =>
      simp only [Hcd.isrHandler]
      split
      · rename_i guards
        obtain ⟨enabled, inward, waiting, fits⟩ := guards
        exact .packet chnum fifo bcnt enabled inward waiting fits
      · exact .quiet _ _ (.refl pdev)
    case hc =>
      apply Interrupted.quiet
      simp only [Hcd.isrHandler]
      split
      · exact .refl pdev
      split
      · exact handleHcOut_quiet ..
      split
      · exact .refl pdev
      · exact handleHcIn_quiet ..
    case portEnabled =>
      apply Interrupted.quiet
      simp only [Hcd.isrHandler]
      split
      · exact ⟨rfl, rfl, rfl, rfl, rfl, rfl, fun _ => rfl⟩
      · exact .refl pdev
    all_goals exact .quiet _ _ ⟨rfl, rfl, rfl, rfl, rfl, rfl, fun _ => rfl⟩
  · exact .quiet _ _ (.refl pdev)

/-- What each interrupt keeps, a sequence of them keeps. -/
theorem interrupts_invariant {holds : Hcd → Prop} (kept : ∀ pdev irq, holds pdev → holds (pdev.interrupt irq))
    {pdev : Hcd} (irqs : List Irq) (initial : holds pdev) : holds (pdev.interrupts irqs) := by
  induction irqs generalizing pdev with
  | nil => exact initial
  | cons irq rest ih => exact ih (kept pdev irq initial)

end Testjig.Usb
