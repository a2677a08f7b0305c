import Mathlib.Data.Fintype.Card
import Mathlib.Logic.Function.Iterate
import Testjig.Usb.Cdc
import Testjig.Usb.Interrupts

namespace Machine

variable {σ : Type} {serve : σ → σ} {due : σ → Prop}

/-- A service that works something off whenever it is due is not due for ever. -/
theorem iterate_drained (keeps : σ → Prop) (work : σ → Nat) (kept : ∀ s, keeps s → keeps (serve s))
    (progress : ∀ s, keeps s → due s → work (serve s) < work s) (rests : ∀ s, ¬ due s → serve s = s)
    {k : Nat} {s : σ} (initial : keeps s) (enough : work s ≤ k) :
    ¬ due (serve^[k] s) := by
  induction k generalizing s with
  | zero =>
    intro waiting
    have less := progress s initial waiting
    omega
  | succ k ih =>
    rw [Function.iterate_succ_apply]
    by_cases waiting : due s
    · have less := progress s initial waiting
      exact ih (kept s initial) (by omega)
    · rw [rests s waiting, Function.iterate_fixed (rests s waiting)]
      exact waiting

end Machine

namespace Testjig.Usb

open Machine

/-- The bits of HCINTn and HCINTMSKn -/
inductive HcBit where
  | xfercompl
  | chhltd
  | ahberr
  | stall
  | nak
  | ack
  | nyet
  | xacterr
  | bblerr
  | frmovrun
  | datatglerr
deriving DecidableEq, Repr

instance : Fintype HcBit where
  elems := {.xfercompl, .chhltd, .ahberr, .stall, .nak, .ack, .nyet, .xacterr, .bblerr, .frmovrun, .datatglerr}
  complete bit := by cases bit <;> decide

/-- The interrupt registers of a host channel, HCCHAR as far as the handlers use it, and what the stack keeps -/
structure HcCore where
  hcint : Finset HcBit
  hcintmsk : Finset HcBit
  epdir : Bool
  eptype : EpType
  chen : Bool
  chdis : Bool
  doPing : Bool
  hcStatus : HcStatus
  urbState : UrbState
  toggleIn : Bool
  toggleOut : Bool
deriving DecidableEq

namespace HcCore

/-- What a handler reads: `hcint.d32 & hcintmsk.d32`, which the channel's bit in HAINT shows too -/
def conditions (c : HcCore) : Finset HcBit := c.hcint ∩ c.hcintmsk

def clear (c : HcCore) (bit : HcBit) : HcCore := { c with hcint := c.hcint.erase bit }

def unmaskChh (c : HcCore) : HcCore := { c with hcintmsk := insert .chhltd c.hcintmsk }

def maskChh (c : HcCore) : HcCore := { c with hcintmsk := c.hcintmsk.erase .chhltd }

/-- `USB_OTG_HC_Halt()`; where the request queue is full it writes HCCHAR twice. -/
def hcHalt (c : HcCore) : HcCore := { c with chen := true, chdis := true }

/-- `hcchar.b.chen = 1; hcchar.b.chdis = 0` -/
def reactivate (c : HcCore) : HcCore := { c with chen := true, chdis := false }

/-- The masks that `USB_OTG_HC_Init()` chooses for control and bulk channels, without DMA -/
def initMask (epIsIn doPing : Bool) : Finset HcBit :=
  {.xfercompl, .stall, .xacterr, .datatglerr, .nak} ∪
    if epIsIn then {.bblerr} else if doPing then {.nyet, .ack} else {.nyet}

def hcInit (c : HcCore) (epIsIn : Bool) (epType : EpType) (doPing : Bool) : HcCore :=
  { c with
    hcint := ∅, hcintmsk := initMask epIsIn doPing
    epdir := epIsIn, eptype := epType, chen := false, chdis := false, doPing }

/-- `chhltd` in `USB_OTG_USBH_handle_hc_n_Out_ISR()` -/
def outEnded (c : HcCore) : HcCore :=
  match c.hcStatus with
  | .xfrc => { c with urbState := .done, toggleOut := if c.eptype = .bulk then !c.toggleOut else c.toggleOut }
  | .nak => { c with urbState := .notready }
  | .nyet => { if c.doPing then c.reactivate else c with urbState := .notready }
  | .stall => { c with urbState := .stall }
  | .xacterr => { c with urbState := .error }
  | .idle | .datatglerr => c

def handleHcOut (c : HcCore) : HcCore :=
  let hcint := c.conditions
  if .ahberr ∈ hcint then (c.clear .ahberr).unmaskChh
  else if .ack ∈ hcint then c.clear .ack
  else if .frmovrun ∈ hcint then c.unmaskChh.hcHalt.clear .frmovrun
  else if .xfercompl ∈ hcint then { c.unmaskChh.hcHalt.clear .xfercompl with hcStatus := .xfrc }
  else if .stall ∈ hcint then { (c.clear .stall).unmaskChh.hcHalt with hcStatus := .stall }
  else if .nak ∈ hcint then { c.unmaskChh.hcHalt.clear .nak with hcStatus := .nak }
  else if .xacterr ∈ hcint then { c.unmaskChh.hcHalt with hcStatus := .xacterr }.clear .xacterr
  else if .nyet ∈ hcint then { c.unmaskChh.hcHalt.clear .nyet with hcStatus := .nyet }
  else if .datatglerr ∈ hcint then
    { c.unmaskChh.hcHalt.clear .nak with hcStatus := .datatglerr }.clear .datatglerr
  else if .chhltd ∈ hcint then c.maskChh.outEnded.clear .chhltd
  else c

/-- `chhltd` in `USB_OTG_USBH_handle_hc_n_In_ISR()` -/
def inEnded (c : HcCore) : HcCore :=
  match c.hcStatus with
  | .xfrc => { c with urbState := .done }
  | .stall => { c with urbState := .stall }
  | .xacterr | .datatglerr => { c with urbState := .error }
  | .idle | .nak | .nyet => c

/-- The first conditions that `USB_OTG_USBH_handle_hc_n_In_ISR()` looks at, and what it goes on with: a STALL also
takes a NAK out of `hcint`. -/
def inFirst (c : HcCore) (hcint : Finset HcBit) : HcCore × Finset HcBit :=
  if .ahberr ∈ hcint then ((c.clear .ahberr).unmaskChh, hcint)
  else if .ack ∈ hcint then (c.clear .ack, hcint)
  else if .stall ∈ hcint then
    (({ c.unmaskChh with hcStatus := .stall }.clear .nak |>.clear .stall).hcHalt, hcint.erase .nak)
  else if .datatglerr ∈ hcint then
    ({ c.unmaskChh.hcHalt.clear .nak with hcStatus := .datatglerr }.clear .datatglerr, hcint)
  else (c, hcint)

def inSecond (c : HcCore) (hcint : Finset HcBit) : HcCore :=
  if .frmovrun ∈ hcint then c.unmaskChh.hcHalt.clear .frmovrun
  else if .xfercompl ∈ hcint then
    { ({ c with hcStatus := .xfrc }.clear .xfercompl).unmaskChh.hcHalt.clear .nak with toggleIn := !c.toggleIn }
  else if .chhltd ∈ hcint then c.maskChh.inEnded.clear .chhltd
  else if .xacterr ∈ hcint then { c.unmaskChh with hcStatus := .xacterr }.hcHalt.clear .xacterr
  else if .nak ∈ hcint then ({ c with hcStatus := .nak }.clear .nak).reactivate
  else c

def handleHcIn (c : HcCore) : HcCore :=
  let first := c.inFirst c.conditions
  first.1.inSecond first.2

/-- What `USB_OTG_USBH_handle_hc_ISR()` does for a channel -/
def handleHc (c : HcCore) : HcCore := if c.epdir then c.handleHcIn else c.handleHcOut

variable {c before after : HcCore} {bit : HcBit}

structure Clears (before after : HcCore) : Prop where
  hcint : after.hcint ⊆ before.hcint
  bblerr : .bblerr ∈ before.hcint → .bblerr ∈ after.hcint
  hcintmsk : after.hcintmsk.erase .chhltd = before.hcintmsk.erase .chhltd
  epdir : after.epdir = before.epdir
  eptype : after.eptype = before.eptype
  doPing : after.doPing = before.doPing

theorem Clears.refl (c : HcCore) : c.Clears c := ⟨subset_rfl, id, rfl, rfl, rfl, rfl⟩

theorem Clears.trans {middle : HcCore} (first : before.Clears middle) (second : middle.Clears after) :
    before.Clears after where
  hcint := second.hcint.trans first.hcint
  bblerr waits := second.bblerr (first.bblerr waits)
  hcintmsk := second.hcintmsk.trans first.hcintmsk
  epdir := second.epdir.trans first.epdir
  eptype := second.eptype.trans first.eptype
  doPing := second.doPing.trans first.doPing

structure Drops (bit : HcBit) (before after : HcCore) : Prop extends before.Clears after where
  dropped : bit ∉ after.hcint

theorem Drops.of_erase
    (hcint : after.hcint = before.hcint.erase bit ∨ after.hcint = (before.hcint.erase .nak).erase bit)
    (known : bit ≠ .bblerr) (hcintmsk : after.hcintmsk.erase .chhltd = before.hcintmsk.erase .chhltd)
    (epdir : after.epdir = before.epdir) (eptype : after.eptype = before.eptype)
    (doPing : after.doPing = before.doPing) : before.Drops bit after := by
  refine ⟨⟨?_, ?_, hcintmsk, epdir, eptype, doPing⟩, ?_⟩ <;> rcases hcint with hcint | hcint <;> rw [hcint]
  · exact Finset.erase_subset _ _
  · exact (Finset.erase_subset _ _).trans (Finset.erase_subset _ _)
  · exact fun waits => Finset.mem_erase.mpr ⟨known.symm, waits⟩
  · exact fun waits => Finset.mem_erase.mpr ⟨known.symm, Finset.mem_erase.mpr ⟨by decide, waits⟩⟩
  · exact Finset.notMem_erase bit _
  · exact Finset.notMem_erase bit _

theorem unmasked (c : HcCore) : c.unmaskChh.hcintmsk.erase .chhltd = c.hcintmsk.erase .chhltd :=
  Finset.erase_insert_eq_erase c.hcintmsk _

/-- One of the conditions in `hcint` has been answered, or there were none but those that are left. -/
def Answers (c next : HcCore) (hcint left : Finset HcBit) : Prop :=
  (∃ bit ∈ hcint, c.Drops bit next) ∨ next = c ∧ hcint ⊆ left

theorem Answers.check {next rest : HcCore} {hcint left : Finset HcBit} (drops : c.Drops bit next)
    (others : c.Answers rest hcint left) : c.Answers (if bit ∈ hcint then next else rest) hcint (left.erase bit) := by
  split
  · exact .inl ⟨bit, ‹_›, drops⟩
  · rename_i absent
    refine others.imp_right fun ⟨same, within⟩ => ⟨same, fun other member => ?_⟩
    exact Finset.mem_erase.mpr ⟨fun equal => absent (equal ▸ member), within member⟩

theorem Answers.none (c : HcCore) (hcint : Finset HcBit) : c.Answers c hcint Finset.univ :=
  .inr ⟨rfl, Finset.subset_univ hcint⟩

theorem Answers.clears {next : HcCore} {hcint left : Finset HcBit} (answers : c.Answers next hcint left) :
    c.Clears next := by
  rcases answers with ⟨bit, -, drops⟩ | ⟨rfl, -⟩
  · exact drops.toClears
  · exact .refl _

theorem outEnded_drops (c : HcCore) : c.Drops .chhltd (c.maskChh.outEnded.clear .chhltd) := by
  rw [outEnded]
  cases c.maskChh.hcStatus
  case nyet =>
    refine .of_erase (.inl ?_) (by decide) ?_ ?_ ?_ ?_ <;> dsimp only [clear] <;> split <;> simp [maskChh, reactivate]
  all_goals exact .of_erase (.inl rfl) (by decide) (by simp [clear, maskChh]) rfl rfl rfl

theorem handleHcOut_answers (c : HcCore) : c.Answers c.handleHcOut c.conditions {.bblerr} := by
  have left : ((((((((((Finset.univ : Finset HcBit).erase .chhltd).erase .datatglerr).erase .nyet).erase .xacterr).erase
      .nak).erase .stall).erase .xfercompl).erase .frmovrun).erase .ack).erase .ahberr = {.bblerr} := by decide
  rw [← left, handleHcOut]
  have unmasked := c.unmasked
  refine .check (.of_erase (.inl rfl) (by decide) unmasked rfl rfl rfl) ?_
  refine .check (.of_erase (.inl rfl) (by decide) rfl rfl rfl rfl) ?_
  refine .check (.of_erase (.inl rfl) (by decide) unmasked rfl rfl rfl) ?_
  refine .check (.of_erase (.inl rfl) (by decide) unmasked rfl rfl rfl) ?_
  refine .check (.of_erase (.inl rfl) (by decide) unmasked rfl rfl rfl) ?_
  refine .check (.of_erase (.inl rfl) (by decide) unmasked rfl rfl rfl) ?_
  refine .check (.of_erase (.inl rfl) (by decide) unmasked rfl rfl rfl) ?_
  refine .check (.of_erase (.inl rfl) (by decide) unmasked rfl rfl rfl) ?_
  refine .check (.of_erase (.inr rfl) (by decide) unmasked rfl rfl rfl) ?_
  exact .check c.outEnded_drops (.none c _)

theorem inFirst_answers (c : HcCore) (hcint : Finset HcBit) :
    (∃ bit ∈ hcint, c.Drops bit (c.inFirst hcint).1) ∨
      c.inFirst hcint = (c, hcint) ∧ .ahberr ∉ hcint ∧ .ack ∉ hcint ∧ .stall ∉ hcint ∧ .datatglerr ∉ hcint := by
  have unmasked := c.unmasked
  rw [inFirst]
  split
  · exact .inl ⟨.ahberr, ‹_›, .of_erase (.inl rfl) (by decide) unmasked rfl rfl rfl⟩
  split
  · exact .inl ⟨.ack, ‹_›, .of_erase (.inl rfl) (by decide) rfl rfl rfl rfl⟩
  split
  · exact .inl ⟨.stall, ‹_›, .of_erase (.inr rfl) (by decide) unmasked rfl rfl rfl⟩
  split
  · exact .inl ⟨.datatglerr, ‹_›, .of_erase (.inr rfl) (by decide) unmasked rfl rfl rfl⟩
  · exact .inr ⟨rfl, ‹_›, ‹_›, ‹_›, ‹_›⟩

theorem inEnded_drops (c : HcCore) : c.Drops .chhltd (c.maskChh.inEnded.clear .chhltd) := by
  rw [inEnded]
  cases c.maskChh.hcStatus
  all_goals exact .of_erase (.inl rfl) (by decide) (by simp [clear, maskChh]) rfl rfl rfl

theorem xfercompl_drops (c : HcCore) : c.Drops .xfercompl
    { ({ c with hcStatus := .xfrc }.clear .xfercompl).unmaskChh.hcHalt.clear .nak with toggleIn := !c.toggleIn } :=
  .of_erase (.inr Finset.erase_right_comm) (by decide) c.unmasked rfl rfl rfl

theorem inSecond_answers (c : HcCore) (hcint : Finset HcBit) :
    c.Answers (c.inSecond hcint) hcint {.ahberr, .ack, .stall, .datatglerr, .nyet, .bblerr} := by
  have left : (((((Finset.univ : Finset HcBit).erase .nak).erase .xacterr).erase .chhltd).erase .xfercompl).erase
      .frmovrun = {.ahberr, .ack, .stall, .datatglerr, .nyet, .bblerr} := by decide
  have unmasked := c.unmasked
  rw [← left, inSecond]
  refine .check (.of_erase (.inl rfl) (by decide) unmasked rfl rfl rfl) ?_
  refine .check c.xfercompl_drops ?_
  refine .check c.inEnded_drops ?_
  refine .check (.of_erase (.inl rfl) (by decide) unmasked rfl rfl rfl) ?_
  exact .check (.of_erase (.inl rfl) (by decide) rfl rfl rfl rfl) (.none c _)

theorem Drops.of_clears {middle : HcCore} (drops : before.Drops bit middle) (clears : middle.Clears after) :
    before.Drops bit after :=
  ⟨drops.toClears.trans clears, fun waits => drops.dropped (clears.hcint waits)⟩

theorem handleHcIn_answers (c : HcCore) : c.Answers c.handleHcIn c.conditions {.bblerr, .nyet} := by
  rw [handleHcIn]
  rcases c.inFirst_answers c.conditions with ⟨bit, waits, drops⟩ | ⟨same, noAhberr, noAck, noStall, noToggle⟩
  · exact .inl ⟨bit, waits, drops.of_clears (inSecond_answers _ _).clears⟩
  · rw [same]
    refine (c.inSecond_answers c.conditions).imp_right fun ⟨rest, within⟩ => ⟨rest, fun bit waits => ?_⟩
    have left := within waits
    cases bit <;> simp_all

theorem handleHc_answers (c : HcCore) :
    c.Answers c.handleHc c.conditions (if c.epdir then {.bblerr, .nyet} else {.bblerr}) := by
  rw [handleHc]
  split
  · exact c.handleHcIn_answers
  · exact c.handleHcOut_answers

/-- HCINTMSK is as `USB_OTG_HC_Init()` or `USB_OTG_CoreInitHost()` has left it, but for `chhltd`. -/
def Masked (c : HcCore) : Prop := c.hcintmsk.erase .chhltd = initMask c.epdir c.doPing ∨ c.hcintmsk = ∅

theorem Masked.chosen (masked : c.Masked) (waits : bit ∈ c.conditions) (other : bit ≠ .chhltd) :
    bit ∈ initMask c.epdir c.doPing := by
  obtain ⟨-, unmasked⟩ := Finset.mem_inter.mp waits
  rcases masked with mask | mask
  · rw [← mask]
    exact Finset.mem_erase.mpr ⟨other, unmasked⟩
  · rw [mask] at unmasked
    cases unmasked

theorem Masked.babble (masked : c.Masked) (waits : .bblerr ∈ c.conditions) : c.epdir = true := by
  have chosen := masked.chosen waits (by decide)
  revert chosen
  cases c.epdir <;> cases c.doPing <;> decide

/-- What the handlers leave of the conditions that are unmasked can only be a babble. -/
theorem Masked.left (masked : c.Masked) (within : c.conditions ⊆ if c.epdir then {.bblerr, .nyet} else {.bblerr})
    (waits : bit ∈ c.conditions) : bit = .bblerr := by
  have left := within waits
  have chosen := masked.chosen waits
  revert left chosen
  cases c.epdir <;> cases c.doPing <;> cases bit <;> decide

theorem Clears.bblerr_iff (clears : before.Clears after) :
    .bblerr ∈ after.conditions ↔ .bblerr ∈ before.conditions := by
  have unmasked : .bblerr ∈ after.hcintmsk ↔ .bblerr ∈ before.hcintmsk := by
    have same := congrArg (fun mask => HcBit.bblerr ∈ mask) clears.hcintmsk
    simpa using same
  rw [conditions, conditions, Finset.mem_inter, Finset.mem_inter, unmasked]
  exact and_congr_left fun _ => ⟨fun waits => clears.hcint waits, clears.bblerr⟩

theorem Drops.work (drops : before.Drops bit after) (waits : bit ∈ before.conditions) :
    after.hcint.card < before.hcint.card := by
  refine Finset.card_lt_card ⟨drops.hcint, fun back => drops.dropped (back ?_)⟩
  exact (Finset.mem_inter.mp waits).1

/-- A channel in `USB_OTG_USBH_handle_hc_ISR()` -/
def serve (c : HcCore) : HcCore := if c.conditions.Nonempty then c.handleHc else c

theorem serve_clears (c : HcCore) : c.Clears c.serve := by
  rw [serve]
  split
  · exact c.handleHc_answers.clears
  · exact .refl c

theorem Masked.serve (masked : c.Masked) : c.serve.Masked := by
  rcases masked with mask | mask
  · have clears := c.serve_clears
    left
    rw [clears.hcintmsk, clears.epdir, clears.doPing]
    exact mask
  · have same : c.serve = c := by simp [HcCore.serve, conditions, mask]
    rw [same]
    exact .inr mask

theorem serve_progress (masked : c.Masked) (noBabble : .bblerr ∉ c.conditions) (due : c.conditions.Nonempty) :
    c.serve.hcint.card < c.hcint.card := by
  rw [HcCore.serve, if_pos due]
  rcases c.handleHc_answers with ⟨bit, waits, drops⟩ | ⟨-, within⟩
  · exact drops.work waits
  · obtain ⟨bit, waits⟩ := due
    obtain rfl := masked.left within waits
    exact absurd waits noBabble

theorem serve_ends (masked : c.Masked) (noBabble : .bblerr ∉ c.conditions) : (HcCore.serve^[11] c).conditions = ∅ := by
  rw [← Finset.not_nonempty_iff_eq_empty]
  have kept (c : HcCore) (keeps : c.Masked ∧ .bblerr ∉ c.conditions) : c.serve.Masked ∧ .bblerr ∉ c.serve.conditions :=
    ⟨keeps.1.serve, fun babble => keeps.2 (c.serve_clears.bblerr_iff.mp babble)⟩
  refine iterate_drained _ (fun c => c.hcint.card) kept (fun c keeps => serve_progress keeps.1 keeps.2)
    (fun c quiet => if_neg quiet) ⟨masked, noBabble⟩ ?_
  exact Finset.card_le_univ c.hcint

theorem serve_storms (babble : .bblerr ∈ c.conditions) (k : Nat) : .bblerr ∈ (HcCore.serve^[k] c).conditions :=
  Function.Iterate.rec (fun c : HcCore => HcBit.bblerr ∈ c.conditions) babble
    (fun c waits => c.serve_clears.bblerr_iff.mpr waits) k

def cleared : HcCore where
  hcint := ∅
  hcintmsk := ∅
  epdir := false
  eptype := .ctrl
  chen := false
  chdis := false
  doPing := false
  hcStatus := .idle
  urbState := .idle
  toggleIn := false
  toggleOut := false

end HcCore

/-- `cfg.host_channels` of the full-speed core -/
def hostChannels : Nat := 8

abbrev HcCores := Nat → HcCore

inductive HcInput where
  /-- The core raises conditions on a channel; `chhltd` tells that it has disabled it. -/
  | raise (num : Nat) (hcint : Finset HcBit)
  | isr
  | hcInit (num : Nat) (epIsIn : Bool) (epType : EpType) (doPing : Bool)
  /-- `USB_OTG_HC_StartXfer()` -/
  | startXfer (num : Nat)
  /-- The stack sets what it keeps of a channel. -/
  | assign (num : Nat) (hcStatus : HcStatus) (urbState : UrbState) (toggleIn toggleOut : Bool)
  /-- `HCD_Init()` resets the core and clears HCINT and HCINTMSK of all channels. -/
  | init

namespace HcCores

variable {channels : HcCores} {num : Nat}

/-- `USB_OTG_USBH_handle_hc_ISR()`, with HAINT read once -/
def handleHcIsr (channels : HcCores) : HcCores :=
  (List.range hostChannels).foldl
    (fun next i => if (channels i).conditions.Nonempty then Function.update next i (next i).handleHc else next) channels

def boot : HcCores := fun _ => .cleared

def step (channels : HcCores) : HcInput → HcCores
  | .raise num hcint =>
    Function.update channels num
      { channels num with
        hcint := (channels num).hcint ∪ hcint
        chen := (channels num).chen && .chhltd ∉ hcint
        chdis := (channels num).chdis && .chhltd ∉ hcint }
  | .isr => channels.handleHcIsr
  | .hcInit num epIsIn epType doPing => Function.update channels num ((channels num).hcInit epIsIn epType doPing)
  | .startXfer num => Function.update channels num (channels num).reactivate
  | .assign num hcStatus urbState toggleIn toggleOut =>
    Function.update channels num { channels num with hcStatus, urbState, toggleIn, toggleOut }
  | .init => fun num =>
    { channels num with
      hcint := ∅, hcintmsk := ∅
      epdir := false, eptype := .ctrl, chen := false, chdis := false }

def run (inputs : List HcInput) : HcCores := inputs.foldl step boot

theorem handleHcIsr_loop (channels : HcCores) (n : Nat) :
    (List.range n).foldl (fun next i => if (channels i).conditions.Nonempty then
      Function.update next i (next i).handleHc else next) channels =
        fun num => if num < n then (channels num).serve else channels num := by
  induction n with
  | zero => rfl
  | succ n ih =>
    rw [List.range_succ, List.foldl_append, ih]
    funext num
    rw [List.foldl_cons, List.foldl_nil]
    by_cases here : num = n
    · subst here
      simp only [Nat.lt_succ_self, if_true, HcCore.serve]
      split <;> simp
    · have order : num < n + 1 ↔ num < n := by omega
      split <;> simp [Function.update_of_ne here, order]

theorem handleHcIsr_iterate (channels : HcCores) (below : num < hostChannels) (k : Nat) :
    (handleHcIsr^[k] channels) num = HcCore.serve^[k] (channels num) := by
  induction k generalizing channels with
  | zero => rfl
  | succ k ih =>
    rw [Function.iterate_succ_apply, Function.iterate_succ_apply, ih, handleHcIsr, handleHcIsr_loop]
    exact congrArg _ (if_pos below)

theorem step_masked (input : HcInput) (masked : ∀ num, (channels num).Masked) (num : Nat) :
    (channels.step input num).Masked := by
  cases input with
  | isr =>
    rw [step, handleHcIsr, handleHcIsr_loop]
    dsimp only
    split
    · exact (masked num).serve
    · exact masked num
  | init => exact .inr rfl
  | hcInit n epIsIn epType doPing =>
    rw [step, Function.update_apply]
    split
    · left
      cases epIsIn <;> cases doPing <;> rfl
    · exact masked num
  | raise n hcint =>
    rw [step, Function.update_apply]
    split
    · rename_i here
      subst here
      exact masked num
    · exact masked num
  | startXfer n =>
    rw [step, Function.update_apply]
    split
    · rename_i here
      subst here
      exact masked num
    · exact masked num
  | assign n hcStatus urbState toggleIn toggleOut =>
    rw [step, Function.update_apply]
    split
    · rename_i here
      subst here
      exact masked num
    · exact masked num

theorem run_masked (inputs : List HcInput) (num : Nat) : (run inputs num).Masked := by
  suffices kept : ∀ channels : HcCores, (∀ num, (channels num).Masked) → (inputs.foldl step channels num).Masked from
    kept boot fun _ => .inr rfl
  induction inputs with
  | nil => exact fun channels masked => masked num
  | cons input rest ih => exact fun channels masked => ih (channels.step input) (step_masked input masked)

/-- The interrupt of the channels goes away when the handler has run often enough, unless a babble waits on an IN
channel: then it never does. -/
theorem channel_interrupts_end (inputs : List HcInput) :
    ((∀ num < hostChannels, .bblerr ∉ (run inputs num).conditions) →
      ∀ num < hostChannels, ((handleHcIsr^[11] (run inputs)) num).conditions = ∅) ∧
    ∀ num < hostChannels, .bblerr ∈ (run inputs num).conditions →
      (run inputs num).epdir = true ∧ ∀ k, ((handleHcIsr^[k] (run inputs)) num).conditions.Nonempty := by
  constructor
  · intro noBabble num below
    rw [handleHcIsr_iterate _ below]
    exact HcCore.serve_ends (run_masked inputs num) (noBabble num below)
  · intro num below babble
    refine ⟨(run_masked inputs num).babble babble, fun k => ?_⟩
    rw [handleHcIsr_iterate _ below]
    exact ⟨.bblerr, HcCore.serve_storms babble k⟩

def babbling : List HcInput := [.hcInit 3 true .bulk false, .startXfer 3, .raise 3 {.bblerr, .chhltd}]

theorem channel_interrupts_end_babbling :
    (run babbling 3).epdir = true ∧ ∀ k, ((handleHcIsr^[k] (run babbling)) 3).conditions.Nonempty :=
  (channel_interrupts_end babbling).2 3 (by decide) (by decide)

end HcCores

/-- The conditions that the driver's handlers know -/
def shownHcint (hcint : Finset HcBit) : HcInt where
  xfercompl := .xfercompl ∈ hcint
  stall := .stall ∈ hcint
  nak := .nak ∈ hcint
  xacterr := .xacterr ∈ hcint
  nyet := .nyet ∈ hcint
  datatglerr := .datatglerr ∈ hcint
  chhltd := .chhltd ∈ hcint

/-- `USB_OTG_USBH_handle_hc_n_In_ISR()` after its first conditions -/
def Hcd.handleHcInRest (pdev : Hcd) (num : Nat) (hcint : HcInt) : Hcd :=
  if hcint.xfercompl then (pdev.halt num .xfrc).edit num fun c => { c with toggleIn := !c.toggleIn }
  else if hcint.chhltd then
    let pdev := pdev.halted num
    match pdev.hcStatus num with
    | .xfrc => pdev.setUrb num .done
    | .stall => pdev.setUrb num .stall
    | .xacterr | .datatglerr => pdev.setUrb num .error
    | .idle | .nak | .nyet => pdev
  else if hcint.xacterr then pdev.halt num .xacterr
  else if hcint.nak ∧ ¬ hcint.stall then (pdev.setStatus num .nak).edit num fun c => { c with chen := true }
  else pdev

theorem handleHcIn_rest (pdev : Hcd) (num : Nat) (hcint : HcInt) :
    pdev.handleHcIn num hcint =
      (if hcint.stall then pdev.halt num .stall else if hcint.datatglerr then pdev.halt num .datatglerr
        else pdev).handleHcInRest num hcint := rfl

namespace HcCore

variable {c after : HcCore} {pdev : Hcd} {num : Nat} {bit : HcBit}

/-- The driver keeps of the channel what its registers and the stack's arrays hold. -/
structure Mirrors (c : HcCore) (pdev : Hcd) (num : Nat) : Prop where
  hcStatus : pdev.hcStatus num = c.hcStatus
  urbState : pdev.urbState num = c.urbState
  toggleIn : (pdev.hc num).toggleIn = c.toggleIn
  toggleOut : (pdev.hc num).toggleOut = c.toggleOut
  eptype : (pdev.hc num).eptype = c.eptype
  chhltd : (pdev.hc num).chhltd = decide (.chhltd ∈ c.hcintmsk)

theorem Mirrors.check {a b : HcCore} {x y : Hcd} {hcint : Finset HcBit} (yes : a.Mirrors x num) (no : b.Mirrors y num) :
    (if bit ∈ hcint then a else b).Mirrors (if decide (bit ∈ hcint) = true then x else y) num := by
  by_cases waits : bit ∈ hcint
  · simpa [waits] using yes
  · simpa [waits] using no

theorem Mirrors.cleared (mirrors : c.Mirrors pdev num) (bit : HcBit) : (c.clear bit).Mirrors pdev num :=
  ⟨mirrors.hcStatus, mirrors.urbState, mirrors.toggleIn, mirrors.toggleOut, mirrors.eptype, mirrors.chhltd⟩

theorem Mirrors.halt (mirrors : c.Mirrors pdev num) (hcint : Finset HcBit) (chen chdis : Bool) (hcStatus : HcStatus) :
    { c.unmaskChh with hcint, chen, chdis, hcStatus }.Mirrors (pdev.halt num hcStatus) num where
  hcStatus := by simp [Hcd.halt, Hcd.setStatus]
  urbState := mirrors.urbState
  toggleIn := by simpa [Hcd.halt, Hcd.setStatus, edit_hc, unmaskChh] using mirrors.toggleIn
  toggleOut := by simpa [Hcd.halt, Hcd.setStatus, edit_hc, unmaskChh] using mirrors.toggleOut
  eptype := by simpa [Hcd.halt, Hcd.setStatus, edit_hc, unmaskChh] using mirrors.eptype
  chhltd := by simp [Hcd.halt, Hcd.setStatus, edit_hc, unmaskChh]

theorem Mirrors.halted (mirrors : c.Mirrors pdev num) (hcint : Finset HcBit) :
    { c.maskChh with hcint }.Mirrors (pdev.halted num) num where
  hcStatus := mirrors.hcStatus
  urbState := mirrors.urbState
  toggleIn := by simpa [Hcd.halted, edit_hc, maskChh] using mirrors.toggleIn
  toggleOut := by simpa [Hcd.halted, edit_hc, maskChh] using mirrors.toggleOut
  eptype := by simpa [Hcd.halted, edit_hc, maskChh] using mirrors.eptype
  chhltd := by simp [Hcd.halted, edit_hc, maskChh]

theorem Mirrors.urb (mirrors : c.Mirrors pdev num) (urbState : UrbState) :
    { c with urbState }.Mirrors (pdev.setUrb num urbState) num where
  hcStatus := mirrors.hcStatus
  urbState := by simp [Hcd.setUrb]
  toggleIn := mirrors.toggleIn
  toggleOut := mirrors.toggleOut
  eptype := mirrors.eptype
  chhltd := mirrors.chhltd

/-- An OUT transfer has been acknowledged: a bulk channel takes the other data toggle. -/
theorem Mirrors.sent (mirrors : c.Mirrors pdev num) :
    { c with urbState := .done, toggleOut := if c.eptype = EpType.bulk then !c.toggleOut else c.toggleOut }.Mirrors
      ((pdev.setUrb num .done).edit num fun c =>
        if c.eptype = EpType.bulk then { c with toggleOut := !c.toggleOut } else c) num := by
  have eptype := mirrors.eptype
  refine ⟨mirrors.hcStatus, by simp [Hcd.setUrb, Hcd.edit], ?_, ?_, ?_, ?_⟩ <;>
    by_cases bulk : c.eptype = EpType.bulk <;>
    simp [Hcd.setUrb, edit_hc, eptype, bulk, mirrors.toggleIn, mirrors.toggleOut, mirrors.chhltd]

theorem Mirrors.toggled (mirrors : c.Mirrors pdev num) :
    { c with toggleIn := !c.toggleIn }.Mirrors (pdev.edit num fun c => { c with toggleIn := !c.toggleIn }) num where
  hcStatus := mirrors.hcStatus
  urbState := mirrors.urbState
  toggleIn := by simp [edit_hc, mirrors.toggleIn]
  toggleOut := by simpa [edit_hc] using mirrors.toggleOut
  eptype := by simpa [edit_hc] using mirrors.eptype
  chhltd := by simpa [edit_hc] using mirrors.chhltd

theorem Mirrors.nak (mirrors : c.Mirrors pdev num) (hcint : Finset HcBit) :
    { c with hcint, hcStatus := .nak, chen := true, chdis := false }.Mirrors
      ((pdev.setStatus num .nak).edit num fun c => { c with chen := true }) num where
  hcStatus := by simp [Hcd.setStatus, Hcd.edit]
  urbState := mirrors.urbState
  toggleIn := by simpa [Hcd.setStatus, edit_hc] using mirrors.toggleIn
  toggleOut := by simpa [Hcd.setStatus, edit_hc] using mirrors.toggleOut
  eptype := by simpa [Hcd.setStatus, edit_hc] using mirrors.eptype
  chhltd := by simpa [Hcd.setStatus, edit_hc] using mirrors.chhltd

theorem handleHcOut_mirrors (mirrors : c.Mirrors pdev num)
    (noDma : .ahberr ∉ c.conditions) (noPing : .ack ∉ c.conditions) (noFrame : .frmovrun ∉ c.conditions) :
    c.handleHcOut.Mirrors (pdev.handleHcOut num (shownHcint c.conditions)) num := by
  rw [handleHcOut, Hcd.handleHcOut]
  simp only [noDma, noPing, noFrame, if_false]
  refine .check (mirrors.halt ..) ?_
  refine .check (mirrors.halt ..) ?_
  refine .check (mirrors.halt ..) ?_
  refine .check (mirrors.halt ..) ?_
  refine .check (mirrors.halt ..) ?_
  refine .check (mirrors.halt ..) ?_
  refine .check ?_ mirrors
  have ended := mirrors.halted (c.hcint.erase .chhltd)
  have same : (pdev.halted num).hcStatus num = c.hcStatus := mirrors.hcStatus
  rw [same]
  obtain ⟨hcint, hcintmsk, epdir, eptype, chen, chdis, doPing, hcStatus, urbState, toggleIn, toggleOut⟩ := c
  cases hcStatus with
  | xfrc => exact ended.sent
  | nyet =>
    obtain ⟨hcStatus, urbState, toggleIn, toggleOut, eptype, chhltd⟩ := ended.urb .notready
    cases doPing <;> exact ⟨hcStatus, urbState, toggleIn, toggleOut, eptype, chhltd⟩
  | nak => exact ended.urb .notready
  | stall => exact ended.urb .stall
  | xacterr => exact ended.urb .error
  | idle => exact ended
  | datatglerr => exact ended

theorem inSecond_mirrors (mirrors : c.Mirrors pdev num) {hcint : Finset HcBit} (noFrame : .frmovrun ∉ hcint)
    {shown : HcInt} (xfercompl : shown.xfercompl = decide (.xfercompl ∈ hcint))
    (chhltd : shown.chhltd = decide (.chhltd ∈ hcint)) (xacterr : shown.xacterr = decide (.xacterr ∈ hcint))
    (nak : shown.nak = true ∧ ¬ shown.stall = true ↔ .nak ∈ hcint) :
    (c.inSecond hcint).Mirrors (pdev.handleHcInRest num shown) num := by
  rw [inSecond, Hcd.handleHcInRest]
  simp only [noFrame, if_false, xfercompl, chhltd, xacterr, nak]
  refine .check ?_ (.check ?_ (.check (mirrors.halt ..) ?_))
  · exact (mirrors.halt _ true true .xfrc).toggled
  · have ended := mirrors.halted (c.hcint.erase .chhltd)
    have same : (pdev.halted num).hcStatus num = c.hcStatus := mirrors.hcStatus
    rw [same]
    obtain ⟨hcint, hcintmsk, epdir, eptype, chen, chdis, doPing, hcStatus, urbState, toggleIn, toggleOut⟩ := c
    cases hcStatus with
    | xfrc => exact ended.urb .done
    | stall => exact ended.urb .stall
    | xacterr => exact ended.urb .error
    | datatglerr => exact ended.urb .error
    | idle => exact ended
    | nak => exact ended
    | nyet => exact ended
  · split
    · exact mirrors.nak _
    · exact mirrors

theorem handleHcIn_mirrors (mirrors : c.Mirrors pdev num)
    (noDma : .ahberr ∉ c.conditions) (noPing : .ack ∉ c.conditions) (noFrame : .frmovrun ∉ c.conditions) :
    c.handleHcIn.Mirrors (pdev.handleHcIn num (shownHcint c.conditions)) num := by
  have noFrame' : .frmovrun ∉ c.conditions.erase .nak := fun waits => noFrame (Finset.mem_of_mem_erase waits)
  rw [handleHcIn, handleHcIn_rest, inFirst]
  simp only [noDma, noPing, if_false]
  by_cases stall : .stall ∈ c.conditions
  · simp only [stall, if_true, shownHcint, decide_true]
    refine inSecond_mirrors (mirrors.halt ..) noFrame' ?_ ?_ ?_ ?_ <;> simp
  · by_cases toggle : .datatglerr ∈ c.conditions <;>
      simp only [stall, toggle, if_true, if_false, shownHcint, decide_true, decide_false, Bool.false_eq_true]
    · refine inSecond_mirrors (mirrors.halt ..) noFrame ?_ ?_ ?_ ?_ <;> simp
    · refine inSecond_mirrors mirrors noFrame ?_ ?_ ?_ ?_ <;> simp

end HcCore

namespace HcCores

/-- But for an ACK that waits beside other conditions. It is unmasked where a channel pings, and taken alone then. -/
theorem driver_agrees (inputs : List HcInput) (num : Nat) (pdev : Hcd)
    (alone : .ack ∈ (run inputs num).conditions → (run inputs num).conditions = {.ack})
    (mirrors : (run inputs num).Mirrors pdev num) :
    (run inputs num).handleHc.Mirrors
      (if (run inputs num).epdir then pdev.handleHcIn num (shownHcint (run inputs num).conditions)
        else pdev.handleHcOut num (shownHcint (run inputs num).conditions)) num := by
  have masked := run_masked inputs num
  generalize run inputs num = c at alone mirrors masked
  have unmasked (bit : HcBit) (never : bit ≠ .chhltd) (absent : ∀ epdir doPing, bit ∉ HcCore.initMask epdir doPing) :
      bit ∉ c.conditions := fun waits => absent c.epdir c.doPing (masked.chosen waits never)
  have noDma := unmasked .ahberr (by decide) (by decide)
  have noFrame := unmasked .frmovrun (by decide) (by decide)
  rw [HcCore.handleHc]
  by_cases ping : .ack ∈ c.conditions
  · have outward : c.epdir = false := by
      have chosen := masked.chosen ping (by decide)
      revert chosen
      cases c.epdir <;> cases c.doPing <;> decide
    rw [outward, HcCore.handleHcOut, if_neg noDma, if_pos ping, alone ping]
    exact mirrors.cleared .ack
  · split
    · exact HcCore.handleHcIn_mirrors mirrors noDma ping noFrame
    · exact HcCore.handleHcOut_mirrors mirrors noDma ping noFrame

def sending : List HcInput := [.hcInit 2 false .ctrl false, .startXfer 2, .raise 2 {.xfercompl}]

theorem driver_agrees_sending :
    (run sending 2).handleHc.Mirrors (zeroed.pdev.handleHcOut 2 (shownHcint {.xfercompl})) 2 := by
  have conditions : (run sending 2).conditions = {.xfercompl} := by decide
  have agrees := driver_agrees sending 2 zeroed.pdev (by rw [conditions]; decide) ⟨rfl, rfl, rfl, rfl, rfl, rfl⟩
  have outward : (run sending 2).epdir = false := rfl
  rw [outward, conditions, if_neg (by simp)] at agrees
  exact agrees

end HcCores

end Testjig.Usb
